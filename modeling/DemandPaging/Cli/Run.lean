import DemandPaging.Cli.Directory
import DemandPaging.Cli.Help
import DemandPaging.Cli.Memory

/-!
# Running a command line

`run` does what a command line asks for over any `FileSystem`: it makes the swap image, runs the
workload on a fresh machine, keeps what the machine left in the files, and gives the lines to print
and the exit code.
-/

namespace DemandPaging.Cli

/-- What a command line answers with. -/
structure Outcome where
  /-- The exit code; none if the run did not get to its end for want of memory. -/
  code : Option Nat
  lines : List String := []
  /-- What is told about a failure, apart from the lines. -/
  trouble : Option String := none
deriving DecidableEq

/-- The line printed before anything is done. -/
def greeting (options : Options) : String :=
  "Running on " ++ toString options.frames ++ " frames with swap image " ++ options.swap ++ "..."

/-- The lines printed after a workload that succeeded. -/
def summary (s : Stats) : List String :=
  let c := s.counters
  [ "Workload verified.",
    "faults " ++ toString c.faults ++ ", evictions " ++ toString c.evictions ++ ", swap-outs "
      ++ toString c.swapOuts ++ ", swap-ins " ++ toString c.swapIns ++ ", cow breaks "
      ++ toString c.cowBreaks ++ ", write-backs " ++ toString c.writeBacks,
    "frames " ++ toString s.framesFree ++ "/" ++ toString s.framesTotal ++ " free, swap "
      ++ toString s.swapUsed ++ "/" ++ toString s.swapSlots ++ " used" ]

/-- The machine a command line runs on, over a fresh swap image. -/
def machineFor (options : Options) : Except Violation Machine :=
  Machine.boot { userFrames := options.frames } (.blank (options.swapPages * sectorsPerPage))

/-- The machine with a host file behind handle zero. -/
def withHost (machine : Machine) (host : Option SparseBytes) : Machine :=
  let files := host.toArray.map fun data => ({ data, inode := 1, grows := true } : File)
  { machine with backing := { machine.backing with files := .ofFiles files } }

/-- A workload as a computation; the host file is handle zero. -/
def Workload.start (workload : Workload) : WorkloadM SplitMix Unit :=
  match workload with
  | anon pages rounds => DemandPaging.Workload.anon SplitMix.choices pages rounds
  | fork pages => DemandPaging.Workload.fork SplitMix.choices pages
  | mmap _ => DemandPaging.Workload.mapFile SplitMix.choices 0

/-- The path of the host file a workload maps. -/
def Workload.host? : Workload → Option String
  | mmap file => some file
  | _ => none

/-- The outcome of a workload that stopped early. -/
def stopped (options : Options) : WorkloadStop → Outcome
  | .failed error => ⟨some 1, [greeting options], some error.message⟩
  | .broken violation => ⟨some 101, [greeting options], violation.message?⟩

/-- The outcome of a run that asks for more memory than there is. -/
def exhausted (options : Options) : Outcome := ⟨none, [greeting options], some "out of memory"⟩

section

variable {m : Type → Type} [Monad m]

/-- Keep what a machine left in the files, the host file first. -/
def save (fs : FileSystem m) (options : Options) (machine : Machine) : m Unit := do
  if let some path := options.workload.host? then
    fs.save path (machine.backing.files.file 0).data
  fs.save options.swap machine.backing.swap.disk.data

/-- Whether the host file still holds what the machine left in it, read again after all else was
kept. -/
def hostKept (fs : FileSystem m) (options : Options) (machine : Machine) : m Bool := do
  match options.workload.host? with
  | none => return true
  | some path =>
    return (← fs.read path).map SparseBytes.toBytes ==
      some (machine.backing.files.file 0).data.toBytes

/-- Run the workload on a machine. -/
def runWorkload (fs : FileSystem m) (options : Options) (machine : Machine) : m Outcome := do
  let bench : Bench SplitMix := { machine, random := ⟨UInt64.ofNat options.seed⟩ }
  match options.workload.start bench with
  | .ok () bench =>
    save fs options bench.machine
    if ← hostKept fs options bench.machine then
      return { code := some 0, lines := greeting options :: summary bench.machine.stats }
    else
      return stopped options (.failed .fileMismatch)
  | .error stop bench =>
    save fs options bench.machine
    return stopped options stop

/-- Find the host file and run the workload. -/
def runOn (fs : FileSystem m) (options : Options) (machine : Machine) : m Outcome := do
  match options.workload.host? with
  | none => runWorkload fs options (withHost machine none)
  | some path =>
    match ← fs.read path with
    | some data =>
      if hostExceedsMemory machine.config data.size then return exhausted options
      else runWorkload fs options (withHost machine (some data))
    | none => return ⟨some 1, [greeting options], some ("cannot read " ++ path)⟩

/-- Make the swap image and the machine, and run the workload on it. -/
def runOptions (fs : FileSystem m) (options : Options) : m Outcome := do
  if ← fs.create options.swap (options.swapPages * pageSize) then
    match machineFor options with
    | .ok machine =>
      if options.exceedsMemory then return exhausted options else runOn fs options machine
    | .error violation => return stopped options (.broken violation)
  else
    return ⟨some 1, [greeting options], some ("cannot create " ++ options.swap)⟩

/-- Do what a command line asks for. -/
def run (fs : FileSystem m) (args : List String) : m Outcome :=
  match parse args with
  | .ok options => runOptions fs options
  | .error (.help topic) => return { code := some 0, lines := topic.helpLines }
  | .error .version => return { code := some 0, lines := [versionLine] }
  | .error (.usage error) => return { code := some 2, trouble := some error.message }

end

end DemandPaging.Cli
