import DemandPaging.Cli.Run

/-!
# The program

Runs the command line over the files of the host, prints its lines, and exits with its code.
-/

namespace DemandPaging

/-- Bytes as the host takes them. -/
def hostBytes (data : Bytes) : ByteArray := ⟨data⟩

/-- Whether an action on a file went through. -/
def wentThrough (action : IO Unit) : IO Bool := do
  try
    action
    return true
  catch _ => return false

/-- The files of the host. -/
def hostFiles : Cli.FileSystem IO where
  create path size := wentThrough do
    IO.FS.writeBinFile path .empty
    IO.FS.writeBinFile path ⟨Array.replicate size 0⟩
  read path := do
    try
      return some (.ofBytes (← IO.FS.readBinFile path).data)
    catch _ => return none
  save path content := IO.FS.writeBinFile path (hostBytes content.toBytes)

end DemandPaging

/-- Run the command line. A run without an exit code ends with 134, as if it was aborted. -/
def main (args : List String) : IO UInt32 := do
  let outcome ← DemandPaging.Cli.run DemandPaging.hostFiles args
  outcome.lines.forM IO.println
  outcome.trouble.forM fun text => IO.eprintln ("error: " ++ text)
  return UInt32.ofNat (outcome.code.getD 134)
