import DemandPaging.Machine.Audit
import DemandPaging.Operation
import DemandPaging.Random

/-!
# Paging workloads

Programs that use a machine and check that paging cannot be seen: anonymous pages that are checked
and overwritten in random order, a fork whose child overwrites everything, and a file that is
overwritten through a mapping. A workload tears its spaces down whether it succeeds or not.
-/

namespace DemandPaging

/-- Why a workload fails. -/
inductive WorkloadError where
  /-- The machine refused something. -/
  | refused (cause : Refusal)
  /-- A page of parent, child or the only process was read back with another content. -/
  | lostPage (who : String) (page : Nat)
  /-- The mapped file does not hold what was written through the mapping. -/
  | fileMismatch
deriving DecidableEq

/-- The wording of a failure. -/
def WorkloadError.message : WorkloadError → String
  | refused cause => cause.message
  | lostPage who page => who ++ " page " ++ toString page ++ " lost its content"
  | fileMismatch => "host file does not match the mapping"

/-- How a workload stops early. -/
inductive WorkloadStop where
  | failed (error : WorkloadError)
  | broken (violation : Violation)
deriving DecidableEq

/-- What a workload works with: a machine, and the state of its random choices. -/
structure Bench (γ : Type) where
  machine : Machine
  random : γ

/-- A workload with random choices of state `γ`. -/
abbrev WorkloadM (γ : Type) := EStateM WorkloadStop (Bench γ)

namespace WorkloadM

variable {γ α : Type}

/-- Run a step of the machine. -/
def onMachine (x : MachineM α) : WorkloadM γ α := fun ⟨machine, random⟩ =>
  match x machine with
  | .ok a machine => .ok a ⟨machine, random⟩
  | .error (.refused cause) machine => .error (.failed (.refused cause)) ⟨machine, random⟩
  | .error (.fatal violation) machine => .error (.broken violation) ⟨machine, random⟩

/-- Make a random choice. -/
def choose (x : γ → α × γ) : WorkloadM γ α :=
  modifyGet fun bench =>
    let (a, random) := x bench.random
    (a, { bench with random })

/-- Fail. -/
def fail (error : WorkloadError) : WorkloadM γ α := throw (.failed error)

/-- Run `x` with a space, and tear the space down afterwards, also when `x` fails. -/
def withSpace (acquire : MachineM SpaceId) (x : SpaceId → WorkloadM γ α) : WorkloadM γ α := do
  let id ← onMachine acquire
  let result ← Action.settle (x id)
  onMachine (Machine.destroySpace id)
  match result with
  | .ok a => return a
  | .error stop => throw stop

/-- Fail if the machine is not in order. -/
def audit : WorkloadM γ Unit := do
  onMachine (Action.permit (← get).machine.audit)

end WorkloadM

namespace Workload

open WorkloadM

variable {γ : Type}

/-- Where the pages of a workload are placed. -/
def dataBase : Nat := 0x10000000

/-- Where a mapping is placed. -/
def mapBase : Address := .ofNat 0x20000000

/-- The address of page `i`. -/
def pageAddr (i : Nat) : Address := .ofNat (dataBase + i * pageSize)

/-- Register page `i` and fill it with random bytes, which are returned. -/
def fillPage (choices : Choices γ) (id : SpaceId) (i : Nat) : WorkloadM γ Bytes := do
  onMachine (Machine.register id .anon (pageAddr i) true .zero)
  let bytes ← choose (choices.bytes pageSize)
  onMachine (Machine.write id (pageAddr i) bytes)
  return bytes

/-- Register and fill `left` pages from page `i` on, in order, after those that were filled. -/
def fillFrom (choices : Choices γ) (id : SpaceId) (i : Nat) :
    (left : Nat) → (filled : Array Bytes) → WorkloadM γ (Array Bytes)
  | 0, filled => return filled
  | left + 1, filled => do
    let bytes ← fillPage choices id i
    fillFrom choices id (i + 1) left (filled.push bytes)

/-- The bytes a page content takes in the list of contents to compare with. -/
def entryBytes : Nat := 24

/-- Register the first `pages` pages and fill them, in order. There has to be a list that can hold
their contents. -/
def fill (choices : Choices γ) (id : SpaceId) (pages : Nat) : WorkloadM γ (Array Bytes) := do
  onMachine (Action.assert (checkLength entryBytes pages))
  fillFrom choices id 0 pages #[]

/-- Fail unless page `i` reads as `expected`. -/
def verify (id : SpaceId) (i : Nat) (expected : Bytes) (who : String) : WorkloadM γ Unit := do
  let result ← onMachine (Machine.read id (pageAddr i) pageSize)
  match result.stopped with
  | some cause => fail (.refused cause)
  | none =>
    if result.bytes ≠ expected then
      fail (.lostPage who i)

/-- Check a page and give it another random content. -/
def renew (choices : Choices γ) (id : SpaceId) (expected : Array Bytes) (i : Nat) :
    WorkloadM γ (Array Bytes) := do
  verify id i (expected[i]?.getD #[]) "anon"
  let bytes ← choose (choices.bytes pageSize)
  onMachine (Machine.write id (pageAddr i) bytes)
  return expected.setIfInBounds i bytes

/-- Rounds from `round` on: each visits every page in a new random order. -/
def rounds (choices : Choices γ) (id : SpaceId) (round : Nat) :
    Nat → (order : Array Nat) → (expected : Array Bytes) → WorkloadM γ Unit
  | 0, _, _ => pure ()
  | left + 1, order, expected => do
    let order ← choose (choices.shuffle order)
    let expected ← order.toList.foldlM (renew choices id) expected
    onMachine (Machine.note (.roundVerified round order.size))
    rounds choices id (round + 1) left order expected

/-- Fill `pages` anonymous pages, then check and overwrite them in so many rounds. -/
def anon (choices : Choices γ) (pages count : Nat) : WorkloadM γ Unit :=
  withSpace Machine.createSpace fun id => do
    let expected ← fill choices id pages
    rounds choices id 0 count (Array.range pages) expected
    audit

/-- Overwrite page `i` with random bytes, which are returned. -/
def overwrite (choices : Choices γ) (id : SpaceId) (i : Nat) : WorkloadM γ Bytes := do
  let bytes ← choose (choices.bytes pageSize)
  onMachine (Machine.write id (pageAddr i) bytes)
  return bytes

/-- Fill pages, fork, overwrite them in the child, and check both sides. -/
def fork (choices : Choices γ) (pages : Nat) : WorkloadM γ Unit :=
  withSpace Machine.createSpace fun parent => do
    let before ← fill choices parent pages
    withSpace (Machine.fork parent) fun child => do
      let after ← (List.range pages).mapM (overwrite choices child)
      (before.toList.zip after).zipIdx.forM fun ((before, after), i) => do
        verify parent i before "parent"
        verify child i after "child"
      audit

/-- Map the whole file behind `handle`, overwrite it through the mapping, force evictions, unmap,
and compare the file. -/
def mapFile (choices : Choices γ) (handle : HandleNum) : WorkloadM γ Unit := do
  let length := ((← get).machine.backing.files.fileOf handle).size
  let expected ← withSpace Machine.createSpace fun id => do
    let _ ← onMachine (Machine.mapFile id mapBase length true handle 0)
    let expected ← choose (choices.bytes length)
    onMachine (Machine.write id mapBase expected)
    let _ ← fill choices id ((← get).machine.config.userFrames * 2)
    let evictions := (← get).machine.counters.evictions
    onMachine (Machine.note (.churned evictions))
    onMachine (Machine.unmap id mapBase)
    audit
    return expected
  if ((← get).machine.backing.files.fileOf handle).data.toBytes ≠ expected then
    fail .fileMismatch

end Workload

end DemandPaging
