import DemandPaging.Address

/-!
# Failures

A request can be *refused*, for a cause the caller is told (`Refusal`), or it can break an assertion
that nothing recovers from (`Violation`). `Action σ` is a computation on a state `σ` that may fail
either way and keeps the state it had reached. `Action.attempt` turns a refusal into a value and
lets a violation through; `Action.settle` turns both into values, so that the caller can clean up
before the failure goes on.
-/

namespace DemandPaging

/-- Why a request was refused. -/
inductive Refusal where
  /-- A page is already registered at this address. -/
  | pageExists (va : Address)
  /-- No page is registered at this address. -/
  | notMapped (va : Address)
  /-- A write to a page that is not logically writable. -/
  | writeProtected (va : Address)
  /-- A null, kernel or otherwise unusable address. -/
  | invalidAddress (va : Address)
  /-- A malformed request. -/
  | invalidArgument (reason : String)
  /-- No frame is free and none can be evicted. -/
  | outOfFrames
  /-- Every swap slot is occupied. -/
  | outOfSwap
  /-- The backing file gave fewer bytes than the page needs. -/
  | shortRead (expected actual : Nat)
  /-- The page table already maps an address believed free. -/
  | alreadyMapped (va : Address)
  /-- An internal invariant does not hold. -/
  | inconsistent (detail : String)
deriving DecidableEq

namespace Refusal

/-- The wording of a refusal. -/
def message : Refusal → String
  | pageExists va => "a page already exists at " ++ hexText va.toNat
  | notMapped va => "no page is mapped at " ++ hexText va.toNat
  | writeProtected va => "write to read-only page at " ++ hexText va.toNat
  | invalidAddress va => "invalid address " ++ hexText va.toNat
  | invalidArgument reason => "invalid argument: " ++ reason
  | outOfFrames => "out of physical frames"
  | outOfSwap => "swap space exhausted"
  | shortRead expected actual =>
    "short read from backing file: expected " ++ toString expected ++ " bytes, got "
      ++ toString actual
  | alreadyMapped va => "address " ++ hexText va.toNat ++ " is already mapped in the page table"
  | inconsistent detail => "inconsistent vm state: " ++ detail

/-- Whether the machine ran out of a resource. -/
def isExhaustion : Refusal → Bool
  | outOfFrames | outOfSwap => true
  | _ => false

/-- Whether the access was one the process was not allowed to make. -/
def isProtection : Refusal → Bool
  | writeProtected _ | invalidAddress _ | notMapped _ => true
  | _ => false

end Refusal

/-- An assertion that was broken. -/
inductive Violation where
  /-- A bitmap slot was released that is not allocated. -/
  | slotNotAllocated (slot : Nat)
  /-- An identity was released twice. -/
  | idReleased (id : Nat)
  /-- A frame was released that is not handed out. -/
  | frameNotAllocated (ppn : FrameNum)
  /-- A frame was recorded that is in the frame table already. -/
  | frameInUse (ppn : FrameNum)
  /-- A swap slot was read that holds nothing. -/
  | swapSlotFree (slot : Nat)
  /-- A range of pages was asked for with its bounds out of order. -/
  | rangeReversed (start stop : PageNum)
  /-- A file took fewer bytes than a page had to write back. -/
  | shortWriteBack (inode offset : Nat)
  /-- An index, a slice or an identity lies outside what exists. -/
  | outOfBounds
  /-- A list is asked for that no memory can hold. -/
  | tooLong
deriving DecidableEq

/-- The wording of a broken assertion; one about bounds has none. -/
def Violation.message? : Violation → Option String
  | slotNotAllocated slot => some ("slot " ++ toString slot ++ " is not allocated")
  | idReleased id => some ("id " ++ toString id ++ " has been deallocated!")
  | frameNotAllocated ppn => some ("Frame ppn=" ++ hexText ppn ++ " has not been allocated!")
  | frameInUse ppn => some ("frame " ++ ppn.describe ++ " is already in use")
  | swapSlotFree slot => some ("swap slot " ++ toString slot ++ " is not in use")
  | rangeReversed start stop =>
    some ("start " ++ start.describe ++ " > end " ++ stop.describe ++ "!")
  | shortWriteBack inode offset =>
    some ("short write-back to inode " ++ toString inode ++ " at offset " ++ hexText offset)
  | outOfBounds | tooLong => none

/-- A list can be made only if its entries together take fewer than 2^63 bytes. -/
def checkLength (entryBytes length : Nat) : Except Violation Unit :=
  if entryBytes * length < UInt64.size / 2 then .ok () else .error .tooLong

/-- How a computation fails. -/
inductive Failure where
  /-- The request was refused; the machine goes on. -/
  | refused (cause : Refusal)
  /-- An assertion was broken; nothing goes on. -/
  | fatal (broken : Violation)
deriving DecidableEq

/-- A computation on a state that keeps the state it reached when it fails. -/
abbrev Action (σ : Type) := EStateM Failure σ

namespace Action

variable {σ τ α : Type}

/-- Refuse the request. -/
def refuse (cause : Refusal) : Action σ α := throw (.refused cause)

/-- Break off on a violation. -/
def abort (broken : Violation) : Action σ α := throw (.fatal broken)

/-- The value of a computation that may be refused. -/
def permit : Except Refusal α → Action σ α
  | .ok a => pure a
  | .error cause => refuse cause

/-- The value of a computation that may break an assertion. -/
def assert : Except Violation α → Action σ α
  | .ok a => pure a
  | .error broken => abort broken

/-- The value if there is one; otherwise the request is refused. -/
def require (cause : Refusal) : Option α → Action σ α
  | some a => pure a
  | none => refuse cause

/-- Run `x`, making a refusal a value. The state reached by `x` is kept. -/
def attempt (x : Action σ α) : Action σ (Except Refusal α) := fun s =>
  match x s with
  | .ok a s => .ok (.ok a) s
  | .error (.refused cause) s => .ok (.error cause) s
  | .error (.fatal broken) s => .error (.fatal broken) s

/-- Run `x`, making any failure a value. The state reached by `x` is kept. -/
def settle {ε : Type} (x : EStateM ε σ α) : EStateM ε σ (Except ε α) := fun s =>
  match x s with
  | .ok a s => .ok (.ok a) s
  | .error failure s => .ok (.error failure) s

/-- Run `x` on a part of the state. -/
def within (part : τ → σ) (restore : σ → τ → τ) (x : Action σ α) : Action τ α := fun t =>
  match x (part t) with
  | .ok a s => .ok a (restore s t)
  | .error failure s => .error failure (restore s t)

end Action

end DemandPaging
