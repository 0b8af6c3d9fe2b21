import DemandPaging.Storage.Swap

/-!
# Anonymous pages

An anonymous page lives in a frame or in a swap slot. Its own state is the slot that holds it while
it is evicted. Several pages may hold one slot, when they shared the frame that was evicted; then
one of them takes the content out of swap and the others forget the slot.
-/

namespace DemandPaging

/-- The swap slot that holds an anonymous page, if one does. -/
structure AnonPage where
  slot : Option Nat := none
deriving DecidableEq

namespace AnonPage

/-- Bring the page into `frame` and free its slot. A page without a slot leaves the frame as it
is. -/
def load (page : AnonPage) (swap : Swap) (frame : PageBytes) :
    Except Violation (AnonPage × Swap × PageBytes) :=
  match page.slot with
  | none => .ok (page, swap, frame)
  | some slot =>
    match swap.fetch slot with
    | .ok (content, swap) => .ok ({}, swap, content)
    | .error broken => .error broken

/-- Store the page in a fresh slot. -/
def store (swap : Swap) (frame : PageBytes) : Except Refusal (AnonPage × Nat × Swap) :=
  match swap.store frame with
  | .ok (slot, swap) => .ok (⟨some slot⟩, slot, swap)
  | .error cause => .error cause

/-- Free the slot the page holds, if any. -/
def destroy (page : AnonPage) (swap : Swap) : Except Violation (AnonPage × Swap) :=
  match page.slot with
  | none => .ok (page, swap)
  | some slot =>
    match swap.release slot with
    | .ok swap => .ok ({}, swap)
    | .error broken => .error broken

/-- An anonymous page is written with its slot. -/
def describe (page : AnonPage) : String :=
  recordText "AnonPage" [("slot", optionText (page.slot.map toString))]

end AnonPage

end DemandPaging
