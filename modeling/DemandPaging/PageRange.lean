import DemandPaging.Failure

/-!
# Runs of pages

A `PageRange` is a half-open run of page numbers. It can only be built with its bounds in order;
asking for one with the bounds reversed is a violation.
-/

namespace DemandPaging

/-- The pages from `start` up to, not including, `stop`. -/
structure PageRange where
  start : PageNum
  stop : PageNum
  start_le_stop : start ≤ stop := by omega
deriving DecidableEq

namespace PageRange

/-- The range between two bounds, which have to be in order. -/
def between (start stop : PageNum) : Except Violation PageRange :=
  if h : start ≤ stop then .ok ⟨start, stop, h⟩ else .error (.rangeReversed start stop)

/-- Number of pages in the range. -/
def length (r : PageRange) : Nat := r.stop - r.start

/-- Whether the range holds no page. -/
def isEmpty (r : PageRange) : Bool := r.start == r.stop

/-- The pages of the range in increasing order. -/
def toList (r : PageRange) : List PageNum := List.range' r.start r.length

/-- The first pages of the range, at most `n`. -/
def take (r : PageRange) (n : Nat) : List PageNum := List.range' r.start (min n r.length)

/-- Whether the range holds a page. -/
def contains (r : PageRange) (vpn : PageNum) : Bool :=
  decide (r.start ≤ vpn) && decide (vpn < r.stop)

/-- A range is written with the bounds as page numbers. -/
def describe (r : PageRange) : String :=
  recordText "VPNRange" [("start", r.start.describe), ("end", r.stop.describe)]

end PageRange

end DemandPaging
