import Std.Data.ExtTreeMap.Basic

/-!
# Numbered tables

A finite table from numbers to values, read in increasing order of number. Two tables with the
same entries are equal, so the state of the machine is determined by what can be looked up in it.
-/

namespace DemandPaging

/-- A finite table from numbers to values. -/
abbrev Table (α : Type) := Std.ExtTreeMap Nat α

end DemandPaging
