import DemandPaging.Address

/-!
# Parameters of a machine

The size of the frame pool and the layout of every address space: the ceiling of user addresses
and the region the stack may grow in.
-/

namespace DemandPaging

/-- What a machine is built with. -/
structure Config where
  /-- Frames available to user pages. -/
  userFrames : Nat := 256
  /-- First address above user space. -/
  ceiling : Address := ⟨0x4000000000⟩
  /-- Top of every stack. -/
  stackTop : Address := ⟨0x3ffffff000⟩
  /-- How far a stack may grow below its top, in bytes. -/
  stackLimit : Nat := 0x100000
deriving DecidableEq

/-- The lowest address a stack may grow down to, zero when the limit exceeds the top. -/
def Config.stackBottom (c : Config) : Address := .ofNat (c.stackTop.toNat - c.stackLimit)

end DemandPaging
