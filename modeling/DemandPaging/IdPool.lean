import DemandPaging.Failure

/-!
# Reusable identities

Identities are handed out from zero on; one that was given back is handed out again before a new
one, the latest first.
-/

namespace DemandPaging

/-- Identities below `next` have been handed out; those in `recycled` were given back since. -/
structure IdPool where
  next : Nat := 0
  recycled : List Nat := []
deriving DecidableEq

namespace IdPool

/-- Take an identity. -/
def take (pool : IdPool) : Nat × IdPool :=
  match pool.recycled with
  | id :: rest => (id, { pool with recycled := rest })
  | [] => (pool.next, { pool with next := pool.next + 1 })

/-- Give an identity back. One that was never handed out is out of bounds. -/
def release (pool : IdPool) (id : Nat) : Except Violation IdPool :=
  if pool.next ≤ id then .error .outOfBounds
  else if pool.recycled.contains id then .error (.idReleased id)
  else .ok { pool with recycled := id :: pool.recycled }

end IdPool

end DemandPaging
