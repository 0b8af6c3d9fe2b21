import DemandPaging.Cli.Arguments
import DemandPaging.Workload

/-!
# The memory of a run

A run makes room for its frames, and then its workload makes room for what it compares with: the
contents of all its pages, or the new content of the file it maps. Here is how much memory that
takes, and whether there is as much. A run that asks for more ends at once.
-/

namespace DemandPaging.Cli

/-- The most memory a run can have, in bytes. -/
def memoryLimit : Nat := 34359738368

/-- The memory of the frame pool: a place in the list and a content for each frame. -/
def Options.poolBytes (options : Options) : Nat :=
  options.frames * (FramePool.entryBytes + pageSize)

/-- Whether the list of page contents that a workload makes room for takes more memory than there
is. One that is too long for any list is refused without asking for memory. -/
def Workload.exceedsMemory : Workload → Bool
  | anon pages _ | fork pages =>
    (checkLength DemandPaging.Workload.entryBytes pages).isOk &&
      decide (memoryLimit < pages * DemandPaging.Workload.entryBytes)
  | mmap _ => false

/-- Whether the pool or the list of page contents takes more memory than there is. -/
def Options.exceedsMemory (options : Options) : Bool :=
  decide (memoryLimit < options.poolBytes) || options.workload.exceedsMemory

/-- Whether the new content of a host file takes more memory than there is. A file that cannot be
mapped gets none. -/
def hostExceedsMemory (config : Config) (size : Nat) : Bool :=
  (Machine.checkMapping config DemandPaging.Workload.mapBase size 0 size).isOk &&
    decide (memoryLimit < size)

end DemandPaging.Cli
