import DemandPaging.Config
import DemandPaging.Event
import DemandPaging.Memory.FramePool
import DemandPaging.Memory.FrameTable
import DemandPaging.IdPool
import DemandPaging.Memory.PageTable
import DemandPaging.Page.Registry

/-!
# The machine

All state of a paging machine: the frame pool and the frame table, the address spaces, the backing
stores, the eviction groups, the counters and the journal. Eviction and copy-on-write change the
mappings of spaces other than the faulting one, so operations act on the machine as a whole; each is
a `MachineM` computation, which keeps what was done up to a refusal.
-/

namespace DemandPaging

/-- One address space: its pages, its page table, and the lowest page its stack reaches. -/
structure AddressSpace where
  registry : Registry := {}
  table : PageTable := {}
  stackFloor : PageNum

/-- The pages that shared a frame when it was evicted, and the swap slot that holds the frame's
content if they are anonymous. -/
structure EvictionGroup where
  members : List Owner
  slot : Option Nat
deriving DecidableEq

/-- How often things happened. -/
structure Counters where
  /-- Faults raised, resolved or not. -/
  faults : Nat := 0
  /-- Frames taken away from their pages. -/
  evictions : Nat := 0
  /-- Pages read back from swap. -/
  swapIns : Nat := 0
  /-- Pages written to swap. -/
  swapOuts : Nat := 0
  /-- Shared frames copied on a write. -/
  cowBreaks : Nat := 0
  /-- File pages written back. -/
  writeBacks : Nat := 0
deriving DecidableEq

/-- A paging machine. -/
structure Machine where
  config : Config
  frames : FramePool
  resident : FrameTable := {}
  backing : Backing
  spaces : Table AddressSpace := ∅
  spaceIds : IdPool := {}
  groups : Table EvictionGroup := ∅
  groupIds : IdPool := {}
  counters : Counters := {}
  /-- The number the next mapping gets. -/
  nextMapping : Nat := 1
  journal : Array Event := #[]

/-- A computation on the machine. -/
abbrev MachineM := Action Machine

namespace Machine

/-- A machine with an empty pool of the configured size, swapping to `disk`. -/
def start (config : Config) (disk : Disk) (files : FileStore := {}) : Machine :=
  let swap := Swap.ofDisk disk
  { config
    frames := .ofSize config.userFrames
    backing := { swap, files }
    journal := #[.started config.userFrames swap.capacity] }

/-- The machine with an empty pool, if a pool of the configured size can be made. -/
def boot (config : Config) (disk : Disk) (files : FileStore := {}) : Except Violation Machine :=
  (FramePool.make config.userFrames).map fun _ => start config disk files

/-! ## Looking things up -/

/-- The page of an owner. -/
def page? (m : Machine) (owner : Owner) : Option Page :=
  m.spaces[owner.space]? >>= fun space => space.registry.get? owner.vpn

/-- The valid entry that maps an owner. -/
def entryAt? (m : Machine) (owner : Owner) : Option Entry :=
  m.spaces[owner.space]? >>= fun space => space.table.lookup? owner.vpn

/-- Whether an owner is mapped with a flag set. -/
def hasFlag (m : Machine) (owner : Owner) (flag : Flag) : Bool :=
  (m.entryAt? owner).any (·.has flag)

/-! ## Changing parts -/

/-- The machine with one space changed, if there is such a space. -/
def modifySpace (m : Machine) (id : SpaceId) (f : AddressSpace → AddressSpace) : Machine :=
  { m with spaces := m.spaces.modify id f }

/-- The machine with the page of an owner changed, if it is registered. -/
def modifyPage (m : Machine) (owner : Owner) (f : Page → Page) : Machine :=
  m.modifySpace owner.space fun space =>
    { space with registry := space.registry.modify owner.vpn f }

/-- The machine with the page table of one space changed. -/
def modifyTable (m : Machine) (id : SpaceId) (f : PageTable → PageTable) : Machine :=
  m.modifySpace id fun space => { space with table := f space.table }

/-- Append an event to the journal. -/
def note (event : Event) : MachineM Unit :=
  modify fun m => { m with journal := m.journal.push event }

/-- Change the counters. -/
def count (f : Counters → Counters) : MachineM Unit :=
  modify fun m => { m with counters := f m.counters }

/-! ## Steps that fail when something is missing -/

/-- The space with this identity. -/
def space (id : SpaceId) : MachineM AddressSpace := do
  Action.require (.inconsistent "unknown address space") (← get).spaces[id]?

/-- The page of an owner listed in the frame table or in a group. -/
def ownedPage (owner : Owner) : MachineM Page := do
  let space ← space owner.space
  Action.require (.inconsistent "frame owner has no page") (space.registry.get? owner.vpn)

/-- The registered page of an owner. -/
def registeredPage (owner : Owner) : MachineM Page := do
  let space ← space owner.space
  Action.require (.notMapped owner.vpn.base) (space.registry.get? owner.vpn)

/-- The content of a frame. -/
def frameBytes (ppn : FrameNum) : MachineM PageBytes := do
  match (← get).frames.bytes? ppn with
  | some bytes => return bytes
  | none => Action.abort .outOfBounds

/-- Map an owner to a frame. -/
def mapOwner (owner : Owner) (ppn : FrameNum) (flags : Flags) : MachineM Unit := do
  let space ← space owner.space
  let table ← Action.permit (space.table.map owner.vpn ppn flags)
  modify (·.modifyTable owner.space fun _ => table)

/-- Record a frame that was just filled. -/
def recordFrame (ppn : FrameNum) (owners : List Owner) : MachineM Unit := do
  let resident ← Action.assert ((← get).resident.insert ppn owners)
  modify fun m => { m with resident }

/-- Give a frame back to the pool. -/
def releaseFrame (ppn : FrameNum) : MachineM Unit := do
  let frames ← Action.assert ((← get).frames.release ppn)
  modify fun m => { m with frames }

/-- Run a computation on the backing stores. -/
def onBacking {α : Type} (x : Action Backing α) : MachineM α :=
  Action.within (·.backing) (fun backing m => { m with backing }) x

/-- Run a computation that fills a frame. -/
def onFrame {α : Type} (ppn : FrameNum) (x : Action Transfer α) : MachineM α := do
  let frame ← frameBytes ppn
  Action.within (fun m => { frame, backing := m.backing })
    (fun t m => { m with frames := m.frames.setBytes ppn t.frame, backing := t.backing }) x

/-- The flags of a user mapping. -/
def userFlags (writable : Bool) : Flags :=
  (Flags.ofList [.readable, .user]).put .writable writable

/-- Take a setup in, for a page that is about to be registered. -/
def prepare (setup : Setup) : MachineM Origin :=
  modifyGet fun m =>
    let (origin, backing) := m.backing.prepare setup
    (origin, { m with backing })

/-- Register an uninitialized page at the page of `va`. -/
def register (id : SpaceId) (type : PageType) (va : Address) (writable : Bool) (origin : Origin) :
    MachineM Unit := do
  let page ← Action.permit (Page.uninit va.page writable type origin)
  let space ← space id
  let registry ← Action.permit (space.registry.insert page)
  modify (·.modifySpace id fun space => { space with registry })
  note (.registered id type va)

end Machine

end DemandPaging
