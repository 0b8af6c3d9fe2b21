import DemandPaging.Proofs.Run

/-!
# What copying a space comes to

Every page of the source has a copy in the target, and each pair is in just one of four relations: both
wait for their first load, both are in one frame, both are evicted in one group, or both are evicted to
their file and the copy is in no group. Pages that are copied later may take the frames of earlier
ones, so a pair may be in another relation in the end than when it was made.

Headline: **`Reachable.copied`**.
-/

namespace DemandPaging

namespace Page

variable (files : FileStore) (p q : Page)

theorem profile_located : (p.located files).profile = p.profile := by
  unfold profile
  rw [type_located, mapping_located]
  rfl

theorem pairedBy_located (t : Pairing) :
    (p.located files).PairedBy (q.located files) t ↔ p.PairedBy q t := by
  cases t <;> simp [PairedBy]

end Page

namespace Machine

variable {lax : Tolerance} {m m' : Machine} {source target : SpaceId}

/-- **The machine `m'` is `m` after the pages of `source` were copied to `target`.** -/
structure Copied (source target : SpaceId) (m m' : Machine) : Prop where
  /-- The pages that are registered are those that were, and a copy of each page of the source. -/
  registered : ∀ o, (m'.page? o).isSome ↔
    (m.page? o).isSome ∨ o.space = target ∧ (m.page? ⟨source, o.vpn⟩).isSome
  /-- Pages that were registered keep their type, their mapping and whether they may be written. -/
  profile : ∀ {o p}, m.page? o = some p → ∃ q, m'.page? o = some q ∧ q.profile = p.profile
  /-- A page and its copy are alike, and in just one relation. -/
  paired : ∀ {v}, (m.page? ⟨source, v⟩).isSome → ∃ p q t,
    m'.page? ⟨source, v⟩ = some p ∧ m'.page? ⟨target, v⟩ = some q ∧ p.vpn = v ∧ q.vpn = v ∧
      q.profile = p.profile ∧ p.PairedBy q t ∧ ∀ t', p.PairedBy q t' → t' = t
  /-- The stack of the target reaches as far down as the lower of the two did. -/
  floor : ∃ a b, m.floorAt? source = some a ∧ m.floorAt? target = some b ∧
    m'.floorAt? target = some (min b a)

/-- A page of the ledger is a page of the machine. -/
theorem exists_page?_of_ledger {o : Owner} {r : Page} (h : (m.ledger none none).page o = some r) :
    ∃ p, m.page? o = some p ∧ p.located m.backing.files = r := by
  rw [page_ledger] at h
  exact Option.map_eq_some_iff.mp h

theorem isSome_page_ledger (o : Owner) :
    ((m.ledger none none).page o).isSome = (m.page? o).isSome := by
  rw [page_ledger, Option.isSome_map]

/-- What the ledger tells of a copied space, the machine shows. -/
theorem Reaches.copied_of_copiesAll (h : Reaches lax (Ledger.CopiesAll source target) m m')
    (hm : Sound lax m none none) (hne : source ≠ target) : m.Copied source target m' := by
  have hL := hm.books
  have hL' : (m'.ledger none none).Sound := by
    obtain ⟨ks, -, htrace⟩ := h.told.told
    exact htrace.sound hL
  refine ⟨fun o => ?_, fun {o p} hp => ?_, fun {v} hv => ?_, h.told.floor⟩
  · simpa only [isSome_page_ledger] using h.told.isSome_page hL o
  · obtain ⟨r, hr, hprofile⟩ := h.told.profile hL (page_ledger_of_page? hp)
    obtain ⟨q, hq, rfl⟩ := exists_page?_of_ledger hr
    rw [Page.profile_located, Page.profile_located] at hprofile
    exact ⟨q, hq, hprofile⟩
  · obtain ⟨r, s, t, hr, hs, hprofile, ht⟩ := h.told.paired hL hne (isSome_page_ledger _ ▸ hv)
    have hpv := hL'.numbered hr
    have hqv := hL'.numbered hs
    obtain ⟨p, hp, rfl⟩ := exists_page?_of_ledger hr
    obtain ⟨q, hq, rfl⟩ := exists_page?_of_ledger hs
    rw [Page.profile_located, Page.profile_located] at hprofile
    rw [Page.pairedBy_located] at ht
    exact ⟨p, q, t, hp, hq, hpv, hqv, hprofile, ht, fun _ => ht.unique⟩

end Machine

open Machine

variable {m m' : Machine} {source target : SpaceId}

/-- **A space that is copied is reproduced page by page**, in any machine of a run and whatever was
evicted and brought back on the way. -/
theorem Reachable.copied (h : Reachable .all m) (hne : source ≠ target)
    (hcopy : copySpace target (.own source) m = .ok () m') : m.Copied source target m' := by
  obtain ⟨id, hid, hreach⟩ := (meets_copySpace h.sound).of_ok hcopy
  obtain rfl := CopySource.own.inj hid
  exact hreach.copied_of_copiesAll h.sound hne

/-- Requests that fill two frames and a slot of one space, and register pages that wait in it and in
another. -/
def Operation.spilling : List Operation :=
  [.create, .create] ++
    ([0x3000, 0x2000, 0x1000].flatMap fun va =>
      [.register 0 .anon ⟨va⟩ true .zero, .write 0 ⟨va⟩ #[7]]) ++
    [.register 0 .anon ⟨0x5000⟩ true .zero, .register 1 .anon ⟨0x9000⟩ false .zero]

/-- The copy of the first space claims the page in the slot, for which a frame is evicted that is shared
by then. -/
theorem Reachable.copied_spilling : ∃ m m', Reachable .all m ∧
    copySpace 1 (.own 0) m = .ok () m' ∧ m.Copied 0 1 m' := by
  have h : ((Machine.start { userFrames := 2 } (.blank 64)).carry Operation.spilling).any
      (fun r => ((copySpace 1 (.own 0)).result? r.2).isSome) = true := by decide +kernel
  obtain ⟨r, -, hm, hrest⟩ := Reachable.exists_of_carry (by decide) h
  obtain ⟨_, m', hcopy⟩ := Action.exists_ok_of_isSome hrest
  exact ⟨r.2, m', hm, hcopy, hm.copied (by decide) hcopy⟩

end DemandPaging
