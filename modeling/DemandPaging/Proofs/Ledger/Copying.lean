import DemandPaging.Proofs.Ledger.Layout

/-!
# A page and its copy

Pages are copied one after the other, and a page that is copied later may have to be made resident
first. That evicts frames, also one that a page was given to share with its copy a moment ago, and
brings whole groups back. `Ledger.Paired` is what every such step keeps of a page and its copy
(`Copies.paired`): they are alike, and in one of four relations (`Pairing`). `Copying` is the loop, and
`Copying.paired` what it comes to.
-/

namespace DemandPaging

/-- How a page and its copy are related. -/
inductive Pairing where
  /-- Both wait for their first load. -/
  | waiting
  /-- Both are in one frame. -/
  | sharing
  /-- Both are evicted, and in one group. -/
  | grouped
  /-- Both are evicted to their file, and the copy is in no group. -/
  | parted
deriving DecidableEq

namespace Page

variable {p q : Page} {f : FrameNum} {t t' : Pairing}

/-- What a page keeps wherever it is: its type, whether it may be written, and its mapping. -/
def profile (p : Page) : PageType × Bool × Nat := (p.type, p.writable, p.mapping)

/-- The page `p` and its copy `q` are related as `t` tells. -/
def PairedBy (p q : Page) : Pairing → Prop
  | .waiting => p.state = .uninit ∧ q.state = .uninit
  | .sharing => ∃ f, p.state = .resident f ∧ q.state = .resident f
  | .grouped => (p.state = .evicted ∧ q.state = .evicted) ∧ ∃ g, p.group = some g ∧ q.group = some g
  | .parted =>
    (p.state = .evicted ∧ q.state = .evicted) ∧ (p.type = .file ∧ q.type = .file) ∧ q.group = none

theorem state_of_frame (h : p.frame = some f) : p.state = .resident f := by
  rw [state, h]

theorem frame_of_state (h : p.state = .resident f) : p.frame = some f := by
  unfold state at h
  split at h
  · rw [← PageState.resident.inj h]
    assumption
  all_goals cases h

theorem frame_eq_of_state (h : p.state = q.state) : p.frame = q.frame := by
  cases hp : p.frame with
  | some f => exact (frame_of_state (h.symm.trans (state_of_frame hp))).symm
  | none =>
    cases hq : q.frame with
    | none => rfl
    | some f =>
      rw [frame_of_state (h.trans (state_of_frame hq))] at hp
      cases hp

/-- A page that was loaded and is in no frame is evicted. -/
theorem state_of_loaded (hframe : p.frame = none) (h : ∀ t g, p.content ≠ .uninit t g) :
    p.state = .evicted := by
  unfold state
  rw [hframe]
  cases hc : p.content with
  | uninit t g => exact absurd hc (h t g)
  | anon a => rfl
  | file w => rfl

theorem PairedBy.state_eq (h : p.PairedBy q t) : p.state = q.state := by
  cases t with
  | waiting => exact h.1.trans h.2.symm
  | sharing =>
    obtain ⟨f, hp, hq⟩ := h
    exact hp.trans hq.symm
  | grouped | parted => exact h.1.1.trans h.1.2.symm

/-- **A page and its copy are in just one relation.** -/
theorem PairedBy.unique (h : p.PairedBy q t) (h' : p.PairedBy q t') : t' = t := by
  cases t <;> cases t' <;> simp_all [PairedBy]

/-- An evicted page is paired with its copy in a group, if they are not kept in a file. -/
theorem PairedBy.exists_group (h : p.PairedBy q t) (hstate : p.state = .evicted)
    (htype : p.type = .anon) : ∃ g, p.group = some g ∧ q.group = some g := by
  cases t with
  | waiting => exact absurd (h.1.symm.trans hstate) nofun
  | sharing =>
    obtain ⟨f, hp, -⟩ := h
    exact absurd (hp.symm.trans hstate) nofun
  | grouped => exact h.2
  | parted => exact absurd (h.2.1.1.symm.trans htype) nofun

/-- A page that shares no frame is paired with a copy of it that is in no group. -/
theorem exists_pairedBy_alone (hframe : p.frame = none) (hcontent : ∀ a, p.content ≠ .anon a) :
    ∃ t, p.PairedBy { p with group := none } t := by
  obtain ⟨vpn, writable, frame, content, group⟩ := p
  obtain rfl : frame = none := hframe
  cases content with
  | uninit t g => exact ⟨.waiting, rfl, rfl⟩
  | anon a => exact absurd rfl (hcontent a)
  | file w => exact ⟨.parted, ⟨rfl, rfl⟩, ⟨rfl, rfl⟩, rfl⟩

theorem profile_evictedTo (slot group : Option Nat) : (p.evictedTo slot group).profile = p.profile := by
  unfold profile
  rw [mapping_evictedTo]
  exact congrArg (fun face : PageNum × Bool × PageType × Option FileWindow =>
    (face.2.2.1, face.2.1, p.mapping)) (face_evictedTo slot group)

/-- An anonymous page that is in no mapping keeps its profile when it is loaded. -/
theorem profile_loadedInto (htype : p.type = .anon) (hmapping : p.mapping = 0) :
    (p.loadedInto f).profile = p.profile := by
  have hloaded : (p.loadedInto f).mapping = 0 :=
    (mapping_loadedInto f).elim (fun h => h.trans hmapping) id
  have htype' : (p.loadedInto f).type = .anon := by
    rw [type] at htype
    rw [loadedInto, type]
    cases hc : p.content with
    | anon a => rfl
    | file w =>
      rw [hc] at htype
      cases htype
    | uninit t g =>
      rw [hc] at htype
      cases htype
      rfl
  rw [profile, profile, hloaded, htype', htype, hmapping, writable_loadedInto]

theorem mapping_of_anon (h : ∃ a, p.content = .anon a) : p.mapping = 0 := by
  obtain ⟨a, h⟩ := h
  rw [mapping, h]

theorem anon_evictedTo (slot group : Option Nat) (h : ∃ a, p.content = .anon a) :
    ∃ a, (p.evictedTo slot group).content = .anon a := by
  obtain ⟨a, ha⟩ := h
  exact ⟨⟨slot⟩, by rw [evictedTo, ha]; rfl⟩

end Page

namespace Ledger

variable {L L' : Ledger} {x y o src : Owner} {p : Page} {f : FrameNum}

/-- The page of `y` is a copy of the page of `x`. -/
def Paired (L : Ledger) (x y : Owner) : Prop :=
  ∃ p q t, L.page x = some p ∧ L.page y = some q ∧ q.profile = p.profile ∧ p.PairedBy q t

/-! ## Making a frame available -/

/-- Eviction leaves a page as it is, or evicts it. -/
theorem Evicts.page_of_page (h : Evicts L f L') (hL : L.Sound) (hp : L.page x = some p) :
    L'.page x = some p ∨ ∃ slot group, L'.page x = some (p.evictedTo slot group) := by
  obtain ⟨hc, ho, hr, -, -, -, -, -, -⟩ := h
  rename_i c o r slot gid
  by_cases hx : x ∈ c.owners
  · obtain rfl := Option.some.inj (hp.symm.trans (hL.page_of_mem hc ho hr hx))
    exact Or.inr ⟨slot, _, if_pos hx⟩
  · exact Or.inl ((if_neg hx).trans hp)

/-- **A page and its copy are evicted together.** -/
theorem Evicts.paired (h : Evicts L f L') (hL : L.Sound) (hne : x ≠ y) (hxy : L.Paired x y) :
    L'.Paired x y := by
  obtain ⟨p, q, t, hp, hq, hprofile, ht⟩ := hxy
  obtain ⟨hc, ho, hr, -, -, -, -, -, -⟩ := h
  rename_i c o r slot gid
  have hmem := hL.mem_owners hc
  have hsame : x ∈ c.owners ↔ y ∈ c.owners := by
    rw [hmem, hmem, Ledger.frame, Ledger.frame, hp, hq, Option.bind_some, Option.bind_some,
      Page.frame_eq_of_state ht.state_eq]
  by_cases hx : x ∈ c.owners
  · have hy := hsame.mp hx
    have hpr := hL.page_of_mem hc ho hr hx
    have hframe : r.frame = some f := by
      have hfx := (hmem x).mp hx
      rwa [Ledger.frame, hpr] at hfx
    -- there are two in the frame, so they are evicted as a group
    have hlen : 1 < c.owners.length :=
      Decidable.byContradiction fun hshort => hne (Roster.eq_of_mem_of_short hshort hx hy)
    have hevicted : (r.evictedTo slot (some gid)).state = .evicted :=
      Page.state_of_loaded rfl fun t g hcontent =>
        (hL.shaped hr).content_ne_uninit hframe t g (Page.content_evictedTo_uninit.mp hcontent)
    have hpage : ∀ z ∈ c.owners, (if z ∈ c.owners then
        some (r.evictedTo slot (if 1 < c.owners.length then some gid else none)) else L.page z) =
        some (r.evictedTo slot (some gid)) := fun z hz => by rw [if_pos hz, if_pos hlen]
    exact ⟨_, _, .grouped, hpage x hx, hpage y hy, rfl, ⟨hevicted, hevicted⟩, gid, rfl, rfl⟩
  · have hy := fun hy => hx (hsame.mpr hy)
    exact ⟨p, q, t, (if_neg hx).trans hp, (if_neg hy).trans hq, hprofile, ht⟩

theorem Acquires.page_of_page (h : Acquires L f L') (hL : L.Sound) (hp : L.page x = some p) :
    L'.page x = some p ∨ ∃ slot group, L'.page x = some (p.evictedTo slot group) := by
  cases h with
  | fresh => exact Or.inl hp
  | evicted h => exact h.page_of_page hL hp

/-- Anonymous memory stays anonymous memory. -/
theorem Acquires.anon (h : Acquires L f L') (hL : L.Sound) {q : Page} (hp : L.page x = some p)
    (hq : L'.page x = some q) (hanon : ∃ a, p.content = .anon a) : ∃ a, q.content = .anon a := by
  rcases h.page_of_page hL hp with hp' | ⟨slot, group, hp'⟩
  · exact Option.some.inj (hq.symm.trans hp') ▸ hanon
  · exact Option.some.inj (hq.symm.trans hp') ▸ Page.anon_evictedTo slot group hanon

theorem Acquires.paired (h : Acquires L f L') (hL : L.Sound) (hne : x ≠ y) (hxy : L.Paired x y) :
    L'.Paired x y := by
  cases h with
  | fresh => exact hxy
  | evicted h => exact h.paired hL hne hxy

/-! ## Claiming a page -/

/-- Who is in a group comes back with all that are in it. -/
theorem Sound.mem_company_of_group (hL : L.Sound) {g : Nat} (hx : L.group x = some g)
    (hy : L.group y = some g) (h : x ∈ L.company o) : y ∈ L.company o := by
  rcases hL.mem_company.mp h with rfl | ⟨g', ho, hx'⟩
  · exact hL.mem_company.mpr (Or.inr ⟨g, hx, hy⟩)
  · obtain rfl := Option.some.inj (hx.symm.trans hx')
    exact hL.mem_company.mpr (Or.inr ⟨g, ho, hy⟩)

/-- **A page and its copy come back together** if they are anonymous memory. -/
theorem Sound.paired_fill (hL : L.Sound) (hp : L.page o = some p) (hframe : p.frame = none)
    (hanon : ∃ a, p.content = .anon a) (hxy : L.Paired x y) :
    (L.fill f (L.company o) p).Paired x y := by
  obtain ⟨r, s, t, hr, hs, hprofile, ht⟩ := hxy
  have hstate : p.state = .evicted := Page.state_of_loaded hframe fun t g hc => by
    obtain ⟨a, ha⟩ := hanon
    rw [ha] at hc
    cases hc
  have htype := Page.type_of_anon hanon
  have hsame : x ∈ L.company o ↔ y ∈ L.company o := by
    constructor <;> intro h
    · obtain rfl := Option.some.inj (hr.symm.trans (hL.page_of_company hp h))
      obtain ⟨g, hrg, hsg⟩ := ht.exists_group hstate htype
      exact hL.mem_company_of_group ((group_of_page hr).trans hrg) ((group_of_page hs).trans hsg) h
    · obtain rfl := Option.some.inj (hs.symm.trans (hL.page_of_company hp h))
      obtain ⟨g, hrg, hsg⟩ := ht.exists_group (ht.state_eq.trans hstate)
        ((congrArg Prod.fst hprofile).symm.trans htype)
      exact hL.mem_company_of_group ((group_of_page hs).trans hsg) ((group_of_page hr).trans hrg) h
  by_cases hx : x ∈ L.company o
  · exact ⟨_, _, .sharing, if_pos hx, if_pos (hsame.mp hx), rfl, f, rfl, rfl⟩
  · have hy := fun hy => hx (hsame.mpr hy)
    exact ⟨r, s, t, (if_neg hx).trans hr, (if_neg hy).trans hs, hprofile, ht⟩

theorem Claims.paired (h : Claims L o f L') (hL : L.Sound) (ho : L.page o = some p)
    (hanon : ∃ a, p.content = .anon a) (hne : x ≠ y) (hxy : L.Paired x y) : L'.Paired x y := by
  cases h with
  | stays => exact hxy
  | fills hacq hq hframe =>
    exact (hacq.trace.sound hL).paired_fill hq hframe (hacq.anon hL ho hq hanon)
      (hacq.paired hL hne hxy)

/-- Claiming an anonymous page that is in no mapping changes what no page keeps. -/
theorem Claims.profile (h : Claims L o f L') (hL : L.Sound) (ho : L.page o = some p)
    (htype : p.type = .anon) (hmapping : p.mapping = 0) {q : Page} (hq : L.page x = some q) :
    ∃ r, L'.page x = some r ∧ r.profile = q.profile := by
  cases h with
  | stays => exact ⟨q, hq, rfl⟩
  | @fills A _ _ _ hacq hr hframe =>
    have hA := hacq.trace.sound hL
    have hkeeps : ∀ {y q}, L.page y = some q → ∃ q', A.page y = some q' ∧ q'.profile = q.profile := by
      intro y q hq
      rcases hacq.page_of_page hL hq with hA | ⟨slot, group, hA⟩
      · exact ⟨q, hA, rfl⟩
      · exact ⟨_, hA, Page.profile_evictedTo slot group⟩
    obtain ⟨q', hq', hprofile⟩ := hkeeps hq
    by_cases hx : x ∈ A.company o
    · obtain rfl := Option.some.inj (hq'.symm.trans (hA.page_of_company hr hx))
      obtain ⟨r, hr', hsame⟩ := hkeeps ho
      obtain rfl := Option.some.inj (hr'.symm.trans hr)
      have htype : r.type = .anon := (congrArg Prod.fst hsame).trans htype
      have hmapping : r.mapping = 0 := (congrArg (·.2.2) hsame).trans hmapping
      exact ⟨_, if_pos hx, (Page.profile_loadedInto htype hmapping).trans hprofile⟩
    · exact ⟨q', (if_neg hx).trans hq', hprofile⟩

/-! ## Copying -/

/-- Copying leaves every registered page where it is. -/
theorem Move.page_of_copy (h : Move (.copy src o) L L') (hp : L.page x = some p) :
    L'.page x = some p := by
  have hne : L.page o = none → x ≠ o := fun ho hxo => by
    rw [hxo, ho] at hp
    cases hp
  cases h with
  | join ho => exact (if_neg (hne ho)).trans hp
  | duplicate ho => exact (if_neg (hne ho)).trans hp

/-- **A copy is paired with its page.** -/
theorem Move.paired_of_copy (h : Move (.copy src o) L L') : L'.Paired src o := by
  have hold := fun {p} => h.page_of_copy (x := src) (p := p)
  cases h with
  | join ho hvpn hp hframe =>
    exact ⟨_, _, .sharing, hold hp, if_pos rfl, rfl, _, Page.state_of_frame hframe,
      Page.state_of_frame hframe⟩
  | duplicate ho hvpn hp hframe hcontent =>
    obtain ⟨t, ht⟩ := Page.exists_pairedBy_alone hframe hcontent
    exact ⟨_, _, t, hold hp, if_pos rfl, rfl, ht⟩

theorem Paired.of_page (hxy : L.Paired x y) (h : ∀ {z p}, L.page z = some p → L'.page z = some p) :
    L'.Paired x y := by
  obtain ⟨p, q, t, hp, hq, hrest⟩ := hxy
  exact ⟨p, q, t, h hp, h hq, hrest⟩

/-- **While other pages are copied**, a page and its copy stay paired. -/
theorem Copies.paired (h : Copies src o L L') (hL : L.Sound) (hne : x ≠ y) (hxy : L.Paired x y) :
    L'.Paired x y := by
  cases h with
  | shared hm => exact hxy.of_page hm.page_of_copy
  | claimed hp hanon hc hm => exact (hc.paired hL hp hanon hne hxy).of_page hm.page_of_copy

theorem Copies.profile (h : Copies src o L L') (hL : L.Sound) (hp : L.page x = some p) :
    ∃ q, L'.page x = some q ∧ q.profile = p.profile := by
  cases h with
  | shared hm => exact ⟨p, hm.page_of_copy hp, rfl⟩
  | claimed hsrc hanon hc hm =>
    obtain ⟨q, hq, hprofile⟩ := hc.profile hL hsrc (Page.type_of_anon hanon) (Page.mapping_of_anon hanon) hp
    exact ⟨q, hm.page_of_copy hq, hprofile⟩

theorem Copies.paired_target (h : Copies src o L L') : L'.Paired src o := by
  cases h with
  | shared hm => exact hm.paired_of_copy
  | claimed _ _ _ hm => exact hm.paired_of_copy

/-- Pages of `source` are copied to `target`, one after the other. -/
inductive Copying (source target : SpaceId) : List PageNum → Ledger → Ledger → Prop
  | nil (L : Ledger) : Copying source target [] L L
  | cons {v : PageNum} {vs : List PageNum} {L A L' : Ledger}
      (h : Copies ⟨source, v⟩ ⟨target, v⟩ L A) (hs : Copying source target vs A L') :
      Copying source target (v :: vs) L L'

namespace Copying

variable {source target : SpaceId} {vs : List PageNum}

theorem trace (h : Copying source target vs L L') :
    Trace (Layout.copyKinds source target vs) L L' := by
  induction h with
  | nil => exact .refl _
  | cons h _ ih => exact h.trace.trans ih

/-- **What a page keeps** it keeps while pages are copied. -/
theorem profile (h : Copying source target vs L L') (hL : L.Sound) (hp : L.page x = some p) :
    ∃ q, L'.page x = some q ∧ q.profile = p.profile := by
  induction h generalizing p with
  | nil => exact ⟨p, hp, rfl⟩
  | cons h _ ih =>
    obtain ⟨q, hq, hprofile⟩ := h.profile hL hp
    obtain ⟨r, hr, hprofile'⟩ := ih (h.trace.sound hL) hq
    exact ⟨r, hr, hprofile'.trans hprofile⟩

theorem paired_of_paired (h : Copying source target vs L L') (hL : L.Sound) (hne : x ≠ y)
    (hxy : L.Paired x y) : L'.Paired x y := by
  induction h with
  | nil => exact hxy
  | cons h _ ih => exact ih (h.trace.sound hL) (h.paired hL hne hxy)

/-- **Every page that was copied is paired with its copy** in the end, whatever was evicted and brought
back since. -/
theorem paired (h : Copying source target vs L L') (hL : L.Sound) (hne : source ≠ target) :
    ∀ v ∈ vs, L'.Paired ⟨source, v⟩ ⟨target, v⟩ := by
  induction h with
  | nil => exact List.forall_mem_nil _
  | cons h hs ih =>
    refine List.forall_mem_cons.mpr ⟨hs.paired_of_paired (h.trace.sound hL) ?_ h.paired_target,
      ih (h.trace.sound hL)⟩
    exact fun heq => hne (congrArg Owner.space heq)

end Copying

/-- Every page of `source` is copied to `target`, and the stack of `target` reaches as far down. -/
inductive CopiesAll (source target : SpaceId) (L : Ledger) : Ledger → Prop
  | intro {vs : List PageNum} {a b : PageNum} {A : Ledger}
      (hall : ∀ v, v ∈ vs ↔ (L.page ⟨source, v⟩).isSome) (hs : L.floor source = some a)
      (ht : L.floor target = some b) (h : Copying source target vs L A) :
      CopiesAll source target L (A.setFloor target (some (min b a)))

namespace CopiesAll

variable {source target : SpaceId}

theorem told (h : CopiesAll source target L L') : Told (Layout.CopiesAll source target) L L' := by
  obtain ⟨hall, hs, ht, h⟩ := h
  exact ⟨_, .intro hall hs ht, h.trace.move (.floor nofun)⟩

/-- The pages that are registered are those that were, and the copies. -/
theorem isSome_page (h : CopiesAll source target L L') (hL : L.Sound) (x : Owner) :
    (L'.page x).isSome ↔
      (L.page x).isSome ∨ x.space = target ∧ (L.page ⟨source, x.vpn⟩).isSome := by
  obtain ⟨hall, -, -, h⟩ := h
  rename_i vs a b A
  have hregistered : (A.page x).isSome =
      (L.layout.afterAll (Layout.copyKinds source target vs)).registered x :=
    congrFun (congrArg Layout.registered (h.trace.layout hL)) x
  rw [← hall]
  show (A.page x).isSome ↔ _
  rw [hregistered, Layout.registered_copyKinds, Bool.or_eq_true, decide_eq_true_eq]
  exact or_comm

theorem profile (h : CopiesAll source target L L') (hL : L.Sound) (hp : L.page x = some p) :
    ∃ q, L'.page x = some q ∧ q.profile = p.profile := by
  obtain ⟨-, -, -, h⟩ := h
  exact h.profile hL hp

/-- **Every page of the source is paired with its copy.** -/
theorem paired (h : CopiesAll source target L L') (hL : L.Sound) (hne : source ≠ target)
    {v : PageNum} (hv : (L.page ⟨source, v⟩).isSome) : L'.Paired ⟨source, v⟩ ⟨target, v⟩ := by
  obtain ⟨hall, -, -, h⟩ := h
  exact h.paired hL hne v ((hall v).mpr hv)

/-- The stack of the target reaches as far down as the lower of the two did. -/
theorem floor (h : CopiesAll source target L L') : ∃ a b, L.floor source = some a ∧
    L.floor target = some b ∧ L'.floor target = some (min b a) := by
  obtain ⟨-, hs, ht, -⟩ := h
  exact ⟨_, _, hs, ht, if_pos rfl⟩

end CopiesAll

end Ledger

end DemandPaging
