import DemandPaging.Proofs.Ledger.Bytes
import DemandPaging.Proofs.Refinement

/-!
# A byte of a file that one page uses

While at most one page has a byte of a file in its window, a clean page that is kept there has in
its frame what the file has (`Coherent`). Shifts keep that, and so does every move after which there
is still at most one such page (`Coherent.move`). A trace during which pages only leave, or only come,
needs to be looked at only where it starts, or ends.
-/

namespace DemandPaging

open Ledger (Kind)

namespace Ledger

variable {L L' : Ledger} {k : Kind} {ks : List Kind} {x : Owner} {p : Page} {w : FileWindow}
  {i n : Nat}

/-- The byte `n` of the file `i` is in the window of one page at most. -/
def Lone (L : Ledger) (i n : Nat) : Prop :=
  ∀ ⦃x y p q v w⦄, L.page x = some p → L.page y = some q → p.window? = some v →
    q.window? = some w → v.Contains i n → w.Contains i n → x = y

/-- At most one page is kept in the byte `n` of the file `i`. -/
def Housed (L : Ledger) (i n : Nat) : Prop :=
  ∀ ⦃x p w⦄, L.page x = some p → p.home? = some w → w.Contains i n → L.UsedBy (· = x) i n

theorem Lone.housed (h : L.Lone i n) : L.Housed i n := by
  intro x p w hp hw hin y q v hq hv hin'
  exact h hq hp (Page.window?_of_home? hv).2 (Page.window?_of_home? hw).2 hin' hin

/-- Clean pages that are kept in the byte `n` of the file `i` have it in their frames. -/
def Coherent (L : Ledger) (i n : Nat) : Prop :=
  ∀ ⦃x p w⦄, L.page x = some p → p.home? = some w → w.Contains i n →
    ∃ b, L.Keeps (· = x) w (n - w.offset) b

/-! ## Who is kept there -/

theorem Housed.shift (h : L.Housed i n) (hL : L.Sound) (hs : Shift L L') : L'.Housed i n := by
  intro x p' w hp' hw hin
  obtain ⟨p, hp, hsame⟩ := hs.exists_page hL hp'
  exact (h hp ((Page.home?_of_face hsame).trans hw) hin).shift hL hs

theorem Housed.of_shift (h : L'.Housed i n) (hL : L.Sound) (hs : Shift L L') : L.Housed i n := by
  have hafter : ∀ {y q v}, L.page y = some q → q.home? = some v →
      ∃ q', L'.page y = some q' ∧ q'.home? = some v := fun {y q v} hq hv => by
    obtain ⟨q', hq', hsame⟩ := hs.face_of_page hL hq
    exact ⟨q', hq', (Page.home?_of_face hsame).trans hv⟩
  intro x p w hp hw hin y q v hq hv hin'
  obtain ⟨p', hp', hw'⟩ := hafter hp hw
  obtain ⟨q', hq', hv'⟩ := hafter hq hv
  exact h hp' hw' hin y q' v hq' hv' hin'

theorem Housed.move (h : L.Housed i n) (hm : Move k L L') (hk : k.BringsNone) :
    L'.Housed i n := by
  intro x p' w hp' hw hin
  rcases hm.face hp' with ⟨p, hp, hsame⟩ | ⟨writable, type, origin, rfl, rfl⟩ | ⟨src, p, rfl, -⟩
  · exact (h hp ((Page.home?_of_face hsame).symm.trans hw) hin).move hm hk
  · cases type with
    | anon => cases hw
    | file => exact absurd rfl (hk.2 x writable origin)
  · exact absurd rfl (hk.1 src x)

theorem Housed.of_move (h : L'.Housed i n) (hm : Move k L L')
    (hk : ∀ o writeBack, k ≠ .leave o writeBack) : L.Housed i n := by
  have hafter : ∀ {y q v}, L.page y = some q → q.home? = some v →
      ∃ q', L'.page y = some q' ∧ q'.home? = some v := fun {y q v} hq hv => by
    obtain ⟨q', hq', hsame⟩ := hm.face_of_page hq (hk y)
    exact ⟨q', hq', (Page.home?_of_face hsame).trans hv⟩
  intro x p w hp hw hin y q v hq hv hin'
  obtain ⟨p', hp', hw'⟩ := hafter hp hw
  obtain ⟨q', hq', hv'⟩ := hafter hq hv
  exact h hp' hw' hin y q' v hq' hv' hin'

/-! ## What they have -/

namespace Coherent

theorem shift (h : L.Coherent i n) (hL : L.Sound) (hs : Shift L L') (hhoused : L.Housed i n) :
    L'.Coherent i n := by
  intro x p' w hp' hw hin
  obtain ⟨p, hp, hsame⟩ := hs.exists_page hL hp'
  have hw := (Page.home?_of_face hsame).trans hw
  obtain ⟨b, hb⟩ := h hp hw hin
  have halone := hhoused hp hw hin
  obtain ⟨rfl, hle, hlt⟩ := hin
  refine ⟨b, hb.shift hL hs (by omega) ?_ ?_⟩
  · rw [Nat.add_sub_of_le hle]
    exact halone.cleanedBy
  · rintro _ rfl hframe _ rfl
    exact hL.isDirty_of_frame hframe

/-- A move after which there is one such page at most keeps what it has. -/
theorem move (h : L.Coherent i n) (hL : L.Sound) (hm : Move k L L') (hinside : k ≠ .outside)
    (hhoused : L.Housed i n) (hhoused' : L'.Housed i n) : L'.Coherent i n := by
  intro x p' w hp' hw hin
  rcases k.cases_at x with ⟨writable, type, origin, rfl⟩ | ⟨src, rfl⟩ | ⟨writeBack, rfl⟩ |
    ⟨start, bytes, rfl⟩ | ⟨henter, hcopy, hleave, hwrite⟩
  · obtain rfl := Option.some.inj (hm.contentOf_enter.1.symm.trans hp')
    refine ⟨_, ?_, ?_, fun _ => rfl⟩
    · rintro _ q rfl hq
      rwa [Option.some.inj (hq.symm.trans hp')]
    · rintro _ q f rfl hq hf
      rw [Option.some.inj (hq.symm.trans hp')] at hf
      cases hf
  · obtain ⟨p, q, hp, hq, hface, -⟩ := hm.contentOf_copy
    obtain rfl := Option.some.inj (hq.symm.trans hp')
    obtain ⟨r, hr, hface'⟩ := hm.face_of_page hp fun _ => nofun
    have hsame := hface'.trans hface.symm
    -- The page and its copy are kept in the same byte.
    obtain rfl := hhoused' hq hw hin src r w hr ((Page.home?_of_face hsame).trans hw) hin
    exact absurd rfl ((hm.not_into hp).2 src)
  · rw [hm.page_leave rfl] at hp'
    cases hp'
  · obtain ⟨p, f, hp, hf, hafter, -⟩ := hm.bytes_write hL
    obtain rfl := Option.some.inj (hafter.symm.trans hp')
    obtain ⟨b, hb⟩ := h hp hw hin
    obtain ⟨hq, -⟩ := Vector.getElem?_eq_some_iff.mp (hb.bytes rfl hp hf)
    exact ⟨_, hb.write hL hm hq⟩
  · rcases hm.face hp' with ⟨p, hp, hsame⟩ | ⟨_, _, _, rfl, -⟩ | ⟨src, p, rfl, -⟩
    · have hw := (Page.home?_of_face hsame).symm.trans hw
      obtain ⟨b, hb⟩ := h hp hw hin
      have halone := hhoused hp hw hin
      obtain ⟨rfl, hle, hlt⟩ := hin
      refine ⟨b, hb.move hL hm (by omega) ?_ hinside ?_⟩
      · rw [Nat.add_sub_of_le hle]
        exact halone.cleanedBy
      · rintro _ rfl
        exact ⟨fun _ _ _ hk => absurd hk (henter _ _ _), hcopy, hleave false, hwrite⟩
    · exact absurd rfl (henter _ _ _)
    · exact absurd rfl (hcopy _)

/-- **While pages only leave**, it is enough that there is one such page at most at first. -/
theorem trace_of_bringsNone (h : L.Coherent i n) (hL : L.Sound) (htrace : Trace ks L L')
    (hhoused : L.Housed i n) (hks : ∀ k ∈ ks, k.BringsNone ∧ k ≠ .outside) :
    L'.Coherent i n ∧ L'.Housed i n := by
  induction htrace with
  | refl => exact ⟨h, hhoused⟩
  | shift htrace hs ih =>
    obtain ⟨h, hhoused⟩ := ih h hL hhoused hks
    have hA := htrace.sound hL
    exact ⟨h.shift hA hs hhoused, hhoused.shift hA hs⟩
  | move htrace hm ih =>
    obtain ⟨h, hhoused⟩ := ih h hL hhoused fun k hk => hks k (List.mem_append_left _ hk)
    obtain ⟨hnone, hinside⟩ := hks _ (List.mem_append_right _ List.mem_cons_self)
    have hhoused' := hhoused.move hm hnone
    exact ⟨h.move (htrace.sound hL) hm hinside hhoused hhoused', hhoused'⟩

/-- **While no page leaves**, it is enough that there is one such page at most in the end. -/
theorem trace_of_not_leave (h : L.Coherent i n) (hL : L.Sound) (htrace : Trace ks L L')
    (hhoused : L'.Housed i n) (hks : ∀ k ∈ ks, (∀ o writeBack, k ≠ .leave o writeBack) ∧ k ≠ .outside) :
    L'.Coherent i n := by
  induction htrace with
  | refl => exact h
  | shift htrace hs ih =>
    have hA := htrace.sound hL
    have hbefore := hhoused.of_shift hA hs
    exact (ih h hL hbefore hks).shift hA hs hbefore
  | move htrace hm ih =>
    obtain ⟨hleave, hinside⟩ := hks _ (List.mem_append_right _ List.mem_cons_self)
    have hbefore := hhoused.of_move hm hleave
    have hA := ih h hL hbefore fun k hk => hks k (List.mem_append_left _ hk)
    exact hA.move (htrace.sound hL) hm hinside hbefore hhoused

/-- Changes from outside that leave the byte alone. -/
theorem outside (h : L.Coherent i n) {file : Nat → File}
    (hfile : (file i).data.get n = (L.file i).data.get n) : Coherent { L with file } i n := by
  intro x p w hp hw hin
  obtain ⟨b, hb⟩ := h hp hw hin
  obtain ⟨rfl, hle, -⟩ := hin
  refine ⟨b, hb.home, hb.bytes, fun hclean => ?_⟩
  have hstored := hb.stored hclean
  rw [Nat.add_sub_of_le hle] at hstored ⊢
  exact hfile.trans hstored

end Coherent

end Ledger

end DemandPaging
