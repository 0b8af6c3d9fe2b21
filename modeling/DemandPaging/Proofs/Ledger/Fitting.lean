import DemandPaging.Proofs.Ledger.Files

/-!
# What fits in a frame

A page may be registered with a window, or with an initializer, that is longer than a frame. Such a
page is never loaded, so the pages in frames all fit (`Trace.fitted`), whatever else is registered.
Whether a page fits stays as it is while contents move and the stack grows (`Trace.fits_of_growth`).
-/

namespace DemandPaging

/-- The content of a page is no longer than a frame: neither the window it is loaded from nor what its
initializer writes. -/
structure Page.Fits (p : Page) (initial : Nat → Option Bytes) : Prop where
  window : ∀ {w}, p.window? = some w → w.readBytes ≤ pageSize
  content : ∀ {t n bytes}, p.content = .uninit t (.custom n) → initial n = some bytes →
    bytes.size ≤ pageSize

namespace Page

variable {p q : Page} {initial initial' : Nat → Option Bytes} {file : Nat → File}

/-- A page that starts as zeros fits. -/
theorem fits_zero (vpn : PageNum) (writable : Bool) (type : PageType) :
    (fresh vpn writable type .zero).Fits initial :=
  ⟨nofun, fun hc => by cases hc⟩

/-- It does not matter in which frame or group a page is. -/
theorem Fits.place (h : p.Fits initial) (frame : Option FrameNum) (group : Option Nat) :
    ({ p with frame, group } : Page).Fits initial := ⟨h.window, h.content⟩

theorem Fits.evictedTo (h : p.Fits initial) (slot group : Option Nat) :
    (p.evictedTo slot group).Fits initial := by
  refine ⟨fun {w} hw => h.window ?_, fun hc => h.content (content_evictedTo_uninit.mp hc)⟩
  rw [← hw]
  unfold Page.evictedTo Page.window?
  cases p.content <;> rfl

/-- What was loaded fits. -/
theorem GivenBy.fits (h : p.GivenBy file) (f : FrameNum) : (p.loadedInto f).Fits initial := by
  refine ⟨fun {w} hw => (h w ?_).1, fun hc => absurd hc content_loadedInto_ne⟩
  rw [← hw]
  unfold loadedInto window? at *
  cases hc : p.content with
  | anon a => rfl
  | file w => rfl
  | uninit t g => cases t <;> cases g <;> first | rfl | simp [hc, Content.loaded, Content.initialized, Content.window?] at hw

theorem Shifted.fits (h : p.Shifted file q) (hp : p.Fits initial) : q.Fits initial := by
  cases h with
  | stays => exact hp
  | evicted slot group => exact hp.evictedTo slot group
  | loaded hgiven f => exact hgiven.fits f
  | unshared hf f' => exact hp.place _ _

end Page

namespace Ledger

/-- The page of an owner, if there is one, fits in a frame. -/
def Fits (L : Ledger) (o : Owner) : Prop := ∀ p, L.page o = some p → p.Fits L.initial

/-- The pages in frames fit there. -/
def Fitted (L : Ledger) : Prop := ∀ o f, L.frame o = some f → L.Fits o

/-- The pages in frames fit there, and the page of an owner does too. -/
structure Admits (L : Ledger) (o : Owner) : Prop where
  fitted : L.Fitted
  fits : L.Fits o

variable {L L' : Ledger} {o x : Owner} {p : Page} {k : Kind} {ks : List Kind}

/-! ## Shifts -/

/-- A page that fits fits wherever it is moved. -/
theorem Shift.fits (h : Shift L L') (hL : L.Sound) (ho : L.Fits o) : L'.Fits o := fun q hq => by
  obtain ⟨p, hp, hs⟩ := h.shifted_of_page hL hq
  rw [h.initial]
  exact hs.fits (ho p hp)

/-- A page is moved into a frame only if it fits. -/
theorem Shift.fitted (h : Shift L L') (hL : L.Sound) (hfit : L.Fitted) : L'.Fitted :=
  fun o f hf q hq => by
  have hqf := (frame_of_page hq).symm.trans hf
  obtain ⟨p, hp, hs⟩ := h.shifted_of_page hL hq
  rw [h.initial]
  cases hs with
  | stays => exact hfit o f ((frame_of_page hp).trans hqf) _ hp
  | evicted slot group => cases hqf
  | loaded hgiven f => exact hgiven.fits f
  | unshared hpf => exact (hfit o _ ((frame_of_page hp).trans hpf) _ hp).place _ _

/-! ## Moves -/

/-- An initializer that is supplied is not one of those that are used. -/
theorem Move.fits_initial (h : Move k L L') (hL : L.Sound) (hp : L.page x = some p)
    (hfit : p.Fits L.initial) : p.Fits L'.initial := by
  refine ⟨hfit.window, fun {t n bytes} hc hn => ?_⟩
  cases h with
  | supply hnew =>
    rename_i n' content
    by_cases heq : n = n'
    · have hsupplied := hL.supplied hp hc
      rw [heq, hnew] at hsupplied
      cases hsupplied
    · exact hfit.content hc ((if_neg heq).symm.trans hn)
  | _ => exact hfit.content hc hn

/-- A page in a frame is copied only into that frame. -/
theorem Move.fitted (h : Move k L L') (hL : L.Sound) (hfit : L.Fitted) : L'.Fitted :=
  fun o f hf q hq => by
  have hqf := (frame_of_page hq).symm.trans hf
  cases h.brings hq with
  | stays hp group =>
    exact (h.fits_initial hL hp (hfit _ f ((frame_of_page hp).trans hqf) _ hp)).place _ _
  | enters hk => cases hqf
  | copies hk hp group =>
    exact (h.fits_initial hL hp (hfit _ f ((frame_of_page hp).trans hqf) _ hp)).place _ _

/-- **The pages in frames fit there**, whatever is done. -/
theorem Trace.fitted (h : Trace ks L L') (hL : L.Sound) (hfit : L.Fitted) : L'.Fitted := by
  induction h with
  | refl => exact hfit
  | shift h hs ih => exact hs.fitted (h.sound hL) (ih hL hfit)
  | move h hm ih => exact hm.fitted (h.sound hL) (ih hL hfit)

/-- **A page that fits** fits still after the stack has grown. -/
theorem Trace.fits_of_growth {id : SpaceId} (h : Trace ks L L') (hL : L.Sound)
    (hks : ∀ k ∈ ks, Layout.IsGrowth id k) (ho : L.Fits o) : L'.Fits o := by
  induction h with
  | refl => exact ho
  | shift h hs ih => exact hs.fits (h.sound hL) (ih hL hks ho)
  | move h hm ih =>
    have ho := ih hL (fun k hk => hks k (List.mem_append_left _ hk)) ho
    have hgrowth := hks _ (List.mem_append_right _ List.mem_cons_self)
    intro q hq
    cases hm.brings hq with
    | stays hp group => exact (hm.fits_initial (h.sound hL) hp (ho _ hp)).place _ _
    | enters hk =>
      subst hk
      rcases hgrowth with ⟨v, hv⟩ | ⟨v, hv⟩
      · obtain ⟨-, -, -, rfl⟩ := Ledger.Kind.enter.inj hv
        exact Page.fits_zero _ _ _
      · cases hv
    | copies hk =>
      subst hk
      rcases hgrowth with ⟨v, hv⟩ | ⟨v, hv⟩ <;> cases hv

theorem Admits.trace_of_growth {id : SpaceId} (h : L.Admits o) (htrace : Trace ks L L') (hL : L.Sound)
    (hks : ∀ k ∈ ks, Layout.IsGrowth id k) : L'.Admits o :=
  ⟨htrace.fitted hL h.fitted, htrace.fits_of_growth hL hks h.fits⟩

theorem Admits.shifts (h : L.Admits o) (htrace : Shifts L L') (hL : L.Sound) : L'.Admits o :=
  have hnone : ∀ k ∈ ([] : List Kind), Layout.IsGrowth o.space k := nofun
  h.trace_of_growth htrace hL hnone

end Ledger

end DemandPaging
