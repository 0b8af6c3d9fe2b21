import DemandPaging.Proofs.Forking
import DemandPaging.Proofs.Ledger.Lone

/-!
# Bytes that one page uses

A byte of a space is its own if what it is loaded from and kept in is used by no other page: it depends
on no file, or it is in the window of its page and has been in the window of one page at a time since
there was none (`Machine.UsedAlone`). No other page can change such a byte (`Machine.Owns.has`).
-/

namespace DemandPaging

open Ledger (Kind)
open Machine (Sound)

/-- **During an operation pages only leave, or none does**, unless a fork is undone. -/
theorem Operation.Moves.oneway {op : Operation} {outcome : Except Refusal Reply} {Y : Layout}
    {ks : List Kind} (h : op.Moves outcome Y ks)
    (hvain : ∀ parent cause, op = .fork parent → outcome ≠ .error cause) :
    (∀ k ∈ ks, k.BringsNone) ∨ ∀ k ∈ ks, ∀ o writeBack, k ≠ .leave o writeBack := by
  by_cases hleave : ∃ o writeBack, .leave o writeBack ∈ ks
  · obtain ⟨o, writeBack, hleave⟩ := hleave
    have hdoes := h.does
    cases h.does _ hleave with
    | drop | remove | unmap =>
      refine .inl fun k hk => ?_
      cases hdoes k hk <;> exact ⟨nofun, nofun⟩
    | undo v hnew =>
      cases h with
      | forkRefused => exact absurd rfl (hvain _ _ rfl)
      | fork h =>
        obtain ⟨-, h⟩ := h
        rcases List.mem_cons.mp hleave with heq | hleave
        · cases heq
        · rcases h.mem hleave with ⟨_, heq⟩ | ⟨_, heq⟩ <;> cases heq
  · refine .inr fun k hk o writeBack heq => ?_
    exact hleave ⟨o, writeBack, heq ▸ hk⟩

namespace Machine

/-- A step after which at most one page has the byte `n` of the file `i` in its window, and which is no
change to that byte from outside. -/
structure Sole (i n : Nat) (m : Machine) (label : Label) (m' : Machine) : Prop where
  one : (m'.ledger none none).Lone i n
  outside : label = .outside →
    (m'.backing.files.file i).data.get n = (m.backing.files.file i).data.get n

/-- Since there was no page with the byte `n` of the file `i` in its window, one page at a time has used
the byte. -/
def UsedAlone (m : Machine) (i n : Nat) : Prop :=
  ∃ m₀ labels, Reachable .all m₀ ∧
    (∀ o p w, (m₀.ledger none none).page o = some p → p.window? = some w → ¬w.Contains i n) ∧
    RunWith (Sole i n) .all m₀ labels m

/-- The byte at an address, if there is one, depends on no file, or on a byte of one that no other page
uses. A page that is kept in a file has its own bytes in its window. -/
def Owns (m : Machine) (id : SpaceId) (va : Address) : Prop :=
  ∀ p w, (m.ledger none none).page ⟨id, va.page⟩ = some p → p.window? = some w →
    (p.type = .file → va.offset < w.readBytes) ∧
    (va.offset < w.readBytes → m.UsedAlone w.handle (w.offset + va.offset))

variable {lax : Tolerance} {m m' : Machine} {label : Label} {labels : List Label} {i n : Nat}
  {id : SpaceId} {va : Address}

/-- A step after which one page at most uses a byte keeps clean pages the same as their file there. -/
theorem Sole.coherent (h : Sole i n m label m') (hs : Step lax m label m')
    (hm : Sound lax m none none) (hlone : (m.ledger none none).Lone i n)
    (hbefore : (m.ledger none none).Coherent i n) : (m'.ledger none none).Coherent i n := by
  cases label with
  | outside =>
    have hfile := h.outside rfl
    cases hs with
    | outside hchanged =>
      rw [hchanged.ledger hm]
      exact hbefore.outside hfile
  | ask op outcome =>
    by_cases hvain : ∃ parent cause, op = .fork parent ∧ outcome = .error cause
    · obtain ⟨parent, cause, rfl, rfl⟩ := hvain
      rwa [hs.ledger_of_fork_refused hm]
    · obtain ⟨ks, hks, htrace⟩ := Operation.Tells.moves (hs.tells hm).told hm.books
      have hinside : ∀ k ∈ ks, k ≠ .outside := fun k hk heq => by
        subst heq
        cases hks.does _ hk
      rcases hks.oneway fun parent cause hop houtcome => hvain ⟨parent, cause, hop, houtcome⟩
        with hnone | hleave
      · exact (hbefore.trace_of_bringsNone hm.books htrace hlone.housed
          fun k hk => ⟨hnone k hk, hinside k hk⟩).1
      · exact hbefore.trace_of_not_leave hm.books htrace h.one.housed
          fun k hk => ⟨hleave k hk, hinside k hk⟩

/-- **A byte of a file that was used by one page at a time** is in one window at most, and a clean page
has it in its frame. -/
theorem UsedAlone.coherent (h : m.UsedAlone i n) :
    (m.ledger none none).Lone i n ∧ (m.ledger none none).Coherent i n := by
  obtain ⟨m₀, labels, hm₀, hnone, hrun⟩ := h
  induction hrun with
  | refl =>
    refine ⟨fun x y p q v w hp _ hv _ hin => absurd hin (hnone x p v hp hv), fun x p w hp hw hin => ?_⟩
    exact absurd hin (hnone x p w hp (Page.window?_of_home? hw).2)
  | step hrun hs hsole ih =>
    exact ⟨hsole.one, hsole.coherent hs (hrun.run.sound hm₀.sound) ih.1 ih.2⟩

/-- **No other page can change what a space owns.** -/
theorem Owns.has (h : m.Owns id va) :
    ∃ v, (m.ledger none none).Has ⟨id, va.page⟩ va.offset v := by
  have hq := va.offset_lt
  cases hp : (m.ledger none none).page ⟨id, va.page⟩ with
  | none => exact ⟨none, .nothing hp⟩
  | some p =>
    cases hw : p.window? with
    | none => exact ⟨_, .byte (.free hp hw (Vector.getElem?_eq_getElem hq))⟩
    | some w =>
      obtain ⟨hin, halone⟩ := h p w hp hw
      have hcontains (hread : va.offset < w.readBytes) :
          w.Contains w.handle (w.offset + va.offset) := FileWindow.contains_add hread
      cases htype : p.type with
      | anon =>
        refine ⟨some (if va.offset < w.readBytes then
          ((m.ledger none none).file w.handle).data.get (w.offset + va.offset) else 0),
          .byte (.waits hp hw htype (fun hread => ?_) fun hpast => if_neg (Nat.not_lt.mpr hpast))⟩
        obtain ⟨hlone, -⟩ := (halone hread).coherent
        refine ⟨⟨fun h => h.elim, fun h => h.elim, fun _ => (if_pos hread).symm⟩, ?_⟩
        intro y q v hq hv hinq
        obtain ⟨hfile, hv⟩ := Page.window?_of_home? hv
        obtain rfl := hlone hq hp hv hw hinq (hcontains hread)
        obtain rfl := Option.some.inj (hp.symm.trans hq)
        rw [htype] at hfile
        cases hfile
      | file =>
        have hread := hin htype
        have hhome : p.home? = some w := by rw [Page.home?, if_pos htype, hw]
        obtain ⟨hlone, hcoherent⟩ := (halone hread).coherent
        obtain ⟨b, hb⟩ := hcoherent hp hhome (hcontains hread)
        rw [Nat.add_sub_cancel_left] at hb
        exact ⟨some b, .byte (.kept hp hhome hread hb (hlone.housed hp hhome (hcontains hread)))⟩

end Machine

end DemandPaging
