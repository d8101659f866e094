import RozeDtm.InMemory.Snapshot
import RozeDtm.Serial.Rules

/-!
# What an operation on another transaction leaves alone

An operation that stays within one gid leaves the record, the barriers and the record of
the run of every other transaction as they are.
-/

namespace RozeDtm

open Conc

/-- The transaction that an event is about. -/
def Event.gid : Event → String
  | .decided b _ | .released b => b.gid
  | .began c | .ended c _ => c.gid
  | .registered gid _ | .progressed gid _ => gid

/-- What was recorded about `g`. -/
def eventsOf (g : String) (h : List (Nat × Event)) : List (Nat × Event) :=
  h.filter fun entry => entry.2.gid = g

/-- Two worlds have the same of `g`. -/
structure SameOf (g : String) (w w' : World) : Prop where
  txs : w'.txs[g]? = w.txs[g]?
  barriers : ∀ b, b.gid = g → (b ∈ w'.barriers ↔ b ∈ w.barriers)
  events : eventsOf g w'.history = eventsOf g w.history

theorem SameOf.refl (g : String) (w : World) : SameOf g w w := ⟨rfl, fun _ _ => Iff.rfl, rfl⟩

theorem SameOf.trans {g : String} {w w' w'' : World} (h : SameOf g w w') (h' : SameOf g w' w'') :
    SameOf g w w'' :=
  ⟨h'.txs.trans h.txs, fun b hb => (h'.barriers b hb).trans (h.barriers b hb),
    h'.events.trans h.events⟩

theorem succeeded_eventsOf {g : String} {h : List (Nat × Event)} {b : BranchBarrier}
    (hb : b.gid = g) : Succeeded (eventsOf g h) b ↔ Succeeded h b := by
  constructor
  · rintro ⟨entry, hm, hc⟩
    exact ⟨entry, List.mem_of_mem_filter hm, hc⟩
  · rintro ⟨entry, hm, c, hc, rfl⟩
    refine ⟨entry, List.mem_filter.mpr ⟨hm, ?_⟩, c, hc, rfl⟩
    obtain ⟨i, e⟩ := entry
    cases e with
    | ended c' ok =>
      cases ok with
      | true =>
        cases hc
        exact decide_eq_true hb
      | false => cases hc
    | _ => cases hc

theorem SameOf.succeeded {g : String} {w w' : World} (h : SameOf g w w') {b : BranchBarrier}
    (hb : b.gid = g) : Succeeded w'.history b ↔ Succeeded w.history b := by
  rw [← succeeded_eventsOf hb, h.events, succeeded_eventsOf hb]

section Frame

variable {g gid : String} {w : World} {o : Effect} {i : Nat} {t : Unit}

theorem event_gid {e : Event} (he : e.OfStep o) (hp : (within gid).pre t o) : e.gid = gid := by
  cases o with
  | registerBranch gid' branch => exact hp.elim
  | recordWorkflowProgress gid' progress => exact hp.elim
  | barrier b =>
    obtain ⟨d, rfl⟩ := he
    exact hp
  | releaseBarrier b =>
    cases he
    exact hp
  | invokeBegin c =>
    cases he
    exact hp
  | invokeEnd c =>
    obtain ⟨ok, rfl⟩ := he
    exact hp
  | _ => exact he.elim

theorem within_not_delete (hp : (within gid).pre t o) (tx : Transaction) :
    o ≠ .deleteTransactionIfUnchanged tx := by
  rintro rfl
  exact hp

/-- **A step within one gid and the transaction of another.** -/
theorem sameOf_step (hg : gid ≠ g) (hp : (within gid).pre t o) (i : Nat)
    (c : Outcome) : SameOf g w (InMemory.exec i o c w).2 := by
  refine ⟨?_, fun b hb => ?_, ?_⟩
  · rcases txs_step i c w g (within_not_delete hp) with h | ⟨tx, rfl, htx, h⟩ |
      ⟨tx, rfl, htx, -, h⟩ | ⟨s, s', hs, ha, h⟩
    · exact h
    · exact absurd ((show tx.gid = gid from hp).symm.trans htx) hg
    · exact hp.elim
    · cases o with
      | registerBranch gid' branch => exact hp.elim
      | recordWorkflowProgress gid' progress => exact hp.elim
      | finishWorkflow gid' status reason result => exact absurd (hp.symm.trans ha.1) hg
      | deferWorkflowRecovery gid' delay => exact absurd (hp.symm.trans ha.1) hg
      | _ => exact ha.elim
  · cases o with
    | barrier b' =>
      have hne : b ≠ b' := by
        rintro rfl
        exact hg ((show b.gid = gid from hp).symm.trans hb)
      simp only [InMemory.exec, World.note_barriers]
      rcases barrier_cases w b' with ⟨-, h⟩ | ⟨-, -, h⟩ | ⟨-, -, -, h⟩ | ⟨-, -, h⟩ <;> rw [h] <;>
        simp [hne]
    | releaseBarrier b' =>
      have hne : b ≠ b' := by
        rintro rfl
        exact hg ((show b.gid = gid from hp).symm.trans hb)
      simp [InMemory.exec, InMemory.releaseBarrier, hne]
    | _ => rw [barriers_step c (within_not_delete hp) (fun _ => by simp) fun _ => by simp]
  · rcases history_step i o c w with hh | ⟨e, he, hh⟩ <;> rw [hh]
    have hne : ¬ e.gid = g := by rw [event_gid he hp]; exact hg
    simp [eventsOf, hne]

/-- An operation that stays within `gid`, as seen from the transaction `g`: `ref` is the world
in which it starts. -/
def frameOutline (hg : gid ≠ g) (ref : World) : Outline inMemory (within gid) () where
  inv := fun w => w.Keyed ∧ SameOf g ref w
  own := fun _ _ _ => True
  sees := fun {w i t o} c hw _ hp _ => by
    cases o with
    | getTransaction gid' =>
      intro tx htx
      exact hw.1 gid' tx htx
    | _ => trivial
  inv_step := fun {_ i _ _} c hw _ hp _ =>
    ⟨hw.1.exec i c, hw.2.trans (sameOf_step hg hp i c)⟩
  own_step := fun _ _ _ _ _ => trivial
  own_other := fun _ _ _ _ _ _ _ _ _ => trivial
  inv_drift := fun hw hd => by
    obtain ⟨now, rfl⟩ := hd
    exact ⟨hw.1, hw.2.1, hw.2.2, hw.2.3⟩
  own_drift := fun _ _ _ => trivial

/-- **An operation within one gid, run alone, leaves every other transaction alone.** -/
theorem ends_frame {α : Type} {allow : Effect → World → Prop} {φ : World → Prop} (hg : gid ≠ g)
    (hw : w.Keyed) (hφ : ∀ w', w'.Keyed ∧ SameOf g w w' → φ w')
    {p : Prog effects α} {Q : Unit → α → Prop} (hp : (within gid).Follows p () Q) (i : Nat) :
    (alone allow).Ends φ i p (fun _ w' => w'.Keyed ∧ SameOf g w w') w :=
  (((frameOutline hg w).restrict allow).ends hφ ⟨hw, SameOf.refl g w⟩ trivial hp).mono
    fun _ _ h => h.1

end Frame

end RozeDtm
