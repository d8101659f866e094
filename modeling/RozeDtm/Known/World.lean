import RozeDtm.Known.Basic
import RozeDtm.InMemory.Stored
import RozeDtm.Serial.Rules

/-!
# The world of an operation on a known record

An operation alone on a gid whose record is stored finds it, and leaves every other record as it
was (`KnownIn`).  What an operation yields on a known record it yields in such a world
(`runs_of_yields`).
-/

namespace RozeDtm

open Conc

/-- The record under `gid` is `σ`, and the other records are those of `ref`. -/
structure KnownIn (gid : String) (ref : World) (σ : Transaction) (w : World) : Prop where
  stored : ∃ tx, w.txs[gid]? = some tx ∧ SameRecord σ tx
  others : ∀ g : String, g ≠ gid → w.txs[g]? = ref.txs[g]?

section KnownIn

variable {gid : String} {ref w : World} {σ : Transaction} {o : Effect}

theorem KnownIn.same {w' : World} (h : KnownIn gid ref σ w) (htxs : w'.txs = w.txs) :
    KnownIn gid ref σ w' := by
  constructor
  · rw [htxs]
    exact h.stored
  · rw [htxs]
    exact h.others

/-- The answers are those that the session expects. -/
theorem KnownIn.sees (h : KnownIn gid ref σ w) (hp : (knowing gid).pre σ o) (i : Nat)
    (c : Outcome) : (knowing gid).sees σ o (InMemory.exec i o c w).1 := by
  cases o with
  | getTransaction g =>
    cases show g = gid from hp
    obtain ⟨tx, htx, hsame⟩ := h.stored
    exact ⟨tx, htx, hsame⟩
  | updateTransaction tx => exact rfl
  | barrier b => exact barrier_mayDecide w b
  | _ => trivial

/-- **One step of an operation on a known record.** -/
theorem KnownIn.step (h : KnownIn gid ref σ w) (hp : (knowing gid).pre σ o) (i : Nat)
    (c : Outcome) : KnownIn gid ref ((knowing gid).next σ o (InMemory.exec i o c w).1)
      (InMemory.exec i o c w).2 := by
  cases o with
  | updateTransaction tx =>
    cases show tx.gid = gid from hp
    refine ⟨⟨bumpTransactionRevision w.clock tx, ?_, .bump w.clock tx⟩, fun g hg => ?_⟩
    · exact Std.ExtTreeMap.getElem?_insert_self
    · have hne : (bumpTransactionRevision w.clock tx).gid ≠ g := fun h => hg h.symm
      rw [← h.others g hg]
      simp [InMemory.exec, InMemory.updateTransaction, Std.ExtTreeMap.getElem?_insert, hne]
  | barrier b => exact h.same (barrier_txs w b)
  | getTransaction g => exact h
  | releaseBarrier b => exact h.same rfl
  | currentMillis => exact h
  | invokeBegin call => exact h.same rfl
  | invokeEnd call => exact h.same rfl
  | joinNext n => exact h
  | _ => exact hp.elim

end KnownIn

/-- **What an operation yields on a known record, it yields alone in the store.** -/
theorem runs_of_yields {α : Type} {gid : String} {ref w : World} {σ : Transaction}
    {allow : Effect → World → Prop} {x : Act α} {Q : Transaction → α → Prop}
    (h : (knowing gid).Yields x σ Q) (hw : KnownIn gid ref σ w) (i : Nat) :
    (alone allow).Runs (fun _ => True) i x (fun a w' => ∃ σ', KnownIn gid ref σ' w' ∧ Q σ' a)
      (fun _ _ => False) w := by
  have hends := Discipline.Follows.ends (M := alone allow) (φ := fun _ => True) (i := i)
    (R := KnownIn gid ref) (fun _ _ _ => trivial) (fun σ o c w hw hp _ => hw.sees hp i c)
    (fun σ o c w hw hp _ => hw.step hp i c)
    (fun σ w w' hw hd => by
      obtain ⟨now, rfl⟩ := hd
      exact hw.same rfl) hw h
  apply hends.mono
  rintro _ w' ⟨σ', hw', a, rfl, hQ⟩
  exact ⟨σ', hw', hQ⟩

end RozeDtm
