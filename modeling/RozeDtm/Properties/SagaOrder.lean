import RozeDtm.Serial.Saga

/-!
# The order of a sequential Saga

`start_saga` calls the actions of a sequential Saga in the order of its branches, and
`abort_saga` compensates in the opposite order what has to be compensated.  Wherever the
operations that drive the Saga, run one after another, stop and turn back, its calls are in
order, and an Aborted Saga is compensated exactly (`saga_in_order`).
-/

namespace RozeDtm

open Conc

/-- The operations that a Saga is driven by. -/
def Operation.DrivesSaga : Operation → Prop
  | .startSaga _ | .abortSaga _ | .scheduleAbort _ | .recover _ | .tickRecoverOnce => True
  | _ => False

/-- The record of a sequential Saga as it is submitted. -/
structure SagaSubmitted (s₀ : Transaction) : Prop extends Sequential s₀ where
  kind : s₀.kind = .saga
  status : s₀.status = .submitted
  pending : ∀ b ∈ s₀.branches, b.status = .pending
  attempts : ∀ b ∈ s₀.branches, b.attempts = 0

/-- **One operation keeps the Saga.** -/
theorem ends_drivesSaga {dtm : Dtm} {s₀ : Transaction} {op : Operation} {i : Nat} {w : World}
    (hop : op.DrivesSaga) (hS : Sequential s₀) (hw : SagaInv s₀ w) :
    inMemory.Ends (World.SagaOrdered s₀) i (op.prog dtm) (fun _ => SagaInv s₀) w := by
  have hsteady := steady_saga s₀
  have close {x : Act (List Transaction)} (h : KeepsSaga s₀ i x w) :
      inMemory.Ends (World.SagaOrdered s₀) i x.run (fun _ => SagaInv s₀) w :=
    (Machine.Ends.mono h fun r w' hr => by cases r <;> exact hr).ofRestrict fun _ _ => trivial
  cases op with
  | startSaga gid =>
    refine close (hsteady.one hw within_startSaga fun hg => ?_)
    subst hg
    exact keeps_startSaga hS hw
  | abortSaga gid =>
    refine close (hsteady.one hw within_abortSaga fun hg => ?_)
    subst hg
    exact keeps_abortSaga hS hw
  | scheduleAbort gid =>
    refine close (hsteady.one hw within_scheduleAbort fun hg => ?_)
    subst hg
    exact keeps_scheduleAbortSaga hw
  | recover gid =>
    refine close (hsteady.one hw within_recover fun hg => ?_)
    subst hg
    exact keeps_recoverSaga hS hw
  | tickRecoverOnce =>
    have hrecord : ∀ tx, w.txs[s₀.gid]? = some tx → tx.gid = s₀.gid ∧ tx.kind = .saga := by
      obtain ⟨s, hs⟩ := hw
      intro tx htx
      cases hs.stored.symm.trans htx
      exact ⟨hs.record.gid, hs.record.kind⟩
    refine close (hsteady.tickRecoverOnce hw fun hw' htx h => ?_)
    exact keeps_tickMoveSaga hS hw' (hrecord _ htx).1 (hrecord _ htx).2 h
  | _ => exact hop.elim

/-- The Saga before it is started. -/
theorem SagaSubmitted.inv {s₀ : Transaction} {w : World} (hs : SagaSubmitted s₀) (hw : w.Keyed)
    (hh : w.history = []) (hs₀ : w.txs[s₀.gid]? = some s₀) : SagaInv s₀ w := by
  have hcalls : callEvents s₀.gid w.history = [] := by
    rw [hh]
    rfl
  have hf : Forward s₀ (callEvents s₀.gid w.history) [] s₀.branches := by
    rw [hcalls]
    refine ⟨rfl, ?_, rfl, fun b hb => (nomatch hb), fun b hb => ⟨Or.inl (hs.pending b hb), ?_, ?_⟩⟩
    · rintro ⟨_, hm, -⟩
      cases hm
    · rw [hs.attempts b hb]
      rfl
    · rw [hs.attempts b hb]
      exact one_le_sagaMaxAttempts _
  have hsame := SameBranches.refl s₀.branches
  refine ⟨s₀, hw, hs₀, hf.order hsame ?_, rfl, hs.kind, rfl, hsame,
    .forward [] s₀.branches (Or.inl hs.status) rfl hf⟩
  rw [hcalls]
  intro later entry earlier h
  cases later <;> cases h

/-- A Saga that goes forward has attempts left. -/
theorem SagaInv.not_usedUp {s₀ s : Transaction} {w : World} (hw : SagaInv s₀ w)
    (hs : w.txs[s₀.gid]? = some s) (hst : s.status = .submitted ∨ s.status = .succeeding) :
    ¬ UsedUp s₀ (callEvents s₀.gid w.history) := by
  obtain ⟨_, hat⟩ := hw
  cases hat.stored.symm.trans hs
  cases hat.record.phase with
  | forward acted rest _ hbs hf => exact hf.not_usedUp (hbs ▸ hat.record.same)
  | succeeded h | backward h | aborted h =>
    rw [h] at hst
    exact absurd hst (by decide)

/-- **A sequential Saga executes and compensates in order** at every point of every run of its
operations one after another.  Between operations a Saga that is Submitted or Succeeding has
attempts left, so it is `start_saga` that turns back when they are used up. -/
theorem saga_in_order (dtm : Dtm) {s₀ : Transaction} {w w' : World} (hw : w.Keyed)
    (hh : w.history = []) (hs₀ : w.txs[s₀.gid]? = some s₀) (hs : SagaSubmitted s₀)
    (hr : inMemory.SerialAt (dtm.Programs Operation.DrivesSaga) w w') :
    w'.SagaOrdered s₀ ∧
    (inMemory.Serial (dtm.Programs Operation.DrivesSaga) w w' → ∀ s, w'.txs[s₀.gid]? = some s →
      s.status = .submitted ∨ s.status = .succeeding →
        ¬ UsedUp s₀ (callEvents s₀.gid w'.history)) := by
  have hinv : SagaInv s₀ w := hs.inv hw hh hs₀
  have hdrift (w w' : World) (h : SagaInv s₀ w) (hd : inMemory.drift w w') : SagaInv s₀ w' := by
    obtain ⟨now, rfl⟩ := hd
    exact h.setClock now
  have hstep (i : Nat) (p : Prog effects (Except Err (List Transaction))) (w : World)
      (hp : dtm.Programs Operation.DrivesSaga p) (h : SagaInv s₀ w) :
      inMemory.Ends (World.SagaOrdered s₀) i p (fun _ => SagaInv s₀) w := by
    obtain ⟨op, hop, rfl⟩ := hp
    exact ends_drivesSaga hop hs.toSequential h
  exact ⟨hr.along hdrift (fun _ => SagaInv.ordered) hstep hinv,
    fun hend _ hs' hst => (hend.stays hdrift hstep hinv).not_usedUp hs' hst⟩

/-- Two branches, each called at most twice. -/
def twoActions : Transaction :=
  { Transaction.new 0 "g" .saga [.saga "a" "do" "undo" .null, .saga "b" "do" "undo" .null] with
    options := { TransactionOptions.default with retryLimit := some 1 } }

/-- The first action succeeds, the second one fails twice, its compensation fails once, and
recovery compensates both. -/
theorem saga_in_order_turned : ∃ w : World,
    inMemory.SerialAt (Dtm.plain.Programs Operation.DrivesSaga) (.initial [twoActions]) w ∧
    w.HasStatus "g" .aborted ∧ doneIds "compensate" (callEvents "g" w.history) = ["a", "b"] ∧
    w.SagaOrdered twoActions := by
  obtain ⟨w, hw, hφ⟩ := Dtm.exists_serial inMemory .plain Operation.DrivesSaga
    (.initial [twoActions])
    [(.startSaga "g", outcomes 6 true ++ outcomes 6 false),
      (.startSaga "g", outcomes 15 false), (.recover "g", outcomes 12 true)]
    (fun w => w.statusOf "g" = some .aborted &&
      doneIds "compensate" (callEvents "g" w.history) = ["a", "b"])
    (by simp [Operation.DrivesSaga]) (by decide)
  rw [Bool.and_eq_true, decide_eq_true_eq, decide_eq_true_eq] at hφ
  have hat := hw.at ⟨.tickRecoverOnce, trivial, rfl⟩
  have hsub : SagaSubmitted twoActions := by
    refine ⟨⟨?_, ?_, ?_⟩, ?_, ?_, ?_, ?_⟩ <;> decide
  exact ⟨w, hat, World.hasStatus_iff.mpr hφ.1, hφ.2,
    (saga_in_order .plain (World.keyed_initial _) rfl rfl hsub hat).1⟩

end RozeDtm
