import RozeDtm.Session.Scope

/-!
# Disciplines of operations that load first

Every operation on a gid loads its record before it does anything else, and then stays with
that gid; a tick and a batch are sequences of such operations.  A discipline `D` with
`LoadsFirst D` is one for which this is enough, so that every operation follows it
(`LoadsFirst.act`).
-/

namespace RozeDtm

open Conc

/-- The steps that need no record to have been read. -/
def Effect.Free : Effect → Prop
  | .insertTransaction _ | .registerBranch _ _ | .recordWorkflowProgress _ _
  | .finishWorkflow _ _ _ _ | .listTransactions | .getKv _ _ | .acquireRecoveryLease _ _ _
  | .currentMillis => True
  | _ => False

namespace FreeSteps

variable {T : Type} {D : Discipline effects T} {t : T} {dtm : Dtm}

theorem call (hfree : ∀ {o : Effect} {t : T}, o.Free → D.pre t o) {o : Effect} (ho : o.Free)
    {Q : T → o.Reply → Prop} (hQ : ∀ t r, Q t r) : D.Does (Act.call o) t Q :=
  Discipline.does_perform.mpr ⟨hfree ho, fun _ _ => hQ _ _⟩

theorem expandBranches (hfree : ∀ {o : Effect} {t : T}, o.Free → D.pre t o)
    (branches : List Branch) : D.Does (dtm.expandBranches branches) t (fun _ _ => True) := by
  induction branches generalizing t with
  | nil => exact Discipline.does_pure.mpr trivial
  | cons branch rest ih =>
    rw [Dtm.expandBranches]
    split
    · simp only [Discipline.does_bind, does_ofOption, does_ofExcept, Dtm.getTopic]
      intro _ _
      refine call hfree (by exact trivial) fun _ entry => ?_
      cases entry with
      | none =>
        rw [Discipline.does_pure]
        simp only [reduceCtorEq, false_implies, implies_true]
      | some entry =>
        simp only [Discipline.does_bind, does_ofExcept, Discipline.does_pure]
        exact fun _ _ _ _ _ _ => ih.mono fun _ _ _ => trivial
    · simp only [Discipline.does_bind, Discipline.does_pure]
      exact ih.mono fun _ _ _ => trivial

/-- A submission takes none but free steps. -/
theorem submit (hfree : ∀ {o : Effect} {t : T}, o.Free → D.pre t o) {tx : Transaction} :
    D.Does (dtm.submit tx) t (fun _ _ => True) := by
  have insert {tx : Transaction} {t : T} :
      D.Does (Store.insertTransaction tx) t (fun _ _ => True) :=
    ⟨hfree trivial, fun _ _ _ _ => trivial⟩
  simp only [Dtm.submit, Discipline.does_bind, does_ofExcept]
  intro _ _ _ _ _ _
  split
  · simp only [Dtm.expandMessageTopics, Discipline.does_bind, does_ofExcept, Discipline.does_pure]
    exact (expandBranches hfree _).mono fun _ _ _ _ _ => insert
  · simp only [Discipline.does_bind, Discipline.does_pure]
    exact insert

end FreeSteps

/-- The discipline permits what stays with a transaction that was loaded first, and the steps
that need none. -/
structure LoadsFirst {T : Type} (D : Discipline effects T) : Prop where
  load : ∀ {gid : String} {f : Transaction → Act Transaction} {Q : Unit → Transaction → Prop} {t : T},
    (within gid).Does (loadTransaction gid >>= f) () Q →
    D.Does (loadTransaction gid >>= f) t (fun _ _ => True)
  ofKind : ∀ {gid : String} {kind : TransactionKind} {f : Transaction → Act Transaction}
    {Q : Unit → Transaction → Prop} {t : T},
    (within gid).Does (transactionOfKind gid kind >>= f) () Q →
    D.Does (transactionOfKind gid kind >>= f) t (fun _ _ => True)
  free : ∀ {o : Effect} {t : T}, o.Free → D.pre t o

namespace LoadsFirst

variable {T : Type} {D : Discipline effects T} (hD : LoadsFirst D) {t : T} {gid : String}
  {dtm : Dtm}

include hD

theorem call {o : Effect} (ho : o.Free) {Q : T → o.Reply → Prop} (hQ : ∀ t r, Q t r) :
    D.Does (Act.call o) t Q := FreeSteps.call hD.free ho hQ

/-! ### Recovery -/

theorem finishOrTerminal {reason : Option String} :
    D.Does (Dtm.finishOrTerminal gid reason) t (fun _ _ => True) := by
  rw [Dtm.finishOrTerminal, Discipline.does_bind]
  refine hD.call (by exact trivial) fun t r => ?_
  cases r with
  | ok tx => exact Discipline.does_pure.mpr trivial
  | error e => exact hD.load within_terminalAfterConflict

theorem expireCallbackWorkflow {tx : Transaction} :
    D.Does (Dtm.expireCallbackWorkflow tx) t (fun _ _ => True) := by
  have finish {tx : Transaction} {t : T} : D.Does (do
      Act.ofExcept (ensureStatus tx [.prepared])
      Dtm.finishOrTerminal tx.gid (some "workflow callback timed out")) t (fun _ _ => True) := by
    rw [Discipline.does_bind, does_ofExcept]
    exact fun _ _ => hD.finishOrTerminal
  have prepare : D.Does (Dtm.prepareWorkflow tx.gid) t (fun _ _ => True) :=
    hD.ofKind within_prepareWorkflow
  rw [Dtm.expireCallbackWorkflow]
  split
  · rw [Discipline.does_bind]
    exact prepare.mono fun _ _ _ => finish
  · rw [Discipline.does_bind, Discipline.does_pure]
    exact finish

theorem expire {tx : Transaction} : D.Does (dtm.expire tx) t (fun _ _ => True) := by
  rw [Dtm.expire]
  split
  · exact hD.load within_cancelTcc
  · exact hD.load within_abortSaga
  · split
    · exact hD.expireCallbackWorkflow
    · exact hD.ofKind within_abortWorkflow
  · split
    · exact hD.ofKind within_dispatchMessage
    · exact hD.ofKind within_abortMessage
  · split
    · exact hD.ofKind within_commitXa
    · exact hD.ofKind within_rollbackXa

theorem resume {kind : TransactionKind} {status : TransactionStatus} {move : Act Transaction}
    (h : dtm.resume gid kind status = some move) : D.Does move t (fun _ _ => True) := by
  rw [Dtm.resume.eq_def] at h
  split at h <;> simp only [Option.some.injEq, reduceCtorEq] at h <;> subst h
  · exact hD.load within_prepareTcc
  · exact hD.load within_prepareTcc
  · exact hD.load within_confirmTcc
  · exact hD.load within_cancelTcc
  · exact hD.load within_startSaga
  · exact hD.load within_startSaga
  · exact hD.load within_abortSaga
  · exact hD.ofKind within_startWorkflow
  · exact hD.ofKind within_startWorkflow
  · exact hD.ofKind within_abortWorkflow
  · exact hD.ofKind within_prepareMessage
  · exact hD.ofKind within_dispatchMessage
  · exact hD.ofKind within_prepareXa
  · exact hD.ofKind within_commitXa
  · exact hD.ofKind within_rollbackXa

theorem tickMove {now : Nat} {tx : Transaction} {move : Act Transaction}
    (h : dtm.tickMove now tx = some move) : D.Does move t (fun _ _ => True) := by
  rw [Dtm.tickMove] at h
  split at h
  · cases h
  split at h
  · cases h
  split at h
  · cases h
    exact hD.expire
  split at h
  · split at h
    · cases h
      exact hD.ofKind within_prepareWorkflow
    · split at h
      · cases h
        exact hD.ofKind within_recoverCallbackWorkflow
      · cases h
    · cases h
  · split at h
    · cases h
    · exact hD.resume h

theorem tickLoop {now : Nat} (txs : List Transaction) :
    D.Does (dtm.tickLoop now txs) t (fun _ _ => True) := by
  induction txs generalizing t with
  | nil => exact Discipline.does_pure.mpr trivial
  | cons tx rest ih =>
    rw [Dtm.tickLoop]
    split
    · exact ih
    · rename_i move hmove
      simp only [Discipline.does_bind, Discipline.does_pure]
      exact (hD.tickMove hmove).mono fun _ _ _ => ih.mono fun _ _ _ => trivial

theorem tickRecoverOnce : D.Does dtm.tickRecoverOnce t (fun _ _ => True) := by
  simp only [Dtm.tickRecoverOnce, Discipline.does_bind]
  exact hD.call (by exact trivial) fun _ _ => hD.call (by exact trivial) fun _ txs => hD.tickLoop txs

theorem tickRecoverOnceWithLease {owner : String} {ttlMillis : Nat} :
    D.Does (dtm.tickRecoverOnceWithLease owner ttlMillis) t (fun _ _ => True) := by
  simp only [Dtm.tickRecoverOnceWithLease, Discipline.does_bind]
  refine hD.call (by exact trivial) fun _ lease => ?_
  cases lease with
  | none => exact Discipline.does_pure.mpr trivial
  | some fence => exact hD.tickRecoverOnce

/-! ### Batches and submission -/

theorem resetEach (gids : List String) : D.Does (Dtm.resetEach gids) t (fun _ _ => True) := by
  induction gids generalizing t with
  | nil => exact Discipline.does_pure.mpr trivial
  | cons gid rest ih =>
    have reset : D.Does (Dtm.resetRetry gid) t (fun _ _ => True) := hD.load within_resetRetry
    simp only [Dtm.resetEach, Discipline.does_bind, Discipline.does_pure]
    exact reset.mono fun _ _ _ => ih.mono fun _ _ _ => trivial

theorem submit {tx : Transaction} : D.Does (dtm.submit tx) t (fun _ _ => True) :=
  FreeSteps.submit hD.free

/-! ### Operations -/

/-- **Every operation keeps the discipline.** -/
theorem act (op : Operation) : D.Does (op.act dtm) t (fun _ _ => True) := by
  have one {act : Act Transaction} (h : D.Does act t (fun _ _ => True)) :
      D.Does (Operation.act.one act) t (fun _ _ => True) :=
    Discipline.does_bind.mpr (h.mono fun _ _ _ => Discipline.does_pure.mpr trivial)
  cases op with
  | submit tx => exact one hD.submit
  | registerBranch gid branch => exact one ⟨hD.free trivial, fun _ _ _ _ => trivial⟩
  | recordWorkflowProgress gid progress => exact one ⟨hD.free trivial, fun _ _ _ _ => trivial⟩
  | finishCallbackWorkflow gid status reason result =>
    refine one (Discipline.does_bind.mpr (hD.call (by exact trivial) fun _ r => ?_))
    exact does_ofExcept.mpr fun _ _ => trivial
  | recoverCallbackWorkflow gid => exact one (hD.ofKind within_recoverCallbackWorkflow)
  | scheduleSubmit gid => exact one (hD.load within_scheduleSubmit)
  | scheduleAbort gid => exact one (hD.load within_scheduleAbort)
  | startSaga gid => exact one (hD.load within_startSaga)
  | abortSaga gid => exact one (hD.load within_abortSaga)
  | prepareTcc gid => exact one (hD.load within_prepareTcc)
  | confirmTcc gid => exact one (hD.load within_confirmTcc)
  | cancelTcc gid => exact one (hD.load within_cancelTcc)
  | prepareMessage gid => exact one (hD.ofKind within_prepareMessage)
  | dispatchMessage gid => exact one (hD.ofKind within_dispatchMessage)
  | abortMessage gid => exact one (hD.ofKind within_abortMessage)
  | prepareWorkflow gid => exact one (hD.ofKind within_prepareWorkflow)
  | startWorkflow gid => exact one (hD.ofKind within_startWorkflow)
  | abortWorkflow gid => exact one (hD.ofKind within_abortWorkflow)
  | prepareXa gid => exact one (hD.ofKind within_prepareXa)
  | commitXa gid => exact one (hD.ofKind within_commitXa)
  | rollbackXa gid => exact one (hD.ofKind within_rollbackXa)
  | forceStop gid => exact one (hD.load within_forceStop)
  | resetRetry gid => exact one (hD.load within_resetRetry)
  | resetRetryBatch limit =>
    exact Discipline.does_bind.mpr (hD.call (by exact trivial) fun _ _ => hD.resetEach _)
  | resetRetryBatchAfter afterMillis limit =>
    simp only [Operation.act, Dtm.resetRetryBatchAfter, Discipline.does_bind, Discipline.does_pure]
    exact hD.call (by exact trivial) fun _ _ => hD.call (by exact trivial) fun _ _ => hD.resetEach _
  | recover gid => exact one (hD.load within_recover)
  | tickRecoverOnce => exact hD.tickRecoverOnce
  | tickRecoverOnceWithLease owner ttlMillis => exact hD.tickRecoverOnceWithLease

end LoadsFirst

end RozeDtm
