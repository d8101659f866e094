import RozeDtm.Model.Coordinator.Recover
import RozeDtm.Session.Message
import RozeDtm.Session.Saga
import RozeDtm.Session.Workflow

/-!
# Every operation keeps the discipline

The scheduling requests, the dispatch of `recover` and of the recovery tick, and with
them every operation of the coordinator but the three that register something
(`submit`, `register_branch`, `record_workflow_progress`).
-/

namespace RozeDtm

open Conc

section Operations

variable {dtm : Dtm} {σ : Session}

/-! ### Scheduling -/

theorem does_scheduleSubmit (gid : String) :
    coordinator.Does (Dtm.scheduleSubmit gid) σ (fun _ _ => True) := by
  simp only [Dtm.scheduleSubmit, Discipline.does_bind, does_loadTransaction]
  intro tx
  split
  · exact Discipline.does_pure.mpr trivial
  · simp only [Discipline.does_bind, does_ofExcept, ensureStatus_eq_ok]
    intro _ _ _ _
    split
    · rename_i hc
      refine does_persistTransaction rfl (Writes.status ?_ (by decide) (by decide)) trivial
      rcases hc with ⟨-, hs⟩ | ⟨-, hs | hs⟩ <;> rw [hs] <;> rfl
    · split
      · rename_i hc
        refine does_persistTransaction rfl (Writes.status ?_ (by decide) (by decide)) trivial
        rw [hc.2]
        rfl
      · exact Discipline.does_pure.mpr trivial

/-- Every status that `schedule_abort` accepts may be taken to Aborting. -/
theorem moves_aborting {kind : TransactionKind} {status : TransactionStatus}
    (h : status ∈ Dtm.scheduleAbortAllowed kind) :
    TransactionStatus.moves kind status .aborting = true := by
  cases kind <;> simp only [Dtm.scheduleAbortAllowed, List.mem_cons, List.not_mem_nil, or_false] at h
  · rcases h with rfl | rfl | rfl <;> rfl
  · rcases h with rfl | rfl | rfl | rfl <;> rfl
  · rcases h with rfl | rfl | rfl <;> rfl
  · rcases h with rfl | rfl | rfl | rfl <;> rfl

/-- The branches of a record with other retry times. -/
theorem forall₂_map_still {bs : List Branch} {f : Branch → Branch}
    (hf : ∀ b, (f b).definition = b.definition ∧ (f b).status = b.status) :
    List.Forall₂ (fun a b => b.definition = a.definition ∧ b.status = a.status) bs (bs.map f) := by
  rw [List.forall₂_map_right_iff, List.forall₂_same]
  exact fun b _ => hf b

theorem does_scheduleAbort (gid : String) :
    coordinator.Does (Dtm.scheduleAbort gid) σ (fun _ _ => True) := by
  simp only [Dtm.scheduleAbort, Discipline.does_bind, does_loadTransaction]
  intro tx
  split
  · exact Discipline.does_pure.mpr trivial
  · split
    · exact does_abortMessage gid
    · simp only [Discipline.does_bind, does_ofExcept, ensureStatus_eq_ok]
      intro _ hs
      refine does_persistTransaction rfl (Writes.still tx.metadata
        (forall₂_map_still fun _ => ⟨rfl, rfl⟩) (moves_aborting hs) (by decide) (by decide)) trivial

/-- A status that is not terminal may be written again, or given up. -/
theorem moves_of_not_terminal {kind : TransactionKind} {status target : TransactionStatus}
    (h : status.isTerminal = false) (ht : target = status ∨ target = .failed) :
    TransactionStatus.moves kind status target = true := by
  cases status <;> rcases ht with rfl | rfl <;> first | rfl | exact absurd h (by decide)

theorem ne_of_not_terminal {status : TransactionStatus} (h : status.isTerminal = false) :
    status ≠ .succeeded ∧ status ≠ .aborted := by
  cases status <;> first | exact ⟨by decide, by decide⟩ | exact absurd h (by decide)

theorem does_forceStop (gid : String) :
    coordinator.Does (Dtm.forceStop gid) σ (fun _ _ => True) := by
  simp only [Dtm.forceStop, Discipline.does_bind, does_loadTransaction, does_ofExcept,
    ensure_eq_ok, Bool.not_eq_true']
  intro tx _ hs
  exact does_persistTransaction rfl (Writes.still tx.metadata
    (forall₂_map_still fun _ => ⟨rfl, rfl⟩) (moves_of_not_terminal hs (Or.inr rfl)) (by decide)
    (by decide)) trivial

theorem does_resetRetry (gid : String) :
    coordinator.Does (Dtm.resetRetry gid) σ (fun _ _ => True) := by
  simp only [Dtm.resetRetry, Discipline.does_bind, does_loadTransaction, does_ofExcept,
    ensure_eq_ok, Bool.not_eq_true', does_currentMillis]
  intro tx _ hs now
  refine does_persistTransaction rfl (Writes.still _ (forall₂_map_still fun b => ?_)
    (moves_of_not_terminal hs (Or.inl rfl)) (ne_of_not_terminal hs).1 (ne_of_not_terminal hs).2)
    trivial
  split <;> exact ⟨rfl, rfl⟩

theorem does_resetEach (gids : List String) :
    coordinator.Does (Dtm.resetEach gids) σ (fun _ _ => True) := by
  induction gids generalizing σ with
  | nil => exact Discipline.does_pure.mpr trivial
  | cons gid rest ih =>
    simp only [Dtm.resetEach, Discipline.does_bind, Discipline.does_pure]
    exact (does_resetRetry gid).mono fun _ _ _ => ih.mono fun _ _ _ => trivial

theorem does_resetRetryBatch (limit : Nat) :
    coordinator.Does (Dtm.resetRetryBatch limit) σ (fun _ _ => True) := by
  simp only [Dtm.resetRetryBatch, Discipline.does_bind, does_listTransactions]
  exact fun _ => does_resetEach _

theorem does_resetRetryBatchAfter (afterMillis limit : Nat) :
    coordinator.Does (Dtm.resetRetryBatchAfter afterMillis limit) σ (fun _ _ => True) := by
  simp only [Dtm.resetRetryBatchAfter, Discipline.does_bind, does_listTransactions,
    does_currentMillis, Discipline.does_pure]
  exact fun _ _ => does_resetEach _

/-! ### Recovery -/

theorem does_expire (tx : Transaction) :
    coordinator.Does (dtm.expire tx) σ (fun _ _ => True) := by
  rw [Dtm.expire]
  split
  · exact does_cancelTcc _
  · exact does_abortSaga _
  · split
    · exact does_expireCallbackWorkflow tx
    · exact does_abortWorkflow _
  · split
    · exact does_dispatchMessage _
    · exact does_abortMessage _
  · split
    · exact does_commitXa _
    · exact does_rollbackXa _

theorem does_resume {gid : String} {kind : TransactionKind} {status : TransactionStatus}
    {act : Act Transaction} (h : dtm.resume gid kind status = some act) :
    coordinator.Does act σ (fun _ _ => True) := by
  rw [Dtm.resume.eq_def] at h
  split at h <;> simp only [Option.some.injEq, reduceCtorEq] at h <;> subst h
  · exact does_prepareTcc _
  · exact does_prepareTcc _
  · exact does_confirmTcc _
  · exact does_cancelTcc _
  · exact does_startSaga _
  · exact does_startSaga _
  · exact does_abortSaga _
  · exact does_startWorkflow _
  · exact does_startWorkflow _
  · exact does_abortWorkflow _
  · exact does_prepareMessage _
  · exact does_dispatchMessage _
  · exact does_prepareXa _
  · exact does_commitXa _
  · exact does_rollbackXa _

theorem does_recoverMove (gid : String) (kind : TransactionKind) (status : TransactionStatus) :
    coordinator.Does (dtm.recoverMove gid kind status) σ (fun _ _ => True) := by
  rw [Dtm.recoverMove.eq_def]
  split
  · exact does_confirmTcc _
  · exact does_dispatchMessage _
  · exact does_commitXa _
  · cases h : dtm.resume gid kind status with
    | none => exact Discipline.does_throw
    | some act => exact does_resume h

theorem does_recoverNow (gid : String) (tx : Transaction) :
    coordinator.Does (dtm.recoverNow gid tx) σ (fun _ _ => True) := by
  simp only [Dtm.recoverNow, Discipline.does_bind, does_currentMillis]
  intro now
  split
  · exact does_expire tx
  · split
    · split
      · exact does_prepareWorkflow gid
      · exact does_recoverCallbackWorkflow gid
      · exact Discipline.does_throw
    · exact does_recoverMove ..

theorem does_recover (gid : String) :
    coordinator.Does (dtm.recover gid) σ (fun _ _ => True) := by
  simp only [Dtm.recover_eq, Discipline.does_bind, does_loadTransaction]
  intro tx
  split
  · exact Discipline.does_pure.mpr trivial
  · split
    · simp only [Discipline.does_bind, does_currentMillis]
      intro now
      split
      · exact Discipline.does_pure.mpr trivial
      · exact does_recoverNow ..
    · exact does_recoverNow ..

theorem does_tickMove {now : Nat} {tx : Transaction} {act : Act Transaction}
    (h : dtm.tickMove now tx = some act) : coordinator.Does act σ (fun _ _ => True) := by
  rw [Dtm.tickMove] at h
  split at h
  · cases h
  split at h
  · cases h
  split at h
  · cases h
    exact does_expire tx
  split at h
  · split at h
    · cases h
      exact does_prepareWorkflow _
    · split at h
      · cases h
        exact does_recoverCallbackWorkflow _
      · cases h
    · cases h
  · split at h
    · cases h
    · exact does_resume h

theorem does_tickLoop (now : Nat) (txs : List Transaction) :
    coordinator.Does (dtm.tickLoop now txs) σ (fun _ _ => True) := by
  induction txs generalizing σ with
  | nil => exact Discipline.does_pure.mpr trivial
  | cons tx rest ih =>
    rw [Dtm.tickLoop]
    split
    · exact ih
    · rename_i act h
      simp only [Discipline.does_bind, Discipline.does_pure]
      exact (does_tickMove h).mono fun _ _ _ => ih.mono fun _ _ _ => trivial

theorem does_tickRecoverOnce : coordinator.Does dtm.tickRecoverOnce σ (fun _ _ => True) := by
  simp only [Dtm.tickRecoverOnce, Discipline.does_bind, does_currentMillis, does_listTransactions]
  exact fun now listed => does_tickLoop now listed

theorem does_tickRecoverOnceWithLease (owner : String) (ttlMillis : Nat) :
    coordinator.Does (dtm.tickRecoverOnceWithLease owner ttlMillis) σ (fun _ _ => True) := by
  simp only [Dtm.tickRecoverOnceWithLease, Discipline.does_bind, does_acquireRecoveryLease]
  intro fence
  split
  · exact Discipline.does_pure.mpr trivial
  · exact does_tickRecoverOnce

end Operations

/-! ### The table of operations -/

theorem does_one {σ : Session} {act : Act Transaction}
    (h : coordinator.Does act σ (fun _ _ => True)) :
    coordinator.Does (Operation.act.one act) σ (fun _ _ => True) :=
  Discipline.does_bind.mpr (h.mono fun _ _ _ => Discipline.does_pure.mpr trivial)

/-- **Every operation that registers nothing keeps the discipline**, from any session. -/
theorem does_act {dtm : Dtm} {op : Operation} (hop : op.registers = false) (σ : Session) :
    coordinator.Does (op.act dtm) σ (fun _ _ => True) := by
  cases op with
  | submit tx => cases hop
  | registerBranch gid branch => cases hop
  | recordWorkflowProgress gid progress => cases hop
  | finishCallbackWorkflow gid status reason result =>
    refine does_one ?_
    simp [finishCallbackWorkflow]
  | recoverCallbackWorkflow gid => exact does_one (does_recoverCallbackWorkflow gid)
  | scheduleSubmit gid => exact does_one (does_scheduleSubmit gid)
  | scheduleAbort gid => exact does_one (does_scheduleAbort gid)
  | startSaga gid => exact does_one (does_startSaga gid)
  | abortSaga gid => exact does_one (does_abortSaga gid)
  | prepareTcc gid => exact does_one (does_prepareTcc gid)
  | confirmTcc gid => exact does_one (does_confirmTcc gid)
  | cancelTcc gid => exact does_one (does_cancelTcc gid)
  | prepareMessage gid => exact does_one (does_prepareMessage gid)
  | dispatchMessage gid => exact does_one (does_dispatchMessage gid)
  | abortMessage gid => exact does_one (does_abortMessage gid)
  | prepareWorkflow gid => exact does_one (does_prepareWorkflow gid)
  | startWorkflow gid => exact does_one (does_startWorkflow gid)
  | abortWorkflow gid => exact does_one (does_abortWorkflow gid)
  | prepareXa gid => exact does_one (does_prepareXa gid)
  | commitXa gid => exact does_one (does_commitXa gid)
  | rollbackXa gid => exact does_one (does_rollbackXa gid)
  | forceStop gid => exact does_one (does_forceStop gid)
  | resetRetry gid => exact does_one (does_resetRetry gid)
  | resetRetryBatch limit => exact does_resetRetryBatch limit
  | resetRetryBatchAfter afterMillis limit =>
    exact Discipline.does_bind.mpr ((does_resetRetryBatchAfter afterMillis limit).mono
      fun _ _ _ => Discipline.does_pure.mpr trivial)
  | recover gid => exact does_one (does_recover gid)
  | tickRecoverOnce => exact does_tickRecoverOnce
  | tickRecoverOnceWithLease owner ttlMillis => exact does_tickRecoverOnceWithLease owner ttlMillis

theorem follows_prog {dtm : Dtm} {op : Operation} (hop : op.registers = false) (σ : Session) :
    coordinator.Follows (op.prog dtm) σ (fun _ _ => True) := (does_act hop σ).follows

/-! ### Registrations -/

/-- The discipline of all operations: that of the others, and the three registrations
at any time. -/
def registering : Discipline effects Session where
  pre := fun σ o => match o with
    | .insertTransaction _ | .registerBranch _ _ | .recordWorkflowProgress _ _ => True
    | o => coordinator.pre σ o
  sees := coordinator.sees
  next := coordinator.next

theorem coordinator_le_registering : Discipline.Le coordinator registering where
  pre := fun {_ o} h => by cases o <;> first | exact h | exact trivial
  sees := id
  next := rfl

theorem does_expandBranches {dtm : Dtm} (branches : List Branch) (σ : Session) :
    coordinator.Does (dtm.expandBranches branches) σ (fun _ _ => True) := by
  induction branches generalizing σ with
  | nil => exact Discipline.does_pure.mpr trivial
  | cons branch rest ih =>
    rw [Dtm.expandBranches]
    split
    · simp only [Discipline.does_bind, does_ofOption, does_ofExcept, Discipline.does_pure,
        Dtm.getTopic]
      intro _ _
      refine does_call.mpr ⟨trivial, fun r _ => ?_⟩
      cases r with
      | none =>
        simp only [Discipline.does_pure, reduceCtorEq, false_implies, implies_true]
      | some entry =>
        simp only [Discipline.does_bind, does_ofExcept, Discipline.does_pure]
        exact fun _ _ _ _ _ _ => (ih _).mono fun _ _ _ => trivial
    · simp only [Discipline.does_bind, Discipline.does_pure]
      exact (ih σ).mono fun _ _ _ => trivial

theorem does_expandMessageTopics {dtm : Dtm} (tx : Transaction) (σ : Session) :
    coordinator.Does (dtm.expandMessageTopics tx) σ (fun _ _ => True) := by
  simp only [Dtm.expandMessageTopics, Discipline.does_bind, does_ofExcept, Discipline.does_pure]
  exact (does_expandBranches _ σ).mono fun _ _ _ _ _ => trivial

theorem does_submit {dtm : Dtm} (tx : Transaction) (σ : Session) :
    registering.Does (dtm.submit tx) σ (fun _ _ => True) := by
  -- the last step, and the only one that the other operations do not take
  have insert (tx : Transaction) {σ : Session} : registering.Does (do
      Store.insertTransaction tx
      return tx) σ (fun _ _ => True) :=
    Discipline.does_bind.mpr ⟨trivial, fun _ _ _ _ => Discipline.does_pure.mpr trivial⟩
  simp only [Dtm.submit, Discipline.does_bind, does_ofExcept]
  intro _ _ _ _ _ _
  split
  · rw [Discipline.does_bind]
    refine Discipline.Does.mono ((does_expandMessageTopics _ σ).le coordinator_le_registering)
      fun σ tx' _ => insert _
  · rw [Discipline.does_bind, Discipline.does_pure]
    exact insert _

/-- **Every operation keeps the discipline with registrations.** -/
theorem follows_prog_registering (dtm : Dtm) (op : Operation) (σ : Session) :
    registering.Follows (op.prog dtm) σ (fun _ _ => True) := by
  -- an operation of one step, which is permitted
  have single {act : Act Transaction} (h : registering.Does act σ (fun _ _ => True)) :
      registering.Follows (Operation.act.one act).run σ (fun _ _ => True) := by
    have h' : registering.Does (Operation.act.one act) σ (fun _ _ => True) :=
      Discipline.does_bind.mpr (h.mono fun _ _ _ => Discipline.does_pure.mpr trivial)
    exact h'.follows
  cases hop : op.registers with
  | false => exact (follows_prog hop σ).le coordinator_le_registering
  | true =>
    cases op with
    | submit tx => exact single (does_submit tx σ)
    | registerBranch gid branch => exact single ⟨trivial, fun _ _ _ _ => trivial⟩
    | recordWorkflowProgress gid progress => exact single ⟨trivial, fun _ _ _ _ => trivial⟩
    | _ => cases hop

end RozeDtm
