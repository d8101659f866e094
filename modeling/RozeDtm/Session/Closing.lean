import RozeDtm.Session.Table

/-!
# Operations that leave no transaction open

A transaction is open until its second phase begins: it is Submitted, Trying or Prepared.  Only
what prepares a transaction, schedules a Workflow or resets its retry times writes a record that
is open.  The other operations write none, so they are in every class of programs that is closed
under putting programs together and has these steps in it (`Act.Closing`).
-/

namespace RozeDtm

open Conc

/-- The statuses before the second phase. -/
def TransactionStatus.isOpen : TransactionStatus → Bool
  | .submitted | .trying | .prepared => true
  | _ => false

/-- A class of programs that is closed under putting them together, with the steps in it of the
operations that leave no transaction open. -/
structure Act.Closing (P : {α : Type} → Act α → Prop) : Prop
    extends PermitsBatches (fun _ => True) P where
  load : ∀ gid, P (loadTransaction gid)
  persist : ∀ tx : Transaction, tx.status.isOpen = false → P (persistTransaction tx)

namespace Act.Closing

variable {P : {α : Type} → Act α → Prop} {α : Type} {dtm : Dtm} {tx : Transaction} {gid : String}
  {passed ahead : List Branch} (h : Act.Closing P)

include h

/-- A write, and what comes after it. -/
theorem persistThen {f : Transaction → Act α} (htx : tx.status.isOpen = false) (hf : P (f tx.written)) :
    P (persistTransaction tx >>= f) := by
  refine h.bind_whatever (h.persist tx htx) (anyReply_persistTransaction rfl) fun a ha => ?_
  rw [← ha]
  exact hf

theorem transactionOfKind (kind : TransactionKind) : P (transactionOfKind gid kind) :=
  h.bind (h.load gid) fun _ => h.bind (h.ofExcept _) fun _ => h.pure _

/-! ### The loops -/

theorem phase2Loop {op : String} {url : Branch → Except Err String} {onOk : BranchStatus}
    {final : TransactionStatus} (hst : tx.status.isOpen = false) (hfinal : final.isOpen = false) :
    P (dtm.phase2Loop op url onOk final tx passed ahead) := by
  induction ahead generalizing passed with
  | nil => exact h.persist _ hfinal
  | cons branch ahead ih =>
    rw [Dtm.phase2Loop]
    refine h.bind (h.barrier _ trivial) fun d => ?_
    split
    · refine h.bind (h.ofExcept _) fun target => h.bind (h.invokeBranch trivial) fun called => ?_
      dsimp only
      split
      · exact ih
      · exact h.bind (h.releaseBarrier _ trivial) fun _ => h.persist _ hst
    · exact ih

theorem cancelTccLoop (hst : tx.status.isOpen = false) : P (dtm.cancelTccLoop tx passed ahead) := by
  induction ahead generalizing passed with
  | nil => exact h.persist _ rfl
  | cons branch ahead ih =>
    rw [Dtm.cancelTccLoop]
    refine h.bind (h.barrier _ trivial) fun d => ?_
    split
    · refine h.bind (h.ofExcept _) fun target => h.bind (h.invokeBranch trivial) fun called => ?_
      dsimp only
      split
      · exact ih
      · exact h.bind (h.releaseBarrier _ trivial) fun _ => h.persist _ hst
    · cases d with
      | execute => exact h.throw _
      | skipDuplicate => exact ih
      | skipNullCompensation => exact ih
      | skipCancelledTry => exact h.throw _

theorem dispatchMessageLoop (hst : tx.status.isOpen = false) :
    P (dtm.dispatchMessageLoop tx passed ahead) := by
  induction ahead generalizing passed with
  | nil => exact h.persist _ rfl
  | cons branch ahead ih =>
    rw [Dtm.dispatchMessageLoop]
    split
    · exact ih
    refine h.bind (h.barrier _ trivial) fun d => ?_
    split
    · refine h.bind (h.invokeBranch trivial) fun called => ?_
      dsimp only
      split
      · exact ih
      · exact h.bind (h.releaseBarrier _ trivial) fun _ => h.persist _ hst
    · exact ih

theorem abortSagaLoop (hst : tx.status.isOpen = false) : P (dtm.abortSagaLoop tx ahead passed) := by
  induction ahead generalizing passed with
  | nil => exact h.persist _ rfl
  | cons branch ahead ih =>
    rw [Dtm.abortSagaLoop]
    split
    · exact ih
    split
    · exact ih
    refine h.bind (h.barrier _ trivial) fun d => ?_
    split
    · split
      · refine h.bind (h.invokeBranch trivial) fun called => ?_
        dsimp only
        split
        · exact ih
        · exact h.bind (h.releaseBarrier _ trivial) fun _ => h.persist _ hst
      · exact ih
    · exact h.persist _ hst
    · exact h.throw _
    · exact h.throw _

theorem abortWorkflowLoop (hst : tx.status.isOpen = false) :
    P (dtm.abortWorkflowLoop tx ahead passed) := by
  induction ahead generalizing passed with
  | nil => exact h.persist _ rfl
  | cons branch ahead ih =>
    rw [Dtm.abortWorkflowLoop]
    split
    · exact ih
    refine h.bind (h.barrier _ trivial) fun d => ?_
    split
    · refine h.bind (h.ofOption _ _) fun compensate => h.bind (h.invokeBranch trivial) fun called => ?_
      dsimp only
      split
      · exact ih
      · exact h.bind (h.releaseBarrier _ trivial) fun _ => h.persist _ hst
    · exact ih

/-! ### The loops over batches -/

/-- A batch leaves the status as it is. -/
theorem runBatchThen {options : TransactionOptions} {onOk onErr : BranchStatus}
    {tasks : List BatchTask} {f : Transaction × List Branch → Act α}
    (hf : ∀ bs failed, P (f ({ tx with branches := bs }, failed))) :
    P (dtm.runBatch options onOk onErr tasks tx >>= f) := by
  refine h.bind_whatever (h.runBatch fun _ _ => trivial) anyReply_joinBatch_same fun a ha => ?_
  obtain ⟨bs, hbs⟩ := ha
  obtain ⟨tx', failed⟩ := a
  cases hbs
  exact hf bs failed

theorem abortConcurrentSagaLoop {fuel : Nat} (hst : tx.status.isOpen = false) :
    P (dtm.abortConcurrentSagaLoop fuel tx) := by
  induction fuel generalizing tx with
  | zero => exact h.pure _
  | succ fuel ih =>
    rw [Dtm.abortConcurrentSagaLoop]
    split
    · exact h.persist _ rfl
    dsimp only
    split
    · exact h.throw _
    refine h.bind (h.claimBatch (fun _ _ => trivial) fun _ _ => trivial) fun ok => ?_
    split
    · refine h.persistThen hst ?_
      generalize Dtm.compensationTasks _ _ = tasks
      obtain ⟨tasks, missing⟩ := tasks
      cases missing with
      | some error => exact h.bind (h.abandonBatch fun _ _ => trivial) fun _ => h.throw _
      | none =>
        refine h.runBatchThen fun bs failed => h.persistThen hst ?_
        split
        · exact ih hst
        · exact h.pure _
    · exact h.load _

theorem abortConcurrentSaga (tx : Transaction) : P (dtm.abortConcurrentSaga tx) :=
  h.bind (h.ofExcept _) fun _ => h.persistThen rfl (h.abortConcurrentSagaLoop rfl)

theorem startConcurrentSagaLoop {fuel : Nat} (hst : tx.status.isOpen = false) :
    P (dtm.startConcurrentSagaLoop fuel tx) := by
  induction fuel generalizing tx with
  | zero => exact h.pure _
  | succ fuel ih =>
    rw [Dtm.startConcurrentSagaLoop]
    split
    · exact h.persist _ rfl
    dsimp only
    split
    · exact h.pure _
    refine h.bind (h.claimBatch (fun _ _ => trivial) fun _ _ => trivial) fun ok => ?_
    split
    · refine h.persistThen hst (h.runBatchThen fun bs failed => ?_)
      dsimp only
      split
      · exact h.persistThen rfl (h.abortConcurrentSaga _)
      · refine h.persistThen hst ?_
        split
        · exact ih hst
        · exact h.pure _
    · exact h.load _

theorem dispatchMessageConcurrent (hst : tx.status.isOpen = false) :
    P (dtm.dispatchMessageConcurrent tx) := by
  unfold Dtm.dispatchMessageConcurrent
  dsimp only
  split
  · exact h.persist _ rfl
  refine h.bind (h.claimBatch (fun _ _ => trivial) fun _ _ => trivial) fun ok => ?_
  split
  · refine h.persistThen hst (h.runBatchThen fun bs failed => h.persist _ ?_)
    show (if failed.isEmpty = true then TransactionStatus.succeeded else .succeeding).isOpen = false
    split <;> rfl
  · exact h.load _

/-! ### The operations -/

theorem confirmTcc (gid : String) : P (dtm.confirmTcc gid) := by
  refine h.bind (h.load gid) fun tx => h.bind (h.ofExcept _) fun _ => ?_
  split
  · exact h.pure _
  · exact h.bind (h.ofExcept _) fun _ => h.phase2Loop rfl rfl

theorem cancelTcc (gid : String) : P (dtm.cancelTcc gid) := by
  refine h.bind (h.load gid) fun tx => h.bind (h.ofExcept _) fun _ => ?_
  split
  · exact h.pure _
  · exact h.bind (h.ofExcept _) fun _ => h.cancelTccLoop rfl

theorem commitXa (gid : String) : P (dtm.commitXa gid) := by
  refine h.bind (h.transactionOfKind .xa) fun tx => ?_
  split
  · exact h.pure _
  · exact h.bind (h.ofExcept _) fun _ => h.phase2Loop rfl rfl

theorem rollbackXa (gid : String) : P (dtm.rollbackXa gid) := by
  refine h.bind (h.transactionOfKind .xa) fun tx => ?_
  split
  · exact h.pure _
  · exact h.bind (h.ofExcept _) fun _ => h.phase2Loop rfl rfl

theorem abortMessage (gid : String) : P (Dtm.abortMessage gid) := by
  refine h.bind (h.transactionOfKind .message) fun tx => ?_
  split
  · exact h.pure _
  · exact h.bind (h.ofExcept _) fun _ => h.persist _ rfl

theorem dispatchMessage (gid : String) : P (dtm.dispatchMessage gid) := by
  refine h.bind (h.transactionOfKind .message) fun tx => ?_
  split
  · exact h.pure _
  refine h.bind (h.ofExcept _) fun _ => ?_
  have hrest {tx' : Transaction} (hst : tx'.status.isOpen = false) : P (do
      let now ← currentMillis
      if !messageDispatchDue tx' now then Pure.pure tx'
      else if tx'.options.concurrent then dtm.dispatchMessageConcurrent tx'
      else dtm.dispatchMessageLoop tx' [] tx'.branches) := by
    refine h.bind h.clock fun now => ?_
    split
    · exact h.pure _
    split
    · exact h.dispatchMessageConcurrent hst
    · exact h.dispatchMessageLoop hst
  split
  · exact h.persistThen rfl (hrest rfl)
  · rename_i hst
    refine h.bind_whatever (h.pure tx) (Discipline.does_pure.mpr rfl) fun a ha => ?_
    subst ha
    exact hrest (by rw [not_not.mp hst]; rfl)

theorem abortSaga (gid : String) : P (dtm.abortSaga gid) := by
  refine h.bind (h.load gid) fun tx => h.bind (h.ofExcept _) fun _ => ?_
  split
  · exact h.pure _
  refine h.bind (h.ofExcept _) fun _ => ?_
  split
  · exact h.abortConcurrentSaga tx
  · exact h.abortSagaLoop rfl

theorem startSagaLoop (hst : tx.status.isOpen = false) :
    P (dtm.startSagaLoop gid tx passed ahead) := by
  induction ahead generalizing tx passed with
  | nil => exact h.persist _ rfl
  | cons branch ahead ih =>
    rw [Dtm.startSagaLoop]
    split
    · exact ih hst
    refine h.bind (h.barrier _ trivial) fun d => ?_
    split
    · exact h.load _
    refine h.bind (h.invokeBranch trivial) fun called => ?_
    dsimp only
    split
    · exact h.persistThen hst (ih hst)
    split
    · exact h.bind (h.releaseBarrier _ trivial) fun _ => h.persist _ hst
    · exact h.persistThen rfl (h.abortSaga gid)

theorem startSaga (gid : String) : P (dtm.startSaga gid) := by
  refine h.bind (h.load gid) fun tx => h.bind (h.ofExcept _) fun _ => ?_
  split
  · exact h.pure _
  refine h.bind (h.ofExcept _) fun _ => ?_
  split
  · exact h.bind (h.ofExcept _) fun _ => h.persistThen rfl (h.startConcurrentSagaLoop rfl)
  · exact h.persistThen rfl (h.startSagaLoop rfl)

theorem abortWorkflow (gid : String) : P (dtm.abortWorkflow gid) := by
  refine h.bind (h.transactionOfKind .workflow) fun tx => ?_
  split
  · exact h.pure _
  · exact h.bind (h.ofExcept _) fun _ => h.abortWorkflowLoop rfl

theorem startWorkflowLoop {fuel : Nat} (hst : tx.status.isOpen = false) :
    P (dtm.startWorkflowLoop gid fuel tx) := by
  induction fuel generalizing tx with
  | zero => exact h.pure _
  | succ fuel ih =>
    rw [Dtm.startWorkflowLoop]
    split
    · split
      · exact h.persist _ rfl
      · exact h.throw _
    refine h.bind (h.barrier _ trivial) fun d => ?_
    split
    · exact h.load _
    refine h.bind (h.invokeBranch trivial) fun called => ?_
    dsimp only
    split
    · exact h.persistThen hst (ih hst)
    · exact h.bind (h.releaseBarrier _ trivial) fun _ => h.persistThen rfl (h.abortWorkflow gid)

theorem startWorkflow (gid : String) : P (dtm.startWorkflow gid) := by
  refine h.bind (h.transactionOfKind .workflow) fun tx => ?_
  split
  · exact h.pure _
  · exact h.bind (h.ofExcept _) fun _ => h.bind (h.ofExcept _) fun _ => h.startWorkflowLoop rfl

theorem scheduleAbort (gid : String) : P (Dtm.scheduleAbort gid) := by
  refine h.bind (h.load gid) fun tx => ?_
  split
  · exact h.pure _
  split
  · exact h.abortMessage gid
  · exact h.bind (h.ofExcept _) fun _ => h.persist _ rfl

theorem forceStop (gid : String) : P (Dtm.forceStop gid) :=
  h.bind (h.load gid) fun _ => h.bind (h.ofExcept _) fun _ => h.persist _ rfl

end Act.Closing

end RozeDtm
