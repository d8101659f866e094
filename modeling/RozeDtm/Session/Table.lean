import RozeDtm.Model.Coordinator.Recover
import RozeDtm.Session.Rules

/-!
# From the operations on one transaction to all operations

Recovery, the batches and the recovery tick do nothing but read the clock and the list of
records and run operations on single transactions.  So a class of programs that is closed under
putting programs together and that these are in (`Dtm.Walks`) has every operation in it.
-/

namespace RozeDtm

open Conc

/-- A class of programs that is closed under putting them together. -/
structure Act.Closed (P : {α : Type} → Act α → Prop) : Prop where
  pure : ∀ {α : Type} (a : α), P (Pure.pure a : Act α)
  throw : ∀ {α : Type} (e : Err), P (throw e : Act α)
  bind : ∀ {α β : Type} {x : Act α} {f : α → Act β}, P x → (∀ a, P (f a)) → P (x >>= f)

/-- The programs that keep to a discipline from every session. -/
theorem closed_always {T : Type} (D : Discipline effects T) : Act.Closed fun x => D.Always x where
  pure := Discipline.always_pure
  throw := Discipline.always_throw
  bind := Discipline.Always.bind

/-- An operation registers no branch but those in `R`. -/
def Operation.RegistersIn (R : String → Branch → Prop) : Operation → Prop
  | .registerBranch gid branch => R gid branch
  | _ => True

/-- The programs that the operations of the coordinator are made of are in the class `P`; the
branches in `R` may be registered. -/
structure Dtm.Walks (dtm : Dtm) (R : String → Branch → Prop) (P : {α : Type} → Act α → Prop) :
    Prop extends Act.Closed P where
  load : ∀ gid, P (loadTransaction gid)
  clock : P currentMillis
  list : P Store.listTransactions
  lease : ∀ name owner ttl, P (Store.acquireRecoveryLease name owner ttl)
  insert : ∀ tx, P (Store.insertTransaction tx)
  register : ∀ gid branch, R gid branch → P (Store.registerBranch gid branch)
  progress : ∀ gid progress, P (Store.recordWorkflowProgress gid progress)
  kv : ∀ category key, P (Store.getKv category key)
  finish : ∀ gid status reason result, P (Store.finishWorkflow gid status reason result)
  defer : ∀ gid delay, P (Store.deferWorkflowRecovery gid delay)
  query : ∀ request options, P (queryWorkflowCallback request options)
  scheduleSubmit : ∀ gid, P (Dtm.scheduleSubmit gid)
  scheduleAbort : ∀ gid, P (Dtm.scheduleAbort gid)
  forceStop : ∀ gid, P (Dtm.forceStop gid)
  resetRetry : ∀ gid, P (Dtm.resetRetry gid)
  startSaga : ∀ gid, P (dtm.startSaga gid)
  abortSaga : ∀ gid, P (dtm.abortSaga gid)
  prepareTcc : ∀ gid, P (dtm.prepareTcc gid)
  confirmTcc : ∀ gid, P (dtm.confirmTcc gid)
  cancelTcc : ∀ gid, P (dtm.cancelTcc gid)
  prepareMessage : ∀ gid, P (Dtm.prepareMessage gid)
  dispatchMessage : ∀ gid, P (dtm.dispatchMessage gid)
  abortMessage : ∀ gid, P (Dtm.abortMessage gid)
  prepareWorkflow : ∀ gid, P (Dtm.prepareWorkflow gid)
  startWorkflow : ∀ gid, P (dtm.startWorkflow gid)
  abortWorkflow : ∀ gid, P (dtm.abortWorkflow gid)
  prepareXa : ∀ gid, P (Dtm.prepareXa gid)
  commitXa : ∀ gid, P (dtm.commitXa gid)
  rollbackXa : ∀ gid, P (dtm.rollbackXa gid)

namespace Act.Closed

variable {P : {α : Type} → Act α → Prop} {α : Type} (h : Act.Closed P)

include h

theorem ofExcept (e : Except Err α) : P (Act.ofExcept e) := by
  cases e with
  | ok a => exact h.pure a
  | error e => exact h.throw e

theorem ofOption (o : Option α) (e : Err) : P (Act.ofOption o e) := h.ofExcept _

/-- What comes next has only to be shown for what a program may return. -/
theorem bind_whatever {β : Type} {x : Act α} {f : α → Act β} {R : α → Prop} (hx : P x)
    (hR : anyReply.Does x () fun _ a => R a) (hf : ∀ a, R a → P (f a)) : P (x >>= f) := by
  classical
  have heq : x >>= f = x >>= fun a => if R a then f a else MonadExcept.throw "" :=
    Discipline.bind_congr (hR.mono fun _ a ha => (if_pos ha).symm)
  rw [heq]
  refine h.bind hx fun a => ?_
  split
  · rename_i ha
    exact hf a ha
  · exact h.throw _

end Act.Closed

/-! ### The batches of concurrent calls -/

/-- A batch leaves the record as it is but for its branches. -/
theorem anyReply_joinBatch_same {dtm : Dtm} {options : TransactionOptions}
    {onOk onErr : BranchStatus} {fuel : Nat} {tasks : List (BatchTask × TaskStage)}
    {tx : Transaction} {failed : List Branch} :
    anyReply.Does (dtm.joinBatch options onOk onErr fuel tasks tx failed) ()
      (fun _ r => ∃ bs, r.1 = { tx with branches := bs }) := by
  induction fuel generalizing tasks tx failed with
  | zero => exact Discipline.does_pure.mpr ⟨tx.branches, rfl⟩
  | succ fuel ih =>
    cases tasks with
    | nil => exact Discipline.does_pure.mpr ⟨tx.branches, rfl⟩
    | cons t ts =>
      refine Discipline.does_bind.mpr (anyReply_call.mpr fun k => ?_)
      split
      · split
        · exact @ih _ { tx with branches := _ } _
        · exact Discipline.does_bind.mpr (anyReply_call.mpr fun _ =>
            @ih _ { tx with branches := _ } _)
      · exact Discipline.does_bind.mpr (anyReply_does fun _ => ih)

/-- The steps of a batch of calls under barriers in `C` are in the class `P`. -/
structure PermitsBatches (C : BranchBarrier → Prop) (P : {α : Type} → Act α → Prop) : Prop
    extends Act.Closed P where
  clock : P currentMillis
  joinNext : ∀ n, P (joinNext n)
  invokeBegin : ∀ c, C c.barrier → P (invokeBegin c)
  invokeEnd : ∀ c, C c.barrier → P (invokeEnd c)
  barrier : ∀ b, C b → P (Store.barrier b)
  releaseBarrier : ∀ b, C b → P (Store.releaseBarrier b)

namespace PermitsBatches

variable {dtm : Dtm} {C : BranchBarrier → Prop} {P : {α : Type} → Act α → Prop}
  {options : TransactionOptions} {onOk onErr : BranchStatus} (h : PermitsBatches C P)

include h

theorem releaseAll {bs : List BranchBarrier} (hC : ∀ b ∈ bs, C b) : P (claimBatch.releaseAll bs) := by
  induction bs with
  | nil => exact h.pure _
  | cons b rest ih =>
    obtain ⟨hb, hrest⟩ := List.forall_mem_cons.mp hC
    exact h.bind (h.releaseBarrier b hb) fun _ => ih hrest

theorem claimBatch {gid op : String} {claimed : List BranchBarrier} {ids : List String}
    (hclaimed : ∀ b ∈ claimed, C b) (hC : ∀ id ∈ ids, C ⟨gid, id, op⟩) :
    P (claimBatch gid op claimed ids) := by
  induction ids generalizing claimed with
  | nil => exact h.pure _
  | cons id ids ih =>
    obtain ⟨hid, hids⟩ := List.forall_mem_cons.mp hC
    refine h.bind (h.barrier _ hid) fun d => ?_
    split
    · exact h.bind (h.releaseAll hclaimed) fun _ => h.pure _
    · refine ih (fun b hb => ?_) hids
      rcases List.mem_append.mp hb with hb | hb
      · exact hclaimed b hb
      · rw [List.mem_singleton.mp hb]
        exact hid

theorem invokeBranch {gid : String} {branch : Branch} {url op : String}
    (hC : C ⟨gid, branch.id, op⟩) : P (dtm.invokeBranch options gid branch url op) := by
  refine h.bind (h.invokeBegin _ hC) fun _ => h.bind (h.invokeEnd _ hC) fun ok => ?_
  split
  · exact h.pure _
  · exact h.bind h.clock fun _ => h.pure _

theorem advanceTask {task : BatchTask} {stage : TaskStage} (hC : C task.call.barrier) :
    P (dtm.advanceTask options onOk onErr task stage) := by
  cases stage with
  | spawned => exact h.bind (h.invokeBegin _ hC) fun _ => h.pure _
  | calling =>
    refine h.bind (h.invokeEnd _ hC) fun ok => ?_
    have hsettle : P (dtm.settleTask options onOk onErr task.branch ok) := by
      unfold Dtm.settleTask
      split
      · exact h.pure _
      · exact h.bind h.clock fun _ => h.pure _
    exact h.bind hsettle fun _ => h.pure _
  | returned branch ok => exact h.pure _

theorem joinBatch {fuel : Nat} {tasks : List (BatchTask × TaskStage)} {tx : Transaction}
    {failed : List Branch} (hC : ∀ t ∈ tasks, C t.1.call.barrier) :
    P (dtm.joinBatch options onOk onErr fuel tasks tx failed) := by
  induction fuel generalizing tasks tx failed with
  | zero => exact h.pure _
  | succ fuel ih =>
    cases tasks with
    | nil => exact h.pure _
    | cons t ts =>
      refine h.bind (h.joinNext _) fun k => ?_
      have hk : C ((t :: ts).get k).1.call.barrier := hC _ (List.get_mem _ _)
      have herase : ∀ t' ∈ (t :: ts).eraseIdx k, C t'.1.call.barrier :=
        fun t' ht' => hC t' (List.mem_of_mem_eraseIdx ht')
      generalize (t :: ts).get k = event at hk
      obtain ⟨task, stage⟩ := event
      have hset (stage' : TaskStage) : ∀ t' ∈ (t :: ts).set k (task, stage'),
          C t'.1.call.barrier := by
        intro t' ht'
        rcases List.mem_or_eq_of_mem_set ht' with ht' | rfl
        · exact hC t' ht'
        · exact hk
      cases stage with
      | spawned | calling => exact h.bind (h.advanceTask hk) fun _ => ih (hset _)
      | returned branch succeeded =>
        dsimp only
        split
        · exact ih herase
        · exact h.bind (h.releaseBarrier _ hk) fun _ => ih herase

theorem runBatch {tasks : List BatchTask} {tx : Transaction} (hC : ∀ t ∈ tasks, C t.call.barrier) :
    P (dtm.runBatch options onOk onErr tasks tx) := by
  refine h.joinBatch fun t ht => ?_
  obtain ⟨task, htask, rfl⟩ := List.mem_map.mp ht
  exact hC task htask

theorem abandonBatch {fuel : Nat} {tasks : List (BatchTask × TaskStage)}
    (hC : ∀ t ∈ tasks, C t.1.call.barrier) :
    P (dtm.abandonBatch options onOk onErr fuel tasks) := by
  induction fuel generalizing tasks with
  | zero => exact h.pure _
  | succ fuel ih =>
    refine h.bind (h.joinNext _) fun k => ?_
    split
    · exact h.pure _
    · rename_i task stage hk
      have htask : C task.call.barrier := hC _ (List.mem_of_getElem? hk)
      refine h.bind (h.advanceTask htask) fun stage' => ih fun t ht => ?_
      rcases List.mem_or_eq_of_mem_set ht with ht | rfl
      · exact hC t ht
      · exact htask

end PermitsBatches

namespace Dtm.Walks

variable {dtm : Dtm} {R : String → Branch → Prop} {P : {α : Type} → Act α → Prop}
  {tx : Transaction} (h : dtm.Walks R P)

include h

/-! ### Submission -/

theorem expandBranches (branches : List Branch) : P (dtm.expandBranches branches) := by
  induction branches with
  | nil => exact h.pure _
  | cons branch rest ih =>
    have htopic (name : String) : P (dtm.getTopic name) := by
      refine h.bind (h.ofExcept _) fun _ => h.bind (h.kv _ _) fun entry => ?_
      split
      · exact h.pure _
      · exact h.bind (h.ofExcept _) fun _ => h.pure _
    have hrest (expanded : List Branch) : P (do
        return expanded ++ (← dtm.expandBranches rest)) :=
      h.bind ih fun _ => h.pure _
    rw [Dtm.expandBranches]
    split
    · generalize (branch.action.drop "topic://".length).toString = name
      refine h.bind (htopic name) fun topic => ?_
      refine h.bind (h.ofOption _ _) fun topic => ?_
      refine h.bind (h.ofExcept _) fun _ => ?_
      exact h.bind (h.pure _) hrest
    · exact h.bind (h.pure _) hrest

theorem submit (tx : Transaction) : P (dtm.submit tx) := by
  have hinsert (tx : Transaction) : P (do
      Store.insertTransaction tx
      return tx) := h.bind (h.insert tx) fun _ => h.pure tx
  unfold Dtm.submit
  refine h.bind (h.ofExcept _) fun _ => h.bind (h.ofExcept _) fun _ =>
    h.bind (h.ofExcept _) fun _ => ?_
  split
  · have hexpand : P (dtm.expandMessageTopics { tx with revision := 1 }) :=
      h.bind (h.expandBranches _) fun _ => h.bind (h.ofExcept _) fun _ => h.pure _
    exact h.bind hexpand fun _ => hinsert _
  · exact h.bind (h.pure _) fun _ => hinsert _

/-! ### Batches -/

theorem resetEach (gids : List String) : P (Dtm.resetEach gids) := by
  induction gids with
  | nil => exact h.pure _
  | cons gid rest ih =>
    exact h.bind (h.resetRetry gid) fun _ => h.bind ih fun _ => h.pure _

theorem resetRetryBatch (limit : Nat) : P (Dtm.resetRetryBatch limit) :=
  h.bind h.list fun _ => h.resetEach _

theorem resetRetryBatchAfter (afterMillis limit : Nat) :
    P (Dtm.resetRetryBatchAfter afterMillis limit) :=
  h.bind h.clock fun _ => h.bind h.list fun _ => h.bind (h.resetEach _) fun _ => h.pure _

/-! ### Recovery -/

theorem terminalAfterConflict (gid : String) (error : Err) :
    P (Dtm.terminalAfterConflict gid error) := by
  refine h.bind (h.load gid) fun latest => ?_
  split
  · exact h.pure _
  · exact h.throw _

theorem finishOrTerminal (gid : String) (reason : Option String) :
    P (Dtm.finishOrTerminal gid reason) := by
  refine h.bind (h.finish _ _ _ _) fun result => ?_
  split
  · exact h.pure _
  · exact h.terminalAfterConflict gid _

theorem deferCallbackWorkflow (tx : Transaction) (attemptedAtMillis : Nat) (backoff : Bool)
    (outcome : String) :
    P (dtm.deferCallbackWorkflow tx attemptedAtMillis backoff outcome) := by
  refine h.bind (h.defer _ _) fun result => ?_
  split
  · exact h.pure _
  · exact h.terminalAfterConflict tx.gid _

theorem recoverCallbackWorkflow (gid : String) : P (dtm.recoverCallbackWorkflow gid) := by
  have hload (gid : String) (kind : TransactionKind) : P (transactionOfKind gid kind) :=
    h.bind (h.load gid) fun _ => h.bind (h.ofExcept _) fun _ => h.pure _
  refine h.bind (hload gid .workflow) fun tx => ?_
  split
  · exact h.pure _
  refine h.bind (h.ofExcept _) fun _ => h.bind (h.ofExcept _) fun _ => h.bind h.clock fun now => ?_
  split
  · exact h.deferCallbackWorkflow _ _ _ _
  refine h.bind (h.query _ _) fun result => h.bind (h.load gid) fun latest => ?_
  split
  · exact h.pure _
  refine h.bind (h.ofExcept _) fun _ => h.bind (h.ofExcept _) fun _ => ?_
  split
  · exact h.finishOrTerminal _ _
  · exact h.deferCallbackWorkflow _ _ _ _
  · exact h.deferCallbackWorkflow _ _ _ _
  · exact h.deferCallbackWorkflow _ _ _ _

theorem expireCallbackWorkflow (tx : Transaction) : P (Dtm.expireCallbackWorkflow tx) := by
  have hrest (tx : Transaction) : P (do
      Act.ofExcept (ensureStatus tx [.prepared])
      Dtm.finishOrTerminal tx.gid (some "workflow callback timed out")) :=
    h.bind (h.ofExcept _) fun _ => h.finishOrTerminal _ _
  unfold Dtm.expireCallbackWorkflow
  split
  · exact h.bind (h.prepareWorkflow _) fun _ => hrest _
  · exact h.bind (h.pure _) fun _ => hrest _

theorem expire (tx : Transaction) : P (dtm.expire tx) := by
  unfold Dtm.expire
  split
  · exact h.cancelTcc _
  · exact h.abortSaga _
  · split
    · exact h.expireCallbackWorkflow _
    · exact h.abortWorkflow _
  · split
    · exact h.dispatchMessage _
    · exact h.abortMessage _
  · split
    · exact h.commitXa _
    · exact h.rollbackXa _

theorem resume {gid : String} {kind : TransactionKind} {status : TransactionStatus}
    {move : Act Transaction} (hmove : dtm.resume gid kind status = some move) :
    P move := by
  unfold Dtm.resume at hmove
  split at hmove <;> simp only [Option.some.injEq, reduceCtorEq] at hmove <;> subst hmove
  · exact h.prepareTcc gid
  · exact h.prepareTcc gid
  · exact h.confirmTcc gid
  · exact h.cancelTcc gid
  · exact h.startSaga gid
  · exact h.startSaga gid
  · exact h.abortSaga gid
  · exact h.startWorkflow gid
  · exact h.startWorkflow gid
  · exact h.abortWorkflow gid
  · exact h.prepareMessage gid
  · exact h.dispatchMessage gid
  · exact h.prepareXa gid
  · exact h.commitXa gid
  · exact h.rollbackXa gid

theorem recoverMove (gid : String) (kind : TransactionKind) (status : TransactionStatus) :
    P (dtm.recoverMove gid kind status) := by
  unfold Dtm.recoverMove
  split
  · exact h.confirmTcc gid
  · exact h.dispatchMessage gid
  · exact h.commitXa gid
  · cases hmove : dtm.resume gid kind status with
    | none => exact h.throw _
    | some move => exact h.resume hmove

theorem recoverNow (gid : String) (tx : Transaction) : P (dtm.recoverNow gid tx) := by
  refine h.bind h.clock fun now => ?_
  split
  · exact h.expire tx
  · split
    · split
      · exact h.prepareWorkflow gid
      · exact h.recoverCallbackWorkflow gid
      · exact h.throw _
    · exact h.recoverMove _ _ _

theorem recover (gid : String) : P (dtm.recover gid) := by
  rw [Dtm.recover_eq]
  refine h.bind (h.load gid) fun tx => ?_
  split
  · exact h.pure _
  · split
    · refine h.bind h.clock fun now => ?_
      split
      · exact h.pure _
      · exact h.recoverNow gid tx
    · exact h.recoverNow gid tx

theorem tickMove {now : Nat} {move : Act Transaction} (hmove : dtm.tickMove now tx = some move) :
    P move := by
  unfold Dtm.tickMove at hmove
  split at hmove
  · cases hmove
  split at hmove
  · cases hmove
  split at hmove
  · cases hmove
    exact h.expire tx
  split at hmove
  · split at hmove
    · cases hmove
      exact h.prepareWorkflow _
    · split at hmove
      · cases hmove
        exact h.recoverCallbackWorkflow _
      · cases hmove
    · cases hmove
  · split at hmove
    · cases hmove
    · exact h.resume hmove

theorem tickLoop (now : Nat) (listed : List Transaction) : P (dtm.tickLoop now listed) := by
  induction listed with
  | nil => exact h.pure _
  | cons tx rest ih =>
    rw [Dtm.tickLoop]
    split
    · exact ih
    · rename_i move hmove
      exact h.bind (h.tickMove hmove) fun _ => h.bind ih fun _ => h.pure _

theorem tickRecoverOnce : P dtm.tickRecoverOnce :=
  h.bind h.clock fun _ => h.bind h.list fun _ => h.tickLoop _ _

theorem tickRecoverOnceWithLease (owner : String) (ttlMillis : Nat) :
    P (dtm.tickRecoverOnceWithLease owner ttlMillis) := by
  refine h.bind (h.lease _ _ _) fun fence => ?_
  split
  · exact h.pure _
  · exact h.tickRecoverOnce

/-! ### The table of operations -/

/-- **Every operation is in the class.** -/
theorem act {op : Operation} (hop : op.RegistersIn R) : P (op.act dtm) := by
  have one {act : Act Transaction} (hact : P act) : P (Operation.act.one act) :=
    h.bind hact fun _ => h.pure _
  cases op with
  | submit tx => exact one (h.submit tx)
  | registerBranch gid branch => exact one (h.register gid branch hop)
  | recordWorkflowProgress gid progress => exact one (h.progress gid progress)
  | finishCallbackWorkflow gid status reason result =>
    exact one (h.bind (h.finish _ _ _ _) fun _ => h.ofExcept _)
  | recoverCallbackWorkflow gid => exact one (h.recoverCallbackWorkflow gid)
  | scheduleSubmit gid => exact one (h.scheduleSubmit gid)
  | scheduleAbort gid => exact one (h.scheduleAbort gid)
  | startSaga gid => exact one (h.startSaga gid)
  | abortSaga gid => exact one (h.abortSaga gid)
  | prepareTcc gid => exact one (h.prepareTcc gid)
  | confirmTcc gid => exact one (h.confirmTcc gid)
  | cancelTcc gid => exact one (h.cancelTcc gid)
  | prepareMessage gid => exact one (h.prepareMessage gid)
  | dispatchMessage gid => exact one (h.dispatchMessage gid)
  | abortMessage gid => exact one (h.abortMessage gid)
  | prepareWorkflow gid => exact one (h.prepareWorkflow gid)
  | startWorkflow gid => exact one (h.startWorkflow gid)
  | abortWorkflow gid => exact one (h.abortWorkflow gid)
  | prepareXa gid => exact one (h.prepareXa gid)
  | commitXa gid => exact one (h.commitXa gid)
  | rollbackXa gid => exact one (h.rollbackXa gid)
  | forceStop gid => exact one (h.forceStop gid)
  | resetRetry gid => exact one (h.resetRetry gid)
  | resetRetryBatch limit => exact h.resetRetryBatch limit
  | resetRetryBatchAfter afterMillis limit =>
    exact h.bind (h.resetRetryBatchAfter afterMillis limit) fun _ => h.pure _
  | recover gid => exact one (h.recover gid)
  | tickRecoverOnce => exact h.tickRecoverOnce
  | tickRecoverOnceWithLease owner ttlMillis => exact h.tickRecoverOnceWithLease owner ttlMillis

end Dtm.Walks

end RozeDtm
