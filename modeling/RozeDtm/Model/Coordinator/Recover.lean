import RozeDtm.Model.Coordinator.Message
import RozeDtm.Model.Coordinator.Phase2
import RozeDtm.Model.Coordinator.Saga
import RozeDtm.Model.Coordinator.Workflow

/-!
# Scheduling, recovery and the operations of the coordinator

`submit` and the requests that only write a decision (`schedule_submit`,
`schedule_abort`, `force_stop`, `reset_retry`), the dispatch of `recover` and of
the recovery tick on kind and status, and `Operation`, the list of what can be
asked of the coordinator.
-/

namespace RozeDtm

namespace Dtm

variable (dtm : Dtm)

/-! ### Submission -/

/-- `kv::get_topic`. -/
def getTopic (topic : String) : Act (Option Topic) := do
  Act.ofExcept (ensure (!topic.isEmpty && topic.utf8ByteSize ≤ 191) "invalid topic name")
  match ← Store.getKv "topics" topic with
  | none => return none
  | some entry =>
    let subscribers ← Act.ofExcept (dtm.libs.parseSubscribers entry.value)
    return some { name := entry.key, subscribers, version := entry.version }

/-- A number with at least two digits. -/
def twoDigits (n : Nat) : String := if n < 10 then "0" ++ toString n else toString n

/-- The branches that one branch with a topic for its action stands for. -/
def subscriberBranches (branch : Branch) (subscribers : List TopicSubscriber) : List Branch :=
  subscribers.mapIdx fun index subscriber =>
    { branch with
      id := if 1 < subscribers.length then s!"{branch.id}-{twoDigits (index + 1)}" else branch.id
      action := subscriber.url }

/-- The loop of `expand_message_topics`. -/
def expandBranches : List Branch → Act (List Branch)
  | [] => return []
  | branch :: rest => do
    let expanded ←
      if branch.action.startsWith "topic://" then do
        let topicName := (branch.action.drop "topic://".length).toString
        let topic ← Act.ofOption (← dtm.getTopic topicName) s!"topic not found: {topicName}"
        Act.ofExcept (ensure (!topic.subscribers.isEmpty)
          s!"topic has no subscribers: {topicName}")
        pure (subscriberBranches branch topic.subscribers)
      else pure [branch]
    return expanded ++ (← expandBranches rest)

/-- `expand_message_topics`. -/
def expandMessageTopics (tx : Transaction) : Act Transaction := do
  let expanded ← dtm.expandBranches tx.branches
  Act.ofExcept (ensure (expanded.map Branch.id).Nodup
    "message topic expansion produced duplicate branch ids")
  return { tx with branches := expanded }

/-- `submit`. -/
def submit (tx : Transaction) : Act Transaction := do
  let tx := { tx with revision := 1 }
  Act.ofExcept (tx.options.validate dtm.libs)
  Act.ofExcept (ensure (tx.kind = .message || tx.options.delayMillis.isNone)
    "delay_millis is only supported by Message transactions")
  Act.ofExcept (validateTransactionDependencies tx)
  let tx ← if tx.kind = .message then dtm.expandMessageTopics tx else pure tx
  let tx := if isCallbackWorkflow tx then tx else
    { tx with timeoutMillis := some (tx.timeoutMillis.getD dtm.options.transactionTimeoutMillis) }
  Store.insertTransaction tx
  return tx

/-! ### Scheduling -/

/-- The statuses that `schedule_submit` accepts. -/
def scheduleSubmitAllowed : TransactionKind → List TransactionStatus
  | .tcc | .xa => [.prepared, .succeeding]
  | .saga => [.submitted, .succeeding]
  | .workflow | .message => [.submitted, .prepared, .succeeding]

/-- `schedule_submit`. -/
def scheduleSubmit (gid : String) : Act Transaction := do
  let tx ← loadTransaction gid
  if tx.status = .succeeded then
    return tx
  Act.ofExcept (ensure (!isCallbackWorkflow tx)
    "callback workflow must submit a succeed or failed completion")
  Act.ofExcept (ensureStatus tx (scheduleSubmitAllowed tx.kind))
  if ((tx.kind = .tcc ∨ tx.kind = .xa) ∧ tx.status = .prepared) ∨
      (tx.kind = .message ∧ (tx.status = .submitted ∨ tx.status = .prepared)) then
    persistTransaction { tx with status := .succeeding }
  else if tx.kind = .workflow ∧ tx.status = .prepared then
    persistTransaction { tx with status := .submitted }
  else return tx

/-- The statuses that `schedule_abort` accepts. -/
def scheduleAbortAllowed : TransactionKind → List TransactionStatus
  | .tcc => [.submitted, .trying, .prepared, .aborting]
  | .saga => [.submitted, .succeeding, .aborting]
  | .workflow => [.submitted, .prepared, .succeeding, .aborting]
  | .xa => [.submitted, .prepared, .aborting]
  | .message => []

/-- `schedule_abort`. -/
def scheduleAbort (gid : String) : Act Transaction := do
  let tx ← loadTransaction gid
  if tx.status = .aborted then
    return tx
  if tx.kind = .message then
    abortMessage gid
  else
    Act.ofExcept (ensureStatus tx (scheduleAbortAllowed tx.kind))
    persistTransaction { tx with
      status := .aborting
      branches := tx.branches.map fun branch => { branch with nextRetryMillis := none } }

/-- `force_stop`. -/
def forceStop (gid : String) : Act Transaction := do
  let tx ← loadTransaction gid
  Act.ofExcept (ensure (!tx.status.isTerminal) s!"transaction {gid} is already terminal")
  persistTransaction { tx with
    status := .failed
    branches := tx.branches.map fun branch => { branch with nextRetryMillis := none } }

/-- The record that `reset_retry` writes. -/
def retryNow (now : Nat) (tx : Transaction) : Transaction :=
  { tx with
    branches := tx.branches.map fun branch =>
      if branch.retryable then { branch with nextRetryMillis := some now } else branch
    metadata := if isCallbackWorkflow tx then
        (tx.metadata.insert "dtm.callback.next_retry_millis" (toString now)).insert
          "dtm.callback.last_outcome" "manual_reset"
      else tx.metadata }

/-- `reset_retry`. -/
def resetRetry (gid : String) : Act Transaction := do
  let tx ← loadTransaction gid
  Act.ofExcept (ensure (!tx.status.isTerminal) s!"transaction {gid} is terminal")
  let now ← currentMillis
  persistTransaction (retryNow now tx)

/-- `reset_retry` for each gid of a list. -/
def resetEach : List String → Act (List Transaction)
  | [] => return []
  | gid :: rest => do
    let tx ← resetRetry gid
    return tx :: (← resetEach rest)

/-- `reset_retry_batch`. -/
def resetRetryBatch (limit : Nat) : Act (List Transaction) := do
  let listed ← Store.listTransactions
  resetEach (((listed.filter fun tx => !tx.status.isTerminal).map Transaction.gid).take
    (max limit 1))

/-- The order of `(u64, String)`. -/
def candidateLe (a b : Nat × String) : Bool :=
  a.1 < b.1 || a.1 = b.1 && a.2 ≤ b.2

/-- `reset_retry_batch_after`. -/
def resetRetryBatchAfter (afterMillis limit : Nat) : Act (List Transaction × Bool) := do
  let limit := max limit 1
  let now ← currentMillis
  let cutoff := satAdd64 now afterMillis
  let listed ← Store.listTransactions
  let candidates := (listed.filterMap fun transaction =>
    ((transactionNextRecoveryMillis transaction).filter fun next => cutoff < next).map
      fun next => (next, transaction.gid)).mergeSort candidateLe
  let reset ← resetEach ((candidates.take limit).map Prod.snd)
  return (reset, limit < candidates.length)

/-! ### Recovery -/

/-- What `recover` and the recovery tick do with a transaction past its timeout. -/
def expire (tx : Transaction) : Act Transaction :=
  match tx.kind with
  | .tcc => dtm.cancelTcc tx.gid
  | .saga => dtm.abortSaga tx.gid
  | .workflow =>
    if isCallbackWorkflow tx then expireCallbackWorkflow tx else dtm.abortWorkflow tx.gid
  | .message =>
    if tx.status = .succeeding then dtm.dispatchMessage tx.gid else abortMessage tx.gid
  | .xa => if tx.status = .succeeding then dtm.commitXa tx.gid else dtm.rollbackXa tx.gid

/-- The operation that the recovery tick runs for a kind and a status. -/
def resume (gid : String) : TransactionKind → TransactionStatus → Option (Act Transaction)
  | .tcc, .submitted | .tcc, .trying => some (dtm.prepareTcc gid)
  | .tcc, .succeeding => some (dtm.confirmTcc gid)
  | .tcc, .aborting => some (dtm.cancelTcc gid)
  | .saga, .submitted | .saga, .succeeding => some (dtm.startSaga gid)
  | .saga, .aborting => some (dtm.abortSaga gid)
  | .workflow, .submitted | .workflow, .succeeding => some (dtm.startWorkflow gid)
  | .workflow, .aborting => some (dtm.abortWorkflow gid)
  | .message, .submitted => some (prepareMessage gid)
  | .message, .succeeding => some (dtm.dispatchMessage gid)
  | .xa, .submitted => some (prepareXa gid)
  | .xa, .succeeding => some (dtm.commitXa gid)
  | .xa, .aborting => some (dtm.rollbackXa gid)
  | _, _ => none

/-- The operation that `recover` runs: those of the tick, and for a Prepared TCC, Message
or XA the second phase. -/
def recoverMove (gid : String) (kind : TransactionKind) (status : TransactionStatus) :
    Act Transaction :=
  match kind, status with
  | .tcc, .prepared => dtm.confirmTcc gid
  | .message, .prepared => dtm.dispatchMessage gid
  | .xa, .prepared => dtm.commitXa gid
  | kind, status =>
    (dtm.resume gid kind status).getD
      (throw s!"transaction {gid} is in non-replayable state {status.debug}")

/-- `recover`. -/
def recover (gid : String) : Act Transaction := do
  let tx ← loadTransaction gid
  if tx.status.isTerminal then
    return tx
  -- `&&` is lazy: the clock is read only for a Message in Succeeding
  let waiting ← if tx.kind = .message ∧ tx.status = .succeeding then do
      let now ← currentMillis
      pure (!messageDispatchDue tx now)
    else pure false
  if waiting then
    return tx
  let now ← currentMillis
  if isExpired tx now then
    dtm.expire tx
  else if isCallbackWorkflow tx then
    match tx.status with
    | .submitted => prepareWorkflow gid
    | .prepared => dtm.recoverCallbackWorkflow gid
    | status => throw s!"callback workflow {gid} is in non-replayable state {status.debug}"
  else dtm.recoverMove gid tx.kind tx.status

/-- What `recover` does with a record that need not wait. -/
def recoverNow (gid : String) (tx : Transaction) : Act Transaction := do
  let now ← currentMillis
  if isExpired tx now then
    dtm.expire tx
  else if isCallbackWorkflow tx then
    match tx.status with
    | .submitted => prepareWorkflow gid
    | .prepared => dtm.recoverCallbackWorkflow gid
    | status => throw s!"callback workflow {gid} is in non-replayable state {status.debug}"
  else dtm.recoverMove gid tx.kind tx.status

theorem recover_eq (gid : String) : dtm.recover gid = (do
    let tx ← loadTransaction gid
    if tx.status.isTerminal then
      pure tx
    else if tx.kind = .message ∧ tx.status = .succeeding then do
      let now ← currentMillis
      if !messageDispatchDue tx now then pure tx else dtm.recoverNow gid tx
    else dtm.recoverNow gid tx) := rfl

/-- What the recovery tick does with one listed transaction at clock value `now`. -/
def tickMove (now : Nat) (tx : Transaction) : Option (Act Transaction) :=
  if tx.status.isTerminal then none
  else if tx.kind = .message ∧ tx.status = .succeeding ∧ !messageDispatchDue tx now then none
  else if isExpired tx now then some (dtm.expire tx)
  else if isCallbackWorkflow tx then
    match tx.status with
    | .submitted => some (prepareWorkflow tx.gid)
    | .prepared =>
      if callbackWorkflowDue tx now then some (dtm.recoverCallbackWorkflow tx.gid) else none
    | _ => none
  else if !transactionDue tx now then none
  else dtm.resume tx.gid tx.kind tx.status

/-- The loop of `tick_recover_once`. -/
def tickLoop (now : Nat) : List Transaction → Act (List Transaction)
  | [] => return []
  | tx :: rest => do
    match dtm.tickMove now tx with
    | none => tickLoop now rest
    | some move =>
      let next ← move
      return next :: (← tickLoop now rest)

/-- `tick_recover_once`. -/
def tickRecoverOnce : Act (List Transaction) := do
  let now ← currentMillis
  let listed ← Store.listTransactions
  dtm.tickLoop now listed

/-- `tick_recover_once_with_lease` over a store whose fenced calls are the trait's
defaults, which drop the fence. -/
def tickRecoverOnceWithLease (owner : String) (ttlMillis : Nat) : Act (List Transaction) := do
  match ← Store.acquireRecoveryLease "roze-dtm-recovery" owner ttlMillis with
  | none => return []
  | some _ => dtm.tickRecoverOnce

end Dtm

/-! ### Operations -/

/-- What can be asked of the coordinator. -/
inductive Operation
  | submit (tx : Transaction)
  | registerBranch (gid : String) (branch : Branch)
  | recordWorkflowProgress (gid : String) (progress : WorkflowProgress)
  | finishCallbackWorkflow (gid : String) (status : TransactionStatus)
      (rollbackReason result : Option String)
  | recoverCallbackWorkflow (gid : String)
  | scheduleSubmit (gid : String)
  | scheduleAbort (gid : String)
  | startSaga (gid : String)
  | abortSaga (gid : String)
  | prepareTcc (gid : String)
  | confirmTcc (gid : String)
  | cancelTcc (gid : String)
  | prepareMessage (gid : String)
  | dispatchMessage (gid : String)
  | abortMessage (gid : String)
  | prepareWorkflow (gid : String)
  | startWorkflow (gid : String)
  | abortWorkflow (gid : String)
  | prepareXa (gid : String)
  | commitXa (gid : String)
  | rollbackXa (gid : String)
  | forceStop (gid : String)
  | resetRetry (gid : String)
  | resetRetryBatch (limit : Nat)
  | resetRetryBatchAfter (afterMillis limit : Nat)
  | recover (gid : String)
  | tickRecoverOnce
  | tickRecoverOnceWithLease (owner : String) (ttlMillis : Nat)

/-- The operations that register something new: a transaction, a branch, a progress. -/
def Operation.registers : Operation → Bool
  | .submit _ | .registerBranch _ _ | .recordWorkflowProgress _ _ => true
  | _ => false

/-- `finish_callback_workflow`. -/
def finishCallbackWorkflow (gid : String) (status : TransactionStatus)
    (rollbackReason result : Option String) : Act Transaction := do
  Act.ofExcept (← Store.finishWorkflow gid status rollbackReason result)

/-- The program of an operation; its result is the transactions it returns. -/
def Operation.act (dtm : Dtm) : Operation → Act (List Transaction)
  | .submit tx => one (dtm.submit tx)
  | .registerBranch gid branch => one (Store.registerBranch gid branch)
  | .recordWorkflowProgress gid progress => one (Store.recordWorkflowProgress gid progress)
  | .finishCallbackWorkflow gid status reason result =>
    one (RozeDtm.finishCallbackWorkflow gid status reason result)
  | .recoverCallbackWorkflow gid => one (dtm.recoverCallbackWorkflow gid)
  | .scheduleSubmit gid => one (Dtm.scheduleSubmit gid)
  | .scheduleAbort gid => one (Dtm.scheduleAbort gid)
  | .startSaga gid => one (dtm.startSaga gid)
  | .abortSaga gid => one (dtm.abortSaga gid)
  | .prepareTcc gid => one (dtm.prepareTcc gid)
  | .confirmTcc gid => one (dtm.confirmTcc gid)
  | .cancelTcc gid => one (dtm.cancelTcc gid)
  | .prepareMessage gid => one (Dtm.prepareMessage gid)
  | .dispatchMessage gid => one (dtm.dispatchMessage gid)
  | .abortMessage gid => one (Dtm.abortMessage gid)
  | .prepareWorkflow gid => one (Dtm.prepareWorkflow gid)
  | .startWorkflow gid => one (dtm.startWorkflow gid)
  | .abortWorkflow gid => one (dtm.abortWorkflow gid)
  | .prepareXa gid => one (Dtm.prepareXa gid)
  | .commitXa gid => one (dtm.commitXa gid)
  | .rollbackXa gid => one (dtm.rollbackXa gid)
  | .forceStop gid => one (Dtm.forceStop gid)
  | .resetRetry gid => one (Dtm.resetRetry gid)
  | .resetRetryBatch limit => Dtm.resetRetryBatch limit
  | .resetRetryBatchAfter afterMillis limit => do
    let (reset, _) ← Dtm.resetRetryBatchAfter afterMillis limit
    return reset
  | .recover gid => one (dtm.recover gid)
  | .tickRecoverOnce => dtm.tickRecoverOnce
  | .tickRecoverOnceWithLease owner ttlMillis => dtm.tickRecoverOnceWithLease owner ttlMillis
where
  one (act : Act Transaction) : Act (List Transaction) := do
    let tx ← act
    return [tx]

/-- The same as a program of atomic steps. -/
def Operation.prog (dtm : Dtm) (op : Operation) :
    Conc.Prog effects (Except Err (List Transaction)) := (op.act dtm).run

end RozeDtm
