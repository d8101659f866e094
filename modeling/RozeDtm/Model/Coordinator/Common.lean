import RozeDtm.Model.Store

/-!
# What the coordinator operations share

`Act` is the monad of the coordinator's `async fn`s: atomic steps, and errors that
end the operation.  `Store` gives the calls of `TransactionStore` as `Act`s.  Then
come the private helpers of `Dtm` that every operation uses, and the batches of
concurrent calls (`JoinSet`).

A loop `for branch in &mut tx.branches` is a recursion on the branches that are
still ahead, with the ones it has passed as an argument of their own; the
transaction's branch list is the one followed by the other.
-/

namespace RozeDtm

open Conc

/-- An `async fn` that returns `anyhow::Result<α>`. -/
abbrev Act (α : Type) := Proc effects Err α

/-- `?` on a result that is already there. -/
def Act.ofExcept {α : Type} (e : Except Err α) : Act α := ExceptT.mk (.pure e)

/-- `ok_or_else(..)?`. -/
def Act.ofOption {α : Type} (o : Option α) (e : Err) : Act α := Act.ofExcept (o.elim (.error e) .ok)

/-- One step. -/
def Act.call (o : Effect) : Act o.Reply := @Proc.perform effects Err o

/-- A step whose answer is a `Result`, with `?`. -/
def Act.perform {α : Type} (p : Prog effects (Except Err α)) : Act α := ExceptT.mk p

namespace Store

def insertTransaction (tx : Transaction) : Act Unit :=
  Act.perform (@Prog.perform effects (.insertTransaction tx))

def getTransaction (gid : String) : Act (Option Transaction) := Act.call (.getTransaction gid)

def updateTransaction (tx : Transaction) : Act Unit :=
  Act.perform (@Prog.perform effects (.updateTransaction tx))

def registerBranch (gid : String) (branch : Branch) : Act Transaction :=
  Act.perform (@Prog.perform effects (.registerBranch gid branch))

def recordWorkflowProgress (gid : String) (progress : WorkflowProgress) : Act Transaction :=
  Act.perform (@Prog.perform effects (.recordWorkflowProgress gid progress))

/-- `finish_workflow`, with the `Result` as the value. -/
def finishWorkflow (gid : String) (status : TransactionStatus)
    (rollbackReason result : Option String) : Act (Except Err Transaction) :=
  Act.call (.finishWorkflow gid status rollbackReason result)

/-- `defer_workflow_recovery`, with the `Result` as the value. -/
def deferWorkflowRecovery (gid : String) (delay : WorkflowRecoveryDelay) :
    Act (Except Err Transaction) :=
  Act.call (.deferWorkflowRecovery gid delay)

def listTransactions : Act (List Transaction) := Act.call .listTransactions

def deleteTransactionIfUnchanged (transaction : Transaction) : Act Bool :=
  Act.call (.deleteTransactionIfUnchanged transaction)

def getKv (category key : String) : Act (Option KvEntry) := Act.call (.getKv category key)

def barrier (b : BranchBarrier) : Act BarrierDecision := Act.call (.barrier b)

def releaseBarrier (b : BranchBarrier) : Act Unit := Act.call (.releaseBarrier b)

def acquireRecoveryLease (name owner : String) (ttlMillis : Nat) :
    Act (Option RecoveryLeaseFence) :=
  Act.call (.acquireRecoveryLease name owner ttlMillis)

end Store

/-- `current_millis`. -/
def currentMillis : Act Nat := Act.call .currentMillis

/-- Issue a branch call. -/
def invokeBegin (c : BranchCall) : Act Unit := Act.call (.invokeBegin c)

/-- Wait for a branch call; `true` is `Ok`. -/
def invokeEnd (c : BranchCall) : Act Bool := Act.call (.invokeEnd c)

/-- `query_workflow_callback`, with the `Result` as the value. -/
def queryWorkflowCallback (request : WorkflowCallbackRequest) (options : TransactionOptions) :
    Act (Except Err WorkflowCallbackResult) :=
  Act.call (.queryWorkflowCallback request options)

/-- Which of `n + 1` task events comes next. -/
def joinNext (n : Nat) : Act (Fin (n + 1)) := Act.call (.joinNext n)

/-- The coordinator: its options, and the library functions it calls. -/
structure Dtm where
  options : DtmOptions
  libs : Libs

/-- `get_transaction(gid)` with the error of a missing record. -/
def loadTransaction (gid : String) : Act Transaction := do
  let tx ← Store.getTransaction gid
  Act.ofOption tx s!"transaction not found: {gid}"

/-- `transaction_of_kind`. -/
def transactionOfKind (gid : String) (kind : TransactionKind) : Act Transaction := do
  let tx ← loadTransaction gid
  Act.ofExcept (ensureKind tx kind)
  return tx

/-- The local record after `persist_transaction`. -/
def Transaction.written (transaction : Transaction) : Transaction :=
  { transaction with revision := satAdd64 transaction.revision 1 }

/-- `persist_transaction`. -/
def persistTransaction (transaction : Transaction) : Act Transaction := do
  Store.updateTransaction transaction
  return transaction.written

namespace Dtm

variable (dtm : Dtm)

/-- `max_attempts`. -/
def maxAttempts (options : TransactionOptions) : Nat :=
  (options.retryLimit.map fun retries => satAdd32 retries 1).getD dtm.options.maxAttempts

/-- The back-off that `record_branch_failure` is given, and its bound. -/
def retryBackoff (options : TransactionOptions) : Nat × Nat :=
  let backoff := options.retryIntervalMillis.getD dtm.options.retryBackoffMillis
  (backoff, max dtm.options.maxRetryBackoffMillis backoff)

/-- The call of `branch` at `url` for operation `op`. -/
def branchCall (options : TransactionOptions) (gid : String) (branch : Branch)
    (url op : String) : BranchCall where
  gid := gid
  branchId := branch.id
  op := op
  url := url
  payload := branch.payload
  options := options

/-- `invoke_branch` and `invoke_url`: the branch after the call, and whether the call
returned `Ok`.  The alert that follows a failed call neither reads nor writes the
store and its result is dropped, so it is left out. -/
def invokeBranch (options : TransactionOptions) (gid : String) (branch : Branch)
    (url op : String) : Act (Branch × Bool) := do
  let call := branchCall options gid branch url op
  invokeBegin call
  if ← invokeEnd call then
    return (branch, true)
  else
    let now ← currentMillis
    let (backoff, maxBackoff) := dtm.retryBackoff options
    return (recordBranchFailure now branch "branch_call_failed" backoff maxBackoff, false)

end Dtm

/-! ### Batches of concurrent calls -/

/-- Apply a function to the branches at the given places. -/
def Transaction.mapBranchesAt (tx : Transaction) (indices : List Nat) (f : Branch → Branch) :
    Transaction :=
  { tx with branches := tx.branches.mapIdx fun index branch =>
      if index ∈ indices then f branch else branch }

/-- The branches at the given places. -/
def Transaction.branchesAt (tx : Transaction) (indices : List Nat) : List (Nat × Branch) :=
  indices.filterMap fun index => tx.branches[index]?.map fun branch => (index, branch)

/-- One task of a `JoinSet`: the branch's place in the transaction, the branch as it
was when the task was spawned, and its call. -/
structure BatchTask where
  index : Nat
  branch : Branch
  call : BranchCall

/-- How far a task has come. -/
inductive TaskStage
  | spawned
  | calling
  | returned (branch : Branch) (succeeded : Bool)

/-- Claim a barrier for every branch id of a batch, in order.  When one is refused
the ones claimed before it are given back, and the answer is `false`. -/
def claimBatch (gid op : String) : List BranchBarrier → List String → Act Bool
  | _, [] => return true
  | claimed, id :: ids => do
    let barrier : BranchBarrier := ⟨gid, id, op⟩
    if (← Store.barrier barrier) ≠ .execute then
      releaseAll claimed
      return false
    claimBatch gid op (claimed ++ [barrier]) ids
where
  releaseAll : List BranchBarrier → Act Unit
    | [] => return
    | barrier :: rest => do
      Store.releaseBarrier barrier
      releaseAll rest

namespace Dtm

variable (dtm : Dtm)

/-- What a task makes of its branch once the call is back. -/
def settleTask (options : TransactionOptions) (onOk onErr : BranchStatus) (branch : Branch)
    (succeeded : Bool) : Act Branch := do
  if succeeded then
    return { branch with status := onOk, nextRetryMillis := none }
  else
    let now ← currentMillis
    let (backoff, maxBackoff) := dtm.retryBackoff options
    return recordBranchFailure now { branch with status := onErr } "branch_call_failed"
      backoff maxBackoff

/-- One step of one task that is not joined yet. -/
def advanceTask (options : TransactionOptions) (onOk onErr : BranchStatus) (task : BatchTask) :
    TaskStage → Act TaskStage
  | .spawned => do
    invokeBegin task.call
    return .calling
  | .calling => do
    let succeeded ← invokeEnd task.call
    let branch ← dtm.settleTask options onOk onErr task.branch succeeded
    return .returned branch succeeded
  | .returned branch succeeded => return .returned branch succeeded

/-- `while let Some(result) = tasks.join_next().await`: the tasks run side by side, so
at any point any of them may issue its call, have it return, or be joined.  Joining a
task writes its branch back and, when the call failed, releases its barrier.  The
result is the transaction and the branches whose call failed.  Each task has three
events, so `3 * n` of them finish `n` tasks. -/
def joinBatch (options : TransactionOptions) (onOk onErr : BranchStatus) :
    Nat → List (BatchTask × TaskStage) → Transaction → List Branch →
    Act (Transaction × List Branch)
  | 0, _, tx, failed => return (tx, failed)
  | _ + 1, [], tx, failed => return (tx, failed)
  | fuel + 1, t :: ts, tx, failed => do
    let k ← joinNext ts.length
    match (t :: ts).get k with
    | (task, .returned branch succeeded) => do
      let tx := { tx with branches := tx.branches.set task.index branch }
      if succeeded then
        joinBatch options onOk onErr fuel ((t :: ts).eraseIdx k) tx failed
      else
        Store.releaseBarrier task.call.barrier
        joinBatch options onOk onErr fuel ((t :: ts).eraseIdx k) tx (failed ++ [branch])
    | (task, stage) => do
      let stage ← dtm.advanceTask options onOk onErr task stage
      joinBatch options onOk onErr fuel ((t :: ts).set k (task, stage)) tx failed

/-- A `JoinSet` that is dropped while its tasks run: each may still take some of its
steps before it is aborted, and none is joined. -/
def abandonBatch (options : TransactionOptions) (onOk onErr : BranchStatus) :
    Nat → List (BatchTask × TaskStage) → Act Unit
  | 0, _ => return
  | fuel + 1, tasks => do
    let k ← joinNext tasks.length
    match tasks[k.val]? with
    | none => return
    | some (task, stage) => do
      let stage ← dtm.advanceTask options onOk onErr task stage
      abandonBatch options onOk onErr fuel (tasks.set k.val (task, stage))

/-- Spawn one task for each index and join them all. -/
def runBatch (options : TransactionOptions) (onOk onErr : BranchStatus)
    (tasks : List BatchTask) (tx : Transaction) : Act (Transaction × List Branch) :=
  dtm.joinBatch options onOk onErr (3 * tasks.length) (tasks.map fun task => (task, .spawned))
    tx []

end Dtm

end RozeDtm
