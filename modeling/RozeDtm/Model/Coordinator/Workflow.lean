import RozeDtm.Model.Coordinator.Common

/-!
# Workflow operations

A static Workflow has branches and is driven by `start_workflow` and
`abort_workflow`.  A callback Workflow has none; it is driven by its
`QueryPrepared` callback through `recover_callback_workflow`.
-/

namespace RozeDtm

/-- The first branch that can be started, with what is before and after it. -/
def Transaction.nextWorkflowBranch (tx : Transaction) :
    Option (List Branch × Branch × List Branch) :=
  let succeeded := (tx.branches.filter fun branch => branch.status = .succeeded).map Branch.id
  let runnable (branch : Branch) : Bool :=
    (branch.status = .pending || branch.status = .failed) &&
      branch.dependencies.all fun dependency => succeeded.contains dependency
  match tx.branches.dropWhile fun branch => !runnable branch with
  | [] => none
  | branch :: after => some (tx.branches.takeWhile fun branch => !runnable branch, branch, after)

namespace Dtm

variable (dtm : Dtm)

/-- `prepare_workflow`. -/
def prepareWorkflow (gid : String) : Act Transaction := do
  let tx ← transactionOfKind gid .workflow
  if tx.status = .prepared || tx.status.isTerminal then
    return tx
  Act.ofExcept (ensureStatus tx [.submitted])
  persistTransaction { tx with status := .prepared }

/-! ### Static Workflows -/

/-- `for branch in tx.branches.iter_mut().rev()` of `abort_workflow`: `ahead` is in the
order of the loop, `passed` in the order of the transaction. -/
def abortWorkflowLoop (tx : Transaction) : List Branch → List Branch → Act Transaction
  | [], passed => persistTransaction { tx with branches := passed, status := .aborted }
  | branch :: ahead, passed => do
    if branch.status ≠ .succeeded then
      let branch := if branch.status = .pending then { branch with status := .skipped } else branch
      abortWorkflowLoop tx ahead (branch :: passed)
    else
      let barrier : BranchBarrier := ⟨tx.gid, branch.id, "workflow_rollback"⟩
      if (← Store.barrier barrier) = .execute then
        let compensate ← Act.ofOption branch.compensate
          s!"missing workflow compensation URL for {branch.id}"
        let branch := { branch with attempts := satAdd32 branch.attempts 1 }
        let (branch, succeeded) ←
          dtm.invokeBranch tx.options tx.gid branch compensate "workflow_rollback"
        if succeeded then
          abortWorkflowLoop tx ahead
            ({ branch with status := .skipped, nextRetryMillis := none } :: passed)
        else
          let branch := { branch with status := .compensating }
          Store.releaseBarrier barrier
          persistTransaction { tx with branches := ahead.reverse ++ branch :: passed }
      else
        abortWorkflowLoop tx ahead
          ({ branch with status := .skipped, nextRetryMillis := none } :: passed)

/-- `abort_workflow`. -/
def abortWorkflow (gid : String) : Act Transaction := do
  let tx ← transactionOfKind gid .workflow
  if tx.status = .aborted then
    return tx
  Act.ofExcept (ensureStatus tx [.submitted, .prepared, .succeeding, .aborting])
  dtm.abortWorkflowLoop { tx with status := .aborting } tx.branches.reverse []

/-- The `loop` of `start_workflow`; `tx.status` is `Succeeding`.  A round that does not
return adds a branch to `Succeeded`, so one round more than there are branches is
enough fuel. -/
def startWorkflowLoop (gid : String) : Nat → Transaction → Act Transaction
  | 0, tx => return tx
  | fuel + 1, tx => do
    match tx.nextWorkflowBranch with
    | none =>
      if tx.branches.all fun branch => branch.status = .succeeded then
        persistTransaction { tx with status := .succeeded }
      else throw s!"workflow {tx.gid} has unresolved or cyclic dependencies"
    | some (before, branch, after) =>
      let barrier : BranchBarrier := ⟨tx.gid, branch.id, "workflow"⟩
      if (← Store.barrier barrier) ≠ .execute then
        loadTransaction gid
      else
        let branch := { branch with
          status := .running, attempts := satAdd32 branch.attempts 1 }
        let (branch, succeeded) ←
          dtm.invokeBranch tx.options tx.gid branch branch.action "workflow"
        if succeeded then
          let branch := { branch with status := .succeeded, nextRetryMillis := none }
          let tx ← persistTransaction { tx with branches := before ++ branch :: after }
          startWorkflowLoop gid fuel tx
        else
          let branch := { branch with status := .failed }
          Store.releaseBarrier barrier
          let _ ← persistTransaction
            { tx with branches := before ++ branch :: after, status := .aborting }
          dtm.abortWorkflow gid

/-- `start_workflow`. -/
def startWorkflow (gid : String) : Act Transaction := do
  let tx ← transactionOfKind gid .workflow
  if tx.status = .succeeded then
    return tx
  Act.ofExcept (ensure (!isCallbackWorkflow tx)
    "callback workflow is driven through its QueryPrepared callback")
  Act.ofExcept (ensureStatus tx [.submitted, .prepared, .succeeding])
  dtm.startWorkflowLoop gid (tx.branches.length + 1) { tx with status := .succeeding }

/-! ### Callback Workflows -/

/-- `terminal_after_conflict`. -/
def terminalAfterConflict (gid : String) (error : Err) : Act Transaction := do
  let latest ← loadTransaction gid
  if latest.status.isTerminal then return latest else throw error

/-- `finish_callback_workflow` with the conflict handling that both of its callers in
the recovery put around it. -/
def finishOrTerminal (gid : String) (rollbackReason : Option String) : Act Transaction := do
  match ← Store.finishWorkflow gid .failed rollbackReason none with
  | .ok transaction => return transaction
  | .error error => terminalAfterConflict gid error

/-- `defer_callback_workflow`. -/
def deferCallbackWorkflow (tx : Transaction) (attemptedAtMillis : Nat) (backoff : Bool)
    (outcome : String) : Act Transaction := do
  let retryIntervalMillis :=
    max (tx.options.retryIntervalMillis.getD dtm.options.retryBackoffMillis) 1
  let delay : WorkflowRecoveryDelay := {
    attemptedAtMillis, retryIntervalMillis, backoff, outcome
    maxRetryIntervalMillis := max dtm.options.maxRetryBackoffMillis retryIntervalMillis }
  match ← Store.deferWorkflowRecovery tx.gid delay with
  | .ok transaction => return transaction
  | .error error => terminalAfterConflict tx.gid error

/-- `recover_callback_workflow`. -/
def recoverCallbackWorkflow (gid : String) : Act Transaction := do
  let tx ← transactionOfKind gid .workflow
  if tx.status.isTerminal then
    return tx
  Act.ofExcept (ensureCallbackWorkflow tx)
  Act.ofExcept (ensureStatus tx [.prepared])
  let attemptedAtMillis ← currentMillis
  match workflowCallbackRequest dtm.libs tx with
  | .error _ => dtm.deferCallbackWorkflow tx attemptedAtMillis true "invalid_callback"
  | .ok callback =>
    let result ← queryWorkflowCallback callback tx.options
    let latest ← loadTransaction gid
    if latest.status.isTerminal then
      return latest
    Act.ofExcept (ensureCallbackWorkflow latest)
    Act.ofExcept (ensureStatus latest [.prepared])
    match result with
    | .ok (.failed reason) =>
      finishOrTerminal gid (reason.or (some "workflow callback reported failure"))
    | .ok .ongoing => dtm.deferCallbackWorkflow latest attemptedAtMillis false "ongoing"
    | .ok .completed =>
      dtm.deferCallbackWorkflow latest attemptedAtMillis true "completed_without_terminal"
    | .error _ => dtm.deferCallbackWorkflow latest attemptedAtMillis true "transport_error"

/-- `expire_callback_workflow`. -/
def expireCallbackWorkflow (transaction : Transaction) : Act Transaction := do
  let transaction ← if transaction.status = .submitted then prepareWorkflow transaction.gid
    else pure transaction
  Act.ofExcept (ensureStatus transaction [.prepared])
  finishOrTerminal transaction.gid (some "workflow callback timed out")

end Dtm

end RozeDtm
