import RozeDtm.Model.Coordinator.Common

/-!
# Saga operations

`start_saga` and `abort_saga`, with the loops of the sequential mode, and
`start_concurrent_saga` and `abort_concurrent_saga`.
-/

namespace RozeDtm

/-- The number of action calls that `start_saga` allows a branch. -/
def sagaMaxAttempts (options : TransactionOptions) : Nat :=
  (options.retryLimit.map fun retries => satAdd32 retries 1).getD 1

/-- The branches that can be started: not under way, every dependency succeeded. -/
def Transaction.readyBranches (tx : Transaction) : List Nat :=
  let succeeded := (tx.branches.filter fun branch => branch.status = .succeeded).map Branch.id
  (tx.branches.zipIdx.filter fun (branch, _) =>
    (branch.status = .pending || branch.status = .failed) &&
      branch.dependencies.all fun dependency => succeeded.contains dependency).map Prod.snd

/-- The branches that can be compensated: none that depends on them still has to be. -/
def Transaction.readyCompensations (tx : Transaction) : List Nat :=
  (tx.branches.zipIdx.filter fun (branch, _) =>
    branch.status = .compensating &&
      !tx.branches.any fun dependent =>
        dependent.dependencies.contains branch.id && dependent.status = .compensating).map Prod.snd

/-- What `abort_concurrent_saga` makes of a branch before it compensates any. -/
def Branch.aborted (branch : Branch) : Branch :=
  match branch.status with
  | .succeeded => { branch with status := .compensating }
  | .pending | .running | .failed => { branch with status := .skipped, nextRetryMillis := none }
  | .compensating | .skipped => branch

/-- A status that an abort compensates. -/
def BranchStatus.isOwed (st : BranchStatus) : Bool := st = .succeeded || st = .compensating

namespace Dtm

variable (dtm : Dtm)

/-! ### Compensation -/

/-- `for branch in tx.branches.iter_mut().rev()` of `abort_saga`: `ahead` is in the
order of the loop, `passed` in the order of the transaction. -/
def abortSagaLoop (tx : Transaction) : List Branch → List Branch → Act Transaction
  | [], passed => persistTransaction { tx with branches := passed, status := .aborted }
  | branch :: ahead, passed => do
    if branch.status = .pending then
      abortSagaLoop tx ahead ({ branch with status := .skipped } :: passed)
    else if branch.status ≠ .succeeded ∧ branch.status ≠ .compensating then
      abortSagaLoop tx ahead (branch :: passed)
    else
      let branch := { branch with status := .compensating }
      let barrier : BranchBarrier := ⟨tx.gid, branch.id, "compensate"⟩
      match ← Store.barrier barrier with
      | .execute =>
        match branch.compensate with
        | some compensate =>
          let branch := { branch with attempts := satAdd32 branch.attempts 1 }
          let (branch, succeeded) ←
            dtm.invokeBranch tx.options tx.gid branch compensate "compensate"
          if succeeded then
            abortSagaLoop tx ahead
              ({ branch with status := .skipped, nextRetryMillis := none } :: passed)
          else
            let branch := { branch with status := .compensating }
            Store.releaseBarrier barrier
            persistTransaction { tx with branches := ahead.reverse ++ branch :: passed }
        | none =>
          abortSagaLoop tx ahead
            ({ branch with status := .skipped, nextRetryMillis := none } :: passed)
      | .skipDuplicate =>
        persistTransaction { tx with branches := ahead.reverse ++ branch :: passed }
      | .skipNullCompensation => throw "Saga compensation is not TCC cancel"
      | .skipCancelledTry => throw "Saga compensation is not TCC try"

/-- The tasks of a compensation batch, in order; `none` once a branch has no
compensation URL. -/
def compensationTasks (tx : Transaction) : List (Nat × Branch) → List BatchTask × Option Err
  | [] => ([], none)
  | (index, branch) :: rest =>
    match branch.compensate with
    | none => ([], some s!"missing Saga compensation URL for {branch.id}")
    | some compensate =>
      let (tasks, missing) := compensationTasks tx rest
      (⟨index, branch, branchCall tx.options tx.gid branch compensate "compensate"⟩ :: tasks,
        missing)

/-- The `loop` of `abort_concurrent_saga`.  A round that does not return takes at least
one branch out of `Compensating`, so one round more than there are branches is enough
fuel. -/
def abortConcurrentSagaLoop : Nat → Transaction → Act Transaction
  | 0, tx => return tx
  | fuel + 1, tx => do
    if tx.branches.all fun branch => branch.status ≠ .compensating then
      persistTransaction { tx with status := .aborted }
    else
      let ready := tx.readyCompensations
      if ready.isEmpty then
        throw s!"concurrent Saga {tx.gid} has unresolved compensation dependencies"
      let ids := (tx.branchesAt ready).map fun (_, branch) => branch.id
      if ← claimBatch tx.gid "compensate" [] ids then
        let tx := tx.mapBranchesAt ready fun branch =>
          { branch with attempts := satAdd32 branch.attempts 1 }
        let tx ← persistTransaction tx
        let (tasks, missing) := compensationTasks tx (tx.branchesAt ready)
        match missing with
        | some error => do
          dtm.abandonBatch tx.options .skipped .compensating (3 * tasks.length)
            (tasks.map fun task => (task, .spawned))
          throw error
        | none => do
          let (tx, failed) ← dtm.runBatch tx.options .skipped .compensating tasks tx
          let tx ← persistTransaction tx
          if failed.isEmpty then abortConcurrentSagaLoop fuel tx else return tx
      else loadTransaction tx.gid

/-- `abort_concurrent_saga`. -/
def abortConcurrentSaga (tx : Transaction) : Act Transaction := do
  Act.ofExcept (validateTransactionDependencies tx)
  let tx ← persistTransaction
    { tx with status := .aborting, branches := tx.branches.map Branch.aborted }
  dtm.abortConcurrentSagaLoop (tx.branches.length + 1) tx

/-- `abort_saga`. -/
def abortSaga (gid : String) : Act Transaction := do
  let tx ← loadTransaction gid
  Act.ofExcept (ensureKind tx .saga)
  if tx.status = .aborted then
    return tx
  Act.ofExcept (ensureStatus tx [.submitted, .succeeding, .aborting])
  if tx.options.concurrent then
    dtm.abortConcurrentSaga tx
  else
    dtm.abortSagaLoop { tx with status := .aborting } tx.branches.reverse []

/-! ### Execution -/

/-- `for index in 0..tx.branches.len()` of `start_saga`. -/
def startSagaLoop (gid : String) (tx : Transaction) : List Branch → List Branch → Act Transaction
  | passed, [] => persistTransaction { tx with branches := passed, status := .succeeded }
  | passed, branch :: ahead => do
    if branch.status = .succeeded then
      startSagaLoop gid tx (passed ++ [branch]) ahead
    else
      let barrier : BranchBarrier := ⟨tx.gid, branch.id, "action"⟩
      if (← Store.barrier barrier) ≠ .execute then
        loadTransaction gid
      else
        let branch := { branch with
          status := .running, attempts := satAdd32 branch.attempts 1 }
        let (branch, succeeded) ←
          dtm.invokeBranch tx.options tx.gid branch branch.action "action"
        if succeeded then
          let branch := { branch with status := .succeeded, nextRetryMillis := none }
          let tx ← persistTransaction { tx with branches := passed ++ branch :: ahead }
          startSagaLoop gid tx (passed ++ [branch]) ahead
        else if branch.attempts < sagaMaxAttempts tx.options then
          let branch := { branch with status := .failed }
          Store.releaseBarrier barrier
          persistTransaction { tx with branches := passed ++ branch :: ahead }
        else
          let branch := { branch with status := .compensating }
          let branches := (passed ++ branch :: ahead).map fun previous =>
            if previous.status = .succeeded then { previous with status := .compensating }
            else previous
          let _ ← persistTransaction { tx with status := .aborting, branches := branches }
          dtm.abortSaga gid

/-- The `loop` of `start_concurrent_saga`.  A round that does not return adds at least
one branch to `Succeeded`, so one round more than there are branches is enough fuel. -/
def startConcurrentSagaLoop : Nat → Transaction → Act Transaction
  | 0, tx => return tx
  | fuel + 1, tx => do
    if tx.branches.all fun branch => branch.status = .succeeded then
      persistTransaction { tx with status := .succeeded }
    else
      let ready := tx.readyBranches
      if ready.isEmpty then
        return tx
      let ids := (tx.branchesAt ready).map fun (_, branch) => branch.id
      if ← claimBatch tx.gid "action" [] ids then
        let tx := tx.mapBranchesAt ready fun branch =>
          { branch with status := .running, attempts := satAdd32 branch.attempts 1 }
        let tx ← persistTransaction tx
        let tasks := (tx.branchesAt ready).map fun (index, branch) =>
          (⟨index, branch, branchCall tx.options tx.gid branch branch.action "action"⟩ : BatchTask)
        let (tx, failed) ← dtm.runBatch tx.options .succeeded .failed tasks tx
        if failed.any fun branch => sagaMaxAttempts tx.options ≤ branch.attempts then
          let branches := tx.branches.map fun branch =>
            if branch.status = .succeeded then { branch with status := .compensating }
            else { branch with status := .skipped, nextRetryMillis := none }
          let tx ← persistTransaction { tx with status := .aborting, branches := branches }
          dtm.abortConcurrentSaga tx
        else
          let tx ← persistTransaction tx
          if failed.isEmpty then startConcurrentSagaLoop fuel tx else return tx
      else loadTransaction tx.gid

/-- `start_concurrent_saga`. -/
def startConcurrentSaga (tx : Transaction) : Act Transaction := do
  Act.ofExcept (validateTransactionDependencies tx)
  let tx ← persistTransaction { tx with status := .succeeding }
  dtm.startConcurrentSagaLoop (tx.branches.length + 1) tx

/-- `start_saga`. -/
def startSaga (gid : String) : Act Transaction := do
  let tx ← loadTransaction gid
  Act.ofExcept (ensureKind tx .saga)
  if tx.status = .succeeded then
    return tx
  Act.ofExcept (ensureStatus tx [.submitted, .succeeding])
  if tx.options.concurrent then
    dtm.startConcurrentSaga tx
  else
    let tx ← persistTransaction { tx with status := .succeeding }
    dtm.startSagaLoop gid tx [] tx.branches

end Dtm

end RozeDtm
