import RozeDtm.Model.Coordinator.Common

/-!
# Message operations

`prepare_message`, `dispatch_message` with its sequential and its concurrent mode,
and `abort_message`.
-/

namespace RozeDtm

/-- The branches that `dispatch_message` still has to deliver. -/
def Transaction.undelivered (tx : Transaction) : List Nat :=
  (tx.branches.zipIdx.filter fun (branch, _) => branch.status ≠ .succeeded).map Prod.snd

namespace Dtm

variable (dtm : Dtm)

/-- `prepare_message`. -/
def prepareMessage (gid : String) : Act Transaction := do
  let tx ← transactionOfKind gid .message
  if tx.status = .prepared then
    return tx
  Act.ofExcept (ensureStatus tx [.submitted])
  persistTransaction { tx with status := .prepared }

/-- `for branch in &mut tx.branches` of `dispatch_message`; `tx.status` is `Succeeding`. -/
def dispatchMessageLoop (tx : Transaction) : List Branch → List Branch → Act Transaction
  | passed, [] => persistTransaction { tx with branches := passed, status := .succeeded }
  | passed, branch :: ahead => do
    if branch.status = .succeeded then
      dispatchMessageLoop tx (passed ++ [branch]) ahead
    else
      let barrier : BranchBarrier := ⟨tx.gid, branch.id, "message"⟩
      if (← Store.barrier barrier) = .execute then
        let branch := { branch with
          status := .running, attempts := satAdd32 branch.attempts 1 }
        let (branch, succeeded) ←
          dtm.invokeBranch tx.options tx.gid branch branch.action "message"
        if succeeded then
          dispatchMessageLoop tx
            (passed ++ [{ branch with status := .succeeded, nextRetryMillis := none }]) ahead
        else
          let branch := { branch with status := .failed }
          Store.releaseBarrier barrier
          persistTransaction { tx with branches := passed ++ branch :: ahead }
      else
        dispatchMessageLoop tx (passed ++ [branch]) ahead

/-- The concurrent mode of `dispatch_message`. -/
def dispatchMessageConcurrent (tx : Transaction) : Act Transaction := do
  let ready := tx.undelivered
  if ready.isEmpty then
    persistTransaction { tx with status := .succeeded }
  else
    let ids := (tx.branchesAt ready).map fun (_, branch) => branch.id
    if ← claimBatch tx.gid "message" [] ids then
      let tx := tx.mapBranchesAt ready fun branch =>
        { branch with status := .running, attempts := satAdd32 branch.attempts 1 }
      let tx ← persistTransaction tx
      let tasks := (tx.branchesAt ready).map fun (index, branch) =>
        (⟨index, branch, branchCall tx.options tx.gid branch branch.action "message"⟩ : BatchTask)
      let (tx, failed) ← dtm.runBatch tx.options .succeeded .failed tasks tx
      persistTransaction
        { tx with status := if failed.isEmpty then .succeeded else .succeeding }
    else loadTransaction tx.gid

/-- `dispatch_message`. -/
def dispatchMessage (gid : String) : Act Transaction := do
  let tx ← transactionOfKind gid .message
  if tx.status = .succeeded then
    return tx
  Act.ofExcept (ensureStatus tx [.submitted, .prepared, .succeeding])
  let tx ← if tx.status ≠ .succeeding then persistTransaction { tx with status := .succeeding }
    else pure tx
  let now ← currentMillis
  if !messageDispatchDue tx now then
    return tx
  if tx.options.concurrent then
    dtm.dispatchMessageConcurrent tx
  else
    dtm.dispatchMessageLoop tx [] tx.branches

/-- `abort_message`. -/
def abortMessage (gid : String) : Act Transaction := do
  let tx ← transactionOfKind gid .message
  if tx.status = .aborted then
    return tx
  Act.ofExcept (ensureStatus tx [.submitted, .prepared])
  persistTransaction { tx with
    status := .aborted
    branches := tx.branches.map fun branch =>
      { branch with status := .skipped, nextRetryMillis := none } }

end Dtm

end RozeDtm
