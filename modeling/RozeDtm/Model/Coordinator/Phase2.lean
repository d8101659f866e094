import RozeDtm.Model.Coordinator.Common

/-!
# TCC and XA operations

`prepare_tcc`, `confirm_tcc`, `cancel_tcc`, `prepare_xa`, `commit_xa` and
`rollback_xa`.  The loops of `confirm_tcc`, `commit_xa` and `rollback_xa` are the
same but for the operation name, the URL and the statuses they leave behind, and
are one definition here (`phase2Loop`).  The loop of `cancel_tcc` has a case of its
own for a null compensation.
-/

namespace RozeDtm

namespace Dtm

variable (dtm : Dtm)

/-! ### Try -/

/-- `for branch in &mut tx.branches` of `prepare_tcc`; `tx.status` is `Trying`. -/
def prepareTccLoop (tx : Transaction) : List Branch → List Branch → Act Transaction
  | passed, [] => persistTransaction { tx with branches := passed, status := .prepared }
  | passed, branch :: ahead => do
    if branch.status = .succeeded then
      prepareTccLoop tx (passed ++ [branch]) ahead
    else
      let barrier : BranchBarrier := ⟨tx.gid, branch.id, "try"⟩
      match ← Store.barrier barrier with
      | .execute =>
        let branch := { branch with
          status := .running, attempts := satAdd32 branch.attempts 1 }
        let (branch, succeeded) ← dtm.invokeBranch tx.options tx.gid branch branch.action "try"
        if succeeded then
          prepareTccLoop tx
            (passed ++ [{ branch with status := .succeeded, nextRetryMillis := none }]) ahead
        else
          let branch := { branch with status := .failed }
          Store.releaseBarrier barrier
          let status := if dtm.maxAttempts tx.options ≤ branch.attempts then .aborting
            else tx.status
          persistTransaction { tx with branches := passed ++ branch :: ahead, status := status }
      | .skipCancelledTry =>
        let branch := { branch with status := .skipped, nextRetryMillis := none }
        persistTransaction
          { tx with branches := passed ++ branch :: ahead, status := .aborting }
      | .skipDuplicate => prepareTccLoop tx (passed ++ [branch]) ahead
      | .skipNullCompensation => throw "TCC try is not a compensation operation"

/-- `prepare_tcc`. -/
def prepareTcc (gid : String) : Act Transaction := do
  let tx ← loadTransaction gid
  Act.ofExcept (ensureKind tx .tcc)
  if tx.status = .prepared then
    return tx
  Act.ofExcept (ensureStatus tx [.submitted, .trying])
  dtm.prepareTccLoop { tx with status := .trying } [] tx.branches

/-! ### The second phase -/

/-- `for branch in &mut tx.branches` of `confirm_tcc`, `commit_xa` and `rollback_xa`:
the branches whose barrier `op` is free are called at `url`.  A branch that was
called gets `onOk`, and the transaction gets `final` at the end of the loop. -/
def phase2Loop (op : String) (url : Branch → Except Err String) (onOk : BranchStatus)
    (final : TransactionStatus) (tx : Transaction) :
    List Branch → List Branch → Act Transaction
  | passed, [] => persistTransaction { tx with branches := passed, status := final }
  | passed, branch :: ahead => do
    let barrier : BranchBarrier := ⟨tx.gid, branch.id, op⟩
    if (← Store.barrier barrier) = .execute then
      let target ← Act.ofExcept (url branch)
      let branch := { branch with attempts := satAdd32 branch.attempts 1 }
      let (branch, succeeded) ← dtm.invokeBranch tx.options tx.gid branch target op
      if succeeded then
        phase2Loop op url onOk final tx
          (passed ++ [{ branch with status := onOk, nextRetryMillis := none }]) ahead
      else
        let branch := { branch with status := .failed }
        Store.releaseBarrier barrier
        persistTransaction { tx with branches := passed ++ branch :: ahead }
    else
      phase2Loop op url onOk final tx (passed ++ [branch]) ahead

/-- The URL that `confirm_tcc` calls. -/
def confirmUrl (branch : Branch) : Except Err String :=
  branch.confirm.elim (.error s!"missing confirm action for branch {branch.id}") .ok

/-- `confirm_tcc`. -/
def confirmTcc (gid : String) : Act Transaction := do
  let tx ← loadTransaction gid
  Act.ofExcept (ensureKind tx .tcc)
  if tx.status = .succeeded then
    return tx
  Act.ofExcept (ensureStatus tx [.prepared, .succeeding])
  dtm.phase2Loop "confirm" confirmUrl .succeeded .succeeded { tx with status := .succeeding }
    [] tx.branches

/-- The URL that `cancel_tcc` calls. -/
def cancelUrl (branch : Branch) : Except Err String :=
  (branch.cancel.or branch.compensate).elim
    (.error s!"missing cancel action for branch {branch.id}") .ok

/-- `should_invoke_cancel`: clients that run Try themselves leave no Try barrier, and
register their branches with an empty action. -/
def shouldInvokeCancel (branch : Branch) (decision : BarrierDecision) : Bool :=
  decision = .execute || branch.action.isEmpty && decision = .skipNullCompensation

/-- `for branch in &mut tx.branches` of `cancel_tcc`; `tx.status` is `Aborting`. -/
def cancelTccLoop (tx : Transaction) : List Branch → List Branch → Act Transaction
  | passed, [] => persistTransaction { tx with branches := passed, status := .aborted }
  | passed, branch :: ahead => do
    let barrier : BranchBarrier := ⟨tx.gid, branch.id, "cancel"⟩
    let decision ← Store.barrier barrier
    if shouldInvokeCancel branch decision then
      let target ← Act.ofExcept (cancelUrl branch)
      let branch := { branch with attempts := satAdd32 branch.attempts 1 }
      let (branch, succeeded) ← dtm.invokeBranch tx.options tx.gid branch target "cancel"
      if succeeded then
        cancelTccLoop tx
          (passed ++ [{ branch with status := .skipped, nextRetryMillis := none }]) ahead
      else
        let branch := { branch with status := .failed }
        Store.releaseBarrier barrier
        persistTransaction { tx with branches := passed ++ branch :: ahead }
    else
      match decision with
      | .execute => throw "TCC cancel execution handled above"
      | .skipNullCompensation =>
        cancelTccLoop tx
          (passed ++ [{ branch with status := .skipped, nextRetryMillis := none }]) ahead
      | .skipDuplicate => cancelTccLoop tx (passed ++ [branch]) ahead
      | .skipCancelledTry => throw "TCC cancel is not a try operation"

/-- `cancel_tcc`. -/
def cancelTcc (gid : String) : Act Transaction := do
  let tx ← loadTransaction gid
  Act.ofExcept (ensureKind tx .tcc)
  if tx.status = .aborted then
    return tx
  Act.ofExcept (ensureStatus tx [.submitted, .trying, .prepared, .aborting])
  dtm.cancelTccLoop { tx with status := .aborting } [] tx.branches

/-! ### XA -/

/-- `prepare_xa`. -/
def prepareXa (gid : String) : Act Transaction := do
  let tx ← transactionOfKind gid .xa
  if tx.status = .prepared then
    return tx
  Act.ofExcept (ensureStatus tx [.submitted])
  persistTransaction { tx with status := .prepared }

/-- The URL that `commit_xa` calls. -/
def commitUrl (gid : String) (branch : Branch) : Except Err String := do
  let commit ← branch.confirm.elim (.error s!"missing XA commit URL for {branch.id}") .ok
  xaPhase2CallbackUrl dtm.libs.url commit gid branch.id "commit"

/-- `commit_xa`. -/
def commitXa (gid : String) : Act Transaction := do
  let tx ← transactionOfKind gid .xa
  if tx.status = .succeeded then
    return tx
  Act.ofExcept (ensureStatus tx [.prepared, .succeeding])
  dtm.phase2Loop "commit" (dtm.commitUrl tx.gid) .succeeded .succeeded
    { tx with status := .succeeding } [] tx.branches

/-- The URL that `rollback_xa` calls. -/
def rollbackUrl (gid : String) (branch : Branch) : Except Err String := do
  let rollback ← branch.cancel.elim (.error s!"missing XA rollback URL for {branch.id}") .ok
  xaPhase2CallbackUrl dtm.libs.url rollback gid branch.id "rollback"

/-- `rollback_xa`. -/
def rollbackXa (gid : String) : Act Transaction := do
  let tx ← transactionOfKind gid .xa
  if tx.status = .aborted then
    return tx
  Act.ofExcept (ensureStatus tx [.submitted, .prepared, .aborting])
  dtm.phase2Loop "rollback" (dtm.rollbackUrl tx.gid) .skipped .aborted
    { tx with status := .aborting } [] tx.branches

end Dtm

end RozeDtm
