import RozeDtm.Model.Service.Request
import RozeDtm.Model.System

/-!
# The operations of the service

`compat_apply`, the registration of branches and the native submission as programs over the
store, and the view of the branches that the compatibility query gives.
-/

namespace RozeDtm

open Conc

namespace ControlState

variable (state : ControlState)

/-- `callback_workflow` of `compat_apply`. -/
def isCallbackRequest (kind : TransactionKind) (request : CompatTransactionRequest)
    (existing : Option Transaction) : Bool :=
  kind = .workflow && ((nonEmpty request.queryPrepared).isSome ||
    existing.any fun transaction => transaction.branches.isEmpty &&
      (transaction.metadata["dtm.query_prepared"]?).any fun value => !value.isEmpty)

/-- The last `match` of `compat_apply`. -/
def compatOperate (kind : TransactionKind) (operation : CompatOperation) (gid : String) :
    Act Transaction :=
  match kind, operation with
  | .tcc, .prepare => state.dtm.prepareTcc gid
  | .tcc, .submit => state.dtm.confirmTcc gid
  | .tcc, .abort => state.dtm.cancelTcc gid
  | .xa, .prepare => Dtm.prepareXa gid
  | .xa, .submit => state.dtm.commitXa gid
  | .xa, .abort => state.dtm.rollbackXa gid
  | .message, .prepare => Dtm.prepareMessage gid
  | .message, .submit => state.dtm.dispatchMessage gid
  | .message, .abort => Dtm.abortMessage gid
  | .saga, .submit => state.dtm.startSaga gid
  | .saga, .abort => state.dtm.abortSaga gid
  | .workflow, .submit => state.dtm.startWorkflow gid
  | .workflow, .abort => state.dtm.abortWorkflow gid
  | .workflow, .prepare => Dtm.prepareWorkflow gid
  | .saga, .prepare => do Act.ofOption (← Store.getTransaction gid) "transaction not found"

/-- What `compat_apply` does with the transaction once it is there. -/
def compatDispatch (kind : TransactionKind) (operation : CompatOperation) (waitResult : Bool)
    (callbackCompletion : Option CallbackWorkflowCompletion) (gid : String) : Act Transaction :=
  match callbackCompletion with
  | some completion =>
    finishCallbackWorkflow gid completion.status completion.rollbackReason completion.result
  | none =>
    match waitResult, operation with
    | false, .submit => Dtm.scheduleSubmit gid
    | false, .abort => Dtm.scheduleAbort gid
    | _, _ => state.compatOperate kind operation gid

/-- `compat_apply`. -/
def compatApply (request : CompatTransactionRequest) (operation : CompatOperation) :
    Act Transaction := do
  let kind ← Act.ofExcept (parseKind request.transType)
  let gid := trim request.gid
  let callbackCompletion ← Act.ofExcept (callbackWorkflowCompletion kind operation request)
  Act.ofExcept (ensure (!gid.isEmpty && gid.utf8ByteSize ≤ 128) "invalid gid")
  let existing ← Store.getTransaction gid
  Act.ofExcept (ensure (callbackCompletion.isNone || existing.isSome)
    "callback workflow must be prepared before completion")
  Act.ofExcept (ensure (!isCallbackRequest kind request existing || operation ≠ .submit ||
      callbackCompletion.isSome)
    "callback workflow completion status is required")
  if existing.isNone then
    let now ← currentMillis
    let transaction ← Act.ofExcept (state.compatSubmission now kind request)
    let _ ← state.dtm.submit transaction
  state.compatDispatch kind operation request.waitResult callbackCompletion gid

/-- `apply_compat_registration`. -/
def applyCompatRegistration (gid : String) (registration : CompatRegistration) :
    Act Transaction := do
  Act.ofExcept (ensure (!gid.isEmpty && gid.utf8ByteSize ≤ 128) "invalid gid")
  match registration with
  | .branch branch => Store.registerBranch gid branch
  | .workflow progress => Store.recordWorkflowProgress gid progress

/-- `compat_register_branch` and `registerBranch`. -/
def compatRegisterBranch (request : CompatBranchRequest) : Act Transaction := do
  let registration ← Act.ofExcept (state.compatRegistrationFromRequest request)
  applyCompatRegistration request.gid registration

/-- `submit_transaction`. -/
def submitTransaction (kind : TransactionKind) (request : SubmitTransactionRequest) :
    Act Transaction := do
  let now ← currentMillis
  let transaction ← Act.ofExcept (state.buildTransaction now kind request)
  state.dtm.submit transaction

end ControlState

/-! ### The operations -/

/-- What can be asked of the service.  `coordinator` are its requests that go to the
coordinator as they are: the native transitions, the recovery and the ticks. -/
inductive ServiceOperation
  | compatApply (request : CompatTransactionRequest) (operation : CompatOperation)
  | registerBranch (request : CompatBranchRequest)
  | submitTransaction (kind : TransactionKind) (request : SubmitTransactionRequest)
  | coordinator (op : Operation) (served : op.registers = false)

/-- One transaction as the answer. -/
def ServiceOperation.one (x : Act Transaction) : Act (List Transaction) := do
  let transaction ← x
  return [transaction]

/-- The program of an operation of the service. -/
def ServiceOperation.act (state : ControlState) : ServiceOperation → Act (List Transaction)
  | .compatApply request operation => one (state.compatApply request operation)
  | .registerBranch request => one (state.compatRegisterBranch request)
  | .submitTransaction kind request => one (state.submitTransaction kind request)
  | .coordinator op _ => op.act state.dtm

/-- The same as a program of atomic steps. -/
def ServiceOperation.prog (state : ControlState) (op : ServiceOperation) :
    Prog effects (Except Err (List Transaction)) := (op.act state).run

/-- The programs of the operations of the service that are in `ops`. -/
def ControlState.Programs (state : ControlState) (ops : ServiceOperation → Prop) :
    Prog effects (Except Err (List Transaction)) → Prop :=
  fun p => ∃ op, ops op ∧ p = op.prog state

/-! ### The compatibility query -/

structure CompatBranchTransaction where
  id : Nat
  createTime : String
  updateTime : String
  gid : String
  url : String
  binData : String
  branchId : String
  op : String
  status : String
  finishTime : Option String
  rollbackTime : Option String
  deriving DecidableEq

/-- `workflow_progress_status_name`. -/
def workflowProgressStatusName : WorkflowProgressStatus → String
  | .succeeded => "succeed"
  | .failed => "failed"

/-- `{:0width$}`. -/
def zeroPadded (width n : Nat) : String :=
  let digits := toString n
  "".pushn '0' (width - digits.length) ++ digits

/-- `compat_rfc3339`.  The days are counted from a first of March, so that a leap day is the
last of its year. -/
def compatRfc3339 (millis : Nat) : String :=
  let seconds := millis / 1000
  let milliseconds := millis % 1000
  let secondsOfDay := seconds % 86400
  let z := seconds / 86400 + 719468
  let era := z / 146097
  let dayOfEra := z - era * 146097
  let yearOfEra := (dayOfEra - dayOfEra / 1460 + dayOfEra / 36524 - dayOfEra / 146096) / 365
  let dayOfYear := dayOfEra - (365 * yearOfEra + yearOfEra / 4 - yearOfEra / 100)
  let monthPrime := (5 * dayOfYear + 2) / 153
  let day := dayOfYear - (153 * monthPrime + 2) / 5 + 1
  let month := if monthPrime < 10 then monthPrime + 3 else monthPrime - 9
  let year := yearOfEra + era * 400 + if month ≤ 2 then 1 else 0
  let date := s!"{zeroPadded 4 year}-{zeroPadded 2 month}-{zeroPadded 2 day}"
  let hour := zeroPadded 2 (secondsOfDay / 3600)
  let minute := zeroPadded 2 (secondsOfDay % 3600 / 60)
  let second := zeroPadded 2 (secondsOfDay % 60)
  let time := s!"{hour}:{minute}:{second}"
  if milliseconds = 0 then s!"{date}T{time}Z" else s!"{date}T{time}.{zeroPadded 3 milliseconds}Z"

/-- `compat_branch_operations`: the operations of a branch, with their URLs. -/
def compatBranchOperations (kind : TransactionKind) (branch : Branch) : List (String × String) :=
  match kind with
  | .saga => [("compensate", branch.compensate.getD ""), ("action", branch.action)]
  | .tcc => [("cancel", branch.cancel.getD ""), ("confirm", branch.confirm.getD "")]
  | .xa => [("rollback", branch.cancel.getD ""), ("commit", branch.confirm.getD "")]
  | .message => [("action", branch.action)]
  | .workflow => []

/-- `compat_branch_status`. -/
def compatBranchStatus (transactionStatus : TransactionStatus) (branchStatus : BranchStatus)
    (op : String) : String :=
  if branchStatus = .failed then "failed"
  else
    let commitOperation := ["action", "confirm", "commit"].contains op
    let rollbackOperation := ["compensate", "cancel", "rollback"].contains op
    let successfulOperation :=
      if transactionStatus = .aborting || transactionStatus = .aborted then rollbackOperation
      else commitOperation
    if branchStatus = .succeeded && successfulOperation then "succeed" else "prepared"

namespace ControlState

variable (state : ControlState)

/-- What the view says of one operation of a branch. -/
def compatBranchTransaction (transaction : Transaction) (branch : Branch) (op url : String) :
    CompatBranchTransaction :=
  let status := compatBranchStatus transaction.status branch.status op
  let terminal := if status = "succeed" || status = "failed" then
    some (compatRfc3339 transaction.updatedAtMillis) else none
  { id := 0
    createTime := compatRfc3339 transaction.createdAtMillis
    updateTime := compatRfc3339 transaction.updatedAtMillis
    gid := transaction.gid
    url
    binData := state.libs.encodeBase64 (state.libs.jsonBytes branch.payload)
    branchId := branch.id
    op
    status
    finishTime := terminal
    rollbackTime := if ["compensate", "cancel", "rollback"].contains op then terminal else none }

/-- `compat_branch_transactions`. -/
def compatBranchTransactions (transaction : Transaction) : List CompatBranchTransaction :=
  if transaction.kind = .workflow then
    transaction.workflowProgresses.map fun progress => {
      id := 0
      createTime := compatRfc3339 transaction.createdAtMillis
      updateTime := compatRfc3339 transaction.updatedAtMillis
      gid := transaction.gid
      url := ""
      binData := state.libs.encodeBase64 progress.data
      branchId := progress.branchId
      op := progress.operation
      status := workflowProgressStatusName progress.status
      finishTime := some (compatRfc3339 transaction.updatedAtMillis)
      rollbackTime := none }
  else
    transaction.branches.flatMap fun branch =>
      (compatBranchOperations transaction.kind branch).map fun (op, url) =>
        state.compatBranchTransaction transaction branch op url

end ControlState

/-! ### The next retry that the views show -/

/-- The earliest retry time of a branch, as the compatibility query and the listing show it. -/
def nextRetryMillis (transaction : Transaction) : Option Nat :=
  (transaction.branches.filterMap Branch.nextRetryMillis).min?

/-- `dashboard_next_retry_millis`. -/
def dashboardNextRetryMillis (transaction : Transaction) : Option Nat :=
  let messageDelivery :=
    if transaction.kind = .message && transaction.status = .succeeding &&
        transaction.branches.all fun branch => branch.attempts = 0 then
      transaction.options.delayMillis.map fun delay => satAdd64 transaction.createdAtMillis delay
    else none
  match nextRetryMillis transaction, messageDelivery with
  | some branch, some delivery => some (min branch delivery)
  | some branch, none => some branch
  | none, some delivery => some delivery
  | none, none => none

/-! ### Runs on small inputs -/

/-- Library functions for runs on small inputs. -/
def ServiceLibs.plain : ServiceLibs Libs.plain.url where
  origin := fun _ => ""
  path := fun _ => "/"
  query := fun _ => none
  mapToText := fun _ => ""
  parseSagaCustom := fun _ => .error ""
  parseMessageCustom := fun _ => .error ""
  jsonBytes := fun _ => []
  encodeBase64 := fun _ => ""

/-- A service over these that allows every URL. -/
def ControlState.plain : ControlState := ⟨Dtm.plain, .plain, .allowAll⟩

/-- A run of operations of the service in `ops`, computed from its moves. -/
theorem ControlState.exists_run {C : Type} (M : Machine effects World C)
    [∀ o w, Decidable (M.allow o w)] (state : ControlState) (ops : ServiceOperation → Prop)
    (w : World) (moves : List (Move ServiceOperation C)) (φ : World → Bool)
    (hops : ∀ op, Move.start op ∈ moves → ops op)
    (h : ((M.performAll? (ServiceOperation.prog state) (Pool.idle w) moves).any
      fun P => φ P.world) = true) :
    ∃ P : System, M.Reaches (state.Programs ops) w P ∧ φ P.world = true :=
  Machine.exists_of_performAll? hops h

end RozeDtm
