import RozeDtm.Model.Coordinator.Recover

/-!
# The requests of the service

What the compatibility endpoints and the native ones are sent, and the pure functions of the
service's `main.rs` that check a request and build a transaction or a branch from it.

`ServiceLibs` is what the service uses of library code beyond `Libs`.  `now` is the clock value
that `Transaction::new` reads.
-/

namespace RozeDtm

structure CompatSagaCustom where
  concurrent : Bool
  /-- A `BTreeMap`, as its entries in key order. -/
  orders : List (Nat × List Nat)
  deriving DecidableEq

structure CompatMessageCustom where
  delay : Nat
  deriving DecidableEq

/-- The library functions that the service calls. -/
structure ServiceLibs (url : UrlLib) where
  /-- `origin().ascii_serialization()`. -/
  origin : url.Url → String
  path : url.Url → String
  query : url.Url → Option String
  /-- `serde_json::to_string` of a map of texts. -/
  mapToText : Std.ExtTreeMap String String → String
  /-- `serde_json::from_value` at `CompatSagaCustom`. -/
  parseSagaCustom : Json → Except Err CompatSagaCustom
  /-- `serde_json::from_value` at `CompatMessageCustom`. -/
  parseMessageCustom : Json → Except Err CompatMessageCustom
  /-- `serde_json::to_vec` of a payload. -/
  jsonBytes : Json → List UInt8
  /-- `BASE64_STANDARD.encode`. -/
  encodeBase64 : List UInt8 → String

/-! ### Texts -/

/-- `char::is_whitespace`: the characters with the Unicode property `White_Space`. -/
def isWhitespace (c : Char) : Bool :=
  let n := c.toNat
  (0x9 ≤ n && n ≤ 0xd) || n = 0x20 || n = 0x85 || n = 0xa0 || n = 0x1680 ||
    (0x2000 ≤ n && n ≤ 0x200a) || n = 0x2028 || n = 0x2029 || n = 0x202f || n = 0x205f || n = 0x3000

/-- `str::trim`. -/
def trim (s : String) : String :=
  String.ofList (((s.toList.dropWhile isWhitespace).reverse.dropWhile isWhitespace).reverse)

/-- `parse_kind`. -/
def parseKind (value : String) : Except Err TransactionKind :=
  let lower := value.toLower
  if lower = "tcc" then .ok .tcc
  else if lower = "saga" then .ok .saga
  else if lower = "workflow" then .ok .workflow
  else if lower = "message" || lower = "msg" then .ok .message
  else if lower = "xa" then .ok .xa
  else .error "kind must be tcc, saga, workflow, message, or xa"

/-! ### URLs -/

structure BranchUrlPolicy where
  allowedOrigins : Option (Finset String)

/-- `BranchUrlPolicy::allow_all`. -/
def BranchUrlPolicy.allowAll : BranchUrlPolicy := ⟨none⟩

/-- `parse_grpc_callback_target`, as the endpoint. -/
def parseGrpcCallbackTarget {url : UrlLib} (libs : ServiceLibs url) (value : String) :
    Except Err String := do
  ensure (!value.isEmpty && value.utf8ByteSize ≤ 2048) "invalid workflow gRPC callback"
  let (scheme, remainder) :=
    if value.startsWith "grpc://" then ("http", (value.drop "grpc://".length).toString)
    else if value.startsWith "http://" then ("http", (value.drop "http://".length).toString)
    else if value.startsWith "grpcs://" then ("https", (value.drop "grpcs://".length).toString)
    else if value.startsWith "https://" then ("https", (value.drop "https://".length).toString)
    else ("http", value)
  let cs := remainder.toList
  ensure (cs.contains '/') "workflow gRPC callback requires server and method"
  let authority := String.ofList (cs.takeWhile (· ≠ '/'))
  let method := (cs.dropWhile (· ≠ '/')).tail
  ensure (!authority.isEmpty && !method.isEmpty && !method.contains '?' && !method.contains '#' &&
      (method.splitOn '/').all fun segment => !segment.isEmpty)
    "invalid workflow gRPC callback"
  let endpoint := s!"{scheme}://{authority}"
  let parsed ← parseBranchUrl url endpoint
  ensure (libs.path parsed = "/" && (libs.query parsed).isNone) "invalid workflow gRPC callback"
  return endpoint

namespace BranchUrlPolicy

variable {url : UrlLib} (libs : ServiceLibs url) (policy : BranchUrlPolicy)

/-- `BranchUrlPolicy::validate`. -/
def validate (value : String) : Except Err Unit := do
  let u ← parseBranchUrl url value
  match policy.allowedOrigins with
  | some allowedOrigins =>
    ensure (libs.origin u ∈ allowedOrigins) "branch URL origin is not allowed"
  | none => return ()

/-- `BranchUrlPolicy::validate_callback`. -/
def validateCallback (value : String) : Except Err Unit :=
  if value.startsWith "http://" || value.startsWith "https://" then policy.validate libs value
  else do
    let endpoint ← parseGrpcCallbackTarget libs value
    policy.validate libs endpoint

end BranchUrlPolicy

/-- What the handlers of the service share. -/
structure ControlState where
  dtm : Dtm
  libs : ServiceLibs dtm.libs.url
  branchUrlPolicy : BranchUrlPolicy

namespace ControlState

variable (state : ControlState)

/-- The service's policy on a branch URL. -/
def validate (value : String) : Except Err Unit := state.branchUrlPolicy.validate state.libs value

end ControlState

/-! ### Compatibility requests -/

inductive CompatProtocol
  | http
  | jsonRpc
  | grpc
  deriving DecidableEq, Repr

/-- `CompatProtocol::as_str`. -/
def CompatProtocol.asStr : CompatProtocol → String
  | .http => "http"
  | .jsonRpc => "json-rpc"
  | .grpc => "grpc"

inductive CompatOperation
  | prepare
  | submit
  | abort
  deriving DecidableEq, Repr

structure CompatTransactionRequest where
  gid : String
  transType : String
  steps : List (Std.ExtTreeMap String String)
  payloads : List Json
  timeoutToFail : Option Nat
  rollbackReason : Option String
  customData : Option String
  queryPrepared : Option String
  waitResult : Bool
  concurrent : Bool
  retryInterval : Option Nat
  requestTimeout : Option Nat
  retryLimit : Option Nat
  branchHeaders : Std.ExtTreeMap String String
  reqExtra : Std.ExtTreeMap String String
  protocol : CompatProtocol

/-- `CompatTransactionRequest::default`. -/
def CompatTransactionRequest.default : CompatTransactionRequest where
  gid := ""
  transType := ""
  steps := []
  payloads := []
  timeoutToFail := none
  rollbackReason := none
  customData := none
  queryPrepared := none
  waitResult := false
  concurrent := false
  retryInterval := none
  requestTimeout := none
  retryLimit := none
  branchHeaders := ∅
  reqExtra := ∅
  protocol := .http

/-- `.as_deref().filter(|value| !value.is_empty())`. -/
def nonEmpty (o : Option String) : Option String := o.filter fun value => !value.isEmpty

structure CallbackWorkflowCompletion where
  status : TransactionStatus
  rollbackReason : Option String
  result : Option String

/-- `callback_workflow_completion`. -/
def callbackWorkflowCompletion (kind : TransactionKind) (operation : CompatOperation)
    (request : CompatTransactionRequest) : Except Err (Option CallbackWorkflowCompletion) :=
  if kind ≠ .workflow || operation ≠ .submit then .ok none
  else match request.reqExtra["status"]? with
    | none => .ok none
    | some status => do
      let status ←
        if status = "succeed" || status = "succeeded" then .ok TransactionStatus.succeeded
        else if status = "failed" then .ok TransactionStatus.failed
        else .error "callback workflow status must be succeed or failed"
      return some {
        status
        rollbackReason := request.reqExtra["rollback_reason"]?
        result := request.reqExtra["result"]? }

/-- `compat_transaction_options`. -/
def compatTransactionOptions (libs : Libs) (request : CompatTransactionRequest) :
    Except Err TransactionOptions := do
  ensure (request.retryLimit.all fun limit => limit ≤ u32Max)
    "out of range integral type conversion attempted"
  let options : TransactionOptions := {
    waitResult := request.waitResult
    concurrent := request.concurrent
    delayMillis := none
    retryIntervalMillis := request.retryInterval.map fun seconds => satMul64 seconds 1000
    requestTimeoutMillis := request.requestTimeout.map fun seconds => satMul64 seconds 1000
    retryLimit := request.retryLimit
    branchHeaders := request.branchHeaders }
  options.validate libs
  return options

/-- The payload of the step at `index`. -/
def compatPayload (libs : Libs) (request : CompatTransactionRequest) (index : Nat) : Json :=
  match request.payloads[index]? with
  | none => .null
  | some (.str encoded) => (libs.parseJson encoded).toOption.getD (.str encoded)
  | some payload => payload

/-- `step.get(key).context(..)?`. -/
def stepField (step : Std.ExtTreeMap String String) (key : String) : Except Err String :=
  (step[key]?).elim (.error s!"step {key} is required") .ok

namespace ControlState

variable (state : ControlState)

/-- One step of the loop of `compat_transaction`. -/
def compatBranch (kind : TransactionKind) (request : CompatTransactionRequest)
    (step : Std.ExtTreeMap String String) (index : Nat) : Except Err Branch := do
  let id := Dtm.twoDigits (index + 1)
  let payload := compatPayload state.dtm.libs request index
  let action ← stepField step "action"
  if kind ≠ .message || !action.startsWith "topic://" then
    state.validate action
  match kind with
  | .saga => do
    let compensate ← stepField step "compensate"
    state.validate compensate
    return Branch.saga id action compensate payload
  | .workflow => do
    let compensate ← stepField step "compensate"
    state.validate compensate
    let dependencies := if index = 0 then [] else [Dtm.twoDigits index]
    return Branch.workflow id action compensate dependencies payload
  | .message => return Branch.message id action payload
  | .tcc | .xa => .error "tcc and xa branches must be registered dynamically"

/-- `apply_compat_message_custom`. -/
def applyCompatMessageCustom (transaction : Transaction) (request : CompatTransactionRequest) :
    Except Err Transaction :=
  match nonEmpty request.customData with
  | none => .ok transaction
  | some customData => do
    let value ← (state.dtm.libs.parseJson customData).mapError fun _ =>
      "Message custom_data must be valid JSON"
    if (value.get? "delay").isNone then
      return transaction
    let custom ← (state.libs.parseMessageCustom value).mapError fun _ =>
      "Message custom_data.delay must be a non-negative integer"
    if 0 < custom.delay then
      ensure (custom.delay * 1000 ≤ u64Max) "Message delay exceeds the supported range"
      return { transaction with
        options := { transaction.options with delayMillis := some (custom.delay * 1000) } }
    else return transaction

/-- The ids that the entry of `orders` for a branch names. -/
def resolveOrder (branches : List Branch) (branchIndex : Nat) (dependencies : List Nat) :
    Except Err (List String) :=
  dependencies.mapM fun dependencyIndex => do
    ensure (dependencyIndex < branchIndex) "Saga order dependencies must precede their branch"
    return (branches[dependencyIndex]?.map Branch.id).getD ""

/-- `for (branch_index, dependencies) in custom.orders`. -/
def applyOrders : List Branch → List (Nat × List Nat) → Except Err (List Branch)
  | branches, [] => .ok branches
  | branches, (branchIndex, dependencies) :: rest => do
    ensure (branchIndex < branches.length) "Saga order branch index is out of range"
    let resolved ← resolveOrder branches branchIndex dependencies
    applyOrders (branches.modify branchIndex fun b => { b with dependencies := resolved }) rest

/-- `apply_compat_saga_custom`. -/
def applyCompatSagaCustom (transaction : Transaction) (request : CompatTransactionRequest) :
    Except Err Transaction :=
  match nonEmpty request.customData with
  | none => .ok transaction
  | some customData =>
    match state.dtm.libs.parseJson customData with
    | .error _ => .ok transaction
    | .ok value => do
      if (value.get? "concurrent").isNone && (value.get? "orders").isNone then
        return transaction
      let custom ← (state.libs.parseSagaCustom value).mapError fun _ =>
        "Saga custom_data must contain valid concurrent options"
      ensure (custom.concurrent || custom.orders.isEmpty) "Saga orders require concurrent=true"
      let branches ← applyOrders transaction.branches custom.orders
      return { transaction with
        branches
        options := { transaction.options with concurrent := custom.concurrent } }

/-- `compat_transaction`. -/
def compatTransaction (now : Nat) (kind : TransactionKind) (request : CompatTransactionRequest) :
    Except Err Transaction := do
  let branches ← request.steps.zipIdx.mapM fun (step, index) =>
    state.compatBranch kind request step index
  let transaction := match kind with
    | .tcc => Transaction.new now request.gid .tcc []
    | .xa => Transaction.new now request.gid .xa []
    | .saga => Transaction.new now request.gid .saga branches
    | .workflow => Transaction.new now request.gid .workflow branches
    | .message => Transaction.new now request.gid .message branches
  let options ← compatTransactionOptions state.dtm.libs request
  let transaction := { transaction with options }
  match kind with
  | .saga => state.applyCompatSagaCustom transaction request
  | .message => state.applyCompatMessageCustom transaction request
  | _ => return transaction

/-- Write a value under a key, if there is one. -/
def putSome (metadata : Std.ExtTreeMap String String) (key : String) (value : Option String) :
    Std.ExtTreeMap String String :=
  value.elim metadata fun value => metadata.insert key value

/-- `preserve_compat_metadata`. -/
def preserveCompatMetadata (transaction : Transaction) (request : CompatTransactionRequest) :
    Transaction :=
  let metadata := putSome transaction.metadata "dtm.custom_data" (nonEmpty request.customData)
  let metadata := putSome metadata "dtm.query_prepared" (nonEmpty request.queryPrepared)
  let metadata := metadata.insert "dtm.wait_result" (toString request.waitResult)
  let metadata := metadata.insert "dtm.protocol" request.protocol.asStr
  let metadata := putSome metadata "dtm.retry_interval" (request.retryInterval.map toString)
  let metadata := putSome metadata "dtm.request_timeout" (request.requestTimeout.map toString)
  let metadata := putSome metadata "dtm.retry_limit" (request.retryLimit.map toString)
  let metadata := if request.branchHeaders.isEmpty then metadata else
    metadata.insert "dtm.branch_headers" (state.libs.mapToText request.branchHeaders)
  let metadata := if request.reqExtra.isEmpty then metadata else
    metadata.insert "dtm.req_extra" (state.libs.mapToText request.reqExtra)
  { transaction with metadata }

/-- `if let Some(seconds) = request.timeout_to_fail`. -/
def withCompatTimeout (transaction : Transaction) (request : CompatTransactionRequest) :
    Transaction :=
  match request.timeoutToFail with
  | some seconds => { transaction with timeoutMillis := some (satMul64 seconds 1000) }
  | none => transaction

/-- `if let Some(reason) = request.rollback_reason`. -/
def withRollbackReason (transaction : Transaction) (request : CompatTransactionRequest) :
    Transaction :=
  match request.rollbackReason with
  | some reason =>
    { transaction with metadata := transaction.metadata.insert "rollback_reason" reason }
  | none => transaction

/-- The transaction that `compat_apply` submits. -/
def compatSubmission (now : Nat) (kind : TransactionKind) (request : CompatTransactionRequest) :
    Except Err Transaction := do
  let transaction ← state.compatTransaction now kind request
  let transaction := withCompatTimeout transaction request
  let transaction := state.preserveCompatMetadata transaction request
  if kind = .workflow && (nonEmpty request.queryPrepared).isSome then
    let callback ← workflowCallbackRequest state.dtm.libs transaction
    state.branchUrlPolicy.validateCallback state.libs callback.url
  return withRollbackReason transaction request

end ControlState

/-! ### Registrations -/

structure CompatBranchRequest where
  gid : String
  transType : String
  branchId : String
  data : Option String
  op : Option String
  status : Option String
  confirm : Option String
  cancel : Option String
  url : Option String
  binaryData : Option (List UInt8)

inductive CompatRegistration
  | branch (branch : Branch)
  | workflow (progress : WorkflowProgress)
  deriving DecidableEq

/-- `option.context(..)?`. -/
def require {α : Type} (o : Option α) (context : Err) : Except Err α := o.elim (.error context) .ok

/-- `compat_registration_from_request`. -/
def ControlState.compatRegistrationFromRequest (state : ControlState)
    (request : CompatBranchRequest) : Except Err CompatRegistration := do
  let kind ← parseKind request.transType
  if kind = .workflow then
    let status ← match request.status with
      | some "succeed" | some "succeeded" => .ok WorkflowProgressStatus.succeeded
      | some "failed" => .ok WorkflowProgressStatus.failed
      | _ => .error "workflow progress status must be succeed or failed"
    let data := (request.binaryData.or
      (request.data.map fun data => data.toUTF8.toList)).getD []
    let operation ← require request.op "workflow progress operation is required"
    let progress : WorkflowProgress := { branchId := request.branchId, operation, status, data }
    progress.validate
    return .workflow progress
  let payload := (request.data.bind fun data =>
    (state.dtm.libs.parseJson data).toOption).getD .null
  match kind with
  | .tcc => do
    let confirm ← require request.confirm "TCC confirm URL is required"
    let cancel ← require request.cancel "TCC cancel URL is required"
    ensure ((state.validate confirm).isOk && (state.validate cancel).isOk)
      "branch URL is not allowed"
    return .branch { Branch.tccTry request.branchId "" confirm cancel payload with
      status := .succeeded }
  | .xa => do
    let url ← require request.url "XA phase2 URL is required"
    ensure (state.validate url).isOk "branch URL is not allowed"
    return .branch (Branch.xa request.branchId url url payload)
  | _ => .error "dynamic registration supports tcc and xa"

/-! ### Native requests -/

structure BranchRequest where
  id : String
  kind : Option BranchKind
  action : String
  compensate : Option String
  confirm : Option String
  cancel : Option String
  payload : Json
  dependencies : List String

structure SubmitTransactionRequest where
  gid : String
  kind : Option TransactionKind
  branches : List BranchRequest
  timeoutMillis : Option Nat
  metadata : Std.ExtTreeMap String String
  options : TransactionOptions

namespace ControlState

variable (state : ControlState)

/-- `.filter(|url| branch_url_policy.validate(url).is_ok())`. -/
def allowed (url : Option String) : Option String := url.filter fun url => (state.validate url).isOk

/-- The branch that `build_transaction` builds for a kind. -/
def nativeBranch (kind : TransactionKind) (branch : BranchRequest) : Except Err Branch :=
  match kind with
  | .tcc => do
    ensure (branch.kind.all fun kind => kind = .tccTry) "TCC branches must use TccTry kind"
    match state.allowed branch.confirm, state.allowed branch.cancel with
    | some confirm, some cancel =>
      return Branch.tccTry branch.id branch.action confirm cancel branch.payload
    | _, _ => .error "TCC branches require valid confirm and cancel URLs"
  | .saga => do
    ensure (branch.kind.all fun kind => kind = .sagaAction) "Saga branches must use SagaAction kind"
    let compensate ← require (state.allowed branch.compensate)
      "Saga branches require a valid compensate URL"
    return { Branch.saga branch.id branch.action compensate branch.payload with
      dependencies := branch.dependencies }
  | .workflow => do
    let compensate ← require (state.allowed branch.compensate)
      "Workflow branches require a valid compensate URL"
    return Branch.workflow branch.id branch.action compensate branch.dependencies branch.payload
  | .message => do
    ensure branch.dependencies.isEmpty "Message branches do not support dependencies"
    return Branch.message branch.id branch.action branch.payload
  | .xa => do
    let rollback ← require (state.allowed (branch.cancel.or branch.compensate))
      "XA branches require a valid rollback URL"
    return Branch.xa branch.id branch.action rollback branch.payload

/-- The loop of `build_transaction`; `ids` are those that were inserted. -/
def nativeBranches (kind : TransactionKind) : List String → List BranchRequest →
    Except Err (List Branch)
  | _, [] => .ok []
  | ids, branch :: rest => do
    let actionIsTopic := kind = .message && branch.action.startsWith "topic://" &&
      "topic://".utf8ByteSize < branch.action.utf8ByteSize
    ensure (!((trim branch.id).isEmpty || 128 < branch.id.utf8ByteSize || ids.contains branch.id ||
        (!actionIsTopic && !(state.validate branch.action).isOk)))
      "branch id or action URL is invalid"
    let built ← state.nativeBranch kind branch
    return built :: (← nativeBranches kind (branch.id :: ids) rest)

/-- `build_transaction`. -/
def buildTransaction (now : Nat) (kind : TransactionKind) (request : SubmitTransactionRequest) :
    Except Err Transaction := do
  let gid := trim request.gid
  ensure (!(gid.isEmpty || 128 < gid.utf8ByteSize)) "gid must contain between 1 and 128 bytes"
  ensure (request.kind.all fun requestKind => requestKind = kind)
    "transaction kind does not match endpoint"
  ensure (!(request.branches.isEmpty || 100 < request.branches.length))
    "branches must contain between 1 and 100 items"
  ensure (!(32 < request.metadata.size || request.metadata.toList.any fun (key, value) =>
      key.isEmpty || 64 < key.utf8ByteSize || 256 < value.utf8ByteSize))
    "metadata exceeds bounded key or value limits"
  let branches ← state.nativeBranches kind [] request.branches
  let transaction := { Transaction.new now gid kind branches with metadata := request.metadata }
  ensure (request.options.validate state.dtm.libs).isOk "transaction options are invalid"
  ensure (kind = .message || request.options.delayMillis.isNone)
    "delay_millis is only supported by Message transactions"
  let transaction := { transaction with options := request.options }
  ensure (validateTransactionDependencies transaction).isOk
    "concurrent options or Saga dependencies are invalid"
  match request.timeoutMillis with
  | some timeout =>
    ensure (1000 ≤ timeout && timeout ≤ 86400000)
      "timeout_millis must be between 1000 and 86400000"
    return { transaction with timeoutMillis := some timeout }
  | none => return transaction

end ControlState

end RozeDtm
