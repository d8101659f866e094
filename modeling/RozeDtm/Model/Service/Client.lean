import RozeDtm.Codec.Base64
import RozeDtm.Codec.JsonText
import RozeDtm.Model.Service.Kv

/-!
# The client of callback Workflows

What `DtmHttpClient` sends for a callback Workflow, what the service makes of it, the answer of
`compat_workflow_response`, and how the client reads it.  A request is the structure that its body
is printed from and read back to, an answer the `serde_json::Value`.
-/

namespace RozeDtm

open Codec

/-! ### Requests -/

/-- `json!({..}).to_string()` of an object of texts. -/
def objectText (entries : List (String × String)) : String :=
  String.ofList (JsonText.objectChars (entries.map fun (key, value) => (key.toList, value.toList)))

namespace DtmHttpClient

/-- `prepare_callback_workflow`: the body that is posted to `prepareWorkflow`. -/
def prepareCallbackWorkflow (gid queryPrepared customData : String) : CompatTransactionRequest :=
  { CompatTransactionRequest.default with
    gid
    transType := "workflow"
    queryPrepared := some queryPrepared
    customData := some customData }

/-- `prepare_named_callback_workflow`. -/
def prepareNamedCallbackWorkflow (gid queryPrepared workflowName : String) (data : List UInt8) :
    Except Err CompatTransactionRequest := do
  ensure (!workflowName.isEmpty && workflowName.utf8ByteSize ≤ 128)
    "callback workflow name must contain 1 to 128 bytes"
  ensure (data.length ≤ 2 * 1024 * 1024) "callback workflow data exceeds 2 MiB"
  -- the object keeps its entries in key order
  let customData := objectText [("data", Base64.encode data), ("name", workflowName)]
  return prepareCallbackWorkflow gid queryPrepared customData

/-- The status of a progress or a completion in a request. -/
def statusText : WorkflowProgressStatus → String
  | .succeeded => "succeed"
  | .failed => "failed"

/-- `record_callback_workflow_progress`: the body that is posted to `registerBranch`. -/
def recordCallbackWorkflowProgress (gid branchId operation : String)
    (status : WorkflowProgressStatus) (data : List UInt8) : Except Err CompatBranchRequest := do
  let data ← (String.fromUTF8? ⟨data.toArray⟩).elim
    (.error "HTTP callback workflow progress data must be UTF-8; use gRPC for binary data") .ok
  return {
    gid
    transType := "workflow"
    branchId
    data := some data
    op := some operation
    status := some (statusText status)
    confirm := none
    cancel := none
    url := none
    binaryData := none }

/-- `finish_callback_workflow`: the body that is posted to `submit`. -/
def finishCallbackWorkflow (gid : String) (status : WorkflowProgressStatus)
    (rollbackReason : String) (result : List UInt8) : CompatTransactionRequest :=
  { CompatTransactionRequest.default with
    gid
    transType := "workflow"
    reqExtra := (((∅ : Std.ExtTreeMap String String).insert "status" (statusText status)).insert
      "rollback_reason" rollbackReason).insert "result" (Base64.encode result) }

end DtmHttpClient

/-- `compat_prepare_workflow`, up to the answer. -/
def ControlState.compatPrepareWorkflow (state : ControlState) (request : CompatTransactionRequest) :
    Act Transaction :=
  state.compatApply { request with transType := "workflow" } .prepare

/-! ### The answer -/

/-- `compat_workflow_status_name`. -/
def compatWorkflowStatusName : TransactionStatus → String
  | .submitted | .trying | .succeeding => "submitted"
  | .prepared => "prepared"
  | .succeeded => "succeed"
  | .aborting => "aborting"
  | .aborted | .failed => "failed"

/-- A progress in the answer. -/
def compatProgress (progress : WorkflowProgress) : Json :=
  .obj [("bin_data", .str (Base64.encode progress.data)), ("branch_id", .str progress.branchId),
    ("op", .str progress.operation), ("status", .str (workflowProgressStatusName progress.status))]

/-- `compat_workflow_response`. -/
def compatWorkflowResponse (transaction : Transaction) : Json :=
  let rollbackReason := (transaction.metadata["rollback_reason"]?).getD ""
  let result := (transaction.metadata["dtm.workflow.result"]?).getD ""
  .obj [("dtm_result", .str "SUCCESS"),
    ("progresses", .arr (transaction.workflowProgresses.map compatProgress)),
    ("transaction", .obj [("gid", .str transaction.gid),
      ("result", .str result),
      ("rollback_reason", .str rollbackReason),
      ("status", .str (compatWorkflowStatusName transaction.status))])]

/-! ### Reading the answer -/

/-- The entries of a structure of `serde`: of an object as they are, of an array by position. -/
def structEntries (names : List String) : Json → Except Err (List (String × Json))
  | .obj entries => .ok entries
  | .arr items =>
    if items.length ≤ names.length then .ok (names.zip items) else .error "invalid length"
  | _ => .error "invalid type, expected a structure"

/-- The field of this name, which must not come twice. -/
def structField (entries : List (String × Json)) (name : String) : Except Err (Option Json) :=
  match entries.filter fun entry => entry.1 = name with
  | [] => .ok none
  | [entry] => .ok (some entry.2)
  | _ => .error s!"duplicate field `{name}`"

/-- A text that must have come. -/
def textField (entries : List (String × Json)) (name : String) : Except Err String := do
  match ← structField entries name with
  | some value => KvEntry.readText value
  | none => .error s!"missing field `{name}`"

/-- A text with a default. -/
def textFieldOrEmpty (entries : List (String × Json)) (name : String) : Except Err String := do
  match ← structField entries name with
  | some value => KvEntry.readText value
  | none => .ok ""

structure CallbackWorkflowTransactionWire where
  gid : String
  status : String
  rollbackReason : String
  result : String

/-- The derived `Deserialize`. -/
def CallbackWorkflowTransactionWire.fromValue (value : Json) :
    Except Err CallbackWorkflowTransactionWire := do
  let entries ← structEntries ["gid", "status", "rollback_reason", "result"] value
  return {
    gid := ← textField entries "gid"
    status := ← textField entries "status"
    rollbackReason := ← textFieldOrEmpty entries "rollback_reason"
    result := ← textFieldOrEmpty entries "result" }

structure CallbackWorkflowProgressWire where
  status : String
  binData : String
  branchId : String
  op : String

/-- The derived `Deserialize`. -/
def CallbackWorkflowProgressWire.fromValue (value : Json) :
    Except Err CallbackWorkflowProgressWire := do
  let entries ← structEntries ["status", "bin_data", "branch_id", "op"] value
  return {
    status := ← textField entries "status"
    binData := ← textFieldOrEmpty entries "bin_data"
    branchId := ← textField entries "branch_id"
    op := ← textField entries "op" }

structure CallbackWorkflowWire where
  transaction : CallbackWorkflowTransactionWire
  progresses : List CallbackWorkflowProgressWire

/-- The derived `Deserialize`. -/
def CallbackWorkflowWire.fromValue (value : Json) : Except Err CallbackWorkflowWire := do
  let entries ← structEntries ["transaction", "progresses"] value
  let transaction ← match ← structField entries "transaction" with
    | some value => CallbackWorkflowTransactionWire.fromValue value
    | none => .error "missing field `transaction`"
  let progresses ← match ← structField entries "progresses" with
    | some (.arr items) => items.mapM CallbackWorkflowProgressWire.fromValue
    | some _ => .error "invalid type, expected a sequence"
    | none => .ok []
  return { transaction, progresses }

structure CallbackWorkflowProgress where
  branchId : String
  operation : String
  status : WorkflowProgressStatus
  data : List UInt8

structure CallbackWorkflowSnapshot where
  gid : String
  status : String
  rollbackReason : String
  result : List UInt8
  progresses : List CallbackWorkflowProgress

/-- The progress that `decode_callback_workflow` makes of an item. -/
def CallbackWorkflowProgressWire.decode (libs : Libs) (progress : CallbackWorkflowProgressWire) :
    Except Err CallbackWorkflowProgress := do
  let status ←
    if progress.status = "succeed" || progress.status = "succeeded" then
      .ok WorkflowProgressStatus.succeeded
    else if progress.status = "failed" then .ok WorkflowProgressStatus.failed
    else .error "DTM callback workflow progress has invalid status"
  let data ← (libs.decodeBase64 progress.binData).mapError fun _ =>
    "DTM callback workflow progress is not valid base64"
  return { branchId := progress.branchId, operation := progress.op, status, data }

/-- `decode_callback_workflow`. -/
def decodeCallbackWorkflow (libs : Libs) (response : JsonResponse) :
    Except Err CallbackWorkflowSnapshot := do
  let wire ← CallbackWorkflowWire.fromValue response.body
  ensure (200 ≤ response.status && response.status ≤ 299)
    s!"DTM callback workflow query failed with status {response.status}"
  let result ←
    if wire.transaction.result.isEmpty then .ok []
    else (libs.decodeBase64 wire.transaction.result).mapError fun _ =>
      "DTM callback workflow result is not valid base64"
  let progresses ← wire.progresses.mapM (CallbackWorkflowProgressWire.decode libs)
  return {
    gid := wire.transaction.gid
    status := wire.transaction.status
    rollbackReason := wire.transaction.rollbackReason
    result
    progresses }

end RozeDtm
