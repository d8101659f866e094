import RozeDtm.Codec.JsonDoc
import RozeDtm.Model.Service.Callback
import RozeDtm.Model.Service.Client

/-!
# Transactions in JSON

The text that a store keeps of a transaction, and how `serde_json` reads it: a tree of the text,
with its entries and literals as they stand, and from it the fields.  The texts of the errors are
not those of `serde_json`.  A variant of an enumeration is read from its name only.

A number that is no integer of 64 bits becomes a float when it is read.  `floats` is the literal
that it is printed as from then on.
-/

namespace RozeDtm

open Codec.JsonText

/-! ### Trees -/

mutual

/-- The document that a value is printed as. -/
def Json.toDoc : Json → Doc
  | .null => .null
  | .bool b => .bool b
  | .num literal => .num literal.toList
  | .str s => .str s.toList
  | .arr items => .arr (Json.toDocs items)
  | .obj entries => .obj (Json.toDocEntries entries)

def Json.toDocs : List Json → List Doc
  | [] => []
  | v :: vs => v.toDoc :: Json.toDocs vs

def Json.toDocEntries : List (String × Json) → List (List Char × Doc)
  | [] => []
  | (key, v) :: es => (key.toList, v.toDoc) :: Json.toDocEntries es

end

mutual

/-- The tree of a document. -/
def Json.ofDoc : Doc → Json
  | .null => .null
  | .bool b => .bool b
  | .num literal => .num (String.ofList literal)
  | .str s => .str (String.ofList s)
  | .arr items => .arr (Json.ofDocs items)
  | .obj entries => .obj (Json.ofDocEntries entries)

def Json.ofDocs : List Doc → List Json
  | [] => []
  | d :: ds => Json.ofDoc d :: Json.ofDocs ds

def Json.ofDocEntries : List (List Char × Doc) → List (String × Json)
  | [] => []
  | (key, d) :: es => (String.ofList key, Json.ofDoc d) :: Json.ofDocEntries es

end

/-- `to_string` of a value. -/
def Json.text (v : Json) : String := String.ofList v.toDoc.chars

/-- How deep arrays and objects nest. -/
def Json.nesting (v : Json) : Nat := v.toDoc.nesting

/-- The recursion limit of `serde_json`. -/
def nestingLimit : Nat := 127

/-- The tree of a text. -/
def Json.tree (text : String) : Except Err Json :=
  (parse nestingLimit text.toList).elim (.error "invalid JSON text") fun d => .ok (.ofDoc d)

/-! ### Values -/

section Values

variable (floats : String → Option String)

/-- The literal that a number is printed as once it is read. -/
def Json.readLiteral (literal : String) : Option String :=
  if (Json.num literal).asU64?.isSome || (Json.num literal).asI64?.isSome then some literal
  else floats literal

mutual

/-- `serde_json::Value` at a tree.  Of two entries with one key the later one counts. -/
def Json.value : Json → Except Err Json
  | .num literal => ((Json.readLiteral floats literal).map Json.num).elim
    (.error "number out of range") .ok
  | .arr items => do return .arr (← Json.values items)
  | .obj entries => do return .obj (Std.ExtTreeMap.ofList (← Json.valueEntries entries)).toList
  | v => .ok v

def Json.values : List Json → Except Err (List Json)
  | [] => .ok []
  | v :: vs => do return (← v.value) :: (← Json.values vs)

def Json.valueEntries : List (String × Json) → Except Err (List (String × Json))
  | [] => .ok []
  | (key, v) :: es => do return (key, ← v.value) :: (← Json.valueEntries es)

end

/-- `serde_json::from_str` at `Value`. -/
def Json.parse (text : String) : Except Err Json := do (← Json.tree text).value floats

end Values

/-! ### Fields -/

namespace Serde

variable {α : Type}

/-- A field that must come. -/
def required (read : Json → Except Err α) (entries : List (String × Json)) (name : String) :
    Except Err α := do
  match ← structField entries name with
  | some value => read value
  | none => .error s!"missing field `{name}`"

/-- A field with a default. -/
def defaulted (default : α) (read : Json → Except Err α) (entries : List (String × Json))
    (name : String) : Except Err α := do
  match ← structField entries name with
  | some value => read value
  | none => .ok default

/-- An `Option`. -/
def readOption (read : Json → Except Err α) : Json → Except Err (Option α)
  | .null => .ok none
  | value => (read value).map some

/-- An `Option` that need not come. -/
def optional (read : Json → Except Err α) (entries : List (String × Json)) (name : String) :
    Except Err (Option α) := defaulted none (readOption read) entries name

def readBool : Json → Except Err Bool
  | .bool b => .ok b
  | _ => .error "invalid type, expected a boolean"

/-- A `u32`. -/
def readU32 (value : Json) : Except Err Nat := do
  let n ← KvEntry.readNumber value
  ensure (n ≤ u32Max) "invalid value, expected u32"
  return n

def readVec (read : Json → Except Err α) : Json → Except Err (List α)
  | .arr items => items.mapM read
  | _ => .error "invalid type, expected a sequence"

/-- An entry whose value is a text. -/
def readTextEntry (entry : String × Json) : Except Err (String × String) :=
  (KvEntry.readText entry.2).map fun text => (entry.1, text)

/-- A `BTreeMap` of texts. -/
def readMap : Json → Except Err (Std.ExtTreeMap String String)
  | .obj entries => (entries.mapM readTextEntry).map fun entries => Std.ExtTreeMap.ofList entries
  | _ => .error "invalid type, expected a map"

/-- `base64_bytes::deserialize`. -/
def readBytes (value : Json) : Except Err (List UInt8) := do
  let text ← KvEntry.readText value
  (Codec.Base64.decode text).elim (.error "invalid base64") .ok

/-- A variant, by its name. -/
def readVariant (name : α → String) (variants : List α) (value : Json) : Except Err α := do
  let text ← KvEntry.readText value
  (variants.find? fun v => name v = text).elim (.error "unknown variant") .ok

def writeNumber (n : Nat) : Json := .num (toString n)

def writeOption (write : α → Json) : Option α → Json
  | none => .null
  | some a => write a

def writeMap (m : Std.ExtTreeMap String String) : Json :=
  .obj (m.toList.map fun entry => (entry.1, .str entry.2))

end Serde

open Serde

/-! ### Enumerations -/

def TransactionKind.variants : List TransactionKind := [.saga, .workflow, .message, .xa, .tcc]

def TransactionStatus.variants : List TransactionStatus :=
  [.submitted, .trying, .prepared, .succeeding, .succeeded, .aborting, .aborted, .failed]

def BranchKind.name : BranchKind → String
  | .sagaAction => "SagaAction"
  | .sagaCompensate => "SagaCompensate"
  | .tccTry => "TccTry"
  | .tccConfirm => "TccConfirm"
  | .tccCancel => "TccCancel"
  | .workflowAction => "WorkflowAction"
  | .messageAction => "MessageAction"
  | .xaAction => "XaAction"

def BranchKind.variants : List BranchKind :=
  [.sagaAction, .sagaCompensate, .tccTry, .tccConfirm, .tccCancel, .workflowAction,
    .messageAction, .xaAction]

def BranchStatus.name : BranchStatus → String
  | .pending => "Pending"
  | .running => "Running"
  | .compensating => "Compensating"
  | .succeeded => "Succeeded"
  | .failed => "Failed"
  | .skipped => "Skipped"

def BranchStatus.variants : List BranchStatus :=
  [.pending, .running, .compensating, .succeeded, .failed, .skipped]

def WorkflowProgressStatus.name : WorkflowProgressStatus → String
  | .succeeded => "Succeeded"
  | .failed => "Failed"

def WorkflowProgressStatus.variants : List WorkflowProgressStatus := [.succeeded, .failed]

/-! ### Writing -/

def Branch.entries (branch : Branch) : List (String × Json) :=
  [("id", .str branch.id),
    ("kind", .str branch.kind.name),
    ("action", .str branch.action),
    ("compensate", writeOption .str branch.compensate),
    ("confirm", writeOption .str branch.confirm),
    ("cancel", writeOption .str branch.cancel),
    ("payload", branch.payload),
    ("status", .str branch.status.name),
    ("attempts", writeNumber branch.attempts),
    ("last_error", writeOption .str branch.lastError),
    ("next_retry_millis", writeOption writeNumber branch.nextRetryMillis),
    ("dependencies", .arr (branch.dependencies.map .str))]

def WorkflowProgress.entries (progress : WorkflowProgress) : List (String × Json) :=
  [("branch_id", .str progress.branchId),
    ("operation", .str progress.operation),
    ("status", .str progress.status.name),
    ("data", .str (Codec.Base64.encode progress.data))]

def TransactionOptions.entries (options : TransactionOptions) : List (String × Json) :=
  [("wait_result", .bool options.waitResult),
    ("concurrent", .bool options.concurrent),
    ("delay_millis", writeOption writeNumber options.delayMillis),
    ("retry_interval_millis", writeOption writeNumber options.retryIntervalMillis),
    ("request_timeout_millis", writeOption writeNumber options.requestTimeoutMillis),
    ("retry_limit", writeOption writeNumber options.retryLimit),
    ("branch_headers", writeMap options.branchHeaders)]

/-- The entry of the progresses, which is left out when there are none. -/
def Transaction.progressEntries (tx : Transaction) : List (String × Json) :=
  if tx.workflowProgresses.isEmpty then []
  else [("workflow_progresses", .arr (tx.workflowProgresses.map fun p => .obj p.entries))]

def Transaction.entries (tx : Transaction) : List (String × Json) :=
  [("gid", .str tx.gid),
    ("kind", .str tx.kind.debug),
    ("status", .str tx.status.debug),
    ("branches", .arr (tx.branches.map fun b => .obj b.entries)),
    ("created_at_millis", writeNumber tx.createdAtMillis),
    ("updated_at_millis", writeNumber tx.updatedAtMillis),
    ("revision", writeNumber tx.revision),
    ("timeout_millis", writeOption writeNumber tx.timeoutMillis),
    ("options", .obj tx.options.entries)] ++ tx.progressEntries ++
  [("metadata", writeMap tx.metadata)]

/-- `serde_json::to_string` of a transaction. -/
def Transaction.toText (tx : Transaction) : String := (Json.obj tx.entries).text

/-! ### Reading -/

section Reading

variable (floats : String → Option String)

def Branch.fields : List String :=
  ["id", "kind", "action", "compensate", "confirm", "cancel", "payload", "status", "attempts",
    "last_error", "next_retry_millis", "dependencies"]

/-- The derived `Deserialize`. -/
def Branch.fromValue (value : Json) : Except Err Branch := do
  let entries ← structEntries Branch.fields value
  return {
    id := ← required KvEntry.readText entries "id"
    kind := ← required (readVariant BranchKind.name BranchKind.variants) entries "kind"
    action := ← required KvEntry.readText entries "action"
    compensate := ← optional KvEntry.readText entries "compensate"
    confirm := ← optional KvEntry.readText entries "confirm"
    cancel := ← optional KvEntry.readText entries "cancel"
    payload := ← required (Json.value floats) entries "payload"
    status := ← required (readVariant BranchStatus.name BranchStatus.variants) entries "status"
    attempts := ← required readU32 entries "attempts"
    lastError := ← optional KvEntry.readText entries "last_error"
    nextRetryMillis := ← optional KvEntry.readNumber entries "next_retry_millis"
    dependencies := ← defaulted [] (readVec KvEntry.readText) entries "dependencies" }

def WorkflowProgress.fields : List String := ["branch_id", "operation", "status", "data"]

/-- The derived `Deserialize`. -/
def WorkflowProgress.fromValue (value : Json) : Except Err WorkflowProgress := do
  let entries ← structEntries WorkflowProgress.fields value
  return {
    branchId := ← required KvEntry.readText entries "branch_id"
    operation := ← required KvEntry.readText entries "operation"
    status := ← required
      (readVariant WorkflowProgressStatus.name WorkflowProgressStatus.variants) entries "status"
    data := ← required readBytes entries "data" }

def TransactionOptions.fields : List String :=
  ["wait_result", "concurrent", "delay_millis", "retry_interval_millis", "request_timeout_millis",
    "retry_limit", "branch_headers"]

/-- The derived `Deserialize`. -/
def TransactionOptions.fromValue (value : Json) : Except Err TransactionOptions := do
  let entries ← structEntries TransactionOptions.fields value
  return {
    waitResult := ← defaulted false readBool entries "wait_result"
    concurrent := ← defaulted false readBool entries "concurrent"
    delayMillis := ← optional KvEntry.readNumber entries "delay_millis"
    retryIntervalMillis := ← optional KvEntry.readNumber entries "retry_interval_millis"
    requestTimeoutMillis := ← optional KvEntry.readNumber entries "request_timeout_millis"
    retryLimit := ← optional readU32 entries "retry_limit"
    branchHeaders := ← defaulted ∅ readMap entries "branch_headers" }

def Transaction.fields : List String :=
  ["gid", "kind", "status", "branches", "created_at_millis", "updated_at_millis", "revision",
    "timeout_millis", "options", "workflow_progresses", "metadata"]

/-- The derived `Deserialize`. -/
def Transaction.fromValue (value : Json) : Except Err Transaction := do
  let entries ← structEntries Transaction.fields value
  return {
    gid := ← required KvEntry.readText entries "gid"
    kind := ← required (readVariant TransactionKind.debug TransactionKind.variants) entries "kind"
    status := ← required
      (readVariant TransactionStatus.debug TransactionStatus.variants) entries "status"
    branches := ← required (readVec (Branch.fromValue floats)) entries "branches"
    createdAtMillis := ← required KvEntry.readNumber entries "created_at_millis"
    updatedAtMillis := ← required KvEntry.readNumber entries "updated_at_millis"
    revision := ← defaulted 0 KvEntry.readNumber entries "revision"
    timeoutMillis := ← optional KvEntry.readNumber entries "timeout_millis"
    options := ← defaulted .default TransactionOptions.fromValue entries "options"
    workflowProgresses := ←
      defaulted [] (readVec WorkflowProgress.fromValue) entries "workflow_progresses"
    metadata := ← required readMap entries "metadata" }

/-- `serde_json::from_str` at a transaction. -/
def Transaction.ofText (text : String) : Except Err Transaction := do
  Transaction.fromValue floats (← Json.tree text)

end Reading

end RozeDtm
