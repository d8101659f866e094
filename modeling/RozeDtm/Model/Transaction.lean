import Mathlib.Data.Finset.Erase
import Mathlib.Data.Finset.Insert
import RozeDtm.Model.Types

/-!
# Pure functions on transactions

The functions of `lib.rs` that read or change one `Transaction` and do no I/O: the
checks that every operation starts with, the changes that a store applies under
its own lock, the dependency validation, and the tests of the recovery tick.

Parsing JSON, base64 and URLs is library code outside the repository; `Libs` is
what the coordinator uses of it.  `now` is the clock value that `current_millis`
returns where the source reads the clock inside such a function.
-/

namespace RozeDtm

/-- What `reqwest::Url` is used for. -/
structure UrlLib where
  Url : Type
  parse : String → Option Url
  scheme : Url → String
  hasHost : Url → Bool
  username : Url → String
  password : Url → Option String
  fragment : Url → Option String
  queryPairs : Url → List (String × String)
  /-- `set_query(None)`, then `append_pair` for each pair. -/
  withQueryPairs : Url → List (String × String) → Url
  toText : Url → String

/-- The library functions that the coordinator calls. -/
structure Libs where
  url : UrlLib
  parseJson : String → Except Err Json
  decodeBase64 : String → Except Err (List UInt8)
  /-- `serde_json::from_str` at `Vec<TopicSubscriber>`. -/
  parseSubscribers : String → Except Err (List TopicSubscriber)
  /-- `HeaderName::from_bytes(..).is_ok()`. -/
  isHeaderName : String → Bool
  /-- `HeaderValue::try_from(..).is_ok()`. -/
  isHeaderValue : String → Bool

/-- `anyhow::ensure!`. -/
def ensure (c : Bool) (e : Err) : Except Err Unit := if c then .ok () else .error e

/-- `value.parse::<uN>().ok()`, where `max` is the largest value of the type. -/
def parseUnsigned (max : Nat) (s : String) : Option Nat :=
  let cs := match s.toList with
    | '+' :: cs => cs
    | cs => cs
  if cs.isEmpty || !cs.all Char.isDigit then none
  else
    let n := cs.foldl (fun n c => 10 * n + (c.toNat - 48)) 0
    if n ≤ max then some n else none

/-- `Value::get` at a key. -/
def Json.get? (v : Json) (key : String) : Option Json :=
  match v with
  | .obj entries => entries.lookup key
  | _ => none

/-- `Value::as_str`. -/
def Json.asStr? : Json → Option String
  | .str s => some s
  | _ => none

/-- `Value::as_u64`. -/
def Json.asU64? : Json → Option Nat
  | .num literal => parseUnsigned u64Max literal
  | _ => none

/-! ### Checks -/

/-- `ensure_kind`. -/
def ensureKind (tx : Transaction) (expected : TransactionKind) : Except Err Unit :=
  ensure (tx.kind = expected)
    s!"transaction {tx.gid} is {tx.kind.debug}, expected {expected.debug}"

/-- `ensure_status`. -/
def ensureStatus (tx : Transaction) (allowed : List TransactionStatus) : Except Err Unit :=
  ensure (allowed.contains tx.status)
    s!"transaction {tx.gid} is in non-replayable state {tx.status.debug}"

@[simp] theorem ensure_eq_ok {c : Bool} {e : Err} {u : Unit} : ensure c e = .ok u ↔ c = true := by
  cases c <;> simp [ensure]

@[simp] theorem ensureKind_eq_ok {tx : Transaction} {kind : TransactionKind} {u : Unit} :
    ensureKind tx kind = .ok u ↔ tx.kind = kind := by simp [ensureKind]

@[simp] theorem ensureStatus_eq_ok {tx : Transaction} {allowed : List TransactionStatus}
    {u : Unit} : ensureStatus tx allowed = .ok u ↔ tx.status ∈ allowed := by simp [ensureStatus]

theorem bind_eq_ok {α β : Type} {x : Except Err α} {f : α → Except Err β} {b : β}
    (h : (x >>= f) = .ok b) : ∃ a, x = .ok a ∧ f a = .ok b := by
  cases x with
  | error e => cases h
  | ok a => exact ⟨a, rfl, h⟩

/-- `is_callback_workflow`. -/
def isCallbackWorkflow (tx : Transaction) : Bool :=
  tx.kind = .workflow && tx.branches.isEmpty &&
    (tx.metadata["dtm.query_prepared"]?).any (fun value => !value.isEmpty)

/-- `ensure_callback_workflow`. -/
def ensureCallbackWorkflow (tx : Transaction) : Except Err Unit := do
  ensure (tx.kind = .workflow) s!"transaction {tx.gid} is not a workflow"
  ensure (isCallbackWorkflow tx) s!"transaction {tx.gid} is not a callback workflow"

/-- `TransactionOptions::validate`. -/
def TransactionOptions.validate (libs : Libs) (o : TransactionOptions) : Except Err Unit := do
  if let some value := o.delayMillis then
    ensure (1 ≤ value && value ≤ 31536000000)
      "message delay must be between 1 and 31536000000 milliseconds"
  if let some value := o.retryIntervalMillis then
    ensure (1 ≤ value && value ≤ 86400000)
      "retry interval must be between 1 and 86400000 milliseconds"
  if let some value := o.requestTimeoutMillis then
    ensure (1 ≤ value && value ≤ 86400000)
      "request timeout must be between 1 and 86400000 milliseconds"
  if let some value := o.retryLimit then
    ensure (value ≤ 10000) "retry limit must not exceed 10000"
  ensure (o.branchHeaders.size ≤ 32 && o.branchHeaders.toList.all fun (name, value) =>
      !name.isEmpty && name.utf8ByteSize ≤ 64 && value.utf8ByteSize ≤ 1024 &&
        libs.isHeaderName name && libs.isHeaderValue value)
    "branch headers exceed bounded name, value, or count limits"

theorem TransactionOptions.delay_of_validate {libs : Libs} {o : TransactionOptions}
    (h : o.validate libs = .ok ()) {delay : Nat} (hdelay : o.delayMillis = some delay) :
    1 ≤ delay ∧ delay ≤ 31536000000 := by
  by_contra hout
  have hcheck : (decide (1 ≤ delay) && decide (delay ≤ 31536000000)) = false := by
    rw [Bool.and_eq_false_iff, decide_eq_false_iff_not, decide_eq_false_iff_not]
    exact not_and_or.mp hout
  simp only [TransactionOptions.validate, hdelay, ensure, hcheck] at h
  cases h

/-- `WorkflowProgress::validate`. -/
def WorkflowProgress.validate (p : WorkflowProgress) : Except Err Unit := do
  ensure (!p.branchId.isEmpty && p.branchId.utf8ByteSize ≤ 128)
    "workflow progress branch id must contain 1 to 128 bytes"
  ensure (!p.operation.isEmpty && p.operation.utf8ByteSize ≤ 64)
    "workflow progress operation must contain 1 to 64 bytes"
  ensure (p.data.length ≤ 2 * 1024 * 1024) "workflow progress data exceeds 2 MiB"

/-- `WorkflowRecoveryDelay::validate`. -/
def WorkflowRecoveryDelay.validate (d : WorkflowRecoveryDelay) : Except Err Unit := do
  ensure (0 < d.retryIntervalMillis && d.retryIntervalMillis ≤ d.maxRetryIntervalMillis &&
      d.maxRetryIntervalMillis ≤ 86400000)
    "invalid workflow callback retry interval"
  ensure (!d.outcome.isEmpty && d.outcome.utf8ByteSize ≤ 64 &&
      d.outcome.toList.all fun c => c.isLower || c = '_')
    "invalid workflow callback outcome"

/-! ### Changes that a store applies -/

/-- `bump_transaction_revision`. -/
def bumpTransactionRevision (now : Nat) (tx : Transaction) : Transaction :=
  { tx with revision := satAdd64 tx.revision 1, updatedAtMillis := now }

/-- `append_dynamic_branch`. -/
def appendDynamicBranch (now : Nat) (tx : Transaction) (branch : Branch) :
    Except Err Transaction := do
  ensure (tx.kind = .tcc || tx.kind = .xa || tx.kind = .workflow)
    s!"transaction {tx.gid} does not support dynamic branches"
  ensure (tx.status = .submitted || tx.status = .prepared)
    s!"transaction {tx.gid} is not accepting branches"
  match tx.branches.find? (fun existing => existing.id = branch.id) with
  | some existing =>
    ensure (existing = branch) s!"branch definition conflicts: {branch.id}"
    return tx
  | none =>
    return bumpTransactionRevision now { tx with branches := tx.branches ++ [branch] }

/-- `append_workflow_progress`. -/
def appendWorkflowProgress (now : Nat) (tx : Transaction) (progress : WorkflowProgress) :
    Except Err Transaction := do
  ensureCallbackWorkflow tx
  ensureStatus tx [.prepared]
  progress.validate
  match tx.workflowProgresses.find? (fun existing =>
      existing.branchId = progress.branchId && existing.operation = progress.operation) with
  | some existing =>
    ensure (existing = progress)
      s!"workflow progress conflicts: {progress.branchId}:{progress.operation}"
    return tx
  | none =>
    ensure (tx.workflowProgresses.length < 1000) "workflow progress count exceeds 1000"
    let totalBytes :=
      tx.workflowProgresses.foldl (fun total item => total + item.data.length)
        progress.data.length
    ensure (totalBytes ≤ u64Max) "workflow progress data size overflow"
    ensure (totalBytes ≤ 2 * 1024 * 1024) "workflow progress data exceeds 2 MiB in total"
    return bumpTransactionRevision now
      { tx with workflowProgresses := tx.workflowProgresses ++ [progress] }

/-- Write a text under a key, or remove the key when the text is empty. -/
def putOrRemove (metadata : Std.ExtTreeMap String String) (key value : String) :
    Std.ExtTreeMap String String :=
  if value.isEmpty then metadata.erase key else metadata.insert key value

/-- `apply_workflow_completion`. -/
def applyWorkflowCompletion (now : Nat) (tx : Transaction) (status : TransactionStatus)
    (rollbackReason result : Option String) : Except Err Transaction := do
  ensureCallbackWorkflow tx
  ensure (status = .succeeded || status = .failed)
    "workflow completion status must be succeeded or failed"
  let rollbackReason := rollbackReason.getD ""
  let result := result.getD ""
  ensure (rollbackReason.utf8ByteSize ≤ 4096) "workflow rollback reason exceeds 4096 bytes"
  ensure (result.utf8ByteSize ≤ 2 * 1024 * 1024) "workflow result exceeds 2 MiB"
  if tx.status.isTerminal then
    ensure (tx.status = status &&
        (tx.metadata["rollback_reason"]?).getD "" = rollbackReason &&
        (tx.metadata["dtm.workflow.result"]?).getD "" = result)
      s!"workflow completion conflicts with terminal transaction {tx.gid}"
    return tx
  ensureStatus tx [.prepared]
  let metadata := putOrRemove tx.metadata "rollback_reason" rollbackReason
  let metadata := putOrRemove metadata "dtm.workflow.result" result
  return bumpTransactionRevision now { tx with status := status, metadata := metadata }

/-- `defer_workflow_recovery`. -/
def deferWorkflowRecovery (now : Nat) (tx : Transaction) (delay : WorkflowRecoveryDelay) :
    Except Err Transaction := do
  ensureCallbackWorkflow tx
  ensureStatus tx [.prepared]
  delay.validate
  let attempts := satAdd32
    (((tx.metadata["dtm.callback.attempts"]?).bind (parseUnsigned u32Max)).getD 0) 1
  let shift := if delay.backoff then min (attempts - 1) 16 else 0
  let retryAfter := min (satMul64 delay.retryIntervalMillis (2 ^ shift))
    delay.maxRetryIntervalMillis
  let metadata := tx.metadata.insert "dtm.callback.attempts" (toString attempts)
  let metadata := metadata.insert "dtm.callback.last_attempt_millis"
    (toString delay.attemptedAtMillis)
  let metadata := metadata.insert "dtm.callback.next_retry_millis"
    (toString (satAdd64 delay.attemptedAtMillis retryAfter))
  let metadata := metadata.insert "dtm.callback.last_outcome" delay.outcome
  return bumpTransactionRevision now { tx with metadata := metadata }

/-- `record_branch_failure`. -/
def recordBranchFailure (now : Nat) (branch : Branch) (error : String)
    (backoffMillis maxBackoffMillis : Nat) : Branch :=
  let shift := min (branch.attempts - 1) 16
  let backoff := min (satMul64 backoffMillis (2 ^ shift)) (max maxBackoffMillis backoffMillis)
  { branch with
    lastError := some error
    nextRetryMillis := some (satAdd64 now backoff) }

/-! ### Dependencies -/

/-- `visit` of `validate_dependency_graph`; the state is `(visiting, visited)`.  Every
call under way has its own index in `visiting`, so `fuel` does not run out when it
starts above the number of branches. -/
def visit (branches : List Branch) (positions : Std.ExtTreeMap String Nat)
    (graphName : String) : Nat → Nat → Finset Nat × Finset Nat →
    Except Err (Finset Nat × Finset Nat)
  | fuel, index, (visiting, visited) =>
    if index ∈ visited then .ok (visiting, visited)
    else if index ∈ visiting then .error s!"{graphName} dependencies contain a cycle"
    else match fuel with
      | 0 => .error s!"{graphName} dependencies contain a cycle"
      | fuel + 1 => do
        let dependencies := (branches[index]?.map Branch.dependencies).getD []
        let (visiting, visited) ← dependencies.foldlM
          (fun state dependency =>
            visit branches positions graphName fuel ((positions[dependency]?).getD 0) state)
          (insert index visiting, visited)
        return (visiting.erase index, insert index visited)

/-- `validate_dependency_graph`. -/
def validateDependencyGraph (transaction : Transaction) (graphName : String) :
    Except Err Unit := do
  let branches := transaction.branches
  let positions : Std.ExtTreeMap String Nat :=
    .ofList (branches.mapIdx fun index branch => (branch.id, index))
  ensure (positions.size = branches.length) s!"{graphName} branch ids must be unique"
  for branch in branches do
    let _ ← branch.dependencies.foldlM (fun (unique : List String) dependency => do
      ensure (dependency ≠ branch.id) s!"{graphName} branch {branch.id} cannot depend on itself"
      ensure (positions.contains dependency)
        s!"{graphName} branch {branch.id} has unknown dependency {dependency}"
      ensure (!unique.contains dependency)
        s!"{graphName} branch {branch.id} repeats dependency {dependency}"
      return dependency :: unique) []
  let _ ← (List.range branches.length).foldlM
    (fun state index => visit branches positions graphName (branches.length + 1) index state)
    (∅, ∅)

/-- `validate_transaction_dependencies`. -/
def validateTransactionDependencies (transaction : Transaction) : Except Err Unit := do
  if transaction.kind ≠ .saga then
    ensure (transaction.kind = .message || !transaction.options.concurrent)
      "options.concurrent is only supported for Saga and Message transactions"
    if transaction.kind = .workflow then
      validateDependencyGraph transaction "Workflow"
    else
      ensure (transaction.branches.all fun branch => branch.dependencies.isEmpty)
        "branch dependencies are only supported for Saga and Workflow transactions"
  else if !transaction.options.concurrent then
    ensure (transaction.branches.all fun branch => branch.dependencies.isEmpty)
      "Saga dependencies require options.concurrent=true"
  else
    validateDependencyGraph transaction "concurrent Saga"

/-! ### URLs and callbacks -/

/-- `parse_branch_url`. -/
def parseBranchUrl (url : UrlLib) (value : String) : Except Err url.Url := do
  ensure (!value.isEmpty && value.utf8ByteSize ≤ 2048) "invalid branch URL"
  match url.parse value with
  | none => .error "invalid branch URL"
  | some u =>
    ensure ((url.scheme u = "http" || url.scheme u = "https") && url.hasHost u &&
        (url.username u).isEmpty && (url.password u).isNone && (url.fragment u).isNone)
      "invalid branch URL"
    return u

/-- `xa_phase2_callback_url`. -/
def xaPhase2CallbackUrl (url : UrlLib) (value gid branchId operation : String) :
    Except Err String := do
  ensure (operation = "commit" || operation = "rollback") "invalid XA phase-2 operation"
  let u ← parseBranchUrl url value
  let retained := (url.queryPairs u).filter fun (name, _) =>
    !(name = "gid" || name = "trans_type" || name = "branch_id" || name = "op")
  return url.toText (url.withQueryPairs u (retained ++
    [("gid", gid), ("trans_type", "xa"), ("branch_id", branchId), ("op", operation)]))

/-- `workflow_callback_request`. -/
def workflowCallbackRequest (libs : Libs) (tx : Transaction) :
    Except Err WorkflowCallbackRequest := do
  ensureCallbackWorkflow tx
  let url ← (tx.metadata["dtm.query_prepared"]?).elim
    (.error "callback workflow query URL is missing") .ok
  let customData ← (tx.metadata["dtm.custom_data"]?).elim
    (.error "callback workflow custom data is missing") .ok
  ensure (customData.utf8ByteSize ≤ 3 * 1024 * 1024)
    "callback workflow custom data exceeds 3 MiB"
  let value ← libs.parseJson customData
  let entries ← match value with
    | .obj entries => .ok entries
    | _ => .error "callback workflow custom data must be a JSON object"
  let operation ← (((entries.lookup "name").bind Json.asStr?).filter fun name =>
      !name.isEmpty && name.utf8ByteSize ≤ 128).elim
    (.error "callback workflow name must contain 1 to 128 bytes") .ok
  let data ← match entries.lookup "data" with
    | none | some .null => .ok []
    | some (.str data) =>
      (libs.decodeBase64 data).mapError (fun _ => "callback workflow data is not valid base64")
    | some (.arr data) => data.mapM (fun byte =>
        match byte.asU64? with
        | some byte =>
          if byte ≤ 255 then .ok (UInt8.ofNat byte)
          else .error "callback workflow data array contains an invalid byte"
        | none => .error "callback workflow data array contains an invalid byte")
    | some _ => .error "callback workflow data must be base64 or a byte array"
  ensure (data.length ≤ 2 * 1024 * 1024) "callback workflow data exceeds 2 MiB"
  let configuredProtocol := tx.metadata["dtm.protocol"]?
  let protocol ←
    if configuredProtocol = some "grpc" then .ok WorkflowCallbackProtocol.grpc
    else if url.startsWith "http://" || url.startsWith "https://" then do
      -- `&&` is lazy: the URL is parsed only when no protocol is configured
      let legacyJsonRpc ←
        if configuredProtocol.isNone then
          match libs.url.parse url with
          | none => .error "invalid callback URL"
          | some u => .ok ((libs.url.queryPairs u).any fun (name, value) =>
              name = "method" && !value.isEmpty)
        else .ok false
      if configuredProtocol = some "json-rpc" || legacyJsonRpc then
        .ok WorkflowCallbackProtocol.jsonRpc
      else .ok WorkflowCallbackProtocol.http
    else .ok WorkflowCallbackProtocol.grpc
  return { gid := tx.gid, url, operation, data, protocol }

/-! ### Times -/

/-- `message_dispatch_at_millis`. -/
def messageDispatchAtMillis (tx : Transaction) : Option Nat :=
  tx.options.delayMillis.map fun delay => satAdd64 tx.createdAtMillis delay

/-- `message_dispatch_due`. -/
def messageDispatchDue (tx : Transaction) (now : Nat) : Bool :=
  (messageDispatchAtMillis tx).all fun dispatchAt => dispatchAt ≤ now

/-- `is_expired`. -/
def isExpired (tx : Transaction) (now : Nat) : Bool :=
  tx.timeoutMillis.any fun timeout => timeout ≤ now - tx.createdAtMillis

/-- A branch whose next retry time counts. -/
def Branch.retryable (b : Branch) : Bool :=
  b.status = .failed || b.status = .running || b.status = .compensating

/-- `transaction_due`. -/
def transactionDue (tx : Transaction) (now : Nat) : Bool :=
  if tx.kind = .message && tx.status = .succeeding && !messageDispatchDue tx now then false
  else (tx.branches.filter Branch.retryable).all fun branch =>
    branch.nextRetryMillis.all fun next => next ≤ now

/-- `transaction_next_recovery_millis`. -/
def transactionNextRecoveryMillis (tx : Transaction) : Option Nat :=
  if tx.status.isTerminal then none
  else if isCallbackWorkflow tx then
    (tx.metadata["dtm.callback.next_retry_millis"]?).bind (parseUnsigned u64Max)
  else
    let next :=
      if tx.kind = .message && tx.status = .succeeding &&
          tx.branches.all fun branch => branch.attempts = 0 then
        messageDispatchAtMillis tx
      else none
    ((tx.branches.filter Branch.retryable).foldlM
      (fun (next : Option Nat) (branch : Branch) =>
        branch.nextRetryMillis.map fun branchNext =>
          some (next.elim branchNext fun current => min current branchNext)) next).join

/-- `callback_workflow_due`. -/
def callbackWorkflowDue (tx : Transaction) (now : Nat) : Bool :=
  ((tx.metadata["dtm.callback.next_retry_millis"]?).bind (parseUnsigned u64Max)).all
    fun next => next ≤ now

end RozeDtm
