import RozeDtm.Model.Service.Compat

/-!
# The compatibility list

`build_compat_all_response` of `main.rs`, with the view of a transaction that it gives.  The
answer is kept as its fields, before they are printed as JSON.
-/

namespace RozeDtm

/-- What the views of a transaction use of `serde_json`. -/
structure ListingLibs where
  /-- `Value::to_string`. -/
  jsonToText : Json → String
  /-- `serde_json::from_str` at a map of texts. -/
  mapFromText : String → Except Err (Std.ExtTreeMap String String)

structure CompatQuery where
  gid : Option String
  transType : Option String
  status : Option String
  position : Option String
  limit : Option Nat
  createTimeStart : Option Nat
  createTimeEnd : Option Nat

/-! ### The view of a transaction -/

structure CompatGlobalTransaction where
  id : Nat
  createTime : String
  updateTime : String
  gid : String
  transType : String
  status : String
  protocol : String
  finishTime : Option String
  rollbackTime : Option String
  result : String
  rollbackReason : String
  options : String
  customData : String
  queryPrepared : String
  nextCronInterval : Option Nat
  nextCronTime : Option String
  timeoutToFail : Option Nat
  requestTimeout : Option Nat
  retryInterval : Option Nat
  waitResult : Bool
  branchHeaders : Std.ExtTreeMap String String
  concurrent : Bool
  retryLimit : Option Nat

/-- `kind_name`. -/
def kindName : TransactionKind → String
  | .tcc => "tcc"
  | .saga => "saga"
  | .workflow => "workflow"
  | .message => "message"
  | .xa => "xa"

/-- `compat_kind_name`. -/
def compatKindName : TransactionKind → String
  | .message => "msg"
  | kind => kindName kind

/-- `compat_status_name`. -/
def compatStatusName : TransactionStatus → String
  | .submitted | .trying | .succeeding => "submitted"
  | .prepared => "prepared"
  | .succeeded => "succeed"
  | .aborting => "aborting"
  | .aborted | .failed => "failed"

/-- `millis_to_seconds`. -/
def millisToSeconds (value : Nat) : Nat := satAdd64 value 999 / 1000

/-- `compat_options_json`. -/
def compatOptionsJson (libs : ListingLibs) (transaction : Transaction)
    (timeoutToFail requestTimeout retryInterval : Option Nat)
    (branchHeaders : Std.ExtTreeMap String String) : String :=
  let options : Std.ExtTreeMap String Json :=
    if transaction.options.waitResult then ({} : Std.ExtTreeMap String Json).insert
      "wait_result" (.bool true) else {}
  let options := [("timeout_to_fail", timeoutToFail), ("request_timeout", requestTimeout),
      ("retry_interval", retryInterval), ("retry_limit", transaction.options.retryLimit)].foldl
    (fun options (name, value) =>
      value.elim options fun value => options.insert name (.num (toString value))) options
  let options := if branchHeaders.isEmpty then options else
    options.insert "branch_headers" (.obj (branchHeaders.toList.map fun (name, value) =>
      (name, .str value)))
  let options := options.insert "concurrent" (.bool transaction.options.concurrent)
  libs.jsonToText (.obj options.toList)

/-- `compat_global_transaction`. -/
def compatGlobalTransaction (libs : ListingLibs) (transaction : Transaction) :
    CompatGlobalTransaction :=
  let retryInterval := transaction.options.retryIntervalMillis.map millisToSeconds
  let requestTimeout := transaction.options.requestTimeoutMillis.map millisToSeconds
  let timeoutToFail := transaction.timeoutMillis.map millisToSeconds
  let branchHeaders := ((transaction.metadata["dtm.branch_headers"]?).bind fun value =>
    (libs.mapFromText value).toOption).getD ∅
  let updated := compatRfc3339 transaction.updatedAtMillis
  { id := 0
    createTime := compatRfc3339 transaction.createdAtMillis
    updateTime := updated
    gid := transaction.gid
    transType := compatKindName transaction.kind
    status := compatStatusName transaction.status
    protocol := (transaction.metadata["dtm.protocol"]?).getD "http"
    finishTime := if transaction.status.isTerminal then some updated else none
    rollbackTime :=
      if transaction.status = .aborted || transaction.status = .failed then some updated else none
    result := (transaction.metadata["dtm.workflow.result"]?).getD ""
    rollbackReason := (transaction.metadata["rollback_reason"]?).getD ""
    options := compatOptionsJson libs transaction timeoutToFail requestTimeout retryInterval
      branchHeaders
    customData := (transaction.metadata["dtm.custom_data"]?).getD ""
    queryPrepared := (transaction.metadata["dtm.query_prepared"]?).getD ""
    nextCronInterval := retryInterval
    nextCronTime := (nextRetryMillis transaction).map compatRfc3339
    timeoutToFail
    requestTimeout
    retryInterval
    waitResult := transaction.options.waitResult
    branchHeaders
    concurrent := transaction.options.concurrent
    retryLimit := transaction.options.retryLimit }

/-! ### The answer -/

structure CompatAllResponse where
  transactions : List CompatGlobalTransaction
  nextPosition : String
  dtmResult : String

namespace CompatQuery

variable (query : CompatQuery)

/-- The filter of `build_compat_all_response`. -/
def selects (tx : Transaction) : Bool :=
  query.gid.all (fun gid => tx.gid = gid) &&
    query.transType.all (fun kind => compatKindName tx.kind = kind ||
      tx.kind = .message && kind = "message") &&
    query.status.all (fun status => compatStatusName tx.status = status ||
      tx.status = .succeeded && status = "succeeded") &&
    query.createTimeStart.all (fun start => start ≤ tx.createdAtMillis) &&
    query.createTimeEnd.all fun last => tx.createdAtMillis ≤ last

/-- `limit.unwrap_or(100).clamp(1, 200)`. -/
def clampedLimit : Nat := max 1 (min 200 (query.limit.getD 100))

/-- The time range is not turned round. -/
def ordered : Bool :=
  query.createTimeStart.all fun start => query.createTimeEnd.all fun last => start ≤ last

end CompatQuery

/-- The order of `build_compat_all_response`: the latest first, and of those created at once the
one with the greatest gid first. -/
def listedBefore (left right : Transaction) : Bool :=
  right.createdAtMillis < left.createdAtMillis ||
    right.createdAtMillis = left.createdAtMillis && right.gid ≤ left.gid

/-- The transactions that a query selects, in order. -/
def CompatQuery.filtered (query : CompatQuery) (transactions : List Transaction) :
    List Transaction :=
  (transactions.filter query.selects).mergeSort listedBefore

/-- The place after the transaction that a position names. -/
def compatPosition (filtered : List Transaction) (position : Option String) : Except Err Nat :=
  let cursor := position.getD ""
  if cursor = "" then .ok 0
  else if cursor.utf8ByteSize ≤ 128 then
    ((filtered.findIdx? fun transaction => transaction.gid = cursor).map (· + 1)).elim
      (.error "invalid transaction position") .ok
  else .error "invalid transaction position"

/-- `build_compat_all_response`.  `position.saturating_add(items.len())` is the sum: neither is
more than the number of transactions. -/
def buildCompatAllResponse (libs : ListingLibs) (transactions : List Transaction)
    (query : CompatQuery) : Except Err CompatAllResponse := do
  let limit := query.clampedLimit
  ensure query.ordered "createTimeStart must not exceed createTimeEnd"
  let filtered := query.filtered transactions
  let position ← compatPosition filtered query.position
  let total := filtered.length
  let items := (filtered.drop position).take limit
  let hasMore := position + items.length < total
  let nextPosition :=
    (if hasMore then items.getLast?.map Transaction.gid else none).getD ""
  return {
    transactions := items.map (compatGlobalTransaction libs)
    nextPosition
    dtmResult := "SUCCESS" }

end RozeDtm
