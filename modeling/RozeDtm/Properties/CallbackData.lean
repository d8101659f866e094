import RozeDtm.InMemory.Stored
import RozeDtm.Model.Service.Client
import RozeDtm.Trail.Inserts

/-!
# The data of named callback Workflows

What the client sends for a named callback Workflow comes back to it: the name and the data when
its callback is called, the progresses and the result when it asks for the Workflow.  The encoder
and the decoder are in different crates, and so are their limits.

* `utf8ByteSize_customData_le`: the custom data is not much longer than the base64 of the data.
* `decodeCallbackWorkflow_response`: what the client reads of a record.
* `callback_data_round_trips`: the round trip, for every history of the record.
-/

namespace RozeDtm

open Codec Conc

/-- What the client library assumes of `serde_json` and `base64`: what is encoded is decoded. -/
structure Libs.DecodesData (libs : Libs) : Prop where
  base64 : ∀ bytes, libs.decodeBase64 (Base64.encode bytes) = .ok bytes
  json : ∀ data name, libs.parseJson (objectText [("data", data), ("name", name)]) =
    .ok (.obj [("data", .str data), ("name", .str name)])

/-- What a request leaves alone that does not concern the data of a callback Workflow. -/
structure KeepsCallback (tx tx' : Transaction) : Prop where
  kind : tx'.kind = tx.kind
  branches : tx'.branches = tx.branches
  progresses : tx'.workflowProgresses = tx.workflowProgresses
  metadata : ∀ key ∈ ["dtm.query_prepared", "dtm.custom_data", "dtm.protocol",
    "dtm.workflow.result"], tx'.metadata[key]? = tx.metadata[key]?

/-- A progress as the client sees it. -/
def WorkflowProgress.seen (progress : WorkflowProgress) : CallbackWorkflowProgress where
  branchId := progress.branchId
  operation := progress.operation
  status := progress.status
  data := progress.data

/-- How the record of a callback Workflow comes about: the progresses that were recorded and the
result, last first.  The client records through its helpers, others in ways of their own. -/
inductive ClientHistory (state : ControlState) (stored : Transaction) :
    Transaction → List CallbackWorkflowProgress → List UInt8 → Prop
  | prepared : ClientHistory state stored stored [] []
  | recorded {tx tx' : Transaction} {seen : List CallbackWorkflowProgress}
      {result data : List UInt8} {gid branchId operation : String}
      {status : WorkflowProgressStatus} {request : CompatBranchRequest}
      {progress : WorkflowProgress} {now : Nat}
      (before : ClientHistory state stored tx seen result)
      (sent : DtmHttpClient.recordCallbackWorkflowProgress gid branchId operation status data =
        .ok request)
      (received : state.compatRegistrationFromRequest request = .ok (.workflow progress))
      (accepted : appendWorkflowProgress now tx progress = .ok tx') :
      ClientHistory state stored tx' (⟨branchId, operation, status, data⟩ :: seen) result
  | registered {tx tx' : Transaction} {seen : List CallbackWorkflowProgress} {result : List UInt8}
      {progress : WorkflowProgress} {now : Nat}
      (before : ClientHistory state stored tx seen result)
      (accepted : appendWorkflowProgress now tx progress = .ok tx') :
      ClientHistory state stored tx' (progress.seen :: seen) result
  | finished {tx tx' : Transaction} {seen : List CallbackWorkflowProgress}
      {result bytes : List UInt8} {gid reason : String} {status : WorkflowProgressStatus}
      {completion : CallbackWorkflowCompletion} {now : Nat}
      (before : ClientHistory state stored tx seen result)
      (received : callbackWorkflowCompletion .workflow .submit
        (DtmHttpClient.finishCallbackWorkflow gid status reason bytes) = .ok (some completion))
      (accepted : applyWorkflowCompletion now tx completion.status completion.rollbackReason
        completion.result = .ok tx') :
      ClientHistory state stored tx' seen bytes
  | answered {tx tx' : Transaction} {seen : List CallbackWorkflowProgress} {result : List UInt8}
      {status : TransactionStatus} {reason : Option String} {now : Nat}
      (before : ClientHistory state stored tx seen result)
      (accepted : applyWorkflowCompletion now tx status reason none = .ok tx') :
      ClientHistory state stored tx' seen []
  | kept {tx tx' : Transaction} {seen : List CallbackWorkflowProgress} {result : List UInt8}
      (before : ClientHistory state stored tx seen result) (keeps : KeepsCallback tx tx') :
      ClientHistory state stored tx' seen result

/-! ### The custom data -/

theorem escapeChar_letter {n : Nat} (h : n < 64) :
    JsonText.escapeChar (Base64.letter n) = [Base64.letter n] := by
  revert n
  decide

/-- **The custom data is not much longer than the base64 of the data.** -/
theorem utf8ByteSize_customData_le (data : List UInt8) (name : String) :
    (objectText [("data", Base64.encode data), ("name", name)]).utf8ByteSize ≤
      4 * ((data.length + 2) / 3) + 6 * name.utf8ByteSize + 21 := by
  have hsame : JsonText.escapeChars (Base64.encodeChars data) = Base64.encodeChars data :=
    JsonText.escapeChars_eq_self
      (Base64.forall_encodeChars (fun _ => escapeChar_letter) (by decide) data)
  have hdata : JsonText.utf8Size (Base64.encodeChars data) = 4 * ((data.length + 2) / 3) := by
    rw [JsonText.utf8Size_eq_length
      (@Base64.forall_encodeChars (fun c => c.utf8Size = 1) (fun _ => Base64.utf8Size_letter) rfl
        data)]
    exact Base64.length_encodeChars data
  have hname := JsonText.utf8Size_escapeChars_le name.toList
  rw [JsonText.utf8Size_toList] at hname
  have hkeys : JsonText.utf8Size (JsonText.quoteChars "data".toList) = 6 ∧
      JsonText.utf8Size (JsonText.quoteChars "name".toList) = 6 := by decide
  have hsigns : ('\x7b').utf8Size = 1 ∧ (':').utf8Size = 1 ∧ JsonText.utf8Size [','] = 1 ∧
      JsonText.utf8Size ['\x7d'] = 1 := by decide
  unfold objectText
  rw [JsonText.utf8ByteSize_ofList]
  show JsonText.utf8Size (JsonText.objectChars [("data".toList, (Base64.encode data).toList),
    ("name".toList, name.toList)]) ≤ _
  unfold JsonText.objectChars
  rw [List.map_cons, List.map_cons, List.map_nil, List.intercalate_cons_cons,
    List.intercalate_singleton, JsonText.utf8Size_cons]
  simp only [JsonText.utf8Size_append, JsonText.entryChars, JsonText.utf8Size_cons, hsigns, hkeys,
    JsonText.utf8Size_quoteChars, Base64.encode, String.toList_ofList, hsame, hdata]
  omega

/-! ### The record that is stored -/

/-- A record from which the callback is called with this name and these data. -/
structure CarriesCallback (queryPrepared name : String) (data : List UInt8) (tx : Transaction) :
    Prop where
  kind : tx.kind = .workflow
  branches : tx.branches = []
  query : tx.metadata["dtm.query_prepared"]? = some queryPrepared
  custom : tx.metadata["dtm.custom_data"]? =
    some (objectText [("data", Base64.encode data), ("name", name)])
  protocol : tx.metadata["dtm.protocol"]? = some "http"

section Record

variable {state : ControlState} {libs : Libs} {K : String → String → Option KvEntry → Prop}
  {gid queryPrepared name : String} {data result : List UInt8} {stored tx tx' : Transaction}
  {request : CompatTransactionRequest} {seen : List CallbackWorkflowProgress}

theorem objectText_ne_empty (entries : List (String × String)) : objectText entries ≠ "" := by
  intro h
  have hchars := congrArg String.toList h
  unfold objectText JsonText.objectChars at hchars
  rw [String.toList_ofList] at hchars
  cases hchars

theorem preserveCompatMetadata_callback {text : String} (hquery : queryPrepared ≠ "")
    (htext : text ≠ "") (transaction : Transaction) :
    state.preserveCompatMetadata transaction
      (DtmHttpClient.prepareCallbackWorkflow gid queryPrepared text) =
      { transaction with
        metadata := (((transaction.metadata.insert "dtm.custom_data" text).insert
          "dtm.query_prepared" queryPrepared).insert "dtm.wait_result" "false").insert
          "dtm.protocol" "http" } := by
  have hgiven {value : String} (hne : value ≠ "") : nonEmpty (some value) = some value := by
    unfold nonEmpty
    rw [Option.filter_some, if_pos (by simpa using hne)]
  unfold ControlState.preserveCompatMetadata
  show { transaction with metadata := if (∅ : Std.ExtTreeMap String String).isEmpty = true then
      (if (∅ : Std.ExtTreeMap String String).isEmpty = true then
        ((ControlState.putSome (ControlState.putSome transaction.metadata "dtm.custom_data"
          (nonEmpty (some text))) "dtm.query_prepared" (nonEmpty (some queryPrepared))).insert
          "dtm.wait_result" "false").insert "dtm.protocol" "http"
      else _) else _ } = _
  rw [hgiven htext, hgiven hquery, Std.ExtTreeMap.isEmpty_empty, if_pos rfl, if_pos rfl]
  rfl

/-- A request without steps makes a Workflow without branches. -/
theorem compatSubmission_customData {now : Nat} {text : String} (hquery : queryPrepared ≠ "")
    (htext : text ≠ "")
    (h : state.compatSubmission now .workflow
      (DtmHttpClient.prepareCallbackWorkflow gid queryPrepared text) = .ok tx) :
    tx.kind = .workflow ∧ tx.branches = [] ∧ tx.workflowProgresses = [] ∧
      tx.metadata = ((((∅ : Std.ExtTreeMap String String).insert "dtm.custom_data" text).insert
        "dtm.query_prepared" queryPrepared).insert "dtm.wait_result" "false").insert
        "dtm.protocol" "http" := by
  unfold ControlState.compatSubmission at h
  obtain ⟨built, hbuilt, h⟩ := bind_eq_ok h
  unfold ControlState.compatTransaction at hbuilt
  obtain ⟨branches, hbranches, hbuilt⟩ := bind_eq_ok hbuilt
  obtain ⟨options, -, hbuilt⟩ := bind_eq_ok hbuilt
  cases hbranches
  cases hbuilt
  dsimp only at h
  split at h
  · obtain ⟨callback, -, h⟩ := bind_eq_ok h
    obtain ⟨_, -, h⟩ := bind_eq_ok h
    cases h
    rw [preserveCompatMetadata_callback hquery htext]
    exact ⟨rfl, rfl, rfl, rfl⟩
  · cases h
    rw [preserveCompatMetadata_callback hquery htext]
    exact ⟨rfl, rfl, rfl, rfl⟩

/-- **The record that the service stores** for a named callback Workflow. -/
theorem stored_callback (hquery : queryPrepared ≠ "")
    (hstored : (state.compatPrepareWorkflow (DtmHttpClient.prepareCallbackWorkflow gid queryPrepared
      (objectText [("data", Base64.encode data), ("name", name)]))).run.Comes (Reads K)
      (.insertTransaction stored)) :
    CarriesCallback queryPrepared name data stored ∧ stored.workflowProgresses = [] ∧
      stored.metadata["dtm.workflow.result"]? = none := by
  obtain ⟨now, kind, tx, hkind, htx, hsubmitted⟩ := submitted_of_compatApply hstored
  cases (show TransactionKind.workflow = kind from Except.ok.inj
    ((show parseKind "workflow" = .ok .workflow by decide +kernel).symm.trans hkind))
  obtain ⟨hk, hbs, hprogresses, hmetadata⟩ :=
    compatSubmission_customData hquery (objectText_ne_empty _) htx
  obtain ⟨branches, hbranches, rfl⟩ := hsubmitted.record
  have hsame := hbranches.same (by rw [hk]; decide)
  rw [hbs] at hsame
  subst hsame
  have hshape : ∃ timeout, state.dtm.withTimeout { tx with revision := 1, branches := [] } =
      { tx with revision := 1, branches := [], timeoutMillis := timeout } := by
    unfold Dtm.withTimeout
    split
    · exact ⟨_, rfl⟩
    · exact ⟨_, rfl⟩
  obtain ⟨timeout, hshape⟩ := hshape
  rw [hshape]
  refine ⟨⟨hk, rfl, ?_, ?_, ?_⟩, hprogresses, ?_⟩ <;> dsimp only <;> rw [hmetadata]
  · rw [getElem?_insert_other (by decide), getElem?_insert_other (by decide),
      Std.ExtTreeMap.getElem?_insert_self]
  · rw [getElem?_insert_other (by decide), getElem?_insert_other (by decide),
      getElem?_insert_other (by decide), Std.ExtTreeMap.getElem?_insert_self]
  · rw [Std.ExtTreeMap.getElem?_insert_self]
  · rw [getElem?_insert_other (by decide), getElem?_insert_other (by decide),
      getElem?_insert_other (by decide), getElem?_insert_other (by decide)]
    exact Std.ExtTreeMap.getElem?_empty

/-! ### The callback -/

/-- **The callback is called with the name and the data that were sent.** -/
theorem CarriesCallback.called (hlibs : libs.DecodesData) (hquery : queryPrepared ≠ "")
    (hname : name ≠ "" ∧ name.utf8ByteSize ≤ 128) (hdata : data.length ≤ 2 * 1024 * 1024)
    (h : CarriesCallback queryPrepared name data tx) :
    ∃ callback, workflowCallbackRequest libs tx = .ok callback ∧ callback.operation = name ∧
      callback.data = data := by
  have hcallback : ensureCallbackWorkflow tx = .ok () := by
    have his : isCallbackWorkflow tx = true := by
      unfold isCallbackWorkflow
      rw [h.kind, h.branches, h.query]
      simpa using hquery
    unfold ensureCallbackWorkflow
    rw [h.kind, his]
    rfl
  have hsize := utf8ByteSize_customData_le data name
  have hcustom : RozeDtm.ensure (decide ((objectText [("data", Base64.encode data),
      ("name", name)]).utf8ByteSize ≤ 3 * 1024 * 1024))
      "callback workflow custom data exceeds 3 MiB" = .ok () := by
    rw [ensure_eq_ok, decide_eq_true_eq]
    omega
  have hbound : RozeDtm.ensure (decide (data.length ≤ 2 * 1024 * 1024))
      "callback workflow data exceeds 2 MiB" = .ok () := by
    rw [ensure_eq_ok]
    exact decide_eq_true hdata
  have hgiven : (some name).filter (fun name => !name.isEmpty && name.utf8ByteSize ≤ 128) =
      some name := by
    rw [Option.filter_some, if_pos (by simpa using hname)]
  have hlookup : [("data", Json.str (Base64.encode data)), ("name", .str name)].lookup "name" =
      some (.str name) := rfl
  have hlookup' : [("data", Json.str (Base64.encode data)), ("name", .str name)].lookup "data" =
      some (.str (Base64.encode data)) := rfl
  have hdecode : (libs.decodeBase64 (Base64.encode data)).mapError
      (fun _ => "callback workflow data is not valid base64") = .ok data := by
    rw [hlibs.base64]
    rfl
  have hcalled (protocol : WorkflowCallbackProtocol) : ∃ callback : WorkflowCallbackRequest,
      (.ok ⟨tx.gid, queryPrepared, name, data, protocol⟩ : Except Err WorkflowCallbackRequest) =
        .ok callback ∧ callback.operation = name ∧ callback.data = data := ⟨_, rfl, rfl, rfl⟩
  unfold workflowCallbackRequest
  simp only [hcallback, h.query, h.custom, h.protocol, Option.elim, hcustom, hlibs.json, bind,
    Except.bind, hlookup, hlookup', Option.bind_some, Json.asStr?, hgiven, hdecode, hbound]
  -- every protocol is called with the same name and data
  split
  · exact hcalled _
  · split
    · exact hcalled _
    · exact hcalled _

/-! ### The answer -/

/-- Reading what was written item by item. -/
theorem mapM_map_eq_ok {α β γ : Type} {write : α → β} {read : β → Except Err γ} {f : α → γ}
    (h : ∀ a, read (write a) = .ok (f a)) (items : List α) :
    (items.map write).mapM read = .ok (items.map f) := by
  induction items with
  | nil => rfl
  | cons a items ih =>
    rw [List.map_cons, List.mapM_cons, h, ih]
    rfl

/-- A progress as it is in the answer. -/
def WorkflowProgress.wire (progress : WorkflowProgress) : CallbackWorkflowProgressWire where
  status := workflowProgressStatusName progress.status
  binData := Base64.encode progress.data
  branchId := progress.branchId
  op := progress.operation

theorem fromValue_compatProgress (progress : WorkflowProgress) :
    CallbackWorkflowProgressWire.fromValue (compatProgress progress) = .ok progress.wire := rfl

theorem fromValue_compatWorkflowResponse (tx : Transaction) :
    CallbackWorkflowWire.fromValue (compatWorkflowResponse tx) = .ok {
      transaction := {
        gid := tx.gid
        status := compatWorkflowStatusName tx.status
        rollbackReason := (tx.metadata["rollback_reason"]?).getD ""
        result := (tx.metadata["dtm.workflow.result"]?).getD "" }
      progresses := tx.workflowProgresses.map WorkflowProgress.wire } := by
  have hprogresses : (tx.workflowProgresses.map compatProgress).mapM
      CallbackWorkflowProgressWire.fromValue =
        .ok (tx.workflowProgresses.map WorkflowProgress.wire) :=
    mapM_map_eq_ok fromValue_compatProgress _
  show ((tx.workflowProgresses.map compatProgress).mapM CallbackWorkflowProgressWire.fromValue >>=
    fun progresses => Except.ok _) = _
  rw [hprogresses]
  rfl

theorem decode_wire (hlibs : libs.DecodesData) (progress : WorkflowProgress) :
    progress.wire.decode libs = .ok progress.seen := by
  unfold CallbackWorkflowProgressWire.decode WorkflowProgress.wire
  dsimp only
  rw [hlibs.base64]
  cases hstatus : progress.status with
  | succeeded =>
    unfold WorkflowProgress.seen
    rw [hstatus]
    rfl
  | failed =>
    unfold WorkflowProgress.seen
    rw [hstatus]
    rfl

theorem Base64.encode_isEmpty {bytes : List UInt8} (h : (Base64.encode bytes).isEmpty = true) :
    bytes = [] := by
  have hdecode := Base64.decode_encode bytes
  rw [String.isEmpty_iff.mp h] at hdecode
  exact (Option.some.inj hdecode).symm

/-- **What the client reads of a record** with this result. -/
theorem decodeCallbackWorkflow_response (hlibs : libs.DecodesData)
    (hresult : (tx.metadata["dtm.workflow.result"]?).getD "" = Base64.encode result) :
    decodeCallbackWorkflow libs ⟨200, compatWorkflowResponse tx⟩ = .ok {
      gid := tx.gid
      status := compatWorkflowStatusName tx.status
      rollbackReason := (tx.metadata["rollback_reason"]?).getD ""
      result
      progresses := tx.workflowProgresses.map WorkflowProgress.seen } := by
  have hprogresses : (tx.workflowProgresses.map WorkflowProgress.wire).mapM
      (CallbackWorkflowProgressWire.decode libs) =
        .ok (tx.workflowProgresses.map WorkflowProgress.seen) :=
    mapM_map_eq_ok (decode_wire hlibs) _
  unfold decodeCallbackWorkflow
  rw [fromValue_compatWorkflowResponse]
  show (if ((tx.metadata["dtm.workflow.result"]?).getD "").isEmpty = true then
      (Except.ok [] >>= fun result => (tx.workflowProgresses.map WorkflowProgress.wire).mapM
        (CallbackWorkflowProgressWire.decode libs) >>= fun progresses => Except.ok _)
    else _) = _
  rw [hresult, hprogresses]
  split
  · rename_i hempty
    rw [Base64.encode_isEmpty hempty]
    rfl
  · rw [hlibs.base64]
    rfl

/-! ### The history of a record -/

/-- What a history has brought about. -/
structure Holds (queryPrepared name : String) (data : List UInt8) (tx : Transaction)
    (seen : List CallbackWorkflowProgress) (result : List UInt8) : Prop where
  carries : CarriesCallback queryPrepared name data tx
  seen : ∀ p, p ∈ tx.workflowProgresses.map WorkflowProgress.seen ↔ p ∈ seen
  result : (tx.metadata["dtm.workflow.result"]?).getD "" = Base64.encode result

theorem Holds.keeps (h : Holds queryPrepared name data tx seen result)
    (hkeeps : KeepsCallback tx tx') : Holds queryPrepared name data tx' seen result where
  carries := {
    kind := hkeeps.kind.trans h.carries.kind
    branches := hkeeps.branches.trans h.carries.branches
    query := (hkeeps.metadata _ (by simp)).trans h.carries.query
    custom := (hkeeps.metadata _ (by simp)).trans h.carries.custom
    protocol := (hkeeps.metadata _ (by simp)).trans h.carries.protocol }
  seen := by
    rw [hkeeps.progresses]
    exact h.seen
  result := by
    rw [hkeeps.metadata _ (by simp)]
    exact h.result

theorem Holds.progress {progress : WorkflowProgress} {now : Nat}
    (h : Holds queryPrepared name data tx seen result)
    (hstore : appendWorkflowProgress now tx progress = .ok tx') :
    Holds queryPrepared name data tx' (progress.seen :: seen) result := by
  obtain ⟨hmetadata, hbranches⟩ := appendWorkflowProgress_same hstore
  rcases appendWorkflowProgress_ok hstore with ⟨rfl, hmem⟩ | ⟨hamended, -, hprogresses⟩
  · refine ⟨h.carries, fun p => ?_, h.result⟩
    rw [List.mem_cons, ← h.seen, or_iff_right_of_imp]
    rintro rfl
    exact List.mem_map_of_mem hmem
  · refine ⟨⟨hamended.kind.trans h.carries.kind, hbranches.trans h.carries.branches, ?_, ?_, ?_⟩,
      fun p => ?_, ?_⟩
    · rw [hmetadata]
      exact h.carries.query
    · rw [hmetadata]
      exact h.carries.custom
    · rw [hmetadata]
      exact h.carries.protocol
    · rw [hprogresses, List.map_append, List.mem_append, h.seen, List.mem_cons, or_comm]
      exact or_congr_left List.mem_singleton
    · rw [hmetadata]
      exact h.result

theorem getD_putOrRemove {metadata : Std.ExtTreeMap String String} {key value : String} :
    ((putOrRemove metadata key value)[key]?).getD "" = value := by
  unfold putOrRemove
  split
  · rename_i hempty
    rw [Std.ExtTreeMap.getElem?_erase_self]
    exact (String.isEmpty_iff.mp hempty).symm
  · rw [Std.ExtTreeMap.getElem?_insert_self]
    rfl

theorem Holds.complete {now : Nat} {status : TransactionStatus} {reason text : Option String}
    {bytes : List UInt8} (h : Holds queryPrepared name data tx seen result)
    (htext : text.getD "" = Base64.encode bytes)
    (hstore : applyWorkflowCompletion now tx status reason text = .ok tx') :
    Holds queryPrepared name data tx' seen bytes := by
  rw [applyWorkflowCompletion] at hstore
  obtain ⟨_, -, hstore⟩ := bind_eq_ok hstore
  obtain ⟨_, -, hstore⟩ := bind_eq_ok hstore
  obtain ⟨_, -, hstore⟩ := bind_eq_ok hstore
  obtain ⟨_, -, hstore⟩ := bind_eq_ok hstore
  split at hstore
  · -- the same completion again
    obtain ⟨_, hsame, hstore⟩ := bind_eq_ok hstore
    rw [ensure_eq_ok, Bool.and_eq_true, Bool.and_eq_true, decide_eq_true_eq,
      decide_eq_true_eq] at hsame
    cases hstore
    exact ⟨h.carries, h.seen, (of_decide_eq_true hsame.2).trans htext⟩
  · obtain ⟨_, -, hstore⟩ := bind_eq_ok hstore
    cases hstore
    have hother {key : String} (hreason : "rollback_reason" ≠ key)
        (hresult : "dtm.workflow.result" ≠ key) :
        (putOrRemove (putOrRemove tx.metadata "rollback_reason" (reason.getD ""))
          "dtm.workflow.result" (text.getD ""))[key]? = tx.metadata[key]? :=
      (getElem?_putOrRemove hresult).trans (getElem?_putOrRemove hreason)
    exact ⟨⟨h.carries.kind, h.carries.branches,
      (hother (by decide) (by decide)).trans h.carries.query,
      (hother (by decide) (by decide)).trans h.carries.custom,
      (hother (by decide) (by decide)).trans h.carries.protocol⟩, h.seen,
      getD_putOrRemove.trans htext⟩

theorem toList_loop (bs : ByteArray) (i : Nat) (r : List UInt8) :
    ByteArray.toList.loop bs i r = r.reverse ++ bs.data.toList.drop i := by
  fun_induction ByteArray.toList.loop bs i r with
  | case1 i r h ih =>
    have hi : i < bs.data.toList.length := h
    have hget : bs.get! i = bs.data.toList[i] := by
      show bs.data[i]! = _
      rw [getElem!_pos bs.data i h]
      rfl
    rw [ih, List.reverse_cons, List.append_assoc, hget, List.singleton_append,
      ← List.drop_eq_getElem_cons hi]
  | case2 i r h =>
    have hi : bs.data.toList.length ≤ i := Nat.le_of_not_lt h
    rw [List.drop_eq_nil_of_le hi, List.append_nil]

/-- The bytes of the text that some bytes are. -/
theorem toUTF8_of_fromUTF8? {bytes : List UInt8} {text : String}
    (h : String.fromUTF8? ⟨bytes.toArray⟩ = some text) : text.toUTF8.toList = bytes := by
  unfold String.fromUTF8? at h
  split at h
  · cases h
    show ByteArray.toList.loop ⟨bytes.toArray⟩ 0 [] = bytes
    rw [toList_loop]
    rfl
  · cases h

theorem parseKind_workflow : parseKind "workflow" = .ok .workflow := by decide +kernel

/-- The service reads the bytes that the helper was given. -/
theorem seen_of_recorded {branchId operation : String} {status : WorkflowProgressStatus}
    {bytes : List UInt8} {request : CompatBranchRequest} {progress : WorkflowProgress}
    (hsent : DtmHttpClient.recordCallbackWorkflowProgress gid branchId operation status bytes =
      .ok request)
    (hread : state.compatRegistrationFromRequest request = .ok (.workflow progress)) :
    progress.seen = ⟨branchId, operation, status, bytes⟩ := by
  unfold DtmHttpClient.recordCallbackWorkflowProgress at hsent
  obtain ⟨text, htext, hsent⟩ := bind_eq_ok hsent
  cases hutf8 : String.fromUTF8? ⟨bytes.toArray⟩ with
  | none =>
    rw [hutf8] at htext
    cases htext
  | some decoded =>
    rw [hutf8] at htext
    cases htext
    cases hsent
    unfold ControlState.compatRegistrationFromRequest at hread
    obtain ⟨kind, hkind, hread⟩ := bind_eq_ok hread
    cases hkind.symm.trans parseKind_workflow
    rw [if_pos rfl] at hread
    have hbytes := toUTF8_of_fromUTF8? hutf8
    cases status with
    | succeeded | failed =>
      obtain ⟨_, hstatus, hread⟩ := bind_eq_ok hread
      cases hstatus
      obtain ⟨_, hoperation, hread⟩ := bind_eq_ok hread
      cases hoperation
      obtain ⟨_, -, hread⟩ := bind_eq_ok hread
      cases hread
      exact congrArg (CallbackWorkflowProgress.mk branchId operation _) hbytes

/-- The service reads the result that the helper was given. -/
theorem result_of_finished {reason : String} {status : WorkflowProgressStatus} {bytes : List UInt8}
    {completion : CallbackWorkflowCompletion}
    (hread : callbackWorkflowCompletion .workflow .submit
      (DtmHttpClient.finishCallbackWorkflow gid status reason bytes) = .ok (some completion)) :
    completion.result.getD "" = Base64.encode bytes := by
  have hstatus : (DtmHttpClient.finishCallbackWorkflow gid status reason bytes).reqExtra["status"]? =
      some (DtmHttpClient.statusText status) :=
    (getElem?_insert_other (by decide)).trans ((getElem?_insert_other (by decide)).trans
      Std.ExtTreeMap.getElem?_insert_self)
  have hresult : (DtmHttpClient.finishCallbackWorkflow gid status reason bytes).reqExtra["result"]? =
      some (Base64.encode bytes) := Std.ExtTreeMap.getElem?_insert_self
  unfold callbackWorkflowCompletion at hread
  rw [if_neg (by decide), hstatus, hresult] at hread
  cases status with
  | succeeded | failed =>
    cases hread
    rfl

theorem ClientHistory.holds (hstored : Holds queryPrepared name data stored [] [])
    (h : ClientHistory state stored tx seen result) :
    Holds queryPrepared name data tx seen result := by
  induction h with
  | prepared => exact hstored
  | recorded _ sent received accepted ih =>
    have hprogress := ih.progress accepted
    rw [seen_of_recorded sent received] at hprogress
    exact hprogress
  | registered _ accepted ih => exact ih.progress accepted
  | finished _ received accepted ih => exact ih.complete (result_of_finished received) accepted
  | answered _ accepted ih => exact ih.complete rfl accepted
  | kept _ keeps ih => exact ih.keeps keeps

/-! ### The other changes of a record -/

/-- `prepare_workflow` changes the status. -/
theorem KeepsCallback.status (tx : Transaction) (status : TransactionStatus) (revision now : Nat) :
    KeepsCallback tx { tx with status, revision, updatedAtMillis := now } :=
  ⟨rfl, rfl, rfl, fun _ _ => rfl⟩

/-- The recovery of a callback Workflow defers it. -/
theorem KeepsCallback.defer {now : Nat} {delay : WorkflowRecoveryDelay}
    (h : deferWorkflowRecovery now tx delay = .ok tx') : KeepsCallback tx tx' := by
  rw [deferWorkflowRecovery] at h
  obtain ⟨_, -, h⟩ := bind_eq_ok h
  obtain ⟨_, -, h⟩ := bind_eq_ok h
  obtain ⟨_, -, h⟩ := bind_eq_ok h
  cases h
  refine ⟨rfl, rfl, rfl, fun key hkey => ?_⟩
  have hother : ∀ key ∈ ["dtm.query_prepared", "dtm.custom_data", "dtm.protocol",
      "dtm.workflow.result"], "dtm.callback.attempts" ≠ key ∧
      "dtm.callback.last_attempt_millis" ≠ key ∧ "dtm.callback.next_retry_millis" ≠ key ∧
      "dtm.callback.last_outcome" ≠ key := by decide
  obtain ⟨hattempts, hlast, hnext, houtcome⟩ := hother key hkey
  exact (getElem?_insert_other houtcome).trans ((getElem?_insert_other hnext).trans
    ((getElem?_insert_other hlast).trans (getElem?_insert_other hattempts)))

/-! ### The round trip -/

/-- **The data of a named callback Workflow come back.**  With a query URL, the custom data that
are sent have at most 3 MiB, and whatever becomes of the record that is stored, the callback is
called with the name and the data, and the client reads the progresses and the result that were
recorded. -/
theorem callback_data_round_trips (state : ControlState) (hlibs : state.dtm.libs.DecodesData)
    (gid queryPrepared name : String) (data : List UInt8) (hquery : queryPrepared ≠ "")
    (hname : name ≠ "" ∧ name.utf8ByteSize ≤ 128) (hdata : data.length ≤ 2 * 1024 * 1024) :
    ∃ request, DtmHttpClient.prepareNamedCallbackWorkflow gid queryPrepared name data = .ok request ∧
      (∃ text, request.customData = some text ∧ text.utf8ByteSize ≤ 3 * 1024 * 1024) ∧
      ∀ K stored, (state.compatPrepareWorkflow request).run.Comes (Reads K)
          (.insertTransaction stored) →
        ∀ tx seen result, ClientHistory state stored tx seen result →
          (∃ callback, workflowCallbackRequest state.dtm.libs tx = .ok callback ∧
            callback.operation = name ∧ callback.data = data) ∧
          ∃ snapshot, decodeCallbackWorkflow state.dtm.libs ⟨200, compatWorkflowResponse tx⟩ =
              .ok snapshot ∧
            (∀ p, p ∈ snapshot.progresses ↔ p ∈ seen) ∧ snapshot.result = result := by
  refine ⟨DtmHttpClient.prepareCallbackWorkflow gid queryPrepared
    (objectText [("data", Base64.encode data), ("name", name)]), ?_, ⟨_, rfl, ?_⟩, ?_⟩
  · unfold DtmHttpClient.prepareNamedCallbackWorkflow
    rw [show RozeDtm.ensure _ _ = Except.ok () from ensure_eq_ok.mpr (by simpa using hname),
      show RozeDtm.ensure _ _ = Except.ok () from ensure_eq_ok.mpr (decide_eq_true hdata)]
    rfl
  · have hsize := utf8ByteSize_customData_le data name
    omega
  · intro K stored hstored tx seen result hhistory
    obtain ⟨hcarries, hnone, hresult⟩ := stored_callback hquery hstored
    have hstart : Holds queryPrepared name data stored [] [] := by
      refine ⟨hcarries, fun p => ?_, ?_⟩
      · rw [hnone]
        exact Iff.rfl
      · rw [hresult]
        rfl
    have hholds := hhistory.holds hstart
    exact ⟨hholds.carries.called hlibs hquery hname hdata,
      _, decodeCallbackWorkflow_response hlibs hholds.result, hholds.seen, rfl⟩

end Record

/-! ### A Workflow with a callback, and one without -/

/-- The library functions on objects of texts and on base64. -/
def Libs.reading : Libs :=
  { Libs.plain with
    parseJson := fun text =>
      (JsonText.readObject text.toList).elim (.error "expected value") fun entries =>
        .ok (.obj (entries.map fun (key, value) =>
          (String.ofList key, .str (String.ofList value))))
    decodeBase64 := fun text => (Base64.decode text).elim (.error "invalid byte") .ok }

theorem Libs.reading_decodes : Libs.reading.DecodesData where
  base64 := by
    intro bytes
    show (Base64.decode _).elim _ _ = _
    rw [Base64.decode_encode]
    rfl
  json := by
    intro data name
    show (JsonText.readObject (objectText _).toList).elim _ _ = _
    rw [objectText, String.toList_ofList, JsonText.readObject_objectChars
      (by rw [List.map_cons]; exact List.cons_ne_nil _ _)]
    show Except.ok (Json.obj [(String.ofList "data".toList, .str (String.ofList data.toList)),
      (String.ofList "name".toList, .str (String.ofList name.toList))]) = _
    simp only [String.ofList_toList]

/-- A service over these. -/
def ControlState.reading : ControlState := ⟨⟨.default, .reading⟩, .plain, .allowAll⟩

/-- The progress that the client records of its two bytes. -/
def recordedProgress : WorkflowProgress := ⟨"01", "pay", .succeeded, [104, 105]⟩

/-- The client prepares a Workflow, records a progress and finishes, and everything comes back. -/
theorem callback_data_comes_back : ∃ stored tx,
    ClientHistory .reading stored tx [⟨"01", "pay", .succeeded, [104, 105]⟩] [1, 255] ∧
    (∃ callback, workflowCallbackRequest .reading tx = .ok callback ∧
      callback.operation = "op" ∧ callback.data = [0, 34]) ∧
    ∃ snapshot, decodeCallbackWorkflow .reading ⟨200, compatWorkflowResponse tx⟩ = .ok snapshot ∧
      (∀ p, p ∈ snapshot.progresses ↔ p ∈ [⟨"01", "pay", .succeeded, [104, 105]⟩]) ∧
      snapshot.result = [1, 255] := by
  obtain ⟨request, hrequest, -, htrip⟩ := callback_data_round_trips .reading Libs.reading_decodes
    "g" "http://a/back" "op" [0, 34] (by decide) (by decide) (by decide)
  cases hrequest
  obtain ⟨stored, hstored, hnext⟩ := exists_insert (World.initial []) (K := fun _ _ _ => True)
    (fun _ _ => trivial)
    (p := (ControlState.reading.compatPrepareWorkflow (DtmHttpClient.prepareCallbackWorkflow "g"
      "http://a/back" (objectText [("data", Base64.encode [0, 34]), ("name", "op")]))).run)
    (fun tx => (appendWorkflowProgress 0 { tx with status := .prepared } recordedProgress).toOption.any
      fun tx => (applyWorkflowCompletion 0 tx .succeeded (some "") (some "Af8=")).isOk)
    (by decide +kernel)
  cases hprogressed : appendWorkflowProgress 0 { stored with status := .prepared }
      recordedProgress with
  | error e =>
    rw [hprogressed] at hnext
    cases hnext
  | ok progressed =>
    rw [hprogressed] at hnext
    cases hfinished : applyWorkflowCompletion 0 progressed .succeeded (some "") (some "Af8=") with
    | error e =>
      have hrefused : (applyWorkflowCompletion 0 progressed .succeeded (some "")
        (some "Af8=")).isOk = true := hnext
      rw [hfinished] at hrefused
      cases hrefused
    | ok tx =>
      have hsent : DtmHttpClient.recordCallbackWorkflowProgress "g" "01" "pay" .succeeded [104, 105] =
          .ok ⟨"g", "workflow", "01", some "hi", some "pay", some "succeed", none, none, none, none⟩ :=
        rfl
      have hprogress : ControlState.reading.compatRegistrationFromRequest
          ⟨"g", "workflow", "01", some "hi", some "pay", some "succeed", none, none, none, none⟩ =
            .ok (.workflow recordedProgress) := by decide +kernel
      have hcompletion : callbackWorkflowCompletion .workflow .submit
          (DtmHttpClient.finishCallbackWorkflow "g" .succeeded "" [1, 255]) =
            .ok (some ⟨.succeeded, some "", some "Af8="⟩) := rfl
      have hprepared : ClientHistory .reading stored { stored with status := .prepared } [] [] :=
        .kept .prepared (.status stored .prepared stored.revision stored.updatedAtMillis)
      have hhistory : ClientHistory .reading stored tx [⟨"01", "pay", .succeeded, [104, 105]⟩]
          [1, 255] :=
        .finished (.recorded hprepared hsent hprogress hprogressed) hcompletion hfinished
      exact ⟨stored, tx, hhistory, htrip _ _ hstored tx _ _ hhistory⟩

/-- The text of the data and the name of a Workflow. -/
def sentData : String := objectText [("data", ""), ("name", "op")]

/-- Without a query URL the Workflow is prepared as well, and the client reads it, but it has no
callback. -/
theorem callback_data_unreadable : ∃ request P tx,
    DtmHttpClient.prepareNamedCallbackWorkflow "g" "" "op" [] = .ok request ∧
    inMemory.Reaches (ControlState.reading.Programs (· = .compatApply request .prepare))
      (.initial []) P ∧
    P.world.txs["g"]? = some tx ∧ tx.status = .prepared ∧
    (decodeCallbackWorkflow .reading ⟨200, compatWorkflowResponse tx⟩).isOk = true ∧
    ∀ callback, workflowCallbackRequest .reading tx ≠ .ok callback := by
  obtain ⟨P, hP, hφ⟩ := ControlState.exists_run inMemory .reading
    (· = .compatApply (DtmHttpClient.prepareCallbackWorkflow "g" "" sentData) .prepare) (.initial [])
    (.start (.compatApply (DtmHttpClient.prepareCallbackWorkflow "g" "" sentData) .prepare) ::
      List.replicate 5 (.exec 0 (.ofOk true)))
    (fun w => (w.txs["g"]?).any fun tx => tx.status = .prepared &&
      (decodeCallbackWorkflow .reading ⟨200, compatWorkflowResponse tx⟩).isOk &&
      !(workflowCallbackRequest .reading tx).isOk)
    (by simp) (by decide +kernel)
  cases htx : P.world.txs["g"]? with
  | none =>
    rw [htx] at hφ
    cases hφ
  | some tx =>
    rw [htx] at hφ
    have hboth : (decide (tx.status = .prepared) &&
        (decodeCallbackWorkflow .reading ⟨200, compatWorkflowResponse tx⟩).isOk &&
        !(workflowCallbackRequest .reading tx).isOk) = true := hφ
    rw [Bool.and_eq_true, Bool.and_eq_true, decide_eq_true_eq] at hboth
    refine ⟨DtmHttpClient.prepareCallbackWorkflow "g" "" sentData, P, tx, rfl, hP, htx,
      hboth.1.1, hboth.1.2, fun callback hcallback => ?_⟩
    rw [hcallback] at hboth
    cases hboth.2

end RozeDtm
