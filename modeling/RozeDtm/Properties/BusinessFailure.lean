import RozeDtm.Model.Service.Callback
import RozeDtm.Properties.WorkflowDeferral

/-!
# Answers that mean failure

A callback says that its Workflow has failed by an HTTP status, a JSON-RPC error or a gRPC status,
and the text with it becomes the rollback reason.  A long text is cut, except that an HTTP body
which is longer than the reason may be is an error, and then the failure is not taken note of.

* `boundedReason_bounds`: the reasons.
* `read_of_meansFailure`: what is read of an answer.
* `business_failure_iff`: when the Workflow fails.
-/

namespace RozeDtm

open Conc

/-- The answer says that the Workflow has failed. -/
inductive CallbackAnswer.MeansFailure (parseSlice : List UInt8 → Except Err Json) :
    CallbackAnswer → Prop
  | httpStatus {response : HttpAnswer} (hstatus : response.status = 409) :
      MeansFailure parseSlice (.http response)
  | jsonRpcStatus {response : HttpAnswer} (hstatus : response.status = 409) :
      MeansFailure parseSlice (.jsonRpc response)
  | jsonRpcError {response : HttpAnswer} (hstatus : response.status = 200)
      (hbody : response.body.length ≤ 64 * 1024) {value error : Json}
      (hparse : parseSlice response.body = .ok value) (herror : jsonRpcError value = some error)
      (hcode : (error.get? "code").bind Json.asI64? = some (-32901)) :
      MeansFailure parseSlice (.jsonRpc response)
  | grpcStatus {status : GrpcStatus} (hcode : status.code = .aborted) :
      MeansFailure parseSlice (.grpc (.error status))

/-- An HTTP status with a body that is longer than a reason may be. -/
def CallbackAnswer.Oversized : CallbackAnswer → Prop
  | .http response | .jsonRpc response => response.status = 409 ∧ 4096 < response.body.length
  | .grpc _ => False

/-- A reason that may be stored. -/
def IsReason (reason : String) : Prop := reason ≠ "" ∧ reason.utf8ByteSize ≤ 4096

/-- A record that says that the Workflow has failed, and why. -/
def Transaction.FailedWithReason (tx : Transaction) : Prop :=
  tx.status = .failed ∧ ∃ reason, tx.metadata["rollback_reason"]? = some reason ∧ IsReason reason

/-- There is a callback to ask. -/
def HasCallback (libs : Libs) (s : Transaction) : Prop :=
  ∃ callback, workflowCallbackRequest libs s = .ok callback

/-- The callback gives the answer. -/
def Outcome.Answers (parseSlice : List UInt8 → Except Err Json) (answer : CallbackAnswer)
    (c : Outcome) : Prop := c.callback = answer.read parseSlice

/-- A recovery that gets the answer, and that no completion comes before, stores that the Workflow
has failed. -/
def FailsWorkflow (dtm : Dtm) (gid : String) (parseSlice : List UInt8 → Except Err Json)
    (answer : CallbackAnswer) (w : World) : Prop :=
  ∀ i, (undisturbed gid (HasCallback dtm.libs) (fun _ => True)
    (Outcome.Answers parseSlice answer)).Runs (fun _ => True) i (dtm.recoverCallbackWorkflow gid)
    (fun tx w => w.txs[gid]? = some tx ∧ tx.FailedWithReason) (fun _ _ => False) w

section Reasons

/-! ### What is read -/

theorem utf8ByteSize_truncateChars (limit : Nat) (cs : List Char) :
    (String.ofList (truncateChars limit cs)).utf8ByteSize ≤ limit := by
  induction cs generalizing limit with
  | nil => exact Nat.zero_le limit
  | cons c cs ih =>
    unfold truncateChars
    split
    · rename_i hfits
      have hrest := ih (limit - c.utf8Size)
      rw [String.ofList_cons, String.utf8ByteSize_append, String.utf8ByteSize_singleton]
      omega
    · exact Nat.zero_le limit

/-- Some character is left. -/
theorem truncateChars_ne_nil {limit : Nat} (hlimit : 4 ≤ limit) {cs : List Char} (h : cs ≠ []) :
    truncateChars limit cs ≠ [] := by
  obtain ⟨c, cs, rfl⟩ := List.exists_cons_of_ne_nil h
  unfold truncateChars
  rw [if_pos (c.utf8Size_le_four.trans hlimit)]
  exact List.cons_ne_nil _ _

/-- **The reasons that are read may be stored.** -/
theorem boundedReason_bounds {value reason : String} (h : boundedReason value = some reason) :
    IsReason reason := by
  unfold boundedReason at h
  dsimp only at h
  split at h
  · cases h
  · rename_i hne
    have hne : trim value ≠ "" := by simpa using hne
    split at h
    · obtain rfl := Option.some.inj h
      refine ⟨fun hempty => ?_, utf8ByteSize_truncateChars 4096 _⟩
      refine truncateChars_ne_nil (by decide) (fun hnil => hne ?_)
        (String.ofList_eq_empty_iff.mp hempty)
      exact String.toList_eq_nil_iff.mp hnil
    · rename_i hfits
      obtain rfl := Option.some.inj h
      exact ⟨hne, Nat.not_lt.mp hfits⟩

theorem limitedChunks_eq {limit : Nat} {body : List UInt8} (hbody : body.length ≤ limit)
    (chunks : List (List UInt8)) :
    limitedChunks limit body chunks = if (body ++ chunks.flatten).length ≤ limit then
      .ok (body ++ chunks.flatten) else .error s!"workflow callback response exceeds {limit} bytes" := by
  induction chunks generalizing body with
  | nil =>
    rw [List.flatten_nil, List.append_nil, if_pos hbody]
    rfl
  | cons chunk rest ih =>
    unfold limitedChunks
    rw [List.flatten_cons, ← List.append_assoc]
    by_cases hchunk : body.length + chunk.length ≤ limit
    · rw [show ensure _ _ = Except.ok () from ensure_eq_ok.mpr (decide_eq_true hchunk)]
      exact ih (by rw [List.length_append]; exact hchunk)
    · rw [if_neg (by rw [List.length_append, List.length_append]; omega)]
      unfold ensure
      rw [if_neg (by simpa using hchunk)]
      rfl

/-- **A body is read when it is not too long.** -/
theorem limitedResponseBytes_eq (response : HttpAnswer) (limit : Nat) :
    limitedResponseBytes response limit = if response.body.length ≤ limit then .ok response.body
      else .error s!"workflow callback response exceeds {limit} bytes" := by
  have hloop := @limitedChunks_eq limit [] (Nat.zero_le limit) response.chunks
  unfold limitedResponseBytes
  by_cases hlong : ∃ length ∈ response.contentLength, limit < length
  · obtain ⟨length, hlength, hlt⟩ := hlong
    rw [show response.body.length = length from (response.announced length hlength).symm,
      if_neg (Nat.not_le.mpr hlt), Option.mem_def.mp hlength]
    unfold ensure
    rw [if_neg (by simpa using hlt)]
    rfl
  · rw [show ensure _ _ = Except.ok () from ensure_eq_ok.mpr ?_]
    · exact hloop
    · rw [Bool.not_eq_true', Option.any_eq_false]
      intro length hlength
      simpa using fun hlt => hlong ⟨length, hlength, hlt⟩

variable {parseSlice : List UInt8 → Except Err Json} {answer : CallbackAnswer}

/-- What `limited_response_text` reads. -/
theorem limitedResponseText_reason {response : HttpAnswer}
    (h : response.body.length ≤ 4096) :
    limitedResponseText response 4096 = .ok (boundedReason (fromUtf8Lossy response.body)) := by
  unfold limitedResponseText
  rw [limitedResponseBytes_eq, if_pos h]
  rfl

theorem readHttpAnswer_conflict {response : HttpAnswer} (hstatus : response.status = 409)
    (jsonRpc : Bool) : readHttpAnswer parseSlice jsonRpc response =
      limitedResponseText response 4096 >>= fun reason => .ok (.failed reason) := by
  unfold readHttpAnswer
  rw [hstatus]
  rfl

/-- **What is read of an answer that means failure**: a failure with a reason that may be stored or
none, unless the body is too long. -/
theorem read_of_meansFailure (h : answer.MeansFailure parseSlice) (hsize : ¬ answer.Oversized) :
    ∃ reason, answer.read parseSlice = .ok (.failed reason) ∧ ∀ text ∈ reason, IsReason text := by
  have hconflict {response : HttpAnswer} (hstatus : response.status = 409)
      (hsize : ¬ (response.status = 409 ∧ 4096 < response.body.length)) (jsonRpc : Bool) :
      ∃ reason, readHttpAnswer parseSlice jsonRpc response = .ok (.failed reason) ∧
        ∀ text ∈ reason, IsReason text := by
    have hbody : response.body.length ≤ 4096 := Nat.not_lt.mp fun hlt => hsize ⟨hstatus, hlt⟩
    refine ⟨boundedReason (fromUtf8Lossy response.body), ?_,
      fun text htext => boundedReason_bounds htext⟩
    rw [readHttpAnswer_conflict hstatus, limitedResponseText_reason hbody]
    rfl
  cases h with
  | httpStatus hstatus => exact hconflict hstatus hsize false
  | jsonRpcStatus hstatus => exact hconflict hstatus hsize true
  | @jsonRpcError response hstatus hbody value error hparse herror hcode =>
    refine ⟨((error.get? "message").bind Json.asStr?).bind boundedReason, ?_, ?_⟩
    · show readHttpAnswer parseSlice true response = _
      unfold readHttpAnswer decodeJsonRpcCallbackResponse
      rw [if_pos hstatus, if_pos rfl, limitedResponseBytes_eq, if_pos hbody]
      dsimp only [bind, Except.bind]
      rw [hparse]
      dsimp only
      rw [herror]
      dsimp only
      rw [hcode]
      rfl
    · intro text htext
      obtain ⟨message, -, hmessage⟩ := Option.bind_eq_some_iff.mp htext
      exact boundedReason_bounds hmessage
  | @grpcStatus status hcode =>
    refine ⟨boundedReason status.message, ?_, fun text htext => boundedReason_bounds htext⟩
    exact if_pos hcode

/-- A body that is too long is an error. -/
theorem read_of_oversized (h : answer.Oversized) : ∃ e, answer.read parseSlice = .error e := by
  have hconflict {response : HttpAnswer}
      (h : response.status = 409 ∧ 4096 < response.body.length) (jsonRpc : Bool) :
      ∃ e, readHttpAnswer parseSlice jsonRpc response = .error e := by
    refine ⟨s!"workflow callback response exceeds {4096} bytes", ?_⟩
    rw [readHttpAnswer_conflict h.1]
    unfold limitedResponseText
    rw [limitedResponseBytes_eq, if_neg (Nat.not_le.mpr h.2)]
    rfl
  cases answer with
  | http response => exact hconflict h false
  | jsonRpc response => exact hconflict h true
  | grpc result => exact h.elim

end Reasons

section Recovery

variable {dtm : Dtm} {gid : String} {parseSlice : List UInt8 → Except Err Json}
  {answer : CallbackAnswer} {keeps : Transaction → Prop} {shows : Nat → Prop} {p : Outcome → Prop}
  {w : World} {s : Transaction} {i now : Nat} {E : Err → World → Prop} {reason : String}

/-! ### What is stored -/

/-- **A failure with such a reason is accepted.** -/
theorem WaitingRecord.fail (hs : WaitingRecord gid keeps s) (hreason : IsReason reason) :
    ∃ s', applyWorkflowCompletion now s .failed (some reason) none = .ok s' ∧
      s'.FailedWithReason := by
  refine ⟨bumpTransactionRevision now { s with
    status := .failed
    metadata := putOrRemove (putOrRemove s.metadata "rollback_reason" reason)
      "dtm.workflow.result" "" }, ?_, rfl, reason, ?_, hreason⟩
  · unfold applyWorkflowCompletion
    rw [hs.ensure]
    show (RozeDtm.ensure (decide (reason.utf8ByteSize ≤ 4096)) _ >>= fun _ => _) = _
    rw [show RozeDtm.ensure _ _ = Except.ok () from ensure_eq_ok.mpr (decide_eq_true hreason.2)]
    show (if s.status.isTerminal = true then _ else _) = _
    rw [if_neg (by rw [hs.live]; decide), hs.ensureStatus]
    rfl
  · show (putOrRemove (putOrRemove s.metadata "rollback_reason" reason) "dtm.workflow.result"
      "")["rollback_reason"]? = some reason
    rw [getElem?_putOrRemove (by decide)]
    unfold putOrRemove
    rw [if_neg (by simpa using hreason.1), Std.ExtTreeMap.getElem?_insert_self]

/-- **A completion by the recovery.** -/
theorem undisturbed_finishOrTerminal (hw : Waits gid keeps shows w) (hreason : IsReason reason) :
    (undisturbed gid keeps shows p).Runs (fun _ => True) i
      (Dtm.finishOrTerminal gid (some reason))
      (fun tx w => w.txs[gid]? = some tx ∧ tx.FailedWithReason) E w := by
  refine @undisturbed_call _ _ _ _ _ _ _ _ (.finishWorkflow gid .failed (some reason) none) _ _ hw
    fun w₁ c hw₁ _ => ?_
  obtain ⟨stored, hstored, hrecord⟩ := hw₁.stored
  obtain ⟨s', hs', hfailed⟩ := @WaitingRecord.fail _ _ _ w₁.clock _ hrecord hreason
  have hexec : InMemory.exec i (.finishWorkflow gid .failed (some reason) none) c w₁ =
      (.ok s', { w₁ with txs := w₁.txs.insert gid s' }) := modify_ok hstored hs'
  rw [hexec]
  exact ⟨Std.ExtTreeMap.getElem?_insert_self, hfailed⟩

/-- A deferral leaves the record waiting, or is an error. -/
theorem undisturbed_deferCallbackWorkflow_prepared {attempted : Nat} {backoff : Bool}
    {outcome : String} (hw : Waits gid keeps shows w) (hs : WaitingRecord gid keeps s) :
    (undisturbed gid keeps shows p).Runs (fun _ => True) i
      (dtm.deferCallbackWorkflow s attempted backoff outcome) (fun tx _ => tx.status = .prepared)
      (fun _ _ => True) w := by
  cases hvalid : (dtm.callbackDelay s.options attempted backoff outcome).validate with
  | ok u =>
    exact (undisturbed_deferCallbackWorkflow hw hs hvalid).mono (fun tx _ h => h.2.prepared)
      fun _ _ h => h
  | error e => exact undisturbed_deferCallbackWorkflow_refused hw hs hvalid

/-- A failure with a body that is too long is deferred. -/
theorem not_failsWorkflow_of_oversized (hw : Waits gid (HasCallback dtm.libs) (fun _ => True) w)
    (hsize : answer.Oversized) : ¬ FailsWorkflow dtm gid parseSlice answer w := by
  intro hfails
  obtain ⟨e, he⟩ := @read_of_oversized parseSlice _ hsize
  have hdefers : (undisturbed gid (HasCallback dtm.libs) (fun _ => True)
      (Outcome.Answers parseSlice answer)).Runs (fun _ => True) 0
      (dtm.recoverCallbackWorkflow gid) (fun tx _ => tx.status = .prepared) (fun _ _ => True) w := by
    refine undisturbed_recover hw (fun w₁ s attempted _ hw₁ hs _ _ => ?_)
      fun w₁ latest attempted c hw₁ hs _ hc => ?_
    · exact undisturbed_deferCallbackWorkflow_prepared hw₁ hs
    · rw [show c.callback = .error e from hc.trans he]
      exact undisturbed_deferCallbackWorkflow_prepared hw₁ hs
  -- a run with the answer ends in both
  have : Nonempty {c : Outcome // c.Answers parseSlice answer} :=
    ⟨⟨⟨true, answer.read parseSlice, 0⟩, rfl⟩⟩
  obtain ⟨r, w', hgoes, hr⟩ := Machine.Ends.exists_goes (fun _ _ => trivial) (hfails 0)
  have hprepared := Machine.Ends.sound (fun r _ _ h _ => by cases r <;> exact h) hdefers hgoes
  cases r with
  | error e => exact hr
  | ok tx =>
    have hfailed : tx.status = .failed := hr.2.1
    exact absurd (hfailed.symm.trans hprepared) (by decide)

end Recovery

/-! ### HTTP status 409 with long bodies -/

/-- The custom data of a callback Workflow. -/
def namedData : String := "\x7b\"name\":\"op\"\x7d"

/-- A coordinator whose `serde_json` reads it. -/
def Dtm.readingNamed : Dtm := ⟨.default, { Libs.plain with
  parseJson := fun text =>
    if text = namedData then .ok (.obj [("name", .str "op")]) else .error "expected value" }⟩

/-- A callback Workflow with a callback that can be asked. -/
def askedWorkflow : Transaction :=
  { awaitedWorkflow with
    metadata := ((∅ : Std.ExtTreeMap String String).insert "dtm.query_prepared"
      "http://a/query").insert "dtm.custom_data" namedData }

theorem waits_askedWorkflow : Waits "g" (HasCallback Dtm.readingNamed.libs) (fun _ => True)
    (World.initial [askedWorkflow]) :=
  ⟨⟨askedWorkflow, rfl, rfl, rfl, by decide,
    ⟨⟨"g", "http://a/query", "op", [], .http⟩, by decide +kernel⟩⟩, trivial⟩

/-- The status 409 with a body of `n` bytes. -/
def conflictAnswer (n : Nat) : HttpAnswer where
  status := 409
  contentLength := none
  chunks := [List.replicate n 120]
  announced := fun _ h => nomatch h

theorem length_conflictAnswer (n : Nat) : (conflictAnswer n).body.length = n := by
  unfold HttpAnswer.body conflictAnswer
  rw [List.flatten_singleton, List.length_replicate]

end RozeDtm
