import Mathlib.Data.List.TakeWhile
import RozeDtm.Model.Service.Grpc
import RozeDtm.Properties.BranchFit
import RozeDtm.Trail.Inserts

/-!
# The payloads of gRPC requests

`payload_value` parses the bytes of a payload, and `compat_transaction`, written for payloads that
HTTP requests carry as texts, parses again what is a text.  So a text that is itself the JSON text
of a value arrives as that value, and everything else as it was sent.

* `submitted_steps`: the branches stored for the steps of a request, and their payloads.
* `grpc_payloads_arrive_iff`: when the payloads arrive.
-/

namespace RozeDtm

open Conc

/-- A branch with this id is stored for the step at `index`. -/
def OfStep (index : Nat) (id : String) : Prop :=
  id = Dtm.twoDigits (index + 1) ∨ ∃ n, id = s!"{Dtm.twoDigits (index + 1)}-{Dtm.twoDigits n}"

/-- The value that the payload of a gRPC request has for the step at `index`. -/
def GrpcLibs.sentValue (libs : GrpcLibs) (input : DtmRequest) (index : Nat) : Option Json :=
  (input.binPayloads[index]?).bind fun bytes => (libs.parseJsonSlice bytes).toOption

/-- The payloads of the first `steps` steps arrive unchanged. -/
structure PayloadsArrive (libs : GrpcLibs) (input : DtmRequest) (steps : Nat)
    (stored : Transaction) : Prop where
  exist : ∀ index < steps, ∃ b ∈ stored.branches, OfStep index b.id
  equal : ∀ index < steps, ∀ v, libs.sentValue input index = some v →
    ∀ b ∈ stored.branches, OfStep index b.id → b.payload = v
  differ : ∀ index < steps, ∀ index' < steps, ∀ v v', libs.sentValue input index = some v →
    libs.sentValue input index' = some v' → v ≠ v' →
    ∀ b ∈ stored.branches, OfStep index b.id → ∀ b' ∈ stored.branches, OfStep index' b'.id →
      b.payload ≠ b'.payload

/-- A text that is the JSON text of another value. -/
def Json.IsReparsed (libs : Libs) (v : Json) : Prop :=
  ∃ text w, v = .str text ∧ libs.parseJson text = .ok w ∧ w ≠ v

/-! ### The numbers of the steps -/

theorem twoDigits_isDigit (n : Nat) : ∀ c ∈ (Dtm.twoDigits n).toList, c.isDigit = true := by
  have hdigits : ∀ c ∈ (toString n).toList, c.isDigit = true := by
    rw [show (toString n).toList = Nat.toDigits 10 n from Nat.toList_repr]
    exact fun c hc => Nat.isDigit_of_mem_toDigits (by decide) (by decide) hc
  unfold Dtm.twoDigits
  split
  · rw [String.toList_append, List.forall_mem_append]
    refine ⟨?_, hdigits⟩
    rw [show "0".toList = ['0'] from rfl, List.forall_mem_singleton]
    decide
  · exact hdigits

/-- A leading 0 does not change the number. -/
theorem ofDigitChars_twoDigits (n : Nat) : Nat.ofDigitChars 10 (Dtm.twoDigits n).toList 0 = n := by
  have htext : (toString n).toList = Nat.toDigits 10 n := Nat.toList_repr
  unfold Dtm.twoDigits
  split
  · rw [String.toList_append, htext]
    exact Nat.ofDigitChars_ten_toDigits
  · rw [htext]
    exact Nat.ofDigitChars_ten_toDigits

theorem OfStep.number {index : Nat} {id : String} (h : OfStep index id) :
    id.toList.takeWhile (· ≠ '-') = (Dtm.twoDigits (index + 1)).toList := by
  have hne : ∀ c ∈ (Dtm.twoDigits (index + 1)).toList, decide (c ≠ '-') = true := by
    intro c hc
    rw [decide_eq_true_eq]
    rintro rfl
    exact absurd (twoDigits_isDigit _ _ hc) (by decide)
  rcases h with rfl | ⟨n, rfl⟩
  · exact List.takeWhile_eq_self_iff.mpr hne
  · show (Dtm.twoDigits (index + 1) ++ "-" ++ Dtm.twoDigits n).toList.takeWhile _ = _
    rw [String.toList_append, String.toList_append, List.append_assoc,
      List.takeWhile_append_of_pos hne]
    show (Dtm.twoDigits (index + 1)).toList ++ [] = _
    exact List.append_nil _

/-- A branch is stored for one step at most. -/
theorem OfStep.unique {index index' : Nat} {id : String} (h : OfStep index id)
    (h' : OfStep index' id) : index = index' := by
  have hnumber := congrArg (Nat.ofDigitChars 10 · 0) (h.number.symm.trans h'.number)
  simp only [ofDigitChars_twoDigits] at hnumber
  omega

section Payloads

variable {state : ControlState} {libs : GrpcLibs} {input : DtmRequest} {kind : TransactionKind}
  {request : CompatTransactionRequest} {K : String → String → Option KvEntry → Prop}
  {stored tx : Transaction} {now : Nat} {v : Json} {index : Nat}

/-! ### The branches that are stored for the steps -/

theorem compatBranch_step {step : Std.ExtTreeMap String String} {b : Branch}
    (h : state.compatBranch kind request step index = .ok b) :
    b.id = Dtm.twoDigits (index + 1) ∧ b.payload = compatPayload state.dtm.libs request index := by
  unfold ControlState.compatBranch at h
  obtain ⟨action, -, h⟩ := bind_eq_ok h
  cases kind with
  | saga =>
    obtain ⟨_, -, h⟩ := bind_eq_ok h
    obtain ⟨compensate, -, h⟩ := bind_eq_ok h
    obtain ⟨_, -, h⟩ := bind_eq_ok h
    cases h
    exact ⟨rfl, rfl⟩
  | workflow =>
    obtain ⟨_, -, h⟩ := bind_eq_ok h
    obtain ⟨compensate, -, h⟩ := bind_eq_ok h
    obtain ⟨_, -, h⟩ := bind_eq_ok h
    cases h
    exact ⟨rfl, rfl⟩
  | message =>
    dsimp only at h
    split at h
    · obtain ⟨_, -, h⟩ := bind_eq_ok h
      cases h
      exact ⟨rfl, rfl⟩
    · cases h
      exact ⟨rfl, rfl⟩
  | tcc | xa =>
    obtain ⟨_, -, h⟩ := bind_eq_ok h
    cases h

/-- The branches of a request, before the topics among them are expanded. -/
theorem compatSubmission_steps (hkind : kind ≠ .tcc ∧ kind ≠ .xa)
    (h : state.compatSubmission now kind request = .ok tx) :
    List.Forall₂ (fun step b => b.id = Dtm.twoDigits (step.2 + 1) ∧
      b.payload = compatPayload state.dtm.libs request step.2) request.steps.zipIdx tx.branches := by
  obtain ⟨built, hbuilt, -, hbranches⟩ := compatSubmission_built h
  obtain ⟨-, steps, hsteps, hsame | ⟨hnot, -⟩⟩ := compatTransaction_steps hbuilt
  · rw [hbranches]
    refine forall₂_trans (fun step a b ha hab => ?_) hsteps hsame
    obtain ⟨hid, hpayload⟩ := compatBranch_step ha
    rw [hab]
    exact ⟨hid, hpayload⟩
  · rcases hnot with hnot | hnot
    · exact absurd hnot hkind.1
    · exact absurd hnot hkind.2

/-- **The branches stored for the steps.**  There is one for every step, and each has the payload
of its step. -/
theorem submitted_steps (hkind : kind ≠ .tcc ∧ kind ≠ .xa)
    (htx : state.compatSubmission now kind request = .ok tx)
    (h : Submitted state.dtm K tx stored) :
    (∀ index < request.steps.length, ∃ b ∈ stored.branches, OfStep index b.id) ∧
      ∀ b ∈ stored.branches, ∀ index, OfStep index b.id →
        b.payload = compatPayload state.dtm.libs request index := by
  have hsteps := compatSubmission_steps hkind htx
  obtain ⟨branches, hbranches, rfl⟩ := h.record
  rw [Dtm.withTimeout_branches]
  have hof {a b : Branch} {index : Nat} (ha : a.id = Dtm.twoDigits (index + 1))
      (hab : a.StandsFor b) : OfStep index b.id := by
    have hid := hab.id
    rw [ha] at hid
    exact hid
  constructor
  · intro index hindex
    have hmem : (request.steps[index], index) ∈ request.steps.zipIdx :=
      List.mk_mem_zipIdx_iff_getElem?.mpr (List.getElem?_eq_getElem hindex)
    obtain ⟨a, ha, hid, -⟩ := exists_of_forall₂_left hsteps hmem
    obtain ⟨b, hb, hab⟩ := hbranches.exists_standsFor ha
    exact ⟨b, hb, hof hid hab⟩
  · intro b hb index hindex
    obtain ⟨a, ha, hab⟩ := hbranches.standsFor hb
    obtain ⟨step, -, hid, hpayload⟩ := exists_of_forall₂ hsteps ha
    rw [(hof hid hab).unique hindex] at hpayload
    exact hab.payload.trans hpayload

/-! ### The payload that a step gets -/

/-- **What both conversions make of a payload.** -/
theorem compatPayload_eq_iff {steps : List (Std.ExtTreeMap String String)}
    (h : libs.sentValue input index = some v) :
    compatPayload state.dtm.libs (libs.requestWith input steps) index = v ↔
      ¬ v.IsReparsed state.dtm.libs := by
  obtain ⟨bytes, hbytes, hparse⟩ := Option.bind_eq_some_iff.mp h
  have hpayload : (libs.requestWith input steps).payloads[index]? = some v := by
    show (input.binPayloads.map libs.payloadValue)[index]? = some v
    rw [List.getElem?_map, hbytes, Option.map_some, GrpcLibs.payloadValue, hparse,
      Option.getD_some]
  unfold compatPayload
  rw [hpayload]
  cases v with
  | str text =>
    dsimp only
    cases hreparsed : state.dtm.libs.parseJson text with
    | error e =>
      constructor
      · rintro - ⟨_, w, ⟨⟩, hw, -⟩
        rw [hreparsed] at hw
        cases hw
      · exact fun _ => rfl
    | ok w =>
      show w = Json.str text ↔ _
      constructor
      · rintro rfl ⟨_, w, ⟨⟩, hw, hne⟩
        rw [hreparsed] at hw
        cases hw
        exact hne rfl
      · intro hnot
        by_contra hne
        exact hnot ⟨text, w, rfl, hreparsed, hne⟩
  | null | bool | num | arr | obj =>
    refine iff_of_true rfl ?_
    rintro ⟨_, _, ⟨⟩, -⟩

end Payloads

/-! ### The payload `"1"` -/

/-- The JSON text of one step. -/
def oneStepText : String :=
  "[\x7b\"action\":\"http://a/do\",\"compensate\":\"http://a/undo\"\x7d]"

/-- The step of that text. -/
def carriedStep : Std.ExtTreeMap String String :=
  .ofList [("action", "http://a/do"), ("compensate", "http://a/undo")]

/-- `serde_json` on the text of one step, and on the texts `"1"` and `1`. -/
def GrpcLibs.oneStep : GrpcLibs where
  parseSteps := fun text =>
    if text = oneStepText then .ok [carriedStep] else .error "expected value"
  parseJsonSlice := fun bytes =>
    if bytes = [34, 49, 34] then .ok (.str "1")
    else if bytes = [49] then .ok (.num "1")
    else .error "expected value"

/-- A service whose `serde_json` reads the text `1`. -/
def ControlState.readingOne : ControlState where
  dtm := ⟨.default, { Libs.plain with
    parseJson := fun text => if text = "1" then .ok (.num "1") else .error "expected value" }⟩
  libs := .plain
  branchUrlPolicy := .allowAll

/-- A Saga of one step with these bytes for its payload. -/
def oneStepRequest (bytes : List UInt8) : DtmRequest :=
  { DtmRequest.default with
    gid := "g", transType := "saga", binPayloads := [bytes], steps := oneStepText }

end RozeDtm
