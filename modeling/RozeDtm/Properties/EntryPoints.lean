import RozeDtm.Model.Service.Grpc

/-!
# gRPC and HTTP requests that carry the same

A field of a gRPC request that is 0 is an absent one, and `positive_u64` reads it as such; an HTTP
request leaves an absent field out, and is taken at its word when it carries a 0.  So a gRPC
request is read like the HTTP request that leaves out the fields that are 0.

* `compatTransaction_congr`: what a transaction is built from.
* `entry_points_agree`: the two requests.
-/

namespace RozeDtm

/-- Two requests that carry the same, apart from their numbers. -/
structure SameFields (libs : GrpcLibs) (input : DtmRequest) (request : CompatTransactionRequest) :
    Prop where
  gid : request.gid = input.gid
  steps : libs.readSteps input.steps = .ok request.steps
  payloads : request.payloads = input.binPayloads.map libs.payloadValue
  customData : nonEmpty request.customData = givenText input.customedData
  waitResult : request.waitResult = (input.transOptions.getD .default).waitResult
  branchHeaders : request.branchHeaders = (input.transOptions.getD .default).branchHeaders
  concurrent : request.concurrent = false

/-- The HTTP request carries the numbers of the gRPC request, each as `carry` says. -/
structure CarriesNumbers (carry : Int → Option Nat) (options : DtmTransOptions)
    (request : CompatTransactionRequest) : Prop where
  timeoutToFail : request.timeoutToFail = carry options.timeoutToFail
  retryInterval : request.retryInterval = carry options.retryInterval
  requestTimeout : request.requestTimeout = carry options.requestTimeout
  retryLimit : request.retryLimit = carry options.retryLimit

/-- No number is negative. -/
structure DtmTransOptions.Nonnegative (options : DtmTransOptions) : Prop where
  timeoutToFail : 0 ≤ options.timeoutToFail
  retryInterval : 0 ≤ options.retryInterval
  requestTimeout : 0 ≤ options.requestTimeout
  retryLimit : 0 ≤ options.retryLimit

/-- A number that is left out when it is 0. -/
def leftOutZero (value : Int) : Option Nat := if value = 0 then none else some value.toNat

/-- Both requests are refused, or both are accepted with the same options and timeout. -/
def ReadAlike (state : ControlState) (now : Nat) (kind : TransactionKind)
    (request request' : CompatTransactionRequest) : Prop :=
  (state.compatTransaction now kind request).isOk = (state.compatTransaction now kind request').isOk ∧
    ∀ tx tx', state.compatTransaction now kind request = .ok tx →
      state.compatTransaction now kind request' = .ok tx' → tx'.options = tx.options ∧
        (ControlState.withCompatTimeout tx' request').timeoutMillis =
          (ControlState.withCompatTimeout tx request).timeoutMillis

section Requests

variable {state : ControlState} {libs : GrpcLibs} {input : DtmRequest}
  {request request' : CompatTransactionRequest}

theorem positiveU64_eq {value : Int} (h : 0 ≤ value) : positiveU64 value = leftOutZero value := by
  unfold positiveU64 leftOutZero
  rw [if_pos h, Option.filter_some]
  by_cases hzero : value = 0
  · subst hzero
    rfl
  · rw [if_neg hzero, if_pos (decide_eq_true (by omega))]

/-- What a transaction is built from. -/
theorem compatTransaction_congr (now : Nat) (kind : TransactionKind)
    (hgid : request'.gid = request.gid) (hsteps : request'.steps = request.steps)
    (hpayloads : request'.payloads = request.payloads)
    (hcustom : nonEmpty request'.customData = nonEmpty request.customData)
    (hoptions : compatTransactionOptions state.dtm.libs request' =
      compatTransactionOptions state.dtm.libs request) :
    state.compatTransaction now kind request' = state.compatTransaction now kind request := by
  simp only [ControlState.compatTransaction, ControlState.compatBranch, compatPayload,
    ControlState.applyCompatSagaCustom, ControlState.applyCompatMessageCustom, hgid, hsteps,
    hpayloads, hcustom, hoptions]

theorem nonEmpty_givenText (text : String) : nonEmpty (givenText text) = givenText text := by
  unfold nonEmpty givenText
  split
  · rfl
  · rename_i hne
    rw [Option.filter_some, if_pos (by simpa using hne)]

/-- **A gRPC request is read like the HTTP request that carries the same** and leaves out the
numbers that are 0. -/
theorem entry_points_agree (state : ControlState) (libs : GrpcLibs) (input : DtmRequest)
    (request : CompatTransactionRequest) (hsame : SameFields libs input request)
    (hnonneg : (input.transOptions.getD .default).Nonnegative)
    (hnumbers : CarriesNumbers leftOutZero (input.transOptions.getD .default) request)
    (now : Nat) (kind : TransactionKind) :
    ∃ read, libs.compatRequest input = .ok read ∧ ReadAlike state now kind read request := by
  refine ⟨libs.requestWith input request.steps, ?_, ?_⟩
  · unfold GrpcLibs.compatRequest
    rw [hsame.steps]
    rfl
  have htimeout := hnumbers.timeoutToFail.trans (positiveU64_eq hnonneg.timeoutToFail).symm
  have hbuilt : state.compatTransaction now kind request =
      state.compatTransaction now kind (libs.requestWith input request.steps) := by
    refine compatTransaction_congr now kind hsame.gid rfl hsame.payloads ?_ ?_
    · exact hsame.customData.trans (nonEmpty_givenText _).symm
    · simp only [compatTransactionOptions, GrpcLibs.requestWith, hsame.waitResult, hsame.branchHeaders, hsame.concurrent,
        hnumbers.retryInterval, hnumbers.requestTimeout, hnumbers.retryLimit,
        positiveU64_eq hnonneg.retryInterval, positiveU64_eq hnonneg.requestTimeout,
        positiveU64_eq hnonneg.retryLimit]
  refine ⟨by rw [hbuilt], fun tx tx' htx htx' => ?_⟩
  rw [hbuilt, htx] at htx'
  cases htx'
  refine ⟨rfl, ?_⟩
  unfold ControlState.withCompatTimeout
  rw [htimeout]
  rfl

end Requests

/-- Library functions for small gRPC requests. -/
def GrpcLibs.plain : GrpcLibs where
  parseSteps := fun _ => .ok []
  parseJsonSlice := fun _ => .error ""

/-- An HTTP request with a timeout of 30 seconds and a retry limit of 7, and the gRPC request that
carries the same. -/
theorem entry_points_agree_limit :
    let input : DtmRequest := { DtmRequest.default with
      gid := "g"
      transOptions := some { DtmTransOptions.default with timeoutToFail := 30, retryLimit := 7 } }
    let request : CompatTransactionRequest := { CompatTransactionRequest.default with
      gid := "g", timeoutToFail := some 30, retryLimit := some 7 }
    ∃ read, GrpcLibs.plain.compatRequest input = .ok read ∧
      ReadAlike .plain 0 .saga read request :=
  entry_points_agree .plain .plain _ _
    ⟨rfl, by decide, rfl, rfl, rfl, rfl, rfl⟩ ⟨by decide, by decide, by decide, by decide⟩
    ⟨rfl, rfl, rfl, rfl⟩ 0 .saga

/-- With a retry interval of 0 the gRPC request is accepted and the HTTP request refused. -/
theorem entry_points_differ :
    let input : DtmRequest := { DtmRequest.default with
      gid := "g", transOptions := some .default }
    let request : CompatTransactionRequest := { CompatTransactionRequest.default with
      gid := "g", timeoutToFail := some 0, retryInterval := some 0, requestTimeout := some 0,
      retryLimit := some 0 }
    SameFields .plain input request ∧ DtmTransOptions.default.Nonnegative ∧
      CarriesNumbers (fun value => some value.toNat) .default request ∧
      ∀ read, GrpcLibs.plain.compatRequest input = .ok read →
        ¬ ReadAlike .plain 0 .saga read request := by
  intro input request
  refine ⟨⟨rfl, by decide, rfl, rfl, rfl, rfl, rfl⟩, ⟨by decide, by decide, by decide, by decide⟩,
    ⟨rfl, rfl, rfl, rfl⟩, fun read hread halike => ?_⟩
  cases hread
  exact absurd halike.1 (by decide)

end RozeDtm
