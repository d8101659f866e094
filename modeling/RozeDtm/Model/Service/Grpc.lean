import RozeDtm.Model.Service.Compat

/-!
# The gRPC entry point

The messages of `dtmgimp.proto` that carry a transaction, and the functions of the service's
`grpc.rs` that make a compatibility request of them.  An `int64` field is an `Int`; proto3 does
not tell a field that is 0 from one that is absent.
-/

namespace RozeDtm

structure DtmTransOptions where
  waitResult : Bool
  timeoutToFail : Int
  retryInterval : Int
  branchHeaders : Std.ExtTreeMap String String
  requestTimeout : Int
  retryLimit : Int

/-- `DtmTransOptions::default`. -/
def DtmTransOptions.default : DtmTransOptions where
  waitResult := false
  timeoutToFail := 0
  retryInterval := 0
  branchHeaders := ∅
  requestTimeout := 0
  retryLimit := 0

structure DtmRequest where
  gid : String
  transType : String
  transOptions : Option DtmTransOptions
  customedData : String
  binPayloads : List (List UInt8)
  queryPrepared : String
  steps : String
  reqExtra : Std.ExtTreeMap String String
  rollbackReason : String

/-- What `grpc.rs` uses of `serde_json`. -/
structure GrpcLibs where
  /-- `serde_json::from_str` at a list of maps of texts. -/
  parseSteps : String → Except Err (List (Std.ExtTreeMap String String))
  /-- `serde_json::from_slice` at `Value`. -/
  parseJsonSlice : List UInt8 → Except Err Json

/-- `(!text.is_empty()).then_some(text)`. -/
def givenText (text : String) : Option String := if text.isEmpty then none else some text

/-- `positive_u64`. -/
def positiveU64 (value : Int) : Option Nat :=
  (if 0 ≤ value then some value.toNat else none).filter fun value => 0 < value

namespace GrpcLibs

variable (libs : GrpcLibs)

/-- `payload_value`. -/
def payloadValue (bytes : List UInt8) : Json :=
  (libs.parseJsonSlice bytes).toOption.getD
    (.arr (bytes.map fun byte => .num (toString byte.toNat)))

/-- The request with the steps that were read.  The protocol has no field for `concurrent`. -/
def requestWith (input : DtmRequest) (steps : List (Std.ExtTreeMap String String)) :
    CompatTransactionRequest :=
  let options := input.transOptions.getD .default
  { gid := input.gid
    transType := input.transType
    steps
    payloads := input.binPayloads.map libs.payloadValue
    timeoutToFail := positiveU64 options.timeoutToFail
    rollbackReason := givenText input.rollbackReason
    customData := givenText input.customedData
    queryPrepared := givenText input.queryPrepared
    waitResult := options.waitResult
    concurrent := false
    retryInterval := positiveU64 options.retryInterval
    requestTimeout := positiveU64 options.requestTimeout
    retryLimit := positiveU64 options.retryLimit
    branchHeaders := options.branchHeaders
    reqExtra := input.reqExtra
    protocol := .grpc }

/-- The steps of a request. -/
def readSteps (steps : String) : Except Err (List (Std.ExtTreeMap String String)) :=
  if (trim steps).isEmpty then .ok []
  else (libs.parseSteps steps).mapError fun _ => "invalid transaction steps"

/-- `compat_request`. -/
def compatRequest (input : DtmRequest) : Except Err CompatTransactionRequest := do
  let steps ← libs.readSteps input.steps
  return libs.requestWith input steps

end GrpcLibs

/-- `apply_transaction`, without the context and the audit of the service framework. -/
def ControlState.applyTransaction (state : ControlState) (libs : GrpcLibs) (input : DtmRequest)
    (operation : CompatOperation) : Act Transaction := do
  let request ← Act.ofExcept (libs.compatRequest input)
  state.compatApply request operation

/-- A gRPC request with nothing in it. -/
def DtmRequest.default : DtmRequest where
  gid := ""
  transType := ""
  transOptions := none
  customedData := ""
  binPayloads := []
  queryPrepared := ""
  steps := ""
  reqExtra := ∅
  rollbackReason := ""

end RozeDtm
