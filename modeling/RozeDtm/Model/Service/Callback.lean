import RozeDtm.Model.Service.Request

/-!
# The answers of a callback

How `HttpBranchInvoker` reads the answer of the callback of a Workflow, for each of the three
transports, from the answer as it has come in completely.  `parseSlice` is `serde_json::from_slice`
at `Value`.
-/

namespace RozeDtm

/-! ### Texts from bytes -/

/-- A character of which some bytes are read. -/
structure PendingChar where
  /-- How many bytes are still to come. -/
  owed : Nat
  /-- The bounds of the next one. -/
  low : Nat
  high : Nat
  /-- The bits so far. -/
  bits : Nat

/-- What a byte leads to. -/
inductive Utf8Step
  | char (c : Char)
  | more (pending : PendingChar)
  | bad

/-- The first byte of a character. -/
def Utf8Step.first (b : Nat) : Utf8Step :=
  if b < 0x80 then .char (Char.ofNat b)
  else if 0xc2 ≤ b && b ≤ 0xdf then .more ⟨1, 0x80, 0xbf, b - 0xc0⟩
  else if b = 0xe0 then .more ⟨2, 0xa0, 0xbf, 0⟩
  else if b = 0xed then .more ⟨2, 0x80, 0x9f, 0xd⟩
  else if 0xe1 ≤ b && b ≤ 0xef then .more ⟨2, 0x80, 0xbf, b - 0xe0⟩
  else if b = 0xf0 then .more ⟨3, 0x90, 0xbf, 0⟩
  else if 0xf1 ≤ b && b ≤ 0xf3 then .more ⟨3, 0x80, 0xbf, b - 0xf0⟩
  else if b = 0xf4 then .more ⟨3, 0x80, 0x8f, 4⟩
  else .bad

/-- A later byte. -/
def Utf8Step.next (pending : PendingChar) (b : Nat) : Utf8Step :=
  if pending.low ≤ b && b ≤ pending.high then
    let bits := pending.bits * 64 + (b - 0x80)
    if pending.owed = 1 then .char (Char.ofNat bits)
    else .more ⟨pending.owed - 1, 0x80, 0xbf, bits⟩
  else .bad

/-- The characters of bytes, after the bytes of `pending`.  What is cut off or goes wrong is
replaced by one character, and the byte at which it goes wrong is read again. -/
def lossyChars : Option PendingChar → List UInt8 → List Char
  | none, [] => []
  | some _, [] => ['\ufffd']
  | none, b :: rest =>
    match Utf8Step.first b.toNat with
    | .char c => c :: lossyChars none rest
    | .more pending => lossyChars (some pending) rest
    | .bad => '\ufffd' :: lossyChars none rest
  | some pending, b :: rest =>
    match Utf8Step.next pending b.toNat with
    | .char c => c :: lossyChars none rest
    | .more pending => lossyChars (some pending) rest
    | .bad => '\ufffd' ::
      match Utf8Step.first b.toNat with
      | .char c => c :: lossyChars none rest
      | .more pending => lossyChars (some pending) rest
      | .bad => '\ufffd' :: lossyChars none rest

/-- `String::from_utf8_lossy`. -/
def fromUtf8Lossy (bytes : List UInt8) : String := String.ofList (lossyChars none bytes)

/-- The characters before the last boundary that is not beyond `limit` bytes. -/
def truncateChars : Nat → List Char → List Char
  | _, [] => []
  | limit, c :: cs => if c.utf8Size ≤ limit then c :: truncateChars (limit - c.utf8Size) cs else []

/-- `bounded_reason`. -/
def boundedReason (value : String) : Option String :=
  let value := trim value
  if value.isEmpty then none
  else if 4096 < value.utf8ByteSize then some (String.ofList (truncateChars 4096 value.toList))
  else some value

/-! ### HTTP and JSON-RPC -/

/-- A `reqwest::Response` that comes in completely. -/
structure HttpAnswer where
  status : Nat
  contentLength : Option Nat
  chunks : List (List UInt8)
  /-- The length that was announced is that of the body. -/
  announced : ∀ length ∈ contentLength, length = chunks.flatten.length

/-- The body. -/
def HttpAnswer.body (response : HttpAnswer) : List UInt8 := response.chunks.flatten

/-- The loop of `limited_response_bytes`. -/
def limitedChunks (limit : Nat) (body : List UInt8) : List (List UInt8) → Except Err (List UInt8)
  | [] => .ok body
  | chunk :: rest => do
    ensure (body.length + chunk.length ≤ limit) s!"workflow callback response exceeds {limit} bytes"
    limitedChunks limit (body ++ chunk) rest

/-- `limited_response_bytes`. -/
def limitedResponseBytes (response : HttpAnswer) (limit : Nat) : Except Err (List UInt8) := do
  ensure (!response.contentLength.any fun length => limit < length)
    s!"workflow callback response exceeds {limit} bytes"
  limitedChunks limit [] response.chunks

/-- `limited_response_text`. -/
def limitedResponseText (response : HttpAnswer) (limit : Nat) : Except Err (Option String) := do
  let body ← limitedResponseBytes response limit
  return boundedReason (fromUtf8Lossy body)

/-- `Value::as_i64`.  A literal `-0` is a float. -/
def Json.asI64? : Json → Option Int
  | .num literal =>
    match literal.toList with
    | '-' :: digits =>
      ((parseUnsigned (2 ^ 63) (String.ofList digits)).filter fun n => 0 < n).map fun n => -Int.ofNat n
    | _ => (parseUnsigned (2 ^ 63 - 1) literal).map Int.ofNat
  | _ => none

/-- `value.get("error").filter(|error| !error.is_null())`. -/
def jsonRpcError (value : Json) : Option Json := (value.get? "error").filter fun error => error ≠ .null

/-- `decode_json_rpc_callback_response`. -/
def decodeJsonRpcCallbackResponse (parseSlice : List UInt8 → Except Err Json)
    (response : HttpAnswer) : Except Err WorkflowCallbackResult := do
  let body ← limitedResponseBytes response (64 * 1024)
  let value ← parseSlice body
  match jsonRpcError value with
  | none => return .completed
  | some error =>
    let code ← require ((error.get? "code").bind Json.asI64?)
      "JSON-RPC callback error requires a numeric code"
    if code = -32901 then
      return .failed (((error.get? "message").bind Json.asStr?).bind boundedReason)
    else if code = -32902 then return .ongoing
    else .error s!"workflow JSON-RPC callback returned unexpected error code {code}"

/-- What `query_http_workflow_callback` makes of the response. -/
def readHttpAnswer (parseSlice : List UInt8 → Except Err Json) (jsonRpc : Bool)
    (response : HttpAnswer) : Except Err WorkflowCallbackResult :=
  if response.status = 200 then
    if jsonRpc then decodeJsonRpcCallbackResponse parseSlice response else .ok .completed
  else if response.status = 409 then do
    let reason ← limitedResponseText response 4096
    return .failed reason
  else if response.status = 425 then .ok .ongoing
  else .error s!"workflow callback returned unexpected HTTP status {response.status}"

/-! ### gRPC -/

/-- `tonic::Code`. -/
inductive GrpcCode
  | ok
  | cancelled
  | unknown
  | invalidArgument
  | deadlineExceeded
  | notFound
  | alreadyExists
  | permissionDenied
  | resourceExhausted
  | failedPrecondition
  | aborted
  | outOfRange
  | unimplemented
  | internal
  | unavailable
  | dataLoss
  | unauthenticated
  deriving DecidableEq, Repr

structure GrpcStatus where
  code : GrpcCode
  message : String
  deriving DecidableEq

/-- What `query_grpc_workflow_callback` makes of the result of the call. -/
def readGrpcAnswer : Except GrpcStatus Unit → Except Err WorkflowCallbackResult
  | .ok _ => .ok .completed
  | .error status =>
    if status.code = .aborted then .ok (.failed (boundedReason status.message))
    else if status.code = .failedPrecondition then .ok .ongoing
    else .error status.message

/-! ### Any transport -/

/-- The answer of a callback. -/
inductive CallbackAnswer
  | http (response : HttpAnswer)
  | jsonRpc (response : HttpAnswer)
  | grpc (result : Except GrpcStatus Unit)

/-- What `query_workflow_callback` returns for an answer. -/
def CallbackAnswer.read (parseSlice : List UInt8 → Except Err Json) :
    CallbackAnswer → Except Err WorkflowCallbackResult
  | .http response => readHttpAnswer parseSlice false response
  | .jsonRpc response => readHttpAnswer parseSlice true response
  | .grpc result => readGrpcAnswer result

end RozeDtm
