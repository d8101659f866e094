import Mathlib.Algebra.Group.Int.Defs
import Mathlib.Algebra.Ring.Nat
import Mathlib.Data.List.Forall2
import Std.Data.ExtTreeMap

/-!
# The data of the coordinator

Transactions, branches and the values that travel with them, as `lib.rs` declares
them.  `BTreeMap` is `Std.ExtTreeMap`, `Vec` is `List`, and the machine integers
are `Nat`, with the saturating operations that the source uses written out
(`satAdd64`, `satAdd32`, `satMul64`).  Error values are their texts.
-/

namespace RozeDtm

/-- The text of an `anyhow::Error`. -/
abbrev Err := String

def u64Max : Nat := 2 ^ 64 - 1
def u32Max : Nat := 2 ^ 32 - 1

/-- `u64::saturating_add`. -/
def satAdd64 (a b : Nat) : Nat := min (a + b) u64Max

/-- `u64::saturating_mul`. -/
def satMul64 (a b : Nat) : Nat := min (a * b) u64Max

/-- `u32::saturating_add`. -/
def satAdd32 (a b : Nat) : Nat := min (a + b) u32Max

/-! ### JSON values -/

/-- A `serde_json::Value`.  A number is kept as its literal, an object as its
entries in key order. -/
inductive Json
  | null
  | bool (b : Bool)
  | num (literal : String)
  | str (s : String)
  | arr (items : List Json)
  | obj (entries : List (String × Json))

mutual

/-- Equality of JSON values, by structure. -/
def Json.decEq : (a b : Json) → Decidable (a = b)
  | .null, b => match b with
    | .null => isTrue rfl
    | .bool _ | .num _ | .str _ | .arr _ | .obj _ => isFalse nofun
  | .bool x, b => match b with
    | .bool y => decidable_of_iff (x = y) (by simp)
    | .null | .num _ | .str _ | .arr _ | .obj _ => isFalse nofun
  | .num x, b => match b with
    | .num y => decidable_of_iff (x = y) (by simp)
    | .null | .bool _ | .str _ | .arr _ | .obj _ => isFalse nofun
  | .str x, b => match b with
    | .str y => decidable_of_iff (x = y) (by simp)
    | .null | .bool _ | .num _ | .arr _ | .obj _ => isFalse nofun
  | .arr x, b => match b with
    | .arr y => match Json.decEqList x y with
      | isTrue h => isTrue (by rw [h])
      | isFalse h => isFalse (by simpa using h)
    | .null | .bool _ | .num _ | .str _ | .obj _ => isFalse nofun
  | .obj x, b => match b with
    | .obj y => match Json.decEqEntries x y with
      | isTrue h => isTrue (by rw [h])
      | isFalse h => isFalse (by simpa using h)
    | .null | .bool _ | .num _ | .str _ | .arr _ => isFalse nofun

def Json.decEqList : (a b : List Json) → Decidable (a = b)
  | [], [] => isTrue rfl
  | [], _ :: _ => isFalse nofun
  | _ :: _, [] => isFalse nofun
  | x :: xs, y :: ys => match Json.decEq x y, Json.decEqList xs ys with
    | isTrue h, isTrue h' => isTrue (by rw [h, h'])
    | isFalse h, _ => isFalse (by simp [h])
    | _, isFalse h => isFalse (by simp [h])

def Json.decEqEntries : (a b : List (String × Json)) → Decidable (a = b)
  | [], [] => isTrue rfl
  | [], _ :: _ => isFalse nofun
  | _ :: _, [] => isFalse nofun
  | (k, x) :: xs, (l, y) :: ys =>
    match instDecidableEqString k l, Json.decEq x y, Json.decEqEntries xs ys with
    | isTrue h, isTrue h', isTrue h'' => isTrue (by rw [h, h', h''])
    | isFalse h, _, _ => isFalse (by simp [h])
    | _, isFalse h, _ => isFalse (by simp [h])
    | _, _, isFalse h => isFalse (by simp [h])

end

instance : DecidableEq Json := Json.decEq

/-! ### Transactions and branches -/

inductive TransactionKind
  | saga
  | workflow
  | message
  | xa
  | tcc
  deriving DecidableEq, Repr

inductive TransactionStatus
  | submitted
  | trying
  | prepared
  | succeeding
  | succeeded
  | aborting
  | aborted
  | failed
  deriving DecidableEq, Repr

/-- `TransactionStatus::is_terminal`. -/
def TransactionStatus.isTerminal (s : TransactionStatus) : Bool :=
  s = .succeeded || s = .aborted || s = .failed

/-- A status in which a Saga is compensated. -/
def TransactionStatus.isAbort (st : TransactionStatus) : Bool := st = .aborting || st = .aborted

inductive BranchKind
  | sagaAction
  | sagaCompensate
  | tccTry
  | tccConfirm
  | tccCancel
  | workflowAction
  | messageAction
  | xaAction
  deriving DecidableEq, Repr

inductive BranchStatus
  | pending
  | running
  | compensating
  | succeeded
  | failed
  | skipped
  deriving DecidableEq, Repr

/-- How `{:?}` prints a transaction kind. -/
def TransactionKind.debug : TransactionKind → String
  | .saga => "Saga"
  | .workflow => "Workflow"
  | .message => "Message"
  | .xa => "Xa"
  | .tcc => "Tcc"

/-- How `{:?}` prints a transaction status. -/
def TransactionStatus.debug : TransactionStatus → String
  | .submitted => "Submitted"
  | .trying => "Trying"
  | .prepared => "Prepared"
  | .succeeding => "Succeeding"
  | .succeeded => "Succeeded"
  | .aborting => "Aborting"
  | .aborted => "Aborted"
  | .failed => "Failed"

structure Branch where
  id : String
  kind : BranchKind
  action : String
  compensate : Option String
  confirm : Option String
  cancel : Option String
  payload : Json
  status : BranchStatus
  attempts : Nat
  lastError : Option String
  nextRetryMillis : Option Nat
  dependencies : List String
  deriving DecidableEq

inductive WorkflowProgressStatus
  | succeeded
  | failed
  deriving DecidableEq, Repr

structure WorkflowProgress where
  branchId : String
  operation : String
  status : WorkflowProgressStatus
  data : List UInt8
  deriving DecidableEq

structure TransactionOptions where
  waitResult : Bool
  concurrent : Bool
  delayMillis : Option Nat
  retryIntervalMillis : Option Nat
  requestTimeoutMillis : Option Nat
  retryLimit : Option Nat
  branchHeaders : Std.ExtTreeMap String String
  deriving DecidableEq

/-- `TransactionOptions::default`. -/
def TransactionOptions.default : TransactionOptions where
  waitResult := false
  concurrent := false
  delayMillis := none
  retryIntervalMillis := none
  requestTimeoutMillis := none
  retryLimit := none
  branchHeaders := ∅

structure Transaction where
  gid : String
  kind : TransactionKind
  status : TransactionStatus
  branches : List Branch
  createdAtMillis : Nat
  updatedAtMillis : Nat
  revision : Nat
  timeoutMillis : Option Nat
  options : TransactionOptions
  workflowProgresses : List WorkflowProgress
  metadata : Std.ExtTreeMap String String
  deriving DecidableEq

/-- `Transaction::new` at clock value `now`. -/
def Transaction.new (now : Nat) (gid : String) (kind : TransactionKind)
    (branches : List Branch) : Transaction where
  gid := gid
  kind := kind
  status := .submitted
  branches := branches
  createdAtMillis := now
  updatedAtMillis := now
  revision := 1
  timeoutMillis := none
  options := .default
  workflowProgresses := []
  metadata := ∅

/-- `Branch::saga`. -/
def Branch.saga (id action compensate : String) (payload : Json) : Branch where
  id := id
  kind := .sagaAction
  action := action
  compensate := some compensate
  confirm := none
  cancel := none
  payload := payload
  status := .pending
  attempts := 0
  lastError := none
  nextRetryMillis := none
  dependencies := []

/-- `Branch::tcc_try`. -/
def Branch.tccTry (id tryAction confirmAction cancelAction : String) (payload : Json) :
    Branch where
  id := id
  kind := .tccTry
  action := tryAction
  compensate := none
  confirm := some confirmAction
  cancel := some cancelAction
  payload := payload
  status := .pending
  attempts := 0
  lastError := none
  nextRetryMillis := none
  dependencies := []

/-- `Branch::message`. -/
def Branch.message (id action : String) (payload : Json) : Branch :=
  { Branch.saga id action "" payload with kind := .messageAction, compensate := none }

/-- `Branch::xa`. -/
def Branch.xa (id commit rollback : String) (payload : Json) : Branch :=
  { Branch.tccTry id "" commit rollback payload with kind := .xaAction, action := "" }

/-- `Branch::workflow`. -/
def Branch.workflow (id action compensate : String) (dependencies : List String)
    (payload : Json) : Branch :=
  { Branch.saga id action compensate payload with
    kind := .workflowAction, dependencies := dependencies }

/-- The coordinator's own settings. -/
structure DtmOptions where
  maxAttempts : Nat
  retryBackoffMillis : Nat
  maxRetryBackoffMillis : Nat
  branchCallTimeoutMillis : Nat
  transactionTimeoutMillis : Nat
  deriving DecidableEq

/-- `DtmOptions::default`. -/
def DtmOptions.default : DtmOptions where
  maxAttempts := 5
  retryBackoffMillis := 1000
  maxRetryBackoffMillis := 30000
  branchCallTimeoutMillis := 5000
  transactionTimeoutMillis := 60000

/-! ### Barriers, leases and callbacks -/

structure BranchBarrier where
  gid : String
  branchId : String
  op : String
  deriving DecidableEq

inductive BarrierDecision
  | execute
  | skipDuplicate
  | skipNullCompensation
  | skipCancelledTry
  deriving DecidableEq, Repr

structure RecoveryLeaseFence where
  name : String
  owner : String
  epoch : Nat
  deriving DecidableEq

structure RecoveryLease where
  owner : String
  expiresAtMillis : Nat
  deriving DecidableEq

inductive WorkflowCallbackProtocol
  | http
  | jsonRpc
  | grpc
  deriving DecidableEq, Repr

structure WorkflowCallbackRequest where
  gid : String
  url : String
  operation : String
  data : List UInt8
  protocol : WorkflowCallbackProtocol
  deriving DecidableEq

inductive WorkflowCallbackResult
  | completed
  | failed (reason : Option String)
  | ongoing
  deriving DecidableEq

structure WorkflowRecoveryDelay where
  attemptedAtMillis : Nat
  retryIntervalMillis : Nat
  maxRetryIntervalMillis : Nat
  backoff : Bool
  outcome : String
  deriving DecidableEq

structure KvEntry where
  category : String
  key : String
  value : String
  version : Nat
  createdAtMillis : Nat
  updatedAtMillis : Nat
  deriving DecidableEq

structure TopicSubscriber where
  url : String
  remark : String
  deriving DecidableEq

structure Topic where
  name : String
  subscribers : List TopicSubscriber
  version : Nat
  deriving DecidableEq

/-- One call of a branch endpoint: the branch, the operation name under whose
barrier the coordinator makes the call, and what `invoke_with_options` is given. -/
structure BranchCall where
  gid : String
  branchId : String
  op : String
  url : String
  payload : Json
  options : TransactionOptions
  deriving DecidableEq

/-- The barrier that guards a call. -/
def BranchCall.barrier (c : BranchCall) : BranchBarrier := ⟨c.gid, c.branchId, c.op⟩

end RozeDtm
