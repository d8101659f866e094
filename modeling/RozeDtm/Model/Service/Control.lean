import RozeDtm.Codec.Substring
import RozeDtm.Conc.Twins
import RozeDtm.Model.Coordinator.Recover

/-!
# The operations of the control API on one transaction

`ControlOperation` lists the handlers of the native API that take the gid of a transaction from
the path, and `operationError` is what each of them makes of an error.  `controlStore` is the
store such a handler works on while nothing else is under way, in which any store call may fail
with a text that may name the gid.

`refuses` is the refusal of a transaction for its kind or its status, from the checks of the
operations in their order.
-/

namespace RozeDtm

open Conc

/-! ### Errors -/

/-- `str::starts_with`. -/
def textStartsWith (s pattern : String) : Bool := pattern.toList <+: s.toList

/-- `str::contains`. -/
def textContains (s pattern : String) : Bool := pattern.toList <:+: s.toList

/-- `operation_error`: the HTTP status and the public message.  The audit record and the log
line hold neither the error's text nor anything the answer depends on. -/
def operationError (message : Err) : Nat × String :=
  if textStartsWith message "transaction not found:" then
    (404, "transaction not found")
  else if textContains message "expected" || textContains message "non-replayable state" then
    (409, "transaction state conflict")
  else (502, "DTM operation failed")

/-! ### Operations -/

/-- The handlers of the native API with a gid in their path: `get_transaction` and those that
`transition_handler!` makes. -/
inductive ControlOperation
  | get
  | prepareTcc
  | confirmTcc
  | cancelTcc
  | startSaga
  | abortSaga
  | startWorkflow
  | abortWorkflow
  | prepareMessage
  | dispatchMessage
  | abortMessage
  | prepareXa
  | commitXa
  | rollbackXa
  | recover
  | forceStop
  | resetRetry
  deriving DecidableEq, Repr

namespace ControlOperation

/-- What a handler calls.  `get_transaction` answers a missing transaction itself, so that is
no error of it. -/
def act (dtm : Dtm) (gid : String) : ControlOperation → Act (Option Transaction)
  | .get => Store.getTransaction gid
  | .prepareTcc => found (dtm.prepareTcc gid)
  | .confirmTcc => found (dtm.confirmTcc gid)
  | .cancelTcc => found (dtm.cancelTcc gid)
  | .startSaga => found (dtm.startSaga gid)
  | .abortSaga => found (dtm.abortSaga gid)
  | .startWorkflow => found (dtm.startWorkflow gid)
  | .abortWorkflow => found (dtm.abortWorkflow gid)
  | .prepareMessage => found (Dtm.prepareMessage gid)
  | .dispatchMessage => found (dtm.dispatchMessage gid)
  | .abortMessage => found (Dtm.abortMessage gid)
  | .prepareXa => found (Dtm.prepareXa gid)
  | .commitXa => found (dtm.commitXa gid)
  | .rollbackXa => found (dtm.rollbackXa gid)
  | .recover => found (dtm.recover gid)
  | .forceStop => found (Dtm.forceStop gid)
  | .resetRetry => found (Dtm.resetRetry gid)
where
  found (act : Act Transaction) : Act (Option Transaction) := do
    let tx ← act
    return some tx

/-! ### Refusals -/

/-- The kind that an operation asks for, the status in which it has nothing left to do, and the
statuses that it goes on from. -/
def expects : ControlOperation →
    Option (TransactionKind × TransactionStatus × List TransactionStatus)
  | .prepareTcc => some (.tcc, .prepared, [.submitted, .trying])
  | .confirmTcc => some (.tcc, .succeeded, [.prepared, .succeeding])
  | .cancelTcc => some (.tcc, .aborted, [.submitted, .trying, .prepared, .aborting])
  | .startSaga => some (.saga, .succeeded, [.submitted, .succeeding])
  | .abortSaga => some (.saga, .aborted, [.submitted, .succeeding, .aborting])
  | .startWorkflow => some (.workflow, .succeeded, [.submitted, .prepared, .succeeding])
  | .abortWorkflow =>
    some (.workflow, .aborted, [.submitted, .prepared, .succeeding, .aborting])
  | .prepareMessage => some (.message, .prepared, [.submitted])
  | .dispatchMessage => some (.message, .succeeded, [.submitted, .prepared, .succeeding])
  | .abortMessage => some (.message, .aborted, [.submitted, .prepared])
  | .prepareXa => some (.xa, .prepared, [.submitted])
  | .commitXa => some (.xa, .succeeded, [.prepared, .succeeding])
  | .rollbackXa => some (.xa, .aborted, [.submitted, .prepared, .aborting])
  | .get | .recover | .forceStop | .resetRetry => none

/-- Whether an operation other than `recover` refuses a transaction for its kind or its status.
`start_workflow` turns a callback Workflow away before it looks at the status. -/
def declines (op : ControlOperation) (tx : Transaction) : Bool :=
  match op.expects with
  | some (kind, done, allowed) =>
    tx.kind ≠ kind || tx.status ≠ done && !allowed.contains tx.status &&
      !(op = .startWorkflow && isCallbackWorkflow tx)
  | none => (op = .forceStop || op = .resetRetry) && tx.status.isTerminal

/-- The operation that `recover` passes a transaction past its timeout to. -/
def expiry (tx : Transaction) : ControlOperation :=
  match tx.kind with
  | .tcc => .cancelTcc
  | .saga => .abortSaga
  | .workflow => .abortWorkflow
  | .message => if tx.status = .succeeding then .dispatchMessage else .abortMessage
  | .xa => if tx.status = .succeeding then .commitXa else .rollbackXa

/-- The operation that `recover` passes a transaction of a kind and a status to. -/
def next : TransactionKind → TransactionStatus → Option ControlOperation
  | .tcc, .submitted | .tcc, .trying => some .prepareTcc
  | .tcc, .prepared | .tcc, .succeeding => some .confirmTcc
  | .tcc, .aborting => some .cancelTcc
  | .saga, .submitted | .saga, .succeeding => some .startSaga
  | .saga, .aborting => some .abortSaga
  | .workflow, .submitted | .workflow, .succeeding => some .startWorkflow
  | .workflow, .aborting => some .abortWorkflow
  | .message, .submitted => some .prepareMessage
  | .message, .prepared | .message, .succeeding => some .dispatchMessage
  | .xa, .submitted => some .prepareXa
  | .xa, .prepared | .xa, .succeeding => some .commitXa
  | .xa, .aborting => some .rollbackXa
  | _, _ => none

/-- The operation that `recover` passes a transaction to that is no callback Workflow. -/
def recovery (now : Nat) (tx : Transaction) : Option ControlOperation :=
  if isExpired tx now then some (expiry tx) else next tx.kind tx.status

/-- Whether an operation refuses a transaction for its kind or its status; `now` is the time at
which `recover` looks at the timeout. -/
def refuses (op : ControlOperation) (now : Nat) (tx : Transaction) : Bool :=
  if op ≠ .recover then op.declines tx
  else if tx.status.isTerminal then false
  else if isCallbackWorkflow tx then tx.status ≠ .submitted && tx.status ≠ .prepared
  else (recovery now tx).all fun target => target.declines tx

end ControlOperation

/-! ### Runs -/

/-- What comes from outside at a step: the time, and the outcome of a call. -/
structure Reading where
  now : Nat
  outcome : Outcome

/-- A step at which the store fails.  The calls that are answered with a `Result` hand the error
to the program, and behind all others comes `?`; only store calls fail. -/
def Effect.failing : (o : Effect) → Err → Failing o.Reply
  | .insertTransaction _, e => .reply (.error e)
  | .updateTransaction _, e => .reply (.error e)
  | .registerBranch _ _, e => .reply (.error e)
  | .recordWorkflowProgress _ _, e => .reply (.error e)
  | .finishWorkflow _ _ _ _, e => .reply (.error e)
  | .deferWorkflowRecovery _ _, e => .reply (.error e)
  | .getTransaction _, _ | .listTransactions, _ | .deleteTransactionIfUnchanged _, _
  | .getKv _ _, _ | .barrier _, _ | .releaseBarrier _, _ | .acquireRecoveryLease _ _ _, _ => .ends
  | .currentMillis, _ | .invokeBegin _, _ | .invokeEnd _, _ | .queryWorkflowCallback _ _, _
  | .joinNext _, _ => .never

/-- The store under one operation.  The clock may be set to anything before each step, and the
text of a store failure may name the gid. -/
def controlStore (gid : String) : Single effects World Reading (String → Err) Err where
  exec o c w := InMemory.exec 0 o c.outcome { w with clock := c.now }
  text failure := failure gid
  failing := Effect.failing

/-- The error or the answer of an operation with nothing else under way. -/
def ControlOperation.run? (dtm : Dtm) (op : ControlOperation) (gid : String) (w : World)
    (cs : List (Reading ⊕ (String → Err))) : Option (Except Err (Option Transaction)) :=
  (controlStore gid).run? (op.act dtm gid).run w cs

end RozeDtm
