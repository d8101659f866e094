import RozeDtm.Conc.Levels
import RozeDtm.Model.Coordinator.Common
import RozeDtm.Model.Serde
import RozeDtm.Relational.XaDecisions

/-!
# The SQLite store under the coordinator

`SqliteTransactionStore` keeps each transaction as a payload in a row.  A call is one statement
or a few; a change in place reads the payload and writes the new one over it if it is still the
same.  `SqliteStep` lists the statements and the steps of the coordinator that go elsewhere.

A database transaction that writes holds the database for itself from its first write on, so
that `barrier` is one step, and so are the two DELETEs of retention.  What the barrier functions
are made of is in `Relational.barrier`.
-/

namespace RozeDtm

open Conc

/-! ### Statements -/

/-- A row of `roze_dtm_kv`. -/
structure KvRow where
  category : String
  key : String
  value : String
  version : Int
  createdAtMillis : Int
  updatedAtMillis : Int

/-- The steps.  A statement that writes a payload carries the transaction that it is the text
of. -/
inductive SqliteStep
  | insertTransaction (tx : Transaction)
  | selectTransaction (gid : String)
  | upsertTransaction (tx : Transaction)
  /-- `UPDATE … WHERE gid = ? AND payload = ?`. -/
  | swapTransaction (gid previousPayload : String) (tx : Transaction)
  | selectTransactions
  | begin
  | rollback
  /-- The DELETE of a transaction with this payload, that of its barriers, and COMMIT. -/
  | deleteTransaction (gid payload : String)
  | selectKv (category key : String)
  /-- `barrier`, from BEGIN to COMMIT. -/
  | barrier (b : BranchBarrier)
  | deleteBarrier (b : BranchBarrier)
  | renewLease (name owner : String) (now expiresAtMillis : Nat)
  | insertLease (name owner : String) (expiresAtMillis : Nat)
  | currentMillis
  | invokeBegin (c : BranchCall)
  | invokeEnd (c : BranchCall)
  | queryWorkflowCallback (request : WorkflowCallbackRequest) (options : TransactionOptions)
  | joinNext (n : Nat)

/-- What they are answered with: the rows that were affected, or what was found. -/
def SqliteStep.Reply : SqliteStep → Type
  | .insertTransaction _ | .upsertTransaction _ | .swapTransaction _ _ _
  | .deleteTransaction _ _ | .deleteBarrier _ | .renewLease _ _ _ _ | .insertLease _ _ _ =>
    Except Err Nat
  | .selectTransaction _ => Except Err (Option String)
  | .selectTransactions => Except Err (List String)
  | .begin | .rollback => Except Err Unit
  | .selectKv _ _ => Except Err (Option KvRow)
  | .barrier _ => Except Err BarrierDecision
  | .currentMillis => Nat
  | .invokeBegin _ => Unit
  | .invokeEnd _ => Bool
  | .queryWorkflowCallback _ _ => Except Err WorkflowCallbackResult
  | .joinNext n => Fin (n + 1)

def sqliteSteps : Sig := ⟨SqliteStep, SqliteStep.Reply⟩

/-- An `async fn` over these steps. -/
abbrev SqliteAct (α : Type) := Proc sqliteSteps Err α

/-! ### The store's functions -/

/-- `kv_entry_from_values`. -/
def kvEntryFromValues (row : KvRow) : Except Err KvEntry := do
  let text := "out of range integral type conversion attempted"
  return {
    category := row.category
    key := row.key
    value := row.value
    version := ← millisFromColumn row.version text
    createdAtMillis := ← millisFromColumn row.createdAtMillis text
    updatedAtMillis := ← millisFromColumn row.updatedAtMillis text }

namespace SqliteStore

variable {α : Type}

/-- One step, without `?`. -/
def ask (o : SqliteStep) : SqliteAct o.Reply := @Proc.perform sqliteSteps Err o

/-- `?` on a result that is already there. -/
def ofExcept (e : Except Err α) : SqliteAct α := ExceptT.mk (.pure e)

/-- A call whose `Result` its caller keeps. -/
def attempt (x : SqliteAct α) : SqliteAct (Except Err α) :=
  ExceptT.mk (x.run.bind fun r => .pure (.ok r))

/-- The rounds of a change in place. -/
def mutationAttempts : Nat := 16

variable (floats : String → Option String)

/-- `insert_transaction`. -/
def insertTransaction (tx : Transaction) : SqliteAct Unit := do
  let changed ← ofExcept (← ask (.insertTransaction tx))
  ofExcept (ensure (changed ≠ 0) s!"transaction already exists: {tx.gid}")

/-- `get_transaction`. -/
def getTransaction (gid : String) : SqliteAct (Option Transaction) := do
  let row ← ofExcept (← ask (.selectTransaction gid))
  ofExcept (row.elim (.ok none) fun payload => (Transaction.ofText floats payload).map some)

/-- `update_transaction`. -/
def updateTransaction (tx : Transaction) : SqliteAct Unit := do
  let now ← ask .currentMillis
  let _ ← ofExcept (← ask (.upsertTransaction (bumpTransactionRevision now tx)))

/-- The loop of the changes in place.  The clock is read before the change here, whether or not
the change reads it. -/
def mutateLoop (gid operation : String) (mutate : Nat → Transaction → Except Err Transaction) :
    Nat → SqliteAct Transaction
  | 0 => throw s!"transaction {gid} {operation} is contended"
  | attempts + 1 => do
    let row ← ofExcept (← ask (.selectTransaction gid))
    let previousPayload ← ofExcept (row.elim (.error s!"transaction not found: {gid}") .ok)
    let tx ← ofExcept (Transaction.ofText floats previousPayload)
    let now ← ask .currentMillis
    let tx ← ofExcept (mutate now tx)
    let changed ← ofExcept (← ask (.swapTransaction gid previousPayload tx))
    if changed = 1 then return tx
    else mutateLoop gid operation mutate attempts

/-- `register_branch`. -/
def registerBranch (gid : String) (branch : Branch) : SqliteAct Transaction :=
  mutateLoop floats gid "branch registration" (fun now tx => appendDynamicBranch now tx branch)
    mutationAttempts

/-- `record_workflow_progress`. -/
def recordWorkflowProgress (gid : String) (progress : WorkflowProgress) :
    SqliteAct Transaction :=
  mutateLoop floats gid "workflow progress update"
    (fun now tx => appendWorkflowProgress now tx progress) mutationAttempts

/-- `finish_workflow`. -/
def finishWorkflow (gid : String) (status : TransactionStatus)
    (rollbackReason result : Option String) : SqliteAct Transaction :=
  mutateLoop floats gid "workflow completion"
    (fun now tx => applyWorkflowCompletion now tx status rollbackReason result) mutationAttempts

/-- `defer_workflow_recovery`. -/
def deferWorkflowRecovery (gid : String) (delay : WorkflowRecoveryDelay) :
    SqliteAct Transaction :=
  mutateLoop floats gid "workflow recovery update"
    (fun now tx => RozeDtm.deferWorkflowRecovery now tx delay) mutationAttempts

/-- `list_transactions`. -/
def listTransactions : SqliteAct (List Transaction) := do
  let rows ← ofExcept (← ask .selectTransactions)
  ofExcept (rows.mapM (Transaction.ofText floats))

/-- What retention does with the row that it has selected. -/
def deleteSelected (transaction : Transaction) : Option String → SqliteAct Bool
  | none => do
    ofExcept (← ask .rollback)
    return false
  | some payload => do
    let current ← ofExcept (Transaction.ofText floats payload)
    if current ≠ transaction then
      ofExcept (← ask .rollback)
      return false
    let deleted ← ofExcept (← ask (.deleteTransaction transaction.gid payload))
    return deleted = 1

/-- `delete_transaction_if_unchanged`. -/
def deleteTransactionIfUnchanged (transaction : Transaction) : SqliteAct Bool := do
  ofExcept (← ask .begin)
  let row ← ofExcept (← ask (.selectTransaction transaction.gid))
  deleteSelected floats transaction row

/-- `get_kv`. -/
def getKv (category key : String) : SqliteAct (Option KvEntry) := do
  let row ← ofExcept (← ask (.selectKv category key))
  ofExcept (row.elim (.ok none) fun row => (kvEntryFromValues row).map some)

/-- `barrier`. -/
def barrier (b : BranchBarrier) : SqliteAct BarrierDecision := do
  ofExcept (← ask (.barrier b))

/-- `release_barrier`. -/
def releaseBarrier (b : BranchBarrier) : SqliteAct Unit := do
  let _ ← ofExcept (← ask (.deleteBarrier b))

/-- `try_acquire_recovery_lease`. -/
def tryAcquireRecoveryLease (name owner : String) (ttlMillis : Nat) : SqliteAct Bool := do
  let now ← ask .currentMillis
  let expiresAt := satAdd64 now ttlMillis
  let renewed ← ofExcept (← ask (.renewLease name owner now expiresAt))
  if renewed = 1 then return true
  let inserted ← ofExcept (← ask (.insertLease name owner expiresAt))
  return inserted = 1

/-- `TransactionStore::acquire_recovery_lease`, the default method. -/
def acquireRecoveryLease (name owner : String) (ttlMillis : Nat) :
    SqliteAct (Option RecoveryLeaseFence) := do
  let acquired ← tryAcquireRecoveryLease name owner ttlMillis
  return if acquired then some { name, owner, epoch := 1 } else none

/-- The calls of `TransactionStore`.  Those with a fence are the same, by the defaults of the
trait. -/
def call : (o : Effect) → SqliteAct o.Reply
  | .insertTransaction tx => do return .ok (← insertTransaction tx)
  | .getTransaction gid => getTransaction floats gid
  | .updateTransaction tx => do return .ok (← updateTransaction tx)
  | .registerBranch gid branch => do return .ok (← registerBranch floats gid branch)
  | .recordWorkflowProgress gid progress => do
    return .ok (← recordWorkflowProgress floats gid progress)
  | .finishWorkflow gid status reason result =>
    attempt (finishWorkflow floats gid status reason result)
  | .deferWorkflowRecovery gid delay => attempt (deferWorkflowRecovery floats gid delay)
  | .listTransactions => listTransactions floats
  | .deleteTransactionIfUnchanged tx => deleteTransactionIfUnchanged floats tx
  | .getKv category key => getKv category key
  | .barrier b => barrier b
  | .releaseBarrier b => releaseBarrier b
  | .acquireRecoveryLease name owner ttlMillis => acquireRecoveryLease name owner ttlMillis
  | .currentMillis => ask .currentMillis
  | .invokeBegin c => ask (.invokeBegin c)
  | .invokeEnd c => ask (.invokeEnd c)
  | .queryWorkflowCallback request options => ask (.queryWorkflowCallback request options)
  | .joinNext n => ask (.joinNext n)

/-- The store. -/
def handler : Handler effects sqliteSteps Err Unit where
  run := fun _ o => call floats o
  next := fun _ _ _ => ()

/-- An operation over the store. -/
def prog (p : Prog effects (Except Err α)) : Prog sqliteSteps (Except Err α) :=
  p.through (handler floats) ()

end SqliteStore

end RozeDtm
