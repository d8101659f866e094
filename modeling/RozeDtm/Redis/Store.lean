import RozeDtm.Conc.Levels
import RozeDtm.Model.Coordinator.Common
import RozeDtm.Redis.Barriers
import RozeDtm.Redis.Fields

/-!
# The Redis store under the coordinator

`RedisTransactionStore` keeps each transaction as a payload in a field of one hash and writes it
by compare-and-swap.  `RedisStep` lists the commands and scripts that are sent, each of them
atomic, and the steps of the coordinator that go elsewhere; an `async fn` of the store is a
program of them.

The functions with a fence differ from those without one in the check of the fence at their
start, in the script, and in the texts of their errors, so each pair is one program over an
`Option RecoveryLeaseFence`.  `RecoveryFencedStore` says which of them a recovery tick calls.
-/

namespace RozeDtm

open Conc

/-- What the store uses of `serde_json`. -/
structure RedisJson where
  /-- `to_string` of a transaction. -/
  encode : Transaction → Except Err String
  /-- `from_str` at a transaction. -/
  decode : String → Except Err Transaction
  /-- `from_str` at an entry of the key-value store. -/
  decodeKv : String → Except Err KvEntry

/-! ### Commands and scripts -/

/-- The steps: the commands on the barriers and the retention delete, `HSETNX` of a transaction,
`CAS_HASH_FIELD` or with a fence `FENCED_CAS_HASH_FIELD`, one `HSCAN` of the transactions, `HGET`
of the key-value store and `ACQUIRE_RECOVERY_LEASE`; the clock of the coordinator, and what it
asks of the outside. -/
inductive RedisStep
  | command (o : RedisCommand)
  | hsetnx (gid payload : String)
  | casHashField (fence : Option RecoveryLeaseFence) (gid previous payload : String)
  | hscan (cursor : Nat)
  | hgetKv (field : String)
  | acquireRecoveryLease (name owner : String) (ttlMillis : Nat)
  | currentMillis
  | invokeBegin (c : BranchCall)
  | invokeEnd (c : BranchCall)
  | queryWorkflowCallback (request : WorkflowCallbackRequest) (options : TransactionOptions)
  | joinNext (n : Nat)

/-- What they are answered with; an error is a lost connection or a timeout. -/
def RedisStep.Reply : RedisStep → Type
  | .command o => o.Reply
  | .hsetnx _ _ | .casHashField _ _ _ _ => Except Err Int
  | .hscan _ => Except Err (Nat × List (String × String))
  | .hgetKv _ => Except Err (Option String)
  | .acquireRecoveryLease _ _ _ => Except Err (Int × Int)
  | .currentMillis => Nat
  | .invokeBegin _ => Unit
  | .invokeEnd _ => Bool
  | .queryWorkflowCallback _ _ => Except Err WorkflowCallbackResult
  | .joinNext n => Fin (n + 1)

def redisSteps : Sig := ⟨RedisStep, RedisStep.Reply⟩

/-- An `async fn` over these steps. -/
abbrev RedisAct (α : Type) := Proc redisSteps Err α

/-- The functions on the barriers among the others. -/
def redisBarriers : Handler redisCommands redisSteps Err Unit where
  run := fun _ (o : RedisCommand) => @Proc.perform redisSteps Err (.command o)
  next := fun _ _ _ => ()

/-! ### The store's functions -/

namespace RedisStore

variable {α : Type}

/-- One step, without `?`. -/
def ask (o : RedisStep) : RedisAct o.Reply := @Proc.perform redisSteps Err o

/-- `?` on a result that is already there. -/
def ofExcept (e : Except Err α) : RedisAct α := ExceptT.mk (.pure e)

/-- A call whose `Result` its caller keeps. -/
def attempt (x : RedisAct α) : RedisAct (Except Err α) :=
  ExceptT.mk (x.run.bind fun r => .pure (.ok r))

/-- A function on the barriers. -/
def barriers (x : RedisProc α) : RedisAct α := x.through redisBarriers ()

/-- `TRANSACTION_MUTATION_ATTEMPTS`. -/
def mutationAttempts : Nat := 16

/-- `MAX_REDIS_SCAN_ENTRIES`. -/
def maxScanEntries : Nat := 1000000

/-- `validate_recovery_lease_input`. -/
def validateRecoveryLeaseInput (name owner : String) (ttlMillis : Nat) : Except Err Unit := do
  ensure (!name.isEmpty && name.utf8ByteSize ≤ 128) "invalid Redis recovery lease name"
  ensure (!owner.isEmpty && owner.utf8ByteSize ≤ 128) "invalid Redis recovery lease owner"
  ensure (1 ≤ ttlMillis && ttlMillis ≤ 86400000) "invalid Redis recovery lease TTL"

/-- The check that the functions with a fence start with. -/
def checkFence : Option RecoveryLeaseFence → Except Err Unit
  | none => .ok ()
  | some fence => RedisProc.validateRecoveryFence fence

/-- What an answer of a compare-and-swap other than 1 and 0 means; `what` names its caller. -/
def swapRefusal (fence : Option RecoveryLeaseFence) (gid what : String) (changed : Int) : Err :=
  if changed = -1 then s!"transaction not found: {gid}"
  else if fence.isNone then s!"unknown Redis transaction {what} result: {changed}"
  else if changed = -2 then "Redis recovery lease fence is no longer valid"
  else s!"unknown Redis fenced transaction {what} result: {changed}"

variable (json : RedisJson)

/-- `transaction_payload`. -/
def transactionPayload (gid : String) : RedisAct (Option String) := do
  ofExcept (← ask (.command (.hgetTransaction gid)))

/-- The payload of a transaction that has to be there. -/
def storedPayload (gid : String) : RedisAct String := do
  let payload ← transactionPayload gid
  ofExcept (payload.elim (.error s!"transaction not found: {gid}") .ok)

/-- `insert_transaction`. -/
def insertTransaction (transaction : Transaction) : RedisAct Unit := do
  let payload ← ofExcept (json.encode transaction)
  let inserted ← ofExcept (← ask (.hsetnx transaction.gid payload))
  ofExcept (ensure (inserted = 1) s!"transaction already exists: {transaction.gid}")

/-- `get_transaction`. -/
def getTransaction (gid : String) : RedisAct (Option Transaction) := do
  let payload ← transactionPayload gid
  ofExcept (payload.elim (.ok none) fun payload => (json.decode payload).map some)

/-- `update_transaction` and `update_transaction_fenced_inner`. -/
def updateTransaction (fence : Option RecoveryLeaseFence) (transaction : Transaction) :
    RedisAct Unit := do
  ofExcept (checkFence fence)
  let previousPayload ← storedPayload transaction.gid
  let current ← ofExcept (json.decode previousPayload)
  ofExcept (ensure (current.revision = transaction.revision) "Redis transaction revision conflict")
  let now ← ask .currentMillis
  let payload ← ofExcept (json.encode (bumpTransactionRevision now transaction))
  let changed ← ofExcept (← ask (.casHashField fence transaction.gid previousPayload payload))
  if changed = 1 then return ()
  else if changed = 0 then throw "Redis transaction revision conflict"
  else throw (swapRefusal fence transaction.gid "update" changed)

/-- The loop of `mutate_transaction` and `mutate_transaction_fenced`.  The clock is read before
the change here, whether or not the change reads it. -/
def mutateLoop (fence : Option RecoveryLeaseFence) (gid operation : String)
    (mutate : Nat → Transaction → Except Err Transaction) : Nat → RedisAct Transaction
  | 0 => throw s!"transaction {gid} {operation} is contended"
  | attempts + 1 => do
    let previousPayload ← storedPayload gid
    let transaction ← ofExcept (json.decode previousPayload)
    let now ← ask .currentMillis
    let transaction ← ofExcept (mutate now transaction)
    let payload ← ofExcept (json.encode transaction)
    let changed ← ofExcept (← ask (.casHashField fence gid previousPayload payload))
    if changed = 1 then return transaction
    else if changed = 0 then mutateLoop fence gid operation mutate attempts
    else throw (swapRefusal fence gid "CAS" changed)

/-- `mutate_transaction` and `mutate_transaction_fenced`. -/
def mutateTransaction (fence : Option RecoveryLeaseFence) (gid operation : String)
    (mutate : Nat → Transaction → Except Err Transaction) : RedisAct Transaction := do
  ofExcept (checkFence fence)
  mutateLoop json fence gid operation mutate mutationAttempts

/-- `register_branch`. -/
def registerBranch (gid : String) (branch : Branch) : RedisAct Transaction :=
  mutateTransaction json none gid "branch registration" fun now transaction =>
    appendDynamicBranch now transaction branch

/-- `record_workflow_progress` and `record_workflow_progress_fenced`. -/
def recordWorkflowProgress (fence : Option RecoveryLeaseFence) (gid : String)
    (progress : WorkflowProgress) : RedisAct Transaction :=
  mutateTransaction json fence gid "workflow progress update" fun now transaction =>
    appendWorkflowProgress now transaction progress

/-- `finish_workflow` and `finish_workflow_fenced`. -/
def finishWorkflow (fence : Option RecoveryLeaseFence) (gid : String) (status : TransactionStatus)
    (rollbackReason result : Option String) : RedisAct Transaction :=
  mutateTransaction json fence gid "workflow completion" fun now transaction =>
    applyWorkflowCompletion now transaction status rollbackReason result

/-- `defer_workflow_recovery` and `defer_workflow_recovery_fenced`. -/
def deferWorkflowRecovery (fence : Option RecoveryLeaseFence) (gid : String)
    (delay : WorkflowRecoveryDelay) : RedisAct Transaction :=
  mutateTransaction json fence gid "workflow recovery update" fun now transaction =>
    RozeDtm.deferWorkflowRecovery now transaction delay

/-- `hash_values` of the transactions, in at most `pages` pages. -/
def hashValues : (pages cursor : Nat) → Std.ExtTreeMap String String → RedisAct (List String)
  | 0, _, _ => throw "Redis operation failed"
  | pages + 1, cursor, values => do
    let (nextCursor, entries) ← ofExcept (← ask (.hscan cursor))
    let values := values.insertMany entries
    ofExcept (ensure (values.size ≤ maxScanEntries)
      s!"Redis DTM scan exceeds {maxScanEntries} entries")
    if nextCursor = 0 then return values.toList.map Prod.snd
    else hashValues pages nextCursor values

/-- The order of `list_transactions`. -/
def listedLe (left right : Transaction) : Bool :=
  left.updatedAtMillis < right.updatedAtMillis ||
    left.updatedAtMillis = right.updatedAtMillis && left.gid ≤ right.gid

/-- `list_transactions`. -/
def listTransactions (pages : Nat) : RedisAct (List Transaction) := do
  let payloads ← hashValues pages 0 ∅
  let transactions ← ofExcept (payloads.mapM json.decode)
  return transactions.mergeSort listedLe

/-- `get_kv`. -/
def getKv (category key : String) : RedisAct (Option KvEntry) := do
  let payload ← ofExcept (← ask (.hgetKv (kvField category key)))
  ofExcept (payload.elim (.ok none) fun payload => (json.decodeKv payload).map some)

/-- What an answer of `ACQUIRE_RECOVERY_LEASE` means. -/
def leaseAnswer (name owner : String) (acquired epoch : Int) :
    RedisAct (Option RecoveryLeaseFence) :=
  if acquired = 0 then return none
  else if acquired = 1 then do
    ofExcept (ensure (0 ≤ epoch) "invalid Redis recovery lease epoch")
    return some { name, owner, epoch := epoch.toNat }
  else throw s!"unknown Redis recovery lease result: {acquired}"

/-- `acquire_recovery_lease`. -/
def acquireRecoveryLease (name owner : String) (ttlMillis : Nat) :
    RedisAct (Option RecoveryLeaseFence) := do
  ofExcept (validateRecoveryLeaseInput name owner ttlMillis)
  let (acquired, epoch) ← ofExcept (← ask (.acquireRecoveryLease name owner ttlMillis))
  leaseAnswer name owner acquired epoch

/-- The calls of `TransactionStore`: those of `RedisTransactionStore`, and with a fence those of
a `RecoveryFencedStore` over it. -/
def call (pages : Nat) (fence : Option RecoveryLeaseFence) : (o : Effect) → RedisAct o.Reply
  | .insertTransaction tx => do return .ok (← insertTransaction json tx)
  | .getTransaction gid => getTransaction json gid
  | .updateTransaction tx => do return .ok (← updateTransaction json fence tx)
  | .registerBranch gid branch => do return .ok (← registerBranch json gid branch)
  | .recordWorkflowProgress gid progress => do
    return .ok (← recordWorkflowProgress json fence gid progress)
  | .finishWorkflow gid status reason result =>
    attempt (finishWorkflow json fence gid status reason result)
  | .deferWorkflowRecovery gid delay => attempt (deferWorkflowRecovery json fence gid delay)
  | .listTransactions => listTransactions json pages
  | .deleteTransactionIfUnchanged tx =>
    barriers (RedisProc.deleteTransactionIfUnchanged json.decode tx)
  | .getKv category key => getKv json category key
  | .barrier b => barriers (fence.elim (RedisProc.barrier b) (RedisProc.barrierFenced b))
  | .releaseBarrier b =>
    barriers (fence.elim (RedisProc.releaseBarrier b) (RedisProc.releaseBarrierFenced b))
  | .acquireRecoveryLease name owner ttlMillis => acquireRecoveryLease name owner ttlMillis
  | .currentMillis => ask .currentMillis
  | .invokeBegin c => ask (.invokeBegin c)
  | .invokeEnd c => ask (.invokeEnd c)
  | .queryWorkflowCallback request options => ask (.queryWorkflowCallback request options)
  | .joinNext n => ask (.joinNext n)

/-- The store that the coordinator goes on with: once it has been granted a recovery lease, a
`RecoveryFencedStore` with the fence.  Another one around that would drop its own fence, by the
defaults of the trait. -/
def handler (pages : Nat) : Handler effects redisSteps Err (Option RecoveryLeaseFence) where
  run := call json pages
  next := fun fence (o : Effect) r =>
    match o, r with
    | .acquireRecoveryLease _ _ _, some granted => some (fence.getD granted)
    | _, _ => fence

/-- An operation over the store. -/
def prog (pages : Nat) (p : Prog effects (Except Err α)) : Prog redisSteps (Except Err α) :=
  p.through (handler json pages) none

end RedisStore

end RozeDtm
