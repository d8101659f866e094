import Mathlib.Data.Finset.Basic
import Mathlib.Data.Finset.SDiff
import Mathlib.Logic.Function.Basic
import RozeDtm.Conc.Pool
import RozeDtm.Relational.Statements

/-!
# The barriers of the Redis store

`RedisTransactionStore` keeps the barriers as fields of one hash and, for each gid, the set of
its fields, by which the retention delete finds them.  The scripts and commands are atomic
steps; an `async fn` is a program of them.  A field is the JSON text of the three names of its
barrier, and an index key ends in the JSON text of its gid; both are taken as what they are
texts of.
-/

namespace RozeDtm

open Conc

/-! ### Commands and scripts -/

/-- The commands and scripts that are sent: `BARRIER_DECISION`, `FENCED_BARRIER_DECISION`, the
HDEL and the SREM of a release, `FENCED_DELETE_HASH_FIELD`, the HGET of a transaction and
`DELETE_TRANSACTION_IF_UNCHANGED`. -/
inductive RedisCommand
  | barrierDecision (gid : String) (field cancelField tryField : BranchBarrier) (op : String)
  | fencedBarrierDecision (gid : String) (field cancelField tryField : BranchBarrier) (op : String)
      (fence : RecoveryLeaseFence)
  | hdel (field : BranchBarrier)
  | srem (gid : String) (field : BranchBarrier)
  | fencedDelete (gid : String) (field : BranchBarrier) (fence : RecoveryLeaseFence)
  | hgetTransaction (gid : String)
  | deleteTransactionIfUnchanged (gid payload : String) (fields : List BranchBarrier)

/-- What they are answered with; an error is a lost connection or a timeout. -/
def RedisCommand.Reply : RedisCommand → Type
  | .barrierDecision _ _ _ _ _ | .fencedBarrierDecision _ _ _ _ _ _ => Except Err String
  | .hdel _ | .srem _ _ | .fencedDelete _ _ _ | .deleteTransactionIfUnchanged _ _ _ =>
    Except Err Int
  | .hgetTransaction _ => Except Err (Option String)

def redisCommands : Sig := ⟨RedisCommand, RedisCommand.Reply⟩

/-! ### The store's functions -/

/-- An `async fn` of the store. -/
abbrev RedisProc (α : Type) := Proc redisCommands Err α

namespace RedisProc

variable {α : Type}

/-- One command, without `?`. -/
def ask (o : RedisCommand) : RedisProc o.Reply := @Proc.perform redisCommands Err o

/-- `?` on a result that is already there. -/
def ofExcept (e : Except Err α) : RedisProc α := ExceptT.mk (.pure e)

/-- `validate_recovery_fence`. -/
def validateRecoveryFence (fence : RecoveryLeaseFence) : Except Err Unit :=
  if fence.name.isEmpty || 128 < fence.name.utf8ByteSize then
    .error "invalid Redis recovery lease name"
  else if fence.owner.isEmpty || 128 < fence.owner.utf8ByteSize then
    .error "invalid Redis recovery lease owner"
  else if fence.epoch = 0 then .error "invalid Redis recovery lease epoch"
  else .ok ()

/-- The decisions that a script can answer with. -/
def parseDecision (unknown : Err) (decision : String) : Except Err BarrierDecision :=
  if decision = "execute" then .ok .execute
  else if decision = "duplicate" then .ok .skipDuplicate
  else if decision = "null_compensation" then .ok .skipNullCompensation
  else if decision = "cancelled_try" then .ok .skipCancelledTry
  else .error unknown

/-- `barrier`. -/
def barrier (b : BranchBarrier) : RedisProc BarrierDecision := do
  let decision ← ofExcept (← ask (.barrierDecision b.gid b ⟨b.gid, b.branchId, "cancel"⟩
    ⟨b.gid, b.branchId, "try"⟩ b.op))
  ofExcept (parseDecision s!"unknown Redis barrier decision: {decision}" decision)

/-- `barrier_fenced`. -/
def barrierFenced (b : BranchBarrier) (fence : RecoveryLeaseFence) :
    RedisProc BarrierDecision := do
  ofExcept (validateRecoveryFence fence)
  let decision ← ofExcept (← ask (.fencedBarrierDecision b.gid b ⟨b.gid, b.branchId, "cancel"⟩
    ⟨b.gid, b.branchId, "try"⟩ b.op fence))
  if decision = "fence_lost" then throw "Redis recovery lease fence is no longer valid"
  ofExcept (parseDecision s!"unknown Redis fenced barrier decision: {decision}" decision)

/-- `release_barrier`. -/
def releaseBarrier (b : BranchBarrier) : RedisProc Unit := do
  let _ ← ofExcept (← ask (.hdel b))
  let _ ← ofExcept (← ask (.srem b.gid b))

/-- `release_barrier_fenced`. -/
def releaseBarrierFenced (b : BranchBarrier) (fence : RecoveryLeaseFence) : RedisProc Unit := do
  ofExcept (validateRecoveryFence fence)
  let deleted ← ofExcept (← ask (.fencedDelete b.gid b fence))
  if deleted = 0 ∨ deleted = 1 then return ()
  else if deleted = -2 then throw "Redis recovery lease fence is no longer valid"
  else throw s!"unknown Redis fenced barrier release result: {deleted}"

/-- `transaction_barrier_fields`. -/
def transactionBarrierFields (transaction : Transaction) : List BranchBarrier :=
  transaction.branches.flatMap fun branch =>
    let operations := match branch.kind with
      | .sagaAction | .sagaCompensate => ["action", "compensate"]
      | .tccTry | .tccConfirm | .tccCancel => ["try", "confirm", "cancel"]
      | .workflowAction => ["workflow", "workflow_rollback"]
      | .messageAction => ["message"]
      | .xaAction => ["commit", "rollback"]
    operations.map fun operation => ⟨transaction.gid, branch.id, operation⟩

/-- `delete_transaction_if_unchanged`, where `decode` is `serde_json::from_str`. -/
def deleteTransactionIfUnchanged (decode : String → Except Err Transaction)
    (transaction : Transaction) : RedisProc Bool := do
  match ← ofExcept (← ask (.hgetTransaction transaction.gid)) with
  | none => return false
  | some payload => do
    let current ← ofExcept (decode payload)
    if current ≠ transaction then return false
    let deleted ← ofExcept (← ask (.deleteTransactionIfUnchanged transaction.gid payload
      (transactionBarrierFields transaction)))
    if deleted = 1 then return true
    else if deleted = 0 ∨ deleted = -1 then return false
    else throw s!"unknown Redis transaction retention result: {deleted}"

end RedisProc

/-- The calls of the store that have to do with barriers. -/
inductive RedisCall
  | barrier (b : BranchBarrier)
  | barrierFenced (b : BranchBarrier) (fence : RecoveryLeaseFence)
  | releaseBarrier (b : BranchBarrier)
  | releaseBarrierFenced (b : BranchBarrier) (fence : RecoveryLeaseFence)
  | deleteTransactionIfUnchanged (transaction : Transaction)

/-- Their programs, without what they return. -/
def RedisCall.prog (decode : String → Except Err Transaction) :
    RedisCall → Prog redisCommands (Except Err Unit)
  | .barrier b => (do let _ ← RedisProc.barrier b : RedisProc Unit).run
  | .barrierFenced b fence => (do let _ ← RedisProc.barrierFenced b fence : RedisProc Unit).run
  | .releaseBarrier b => (RedisProc.releaseBarrier b).run
  | .releaseBarrierFenced b fence => (RedisProc.releaseBarrierFenced b fence).run
  | .deleteTransactionIfUnchanged tx =>
    (do let _ ← RedisProc.deleteTransactionIfUnchanged decode tx : RedisProc Unit).run

/-! ### The server -/

/-- The three fields of a recovery lease. -/
structure RedisLease where
  owner : Option String
  expiry : Nat
  epoch : Nat
  deriving DecidableEq

/-- The keys of the store: the fields of the barriers hash, the barrier index set of each gid,
the transactions hash, the leases, and the server's time. -/
structure RedisWorld where
  barriers : Finset BranchBarrier
  index : String → Finset BranchBarrier
  transactions : String → Option String
  leases : String → RedisLease
  nowMillis : Nat

namespace RedisWorld

variable (w : RedisWorld)

/-- HSET of a barrier and SADD to its index. -/
def take (gid : String) (field : BranchBarrier) : RedisWorld :=
  { w with
    barriers := insert field w.barriers
    index := Function.update w.index gid (insert field (w.index gid)) }

/-- `BARRIER_DECISION`. -/
def barrierDecision (gid : String) (field cancelField tryField : BranchBarrier) (op : String) :
    String × RedisWorld :=
  if field ∈ w.barriers then ("duplicate", w)
  else if op = "try" ∧ cancelField ∈ w.barriers then ("cancelled_try", w)
  else if op = "cancel" ∧ tryField ∉ w.barriers then ("null_compensation", w.take gid field)
  else ("execute", w.take gid field)

/-- The check at the start of the fenced scripts. -/
def FenceValid (fence : RecoveryLeaseFence) : Prop :=
  (w.leases fence.name).owner = some fence.owner ∧ w.nowMillis < (w.leases fence.name).expiry ∧
    (w.leases fence.name).epoch = fence.epoch

instance (fence : RecoveryLeaseFence) : Decidable (w.FenceValid fence) :=
  inferInstanceAs (Decidable (_ ∧ _ ∧ _))

/-- `FENCED_DELETE_HASH_FIELD`, once its fence is valid. -/
def deleteField (gid : String) (field : BranchBarrier) : Int × RedisWorld :=
  (if field ∈ w.barriers then 1 else 0,
    { w with
      barriers := w.barriers.erase field
      index := Function.update w.index gid ((w.index gid).erase field) })

/-- `DELETE_TRANSACTION_IF_UNCHANGED`. -/
def deleteTransaction (gid payload : String) (fields : List BranchBarrier) : Int × RedisWorld :=
  match w.transactions gid with
  | none => (-1, w)
  | some current =>
    if current ≠ payload then (0, w)
    else (1, { w with
      transactions := Function.update w.transactions gid none
      barriers := (w.barriers \ w.index gid) \ fields.toFinset
      index := Function.update w.index gid ∅ })

/-- A command and what the world is after it, when it is done. -/
def done : (o : RedisCommand) → o.Reply × RedisWorld
  | .barrierDecision gid field cancelField tryField op =>
    let (decision, w) := w.barrierDecision gid field cancelField tryField op
    (.ok decision, w)
  | .fencedBarrierDecision gid field cancelField tryField op fence =>
    if w.FenceValid fence then
      let (decision, w) := w.barrierDecision gid field cancelField tryField op
      (.ok decision, w)
    else (.ok "fence_lost", w)
  | .hdel field =>
    (.ok (if field ∈ w.barriers then 1 else 0), { w with barriers := w.barriers.erase field })
  | .srem gid field =>
    (.ok (if field ∈ w.index gid then 1 else 0),
      { w with index := Function.update w.index gid ((w.index gid).erase field) })
  | .fencedDelete gid field fence =>
    if w.FenceValid fence then
      let (deleted, w) := w.deleteField gid field
      (.ok deleted, w)
    else (.ok (-2), w)
  | .hgetTransaction gid => (.ok (w.transactions gid), w)
  | .deleteTransactionIfUnchanged gid payload fields =>
    let (deleted, w) := w.deleteTransaction gid payload fields
    (.ok deleted, w)

end RedisWorld

/-- The answer to a command that was lost. -/
def RedisCommand.lost : (o : RedisCommand) → o.Reply
  | .barrierDecision _ _ _ _ _ | .fencedBarrierDecision _ _ _ _ _ _ | .hdel _ | .srem _ _
  | .fencedDelete _ _ _ | .hgetTransaction _ | .deleteTransactionIfUnchanged _ _ _ =>
    .error "Redis operation failed"

/-- The server under the commands of any number of calls.  Between them the rest of the store
may change: transactions are written, leases are taken, time passes. -/
def redis : Machine redisCommands RedisWorld Fate where
  exec := fun _ (o : RedisCommand) fate w =>
    match fate with
    | .done => w.done o
    | .lost => (o.lost, (w.done o).2)
    | .failed => (o.lost, w)
  drift := fun w w' => w'.barriers = w.barriers ∧ w'.index = w.index
  allow := fun _ _ => True

instance (o : redisCommands.Op) (w : RedisWorld) : Decidable (redis.allow o w) :=
  inferInstanceAs (Decidable True)

/-- The server with empty keys, apart from what the rest of the store has written. -/
def RedisWorld.empty (transactions : String → Option String) (leases : String → RedisLease)
    (nowMillis : Nat) : RedisWorld :=
  ⟨∅, fun _ => ∅, transactions, leases, nowMillis⟩

/-- The programs of the calls. -/
def RedisCall.Programs (decode : String → Except Err Transaction)
    (p : Prog redisCommands (Except Err Unit)) : Prop :=
  ∃ call : RedisCall, True ∧ p = call.prog decode

/-- A run of calls, computed from its moves. -/
theorem RedisCall.exists_run (M : Machine redisCommands RedisWorld Fate)
    [∀ o w, Decidable (M.allow o w)] (decode : String → Except Err Transaction) (w : RedisWorld)
    (moves : List (Move RedisCall Fate)) (φ : RedisWorld → Bool)
    (h : ((M.performAll? (RedisCall.prog decode) (Pool.idle w) moves).any fun P =>
      φ P.world) = true) :
    ∃ P, M.Reaches (RedisCall.Programs decode) w P ∧ φ P.world = true :=
  Machine.exists_of_performAll? (fun _ _ => trivial) h

end RozeDtm
