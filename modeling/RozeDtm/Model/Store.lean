import Mathlib.Data.Finset.Filter
import RozeDtm.Conc.Pool
import RozeDtm.Model.Transaction

/-!
# Store calls, branch calls and the in-memory store

`Effect` lists the atomic steps of a coordinator operation: the methods of
`TransactionStore`, a reading of the clock, and the calls to the outside.  A branch
call is two steps, its issue (`invokeBegin`) and its return (`invokeEnd`), so that
between them the call is in flight; a run in which the two are always next to each
other is one in which every branch call is a single step.

`InMemory.exec` is `InMemoryTransactionStore`, one definition for each method.  The
SQL stores differ in where the data lies but not in what a call does to it:
their `update_transaction` is the same unconditional upsert and their
`register_branch`, `record_workflow_progress`, `finish_workflow` and
`defer_workflow_recovery` apply the same function to a locked row.

`World.history` is not part of the store.  It records, latest first, the barrier
decisions and releases, the branch calls and the registrations, each with the
number of the operation that made it.
-/

namespace RozeDtm

open Conc

/-- One atomic step of a coordinator operation. -/
inductive Effect
  | insertTransaction (tx : Transaction)
  | getTransaction (gid : String)
  | updateTransaction (tx : Transaction)
  | registerBranch (gid : String) (branch : Branch)
  | recordWorkflowProgress (gid : String) (progress : WorkflowProgress)
  | finishWorkflow (gid : String) (status : TransactionStatus)
      (rollbackReason result : Option String)
  | deferWorkflowRecovery (gid : String) (delay : WorkflowRecoveryDelay)
  | listTransactions
  | deleteTransactionIfUnchanged (transaction : Transaction)
  | getKv (category key : String)
  | barrier (b : BranchBarrier)
  | releaseBarrier (b : BranchBarrier)
  | acquireRecoveryLease (name owner : String) (ttlMillis : Nat)
  | currentMillis
  | invokeBegin (c : BranchCall)
  | invokeEnd (c : BranchCall)
  | queryWorkflowCallback (request : WorkflowCallbackRequest) (options : TransactionOptions)
  /-- Which of `n + 1` task events of a `JoinSet` comes next. -/
  | joinNext (n : Nat)

/-- What a step is answered with. -/
def Effect.Reply : Effect → Type
  | .insertTransaction _ => Except Err Unit
  | .getTransaction _ => Option Transaction
  | .updateTransaction _ => Except Err Unit
  | .registerBranch _ _ => Except Err Transaction
  | .recordWorkflowProgress _ _ => Except Err Transaction
  | .finishWorkflow _ _ _ _ => Except Err Transaction
  | .deferWorkflowRecovery _ _ => Except Err Transaction
  | .listTransactions => List Transaction
  | .deleteTransactionIfUnchanged _ => Bool
  | .getKv _ _ => Option KvEntry
  | .barrier _ => BarrierDecision
  | .releaseBarrier _ => Unit
  | .acquireRecoveryLease _ _ _ => Option RecoveryLeaseFence
  | .currentMillis => Nat
  | .invokeBegin _ => Unit
  | .invokeEnd _ => Bool
  | .queryWorkflowCallback _ _ => Except Err WorkflowCallbackResult
  | .joinNext n => Fin (n + 1)

abbrev effects : Sig := ⟨Effect, Effect.Reply⟩

/-- What is recorded of a run. -/
inductive Event
  | decided (b : BranchBarrier) (d : BarrierDecision)
  | released (b : BranchBarrier)
  | began (c : BranchCall)
  | ended (c : BranchCall) (ok : Bool)
  | registered (gid : String) (branch : Branch)
  | progressed (gid : String) (progress : WorkflowProgress)
  deriving DecidableEq

/-- The store, the clock, and the record of the run. -/
structure World where
  txs : Std.ExtTreeMap String Transaction
  kv : String × String → Option KvEntry
  barriers : Finset BranchBarrier
  leases : Std.ExtTreeMap String RecoveryLease
  clock : Nat
  history : List (Nat × Event)

/-- The outcomes that the outside picks. -/
structure Outcome where
  ok : Bool
  callback : Except Err WorkflowCallbackResult
  pick : Nat

namespace World

/-- Record an event of operation `i`. -/
def note (w : World) (i : Nat) (e : Event) : World := { w with history := (i, e) :: w.history }

/-- Write a transaction under its gid. -/
def put (w : World) (tx : Transaction) : World := { w with txs := w.txs.insert tx.gid tx }

@[simp] theorem note_txs (w : World) (i : Nat) (e : Event) : (w.note i e).txs = w.txs := rfl
@[simp] theorem note_barriers (w : World) (i : Nat) (e : Event) :
    (w.note i e).barriers = w.barriers := rfl
@[simp] theorem note_clock (w : World) (i : Nat) (e : Event) : (w.note i e).clock = w.clock := rfl
@[simp] theorem note_history (w : World) (i : Nat) (e : Event) :
    (w.note i e).history = (i, e) :: w.history := rfl
@[simp] theorem put_txs (w : World) (tx : Transaction) :
    (w.put tx).txs = w.txs.insert tx.gid tx := rfl
@[simp] theorem put_barriers (w : World) (tx : Transaction) :
    (w.put tx).barriers = w.barriers := rfl
@[simp] theorem put_clock (w : World) (tx : Transaction) : (w.put tx).clock = w.clock := rfl
@[simp] theorem put_history (w : World) (tx : Transaction) :
    (w.put tx).history = w.history := rfl

end World

/-! ### The methods of `InMemoryTransactionStore` -/

namespace InMemory

def insertTransaction (w : World) (tx : Transaction) : Except Err Unit × World :=
  if w.txs.contains tx.gid then (.error s!"transaction already exists: {tx.gid}", w)
  else (.ok (), w.put tx)

def getTransaction (w : World) (gid : String) : Option Transaction := w.txs[gid]?

def updateTransaction (w : World) (tx : Transaction) : Except Err Unit × World :=
  (.ok (), w.put (bumpTransactionRevision w.clock tx))

/-- `txs.get_mut(gid)`, a fallible change in place, and a copy of the result.  The
change is made to a copy here, so a failed one leaves the store as it was; each of
the changes below checks before it writes. -/
def modify (w : World) (gid : String) (f : Transaction → Except Err Transaction) :
    Except Err Transaction × World :=
  match w.txs[gid]? with
  | none => (.error s!"transaction not found: {gid}", w)
  | some tx =>
    match f tx with
    | .error e => (.error e, w)
    | .ok tx' => (.ok tx', { w with txs := w.txs.insert gid tx' })

def registerBranch (w : World) (gid : String) (branch : Branch) :
    Except Err Transaction × World :=
  modify w gid fun tx => appendDynamicBranch w.clock tx branch

def recordWorkflowProgress (w : World) (gid : String) (progress : WorkflowProgress) :
    Except Err Transaction × World :=
  modify w gid fun tx => appendWorkflowProgress w.clock tx progress

def finishWorkflow (w : World) (gid : String) (status : TransactionStatus)
    (rollbackReason result : Option String) : Except Err Transaction × World :=
  modify w gid fun tx => applyWorkflowCompletion w.clock tx status rollbackReason result

def deferRecovery (w : World) (gid : String) (delay : WorkflowRecoveryDelay) :
    Except Err Transaction × World :=
  modify w gid fun tx => deferWorkflowRecovery w.clock tx delay

def listTransactions (w : World) : List Transaction := w.txs.toList.map Prod.snd

theorem mem_listTransactions {w : World} {tx : Transaction} (h : tx ∈ listTransactions w) :
    ∃ gid : String, w.txs[gid]? = some tx := by
  obtain ⟨⟨gid, tx⟩, hm, rfl⟩ := List.mem_map.mp h
  exact ⟨gid, Std.ExtTreeMap.mem_toList_iff_getElem?_eq_some.mp hm⟩

def deleteTransactionIfUnchanged (w : World) (transaction : Transaction) : Bool × World :=
  if w.txs[transaction.gid]? ≠ some transaction then (false, w)
  else (true, { w with
    txs := w.txs.erase transaction.gid
    barriers := w.barriers.filter fun b => b.gid ≠ transaction.gid })

def barrier (w : World) (b : BranchBarrier) : BarrierDecision × World :=
  if b ∈ w.barriers then (.skipDuplicate, w)
  else
    let cancelKey : BranchBarrier := ⟨b.gid, b.branchId, "cancel"⟩
    let tryKey : BranchBarrier := ⟨b.gid, b.branchId, "try"⟩
    if b.op = "try" ∧ cancelKey ∈ w.barriers then (.skipCancelledTry, w)
    else if b.op = "cancel" ∧ tryKey ∉ w.barriers then
      (.skipNullCompensation, { w with barriers := insert cancelKey w.barriers })
    else (.execute, { w with barriers := insert b w.barriers })

def releaseBarrier (w : World) (b : BranchBarrier) : World :=
  { w with barriers := w.barriers.erase b }

def tryAcquireRecoveryLease (w : World) (name owner : String) (ttlMillis : Nat) : Bool × World :=
  let now := w.clock
  if (w.leases[name]?).any (fun lease => lease.owner ≠ owner && now < lease.expiresAtMillis) then
    (false, w)
  else
    (true, { w with leases := w.leases.insert name ⟨owner, satAdd64 now ttlMillis⟩ })

/-- `TransactionStore::acquire_recovery_lease`, the default method. -/
def acquireRecoveryLease (w : World) (name owner : String) (ttlMillis : Nat) :
    Option RecoveryLeaseFence × World :=
  let (acquired, w) := tryAcquireRecoveryLease w name owner ttlMillis
  (if acquired then some { name := name, owner := owner, epoch := 1 } else none, w)

/-- Record a registration that returned `Ok`. -/
def noteOk {α : Type} (i : Nat) (e : Event) (r : Except Err α × World) : Except Err α × World :=
  match r.1 with
  | .ok _ => (r.1, r.2.note i e)
  | .error _ => r

/-- What one step of operation `i` does. -/
def exec (i : Nat) : (o : Effect) → Outcome → World → o.Reply × World
  | .insertTransaction tx, _, w => insertTransaction w tx
  | .getTransaction gid, _, w => (getTransaction w gid, w)
  | .updateTransaction tx, _, w => updateTransaction w tx
  | .registerBranch gid branch, _, w =>
    noteOk i (.registered gid branch) (registerBranch w gid branch)
  | .recordWorkflowProgress gid progress, _, w =>
    noteOk i (.progressed gid progress) (recordWorkflowProgress w gid progress)
  | .finishWorkflow gid status reason result, _, w => finishWorkflow w gid status reason result
  | .deferWorkflowRecovery gid delay, _, w => deferRecovery w gid delay
  | .listTransactions, _, w => (listTransactions w, w)
  | .deleteTransactionIfUnchanged tx, _, w => deleteTransactionIfUnchanged w tx
  | .getKv category key, _, w => (w.kv (category, key), w)
  | .barrier b, _, w =>
    let (decision, w) := barrier w b
    (decision, w.note i (.decided b decision))
  | .releaseBarrier b, _, w => ((), (releaseBarrier w b).note i (.released b))
  | .acquireRecoveryLease name owner ttl, _, w => acquireRecoveryLease w name owner ttl
  | .currentMillis, _, w => (w.clock, w)
  | .invokeBegin c, _, w => ((), w.note i (.began c))
  | .invokeEnd c, out, w => (out.ok, w.note i (.ended c out.ok))
  | .queryWorkflowCallback _ _, out, w => (out.callback, w)
  | .joinNext n, out, w => (Fin.ofNat (n + 1) out.pick, w)

end InMemory

/-- The clock is set to any value. -/
def ClockSet (w w' : World) : Prop := ∃ now, w' = { w with clock := now }

/-- Coordinator operations over the in-memory store, with a clock that may show
anything. -/
def inMemory : Machine effects World Outcome where
  exec := InMemory.exec
  drift := ClockSet
  allow := fun _ _ => True

/-- The clock goes on. -/
def ClockRuns (w w' : World) : Prop := ∃ now, w.clock ≤ now ∧ w' = { w with clock := now }

/-- The same with a clock that never goes back. -/
def inMemoryOnward : Machine effects World Outcome := { inMemory with drift := ClockRuns }

end RozeDtm
