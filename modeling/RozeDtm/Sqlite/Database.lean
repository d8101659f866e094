import RozeDtm.Sqlite.Store

/-!
# The SQLite database under the store

`SqliteState` is the tables, with the clock of the coordinator and the record of the branch
calls, and `sqliteStore` what each statement does to it.  A statement may fail before it is
done, and it may be done and its answer lost.

The primary key of a barrier is its text key.  The columns of a table are typed INTEGER, so a
time is kept as an `i64`.
-/

namespace RozeDtm

open Conc

/-! ### The state -/

/-- What a row of `roze_dtm_transactions` has beside its gid. -/
structure TransactionRow where
  payload : String
  updatedAtMillis : Int

/-- What a row of `roze_dtm_recovery_leases` has beside its name. -/
structure LeaseRow where
  owner : String
  expiresAtMillis : Int
  deriving DecidableEq

/-- The tables, the clock of the coordinator, and the record of the branch calls. -/
structure SqliteState where
  transactions : Std.ExtTreeMap String TransactionRow
  kv : String × String → Option KvRow
  barriers : Finset BranchBarrier
  leases : Std.ExtTreeMap String LeaseRow
  clock : Nat
  history : List (Nat × Event)

/-- What the outside picks for a step: what becomes of it in the database, the order of the rows
that a SELECT is free to choose, and what the coordinator's calls return. -/
structure SqliteOutcome where
  fate : Fate
  outcome : Outcome
  order : List String

/-- Rows by time, and rows of one time in any order. -/
def timeLe (order : List String) (a b : String × Int) : Bool :=
  a.2 < b.2 || a.2 = b.2 && order.idxOf a.1 ≤ order.idxOf b.1

namespace SqliteState

variable (s : SqliteState)

/-- Record an event of operation `i`. -/
def note (i : Nat) (e : Event) : SqliteState := { s with history := (i, e) :: s.history }

/-- A transaction under a gid. -/
def put (gid : String) (tx : Transaction) : SqliteState :=
  { s with
    transactions := s.transactions.insert gid ⟨tx.toText, millisToColumn tx.updatedAtMillis⟩ }

/-! ### Statements -/

/-- `INSERT OR IGNORE`. -/
def insertTransaction (tx : Transaction) : Nat × SqliteState :=
  if s.transactions.contains tx.gid then (0, s) else (1, s.put tx.gid tx)

/-- `INSERT … ON CONFLICT DO UPDATE`. -/
def upsertTransaction (tx : Transaction) : Nat × SqliteState := (1, s.put tx.gid tx)

/-- `UPDATE … WHERE gid = ? AND payload = ?`. -/
def swapTransaction (gid previousPayload : String) (tx : Transaction) : Nat × SqliteState :=
  if (s.transactions[gid]?).any fun row => row.payload = previousPayload then (1, s.put gid tx)
  else (0, s)

/-- `SELECT payload … ORDER BY updated_at_millis`. -/
def selectTransactions (order : List String) : List String :=
  (s.transactions.toList.mergeSort fun a b =>
    timeLe order (a.1, a.2.updatedAtMillis) (b.1, b.2.updatedAtMillis)).map (·.2.payload)

/-- The DELETE of a transaction and of its barriers.  The payload is the one that the database
transaction has read; it cannot write once the row is another one. -/
def deleteTransaction (gid payload : String) : Except Err Nat × SqliteState :=
  if (s.transactions[gid]?).any fun row => row.payload = payload then
    (.ok 1, { s with
      transactions := s.transactions.erase gid
      barriers := s.barriers.filter fun b => b.gid ≠ gid })
  else (.error "database is locked", s)

/-- Some row of `roze_dtm_barriers` has this primary key. -/
def HasBarrier (key : String) : Prop := ∃ b ∈ s.barriers, b.textKey = key

instance (key : String) : Decidable (s.HasBarrier key) :=
  inferInstanceAs (Decidable (∃ b ∈ s.barriers, b.textKey = key))

/-- The statements of `barrier`.  A Try that finds the row of its Cancel deletes the row that it
has inserted. -/
def barrier (b : BranchBarrier) : BarrierDecision × SqliteState :=
  let inserted := { s with barriers := insert b s.barriers }
  if s.HasBarrier b.textKey then (.skipDuplicate, s)
  else if b.op = "try" ∧ inserted.HasBarrier b.cancelOf.textKey then
    (.skipCancelledTry,
      { s with barriers := inserted.barriers.filter fun row => row.textKey ≠ b.textKey })
  else if b.op = "cancel" ∧ ¬ inserted.HasBarrier b.tryOf.textKey then
    (.skipNullCompensation, inserted)
  else (.execute, inserted)

/-- `DELETE … WHERE barrier_key = ?`. -/
def deleteBarrier (b : BranchBarrier) : Nat × SqliteState :=
  (if s.HasBarrier b.textKey then 1 else 0,
    { s with barriers := s.barriers.filter fun row => row.textKey ≠ b.textKey })

/-- `UPDATE … WHERE name = ? AND (owner = ? OR expires_at_millis <= ?)`. -/
def renewLease (name owner : String) (now expiresAtMillis : Nat) : Nat × SqliteState :=
  if (s.leases[name]?).any fun row =>
      row.owner = owner || row.expiresAtMillis ≤ millisToColumn now then
    (1, { s with leases := s.leases.insert name ⟨owner, millisToColumn expiresAtMillis⟩ })
  else (0, s)

/-- `INSERT OR IGNORE`. -/
def insertLease (name owner : String) (expiresAtMillis : Nat) : Nat × SqliteState :=
  if s.leases.contains name then (0, s)
  else (1, { s with leases := s.leases.insert name ⟨owner, millisToColumn expiresAtMillis⟩ })

/-- The answer to a statement that writes: the rows that it has affected. -/
def affected (r : Nat × SqliteState) : Except Err Nat × SqliteState := (.ok r.1, r.2)

/-- What a step of operation `i` does when it is done. -/
def done (i : Nat) (c : SqliteOutcome) (s : SqliteState) : (o : SqliteStep) → o.Reply × SqliteState
  | .insertTransaction tx => affected (s.insertTransaction tx)
  | .selectTransaction gid => (.ok ((s.transactions[gid]?).map (·.payload)), s)
  | .upsertTransaction tx => affected (s.upsertTransaction tx)
  | .swapTransaction gid previousPayload tx => affected (s.swapTransaction gid previousPayload tx)
  | .selectTransactions => (.ok (s.selectTransactions c.order), s)
  | .begin | .rollback => (.ok (), s)
  | .deleteTransaction gid payload => s.deleteTransaction gid payload
  | .selectKv category key => (.ok (s.kv (category, key)), s)
  | .barrier b => (.ok (s.barrier b).1, (s.barrier b).2)
  | .deleteBarrier b => affected (s.deleteBarrier b)
  | .renewLease name owner now expiresAtMillis =>
    affected (s.renewLease name owner now expiresAtMillis)
  | .insertLease name owner expiresAtMillis => affected (s.insertLease name owner expiresAtMillis)
  | .currentMillis => (s.clock, s)
  | .invokeBegin call => ((), s.note i (.began call))
  | .invokeEnd call => (c.outcome.ok, s.note i (.ended call c.outcome.ok))
  | .queryWorkflowCallback _ _ => (c.outcome.callback, s)
  | .joinNext n => (⟨c.outcome.pick % (n + 1), Nat.mod_lt _ n.succ_pos⟩, s)

end SqliteState

/-- The answer to a statement that has failed; `none` for the steps that are none. -/
def SqliteStep.lost : (o : SqliteStep) → Option o.Reply
  | .insertTransaction _ | .upsertTransaction _ | .swapTransaction _ _ _
  | .deleteTransaction _ _ | .deleteBarrier _ | .renewLease _ _ _ _ | .insertLease _ _ _ =>
    some (.error "statement failed" : Except Err Nat)
  | .selectTransaction _ => some (.error "statement failed" : Except Err (Option String))
  | .selectTransactions => some (.error "statement failed" : Except Err (List String))
  | .begin | .rollback => some (.error "statement failed" : Except Err Unit)
  | .selectKv _ _ => some (.error "statement failed" : Except Err (Option KvRow))
  | .barrier _ => some (.error "statement failed" : Except Err BarrierDecision)
  | _ => none

/-- What a step of operation `i` does. -/
def SqliteState.exec (i : Nat) (o : SqliteStep) (c : SqliteOutcome) (s : SqliteState) :
    o.Reply × SqliteState :=
  match c.fate, o.lost with
  | .lost, some r => (r, (s.done i c o).2)
  | .failed, some r => (r, s)
  | _, _ => s.done i c o

/-- A step is done, or its answer is lost with its effect or without. -/
theorem SqliteState.exec_lossy (i : Nat) (o : SqliteStep) :
    Lossy (SqliteState.exec i o) (fun c s => s.done i c o) fun r => o.lost = some r := by
  intro c s
  rw [SqliteState.exec.eq_def]
  cases hl : o.lost with
  | none => cases c.fate <;> exact Or.inl rfl
  | some r =>
    cases c.fate with
    | done => exact Or.inl rfl
    | failed => exact Or.inr ⟨rfl, Or.inl rfl⟩
    | lost => exact Or.inr ⟨rfl, Or.inr rfl⟩

/-- The clock of the coordinator is set to any value. -/
def SqliteState.ClockSet (s s' : SqliteState) : Prop := ∃ now, s' = { s with clock := now }

/-- Operations over the SQLite store. -/
def sqliteStore : Machine sqliteSteps SqliteState SqliteOutcome where
  exec := SqliteState.exec
  drift := SqliteState.ClockSet
  allow := fun _ _ => True

instance (o : sqliteSteps.Op) (s : SqliteState) : Decidable (sqliteStore.allow o s) :=
  inferInstanceAs (Decidable True)

end RozeDtm
