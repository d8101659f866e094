import Mathlib.Data.Finset.Basic
import Mathlib.Data.Finset.SDiff
import Mathlib.Logic.Function.Basic
import RozeDtm.Conc.Pool
import RozeDtm.Model.Types

/-!
# The barrier table of the relational stores

`SqliteTransactionStore`, `PostgresTransactionStore` and `MySqlTransactionStore` keep the
barriers in one table, `roze_dtm_barriers`, whose primary key is a text made from the
three names of a barrier.  `Statement` lists the SQL statements of `barrier` and
`release_barrier`; `Db` is the table, with what each open transaction has changed and not
yet committed.

A statement of a transaction sees the committed rows and the transaction's own.  An INSERT or
a DELETE of a key waits for the transactions that have changed it, so it is a step that is not
allowed while one of them is open.  The DELETE inside of a transaction never waits: it is of
the row that the transaction has just inserted.  `Db.missed` is not part of the database: it is the
key that a transaction has last looked up in vain.
-/

namespace RozeDtm

open Conc

/-- `BranchBarrier::key`. -/
def BranchBarrier.textKey (b : BranchBarrier) : String := s!"{b.gid}:{b.branchId}:{b.op}"

theorem BranchBarrier.textKey_toList (b : BranchBarrier) : b.textKey.toList =
    b.gid.toList ++ ':' :: (b.branchId.toList ++ ':' :: b.op.toList) := by
  simp [BranchBarrier.textKey, toString]

/-- The Cancel of the same branch. -/
def BranchBarrier.cancelOf (b : BranchBarrier) : BranchBarrier := ⟨b.gid, b.branchId, "cancel"⟩

/-- The Try of the same branch. -/
def BranchBarrier.tryOf (b : BranchBarrier) : BranchBarrier := ⟨b.gid, b.branchId, "try"⟩

/-- Where the three databases differ. -/
structure Dialect where
  /-- The primary key that the INSERT of a barrier writes, or `none` when the row is refused. -/
  row : BranchBarrier → Option String
  /-- What a `WHERE barrier_key = ?` compares with the primary keys. -/
  look : String → String

/-- TEXT columns, compared byte by byte. -/
def Dialect.sqlite : Dialect where
  row := fun b => some b.textKey
  look := id

/-- VARCHAR columns: a text that is too long for one, or that has a zero byte, is an error. -/
def Dialect.postgres : Dialect where
  row := fun b =>
    if b.gid.length ≤ 128 ∧ b.branchId.length ≤ 128 ∧ b.op.length ≤ 32 ∧
        '\x00' ∉ b.textKey.toList then
      some b.textKey
    else none
  look := id

/-- VARCHAR columns under INSERT IGNORE, which cuts a text that is too long; keys are the
same when they have the same weights under the collation of the table. -/
def Dialect.mysql (weights : String → String) : Dialect where
  row := fun b => some (weights (String.ofList (b.textKey.toList.take 512)))
  look := weights

/-- One SQL statement.  A COMMIT carries the decision that its call then returns, for the
record. -/
inductive Statement
  | begin
  | insertBarrier (b : BranchBarrier)
  | selectBarrier (key : String)
  | deleteBarrier (key : String)
  | commit (b : BranchBarrier) (d : BarrierDecision)
  /-- A DELETE outside of a transaction. -/
  | deleteNow (key : String)

/-- What a statement is answered with: whether a row was inserted, or found. -/
def Statement.Reply : Statement → Type
  | .insertBarrier _ | .selectBarrier _ => Except Err Bool
  | .begin | .deleteBarrier _ | .commit _ _ | .deleteNow _ => Except Err Unit

abbrev statements : Sig := ⟨Statement, Statement.Reply⟩

/-- What an open transaction has changed. -/
structure Draft where
  added : Finset String
  removed : Finset String
  deriving DecidableEq

/-- The table, the open transactions by the number of their connection, and the record of the
decisions that were returned. -/
structure Db where
  rows : Finset String
  drafts : Nat → Draft
  missed : Nat → Option String
  decided : List (Nat × BranchBarrier × BarrierDecision)

/-- What becomes of a statement: it is done, it fails and its transaction is rolled back, or
it is done and its answer is lost. -/
inductive Fate
  | done
  | failed
  | lost
  deriving DecidableEq

namespace Db

/-- A table without rows and without open transactions. -/
def empty : Db := ⟨∅, fun _ => ⟨∅, ∅⟩, fun _ => none, []⟩

/-- The rows that the statements of a transaction see. -/
def view (db : Db) (i : Nat) : Finset String :=
  (db.rows \ (db.drafts i).removed) ∪ (db.drafts i).added

/-- No open transaction has changed the row. -/
def Unlocked (db : Db) (key : String) : Prop :=
  ∀ j, key ∉ (db.drafts j).added ∧ key ∉ (db.drafts j).removed

/-- The changes of a transaction are dropped. -/
def rollback (db : Db) (i : Nat) : Db :=
  { db with
    drafts := Function.update db.drafts i ⟨∅, ∅⟩
    missed := Function.update db.missed i none }

/-- `INSERT` of a row, or of nothing when there is one with its key. -/
def insertRow (db : Db) (i : Nat) (key : String) : Bool × Db :=
  if key ∈ db.view i then (false, db)
  else (true, { db with
    drafts := Function.update db.drafts i
      ⟨insert key (db.drafts i).added, (db.drafts i).removed⟩ })

/-- `SELECT` of a row. -/
def selectRow (db : Db) (i : Nat) (key : String) : Bool × Db :=
  if key ∈ db.view i then (true, db)
  else (false, { db with missed := Function.update db.missed i (some key) })

/-- `DELETE` of a row in a transaction. -/
def deleteRow (db : Db) (i : Nat) (key : String) : Db :=
  { db with
    drafts := Function.update db.drafts i
      ⟨(db.drafts i).added.erase key, insert key (db.drafts i).removed⟩ }

/-- `COMMIT`. -/
def commitRows (db : Db) (i : Nat) : Db := { db.rollback i with rows := db.view i }

end Db

/-- What a statement of connection `i` does when it succeeds. -/
def Dialect.run (d : Dialect) (i : Nat) : (o : Statement) → Db → o.Reply × Db
  | .begin, db => (.ok (), db.rollback i)
  | .insertBarrier b, db =>
    match d.row b with
    | none => (.error "value too long", db.rollback i)
    | some key => ((.ok (db.insertRow i key).1 : Except Err Bool), (db.insertRow i key).2)
  | .selectBarrier key, db =>
    ((.ok (db.selectRow i (d.look key)).1 : Except Err Bool), (db.selectRow i (d.look key)).2)
  | .deleteBarrier key, db => (.ok (), db.deleteRow i (d.look key))
  | .commit b decision, db =>
    (.ok (), { db.commitRows i with decided := (i, b, decision) :: db.decided })
  | .deleteNow key, db => (.ok (), { db with rows := db.rows.erase (d.look key) })

/-- The answer of a statement that has failed. -/
def Statement.failure : (o : Statement) → o.Reply
  | .insertBarrier _ | .selectBarrier _ => (.error "statement failed" : Except Err Bool)
  | .begin | .deleteBarrier _ | .commit _ _ | .deleteNow _ =>
    (.error "statement failed" : Except Err Unit)

/-- What a statement of connection `i` does.  A COMMIT may be done and its answer lost; any
other statement that fails leaves its transaction rolled back. -/
def Dialect.exec (d : Dialect) (i : Nat) (o : Statement) (fate : Fate) (db : Db) : o.Reply × Db :=
  match fate, o with
  | .done, o => d.run i o db
  | .lost, .commit _ _ => (.error "statement failed", db.commitRows i)
  | .lost, .deleteNow key => (.error "statement failed", (d.run i (.deleteNow key) db).2)
  | _, o => (o.failure, db.rollback i)

/-- The three stores, with any number of connections. -/
def Dialect.machine (d : Dialect) : Machine statements Db Fate where
  exec := d.exec
  drift := fun _ _ => False
  allow := fun o db => match o with
    | .insertBarrier b => ∀ key ∈ d.row b, db.Unlocked key
    | .deleteNow key => db.Unlocked (d.look key)
    | _ => True

/-! ### The barrier methods -/

namespace Relational

/-- An `async fn` of a relational store. -/
abbrev Sql (α : Type) := Proc statements Err α

/-- One statement, with `?`. -/
def statement {α : Type} (p : Prog statements (Except Err α)) : Sql α := ExceptT.mk p

def begin : Sql Unit := statement (@Prog.perform statements .begin)

def insertBarrier (b : BranchBarrier) : Sql Bool :=
  statement (@Prog.perform statements (.insertBarrier b))

def selectBarrier (key : String) : Sql Bool :=
  statement (@Prog.perform statements (.selectBarrier key))

def deleteBarrier (key : String) : Sql Unit :=
  statement (@Prog.perform statements (.deleteBarrier key))

def commit (b : BranchBarrier) (d : BarrierDecision) : Sql Unit :=
  statement (@Prog.perform statements (.commit b d))

/-- COMMIT, and the answer of the call. -/
def finish (b : BranchBarrier) (d : BarrierDecision) : Sql BarrierDecision := do
  commit b d
  return d

/-- `barrier`. -/
def barrier (b : BranchBarrier) : Sql BarrierDecision := do
  begin
  if !(← insertBarrier b) then
    finish b .skipDuplicate
  else if b.op = "try" then
    if ← selectBarrier b.cancelOf.textKey then
      deleteBarrier b.textKey
      finish b .skipCancelledTry
    else finish b .execute
  else if b.op = "cancel" then
    if !(← selectBarrier b.tryOf.textKey) then
      finish b .skipNullCompensation
    else finish b .execute
  else finish b .execute

/-- `release_barrier`. -/
def releaseBarrier (b : BranchBarrier) : Sql Unit :=
  statement (@Prog.perform statements (.deleteNow b.textKey))

end Relational

end RozeDtm
