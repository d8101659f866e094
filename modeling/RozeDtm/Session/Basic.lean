import Mathlib.Logic.Function.Basic
import RozeDtm.Conc.Discipline
import RozeDtm.Model.Coordinator.Common

/-!
# Sessions of a coordinator operation

What a coordinator operation does next depends on the record it has read, on the
barriers it holds and on what became of the calls it made under them.  A `Session`
is just that, and `coordinator` is the discipline that every operation keeps:

* a barrier is given back only by the operation that holds it, and only when no
  call was made under it or the call under it has failed;
* a call is issued only under a barrier that the operation holds and has not used;
* a record is written back only over a snapshot of it that is not terminal, and the
  write is one that `Writes` allows: it keeps the record's definition, moves its
  status along, and a status that says something about branch calls is backed by
  barriers that this operation has used or has found taken.

The last of these is where the operations differ, by kind, in `BranchWrite`.
-/

namespace RozeDtm

open Conc

/-- How far an operation has come with a barrier that it holds. -/
inductive Hold
  | taken
  | nulled
  | calling
  | failed
  | done
  deriving DecidableEq

/-- What an operation has done and seen so far: the record it has last read or
written, the barriers it holds, and the barriers it has found taken. -/
structure Session where
  snap : Option Transaction
  hold : BranchBarrier → Option Hold
  dup : BranchBarrier → Prop

namespace Session

/-- An operation that has done nothing yet. -/
def start : Session := ⟨none, fun _ => none, fun _ => False⟩

def setSnap (σ : Session) (tx : Option Transaction) : Session := { σ with snap := tx }

def setHold (σ : Session) (b : BranchBarrier) (h : Option Hold) : Session :=
  { σ with hold := Function.update σ.hold b h }

def addDup (σ : Session) (b : BranchBarrier) : Session :=
  { σ with dup := fun b' => b' = b ∨ σ.dup b' }

section Fields

variable (σ : Session) (b b' : BranchBarrier) (h : Option Hold) (tx : Option Transaction)

@[simp] theorem setSnap_snap : (σ.setSnap tx).snap = tx := rfl
@[simp] theorem setSnap_hold : (σ.setSnap tx).hold = σ.hold := rfl
@[simp] theorem setSnap_dup : (σ.setSnap tx).dup = σ.dup := rfl
@[simp] theorem setHold_snap : (σ.setHold b h).snap = σ.snap := rfl
@[simp] theorem setHold_dup : (σ.setHold b h).dup = σ.dup := rfl
@[simp] theorem addDup_snap : (σ.addDup b).snap = σ.snap := rfl
@[simp] theorem addDup_hold : (σ.addDup b).hold = σ.hold := rfl
@[simp] theorem addDup_dup : (σ.addDup b).dup b' ↔ b' = b ∨ σ.dup b' := Iff.rfl

@[simp] theorem setHold_self : (σ.setHold b h).hold b = h := Function.update_self ..

@[simp] theorem start_snap : start.snap = none := rfl
@[simp] theorem start_hold : start.hold b = none := rfl
@[simp] theorem start_dup : ¬ start.dup b := id

theorem setHold_ne {b b' : BranchBarrier} (hb : b' ≠ b) :
    (σ.setHold b h).hold b' = σ.hold b' := Function.update_of_ne hb ..

end Fields

/-- The operation has called under the barrier and the call has returned success. -/
def Done (σ : Session) (b : BranchBarrier) : Prop := σ.hold b = some .done

/-- The barrier was used by this operation or found taken by it. -/
def Settled (σ : Session) (b : BranchBarrier) : Prop := σ.Done b ∨ σ.dup b

/-- The session after a step and its answer. -/
def next (σ : Session) : (o : Effect) → o.Reply → Session
  | .getTransaction _, r => σ.setSnap r
  | .updateTransaction tx, r =>
    match (r : Except Err Unit) with
    | .ok _ => σ.setSnap (some tx.written)
    | .error _ => σ.setSnap none
  | .barrier b, r =>
    match (r : BarrierDecision) with
    | .execute => σ.setHold b (some .taken)
    | .skipNullCompensation => σ.setHold b (some .nulled)
    | .skipDuplicate => σ.addDup b
    | .skipCancelledTry => σ
  | .releaseBarrier b, _ => σ.setHold b none
  | .invokeBegin c, _ => σ.setHold c.barrier (some .calling)
  | .invokeEnd c, r =>
    match (r : Bool) with
    | true => σ.setHold c.barrier (some .done)
    | false => σ.setHold c.barrier (some .failed)
  | _, _ => σ

end Session

/-! ### Writes -/

/-- What a branch is, without how far it has come. -/
def Branch.definition (b : Branch) : Branch :=
  { b with status := .pending, attempts := 0, lastError := none, nextRetryMillis := none }

/-- A record that is the same transaction, at the same revision. -/
structure SameHead (base tx : Transaction) : Prop where
  gid : tx.gid = base.gid
  kind : tx.kind = base.kind
  createdAtMillis : tx.createdAtMillis = base.createdAtMillis
  timeoutMillis : tx.timeoutMillis = base.timeoutMillis
  options : tx.options = base.options
  workflowProgresses : tx.workflowProgresses = base.workflowProgresses
  revision : tx.revision = base.revision

/-- The statuses that a write may take a transaction of a kind to.  A Message, XA or TCC
that is Succeeding stays on that side; nothing leaves Aborting but to Aborted or
Failed; a terminal status is not left. -/
def TransactionStatus.moves (kind : TransactionKind) : TransactionStatus → TransactionStatus → Bool
  | .succeeding, target =>
    target = .succeeding || target = .succeeded || target = .failed ||
      ((kind = .saga || kind = .workflow) && (target = .aborting || target = .aborted))
  | .aborting, target => target = .aborting || target = .aborted || target = .failed
  | .succeeded, _ | .aborted, _ | .failed, _ => false
  | .submitted, _ | .trying, _ | .prepared, _ => true

/-- The barrier of a branch for an operation. -/
abbrev Branch.key (b : Branch) (gid op : String) : BranchBarrier := ⟨gid, b.id, op⟩

/-- What a write that takes `base` to status `target` may make of branch `a`, in the session
in which the write is done. -/
structure BranchWrite (σ : Session) (base : Transaction) (target : TransactionStatus)
    (a b : Branch) : Prop where
  definition : b.definition = a.definition
  confirmed : base.kind = .tcc → target = .succeeded → σ.Settled (a.key base.gid "confirm")
  cancelled : base.kind = .tcc → target = .aborted → σ.Settled (a.key base.gid "cancel") ∨
    (σ.hold (a.key base.gid "cancel") = some .nulled ∧ a.action ≠ "")
  committed : base.kind = .xa → target = .succeeded → σ.Settled (a.key base.gid "commit")
  rolledBack : base.kind = .xa → target = .aborted → σ.Settled (a.key base.gid "rollback")
  delivered : base.kind = .message → b.status = .succeeded →
    a.status = .succeeded ∨ σ.Done (a.key base.gid "message")
  allDelivered : base.kind = .message → target = .succeeded →
    b.status = .succeeded ∨ (base.options.concurrent = false ∧ σ.dup (a.key base.gid "message"))
  kept : base.kind = .saga → target = .aborting ∨ target = .aborted →
    a.status = .succeeded ∨ (a.status = .compensating ∧ base.status = .aborting) →
    b.status = .succeeded ∨ b.status = .compensating ∨
      σ.Done (a.key base.gid "compensate") ∨ a.compensate = none
  compensated : base.kind = .saga → target = .aborted →
    b.status ≠ .succeeded ∧ b.status ≠ .compensating

/-- The writes that keep the discipline over snapshot `base`. -/
structure Writes (σ : Session) (base tx : Transaction) : Prop where
  head : SameHead base tx
  moves : TransactionStatus.moves base.kind base.status tx.status = true
  branches : List.Forall₂ (BranchWrite σ base tx.status) base.branches tx.branches

/-- What every coordinator operation keeps to.  Only `submit`, `register_branch` and
`record_workflow_progress` take other steps, one each. -/
def coordinator : Discipline effects Session where
  pre := fun σ o => match o with
    | .updateTransaction tx => ∃ base, σ.snap = some base ∧ Writes σ base tx
    | .releaseBarrier b => σ.hold b = some .taken ∨ σ.hold b = some .failed
    | .invokeBegin c => σ.hold c.barrier = some .taken ∨
      (σ.hold c.barrier = some .nulled ∧ ∃ base, σ.snap = some base ∧ base.gid = c.gid ∧
        ∃ b ∈ base.branches, b.id = c.branchId ∧ b.action = "")
    | .invokeEnd c => σ.hold c.barrier = some .calling
    | .insertTransaction _ | .registerBranch _ _ | .recordWorkflowProgress _ _
    | .deleteTransactionIfUnchanged _ => False
    | _ => True
  sees := fun σ o r => match o with
    | .barrier b =>
      match (r : BarrierDecision) with
      | .execute => σ.hold b = none
      | .skipNullCompensation => σ.hold b = none ∧ b.op = "cancel"
      | .skipCancelledTry => b.op = "try"
      | .skipDuplicate => True
    | _ => True
  next := Session.next

end RozeDtm
