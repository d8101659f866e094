import Mathlib.Data.Set.Insert
import RozeDtm.Session.Batch

/-!
# What a record that is written has developed from

Every record that a coordinator operation writes is one that it has read, carried on:
the branches keep their definitions, a branch has become Succeeded only by a call that has
succeeded, and a branch whose retry time does not count has none.  A `Trail` is what an
operation has read and which of its calls have succeeded, and `developing` the discipline of
writing only what has developed from it.  It also names the calls that an operation may
issue.
-/

namespace RozeDtm

open Conc

/-- A branch with a retry time is one whose retry time counts. -/
def Branch.Rested (b : Branch) : Prop := b.nextRetryMillis ≠ none → b.retryable = true

/-- The operations whose success makes a branch Succeeded. -/
def TransactionKind.forwardOps : TransactionKind → List String
  | .saga => ["action"]
  | .tcc => ["try", "confirm"]
  | .message => ["message"]
  | .workflow => ["workflow"]
  | .xa => ["commit"]

/-- What an operation may make of a branch of a transaction, with the calls that it won. -/
structure Branch.Develops (won : Set BranchBarrier) (gid : String) (kind : TransactionKind)
    (a b : Branch) : Prop where
  definition : b.definition = a.definition
  rested : a.Rested → b.Rested
  succeeded : b.status = .succeeded →
    a.status = .succeeded ∨ ∃ op ∈ kind.forwardOps, a.key gid op ∈ won

/-- What an operation may make of a record. -/
structure Develops (won : Set BranchBarrier) (tx tx' : Transaction) : Prop where
  gid : tx'.gid = tx.gid
  kind : tx'.kind = tx.kind
  options : tx'.options = tx.options
  callback : tx'.metadata["dtm.query_prepared"]? = tx.metadata["dtm.query_prepared"]?
  branches : List.Forall₂ (Branch.Develops won tx.gid tx.kind) tx.branches tx'.branches

namespace Branch.Develops

variable {won won' : Set BranchBarrier} {gid : String} {kind : TransactionKind} {a b c : Branch}

theorem refl (a : Branch) : Branch.Develops won gid kind a a := ⟨rfl, fun h => h, Or.inl⟩

theorem mono (h : Branch.Develops won gid kind a b) (hwon : won ⊆ won') :
    Branch.Develops won' gid kind a b where
  definition := h.definition
  rested := h.rested
  succeeded := fun hb => (h.succeeded hb).imp_right fun ⟨op, hop, hm⟩ => ⟨op, hop, hwon hm⟩

theorem trans (h : Branch.Develops won gid kind a b) (h' : Branch.Develops won gid kind b c) :
    Branch.Develops won gid kind a c where
  definition := h'.definition.trans h.definition
  rested := h'.rested ∘ h.rested
  succeeded := fun hc => by
    rcases h'.succeeded hc with hb | ⟨op, hop, hm⟩
    · exact h.succeeded hb
    · rw [Branch.key_eq h.definition] at hm
      exact Or.inr ⟨op, hop, hm⟩

/-- A branch that waits for its retry. -/
theorem retry (hd : b.definition = a.definition) (hr : b.retryable = true) :
    Branch.Develops won gid kind a b where
  definition := hd
  rested := fun _ _ => hr
  succeeded := fun hb => by
    rw [Branch.retryable, hb] at hr
    exact absurd hr (by decide)

/-- A branch that has no retry time left. -/
theorem settled (hd : b.definition = a.definition) (hn : b.nextRetryMillis = none)
    (hs : b.status = .succeeded → a.status = .succeeded ∨ ∃ op ∈ kind.forwardOps,
      a.key gid op ∈ won) : Branch.Develops won gid kind a b where
  definition := hd
  rested := fun _ h => absurd hn h
  succeeded := hs

/-- A branch that an abort skips before it was called. -/
theorem skipped (hs : a.status = .pending) :
    Branch.Develops won gid kind a { a with status := .skipped } where
  definition := rfl
  rested := fun ha hn => by
    have hr := ha hn
    rw [Branch.retryable, hs] at hr
    exact absurd hr (by decide)
  succeeded := fun h => nomatch h

/-- A branch that is only given another retry time, or none. -/
theorem delayed {next : Option Nat} (h : next = none ∨ a.retryable = true) :
    Branch.Develops won gid kind a { a with nextRetryMillis := next } where
  definition := rfl
  rested := fun _ hn => h.elim (fun h => absurd h hn) fun h => h
  succeeded := Or.inl

end Branch.Develops

namespace Develops

variable {won won' : Set BranchBarrier} {tx tx' tx'' : Transaction}

/-- New branches and another status. -/
theorem change {bs : List Branch} (status : TransactionStatus)
    (hbs : List.Forall₂ (Branch.Develops won tx.gid tx.kind) tx.branches bs) :
    Develops won tx { tx with branches := bs, status := status } := ⟨rfl, rfl, rfl, rfl, hbs⟩

theorem refl (tx : Transaction) : Develops won tx tx :=
  change tx.status (List.forall₂_same.mpr fun b _ => .refl b)

theorem mono (h : Develops won tx tx') (hwon : won ⊆ won') : Develops won' tx tx' :=
  ⟨h.gid, h.kind, h.options, h.callback, h.branches.imp fun _ _ h => h.mono hwon⟩

theorem trans (h : Develops won tx tx') (h' : Develops won tx' tx'') : Develops won tx tx'' where
  gid := h'.gid.trans h.gid
  kind := h'.kind.trans h.kind
  options := h'.options.trans h.options
  callback := h'.callback.trans h.callback
  branches := by
    have hrest := h'.branches
    rw [h.gid, h.kind] at hrest
    exact forall₂_trans (fun _ _ _ hab hbc => hab.trans hbc) h.branches hrest

/-- One branch of a record is carried on. -/
theorem middle {bs bs' : List Branch} {a b : Branch} (status : TransactionStatus)
    (hb : Branch.Develops won tx.gid tx.kind a b) :
    Develops won { tx with branches := bs ++ a :: bs' }
      { tx with branches := bs ++ b :: bs', status := status } := by
  have hbs : List.Forall₂ (Branch.Develops won tx.gid tx.kind) (bs ++ a :: bs') (bs ++ b :: bs') :=
    List.rel_append (List.forall₂_same.mpr fun b _ => .refl b)
      (.cons hb (List.forall₂_same.mpr fun b _ => .refl b))
  exact ⟨rfl, rfl, rfl, rfl, hbs⟩

end Develops

/-- What an operation has read, and the barriers under which its calls have succeeded. -/
structure Trail where
  read : Set Transaction
  won : Set BranchBarrier

namespace Trail

/-- An operation that has done nothing yet. -/
def start : Trail := ⟨∅, ∅⟩

def addRead (σ : Trail) (tx : Transaction) : Trail := { σ with read := insert tx σ.read }

def addWon (σ : Trail) (b : BranchBarrier) : Trail := { σ with won := insert b σ.won }

/-- The trail after a step and its answer. -/
def next (σ : Trail) : (o : Effect) → o.Reply → Trail
  | .getTransaction _, r =>
    match (r : Option Transaction) with
    | some tx => σ.addRead tx
    | none => σ
  | .invokeEnd c, r =>
    match (r : Bool) with
    | true => σ.addWon c.barrier
    | false => σ
  | _, _ => σ

/-- A record that has developed from one that was read. -/
def From (σ : Trail) (tx : Transaction) : Prop := ∃ base ∈ σ.read, Develops σ.won base tx

variable {σ : Trail} {tx tx' : Transaction}

theorem from_addRead (tx : Transaction) : (σ.addRead tx).From tx :=
  ⟨tx, Set.mem_insert _ _, .refl tx⟩

theorem From.addRead (h : σ.From tx) : (σ.addRead tx').From tx :=
  h.imp fun _ h => ⟨Set.mem_insert_of_mem _ h.1, h.2⟩

theorem From.addWon (h : σ.From tx) (b : BranchBarrier) : (σ.addWon b).From tx :=
  h.imp fun _ h => ⟨h.1, h.2.mono (Set.subset_insert b σ.won)⟩

theorem From.trans (h : σ.From tx) (h' : Develops σ.won tx tx') : σ.From tx' :=
  h.imp fun _ h => ⟨h.1, h.2.trans h'⟩

theorem From.written (h : σ.From tx) : σ.From tx.written :=
  h.trans ⟨rfl, rfl, rfl, rfl, List.forall₂_same.mpr fun b _ => .refl b⟩

end Trail

/-- What an operation with calls in `C` may do: it writes what has developed from what it has
read. -/
def developing (C : BranchCall → Prop) : Discipline effects Trail where
  pre := fun σ o => match o with
    | .updateTransaction tx => σ.From tx
    | .invokeBegin c => C c
    | .insertTransaction _ | .registerBranch _ _ | .recordWorkflowProgress _ _
    | .deleteTransactionIfUnchanged _ => False
    | _ => True
  sees := fun _ _ _ => True
  next := Trail.next

end RozeDtm
