import Mathlib.Data.Finset.Image
import RozeDtm.Conc.Alone
import RozeDtm.Model.System
import RozeDtm.Relational.Statements

/-!
# The relational and the in-memory barrier

The in-memory store keeps a barrier under its three names and looks before it inserts; the
relational stores keep it under one text and insert before they look.  Calls that come one
after another get the same decisions from both exactly when no two of their barriers meet in
the table (`barrier_decisions_agree`).  They do meet when a name has a colon in it
(`barrier_keys_collide`).
-/

namespace RozeDtm

open Conc

/-- A call of one of the two barrier methods of a store. -/
inductive BarrierCall
  | barrier (b : BranchBarrier)
  | release (b : BranchBarrier)
  deriving DecidableEq

/-- The barrier that a call is about. -/
def BarrierCall.names : BarrierCall → BranchBarrier
  | .barrier b | .release b => b

/-- What calls made one after another are answered with. -/
def answers {W R : Type} (answer : W → BarrierCall → R × W) : W → List BarrierCall → List R
  | _, [] => []
  | w, c :: cs => (answer w c).1 :: answers answer (answer w c).2 cs

/-- One call of the in-memory store; a release is answered without a decision. -/
def InMemory.answer (w : World) : BarrierCall → Except Err (Option BarrierDecision) × World
  | .barrier b => (.ok (some (InMemory.barrier w b).1), (InMemory.barrier w b).2)
  | .release b => (.ok none, InMemory.releaseBarrier w b)

theorem InMemory.barrier_eq (w : World) (b : BranchBarrier) : InMemory.barrier w b =
    if b ∈ w.barriers then (.skipDuplicate, w)
    else if b.op = "try" ∧ b.cancelOf ∈ w.barriers then (.skipCancelledTry, w)
    else if b.op = "cancel" ∧ b.tryOf ∉ w.barriers then
      (.skipNullCompensation, { w with barriers := insert b.cancelOf w.barriers })
    else (.execute, { w with barriers := insert b w.barriers }) := rfl

/-- A method of a relational store, running alone, none of whose statements fails. -/
def Dialect.alone (d : Dialect) {α : Type} (x : Relational.Sql α) (db : Db) : Except Err α × Db :=
  d.machine.outcome (fun _ _ => .done) 0 x.run db

/-- One call of a relational store. -/
def Dialect.answer (d : Dialect) (db : Db) : BarrierCall → Except Err (Option BarrierDecision) × Db
  | .barrier b => ((d.alone (Relational.barrier b) db).1.map some,
      (d.alone (Relational.barrier b) db).2)
  | .release b => ((d.alone (Relational.releaseBarrier b) db).1.map fun _ => none,
      (d.alone (Relational.releaseBarrier b) db).2)

/-! ### One call over the committed rows -/

namespace Dialect

variable (d : Dialect)

/-- What `barrier` makes of the committed rows when no other transaction is open. -/
def decideRows (rows : Finset String) (b : BranchBarrier) :
    Except Err BarrierDecision × Finset String :=
  match d.row b with
  | none => (.error "value too long", rows)
  | some key =>
    if key ∈ rows then (.ok .skipDuplicate, rows)
    else if b.op = "try" then
      if d.look b.cancelOf.textKey ∈ insert key rows then
        (.ok .skipCancelledTry, (insert key rows).erase (d.look b.textKey))
      else (.ok .execute, insert key rows)
    else if b.op = "cancel" then
      if d.look b.tryOf.textKey ∉ insert key rows then
        (.ok .skipNullCompensation, insert key rows)
      else (.ok .execute, insert key rows)
    else (.ok .execute, insert key rows)

section Decide

variable {d} {rows : Finset String} {b : BranchBarrier} {key : String}

theorem row_of_decideRows {decision : BarrierDecision}
    (h : (d.decideRows rows b).1 = .ok decision) : ∃ key, d.row b = some key := by
  cases hk : d.row b with
  | none =>
    rw [decideRows, hk] at h
    cases h
  | some key => exact ⟨key, rfl⟩

theorem decideRows_duplicate (hk : d.row b = some key) (hmem : key ∈ rows) :
    (d.decideRows rows b).1 = .ok .skipDuplicate := by
  simp only [decideRows, hk, hmem, if_true]

variable (hk : d.row b = some key) (hmem : key ∉ rows)
include hk hmem

theorem decideRows_cancelled (ht : b.op = "try")
    (hc : d.look b.cancelOf.textKey ∈ insert key rows) :
    (d.decideRows rows b).1 = .ok .skipCancelledTry := by
  simp only [decideRows, hk, hmem, if_false, ht, if_true, hc]

theorem decideRows_tried (hc : b.op = "cancel")
    (ht : d.look b.tryOf.textKey ∈ insert key rows) : (d.decideRows rows b).1 = .ok .execute := by
  have hne : ¬ ("cancel" = "try") := by decide
  simp only [decideRows, hk, hmem, hne, if_false, hc, if_true, ht, not_true]

theorem decideRows_inserted (hd : (d.decideRows rows b).1 ≠ .ok .skipCancelledTry) :
    (d.decideRows rows b).2 = insert key rows := by
  simp only [decideRows, hk, hmem, if_false] at hd ⊢
  grind

end Decide

end Dialect

/-! ### Statements alone -/

namespace Db

variable {db : Db} {i : Nat} {key : String}

/-- No other transaction has changed anything that it has not committed. -/
def OnlyOpen (db : Db) (i : Nat) : Prop := ∀ j, j ≠ i → db.drafts j = ⟨∅, ∅⟩

/-- No transaction has. -/
def Quiet (db : Db) : Prop := ∀ j, db.drafts j = ⟨∅, ∅⟩

theorem quiet_empty : Db.empty.Quiet := fun _ => rfl

theorem Quiet.onlyOpen (h : db.Quiet) (i : Nat) : db.OnlyOpen i := fun j _ => h j

theorem Quiet.view (h : db.Quiet) (i : Nat) : db.view i = db.rows := by
  simp [Db.view, h i]

theorem Quiet.rollback (h : db.Quiet) (i : Nat) : (db.rollback i).Quiet := by
  intro j
  by_cases hj : j = i
  · subst hj
    exact Function.update_self ..
  · exact (Function.update_of_ne hj ..).trans (h j)

theorem OnlyOpen.insertRow (h : db.OnlyOpen i) : (db.insertRow i key).2.OnlyOpen i := by
  intro j hj
  rw [Db.insertRow]
  split
  · exact h j hj
  · exact (Function.update_of_ne hj ..).trans (h j hj)

theorem OnlyOpen.selectRow (h : db.OnlyOpen i) : (db.selectRow i key).2.OnlyOpen i := by
  intro j hj
  rw [Db.selectRow]
  split <;> exact h j hj

theorem OnlyOpen.deleteRow (h : db.OnlyOpen i) : (db.deleteRow i key).OnlyOpen i :=
  fun j hj => (Function.update_of_ne hj ..).trans (h j hj)

theorem OnlyOpen.commitRows (h : db.OnlyOpen i) : (db.commitRows i).Quiet := by
  intro j
  by_cases hj : j = i
  · subst hj
    exact Function.update_self ..
  · exact (Function.update_of_ne hj ..).trans (h j hj)

@[simp] theorem view_insertRow : (db.insertRow i key).2.view i = insert key (db.view i) := by
  rw [Db.insertRow]
  split
  · rename_i hk
    exact (Finset.insert_eq_of_mem hk).symm
  · ext k
    by_cases hk : k = key <;> simp [Db.view, hk]

theorem insertRow_fst : (db.insertRow i key).1 = decide (key ∉ db.view i) := by
  rw [Db.insertRow]
  split <;> simp [*]

theorem selectRow_fst : (db.selectRow i key).1 = decide (key ∈ db.view i) := by
  rw [Db.selectRow]
  split <;> simp [*]

@[simp] theorem view_selectRow : (db.selectRow i key).2.view i = db.view i := by
  rw [Db.selectRow]
  split <;> rfl

@[simp] theorem view_deleteRow : (db.deleteRow i key).view i = (db.view i).erase key := by
  ext k
  by_cases hk : k = key <;> simp [Db.view, Db.deleteRow, hk]

end Db

namespace Dialect

variable (d : Dialect) {α β : Type}

theorem alone_bind_ok {x : Relational.Sql α} {f : α → Relational.Sql β} {db db' : Db} {a : α}
    (h : d.alone x db = (.ok a, db')) : d.alone (x >>= f) db = d.alone (f a) db' :=
  Machine.outcome_run_bind_ok h

theorem alone_bind_error {x : Relational.Sql α} {f : α → Relational.Sql β} {db db' : Db} {e : Err}
    (h : d.alone x db = (.error e, db')) : d.alone (x >>= f) db = (.error e, db') :=
  Machine.outcome_run_bind_error h

theorem alone_begin (db : Db) : d.alone Relational.begin db = (.ok (), db.rollback 0) := rfl

theorem alone_insertBarrier_none {b : BranchBarrier} (h : d.row b = none) (db : Db) :
    d.alone (Relational.insertBarrier b) db = (.error "value too long", db.rollback 0) := by
  have hrun : d.alone (Relational.insertBarrier b) db = d.run 0 (.insertBarrier b) db := rfl
  simp only [hrun, Dialect.run, h]
  rfl

theorem alone_insertBarrier {b : BranchBarrier} {key : String} (h : d.row b = some key) (db : Db) :
    d.alone (Relational.insertBarrier b) db =
      (.ok (db.insertRow 0 key).1, (db.insertRow 0 key).2) := by
  have hrun : d.alone (Relational.insertBarrier b) db = d.run 0 (.insertBarrier b) db := rfl
  simp only [hrun, Dialect.run, h]
  rfl

theorem alone_selectBarrier (key : String) (db : Db) : d.alone (Relational.selectBarrier key) db =
    (.ok (db.selectRow 0 (d.look key)).1, (db.selectRow 0 (d.look key)).2) := rfl

theorem alone_deleteBarrier (key : String) (db : Db) :
    d.alone (Relational.deleteBarrier key) db = (.ok (), db.deleteRow 0 (d.look key)) := rfl

theorem alone_finish (b : BranchBarrier) (decision : BarrierDecision) (db : Db) :
    d.alone (Relational.finish b decision) db =
      (.ok decision, { db.commitRows 0 with decided := (0, b, decision) :: db.decided }) := rfl

/-- What a call leaves when it ends with a COMMIT. -/
theorem finished {db : Db} (h : db.OnlyOpen 0) (b : BranchBarrier) (decision : BarrierDecision)
    {rows : Finset String} (hrows : db.view 0 = rows) :
    ∃ db', d.alone (Relational.finish b decision) db = (.ok decision, db') ∧ db'.Quiet ∧
      db'.rows = rows :=
  ⟨_, d.alone_finish b decision db, h.commitRows, hrows⟩

/-- **`barrier` alone**: its decision and the rows that it leaves. -/
theorem alone_barrier {db : Db} (h : db.Quiet) (b : BranchBarrier) :
    ∃ db', d.alone (Relational.barrier b) db = ((d.decideRows db.rows b).1, db') ∧ db'.Quiet ∧
      db'.rows = (d.decideRows db.rows b).2 := by
  have hq : (db.rollback 0).Quiet := h.rollback 0
  have hview : (db.rollback 0).view 0 = db.rows := hq.view 0
  rw [Relational.barrier, d.alone_bind_ok (d.alone_begin db), decideRows]
  cases hk : d.row b with
  | none =>
    rw [d.alone_bind_error (d.alone_insertBarrier_none hk _)]
    exact ⟨_, rfl, hq.rollback 0, rfl⟩
  | some key =>
    rw [d.alone_bind_ok (d.alone_insertBarrier hk _)]
    have ho : ((db.rollback 0).insertRow 0 key).2.OnlyOpen 0 := (hq.onlyOpen 0).insertRow
    have hv : ((db.rollback 0).insertRow 0 key).2.view 0 = insert key db.rows := by
      rw [Db.view_insertRow, hview]
    simp only [Db.insertRow_fst, hview]
    by_cases hkey : key ∈ db.rows
    · simp only [hkey, not_true, decide_false, Bool.not_false, if_true]
      exact d.finished ho b _ (hv.trans (Finset.insert_eq_of_mem hkey))
    simp only [hkey, not_false_eq_true, decide_true, Bool.not_true, Bool.false_eq_true, if_false]
    by_cases ht : b.op = "try"
    · simp only [ht, if_true]
      rw [d.alone_bind_ok (d.alone_selectBarrier _ _)]
      simp only [Db.selectRow_fst, hv, decide_eq_true_eq]
      split
      · rw [d.alone_bind_ok (d.alone_deleteBarrier _ _)]
        refine d.finished ho.selectRow.deleteRow b _ ?_
        rw [Db.view_deleteRow, Db.view_selectRow, hv]
      · exact d.finished ho.selectRow b _ (Db.view_selectRow.trans hv)
    · simp only [ht, if_false]
      by_cases hc : b.op = "cancel"
      · simp only [hc, if_true]
        rw [d.alone_bind_ok (d.alone_selectBarrier _ _)]
        simp only [Db.selectRow_fst, hv, Bool.not_eq_true', decide_eq_false_iff_not]
        split <;> exact d.finished ho.selectRow b _ (Db.view_selectRow.trans hv)
      · simp only [hc, if_false]
        exact d.finished ho b _ hv

theorem alone_releaseBarrier (b : BranchBarrier) (db : Db) :
    d.alone (Relational.releaseBarrier b) db =
      (.ok (), { db with rows := db.rows.erase (d.look b.textKey) }) := rfl

/-- No two of the barriers in `A` meet in the table, and no Try or Cancel in `A` meets the
Cancel or the Try of another one. -/
structure Separates (A : Set BranchBarrier) : Prop where
  row : ∀ b ∈ A, d.row b = some (d.look b.textKey)
  own : ∀ a ∈ A, ∀ b ∈ A, d.look a.textKey = d.look b.textKey → a = b
  cancelOf : ∀ a ∈ A, ∀ b ∈ A, b.op = "try" →
    d.look a.textKey = d.look b.cancelOf.textKey → a = b.cancelOf
  tryOf : ∀ a ∈ A, ∀ b ∈ A, b.op = "cancel" →
    d.look a.textKey = d.look b.tryOf.textKey → a = b.tryOf

/-- The rows of some barriers. -/
def rowsOf (barriers : Finset BranchBarrier) : Finset String :=
  barriers.image fun b => d.look b.textKey

variable {d} {A : Set BranchBarrier} {barriers : Finset BranchBarrier} {b : BranchBarrier}

namespace Separates

variable (hA : d.Separates A) (hs : ∀ a ∈ barriers, a ∈ A) (hb : b ∈ A)
include hA hs hb

theorem mem_rowsOf : d.look b.textKey ∈ d.rowsOf barriers ↔ b ∈ barriers := by
  rw [rowsOf, Finset.mem_image]
  refine ⟨?_, fun h => ⟨b, h, rfl⟩⟩
  rintro ⟨a, ha, hab⟩
  rwa [← hA.own a (hs a ha) b hb hab]

theorem cancelOf_mem (ht : b.op = "try") :
    d.look b.cancelOf.textKey ∈ insert (d.look b.textKey) (d.rowsOf barriers) ↔
      b.cancelOf ∈ barriers := by
  rw [Finset.mem_insert, rowsOf, Finset.mem_image]
  constructor
  · rintro (h | ⟨a, ha, h⟩)
    · -- a Try is not its own Cancel
      have hop : "try" = "cancel" :=
        ht.symm.trans (congrArg BranchBarrier.op (hA.cancelOf b hb b hb ht h.symm))
      exact absurd hop (by decide)
    · rwa [← hA.cancelOf a (hs a ha) b hb ht h]
  · exact fun h => Or.inr ⟨_, h, rfl⟩

theorem tryOf_mem (hc : b.op = "cancel") :
    d.look b.tryOf.textKey ∈ insert (d.look b.textKey) (d.rowsOf barriers) ↔
      b.tryOf ∈ barriers := by
  rw [Finset.mem_insert, rowsOf, Finset.mem_image]
  constructor
  · rintro (h | ⟨a, ha, h⟩)
    · have hop : "cancel" = "try" :=
        hc.symm.trans (congrArg BranchBarrier.op (hA.tryOf b hb b hb hc h.symm))
      exact absurd hop (by decide)
    · rwa [← hA.tryOf a (hs a ha) b hb hc h]
  · exact fun h => Or.inr ⟨_, h, rfl⟩

theorem rowsOf_erase : (d.rowsOf barriers).erase (d.look b.textKey) =
    d.rowsOf (barriers.erase b) := by
  ext key
  simp only [rowsOf, Finset.mem_erase, Finset.mem_image]
  constructor
  · rintro ⟨hk, a, ha, rfl⟩
    exact ⟨a, ⟨fun hab => hk (by rw [hab]), ha⟩, rfl⟩
  · rintro ⟨a, ⟨hab, ha⟩, rfl⟩
    exact ⟨fun hk => hab (hA.own a (hs a ha) b hb hk), a, ha, rfl⟩

/-- **One `barrier` on both sides.** -/
theorem decideRows_eq {w : World} (hw : w.barriers = barriers) :
    (d.decideRows (d.rowsOf barriers) b).1 = .ok (InMemory.barrier w b).1 ∧
      (d.decideRows (d.rowsOf barriers) b).2 = d.rowsOf (InMemory.barrier w b).2.barriers ∧
      ∀ a ∈ (InMemory.barrier w b).2.barriers, a ∈ A := by
  have hins : insert (d.look b.textKey) (d.rowsOf barriers) = d.rowsOf (insert b barriers) :=
    (Finset.image_insert ..).symm
  have hsub : ∀ a ∈ insert b barriers, a ∈ A := by
    intro a ha
    rcases Finset.mem_insert.mp ha with rfl | ha
    · exact hb
    · exact hs a ha
  have hmem : w.barriers = barriers ∧ ∀ a ∈ w.barriers, a ∈ A := ⟨hw, by rwa [hw]⟩
  rw [InMemory.barrier_eq]
  simp only [decideRows, hA.row b hb, hA.mem_rowsOf hs hb, hw]
  by_cases hdup : b ∈ barriers
  · simp only [hdup, if_true]
    exact ⟨trivial, by rw [hw], hmem.2⟩
  simp only [hdup, if_false]
  by_cases ht : b.op = "try"
  · simp only [ht, if_true, true_and, hA.cancelOf_mem hs hb ht]
    by_cases hcan : b.cancelOf ∈ barriers
    · simp only [hcan, if_true]
      refine ⟨trivial, ?_, hmem.2⟩
      rw [Finset.erase_insert (mt (hA.mem_rowsOf hs hb).mp hdup), hw]
    · have hne : ¬ ("try" = "cancel") := by decide
      simp only [hcan, hne, if_false, false_and]
      exact ⟨trivial, hins, hsub⟩
  simp only [ht, if_false, false_and]
  by_cases hc : b.op = "cancel"
  · have hself : b.cancelOf = b := by
      cases b
      cases hc
      rfl
    simp only [hc, if_true, true_and, hA.tryOf_mem hs hb hc, hself]
    split <;> exact ⟨rfl, hins, hsub⟩
  · simp only [hc, if_false, false_and]
    exact ⟨trivial, hins, hsub⟩

end Separates

/-- **Sequences of calls on both sides**, from rows that are those of the barriers. -/
theorem Separates.answers_eq (hA : d.Separates A) {calls : List BarrierCall} {db : Db} {w : World}
    (hcalls : ∀ c ∈ calls, c.names ∈ A) (hq : db.Quiet) (hs : ∀ a ∈ w.barriers, a ∈ A)
    (hrows : db.rows = d.rowsOf w.barriers) :
    answers d.answer db calls = answers InMemory.answer w calls := by
  induction calls generalizing db w with
  | nil => rfl
  | cons c calls ih =>
    have hrest : ∀ c ∈ calls, c.names ∈ A := fun c hc => hcalls c (.tail _ hc)
    cases c with
    | barrier b =>
      have hb : b ∈ A := hcalls _ (.head _)
      obtain ⟨db', hdb, hq', hrows'⟩ := d.alone_barrier hq b
      rw [hrows] at hdb hrows'
      obtain ⟨hdecision, hleft, hs'⟩ := hA.decideRows_eq hs hb rfl
      have hstep : d.answer db (.barrier b) = (.ok (some (InMemory.barrier w b).1), db') := by
        rw [Dialect.answer, hdb, hdecision]
        rfl
      simp only [answers, hstep, InMemory.answer]
      rw [ih hrest hq' hs' (hrows'.trans hleft)]
    | release b =>
      have hb : b ∈ A := hcalls _ (.head _)
      have hstep : d.answer db (.release b) =
          (.ok none, { db with rows := db.rows.erase (d.look b.textKey) }) := by
        rw [Dialect.answer, alone_releaseBarrier]
        rfl
      have hs' : ∀ a ∈ (InMemory.releaseBarrier w b).barriers, a ∈ A :=
        fun a ha => hs a (Finset.mem_of_mem_erase ha)
      simp only [answers, hstep, InMemory.answer]
      refine congrArg _ (ih hrest (by exact hq) hs' ?_)
      have herase := congrArg (fun rows => rows.erase (d.look b.textKey)) hrows
      exact herase.trans (hA.rowsOf_erase hs hb)

variable (d A)

/-- Calls about the barriers in `A` get the same decisions from both, from empty stores. -/
def Agrees : Prop := ∀ calls : List BarrierCall, (∀ c ∈ calls, c.names ∈ A) →
  answers d.answer .empty calls = answers InMemory.answer (.initial []) calls

variable {d A}

theorem answer_barrier {db : Db} (h : db.Quiet) (b : BranchBarrier) :
    ∃ db', d.answer db (.barrier b) = ((d.decideRows db.rows b).1.map some, db') ∧ db'.Quiet ∧
      db'.rows = (d.decideRows db.rows b).2 := by
  obtain ⟨db', h1, h2⟩ := d.alone_barrier h b
  exact ⟨db', by rw [Dialect.answer, h1], h2⟩

theorem eq_ok_of_map_some {x : Except Err BarrierDecision} {decision : BarrierDecision}
    (h : x.map some = .ok (some decision)) : x = .ok decision := by
  cases x with
  | error e => cases h
  | ok a =>
    cases h
    rfl

/-- The first barrier in an empty in-memory store. -/
theorem InMemory.barrier_first {w : World} (hw : w.barriers = ∅) (b : BranchBarrier) :
    (InMemory.barrier w b).1 ≠ .skipDuplicate ∧ (InMemory.barrier w b).1 ≠ .skipCancelledTry ∧
      (b.op = "cancel" → (InMemory.barrier w b).1 = .skipNullCompensation) ∧
      (InMemory.barrier w b).2.barriers = {b} := by
  rw [InMemory.barrier_eq]
  simp only [hw, Finset.notMem_empty, if_false, and_false, not_false_eq_true, and_true]
  by_cases hc : b.op = "cancel"
  · have hself : b.cancelOf = b := by
      cases b
      cases hc
      rfl
    simp [hc, hself]
  · simp [hc]

/-- The second one, after another. -/
theorem InMemory.barrier_second {w : World} {a b : BranchBarrier} (hw : w.barriers = {a})
    (hne : a ≠ b) : (InMemory.barrier w b).1 ≠ .skipDuplicate ∧
      ((InMemory.barrier w b).1 = .skipCancelledTry → a = b.cancelOf) ∧
      (b.op = "cancel" → (InMemory.barrier w b).1 = .execute → a = b.tryOf) := by
  rw [InMemory.barrier_eq]
  simp only [hw, Finset.mem_singleton, Ne.symm hne, if_false]
  grind

namespace Agrees

variable (h : d.Agrees A)
include h

/-- The first call: the row is inserted, and no other row is met. -/
theorem first (hb : b ∈ A) : ∃ key, d.row b = some key ∧ (d.decideRows ∅ b).2 = {key} ∧
    (b.op = "try" → d.look b.cancelOf.textKey ≠ key) ∧
    (b.op = "cancel" → d.look b.tryOf.textKey ≠ key) := by
  obtain ⟨-, hskip, hnull, -⟩ := InMemory.barrier_first (World.barriers_initial []) b
  obtain ⟨db', hdb, -, -⟩ := d.answer_barrier Db.quiet_empty b
  have hcalls := h [.barrier b] (by simpa [BarrierCall.names] using hb)
  simp only [answers, hdb, InMemory.answer, List.cons.injEq, and_true] at hcalls
  have hok : (d.decideRows ∅ b).1 = .ok (InMemory.barrier (.initial []) b).1 :=
    eq_ok_of_map_some hcalls
  obtain ⟨key, hk⟩ := row_of_decideRows hok
  have hmem : key ∉ (∅ : Finset String) := Finset.notMem_empty key
  refine ⟨key, hk, ?_, fun ht hc => ?_, fun hc ht => ?_⟩
  · refine decideRows_inserted hk hmem fun hd => hskip ?_
    exact Except.ok.inj (hok.symm.trans hd)
  · have hd := decideRows_cancelled hk hmem ht (by simp [hc])
    exact hskip (Except.ok.inj (hok.symm.trans hd))
  · have hd := decideRows_tried hk hmem hc (by simp [ht])
    cases (hnull hc).symm.trans (Except.ok.inj (hok.symm.trans hd))

/-- The second of two calls about different barriers. -/
theorem second {a : BranchBarrier} (ha : a ∈ A) (hb : b ∈ A) {key : String}
    (hk : d.row a = some key) :
    ∃ w : World, w.barriers = {a} ∧
      (d.decideRows {key} b).1 = .ok (InMemory.barrier w b).1 := by
  obtain ⟨-, -, -, hw⟩ := InMemory.barrier_first (World.barriers_initial []) a
  obtain ⟨db, hdb, hq, hrows⟩ := d.answer_barrier Db.quiet_empty a
  obtain ⟨db', hdb', -, -⟩ := d.answer_barrier hq b
  obtain ⟨key', hk', hleft, -⟩ := h.first ha
  cases hk.symm.trans hk'
  have hcalls := h [.barrier a, .barrier b] (by simpa [BarrierCall.names] using ⟨ha, hb⟩)
  simp only [answers, hdb, hdb', InMemory.answer, List.cons.injEq, and_true] at hcalls
  refine ⟨_, hw, ?_⟩
  have hrows' : db.rows = {key} := hrows.trans hleft
  rw [← hrows']
  exact eq_ok_of_map_some hcalls.2

/-- A barrier that is taken, given back and taken again. -/
theorem again (hb : b ∈ A) : d.row b = some (d.look b.textKey) := by
  obtain ⟨-, -, -, hw⟩ := InMemory.barrier_first (World.barriers_initial []) b
  obtain ⟨db, hdb, hq, hrows⟩ := d.answer_barrier Db.quiet_empty b
  obtain ⟨key, hk, hleft, -⟩ := h.first hb
  have hrows' : db.rows = {key} := hrows.trans hleft
  have hrel : d.answer db (.release b) =
      (.ok none, { db with rows := db.rows.erase (d.look b.textKey) }) := rfl
  have hq' : Db.Quiet { db with rows := db.rows.erase (d.look b.textKey) } := hq
  obtain ⟨db', hdb', -, -⟩ := d.answer_barrier hq' b
  have hcalls := h [.barrier b, .release b, .barrier b]
    (by simpa [BarrierCall.names] using hb)
  simp only [answers, hdb, hrel, hdb', InMemory.answer, List.cons.injEq, and_true, true_and]
    at hcalls
  have hok := eq_ok_of_map_some hcalls.2
  have hfree : (InMemory.releaseBarrier (InMemory.barrier (.initial []) b).2 b).barriers = ∅ := by
    rw [InMemory.releaseBarrier, hw]
    exact Finset.erase_singleton b
  obtain ⟨hdup, -⟩ := InMemory.barrier_first hfree b
  by_contra hne
  refine hdup (Except.ok.inj (hok.symm.trans (decideRows_duplicate hk ?_)))
  rw [hrows', Finset.mem_erase]
  exact ⟨fun hkey => hne (hkey ▸ hk), Finset.mem_singleton_self key⟩

/-- **The decisions agree only when the barriers are kept apart.** -/
theorem separates : d.Separates A where
  row := fun b hb => h.again hb
  own := by
    intro a ha b hb hkey
    by_contra hab
    obtain ⟨w, hw, hok⟩ := h.second ha hb (h.again ha)
    have hd := decideRows_duplicate (h.again hb) (Finset.mem_singleton.mpr hkey.symm)
    exact (InMemory.barrier_second hw hab).1 (Except.ok.inj (hok.symm.trans hd))
  cancelOf := by
    intro a ha b hb ht hkey
    obtain ⟨key, hk, -, hself, -⟩ := h.first hb
    cases hk.symm.trans (h.again hb)
    obtain ⟨w, hw, hok⟩ := h.second ha hb (h.again ha)
    by_cases hab : a = b
    · rw [hab] at hkey
      exact absurd hkey.symm (hself ht)
    by_cases hkeys : d.look b.textKey = d.look a.textKey
    · have hd := decideRows_duplicate hk (Finset.mem_singleton.mpr hkeys)
      exact absurd (Except.ok.inj (hok.symm.trans hd)) (InMemory.barrier_second hw hab).1
    · have hd := decideRows_cancelled hk (fun hm => hkeys (Finset.mem_singleton.mp hm)) ht
        (Finset.mem_insert_of_mem (Finset.mem_singleton.mpr hkey.symm))
      exact (InMemory.barrier_second hw hab).2.1 (Except.ok.inj (hok.symm.trans hd))
  tryOf := by
    intro a ha b hb hc hkey
    obtain ⟨key, hk, -, -, hself⟩ := h.first hb
    cases hk.symm.trans (h.again hb)
    obtain ⟨w, hw, hok⟩ := h.second ha hb (h.again ha)
    by_cases hab : a = b
    · rw [hab] at hkey
      exact absurd hkey.symm (hself hc)
    by_cases hkeys : d.look b.textKey = d.look a.textKey
    · have hd := decideRows_duplicate hk (Finset.mem_singleton.mpr hkeys)
      exact absurd (Except.ok.inj (hok.symm.trans hd)) (InMemory.barrier_second hw hab).1
    · have hd := decideRows_tried hk (fun hm => hkeys (Finset.mem_singleton.mp hm)) hc
        (Finset.mem_insert_of_mem (Finset.mem_singleton.mpr hkey.symm))
      exact (InMemory.barrier_second hw hab).2.2 hc (Except.ok.inj (hok.symm.trans hd))

end Agrees

end Dialect

/-- **Calls one after another get the same decisions from a relational and the in-memory
store exactly when the table keeps their barriers apart.** -/
theorem barrier_decisions_agree (d : Dialect) (A : Set BranchBarrier) :
    d.Agrees A ↔ d.Separates A := by
  refine ⟨Dialect.Agrees.separates, fun hA calls hcalls => ?_⟩
  have hb : (World.initial []).barriers = ∅ := World.barriers_initial []
  refine hA.answers_eq hcalls Db.quiet_empty (fun a ha => ?_) ?_
  · rw [hb] at ha
    exact absurd ha (Finset.notMem_empty a)
  · rw [Dialect.rowsOf, hb]
    exact (Finset.image_empty _).symm

/-! ### Colons in names -/

/-- A gid and a branch id without a colon. -/
def BranchBarrier.Plain (b : BranchBarrier) : Prop :=
  ':' ∉ b.gid.toList ∧ ':' ∉ b.branchId.toList

/-- What stands before and after the first `c` of a list. -/
theorem split_at_first {α : Type} {c : α} {x₁ x₂ z₁ z₂ : List α} (h₁ : c ∉ x₁) (h₂ : c ∉ x₂)
    (h : x₁ ++ c :: z₁ = x₂ ++ c :: z₂) : x₁ = x₂ ∧ z₁ = z₂ := by
  induction x₁ generalizing x₂ with
  | nil =>
    cases x₂ with
    | nil => exact ⟨rfl, (List.cons.inj h).2⟩
    | cons y x₂ => exact absurd ((List.cons.inj h).1 ▸ List.mem_cons_self) h₂
  | cons y x₁ ih =>
    cases x₂ with
    | nil => exact absurd ((List.cons.inj h).1 ▸ List.mem_cons_self) h₁
    | cons y' x₂ =>
      obtain ⟨hy, ht⟩ := List.cons.inj h
      obtain ⟨hx, hz⟩ := ih (fun hc => h₁ (.tail _ hc)) (fun hc => h₂ (.tail _ hc)) ht
      exact ⟨by rw [hy, hx], hz⟩

/-- The texts of such barriers are different when they are. -/
theorem BranchBarrier.Plain.textKey_inj {a b : BranchBarrier} (ha : a.Plain) (hb : b.Plain)
    (h : a.textKey = b.textKey) : a = b := by
  have hl := congrArg String.toList h
  rw [a.textKey_toList, b.textKey_toList] at hl
  obtain ⟨hgid, hl⟩ := split_at_first ha.1 hb.1 hl
  obtain ⟨hbranch, hop⟩ := split_at_first ha.2 hb.2 hl
  cases a
  cases b
  simp_all [String.toList_inj]

/-- **Barriers without colons in their names are kept apart**, where the table takes the texts
as they are. -/
theorem Dialect.separates_of_plain {d : Dialect} {A : Set BranchBarrier}
    (hrow : ∀ b ∈ A, d.row b = some (d.look b.textKey)) (hlook : Function.Injective d.look)
    (hA : ∀ b ∈ A, b.Plain) : d.Separates A where
  row := hrow
  own := fun a ha b hb h => (hA a ha).textKey_inj (hA b hb) (hlook h)
  cancelOf := fun a ha b hb _ h =>
    have hb' : b.cancelOf.Plain := hA b hb
    (hA a ha).textKey_inj hb' (hlook h)
  tryOf := fun a ha b hb _ h =>
    have hb' : b.tryOf.Plain := hA b hb
    (hA a ha).textKey_inj hb' (hlook h)

/-- The names that the service accepts. -/
def BranchBarrier.Accepted (b : BranchBarrier) : Prop :=
  1 ≤ b.gid.utf8ByteSize ∧ b.gid.utf8ByteSize ≤ 128 ∧
    1 ≤ b.branchId.utf8ByteSize ∧ b.branchId.utf8ByteSize ≤ 128

/-- A Confirm of branch `c` of `a:b`, and one of branch `b:c` of `a`. -/
def collidingCalls : List BarrierCall :=
  [.barrier ⟨"a:b", "c", "confirm"⟩, .barrier ⟨"a", "b:c", "confirm"⟩]

/-- The relational stores take the second for a duplicate of the first. -/
theorem barrier_keys_collide : (∀ c ∈ collidingCalls, c.names.Accepted) ∧
    answers InMemory.answer (.initial []) collidingCalls =
      [.ok (some .execute), .ok (some .execute)] ∧
    answers Dialect.sqlite.answer .empty collidingCalls =
      [.ok (some .execute), .ok (some .skipDuplicate)] ∧
    answers Dialect.postgres.answer .empty collidingCalls =
      [.ok (some .execute), .ok (some .skipDuplicate)] ∧
    answers (Dialect.mysql id).answer .empty collidingCalls =
      [.ok (some .execute), .ok (some .skipDuplicate)] := by
  refine ⟨?_, by decide, by decide, by decide, by decide⟩
  simp only [collidingCalls, BarrierCall.names, BranchBarrier.Accepted]
  decide

end RozeDtm
