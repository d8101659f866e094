import Mathlib.Data.Finset.Lattice.Lemmas
import RozeDtm.Conc.Outline
import RozeDtm.Relational.Statements

/-!
# Try and Cancel in the relational stores

`barrier` inserts its own row and then looks for the row of the other operation.  A SELECT does
not see what another transaction has not committed, so a Try and a Cancel of one branch that
run side by side both go ahead (`try_and_cancel_race`).  When no SELECT looks up a row that is
inserted and not committed they never do (`try_and_cancel_apart`).
-/

namespace RozeDtm

open Conc

/-- The Try and the Cancel of a branch. -/
def TryOrCancel (g br : String) (b : BranchBarrier) : Prop :=
  b = ⟨g, br, "try"⟩ ∨ b = ⟨g, br, "cancel"⟩

/-- The barrier whose row `barrier` looks up. -/
def BranchBarrier.opposite (b : BranchBarrier) : BranchBarrier :=
  if b.op = "try" then b.cancelOf else b.tryOf

/-- What `barrier` returns when it has not found that row. -/
def BranchBarrier.proceeds (b : BranchBarrier) : BarrierDecision :=
  if b.op = "try" then .execute else .skipNullCompensation

/-- How far a call of `barrier` has come. -/
inductive BarrierStage
  | idle
  | duplicate (b : BranchBarrier)
  | inserted (b : BranchBarrier)
  | missed (b : BranchBarrier)
  | found (b : BranchBarrier)
  | dropped (b : BranchBarrier)

namespace BarrierStage

/-- The barrier that a call is about. -/
def barrier? : BarrierStage → Option BranchBarrier
  | .idle => none
  | .duplicate b | .inserted b | .missed b | .found b | .dropped b => some b

/-- What the transaction of a call has changed. -/
def draft (d : Dialect) : BarrierStage → Draft
  | .idle | .duplicate _ => ⟨∅, ∅⟩
  | .inserted b | .missed b | .found b => ⟨{d.look b.textKey}, ∅⟩
  | .dropped b => ⟨∅, {d.look b.textKey}⟩

/-- The key that it has looked up in vain. -/
def lookedUp (d : Dialect) : BarrierStage → Option String
  | .missed b => some (d.look b.opposite.textKey)
  | _ => none

/-- The decisions that it may commit. -/
def Permits : BarrierStage → BranchBarrier → BarrierDecision → Prop
  | .duplicate b', b, decision => b' = b ∧ decision = .skipDuplicate
  | .missed b', b, decision => b' = b ∧ decision = b.proceeds
  | .found b', b, decision => b' = b ∧ b.op = "cancel" ∧ decision = .execute
  | .dropped b', b, decision => b' = b ∧ decision = .skipCancelledTry
  | .idle, _, _ | .inserted _, _, _ => False

/-- The stage after a statement and its answer. -/
def next (t : BarrierStage) : (o : Statement) → o.Reply → BarrierStage
  | .insertBarrier b, r =>
    match (r : Except Err Bool) with
    | .ok true => .inserted b
    | .ok false => .duplicate b
    | .error _ => .idle
  | .selectBarrier _, r =>
    match t, (r : Except Err Bool) with
    | .inserted b, .ok true => .found b
    | .inserted b, .ok false => .missed b
    | _, _ => .idle
  | .deleteBarrier _, r =>
    match t, (r : Except Err Unit) with
    | .found b, .ok _ => .dropped b
    | _, _ => .idle
  | .begin, _ | .commit _ _, _ | .deleteNow _, _ => .idle

end BarrierStage

/-- What a call of `barrier` for a Try or a Cancel of the branch keeps to. -/
def barrierCalls (g br : String) : Discipline statements BarrierStage where
  pre := fun t o => match o with
    | .begin => True
    | .insertBarrier b => t = .idle ∧ TryOrCancel g br b
    | .selectBarrier key => ∃ b, t = .inserted b ∧ key = b.opposite.textKey
    | .deleteBarrier key => ∃ b, t = .found b ∧ key = b.textKey
    | .commit b decision => t.Permits b decision
    | .deleteNow _ => False
  sees := fun _ _ _ => True
  next := BarrierStage.next

section Walk

variable {g br : String} {t : BarrierStage} {b : BranchBarrier}

theorem does_begin {Q : BarrierStage → Unit → Prop} (hQ : Q .idle ()) :
    (barrierCalls g br).Does Relational.begin t Q :=
  ⟨trivial, fun _ _ _ _ => hQ⟩

theorem does_insertBarrier (hb : TryOrCancel g br b) {Q : BarrierStage → Bool → Prop}
    (new : Q (.inserted b) true) (old : Q (.duplicate b) false) :
    (barrierCalls g br).Does (Relational.insertBarrier b) .idle Q := by
  refine ⟨⟨rfl, hb⟩, fun r _ a hr => ?_⟩
  cases hr
  cases a
  · exact old
  · exact new

theorem does_selectBarrier {Q : BarrierStage → Bool → Prop} (found : Q (.found b) true)
    (missed : Q (.missed b) false) :
    (barrierCalls g br).Does (Relational.selectBarrier b.opposite.textKey) (.inserted b) Q := by
  refine ⟨⟨b, rfl, rfl⟩, fun r _ a hr => ?_⟩
  cases hr
  cases a
  · exact missed
  · exact found

theorem does_deleteBarrier {Q : BarrierStage → Unit → Prop} (hQ : Q (.dropped b) ()) :
    (barrierCalls g br).Does (Relational.deleteBarrier b.textKey) (.found b) Q := by
  refine ⟨⟨b, rfl, rfl⟩, fun r _ a hr => ?_⟩
  cases hr
  exact hQ

theorem does_finish {decision : BarrierDecision} (h : t.Permits b decision) :
    (barrierCalls g br).Does (Relational.finish b decision) t fun _ _ => True :=
  Discipline.does_bind.mpr ⟨h, fun _ _ _ _ _ _ => trivial⟩

/-- **Every call of `barrier` for the branch keeps to it.** -/
theorem follows_barrier (hb : TryOrCancel g br b) :
    (barrierCalls g br).Does (Relational.barrier b) t fun _ _ => True := by
  rw [Relational.barrier, Discipline.does_bind]
  refine does_begin ?_
  rw [Discipline.does_bind]
  refine does_insertBarrier hb ?_ (does_finish ⟨rfl, rfl⟩)
  simp only [Bool.not_true, Bool.false_eq_true, if_false]
  by_cases ht : b.op = "try"
  · have hopp : b.opposite = b.cancelOf := if_pos ht
    have hgo : b.proceeds = .execute := if_pos ht
    rw [if_pos ht, Discipline.does_bind, ← hopp]
    refine does_selectBarrier ?_ (does_finish ⟨rfl, hgo.symm⟩)
    rw [if_pos rfl, Discipline.does_bind]
    exact does_deleteBarrier (does_finish ⟨rfl, rfl⟩)
  · have hopp : b.opposite = b.tryOf := if_neg ht
    have hgo : b.proceeds = .skipNullCompensation := if_neg ht
    have hc : b.op = "cancel" := by
      rcases hb with rfl | rfl
      · exact absurd rfl ht
      · rfl
    rw [if_neg ht, if_pos hc, Discipline.does_bind, ← hopp]
    exact does_selectBarrier (does_finish ⟨rfl, hc, rfl⟩) (does_finish ⟨rfl, hgo.symm⟩)

end Walk

/-! ### What one statement can do -/

/-- The steps of connection `i` over the table, by the stage of its call. -/
inductive Moved (d : Dialect) (g br : String) (i : Nat) (db : Db) :
    BarrierStage → BarrierStage → Db → Prop
  | rolledBack (t : BarrierStage) : Moved d g br i db t .idle (db.rollback i)
  | duplicate (b : BranchBarrier) (hb : TryOrCancel g br b) :
      Moved d g br i db .idle (.duplicate b) db
  | inserted (b : BranchBarrier) (hb : TryOrCancel g br b) (key : String)
      (hrow : d.row b = some key) (hnew : key ∉ db.view i) (hfree : db.Unlocked key) :
      Moved d g br i db .idle (.inserted b) (db.insertRow i key).2
  | found (b : BranchBarrier) : Moved d g br i db (.inserted b) (.found b) db
  | missed (b : BranchBarrier) (hmiss : d.look b.opposite.textKey ∉ db.view i) :
      Moved d g br i db (.inserted b) (.missed b)
        (db.selectRow i (d.look b.opposite.textKey)).2
  | dropped (b : BranchBarrier) :
      Moved d g br i db (.found b) (.dropped b) (db.deleteRow i (d.look b.textKey))
  | committed (t : BarrierStage) (b : BranchBarrier) (decision : BarrierDecision)
      (h : t.Permits b decision) : Moved d g br i db t .idle
        { db.commitRows i with decided := (i, b, decision) :: db.decided }
  | unanswered (t : BarrierStage) (b : BranchBarrier) (decision : BarrierDecision)
      (h : t.Permits b decision) : Moved d g br i db t .idle (db.commitRows i)

/-- **What a permitted statement can do.** -/
theorem moved_of_exec {d : Dialect} {g br : String} {i : Nat} {db : Db} {t : BarrierStage}
    {o : Statement} (fate : Fate) (hp : (barrierCalls g br).pre t o)
    (ha : d.machine.allow o db) :
    Moved d g br i db t (t.next o (d.exec i o fate db).1) (d.exec i o fate db).2 := by
  cases o with
  | begin => cases fate <;> exact .rolledBack t
  | insertBarrier b =>
    obtain ⟨rfl, hb⟩ := hp
    cases fate with
    | done =>
      have hrun : d.exec i (.insertBarrier b) .done db = d.run i (.insertBarrier b) db := rfl
      rw [hrun]
      cases hrow : d.row b with
      | none =>
        simp only [Dialect.run, hrow]
        exact .rolledBack _
      | some key =>
        simp only [Dialect.run, hrow]
        by_cases hk : key ∈ db.view i
        · have hi : db.insertRow i key = (false, db) := if_pos hk
          rw [hi]
          exact .duplicate b hb
        · have hi : (db.insertRow i key).1 = true := congrArg Prod.fst (if_neg hk)
          rw [hi]
          exact .inserted b hb key hrow hk (ha key hrow)
    | failed => exact .rolledBack _
    | lost => exact .rolledBack _
  | selectBarrier key =>
    obtain ⟨b, rfl, rfl⟩ := hp
    cases fate with
    | done =>
      have hrun : d.exec i (.selectBarrier b.opposite.textKey) .done db =
          d.run i (.selectBarrier b.opposite.textKey) db := rfl
      rw [hrun, Dialect.run]
      by_cases hk : d.look b.opposite.textKey ∈ db.view i
      · have hs : db.selectRow i (d.look b.opposite.textKey) = (true, db) := if_pos hk
        rw [hs]
        exact .found b
      · have hs : (db.selectRow i (d.look b.opposite.textKey)).1 = false :=
          congrArg Prod.fst (if_neg hk)
        rw [hs]
        exact .missed b hk
    | failed => exact .rolledBack _
    | lost => exact .rolledBack _
  | deleteBarrier key =>
    obtain ⟨b, rfl, rfl⟩ := hp
    cases fate with
    | done => exact .dropped b
    | failed => exact .rolledBack _
    | lost => exact .rolledBack _
  | commit b decision =>
    cases fate with
    | done => exact .committed t b decision hp
    | failed => exact .rolledBack _
    | lost => exact .unanswered t b decision hp
  | deleteNow key => exact hp.elim

/-! ### The table -/

/-- How a database keeps the two rows of the branch: each under the key by which it is looked
up, and the two keys are different. -/
structure Dialect.KeepsPair (d : Dialect) (g br : String) : Prop where
  row : ∀ b, TryOrCancel g br b → ∀ key ∈ d.row b, key = d.look b.textKey
  differ : d.look (BranchBarrier.textKey ⟨g, br, "try"⟩) ≠
    d.look (BranchBarrier.textKey ⟨g, br, "cancel"⟩)

/-- The rows that the transaction of connection `i` has locked. -/
def Db.locks (db : Db) (i : Nat) : Finset String := (db.drafts i).added ∪ (db.drafts i).removed

/-- The decisions under which the row of a barrier is committed. -/
def BarrierDecision.Keeps (decision : BarrierDecision) : Prop :=
  decision = .execute ∨ decision = .skipNullCompensation

instance (decision : BarrierDecision) : Decidable decision.Keeps :=
  inferInstanceAs (Decidable (_ ∨ _))

theorem BranchBarrier.proceeds_keeps (b : BranchBarrier) : b.proceeds.Keeps := by
  rw [BranchBarrier.proceeds]
  split
  · exact Or.inl rfl
  · exact Or.inr rfl

/-- The rows of the Try and of the Cancel tell them apart. -/
theorem Dialect.KeepsPair.eq_of_look {d : Dialect} {g br : String} (hd : d.KeepsPair g br)
    {a b : BranchBarrier} (ha : TryOrCancel g br a) (hb : TryOrCancel g br b)
    (h : d.look a.textKey = d.look b.textKey) : a = b := by
  rcases ha with rfl | rfl <;> rcases hb with rfl | rfl
  · rfl
  · exact absurd h hd.differ
  · exact absurd h.symm hd.differ
  · rfl

/-- What holds of the table at every point of a run. -/
structure TableSound (d : Dialect) (db : Db) : Prop where
  /-- A row is locked by one transaction at most. -/
  exclusive : ∀ i j key, key ∈ db.locks i → key ∈ db.locks j → i = j
  /-- What an open transaction has inserted is not a committed row. -/
  pending : ∀ i key, key ∈ db.locks i → key ∉ db.rows
  /-- The row of a barrier that went ahead is committed. -/
  kept : ∀ e ∈ db.decided, e.2.2.Keeps → d.look e.2.1.textKey ∈ db.rows
  /-- A barrier goes ahead once. -/
  once : ∀ b, (db.decided.filter fun e => e.2.1 = b ∧ e.2.2.Keeps).length ≤ 1

/-- What the transaction of a call has changed and seen, by its stage. -/
structure Owns (d : Dialect) (g br : String) (i : Nat) (t : BarrierStage) (db : Db) : Prop where
  draft : db.drafts i = t.draft d
  missed : db.missed i = t.lookedUp d
  barrier : ∀ b ∈ t.barrier?, TryOrCancel g br b

section Steps

variable {d : Dialect} {g br : String} {i : Nat} {db db' : Db} {t t' : BarrierStage}

/-- **A step changes what its own call has changed and seen**, to what the next stage says. -/
theorem Moved.frame (h : Moved d g br i db t t' db') (hd : d.KeepsPair g br)
    (ho : Owns d g br i t db) : db'.drafts = Function.update db.drafts i (t'.draft d) ∧
      db'.missed = Function.update db.missed i (t'.lookedUp d) := by
  have same : ∀ t' : BarrierStage, t'.draft d = t.draft d → t'.lookedUp d = t.lookedUp d →
      db.drafts = Function.update db.drafts i (t'.draft d) ∧
        db.missed = Function.update db.missed i (t'.lookedUp d) := by
    intro t' h1 h2
    rw [h1, h2, ← ho.draft, ← ho.missed, Function.update_eq_self, Function.update_eq_self]
    exact ⟨rfl, rfl⟩
  cases h with
  | rolledBack => exact ⟨rfl, rfl⟩
  | duplicate b hb => exact same _ rfl rfl
  | inserted b hb key hrow hnew hfree =>
    have hkey : key = d.look b.textKey := hd.row b hb key hrow
    have hins : (db.insertRow i key).2 = { db with
        drafts := Function.update db.drafts i
          ⟨insert key (db.drafts i).added, (db.drafts i).removed⟩ } := congrArg Prod.snd (if_neg hnew)
    rw [hins, ho.draft, hkey]
    exact ⟨rfl, (same .idle rfl rfl).2⟩
  | found b => exact same _ rfl rfl
  | missed b hmiss =>
    have hsel : (db.selectRow i (d.look b.opposite.textKey)).2 = { db with
        missed := Function.update db.missed i (some (d.look b.opposite.textKey)) } :=
      congrArg Prod.snd (if_neg hmiss)
    rw [hsel]
    refine ⟨?_, rfl⟩
    rw [show (BarrierStage.missed b).draft d = (BarrierStage.inserted b).draft d from rfl,
      ← ho.draft, Function.update_eq_self]
  | dropped b =>
    have hdel : db.deleteRow i (d.look b.textKey) = { db with
        drafts := Function.update db.drafts i ⟨(db.drafts i).added.erase (d.look b.textKey),
          insert (d.look b.textKey) (db.drafts i).removed⟩ } := rfl
    rw [hdel, ho.draft]
    refine ⟨?_, (same (.found b) rfl rfl).2⟩
    simp [BarrierStage.draft]
  | committed t b decision h => exact ⟨rfl, rfl⟩
  | unanswered t b decision h => exact ⟨rfl, rfl⟩

/-- The stage of a call after its own step. -/
theorem Moved.owns (h : Moved d g br i db t t' db') (hd : d.KeepsPair g br)
    (ho : Owns d g br i t db) : Owns d g br i t' db' := by
  obtain ⟨h1, h2⟩ := h.frame hd ho
  refine ⟨by rw [h1, Function.update_self], by rw [h2, Function.update_self], ?_⟩
  have hb := ho.barrier
  cases h with
  | duplicate b htc | inserted b htc key hrow hnew hfree =>
    intro b' h
    cases h
    exact htc
  | found b | missed b hmiss | dropped b => exact hb
  | rolledBack | committed t b decision h | unanswered t b decision h => exact fun _ h => nomatch h

/-- The stage of a call after a step of another one. -/
theorem Moved.owns_other (h : Moved d g br i db t t' db') (hd : d.KeepsPair g br)
    (ho : Owns d g br i t db) {j : Nat} {u : BarrierStage} (hji : j ≠ i)
    (hj : Owns d g br j u db) : Owns d g br j u db' := by
  obtain ⟨h1, h2⟩ := h.frame hd ho
  refine ⟨?_, ?_, hj.barrier⟩
  · rw [h1, Function.update_of_ne hji]
    exact hj.draft
  · rw [h2, Function.update_of_ne hji]
    exact hj.missed

/-- A step leaves the rows and the record as they are, or it is a COMMIT. -/
theorem Moved.rows (h : Moved d g br i db t t' db') :
    (db'.rows = db.rows ∧ db'.decided = db.decided) ∨
      (t' = .idle ∧ db'.rows = db.view i ∧ (db'.decided = db.decided ∨
        ∃ b decision, t.Permits b decision ∧ db'.decided = (i, b, decision) :: db.decided)) := by
  cases h with
  | rolledBack | duplicate | found | dropped => exact Or.inl ⟨rfl, rfl⟩
  | inserted b hb key hrow hnew hfree =>
    left
    rw [Db.insertRow, if_neg hnew]
    exact ⟨rfl, rfl⟩
  | missed b hmiss =>
    left
    rw [Db.selectRow, if_neg hmiss]
    exact ⟨rfl, rfl⟩
  | committed t b decision h => exact Or.inr ⟨rfl, rfl, Or.inr ⟨b, decision, h, rfl⟩⟩
  | unanswered t b decision h => exact Or.inr ⟨rfl, rfl, Or.inl rfl⟩

/-- The rows that a call has locked, by its stage. -/
theorem Owns.locks (ho : Owns d g br i t db) :
    db.locks i = (t.draft d).added ∪ (t.draft d).removed := by rw [Db.locks, ho.draft]

/-- A row that is locked after a step was locked by the same transaction before it, or was
free. -/
theorem Moved.locks (h : Moved d g br i db t t' db') (hd : d.KeepsPair g br)
    (ho : Owns d g br i t db) {j : Nat} {key : String} (hk : key ∈ db'.locks j) :
    key ∈ db.locks j ∨ (j = i ∧ db.Unlocked key ∧ key ∉ db.rows) := by
  by_cases hji : j = i
  · subst hji
    rw [(h.owns hd ho).locks] at hk
    rw [ho.locks]
    cases h with
    | rolledBack | duplicate | committed | unanswered =>
      simp only [BarrierStage.draft, Finset.union_empty, Finset.notMem_empty] at hk
    | inserted b hb key' hrow hnew hfree =>
      have hkey : key' = d.look b.textKey := hd.row b hb key' hrow
      simp only [BarrierStage.draft, Finset.union_empty, Finset.mem_singleton] at hk
      rw [hk, ← hkey]
      refine Or.inr ⟨rfl, hfree, fun hr => hnew ?_⟩
      simp [Db.view, ho.draft, BarrierStage.draft, hr]
    | found | missed => exact Or.inl hk
    | dropped => exact Or.inl (by simpa [BarrierStage.draft] using hk)
  · left
    rwa [Db.locks, (h.frame hd ho).1, Function.update_of_ne hji] at hk

/-- A committed row that no transaction has locked stays when one is committed. -/
theorem TableSound.mem_view (hs : TableSound d db) {key : String} (hk : key ∈ db.rows) : key ∈ db.view i := by
  rw [Db.view, Finset.mem_union, Finset.mem_sdiff]
  exact Or.inl ⟨hk, fun hr => hs.pending i key (Finset.mem_union_right _ hr) hk⟩

/-- The row of a call that goes ahead is one that it has inserted. -/
theorem Owns.added_of_permits (ho : Owns d g br i t db) {b : BranchBarrier}
    {decision : BarrierDecision} (h : t.Permits b decision) (hk : decision.Keeps) :
    d.look b.textKey ∈ (db.drafts i).added := by
  rw [ho.draft]
  cases t with
  | idle | inserted => exact h.elim
  | duplicate | dropped =>
    obtain ⟨-, rfl⟩ := h
    rcases hk with hk | hk <;> cases hk
  | missed | found =>
    obtain ⟨rfl, -⟩ := h
    exact Finset.mem_singleton_self _

theorem Db.not_unlocked {key : String} {j : Nat} (h : key ∈ db.locks j) : ¬ db.Unlocked key := by
  intro hfree
  rcases Finset.mem_union.mp h with h | h
  · exact (hfree j).1 h
  · exact (hfree j).2 h

/-- **A step keeps the table sound.** -/
theorem Moved.sound (h : Moved d g br i db t t' db') (hd : d.KeepsPair g br)
    (ho : Owns d g br i t db) (hs : TableSound d db) : TableSound d db' where
  exclusive := by
    intro j k key hj hk
    rcases h.locks hd ho hj with hj | ⟨rfl, hfree, -⟩
    · rcases h.locks hd ho hk with hk | ⟨-, hfree, -⟩
      · exact hs.exclusive j k key hj hk
      · exact absurd hfree (Db.not_unlocked hj)
    · rcases h.locks hd ho hk with hk | ⟨rfl, -, -⟩
      · exact absurd hfree (Db.not_unlocked hk)
      · rfl
  pending := by
    intro j key hj hkey
    have hold : key ∉ db.rows := by
      rcases h.locks hd ho hj with hj | ⟨-, -, hrow⟩
      · exact hs.pending j key hj
      · exact hrow
    rcases h.rows with ⟨hrows, -⟩ | ⟨rfl, hrows, -⟩
    · exact hold (hrows ▸ hkey)
    · -- a COMMIT adds the rows of its own transaction, which has no locks any more
      rw [hrows, Db.view, Finset.mem_union, Finset.mem_sdiff] at hkey
      rcases hkey with hkey | hkey
      · exact hold hkey.1
      · rcases h.locks hd ho hj with hl | ⟨-, hfree, -⟩
        · cases hs.exclusive i j key (Finset.mem_union_left _ hkey) hl
          rw [(h.owns hd ho).locks] at hj
          simp [BarrierStage.draft] at hj
        · exact (hfree i).1 hkey
  kept := by
    intro e he hk
    rcases h.rows with ⟨hrows, hdec⟩ | ⟨-, hrows, hdec⟩
    · rw [hrows]
      exact hs.kept e (hdec ▸ he) hk
    · rw [hrows]
      rcases hdec with hdec | ⟨b, decision, hp, hdec⟩
      · exact hs.mem_view (hs.kept e (hdec ▸ he) hk)
      · rw [hdec] at he
        rcases List.mem_cons.mp he with rfl | he
        · exact Finset.mem_union_right _ (ho.added_of_permits hp hk)
        · exact hs.mem_view (hs.kept e he hk)
  once := by
    intro b
    rcases h.rows with ⟨-, hdec⟩ | ⟨-, -, hdec | ⟨b', decision, hp, hdec⟩⟩
    · rw [hdec]
      exact hs.once b
    · rw [hdec]
      exact hs.once b
    · rw [hdec, List.filter_cons]
      split
      · rename_i hkeeps
        obtain ⟨rfl, hk⟩ : b' = b ∧ decision.Keeps := by simpa using hkeeps
        -- the row was not committed before, so nothing has gone ahead under the barrier
        have hnone : db.decided.filter (fun e => e.2.1 = b' ∧ e.2.2.Keeps) = [] := by
          rw [List.filter_eq_nil_iff]
          intro e he hb
          obtain ⟨hb, hke⟩ : e.2.1 = b' ∧ e.2.2.Keeps := by simpa using hb
          have hadded := ho.added_of_permits hp hk
          exact hs.pending i _ (Finset.mem_union_left _ hadded) (hb ▸ hs.kept e he hke)
        rw [hnone]
        exact Nat.le_refl 1
      · exact hs.once b

/-! ### Try and Cancel -/

/-- A call has gone ahead under the barrier, or is going to: it has not found the row of the
other operation. -/
def Db.GoesAhead (d : Dialect) (b : BranchBarrier) (db : Db) : Prop :=
  (∃ i, d.look b.textKey ∈ (db.drafts i).added ∧
    db.missed i = some (d.look b.opposite.textKey)) ∨
  ∃ i, (i, b, b.proceeds) ∈ db.decided

/-- The row of a barrier is in the table, committed or not. -/
def Db.Present (d : Dialect) (b : BranchBarrier) (db : Db) : Prop :=
  d.look b.textKey ∈ db.rows ∨ ∃ i, d.look b.textKey ∈ (db.drafts i).added

theorem TableSound.present (hs : TableSound d db) {b : BranchBarrier} (h : db.GoesAhead d b) :
    db.Present d b := by
  rcases h with ⟨i, hi, -⟩ | ⟨i, hi⟩
  · exact Or.inr ⟨i, hi⟩
  · have hrow := hs.kept (i, b, b.proceeds) hi b.proceeds_keeps
    exact Or.inl hrow

/-- **A call goes ahead only by a SELECT of its own** that does not find the other row. -/
theorem Moved.goesAhead (h : Moved d g br i db t t' db') (hd : d.KeepsPair g br)
    (ho : Owns d g br i t db) {b : BranchBarrier} (hb : TryOrCancel g br b)
    (hg : db'.GoesAhead d b) :
    db.GoesAhead d b ∨ (t' = .missed b ∧ d.look b.opposite.textKey ∉ db.view i) := by
  obtain ⟨hdrafts, hmissed⟩ := h.frame hd ho
  rcases hg with ⟨j, hadd, hlook⟩ | ⟨j, hdec⟩
  · rw [hdrafts] at hadd
    rw [hmissed] at hlook
    by_cases hji : j = i
    · subst hji
      rw [Function.update_self] at hadd hlook
      cases h with
      | missed b' hmiss =>
        have hb' : TryOrCancel g br b' := ho.barrier b' rfl
        cases hd.eq_of_look hb hb' (Finset.mem_singleton.mp hadd)
        exact Or.inr ⟨rfl, hmiss⟩
      | rolledBack | duplicate | inserted | found | dropped | committed | unanswered => cases hlook
    · rw [Function.update_of_ne hji] at hadd hlook
      exact Or.inl (Or.inl ⟨j, hadd, hlook⟩)
  · rcases h.rows with ⟨-, hsame⟩ | ⟨-, -, hsame | ⟨b', decision, hp, hcons⟩⟩
    · exact Or.inl (Or.inr ⟨j, hsame ▸ hdec⟩)
    · exact Or.inl (Or.inr ⟨j, hsame ▸ hdec⟩)
    · rw [hcons] at hdec
      rcases List.mem_cons.mp hdec with heq | hdec
      · cases heq
        have hadd := ho.added_of_permits hp b.proceeds_keeps
        cases t with
        | idle | inserted => exact hp.elim
        | missed b' =>
          cases hp.1
          exact Or.inl (Or.inl ⟨i, hadd, ho.missed⟩)
        | found b' =>
          obtain ⟨-, hc, hgo⟩ := hp
          rw [BranchBarrier.proceeds, if_neg (by simp [hc])] at hgo
          cases hgo
        | duplicate b' | dropped b' =>
          have hk := b.proceeds_keeps
          rw [hp.2] at hk
          rcases hk with hk | hk <;> cases hk
      · exact Or.inl (Or.inr ⟨j, hdec⟩)

end Steps

/-- The SELECT of a call does not look up a row that is inserted and not committed. -/
def Dialect.LooksUpCommitted (d : Dialect) : Statement → Db → Prop
  | .selectBarrier key, db => ∀ i, d.look key ∉ (db.drafts i).added
  | _, _ => True

/-- The Try and the Cancel have not both gone ahead. -/
def Apart (d : Dialect) (g br : String) (db : Db) : Prop :=
  ¬ (db.GoesAhead d ⟨g, br, "try"⟩ ∧ db.GoesAhead d ⟨g, br, "cancel"⟩)

/-- The table and the calls of `barrier` for the branch. -/
def tableOutline (d : Dialect) (g br : String) (hd : d.KeepsPair g br) :
    Outline d.machine (barrierCalls g br) .idle where
  inv := TableSound d
  own := Owns d g br
  sees := fun _ _ _ _ _ => trivial
  inv_step := fun c hi ho hp ha => (moved_of_exec c hp ha).sound hd ho hi
  own_step := fun c _ ho hp ha => (moved_of_exec c hp ha).owns hd ho
  own_other := fun c _ _ _ ho hp ha hji hj => (moved_of_exec c hp ha).owns_other hd ho hji hj
  inv_drift := fun _ h => h.elim
  own_drift := fun _ _ h => h.elim

/-- A call that has just begun to go ahead has looked up a row that no transaction has
inserted. -/
theorem not_added_of_next {d : Dialect} {g br : String} {db : Db} {t : BarrierStage}
    {o : Statement} {r : o.Reply} {b : BranchBarrier} (hp : (barrierCalls g br).pre t o)
    (hlook : d.LooksUpCommitted o db) (h : t.next o r = .missed b) (j : Nat) :
    d.look b.opposite.textKey ∉ (db.drafts j).added := by
  cases o with
  | begin | deleteNow => cases h
  | commit => cases h
  | insertBarrier b' =>
    revert h
    simp only [BarrierStage.next]
    split <;> exact fun h => nomatch h
  | deleteBarrier key =>
    obtain ⟨b', rfl, rfl⟩ := hp
    revert h
    simp only [BarrierStage.next]
    split <;> exact fun h => nomatch h
  | selectBarrier key =>
    obtain ⟨b', rfl, rfl⟩ := hp
    revert h
    simp only [BarrierStage.next]
    split
    · exact fun h => nomatch h
    · rename_i heq
      intro h
      cases h
      cases heq
      exact hlook j
    · exact fun h => nomatch h

theorem apart_step {d : Dialect} {g br : String} (hd : d.KeepsPair g br) {i : Nat} {db : Db}
    {t : BarrierStage} {o : Statement} (c : Fate) (hs : TableSound d db) (ho : Owns d g br i t db)
    (hp : (barrierCalls g br).pre t o) (ha : d.machine.allow o db)
    (hlook : d.LooksUpCommitted o db) (hapart : Apart d g br db) :
    Apart d g br (d.exec i o c db).2 := by
  rintro ⟨htry, hcancel⟩
  have hmoved := @moved_of_exec d g br i db t o c hp ha
  -- a call that has just begun to go ahead has looked up a row that is not there at all
  have absent : ∀ b : BranchBarrier, t.next o (d.exec i o c db).1 = .missed b →
      d.look b.opposite.textKey ∉ db.view i → ¬ db.Present d b.opposite := by
    intro b hnext hmiss hpresent
    have hfree := not_added_of_next hp hlook hnext
    rcases hpresent with hrow | ⟨j, hj⟩
    · exact hmiss (hs.mem_view hrow)
    · exact hfree j hj
  rcases hmoved.goesAhead hd ho (Or.inl rfl) htry with htry | ⟨hnext, hmiss⟩
  · rcases hmoved.goesAhead hd ho (Or.inr rfl) hcancel with hcancel | ⟨hnext, hmiss⟩
    · exact hapart ⟨htry, hcancel⟩
    · exact absent _ hnext hmiss (hs.present htry)
  · rcases hmoved.goesAhead hd ho (Or.inr rfl) hcancel with hcancel | ⟨hnext', -⟩
    · exact absent _ hnext hmiss (hs.present hcancel)
    · simp [hnext] at hnext'

/-- Nothing has gone ahead in an empty table, and nothing is locked. -/
theorem sound_empty (d : Dialect) : TableSound d .empty where
  exclusive := fun _ _ _ h => absurd h (by simp [Db.locks, Db.empty])
  pending := fun _ _ _ => Finset.notMem_empty _
  kept := fun _ h => absurd h List.not_mem_nil
  once := fun _ => Nat.zero_le 1

/-- The calls of `barrier` for a Try and for a Cancel of the branch. -/
def barrierPrograms (g br : String) : Prog statements (Except Err BarrierDecision) → Prop :=
  fun p => ∃ b, TryOrCancel g br b ∧ p = (Relational.barrier b).run

/-- The number of calls that have returned Execute. -/
def Db.executions (db : Db) (b : BranchBarrier) : Nat :=
  (db.decided.filter fun e => e.2.1 = b ∧ e.2.2 = .execute).length

theorem TableSound.executions_le {d : Dialect} {db : Db} (hs : TableSound d db) (b : BranchBarrier) :
    db.executions b ≤ 1 := by
  refine Nat.le_trans (List.Sublist.length_le ?_) (hs.once b)
  refine List.monotone_filter_right _ fun e he => ?_
  have hboth : e.2.1 = b ∧ e.2.2 = .execute := by simpa using he
  exact decide_eq_true ⟨hboth.1, Or.inl hboth.2⟩

/-- **When no SELECT looks up a row that is inserted and not committed**, a Cancel that was
skipped as a null compensation and a Try that was executed exclude each other, and each
operation is executed at most once. -/
theorem try_and_cancel_apart (d : Dialect) (g br : String) (hd : d.KeepsPair g br)
    (P : Pool statements Db (Except Err BarrierDecision))
    (hP : (d.machine.restrict d.LooksUpCommitted).Reaches (barrierPrograms g br) .empty P) :
    (∀ i j, (i, ⟨g, br, "cancel"⟩, .skipNullCompensation) ∈ P.world.decided →
      (j, ⟨g, br, "try"⟩, .execute) ∉ P.world.decided) ∧
    P.world.executions ⟨g, br, "try"⟩ ≤ 1 ∧ P.world.executions ⟨g, br, "cancel"⟩ ≤ 1 := by
  have hstart : ∀ p, barrierPrograms g br p → (barrierCalls g br).Follows p .idle fun _ _ => True := by
    rintro p ⟨b, hb, rfl⟩
    exact (follows_barrier hb).follows
  let O := (tableOutline d g br hd).restrict d.LooksUpCommitted
  have hidle : O.Good (Pool.idle .empty : Pool statements Db (Except Err BarrierDecision)) :=
    Outline.good_idle (sound_empty d) fun _ => ⟨rfl, rfl, fun _ h => nomatch h⟩
  have hsound : TableSound d P.world := (hidle.run hstart hP).1
  have hnone : ∀ b, ¬ Db.empty.GoesAhead d b := by
    rintro b (⟨i, hi, -⟩ | ⟨i, hi⟩)
    · exact absurd hi (Finset.notMem_empty _)
    · exact absurd hi List.not_mem_nil
  have hapart : Apart d g br P.world :=
    hidle.stays (Apart d g br) hstart
      (fun c hs ho hp ha hφ => apart_step hd c hs ho hp ha.1 ha.2 hφ) (fun _ h => h.elim)
      (fun h => hnone _ h.1) hP
  refine ⟨fun i j hi hj => hapart ⟨Or.inr ⟨j, hj⟩, Or.inr ⟨i, hi⟩⟩, ?_, ?_⟩
  · exact hsound.executions_le _
  · exact hsound.executions_le _

/-! ### The two databases -/

theorem textKey_try_ne_cancel (g br : String) :
    BranchBarrier.textKey ⟨g, br, "try"⟩ ≠ BranchBarrier.textKey ⟨g, br, "cancel"⟩ := by
  intro h
  have hl := congrArg String.toList h
  rw [BranchBarrier.textKey_toList, BranchBarrier.textKey_toList] at hl
  have hl := (List.cons.inj (List.append_cancel_left hl)).2
  have hop : "try".toList = "cancel".toList := (List.cons.inj (List.append_cancel_left hl)).2
  exact absurd hop (by decide)

/-- PostgreSQL keeps every Try and Cancel apart. -/
theorem Dialect.postgres_keepsPair (g br : String) : Dialect.postgres.KeepsPair g br where
  row := by
    intro b _ key hkey
    simp only [Dialect.postgres, Option.mem_def] at hkey
    split at hkey
    · exact (Option.some.inj hkey).symm
    · cases hkey
  differ := textKey_try_ne_cancel g br

/-- So does MySQL, where the text of the Cancel is not too long for its column, and the
collation of the table tells `try` from `cancel`. -/
theorem Dialect.mysql_keepsPair {weights : String → String} {g br : String}
    (hlen : (BranchBarrier.textKey ⟨g, br, "cancel"⟩).length ≤ 512)
    (hw : weights (BranchBarrier.textKey ⟨g, br, "try"⟩) ≠
      weights (BranchBarrier.textKey ⟨g, br, "cancel"⟩)) :
    (Dialect.mysql weights).KeepsPair g br where
  row := by
    intro b hb key hkey
    have hshort : b.textKey.toList.length ≤ 512 := by
      rw [← String.length_toList] at hlen
      rcases hb with rfl | rfl
      · refine Nat.le_trans ?_ hlen
        simp [BranchBarrier.textKey_toList]
      · exact hlen
    simp only [Dialect.mysql, Option.mem_def, Option.some.injEq] at hkey ⊢
    rw [← hkey, List.take_of_length_le hshort, String.ofList_toList]
  differ := hw

section Race

private theorem starts_barrier (op : String) (h : op = "try" ∨ op = "cancel") :
    barrierPrograms "g" "b" (Relational.barrier ⟨"g", "b", op⟩).run := by
  rcases h with rfl | rfl
  · exact ⟨_, Or.inl rfl, rfl⟩
  · exact ⟨_, Or.inr rfl, rfl⟩

/-- Where only the first two connections have open transactions, a row is free when neither
of these has locked it. -/
private theorem unlocked_of_two {db : Db} {key : String} (h0 : key ∉ db.locks 0)
    (h1 : key ∉ db.locks 1) (h : ∀ j, db.drafts (j + 2) = ⟨∅, ∅⟩) : db.Unlocked key := by
  intro j
  rw [← not_or, ← Finset.mem_union]
  match j with
  | 0 => exact h0
  | 1 => exact h1
  | j + 2 =>
    rw [h j]
    exact Finset.notMem_empty key

/-- Both insert their row, then both look for the other one. -/
theorem try_and_cancel_race : ∃ P : Pool statements Db (Except Err BarrierDecision),
    Dialect.postgres.machine.Reaches (barrierPrograms "g" "b") .empty P ∧
    (0, ⟨"g", "b", "try"⟩, .execute) ∈ P.world.decided ∧
    (1, ⟨"g", "b", "cancel"⟩, .skipNullCompensation) ∈ P.world.decided := by
  have h0 := ((Machine.Reaches.refl Dialect.postgres.machine (barrierPrograms "g" "b") .empty).start
    (starts_barrier "try" (Or.inl rfl))).start (starts_barrier "cancel" (Or.inr rfl))
  have h1 := (h0.exec 0 .done rfl trivial).exec 1 .done rfl trivial
  have h2 := h1.exec 0 .done rfl (by
    rintro key ⟨⟩
    exact unlocked_of_two (by decide) (by decide) fun _ => rfl)
  have h3 := h2.exec 1 .done rfl (by
    rintro key ⟨⟩
    exact unlocked_of_two (by decide) (by decide) fun _ => rfl)
  have h4 := (h3.exec 0 .done rfl trivial).exec 1 .done rfl trivial
  have h5 := (h4.exec 0 .done rfl trivial).exec 1 .done rfl trivial
  refine ⟨_, h5, ?_, ?_⟩
  · decide
  · decide

/-- A Try, and a Cancel after it. -/
theorem try_and_cancel_apart_in_turn : ∃ P : Pool statements Db (Except Err BarrierDecision),
    (Dialect.postgres.machine.restrict Dialect.postgres.LooksUpCommitted).Reaches
      (barrierPrograms "g" "b") .empty P ∧
    ((∀ i j, (i, ⟨"g", "b", "cancel"⟩, .skipNullCompensation) ∈ P.world.decided →
        (j, ⟨"g", "b", "try"⟩, .execute) ∉ P.world.decided) ∧
      P.world.executions ⟨"g", "b", "try"⟩ ≤ 1 ∧ P.world.executions ⟨"g", "b", "cancel"⟩ ≤ 1) ∧
    (0, ⟨"g", "b", "try"⟩, .execute) ∈ P.world.decided ∧
    (1, ⟨"g", "b", "cancel"⟩, .execute) ∈ P.world.decided := by
  have h0 := ((Machine.Reaches.refl
    (Dialect.postgres.machine.restrict Dialect.postgres.LooksUpCommitted)
    (barrierPrograms "g" "b") .empty).start (starts_barrier "try" (Or.inl rfl))).start
    (starts_barrier "cancel" (Or.inr rfl))
  have h1 := (h0.exec 0 .done rfl ⟨trivial, trivial⟩).exec 0 .done rfl ⟨by
    rintro key ⟨⟩
    exact unlocked_of_two (by decide) (by decide) fun _ => rfl, trivial⟩
  have h2 := (h1.exec 0 .done rfl ⟨trivial, fun j => by
    match j with
    | 0 => decide
    | j + 1 => exact Finset.notMem_empty _⟩).exec 0 .done rfl ⟨trivial, trivial⟩
  have h3 := (h2.exec 1 .done rfl ⟨trivial, trivial⟩).exec 1 .done rfl ⟨by
    rintro key ⟨⟩
    exact unlocked_of_two (by decide) (by decide) fun _ => rfl, trivial⟩
  have h4 := (h3.exec 1 .done rfl ⟨trivial, fun j => by
    match j with
    | 0 => decide
    | 1 => decide
    | j + 2 => exact Finset.notMem_empty _⟩).exec 1 .done rfl ⟨trivial, trivial⟩
  exact ⟨_, h4, try_and_cancel_apart .postgres "g" "b" (Dialect.postgres_keepsPair "g" "b") _ h4,
    by decide, by decide⟩

end Race

end RozeDtm
