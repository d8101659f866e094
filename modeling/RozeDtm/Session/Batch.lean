import Mathlib.Data.List.Nodup
import RozeDtm.Session.Phase2

/-!
# Batches of concurrent calls keep the discipline

`claimBatch` leaves the operation with a fresh barrier for every branch of the batch,
or has given back all that it took.  From there `joinBatch` is followed through every
order of the task events.  Its invariant says how far each task has come with its own
barrier, and that a branch whose task was joined is one that was called with success
or one whose call failed.
-/

namespace RozeDtm

open Conc

/-! ### Claiming -/

section Claim

variable {σ : Session} {gid op : String}

theorem does_releaseAll {claimed : List BranchBarrier} {Q : Session → Unit → Prop}
    (hσ : ∀ b ∈ claimed, σ.hold b = some .taken) (hn : claimed.Nodup)
    (hQ : ∀ σ, Q σ ()) : coordinator.Does (claimBatch.releaseAll claimed) σ Q := by
  induction claimed generalizing σ with
  | nil => exact Discipline.does_pure.mpr (hQ σ)
  | cons b rest ih =>
    rw [List.nodup_cons] at hn
    rw [claimBatch.releaseAll, Discipline.does_bind]
    refine does_releaseBarrier (Or.inl (hσ b (.head _))) (ih (fun b' hb' => ?_) hn.2)
    rw [σ.setHold_ne _ (ne_of_mem_of_not_mem hb' hn.1)]
    exact hσ b' (.tail _ hb')

/-- **Claiming a batch.** -/
theorem does_claimBatch {claimed : List BranchBarrier} {ids : List String}
    {Q : Session → Bool → Prop} (hc : op ≠ "cancel") (ht : op ≠ "try")
    (hσ : ∀ b ∈ claimed, σ.hold b = some .taken) (hn : claimed.Nodup)
    (hfalse : ∀ σ, Q σ false)
    (htrue : ∀ σ' : Session, σ'.snap = σ.snap →
      (∀ b ∈ claimed ++ ids.map (fun id => ⟨gid, id, op⟩), σ'.hold b = some .taken) →
      (claimed ++ ids.map (fun id => (⟨gid, id, op⟩ : BranchBarrier))).Nodup → Q σ' true) :
    coordinator.Does (claimBatch gid op claimed ids) σ Q := by
  induction ids generalizing σ claimed with
  | nil =>
    rw [List.map_nil, List.append_nil] at htrue
    exact Discipline.does_pure.mpr (htrue σ rfl hσ hn)
  | cons id ids ih =>
    rw [claimBatch, Discipline.does_bind]
    refine does_barrier_plain hc ht (fun hfree => ?_) ?_
    · have hnew : (⟨gid, id, op⟩ : BranchBarrier) ∉ claimed := fun h => by
        rw [hσ _ h] at hfree
        exact absurd hfree (Option.some_ne_none _)
      simp only [ne_eq, not_true_eq_false, if_false]
      refine ih (fun b hb => ?_) ?_ fun σ' hsnap hhold hnodup => htrue σ' hsnap ?_ ?_
      · rcases List.mem_append.mp hb with hb | hb
        · rw [Session.setHold_ne _ _ (ne_of_mem_of_not_mem hb hnew)]
          exact hσ b hb
        · rw [List.mem_singleton.mp hb]
          exact Session.setHold_self ..
      · rw [List.nodup_append]
        refine ⟨hn, List.nodup_singleton _, fun a ha b hb => ?_⟩
        rw [List.mem_singleton.mp hb]
        exact ne_of_mem_of_not_mem ha hnew
      · simpa using hhold
      · simpa using hnodup
    · simp only [ne_eq, reduceCtorEq, not_false_eq_true, if_true, Discipline.does_bind]
      exact does_releaseAll hσ hn fun σ => Discipline.does_pure.mpr (hfalse σ)

end Claim

/-! ### Places -/

/-- The places of the branches with a property. -/
theorem mem_indices (bs : List Branch) (p : Branch × Nat → Bool) (i : Nat) :
    i ∈ (bs.zipIdx.filter p).map Prod.snd ↔ ∃ b, bs[i]? = some b ∧ p (b, i) = true := by
  simp only [List.mem_map, List.mem_filter, Prod.exists, List.mem_zipIdx_iff_getElem?]
  constructor
  · rintro ⟨b, j, ⟨hb, hp⟩, rfl⟩
    exact ⟨b, hb, hp⟩
  · rintro ⟨b, hb, hp⟩
    exact ⟨b, i, ⟨hb, hp⟩, rfl⟩

theorem nodup_indices (bs : List Branch) (p : Branch × Nat → Bool) :
    ((bs.zipIdx.filter p).map Prod.snd).Nodup := by
  refine List.Nodup.sublist (List.filter_sublist.map _) ?_
  rw [List.zipIdx_map_snd]
  exact List.nodup_range'

theorem mem_branchesAt {tx : Transaction} {indices : List Nat} {i : Nat} {b : Branch} :
    (i, b) ∈ tx.branchesAt indices ↔ i ∈ indices ∧ tx.branches[i]? = some b := by
  simp only [Transaction.branchesAt, List.mem_filterMap, Option.map_eq_some_iff, Prod.mk.injEq]
  constructor
  · rintro ⟨j, hj, b', hb', rfl, rfl⟩
    exact ⟨hj, hb'⟩
  · rintro ⟨hi, hb⟩
    exact ⟨i, hi, b, hb, rfl, rfl⟩

theorem branchesAt_map_fst {tx : Transaction} {indices : List Nat}
    (h : ∀ i ∈ indices, ∃ b, tx.branches[i]? = some b) :
    (tx.branchesAt indices).map Prod.fst = indices := by
  induction indices with
  | nil => rfl
  | cons i indices ih =>
    obtain ⟨b, hb⟩ := h i (.head _)
    have := ih fun j hj => h j (.tail _ hj)
    simp only [Transaction.branchesAt] at this ⊢
    simp only [List.filterMap_cons, hb, Option.map_some, List.map_cons, this]

theorem getElem?_mapBranchesAt {tx : Transaction} {indices : List Nat} {f : Branch → Branch}
    {i : Nat} : (tx.mapBranchesAt indices f).branches[i]? =
      tx.branches[i]?.map fun b => if i ∈ indices then f b else b := by
  simp only [Transaction.mapBranchesAt, List.getElem?_mapIdx]

theorem of_mem_mapBranchesAt {tx : Transaction} {indices : List Nat} {f : Branch → Branch}
    {b : Branch} (hb : b ∈ (tx.mapBranchesAt indices f).branches) :
    ∃ a ∈ tx.branches, b = f a ∨ b = a := by
  obtain ⟨i, hi⟩ := List.mem_iff_getElem?.mp hb
  obtain ⟨a, ha, rfl⟩ := Option.map_eq_some_iff.mp (getElem?_mapBranchesAt.symm.trans hi)
  refine ⟨a, List.mem_of_getElem? ha, ?_⟩
  split
  · exact Or.inl rfl
  · exact Or.inr rfl

theorem mapBranchesAt_branchesAt (tx : Transaction) (indices : List Nat) (f : Branch → Branch) :
    (tx.mapBranchesAt indices f).branchesAt indices =
      (tx.branchesAt indices).map fun (i, b) => (i, f b) := by
  simp only [Transaction.branchesAt, List.map_filterMap]
  refine List.filterMap_congr fun i hi => ?_
  rw [getElem?_mapBranchesAt]
  cases tx.branches[i]? with
  | none => rfl
  | some b => simp only [Option.map_some, if_pos hi]

/-- Two lists are related when they have the same length and are related place by place. -/
theorem forall₂_of_getElem? {α β : Type} {R : α → β → Prop} {as : List α} {bs : List β}
    (hl : as.length = bs.length)
    (h : ∀ (i : Nat) a b, as[i]? = some a → bs[i]? = some b → R a b) : List.Forall₂ R as bs :=
  List.forall₂_iff_get.mpr ⟨hl, fun i h₁ h₂ =>
    h i _ _ (List.getElem?_eq_getElem h₁) (List.getElem?_eq_getElem h₂)⟩

/-- A change of the branches at some places relates the branches before to those after. -/
theorem forall₂_mapBranchesAt {tx : Transaction} {indices : List Nat} {f : Branch → Branch}
    {R : Branch → Branch → Prop} (hout : ∀ (i : Nat) a, tx.branches[i]? = some a →
      i ∉ indices → R a a) (hin : ∀ a, R a (f a)) :
    List.Forall₂ R tx.branches (tx.mapBranchesAt indices f).branches :=
  forall₂_of_getElem? (by simp [Transaction.mapBranchesAt]) fun i a b ha hb => by
    rw [getElem?_mapBranchesAt, ha, Option.map_some, Option.some.injEq] at hb
    subst hb
    split
    · exact hin a
    · rename_i hi
      exact hout i a ha hi

/-- A list around one of its places. -/
theorem exists_around {α : Type} (l : List α) (k : Fin l.length) :
    ∃ l₁ l₂, l = l₁ ++ l.get k :: l₂ ∧ l.eraseIdx k = l₁ ++ l₂ ∧
      ∀ a, l.set k a = l₁ ++ a :: l₂ := by
  refine ⟨l.take k, l.drop (k + 1), ?_, List.eraseIdx_eq_take_drop_succ .., fun a => ?_⟩
  · rw [List.get_eq_getElem, ← List.drop_eq_getElem_cons, List.take_append_drop]
  · rw [List.set_eq_take_append_cons_drop, if_pos k.isLt]

/-! ### Joining -/

/-- The number of events that a task still has. -/
def TaskStage.remaining : TaskStage → Nat
  | .spawned => 3
  | .calling => 2
  | .returned _ _ => 1

/-- The number of events that a list of tasks still has. -/
def remaining (tasks : List (BatchTask × TaskStage)) : Nat :=
  (tasks.map fun t => t.2.remaining).sum

/-- How far a task has come with its barrier. -/
def TaskStage.Ok (σ : Session) (gid op : String) (onOk onErr : BranchStatus) (branch : Branch) :
    TaskStage → Prop
  | .spawned => σ.hold (branch.key gid op) = some .taken
  | .calling => σ.hold (branch.key gid op) = some .calling
  | .returned b true => b.definition = branch.definition ∧ b.status = onOk ∧
      σ.hold (branch.key gid op) = some .done
  | .returned b false => b.definition = branch.definition ∧ b.status = onErr ∧
      σ.hold (branch.key gid op) = some .failed

/-- What a batch makes of branch `a`: the call returned success, or it failed and the
batch has a failed branch. -/
def Joined (σ : Session) (gid op : String) (onOk onErr : BranchStatus) (failed : List Branch)
    (a b : Branch) : Prop :=
  b.definition = a.definition ∧
    ((b.status = onOk ∧ σ.Done (a.key gid op)) ∨ (b.status = onErr ∧ failed ≠ []))

/-- A batch under way over the branches `as`, of which the ones at `ready` are called. -/
structure InBatch (σ : Session) (gid op : String) (onOk onErr : BranchStatus)
    (as : List Branch) (ready : List Nat) (tasks : List (BatchTask × TaskStage))
    (bs failed : List Branch) : Prop where
  stages : ∀ t ∈ tasks, t.2.Ok σ gid op onOk onErr t.1.branch
  calls : ∀ t ∈ tasks, t.1.call.barrier = t.1.branch.key gid op
  places : ∀ t ∈ tasks, as[t.1.index]? = some t.1.branch ∧ t.1.index ∈ ready
  barriers : (tasks.map fun t => t.1.branch.key gid op).Nodup
  indices : (tasks.map fun t => t.1.index).Nodup
  length : as.length = bs.length
  branches : ∀ (i : Nat) a b, as[i]? = some a → bs[i]? = some b →
    (((∃ t ∈ tasks, t.1.index = i) ∨ i ∉ ready) ∧ b = a) ∨
      (i ∈ ready ∧ Joined σ gid op onOk onErr failed a b)

section Join

variable {σ : Session} {gid op : String} {onOk onErr : BranchStatus} {as bs failed : List Branch}
  {ready : List Nat} {l₁ l₂ : List (BatchTask × TaskStage)} {task : BatchTask}

theorem TaskStage.Ok.setHold {branch : Branch} {stage : TaskStage} {k : BranchBarrier}
    {h : Option Hold} (hs : stage.Ok σ gid op onOk onErr branch) (hk : branch.key gid op ≠ k) :
    stage.Ok (σ.setHold k h) gid op onOk onErr branch := by
  match stage with
  | .spawned => exact (σ.setHold_ne h hk).trans hs
  | .calling => exact (σ.setHold_ne h hk).trans hs
  | .returned _ true => exact ⟨hs.1, hs.2.1, (σ.setHold_ne h hk).trans hs.2.2⟩
  | .returned _ false => exact ⟨hs.1, hs.2.1, (σ.setHold_ne h hk).trans hs.2.2⟩

theorem Joined.setHold {a b : Branch} {k : BranchBarrier} {h : Option Hold}
    (hj : Joined σ gid op onOk onErr failed a b) (hk : ¬ σ.Done k) :
    Joined (σ.setHold k h) gid op onOk onErr failed a b := by
  refine ⟨hj.1, hj.2.imp_left fun hd => ⟨hd.1, ?_⟩⟩
  exact (σ.setHold_ne h fun hak => hk (by rw [← hak]; exact hd.2)).trans hd.2

namespace InBatch

/-- The other tasks of a batch have other barriers. -/
theorem key_ne {stage : TaskStage}
    (h : InBatch σ gid op onOk onErr as ready (l₁ ++ (task, stage) :: l₂) bs failed)
    {t : BatchTask × TaskStage} (ht : t ∈ l₁ ++ l₂) :
    t.1.branch.key gid op ≠ task.branch.key gid op := by
  have hn := h.barriers
  simp only [List.map_append, List.map_cons, List.nodup_middle, List.nodup_cons] at hn
  exact ne_of_mem_of_not_mem (by rw [← List.map_append]; exact List.mem_map_of_mem ht) hn.1

/-- The other tasks of a batch are about other places. -/
theorem index_ne {stage : TaskStage}
    (h : InBatch σ gid op onOk onErr as ready (l₁ ++ (task, stage) :: l₂) bs failed)
    {t : BatchTask × TaskStage} (ht : t ∈ l₁ ++ l₂) : t.1.index ≠ task.index := by
  have hn := h.indices
  simp only [List.map_append, List.map_cons, List.nodup_middle, List.nodup_cons] at hn
  exact ne_of_mem_of_not_mem (by rw [← List.map_append]; exact List.mem_map_of_mem ht) hn.1

theorem mem_around {stage : TaskStage} {t : BatchTask × TaskStage} (ht : t ∈ l₁ ++ l₂) :
    t ∈ l₁ ++ (task, stage) :: l₂ := by
  rw [List.mem_append] at ht
  rw [List.mem_append, List.mem_cons]
  exact ht.imp_right Or.inr

theorem cases_around {stage : TaskStage} {t : BatchTask × TaskStage}
    (ht : t ∈ l₁ ++ (task, stage) :: l₂) : t = (task, stage) ∨ t ∈ l₁ ++ l₂ := by
  simp only [List.mem_append, List.mem_cons] at ht ⊢
  tauto

/-- A task goes on to its next stage. -/
theorem advance {stage stage' : TaskStage} {k : Option Hold}
    (h : InBatch σ gid op onOk onErr as ready (l₁ ++ (task, stage) :: l₂) bs failed)
    (hd : ¬ σ.Done (task.branch.key gid op))
    (hs : stage'.Ok (σ.setHold (task.branch.key gid op) k) gid op onOk onErr task.branch) :
    InBatch (σ.setHold (task.branch.key gid op) k) gid op onOk onErr as ready
      (l₁ ++ (task, stage') :: l₂) bs failed where
  stages := fun t ht => by
    rcases cases_around ht with rfl | ht
    · exact hs
    · exact (h.stages t (mem_around ht)).setHold (h.key_ne ht)
  calls := fun t ht => by
    rcases cases_around ht with rfl | ht
    · exact h.calls (task, stage) (by simp)
    · exact h.calls t (mem_around ht)
  places := fun t ht => by
    rcases cases_around ht with rfl | ht
    · exact h.places (task, stage) (by simp)
    · exact h.places t (mem_around ht)
  barriers := by simpa using h.barriers
  indices := by simpa using h.indices
  length := h.length
  branches := fun i a b ha hb => by
    refine (h.branches i a b ha hb).imp (fun hp => ⟨hp.1.imp_left ?_, hp.2⟩)
      fun hj => ⟨hj.1, hj.2.setHold hd⟩
    rintro ⟨t, ht, hti⟩
    rcases cases_around ht with rfl | ht
    · exact ⟨(task, stage'), by simp, hti⟩
    · exact ⟨t, mem_around ht, hti⟩

/-- A task is joined; `σ'` is the session after its barrier was dealt with. -/
theorem join {branch : Branch} {succeeded : Bool} {σ' : Session} {failed' : List Branch}
    (h : InBatch σ gid op onOk onErr as ready (l₁ ++ (task, .returned branch succeeded) :: l₂)
      bs failed)
    (hstages : ∀ t ∈ l₁ ++ l₂, t.2.Ok σ' gid op onOk onErr t.1.branch)
    (hjoined : ∀ a b, Joined σ gid op onOk onErr failed a b →
      Joined σ' gid op onOk onErr failed' a b)
    (hnew : Joined σ' gid op onOk onErr failed' task.branch branch) :
    InBatch σ' gid op onOk onErr as ready (l₁ ++ l₂) (bs.set task.index branch) failed' where
  stages := hstages
  calls := fun t ht => h.calls t (mem_around ht)
  places := fun t ht => h.places t (mem_around ht)
  barriers := by
    have hn := h.barriers
    simp only [List.map_append, List.map_cons, List.nodup_middle, List.nodup_cons] at hn
    simpa using hn.2
  indices := by
    have hn := h.indices
    simp only [List.map_append, List.map_cons, List.nodup_middle, List.nodup_cons] at hn
    simpa using hn.2
  length := by rw [List.length_set]; exact h.length
  branches := fun i a b ha hb => by
    obtain ⟨hplace, hready⟩ := h.places (task, .returned branch succeeded) (by simp)
    by_cases hi : task.index = i
    · subst hi
      have hlt : task.index < bs.length := by
        rw [← h.length]
        exact (List.getElem?_eq_some_iff.mp ha).1
      rw [List.getElem?_set_self hlt] at hb
      simp only [Option.some.injEq] at hb
      rw [hplace] at ha
      simp only [Option.some.injEq] at ha
      subst ha hb
      exact Or.inr ⟨hready, hnew⟩
    · rw [List.getElem?_set_ne hi] at hb
      refine (h.branches i a b ha hb).imp (fun hp => ⟨hp.1.imp_left ?_, hp.2⟩)
        fun hj => ⟨hj.1, hjoined a b hj.2⟩
      rintro ⟨t, ht, hti⟩
      rcases cases_around ht with rfl | ht
      · exact absurd hti hi
      · exact ⟨t, ht, hti⟩

theorem join_ok {branch : Branch}
    (h : InBatch σ gid op onOk onErr as ready (l₁ ++ (task, .returned branch true) :: l₂)
      bs failed) :
    InBatch σ gid op onOk onErr as ready (l₁ ++ l₂) (bs.set task.index branch) failed := by
  obtain ⟨hd, hs, hhold⟩ := h.stages (task, .returned branch true) (by simp)
  exact h.join (fun t ht => h.stages t (mem_around ht)) (fun _ _ hj => hj)
    ⟨hd, Or.inl ⟨hs, hhold⟩⟩

theorem join_error {branch : Branch}
    (h : InBatch σ gid op onOk onErr as ready (l₁ ++ (task, .returned branch false) :: l₂)
      bs failed) :
    InBatch (σ.setHold (task.branch.key gid op) none) gid op onOk onErr as ready (l₁ ++ l₂)
      (bs.set task.index branch) (failed ++ [branch]) := by
  obtain ⟨hd, hs, hhold⟩ := h.stages (task, .returned branch false) (by simp)
  have hne : failed ++ [branch] ≠ [] := List.append_ne_nil_of_right_ne_nil _ (List.cons_ne_nil _ _)
  refine h.join (fun t ht => (h.stages t (mem_around ht)).setHold (h.key_ne ht))
    (fun a b hj => ?_) ⟨hd, Or.inr ⟨hs, hne⟩⟩
  have hnd : ¬ σ.Done (task.branch.key gid op) := by rw [Session.Done, hhold]; simp
  have hj' : Joined (σ.setHold (task.branch.key gid op) none) gid op onOk onErr failed a b :=
    hj.setHold hnd
  exact ⟨hj'.1, hj'.2.imp_right fun he => ⟨he.1, hne⟩⟩

end InBatch

end Join

/-! ### The loops -/

section Loops

variable {dtm : Dtm} {σ : Session} {options : TransactionOptions} {gid op : String}
  {onOk onErr : BranchStatus} {as : List Branch} {ready : List Nat} {tx : Transaction}

/-- One step of a task that is not joined yet. -/
theorem does_advanceTask {task : BatchTask} {stage : TaskStage} {Q : Session → TaskStage → Prop}
    (hc : task.call.barrier = task.branch.key gid op)
    (hs : stage.Ok σ gid op onOk onErr task.branch) (hn : stage.remaining ≠ 1)
    (hQ : ∀ k stage', stage'.remaining + 1 = stage.remaining →
      stage'.Ok (σ.setHold (task.branch.key gid op) k) gid op onOk onErr task.branch →
      Q (σ.setHold (task.branch.key gid op) k) stage') :
    coordinator.Does (dtm.advanceTask options onOk onErr task stage) σ Q := by
  match stage with
  | .spawned =>
    rw [Dtm.advanceTask, Discipline.does_bind]
    refine does_invokeBegin (Or.inl (by rw [hc]; exact hs)) (Discipline.does_pure.mpr ?_)
    rw [hc]
    exact hQ _ .calling rfl (Session.setHold_self ..)
  | .calling =>
    rw [Dtm.advanceTask, Discipline.does_bind]
    refine does_invokeEnd (by rw [hc]; exact hs) ?_ ?_
    · rw [hc]
      simp only [Dtm.settleTask, if_true, Discipline.does_bind, Discipline.does_pure]
      exact hQ _ (.returned _ true) rfl ⟨rfl, rfl, Session.setHold_self ..⟩
    · rw [hc]
      simp only [Dtm.settleTask, Bool.false_eq_true, if_false, Discipline.does_bind,
        does_currentMillis, Discipline.does_pure]
      exact fun now => hQ _ (.returned _ false) rfl ⟨rfl, rfl, Session.setHold_self ..⟩
  | .returned _ _ => exact absurd rfl hn

theorem TaskStage.Ok.not_done {stage : TaskStage} {branch : Branch}
    (hs : stage.Ok σ gid op onOk onErr branch) (hn : stage.remaining ≠ 1) :
    ¬ σ.Done (branch.key gid op) := by
  match stage with
  | .spawned => simp only [TaskStage.Ok] at hs; simp [Session.Done, hs]
  | .calling => simp only [TaskStage.Ok] at hs; simp [Session.Done, hs]
  | .returned _ _ => exact absurd rfl hn

/-- What is left of a batch when every task is joined. -/
def BatchDone (σ : Session) (gid op : String) (onOk onErr : BranchStatus) (as : List Branch)
    (ready : List Nat) (bs failed : List Branch) : Prop :=
  as.length = bs.length ∧ ∀ (i : Nat) a b, as[i]? = some a → bs[i]? = some b →
    (i ∉ ready ∧ b = a) ∨ (i ∈ ready ∧ Joined σ gid op onOk onErr failed a b)

/-- A batch relates the branches it was given to the ones it leaves. -/
theorem BatchDone.forall₂ {R : Branch → Branch → Prop} {bs failed : List Branch}
    (h : BatchDone σ gid op onOk onErr as ready bs failed)
    (hout : ∀ (i : Nat) a, as[i]? = some a → i ∉ ready → R a a)
    (hin : ∀ (i : Nat) a b, as[i]? = some a → i ∈ ready → Joined σ gid op onOk onErr failed a b →
      R a b) : List.Forall₂ R as bs :=
  forall₂_of_getElem? h.1 fun i a b ha hb => by
    rcases h.2 i a b ha hb with ⟨hi, rfl⟩ | ⟨hi, hj⟩
    · exact hout i _ ha hi
    · exact hin i a b ha hi hj

/-- Where a branch that a batch leaves comes from. -/
theorem BatchDone.of_mem {bs failed : List Branch} {b : Branch}
    (h : BatchDone σ gid op onOk onErr as ready bs failed) (hb : b ∈ bs) :
    b ∈ as ∨ ∃ a, Joined σ gid op onOk onErr failed a b := by
  obtain ⟨i, hi⟩ := List.mem_iff_getElem?.mp hb
  have hlt : i < as.length := by
    rw [h.1]
    exact (List.getElem?_eq_some_iff.mp hi).1
  have ha := List.getElem?_eq_getElem hlt
  rcases h.2 i _ b ha hi with ⟨-, rfl⟩ | ⟨-, hj⟩
  · exact Or.inl (List.mem_of_getElem? ha)
  · exact Or.inr ⟨_, hj⟩

/-- **Joining a batch**, in any order of its events. -/
theorem does_joinBatch {fuel : Nat} {tasks : List (BatchTask × TaskStage)} {failed : List Branch}
    {bs : List Branch} {Q : Session → Transaction × List Branch → Prop}
    (hfuel : remaining tasks ≤ fuel)
    (h : InBatch σ gid op onOk onErr as ready tasks bs failed)
    (hQ : ∀ σ' bs failed, σ'.snap = σ.snap →
      BatchDone σ' gid op onOk onErr as ready bs failed →
      Q σ' ({ tx with branches := bs }, failed)) :
    coordinator.Does
      (dtm.joinBatch options onOk onErr fuel tasks { tx with branches := bs } failed) σ Q := by
  have hnil {σ : Session} {bs failed : List Branch}
      (h : InBatch σ gid op onOk onErr as ready [] bs failed) :
      BatchDone σ gid op onOk onErr as ready bs failed :=
    ⟨h.length, fun i a b ha hb => (h.branches i a b ha hb).imp_left fun hp =>
      ⟨hp.1.resolve_left (by simp), hp.2⟩⟩
  induction fuel generalizing σ tasks bs failed with
  | zero =>
    cases tasks with
    | nil => exact Discipline.does_pure.mpr (hQ σ bs failed rfl (hnil h))
    | cons t ts => cases hstage : t.2 <;> simp [remaining, TaskStage.remaining, hstage] at hfuel
  | succ fuel ih =>
    cases tasks with
    | nil => exact Discipline.does_pure.mpr (hQ σ bs failed rfl (hnil h))
    | cons t ts =>
      simp only [Dtm.joinBatch, Discipline.does_bind, does_joinNext]
      intro k
      obtain ⟨l₁, l₂, haround, herase, hset⟩ := exists_around (t :: ts) k
      generalize (t :: ts).get k = event at haround
      obtain ⟨task, stage⟩ := event
      rw [haround] at h hfuel
      have hcall := h.calls (task, stage) (by simp)
      have hstage := h.stages (task, stage) (by simp)
      -- a task that is not back yet takes a step
      have advance (hn : stage.remaining ≠ 1) : coordinator.Does
          (dtm.advanceTask options onOk onErr task stage) σ (fun σ' stage' =>
            coordinator.Does (dtm.joinBatch options onOk onErr fuel
              ((t :: ts).set k (task, stage')) { tx with branches := bs } failed) σ' Q) := by
        refine does_advanceTask hcall hstage hn fun k' stage' hr hok => ?_
        rw [hset]
        refine ih ?_ (h.advance (hstage.not_done hn) hok) fun σ' => hQ σ'
        simp only [remaining, List.map_append, List.map_cons, List.sum_append, List.sum_cons]
          at hfuel ⊢
        omega
      cases stage with
      | spawned => simpa only [Discipline.does_bind] using advance (by simp [TaskStage.remaining])
      | calling => simpa only [Discipline.does_bind] using advance (by simp [TaskStage.remaining])
      | returned branch succeeded =>
        cases succeeded with
        | true =>
          simp only [if_true]
          rw [herase]
          refine ih ?_ h.join_ok hQ
          simp only [remaining, List.map_append, List.map_cons, List.sum_append, List.sum_cons,
            TaskStage.remaining] at hfuel ⊢
          omega
        | false =>
          simp only [Bool.false_eq_true, if_false, Discipline.does_bind]
          rw [herase, hcall]
          refine does_releaseBarrier (Or.inr hstage.2.2) (ih ?_ h.join_error fun σ' => hQ σ')
          simp only [remaining, List.map_append, List.map_cons, List.sum_append, List.sum_cons,
            TaskStage.remaining] at hfuel ⊢
          omega

theorem does_abandonBatch {fuel : Nat} {tasks : List (BatchTask × TaskStage)}
    {bs failed : List Branch} {Q : Session → Unit → Prop}
    (h : InBatch σ gid op onOk onErr as ready tasks bs failed) (hQ : ∀ σ, Q σ ()) :
    coordinator.Does (dtm.abandonBatch options onOk onErr fuel tasks) σ Q := by
  induction fuel generalizing σ tasks with
  | zero => exact Discipline.does_pure.mpr (hQ σ)
  | succ fuel ih =>
    simp only [Dtm.abandonBatch, Discipline.does_bind, does_joinNext]
    intro k
    split
    · exact Discipline.does_pure.mpr (hQ σ)
    · rename_i task stage hget
      obtain ⟨hlt, heq⟩ := List.getElem?_eq_some_iff.mp hget
      obtain ⟨l₁, l₂, haround, -, hset⟩ := exists_around tasks ⟨k, hlt⟩
      rw [List.get_eq_getElem, heq] at haround
      rw [haround] at h
      have hcall := h.calls (task, stage) (by simp)
      have hstage := h.stages (task, stage) (by simp)
      have advance (hn : stage.remaining ≠ 1) : coordinator.Does
          (dtm.advanceTask options onOk onErr task stage) σ (fun σ' stage' =>
            coordinator.Does (dtm.abandonBatch options onOk onErr fuel
              (tasks.set k (task, stage'))) σ' Q) := by
        refine does_advanceTask hcall hstage hn fun k' stage' _ hok => ?_
        rw [hset]
        exact ih (h.advance (hstage.not_done hn) hok)
      cases stage with
      | spawned => simpa only [Discipline.does_bind] using advance (by simp [TaskStage.remaining])
      | calling => simpa only [Discipline.does_bind] using advance (by simp [TaskStage.remaining])
      | returned branch succeeded =>
        simp only [Dtm.advanceTask, Discipline.does_bind, Discipline.does_pure]
        rw [hset, ← haround]
        exact ih (haround ▸ h)

/-- A batch before its first event. -/
theorem inBatch_spawned {tasks : List BatchTask}
    (hhold : ∀ t ∈ tasks, σ.hold (t.branch.key gid op) = some .taken)
    (hcalls : ∀ t ∈ tasks, t.call.barrier = t.branch.key gid op)
    (hplaces : ∀ t ∈ tasks, as[t.index]? = some t.branch ∧ t.index ∈ ready)
    (hready : ∀ i ∈ ready, ∃ t ∈ tasks, t.index = i)
    (hbarriers : (tasks.map fun t => t.branch.key gid op).Nodup)
    (hindices : (tasks.map fun t => t.index).Nodup) :
    InBatch σ gid op onOk onErr as ready (tasks.map fun t => (t, .spawned)) as [] where
  stages := by simpa [TaskStage.Ok] using hhold
  calls := by simpa using hcalls
  places := by simpa using hplaces
  barriers := by simpa [Function.comp_def] using hbarriers
  indices := by simpa [Function.comp_def] using hindices
  length := rfl
  branches := fun i a b ha hb => by
    rw [ha] at hb
    refine Or.inl ⟨?_, (Option.some.inj hb).symm⟩
    by_cases hi : i ∈ ready
    · obtain ⟨t, ht, hti⟩ := hready i hi
      exact Or.inl ⟨(t, .spawned), List.mem_map_of_mem ht, hti⟩
    · exact Or.inr hi

end Loops

/-! ### From the claim to the batch -/

/-- The barriers of a batch are taken, each for one of its branches. -/
structure Claimed (σ : Session) (gid op : String) (ps : List (Nat × Branch)) : Prop where
  hold : ∀ p ∈ ps, σ.hold (p.2.key gid op) = some .taken
  nodup : (ps.map fun p => p.2.key gid op).Nodup

section Claimed

variable {dtm : Dtm} {σ : Session} {gid op : String} {onOk onErr : BranchStatus}
  {options : TransactionOptions} {ps : List (Nat × Branch)} {tx : Transaction}
  {ready : List Nat}

theorem Claimed.setSnap {snap : Option Transaction} (h : Claimed σ gid op ps) :
    Claimed (σ.setSnap snap) gid op ps := ⟨h.hold, h.nodup⟩

theorem Claimed.map {f : Branch → Branch} (hf : ∀ b, (f b).definition = b.definition)
    (h : Claimed σ gid op ps) :
    Claimed σ gid op (ps.map fun p => (p.1, f p.2)) where
  hold := by
    intro p hp
    obtain ⟨q, hq, rfl⟩ := List.mem_map.mp hp
    rw [Branch.key_eq (hf q.2)]
    exact h.hold q hq
  nodup := by
    simpa only [List.map_map, Function.comp_def, Branch.key_eq (hf _)] using h.nodup

theorem Claimed.sublist {qs : List (Nat × Branch)} (h : Claimed σ gid op ps)
    (hq : List.Sublist qs ps) : Claimed σ gid op qs :=
  ⟨fun p hp => h.hold p (hq.subset hp), h.nodup.sublist (hq.map _)⟩

/-- Claiming the branches at `ready`. -/
theorem does_claim {Q : Session → Bool → Prop} (hc : op ≠ "cancel") (ht : op ≠ "try")
    (hfalse : ∀ σ, Q σ false)
    (htrue : ∀ σ' : Session, σ'.snap = σ.snap → Claimed σ' gid op ps → Q σ' true) :
    coordinator.Does (claimBatch gid op [] (ps.map fun p => p.2.id)) σ Q := by
  refine does_claimBatch hc ht (by simp) List.nodup_nil hfalse fun σ' hsnap hhold hn => ?_
  simp only [List.nil_append, List.map_map, Function.comp_def] at hhold hn
  exact htrue σ' hsnap ⟨fun p hp => hhold _ (List.mem_map.mpr ⟨p, hp, rfl⟩), hn⟩

/-- The tasks of a batch. -/
def spawnAll (options : TransactionOptions) (gid op : String) (url : Branch → String)
    (ps : List (Nat × Branch)) : List BatchTask :=
  ps.map fun p => ⟨p.1, p.2, Dtm.branchCall options gid p.2 (url p.2) op⟩

theorem Claimed.inBatch (options : TransactionOptions) (onOk onErr : BranchStatus)
    (url : Branch → String) {as : List Branch} (h : Claimed σ gid op ps)
    (has : ∀ p ∈ ps, as[p.1]? = some p.2) (hn : (ps.map Prod.fst).Nodup) :
    InBatch σ gid op onOk onErr as (ps.map Prod.fst)
      ((spawnAll options gid op url ps).map fun task => (task, .spawned)) as [] := by
  have hmem {t : BatchTask} (ht : t ∈ spawnAll options gid op url ps) :
      ∃ p ∈ ps, (⟨p.1, p.2, Dtm.branchCall options gid p.2 (url p.2) op⟩ : BatchTask) = t :=
    List.mem_map.mp ht
  refine inBatch_spawned (fun t ht => ?_) (fun t ht => ?_) (fun t ht => ?_) (fun i hi => ?_) ?_ ?_
  · obtain ⟨p, hp, rfl⟩ := hmem ht
    exact h.hold p hp
  · obtain ⟨p, hp, rfl⟩ := hmem ht
    rfl
  · obtain ⟨p, hp, rfl⟩ := hmem ht
    exact ⟨has p hp, List.mem_map_of_mem hp⟩
  · obtain ⟨p, hp, rfl⟩ := List.mem_map.mp hi
    exact ⟨_, List.mem_map_of_mem hp, rfl⟩
  · simpa [spawnAll, Function.comp_def] using h.nodup
  · simpa [spawnAll, Function.comp_def] using hn

theorem branchesAt_getElem? {p : Nat × Branch} (hp : p ∈ tx.branchesAt ready) :
    tx.branches[p.1]? = some p.2 := (mem_branchesAt.mp hp).2

/-- **A batch from its spawn to its last join.** -/
theorem does_runBatch (url : Branch → String) (ready : List Nat)
    {Q : Session → Transaction × List Branch → Prop}
    (h : Claimed σ gid op (tx.branchesAt ready)) (hn : ready.Nodup)
    (hready : ∀ i ∈ ready, ∃ b, tx.branches[i]? = some b)
    (hQ : ∀ σ' bs failed, σ'.snap = σ.snap →
      BatchDone σ' gid op onOk onErr tx.branches ready bs failed →
      Q σ' ({ tx with branches := bs }, failed)) :
    coordinator.Does (dtm.runBatch options onOk onErr
      (spawnAll options gid op url (tx.branchesAt ready)) tx) σ Q := by
  have hfst := branchesAt_map_fst hready
  have hin : InBatch σ gid op onOk onErr tx.branches ready
      ((spawnAll options gid op url (tx.branchesAt ready)).map fun task => (task, .spawned))
      tx.branches [] := by
    have := h.inBatch options onOk onErr url (fun p hp => branchesAt_getElem? hp)
      (by rw [hfst]; exact hn)
    rwa [hfst] at this
  refine does_joinBatch ?_ hin hQ
  simp [remaining, TaskStage.remaining, Function.comp_def, Nat.mul_comm]

end Claimed

end RozeDtm
