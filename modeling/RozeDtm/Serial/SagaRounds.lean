import RozeDtm.Conc.Discipline
import RozeDtm.Serial.SagaGraph

/-!
# The rounds of a concurrent Saga

The loops of `start_concurrent_saga` and `abort_concurrent_saga` have a bound on their rounds
in the model only.  A round of the one that goes on has added a branch to the Succeeded ones, a
round of the other has taken one from those that are Compensating, whatever the steps are
answered.  So the loops end by themselves before the bound is reached, and more of it does not
change them.
-/

namespace RozeDtm

open Conc

/-- Where the elements at a place no longer count and no others begin to, fewer of them count. -/
theorem countP_lt_of_place {p : Branch → Bool} {as bs : List Branch}
    (h : List.Forall₂ (fun a b => p b = true → p a = true) as bs) {j : Nat} {a b : Branch}
    (ha : as[j]? = some a) (hb : bs[j]? = some b) (hpa : p a = true) (hpb : p b = false) :
    bs.countP p < as.countP p := by
  have hle : ∀ {as bs : List Branch}, List.Forall₂ (fun a b => p b = true → p a = true) as bs →
      bs.countP p ≤ as.countP p := by
    intro as bs h
    induction h with
    | nil => exact Nat.le_refl _
    | @cons a b as bs hab _ ih =>
      rw [List.countP_cons, List.countP_cons]
      by_cases hpb : p b = true
      · rw [if_pos hpb, if_pos (hab hpb)]
        omega
      · rw [if_neg hpb]
        omega
  induction h generalizing j with
  | nil => cases ha
  | @cons a' b' as bs hab hrest ih =>
    rw [List.countP_cons, List.countP_cons]
    cases j with
    | zero =>
      cases ha
      cases hb
      rw [if_pos hpa, hpb, if_neg (by decide)]
      have hrest := hle hrest
      omega
    | succ j =>
      have hlt := ih ha hb
      by_cases hpb' : p b' = true
      · rw [if_pos hpb', if_pos (hab hpb')]
        omega
      · rw [if_neg hpb']
        omega

/-- What a batch makes of its branches, whatever the steps are answered. -/
structure Landing (onOk : BranchStatus) (as : List Branch) (ready : List Nat)
    (tasks : List (BatchTask × TaskStage)) (bs failed : List Branch) : Prop where
  returned : ∀ t ∈ tasks, ∀ b, t.2 = .returned b true → b.status = onOk
  places : ∀ t ∈ tasks, t.1.index ∈ ready
  length : bs.length = as.length
  others : ∀ j, j ∉ ready → bs[j]? = as[j]?
  landed : failed = [] → ∀ j ∈ ready, (∀ t ∈ tasks, t.1.index ≠ j) → ∀ b, bs[j]? = some b →
    b.status = onOk

section Landing

variable {onOk onErr : BranchStatus} {as bs failed : List Branch} {ready : List Nat}
  {l₁ l₂ : List (BatchTask × TaskStage)} {task : BatchTask} {stage stage' : TaskStage} {dtm : Dtm}
  {options : TransactionOptions} {tx : Transaction}

/-- One task goes on. -/
theorem Landing.advance (hl : Landing onOk as ready (l₁ ++ (task, stage) :: l₂) bs failed)
    (hstage : ∀ b, stage' = .returned b true → b.status = onOk) :
    Landing onOk as ready (l₁ ++ (task, stage') :: l₂) bs failed where
  returned := fun t ht => by
    rcases InBatch.cases_around ht with rfl | ht
    · exact hstage
    · exact hl.returned t (InBatch.mem_around ht)
  places := fun t ht => by
    rcases InBatch.cases_around ht with rfl | ht
    · exact hl.places (task, stage) (by simp)
    · exact hl.places t (InBatch.mem_around ht)
  length := hl.length
  others := hl.others
  landed := fun hf j hj hnone => hl.landed hf j hj fun t ht => by
    rcases InBatch.cases_around ht with rfl | ht
    · exact hnone (task, stage') (by simp)
    · exact hnone t (InBatch.mem_around ht)

/-- A task is joined. -/
theorem Landing.join {b : Branch} {failed' : List Branch}
    (hl : Landing onOk as ready (l₁ ++ (task, stage) :: l₂) bs failed)
    (hb : failed' = [] → failed = [] ∧ b.status = onOk) :
    Landing onOk as ready (l₁ ++ l₂) (bs.set task.index b) failed' where
  returned := fun t ht => hl.returned t (InBatch.mem_around ht)
  places := fun t ht => hl.places t (InBatch.mem_around ht)
  length := by rw [List.length_set, hl.length]
  others := fun j hj => by
    have hne : task.index ≠ j := fun h => hj (h ▸ hl.places (task, stage) (by simp))
    rw [List.getElem?_set_ne hne]
    exact hl.others j hj
  landed := fun hf j hj hnone a ha => by
    obtain ⟨hf', hst⟩ := hb hf
    by_cases hjt : task.index = j
    · rw [List.getElem?_set, if_pos hjt] at ha
      split at ha
      · cases ha
        exact hst
      · cases ha
    · rw [List.getElem?_set_ne hjt] at ha
      refine hl.landed hf' j hj (fun t ht => ?_) a ha
      rcases InBatch.cases_around ht with rfl | ht
      · exact hjt
      · exact hnone t ht

/-- **Joining a batch**, whatever the steps are answered. -/
theorem anyReply_joinBatch {fuel : Nat} {tasks : List (BatchTask × TaskStage)}
    {Q : Unit → Transaction × List Branch → Prop} (hfuel : remaining tasks ≤ fuel)
    (hl : Landing onOk as ready tasks bs failed)
    (hQ : ∀ bs failed, Landing onOk as ready [] bs failed → Q () ({ tx with branches := bs }, failed)) :
    anyReply.Does (dtm.joinBatch options onOk onErr fuel tasks { tx with branches := bs } failed)
      () Q := by
  induction fuel generalizing tasks bs failed with
  | zero =>
    cases tasks with
    | nil => exact Discipline.does_pure.mpr (hQ bs failed hl)
    | cons t ts => cases hstage : t.2 <;> simp [remaining, TaskStage.remaining, hstage] at hfuel
  | succ fuel ih =>
    cases tasks with
    | nil => exact Discipline.does_pure.mpr (hQ bs failed hl)
    | cons t ts =>
      simp only [Dtm.joinBatch]
      refine Discipline.does_bind.mpr (anyReply_call.mpr fun k => ?_)
      obtain ⟨l₁, l₂, haround, herase, hset⟩ := exists_around (t :: ts) k
      generalize (t :: ts).get k = event at haround
      obtain ⟨task, stage⟩ := event
      rw [haround] at hl hfuel
      have hle {stage' : TaskStage} (h : stage'.remaining + 1 = stage.remaining) :
          remaining (l₁ ++ (task, stage') :: l₂) ≤ fuel := by
        simp only [remaining, List.map_append, List.map_cons, List.sum_append, List.sum_cons]
          at hfuel ⊢
        omega
      cases stage with
      | spawned =>
        simp only [Dtm.advanceTask]
        refine Discipline.does_bind.mpr (Discipline.does_bind.mpr (anyReply_call.mpr fun _ => ?_))
        refine Discipline.does_pure.mpr ?_
        rw [hset]
        exact ih (hle rfl) (hl.advance fun _ h => by cases h)
      | calling =>
        simp only [Dtm.advanceTask]
        refine Discipline.does_bind.mpr (Discipline.does_bind.mpr (anyReply_call.mpr fun ok => ?_))
        refine Discipline.does_bind.mpr ?_
        cases ok with
        | true =>
          refine Discipline.does_pure.mpr (Discipline.does_pure.mpr ?_)
          rw [hset]
          refine ih (hle rfl) (hl.advance fun b h => ?_)
          cases h
          rfl
        | false =>
          simp only [Dtm.settleTask, Bool.false_eq_true, if_false]
          refine Discipline.does_bind.mpr (anyReply_call.mpr fun now => ?_)
          refine Discipline.does_pure.mpr (Discipline.does_pure.mpr ?_)
          rw [hset]
          exact ih (hle rfl) (hl.advance fun b h => by cases h)
      | returned b succeeded =>
        have hrest : remaining (l₁ ++ l₂) ≤ fuel := by
          simp only [remaining, List.map_append, List.map_cons, List.sum_append, List.sum_cons,
            TaskStage.remaining] at hfuel ⊢
          omega
        cases succeeded with
        | true =>
          simp only [if_true]
          rw [herase]
          refine ih hrest (hl.join fun hf => ⟨hf, ?_⟩)
          exact hl.returned (task, .returned b true) (by simp) b rfl
        | false =>
          simp only [Bool.false_eq_true, if_false]
          rw [herase]
          refine Discipline.does_bind.mpr (anyReply_call.mpr fun _ => ?_)
          refine ih hrest (hl.join fun hf => ?_)
          exact absurd hf (List.append_ne_nil_of_right_ne_nil _ (List.cons_ne_nil _ _))

/-- **A batch from its spawn to its last join**, whatever the steps are answered. -/
theorem anyReply_runBatch {gid op : String} (url : Branch → String)
    {Q : Unit → Transaction × List Branch → Prop}
    (hready : ∀ j ∈ ready, ∃ b, tx.branches[j]? = some b)
    (hQ : ∀ bs failed, Landing onOk tx.branches ready [] bs failed →
      Q () ({ tx with branches := bs }, failed)) :
    anyReply.Does (dtm.runBatch options onOk onErr
      (spawnAll options gid op url (tx.branchesAt ready)) tx) () Q := by
  have hplaces : ∀ j, j ∈ ready ↔
      ∃ t ∈ spawnAll options gid op url (tx.branchesAt ready), t.index = j := by
    intro j
    constructor
    · intro hj
      obtain ⟨b, hb⟩ := hready j hj
      exact ⟨_, List.mem_map_of_mem (mem_branchesAt.mpr ⟨hj, hb⟩), rfl⟩
    · rintro ⟨t, ht, rfl⟩
      obtain ⟨p, hp, rfl⟩ := List.mem_map.mp ht
      exact (mem_branchesAt.mp hp).1
  refine anyReply_joinBatch ?_ ⟨fun t ht b h => ?_, fun t ht => ?_, rfl, fun _ _ => rfl,
    fun _ j hj hnone => ?_⟩ hQ
  · simp [remaining, TaskStage.remaining, Function.comp_def, Nat.mul_comm]
  · obtain ⟨_, _, rfl⟩ := List.mem_map.mp ht
    cases h
  · obtain ⟨t', ht', rfl⟩ := List.mem_map.mp ht
    exact (hplaces t'.index).mpr ⟨t', ht', rfl⟩
  · obtain ⟨t, ht, rfl⟩ := (hplaces j).mp hj
    exact absurd rfl (hnone _ (List.mem_map_of_mem ht))

end Landing

section Rounds

variable {dtm : Dtm} {tx : Transaction} {ready : List Nat} {f : Branch → Branch}
  {onOk : BranchStatus} {bs : List Branch} {p : Branch → Bool} {fuel : Nat}

/-- **A batch in which no call failed** leaves fewer branches that still have to be called. -/
theorem Landing.countP_lt
    (hl : Landing onOk (tx.mapBranchesAt ready f).branches ready [] bs [])
    (hp : ∀ b : Branch, b.status = onOk → p b = false) (hne : ready ≠ [])
    (hready : ∀ j ∈ ready, ∃ b, tx.branches[j]? = some b ∧ p b = true) :
    bs.countP p < tx.branches.countP p := by
  have hlength : (tx.mapBranchesAt ready f).branches.length = tx.branches.length := by
    simp [Transaction.mapBranchesAt]
  obtain ⟨j, hj⟩ := List.exists_mem_of_ne_nil ready hne
  obtain ⟨a, ha, hpa⟩ := hready j hj
  obtain ⟨b, hb⟩ : ∃ b, bs[j]? = some b := by
    obtain ⟨hlt, -⟩ := List.getElem?_eq_some_iff.mp ha
    rw [← hlength, ← hl.length] at hlt
    exact ⟨_, List.getElem?_eq_getElem hlt⟩
  refine countP_lt_of_place (forall₂_of_getElem? (hl.length.trans hlength).symm ?_) ha hb hpa
    (hp b (hl.landed rfl j hj (fun t ht => by cases ht) b hb))
  intro k a b ha hb hpb
  by_cases hk : k ∈ ready
  · rw [hp b (hl.landed rfl k hk (fun t ht => by cases ht) b hb)] at hpb
    cases hpb
  · rw [hl.others k hk, getElem?_mapBranchesAt, ha, Option.map_some, if_neg hk] at hb
    cases hb
    exact hpb

/-- The branches of a batch are there when it is spawned. -/
theorem exists_mapBranchesAt_of_ready (hready : ∀ j ∈ ready, ∃ b, tx.branches[j]? = some b ∧
      p b = true) : ∀ j ∈ ready, ∃ b, (tx.mapBranchesAt ready f).written.branches[j]? = some b := by
  intro j hj
  obtain ⟨b, hb, -⟩ := hready j hj
  exact ⟨_, getElem?_mapBranchesAt.trans (by rw [hb]; rfl)⟩

/-- **One round more does not change the loop of `start_concurrent_saga`**, once there are more
rounds than branches that have not succeeded. -/
theorem startConcurrentSagaLoop_succ
    (hfuel : tx.branches.countP (fun b => b.status ≠ .succeeded) < fuel) :
    dtm.startConcurrentSagaLoop fuel tx = dtm.startConcurrentSagaLoop (fuel + 1) tx := by
  induction fuel generalizing tx with
  | zero => exact absurd hfuel (Nat.not_lt_zero _)
  | succ fuel ih =>
    rw [Dtm.startConcurrentSagaLoop, Dtm.startConcurrentSagaLoop.eq_2 dtm tx (fuel + 1)]
    split
    · rfl
    · dsimp only
      split
      · rfl
      rename_i hempty
      have hready : ∀ j ∈ tx.readyBranches, ∃ b, tx.branches[j]? = some b ∧
          decide (b.status ≠ .succeeded) = true := by
        intro j hj
        obtain ⟨b, hb, hst, -⟩ := mem_readyBranches_iff.mp hj
        exact ⟨b, hb, by rcases hst with h | h <;> rw [h] <;> decide⟩
      refine congrArg _ (funext fun claimed => ?_)
      cases claimed with
      | false => rfl
      | true =>
        rw [if_pos rfl, if_pos rfl]
        refine Discipline.bind_congr (anyReply_persistTransaction ?_)
        refine Discipline.bind_congr (anyReply_runBatch Branch.action
          (exists_mapBranchesAt_of_ready hready) fun bs failed hl => ?_)
        dsimp only
        split
        · rfl
        · refine Discipline.bind_congr (anyReply_persistTransaction ?_)
          cases failed with
          | cons b failed => rfl
          | nil =>
            refine ih ?_
            have hlt := hl.countP_lt (by simp) (by simpa using hempty) hready
            exact Nat.lt_of_lt_of_le hlt (Nat.le_of_lt_succ hfuel)

/-- **One round more does not change the loop of `abort_concurrent_saga`**, once there are more
rounds than branches that are Compensating. -/
theorem abortConcurrentSagaLoop_succ
    (hfuel : tx.branches.countP (fun b => b.status = .compensating) < fuel) :
    dtm.abortConcurrentSagaLoop fuel tx = dtm.abortConcurrentSagaLoop (fuel + 1) tx := by
  induction fuel generalizing tx with
  | zero => exact absurd hfuel (Nat.not_lt_zero _)
  | succ fuel ih =>
    rw [Dtm.abortConcurrentSagaLoop, Dtm.abortConcurrentSagaLoop.eq_2 dtm tx (fuel + 1)]
    split
    · rfl
    · dsimp only
      split
      · rfl
      rename_i hempty
      have hready : ∀ j ∈ tx.readyCompensations, ∃ b, tx.branches[j]? = some b ∧
          decide (b.status = .compensating) = true := by
        intro j hj
        obtain ⟨b, hb, hst, -⟩ := mem_readyCompensations_iff.mp hj
        exact ⟨b, hb, decide_eq_true hst⟩
      refine congrArg _ (funext fun claimed => ?_)
      cases claimed with
      | false => rfl
      | true =>
        rw [if_pos rfl, if_pos rfl]
        refine Discipline.bind_congr (anyReply_persistTransaction ?_)
        -- the tasks end at the first branch without a compensation URL
        set base := (tx.mapBranchesAt tx.readyCompensations fun branch =>
          { branch with attempts := satAdd32 branch.attempts 1 }).written
        have hfst := compensationTasks_fst base (base.branchesAt tx.readyCompensations)
        have hsnd := @compensationTasks_snd base (base.branchesAt tx.readyCompensations)
        generalize Dtm.compensationTasks _ _ = tasks at hfst hsnd ⊢
        obtain ⟨tasks, missing⟩ := tasks
        cases missing with
        | some error => rfl
        | none =>
          dsimp only at hfst hsnd ⊢
          rw [hfst, hsnd rfl]
          refine Discipline.bind_congr (anyReply_runBatch _ (exists_mapBranchesAt_of_ready hready)
            fun bs failed hl => Discipline.bind_congr (anyReply_persistTransaction ?_))
          cases failed with
          | cons b failed => rfl
          | nil =>
            refine ih ?_
            have hlt := hl.countP_lt (fun b h => by rw [h]; rfl) (by simpa using hempty) hready
            exact Nat.lt_of_lt_of_le hlt (Nat.le_of_lt_succ hfuel)

/-- A loop that one round more does not change from `n` rounds on does not change by any
number of them. -/
theorem loop_add {α : Type} {loop : Nat → α} {n : Nat}
    (h : ∀ m, n ≤ m → loop m = loop (m + 1)) (k : Nat) : loop (n + k) = loop n := by
  induction k with
  | zero => rfl
  | succ k ih => rw [← ih, h (n + k) (Nat.le_add_right n k), Nat.add_assoc]

/-- **The loop of `start_concurrent_saga` ends** in one round more than there are branches. -/
theorem startConcurrentSagaLoop_rounds (k : Nat) :
    dtm.startConcurrentSagaLoop (tx.branches.length + 1 + k) tx =
      dtm.startConcurrentSagaLoop (tx.branches.length + 1) tx :=
  @loop_add _ (fun n => dtm.startConcurrentSagaLoop n tx) _ (fun _ hm =>
    startConcurrentSagaLoop_succ (Nat.lt_of_le_of_lt List.countP_le_length hm)) k

/-- **The loop of `abort_concurrent_saga` ends** in one round more than there are branches. -/
theorem abortConcurrentSagaLoop_rounds (k : Nat) :
    dtm.abortConcurrentSagaLoop (tx.branches.length + 1 + k) tx =
      dtm.abortConcurrentSagaLoop (tx.branches.length + 1) tx :=
  @loop_add _ (fun n => dtm.abortConcurrentSagaLoop n tx) _ (fun _ hm =>
    abortConcurrentSagaLoop_succ (Nat.lt_of_le_of_lt List.countP_le_length hm)) k

end Rounds

end RozeDtm
