import RozeDtm.Model.Coordinator.Message
import RozeDtm.Trail.Phase2

/-!
# Batches and Messages write what has developed

A task of a batch carries on the branch that it was spawned with, and joining it puts that
branch in its place.  So at any point of a batch the local record has developed from the
record that the batch was spawned on.
-/

namespace RozeDtm

open Conc

/-- A task of a batch on `base`, as far as it has come. -/
structure Trail.Task (σ : Trail) (C : BranchCall → Prop) (base : Transaction) (op : String)
    (t : BatchTask × TaskStage) : Prop where
  call : C t.1.call
  place : base.branches[t.1.index]? = some t.1.branch
  barrier : t.1.call.barrier = t.1.branch.key base.gid op
  returned : ∀ b ok, t.2 = .returned b ok →
    Branch.Develops σ.won base.gid base.kind t.1.branch b

section Batch

variable {dtm : Dtm} {C : BranchCall → Prop} {σ : Trail} {base : Transaction} {op : String}
  {options : TransactionOptions} {onOk onErr : BranchStatus}

theorem Trail.Task.addWon {t : BatchTask × TaskStage} (h : σ.Task C base op t) (b : BranchBarrier) :
    (σ.addWon b).Task C base op t :=
  ⟨h.call, h.place, h.barrier, fun b' ok hr => (h.returned b' ok hr).mono (Set.subset_insert b σ.won)⟩

/-- **One step of a task.** -/
theorem developing_advanceTask {t : BatchTask × TaskStage} {Q : Trail → TaskStage → Prop}
    (hop : op ∈ base.kind.forwardOps ∨ onOk ≠ .succeeded)
    (herr : onErr = .failed ∨ onErr = .compensating) (h : σ.Task C base op t)
    (hQ : ∀ σ' stage, (σ' = σ ∨ σ' = σ.addWon t.1.call.barrier) → σ'.Task C base op (t.1, stage) →
      Q σ' stage) :
    (developing C).Does (dtm.advanceTask options onOk onErr t.1 t.2) σ Q := by
  obtain ⟨task, stage⟩ := t
  cases stage with
  | spawned =>
    rw [Dtm.advanceTask, Discipline.does_bind]
    refine developing_call.mpr ⟨h.call, fun _ => Discipline.does_pure.mpr ?_⟩
    exact hQ σ _ (Or.inl rfl) ⟨h.call, h.place, h.barrier, fun _ _ hr => by cases hr⟩
  | calling =>
    simp only [Dtm.advanceTask, Discipline.does_bind]
    refine developing_call.mpr ⟨trivial, fun (r : Bool) => ?_⟩
    cases r with
    | true =>
      simp only [Dtm.settleTask, if_true, Discipline.does_pure]
      refine hQ _ _ (Or.inr rfl) ⟨h.call, h.place, h.barrier, fun b ok hr => ?_⟩
      cases hr
      rcases hop with hop | hne
      · refine .won op rfl rfl hop ?_
        rw [← h.barrier]
        exact Set.mem_insert _ _
      · exact .ended rfl rfl hne
    | false =>
      simp only [Dtm.settleTask, Bool.false_eq_true, if_false, Discipline.does_bind,
        Discipline.does_pure]
      refine developing_currentMillis.mpr fun now => ?_
      refine hQ σ _ (Or.inl rfl) ⟨h.call, h.place, h.barrier, fun b ok hr => ?_⟩
      cases hr
      refine .retry rfl ?_
      rcases herr with rfl | rfl <;> rfl
  | returned b ok => exact Discipline.does_pure.mpr (hQ σ _ (Or.inl rfl) h)

/-- The branch of a joined task is put in its place. -/
theorem forall₂_set {α : Type} {R : α → α → Prop} {as bs : List α} {j : Nat} {a b : α}
    (h : List.Forall₂ R as bs) (ha : as[j]? = some a) (hab : R a b) :
    List.Forall₂ R as (bs.set j b) := by
  refine forall₂_of_getElem? (by rw [List.length_set, h.length_eq]) fun i a' b' ha' hb' => ?_
  by_cases hij : j = i
  · subst hij
    cases ha.symm.trans ha'
    rw [List.getElem?_set] at hb'
    split at hb'
    · split at hb'
      · cases hb'
        exact hab
      · cases hb'
    · contradiction
  · rw [List.getElem?_set_ne hij] at hb'
    obtain ⟨hi, hb'⟩ := List.getElem?_eq_some_iff.mp hb'
    obtain ⟨hi', ha'⟩ := List.getElem?_eq_some_iff.mp ha'
    subst hb' ha'
    exact h.get hi' hi

/-- **Joining a batch.** -/
theorem developing_joinBatch {fuel : Nat} {tasks : List (BatchTask × TaskStage)}
    {bs failed : List Branch} {Q : Trail → Transaction × List Branch → Prop}
    (hop : op ∈ base.kind.forwardOps ∨ onOk ≠ .succeeded)
    (herr : onErr = .failed ∨ onErr = .compensating) (hbase : σ.From base)
    (hbs : List.Forall₂ (Branch.Develops σ.won base.gid base.kind) base.branches bs)
    (htasks : ∀ t ∈ tasks, σ.Task C base op t)
    (hQ : ∀ σ' bs failed, σ'.From { base with branches := bs } →
      Q σ' ({ base with branches := bs }, failed)) :
    (developing C).Does
      (dtm.joinBatch options onOk onErr fuel tasks { base with branches := bs } failed) σ Q := by
  have hdone {σ : Trail} {bs failed : List Branch} (hbase : σ.From base)
      (hbs : List.Forall₂ (Branch.Develops σ.won base.gid base.kind) base.branches bs) :
      Q σ ({ base with branches := bs }, failed) :=
    hQ σ bs failed (hbase.trans (.change base.status hbs))
  induction fuel generalizing σ tasks bs failed with
  | zero => exact Discipline.does_pure.mpr (hdone hbase hbs)
  | succ fuel ih =>
    cases tasks with
    | nil => exact Discipline.does_pure.mpr (hdone hbase hbs)
    | cons t ts =>
      simp only [Dtm.joinBatch, Discipline.does_bind, developing_joinNext]
      intro k
      have hk := htasks _ (List.get_mem (t :: ts) k)
      have herase : ∀ q ∈ (t :: ts).eraseIdx k, σ.Task C base op q :=
        fun q hq => htasks q (List.mem_of_mem_eraseIdx hq)
      split
      · rename_i task branch succeeded heq
        rw [heq] at hk
        have hset := forall₂_set hbs hk.place (hk.returned branch succeeded rfl)
        split
        · exact ih hbase hset herase
        · simp only [Discipline.does_bind, developing_releaseBarrier]
          exact ih hbase hset herase
      · rename_i task stage _ heq
        rw [heq] at hk
        rw [Discipline.does_bind]
        refine developing_advanceTask hop herr hk fun σ' stage' hσ' hstage => ?_
        rcases hσ' with rfl | rfl
        · refine ih hbase hbs fun q hq => ?_
          rcases List.mem_or_eq_of_mem_set hq with hq | rfl
          · exact htasks q hq
          · exact hstage
        · refine ih (hbase.addWon _) (hbs.imp fun _ _ h => h.mono (Set.subset_insert _ _))
            fun q hq => ?_
          rcases List.mem_or_eq_of_mem_set hq with hq | rfl
          · exact (htasks q hq).addWon _
          · exact hstage

/-- **A batch from its spawn to its last join.** -/
theorem developing_runBatch {ready : List Nat} (url : Branch → String)
    {Q : Trail → Transaction × List Branch → Prop} (hC : ∀ c, c.op = op → C c)
    (hop : op ∈ base.kind.forwardOps ∨ onOk ≠ .succeeded)
    (herr : onErr = .failed ∨ onErr = .compensating) (hbase : σ.From base)
    (hQ : ∀ σ' bs failed, σ'.From { base with branches := bs } →
      Q σ' ({ base with branches := bs }, failed)) :
    (developing C).Does (dtm.runBatch options onOk onErr
      (spawnAll options base.gid op url (base.branchesAt ready)) base) σ Q := by
  refine developing_joinBatch hop herr hbase (List.forall₂_same.mpr fun b _ => .refl b)
    (fun t ht => ?_) hQ
  obtain ⟨_, htask, rfl⟩ := List.mem_map.mp ht
  obtain ⟨p, hp, rfl⟩ := List.mem_map.mp htask
  exact ⟨hC _ rfl, branchesAt_getElem? hp, rfl, fun _ _ hr => nomatch hr⟩

theorem developing_abandonBatch {fuel : Nat} {tasks : List (BatchTask × TaskStage)}
    (hcalls : ∀ t ∈ tasks, C t.1.call) :
    (developing C).Does (dtm.abandonBatch options onOk onErr fuel tasks) σ (fun _ _ => True) := by
  induction fuel generalizing σ tasks with
  | zero => exact Discipline.does_pure.mpr trivial
  | succ fuel ih =>
    simp only [Dtm.abandonBatch, Discipline.does_bind, developing_joinNext]
    intro k
    split
    · exact Discipline.does_pure.mpr trivial
    · rename_i task stage hk
      have hk := hcalls _ (List.mem_of_getElem? hk)
      have hrest {stage' : TaskStage} : ∀ t ∈ tasks.set k.val (task, stage'), C t.1.call := by
        intro t ht
        rcases List.mem_or_eq_of_mem_set ht with ht | rfl
        · exact hcalls t ht
        · exact hk
      rw [Discipline.does_bind]
      cases stage with
      | spawned =>
        rw [Dtm.advanceTask, Discipline.does_bind]
        exact developing_call.mpr ⟨hk, fun _ => Discipline.does_pure.mpr (ih hrest)⟩
      | calling =>
        simp only [Dtm.advanceTask, Discipline.does_bind]
        refine developing_call.mpr ⟨trivial, fun (r : Bool) => ?_⟩
        cases r with
        | true =>
          simp only [Dtm.settleTask, if_true, Discipline.does_pure]
          exact ih hrest
        | false =>
          simp only [Dtm.settleTask, Bool.false_eq_true, if_false, Discipline.does_bind,
            Discipline.does_pure]
          exact developing_currentMillis.mpr fun _ => ih hrest
      | returned b ok => exact Discipline.does_pure.mpr (ih hrest)

/-- Taking the barriers of a batch leaves no trail. -/
theorem developing_claimBatch {gid op : String} {claimed : List BranchBarrier} {ids : List String}
    {Q : Trail → Bool → Prop} (hQ : ∀ r, Q σ r) :
    (developing C).Does (claimBatch gid op claimed ids) σ Q := by
  have hrelease {bs : List BranchBarrier} : (developing C).Does (claimBatch.releaseAll bs) σ
      (fun σ' _ => σ' = σ) := by
    induction bs with
    | nil => exact Discipline.does_pure.mpr rfl
    | cons b rest ih =>
      rw [claimBatch.releaseAll, Discipline.does_bind, developing_releaseBarrier]
      exact ih
  induction ids generalizing claimed with
  | nil => exact Discipline.does_pure.mpr (hQ _)
  | cons id ids ih =>
    simp only [claimBatch, Discipline.does_bind, developing_barrier]
    intro d
    split
    · rw [Discipline.does_bind]
      refine hrelease.mono fun σ' _ hσ => Discipline.does_pure.mpr ?_
      subst hσ
      exact hQ _
    · exact ih

end Batch

/-! ### Messages -/

section Message

variable {dtm : Dtm} {C : BranchCall → Prop} {σ : Trail} {gid : String} {tx : Transaction}

theorem developing_prepareMessage :
    (developing C).Does (Dtm.prepareMessage gid) σ (fun _ _ => True) := by
  simp only [Dtm.prepareMessage, Discipline.does_bind, developing_transactionOfKind]
  intro tx _
  split
  · exact Discipline.does_pure.mpr trivial
  · simp only [Discipline.does_bind, does_ofExcept]
    exact fun _ _ => developing_persistTransaction ((σ.from_addRead tx).status _) trivial

theorem developing_abortMessage :
    (developing C).Does (Dtm.abortMessage gid) σ (fun _ _ => True) := by
  simp only [Dtm.abortMessage, Discipline.does_bind, developing_transactionOfKind]
  intro tx _
  split
  · exact Discipline.does_pure.mpr trivial
  · simp only [Discipline.does_bind, does_ofExcept]
    refine fun _ _ => developing_persistTransaction ?_ trivial
    exact (σ.from_addRead tx).map _ fun b _ => .dropped rfl rfl rfl

theorem developing_dispatchMessageLoop (hC : ∀ c, c.op = "message" → C c) (hk : tx.kind = .message)
    {passed ahead : List Branch} (h : σ.From { tx with branches := passed ++ ahead }) :
    (developing C).Does (dtm.dispatchMessageLoop tx passed ahead) σ (fun _ _ => True) := by
  induction ahead generalizing σ passed with
  | nil =>
    rw [List.append_nil] at h
    exact developing_persistTransaction (h.status .succeeded) trivial
  | cons branch ahead ih =>
    rw [Dtm.dispatchMessageLoop]
    split
    · exact ih (h.pass (.refl branch))
    · simp only [Discipline.does_bind, developing_barrier]
      intro d
      split
      · simp only [Discipline.does_bind]
        refine developing_invokeBranch (hC _ rfl) (ih ?_) fun b hb => ?_
        · exact (h.addWon _).pass (.won "message" rfl rfl (mem_forwardOps hk (by decide))
            (Set.mem_insert _ _))
        · simp only [Bool.false_eq_true, if_false, Discipline.does_bind,
            developing_releaseBarrier]
          exact developing_persistTransaction (h.carry _ (.retry hb rfl)) trivial
      · exact ih (h.pass (.refl branch))

theorem developing_dispatchMessageConcurrent (hC : ∀ c, c.op = "message" → C c)
    (hk : tx.kind = .message) (h : σ.From tx) :
    (developing C).Does (dtm.dispatchMessageConcurrent tx) σ (fun _ _ => True) := by
  simp only [Dtm.dispatchMessageConcurrent]
  split
  · exact developing_persistTransaction (h.status _) trivial
  · rw [Discipline.does_bind]
    refine developing_claimBatch fun claimed => ?_
    split
    · rw [Discipline.does_bind]
      have hrun := (h.mapAt tx.undelivered (f := fun branch =>
        { branch with status := .running, attempts := satAdd32 branch.attempts 1 })
        fun b => .retry rfl rfl).written
      refine developing_persistTransaction (h.mapAt _ fun b => .retry rfl rfl) ?_
      rw [Discipline.does_bind]
      refine developing_runBatch Branch.action hC (Or.inl (mem_forwardOps (by exact hk) (by decide)))
        (Or.inl rfl) hrun fun σ' bs failed h' => ?_
      exact developing_persistTransaction (h'.status _) trivial
    · exact developing_loadTransaction.mpr fun _ => trivial

theorem developing_dispatchMessage (hC : ∀ c, c.op = "message" → C c) :
    (developing C).Does (dtm.dispatchMessage gid) σ (fun _ _ => True) := by
  simp only [Dtm.dispatchMessage, Discipline.does_bind, developing_transactionOfKind]
  intro tx hk
  split
  · exact Discipline.does_pure.mpr trivial
  · simp only [Discipline.does_bind, does_ofExcept]
    intro _ _
    have hrest {tx' : Transaction} (hk' : tx'.kind = .message) (h : (σ.addRead tx).From tx') :
        (developing C).Does (do
          let now ← currentMillis
          if !messageDispatchDue tx' now then pure tx'
          else if tx'.options.concurrent then dtm.dispatchMessageConcurrent tx'
          else dtm.dispatchMessageLoop tx' [] tx'.branches) (σ.addRead tx) (fun _ _ => True) := by
      simp only [Discipline.does_bind, developing_currentMillis]
      intro now
      split
      · exact Discipline.does_pure.mpr trivial
      · split
        · exact developing_dispatchMessageConcurrent hC hk' h
        · exact developing_dispatchMessageLoop hC hk' h
    split
    · rw [Discipline.does_bind]
      have h := (σ.from_addRead tx).status .succeeding
      exact developing_persistTransaction h (hrest hk h.written)
    · rw [Discipline.does_bind]
      exact Discipline.does_pure.mpr (hrest hk (σ.from_addRead tx))

end Message

end RozeDtm
