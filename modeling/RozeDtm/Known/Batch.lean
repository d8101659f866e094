import RozeDtm.Known.Basic
import RozeDtm.Model.Coordinator.Message
import RozeDtm.Trail.Batch

/-!
# Batches and Messages on a known record

Delivering a Message and joining a batch never stop with an error: a call that fails is recorded
in its branch.
-/

namespace RozeDtm

open Conc

/-! ### Batches -/

/-- A task of a batch on `base`, as far as it has come: it has the definition of its branch. -/
structure KnownTask (base : Transaction) (t : BatchTask × TaskStage) : Prop where
  place : base.branches[t.1.index]? = some t.1.branch
  returned : ∀ b ok, t.2 = .returned b ok → b.definition = t.1.branch.definition

section Batch

variable {dtm : Dtm} {gid : String} {σ base : Transaction} {options : TransactionOptions}
  {onOk onErr : BranchStatus}

/-- **One step of a task.** -/
theorem knowing_advanceTask {t : BatchTask × TaskStage} {Q : Transaction → TaskStage → Prop}
    (h : KnownTask base t) (hQ : ∀ stage, KnownTask base (t.1, stage) → Q σ stage) :
    (knowing gid).Yields (dtm.advanceTask options onOk onErr t.1 t.2) σ Q := by
  obtain ⟨task, stage⟩ := t
  cases stage with
  | spawned =>
    simp only [Dtm.advanceTask, Discipline.yields_bind, knowing_invokeBegin,
      Discipline.yields_pure]
    exact hQ _ ⟨h.place, fun _ _ hr => by cases hr⟩
  | calling =>
    simp only [Dtm.advanceTask, Discipline.yields_bind, knowing_invokeEnd]
    intro ok
    cases ok with
    | true =>
      simp only [Dtm.settleTask, if_true, Discipline.yields_pure]
      refine hQ _ ⟨h.place, fun b ok hr => ?_⟩
      cases hr
      rfl
    | false =>
      simp only [Dtm.settleTask, Bool.false_eq_true, if_false, Discipline.yields_bind,
        knowing_currentMillis, Discipline.yields_pure]
      intro now
      refine hQ _ ⟨h.place, fun b ok hr => ?_⟩
      cases hr
      rfl
  | returned b ok => exact Discipline.yields_pure.mpr (hQ _ h)

/-- **Joining a batch.** -/
theorem knowing_joinBatch {fuel : Nat} {tasks : List (BatchTask × TaskStage)}
    {bs failed : List Branch} {Q : Transaction → Transaction × List Branch → Prop}
    (hbs : SameBranches base.branches bs) (htasks : ∀ t ∈ tasks, KnownTask base t)
    (hQ : ∀ bs failed, SameBranches base.branches bs → Q σ ({ base with branches := bs }, failed)) :
    (knowing gid).Yields
      (dtm.joinBatch options onOk onErr fuel tasks { base with branches := bs } failed) σ Q := by
  induction fuel generalizing tasks bs failed with
  | zero => exact Discipline.yields_pure.mpr (hQ bs failed hbs)
  | succ fuel ih =>
    cases tasks with
    | nil => exact Discipline.yields_pure.mpr (hQ bs failed hbs)
    | cons t ts =>
      simp only [Dtm.joinBatch, Discipline.yields_bind, knowing_joinNext]
      intro k
      have hk := htasks _ (List.get_mem (t :: ts) k)
      have herase : ∀ q ∈ (t :: ts).eraseIdx k, KnownTask base q :=
        fun q hq => htasks q (List.mem_of_mem_eraseIdx hq)
      split
      · rename_i task branch succeeded heq
        rw [heq] at hk
        have hset : SameBranches base.branches (bs.set task.index branch) :=
          forall₂_set hbs hk.place (hk.returned branch succeeded rfl)
        split
        · exact ih hset herase
        · simp only [Discipline.yields_bind, knowing_releaseBarrier]
          exact ih hset herase
      · rename_i task stage _ heq
        rw [heq] at hk
        rw [Discipline.yields_bind]
        apply knowing_advanceTask hk
        intro stage' hstage
        apply ih hbs
        intro q hq
        rcases List.mem_or_eq_of_mem_set hq with hq | rfl
        · exact htasks q hq
        · exact hstage

/-- **A batch from its spawn to its last join.** -/
theorem knowing_runBatch {ready : List Nat} {gid' op : String} (url : Branch → String)
    {Q : Transaction → Transaction × List Branch → Prop}
    (hQ : ∀ bs failed, SameBranches base.branches bs → Q σ ({ base with branches := bs }, failed)) :
    (knowing gid).Yields (dtm.runBatch options onOk onErr
      (spawnAll options gid' op url (base.branchesAt ready)) base) σ Q := by
  apply knowing_joinBatch (.refl base.branches) _ hQ
  intro t ht
  obtain ⟨_, htask, rfl⟩ := List.mem_map.mp ht
  obtain ⟨p, hp, rfl⟩ := List.mem_map.mp htask
  exact ⟨branchesAt_getElem? hp, fun _ _ hr => nomatch hr⟩

theorem knowing_claimBatch {gid' op : String} {claimed : List BranchBarrier} {ids : List String}
    {Q : Transaction → Bool → Prop} (hQ : ∀ r, Q σ r) :
    (knowing gid).Yields (claimBatch gid' op claimed ids) σ Q := by
  have hrelease {bs : List BranchBarrier} : (knowing gid).Yields (claimBatch.releaseAll bs) σ
      (fun σ' _ => σ' = σ) := by
    induction bs with
    | nil => exact Discipline.yields_pure.mpr rfl
    | cons b rest ih =>
      rw [claimBatch.releaseAll, Discipline.yields_bind, knowing_releaseBarrier]
      exact ih
  induction ids generalizing claimed with
  | nil => exact Discipline.yields_pure.mpr (hQ _)
  | cons id ids ih =>
    simp only [claimBatch, Discipline.yields_bind, knowing_barrier]
    intro d _
    split
    · rw [Discipline.yields_bind]
      apply hrelease.mono
      rintro σ' _ rfl
      exact Discipline.yields_pure.mpr (hQ _)
    · exact ih

end Batch

/-! ### Messages -/

/-- The operation answers with a transaction under `gid`. -/
abbrev Answers (gid : String) : Transaction → Transaction → Prop := fun _ tx => tx.gid = gid

section Message

variable {dtm : Dtm} {gid : String} {σ tx : Transaction}

/-- Writing the record and answering with it. -/
theorem knowing_answer (hg : tx.gid = gid) :
    (knowing gid).Yields (persistTransaction tx) σ (Answers gid) :=
  knowing_persistTransaction hg hg

/-- Answering with the record as it is stored. -/
theorem knowing_reload (hg : σ.gid = gid) :
    (knowing gid).Yields (loadTransaction gid) σ (Answers gid) := by
  rw [knowing_loadTransaction]
  rintro tx ⟨revision, updated, rfl⟩
  exact hg

theorem knowing_prepareMessage (hg : σ.gid = gid) (hk : σ.kind = .message)
    (hst : σ.status = .submitted ∨ σ.status = .prepared) :
    (knowing gid).Yields (Dtm.prepareMessage gid) σ (Answers gid) := by
  rw [Dtm.prepareMessage, Discipline.yields_bind]
  apply knowing_transactionOfKind hk
  rintro tx ⟨revision, updated, rfl⟩
  split
  · exact Discipline.yields_pure.mpr hg
  · rename_i hprepared
    rw [Discipline.yields_bind]
    refine ⟨(), ensureStatus_eq_ok.mpr ?_, knowing_answer hg⟩
    exact List.mem_singleton.mpr (hst.resolve_right hprepared)

theorem knowing_abortMessage (hg : σ.gid = gid) (hk : σ.kind = .message)
    (hst : σ.status = .submitted ∨ σ.status = .prepared) :
    (knowing gid).Yields (Dtm.abortMessage gid) σ (Answers gid) := by
  rw [Dtm.abortMessage, Discipline.yields_bind]
  apply knowing_transactionOfKind hk
  rintro tx ⟨revision, updated, rfl⟩
  split
  · exact Discipline.yields_pure.mpr hg
  · rw [Discipline.yields_bind]
    refine ⟨(), ensureStatus_eq_ok.mpr ?_, knowing_answer hg⟩
    rcases hst with h | h
    · exact List.mem_cons.mpr (Or.inl h)
    · exact List.mem_cons.mpr (Or.inr (List.mem_singleton.mpr h))

theorem knowing_dispatchMessageLoop (hg : tx.gid = gid) {passed ahead : List Branch} :
    (knowing gid).Yields (dtm.dispatchMessageLoop tx passed ahead) σ (Answers gid) := by
  induction ahead generalizing passed with
  | nil => exact knowing_answer hg
  | cons branch ahead ih =>
    rw [Dtm.dispatchMessageLoop]
    split
    · exact ih
    · rw [Discipline.yields_bind, knowing_barrier]
      intro d _
      split
      · rw [Discipline.yields_bind]
        apply knowing_invokeBranch
        · exact ih
        · intro b _ _
          simp only [Bool.false_eq_true, if_false, Discipline.yields_bind,
            knowing_releaseBarrier]
          exact knowing_answer hg
      · exact ih

theorem knowing_dispatchMessageConcurrent (hσ : σ.gid = gid) (hg : tx.gid = gid) :
    (knowing gid).Yields (dtm.dispatchMessageConcurrent tx) σ (Answers gid) := by
  simp only [Dtm.dispatchMessageConcurrent]
  split
  · exact knowing_answer hg
  · rw [Discipline.yields_bind]
    apply knowing_claimBatch
    intro claimed
    split
    · rw [Discipline.yields_bind]
      refine knowing_persistTransaction (show (tx.mapBranchesAt _ _).gid = gid from hg) ?_
      rw [Discipline.yields_bind]
      apply knowing_runBatch Branch.action
      intro bs failed _
      exact knowing_answer hg
    · rw [hg]
      exact knowing_reload hσ

theorem knowing_dispatchMessage (hg : σ.gid = gid) (hk : σ.kind = .message)
    (hst : σ.status ∈ [TransactionStatus.submitted, .prepared, .succeeding]) :
    (knowing gid).Yields (dtm.dispatchMessage gid) σ (Answers gid) := by
  have hrest {σ' tx : Transaction} (hσ : σ'.gid = gid) (htx : tx.gid = gid) :
      (knowing gid).Yields (do
        let now ← currentMillis
        if !messageDispatchDue tx now then pure tx
        else if tx.options.concurrent then dtm.dispatchMessageConcurrent tx
        else dtm.dispatchMessageLoop tx [] tx.branches) σ' (Answers gid) := by
    simp only [Discipline.yields_bind, knowing_currentMillis]
    intro now
    split
    · exact Discipline.yields_pure.mpr htx
    · split
      · exact knowing_dispatchMessageConcurrent hσ htx
      · exact knowing_dispatchMessageLoop htx
  rw [Dtm.dispatchMessage, Discipline.yields_bind]
  apply knowing_transactionOfKind hk
  rintro tx ⟨revision, updated, rfl⟩
  split
  · exact Discipline.yields_pure.mpr hg
  · rw [Discipline.yields_bind]
    refine ⟨(), ensureStatus_eq_ok.mpr hst, ?_⟩
    split
    · rw [Discipline.yields_bind]
      exact knowing_persistTransaction hg (hrest hg hg)
    · rw [Discipline.yields_bind, Discipline.yields_pure]
      exact hrest hg hg

end Message

end RozeDtm
