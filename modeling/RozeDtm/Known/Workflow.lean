import Mathlib.Data.List.TakeWhile
import RozeDtm.Known.Saga
import RozeDtm.Model.Coordinator.Workflow
import RozeDtm.Session.Workflow

/-!
# Workflows on a known record

A Workflow whose branches have not been called, or have succeeded, always has a branch that can
be started until all have succeeded, so `start_workflow` does not stop with an error.
-/

namespace RozeDtm

open Conc

/-- **A Workflow is not stuck** before all its branches have succeeded. -/
theorem nextWorkflowBranch_ne_none {tx : Transaction} (hk : tx.kind = .workflow)
    (hvalid : validateTransactionDependencies tx = .ok ())
    (hst : ∀ b ∈ tx.branches, b.status = .pending ∨ b.status = .failed ∨ b.status = .succeeded)
    (hnext : tx.nextWorkflowBranch = none) : ∀ b ∈ tx.branches, b.status = .succeeded := by
  obtain ⟨name, hgraph⟩ := validateDependencyGraph_of_validate (Or.inl hk) hvalid
  obtain ⟨rank, hrank⟩ := exists_rank_of_validateDependencyGraph hgraph
  simp only [Transaction.nextWorkflowBranch] at hnext
  split at hnext
  · rename_i hdrop
    -- by the rank: what a branch depends on has succeeded, so it could be started
    suffices h : ∀ n, ∀ b ∈ tx.branches, rank b.id = n → b.status = .succeeded from
      fun b hb => h _ b hb rfl
    intro n
    induction n using Nat.strongRecOn with
    | ind n ih =>
      intro b hb hn
      have hnot := List.dropWhile_eq_nil_iff.mp hdrop b hb
      by_contra hne
      have hopen : b.status = .pending ∨ b.status = .failed := by
        rcases hst b hb with h | h | h
        · exact Or.inl h
        · exact Or.inr h
        · exact absurd h hne
      have hdeps : (b.dependencies.all fun dependency =>
          ((tx.branches.filter fun branch => branch.status = .succeeded).map Branch.id).contains
            dependency) = true := by
        rw [List.all_eq_true]
        intro d hd
        obtain ⟨a, ha, rfl⟩ := exists_of_validateDependencyGraph hgraph hb hd
        have hlt : rank a.id < n := by
          rw [← hn]
          exact hrank b.id a.id ⟨b, hb, rfl, hd⟩
        rw [List.contains_iff_mem]
        exact List.mem_map.mpr ⟨a, List.mem_filter.mpr
          ⟨ha, decide_eq_true (ih _ hlt a ha rfl)⟩, rfl⟩
      rw [hdeps, Bool.and_true, Bool.not_eq_true', Bool.or_eq_false_iff,
        decide_eq_false_iff_not, decide_eq_false_iff_not] at hnot
      rcases hopen with h | h
      · exact hnot.1 h
      · exact hnot.2 h
  · cases hnext

section Workflow

variable {dtm : Dtm} {gid : String} {σ tx : Transaction}

theorem knowing_prepareWorkflow (hg : σ.gid = gid) (hk : σ.kind = .workflow)
    (hst : σ.status = .submitted) :
    (knowing gid).Yields (Dtm.prepareWorkflow gid) σ (Answers gid) := by
  rw [Dtm.prepareWorkflow, Discipline.yields_bind]
  apply knowing_transactionOfKind hk
  rintro tx ⟨revision, updated, rfl⟩
  split
  · exact Discipline.yields_pure.mpr hg
  · rw [Discipline.yields_bind]
    refine ⟨(), ensureStatus_eq_ok.mpr ?_, knowing_answer hg⟩
    exact List.mem_singleton.mpr hst

theorem knowing_abortWorkflowLoop {ahead passed : List Branch} (hg : tx.gid = gid)
    (hc : ∀ b ∈ ahead, b.compensate ≠ none) :
    (knowing gid).Yields (dtm.abortWorkflowLoop tx ahead passed) σ (Answers gid) := by
  induction ahead generalizing passed with
  | nil => exact knowing_answer hg
  | cons branch ahead ih =>
    rw [List.forall_mem_cons] at hc
    rw [Dtm.abortWorkflowLoop]
    split
    · exact ih hc.2
    · simp only [Discipline.yields_bind, knowing_barrier]
      intro d _
      split
      · obtain ⟨compensate, hcompensate⟩ := Option.ne_none_iff_exists'.mp hc.1
        simp only [Discipline.yields_bind, yields_ofOption]
        refine ⟨compensate, hcompensate, ?_⟩
        apply knowing_invokeBranch
        · exact ih hc.2
        · intro b _ _
          simp only [Bool.false_eq_true, if_false, Discipline.yields_bind,
            knowing_releaseBarrier]
          exact knowing_answer hg
      · exact ih hc.2

/-- `abort_workflow`, from a status that it accepts. -/
theorem knowing_abortWorkflow (hundo : Undoable gid .workflow σ)
    (hst : σ.status ∈ [TransactionStatus.submitted, .prepared, .succeeding, .aborting]) :
    (knowing gid).Yields (dtm.abortWorkflow gid) σ (Answers gid) := by
  rw [Dtm.abortWorkflow, Discipline.yields_bind]
  apply knowing_transactionOfKind hundo.kind
  rintro tx ⟨revision, updated, rfl⟩
  split
  · exact Discipline.yields_pure.mpr hundo.gid
  · rw [Discipline.yields_bind]
    refine ⟨(), ensureStatus_eq_ok.mpr hst, ?_⟩
    exact knowing_abortWorkflowLoop hundo.gid fun b hb =>
      hundo.compensate b (List.mem_reverse.mp hb)

theorem knowing_startWorkflowLoop {fuel : Nat} (hσ : σ.gid = gid) (hundo : Undoable gid .workflow tx)
    (hst : ∀ b ∈ tx.branches, b.status = .pending ∨ b.status = .failed ∨ b.status = .succeeded) :
    (knowing gid).Yields (dtm.startWorkflowLoop gid fuel tx) σ (Answers gid) := by
  induction fuel generalizing σ tx with
  | zero => exact Discipline.yields_pure.mpr hundo.gid
  | succ fuel ih =>
    rw [Dtm.startWorkflowLoop]
    split
    · rename_i hnext
      have hall := nextWorkflowBranch_ne_none hundo.kind hundo.valid hst hnext
      rw [if_pos (List.all_eq_true.mpr fun b hb => decide_eq_true (hall b hb))]
      exact knowing_answer hundo.gid
    · rename_i before branch after hnext
      have hbs : tx.branches = before ++ branch :: after := nextWorkflowBranch_eq_some hnext
      have hundo' : Undoable gid .workflow { tx with branches := before ++ branch :: after } := by
        rw [← hbs]
        exact hundo
      rw [hbs] at hst
      rw [Discipline.yields_bind, knowing_barrier]
      intro d _
      split
      · exact knowing_reload hσ
      · rw [Discipline.yields_bind]
        apply knowing_invokeBranch
        · simp only [if_true, Discipline.yields_bind]
          have hdone := hundo'.middle (b := { branch with
            status := .succeeded, attempts := satAdd32 branch.attempts 1,
            nextRetryMillis := none }) rfl tx.status
          refine knowing_persistTransaction hundo.gid (ih hundo.gid hdone.written ?_)
          intro b hb
          rcases List.mem_append.mp hb with hb | hb
          · exact hst b (List.mem_append_left _ hb)
          · rcases List.mem_cons.mp hb with rfl | hb
            · exact Or.inr (Or.inr rfl)
            · exact hst b (List.mem_append_right _ (.tail _ hb))
        · intro b hb _
          simp only [Bool.false_eq_true, if_false, Discipline.yields_bind,
            knowing_releaseBarrier]
          have hfailed := hundo'.middle (b := { b with status := .failed }) hb .aborting
          refine knowing_persistTransaction hundo.gid ?_
          exact knowing_abortWorkflow hfailed (show TransactionStatus.aborting ∈
            [TransactionStatus.submitted, .prepared, .succeeding, .aborting] by decide)

/-- `start_workflow`, from a status that it accepts. -/
theorem knowing_startWorkflow (hundo : Undoable gid .workflow σ)
    (hcallback : isCallbackWorkflow σ = false)
    (hstatus : σ.status ∈ [TransactionStatus.submitted, .prepared, .succeeding])
    (hst : ∀ b ∈ σ.branches, b.status = .pending ∨ b.status = .failed ∨ b.status = .succeeded) :
    (knowing gid).Yields (dtm.startWorkflow gid) σ (Answers gid) := by
  rw [Dtm.startWorkflow, Discipline.yields_bind]
  apply knowing_transactionOfKind hundo.kind
  intro tx hsame
  have hundo' := (hundo.record hsame).status .succeeding
  obtain ⟨revision, updated, rfl⟩ := hsame
  split
  · exact Discipline.yields_pure.mpr hundo.gid
  · rw [Discipline.yields_bind]
    refine ⟨(), ensure_eq_ok.mpr ?_, ?_⟩
    · rw [Bool.not_eq_true']
      exact hcallback
    · dsimp only
      rw [Discipline.yields_bind]
      refine ⟨(), ensureStatus_eq_ok.mpr hstatus, ?_⟩
      exact knowing_startWorkflowLoop hundo.gid hundo' hst

end Workflow

end RozeDtm
