import RozeDtm.Model.Coordinator.Workflow
import RozeDtm.Session.Phase2

/-!
# The Workflow operations keep the discipline

The loop of `abort_workflow` runs backwards, so the branches ahead are a prefix of the
transaction's branches and the passed ones are what follows it.
-/

namespace RozeDtm

open Conc

section Workflow

variable {dtm : Dtm} {σ : Session} {base : Transaction}

theorem writes_workflow {bs : List Branch} {target : TransactionStatus}
    (hk : base.kind = .workflow)
    (hm : TransactionStatus.moves .workflow base.status target = true)
    (hbs : SameBranches base.branches bs) :
    Writes σ base { base with branches := bs, status := target } where
  head := (SameHead.refl base).change _ _ _
  moves := by rw [hk]; exact hm
  branches := hbs.imp fun _ _ hd => .workflow hk hd

theorem does_prepareWorkflow (gid : String) :
    coordinator.Does (Dtm.prepareWorkflow gid) σ (fun _ _ => True) := by
  simp only [Dtm.prepareWorkflow, Discipline.does_bind, does_transactionOfKind]
  intro tx hk
  split
  · exact Discipline.does_pure.mpr trivial
  · simp only [Discipline.does_bind, does_ofExcept, ensureStatus_eq_ok]
    intro _ hs
    refine does_persistTransaction rfl (Writes.status ?_ (by decide) (by decide)) trivial
    rw [List.mem_singleton.mp hs]
    rfl

/-! ### Static Workflows -/

theorem does_abortWorkflowLoop (hσ : σ.snap = some base) (hk : base.kind = .workflow)
    (hm : ∀ target, target = .aborting ∨ target = .aborted →
      TransactionStatus.moves .workflow base.status target = true)
    {ahead after passed : List Branch} (hb : base.branches = ahead.reverse ++ after)
    (hp : SameBranches after passed) :
    coordinator.Does (dtm.abortWorkflowLoop { base with status := .aborting } ahead passed) σ
      (fun _ _ => True) := by
  induction ahead generalizing σ after passed with
  | nil =>
    exact does_persistTransaction hσ (writes_workflow hk (hm _ (Or.inr rfl)) (hb ▸ hp)) trivial
  | cons branch ahead ih =>
    have hcons : base.branches = ahead.reverse ++ branch :: after := by simp [hb]
    have hahead := SameBranches.refl ahead.reverse
    rw [Dtm.abortWorkflowLoop]
    split
    · refine ih hσ hcons (.cons ?_ hp)
      split <;> rfl
    · rw [Discipline.does_bind]
      refine does_barrier_plain (show "workflow_rollback" ≠ "cancel" by decide)
        (show "workflow_rollback" ≠ "try" by decide) (fun _ => ?_) ?_
      · simp only [if_true, Discipline.does_bind, does_ofOption]
        intro compensate _
        refine does_invokeBranch (Or.inl (Session.setHold_self ..)) ?_ fun b hd _ => ?_
        · exact ih (by simpa using hσ) hcons (.cons rfl hp)
        · simp only [Discipline.does_bind, Bool.false_eq_true, if_false]
          refine does_releaseBarrier (Or.inr (Session.setHold_self ..)) ?_
          exact does_persistTransaction (by simpa using hσ) (writes_workflow hk
            (hm _ (Or.inl rfl)) (hcons ▸ forall₂_middle hahead hd hp)) trivial
      · exact ih (by simpa using hσ) hcons (.cons rfl hp)

theorem does_abortWorkflow (gid : String) :
    coordinator.Does (dtm.abortWorkflow gid) σ (fun _ _ => True) := by
  simp only [Dtm.abortWorkflow, Discipline.does_bind, does_transactionOfKind]
  intro tx hk
  split
  · exact Discipline.does_pure.mpr trivial
  · simp only [Discipline.does_bind, does_ofExcept, ensureStatus_eq_ok]
    intro _ hs
    refine does_abortWorkflowLoop rfl hk ?_ (by simp) .nil
    simp only [List.mem_cons, List.not_mem_nil, or_false] at hs
    rcases hs with hs | hs | hs | hs <;> rw [hs] <;> rintro _ (rfl | rfl) <;> rfl

/-- The branch that `start_workflow` picks, in its place. -/
theorem nextWorkflowBranch_eq_some {tx : Transaction} {before after : List Branch} {b : Branch}
    (h : tx.nextWorkflowBranch = some (before, b, after)) :
    tx.branches = before ++ b :: after := by
  simp only [Transaction.nextWorkflowBranch] at h
  split at h
  · exact absurd h (by simp)
  · rename_i b' after' hdrop
    simp only [Option.some.injEq, Prod.mk.injEq] at h
    obtain ⟨rfl, rfl, rfl⟩ := h
    rw [← hdrop, List.takeWhile_append_dropWhile]

theorem eq_false_of_dropWhile {α : Type} {p : α → Bool} {as rest : List α} {a : α}
    (h : as.dropWhile p = a :: rest) : p a = false := by
  have hhead := List.head?_dropWhile_not p as
  rw [h] at hhead
  exact hhead

/-- It is one that has not run or has failed, and what it depends on has succeeded. -/
theorem nextWorkflowBranch_runnable {tx : Transaction} {before after : List Branch} {b : Branch}
    (h : tx.nextWorkflowBranch = some (before, b, after)) :
    (b.status = .pending ∨ b.status = .failed) ∧
      ∀ d ∈ b.dependencies, ∃ a ∈ tx.branches, a.status = .succeeded ∧ a.id = d := by
  simp only [Transaction.nextWorkflowBranch] at h
  split at h
  · cases h
  · rename_i b' after' hdrop
    cases h
    have hrunnable := eq_false_of_dropWhile hdrop
    rw [Bool.not_eq_false', Bool.and_eq_true, Bool.or_eq_true, decide_eq_true_eq,
      decide_eq_true_eq, List.all_eq_true] at hrunnable
    refine hrunnable.imp id fun hdeps d hd => ?_
    obtain ⟨a, ha, rfl⟩ := List.mem_map.mp (List.contains_iff_mem.mp (hdeps d hd))
    obtain ⟨ha, hst⟩ := List.mem_filter.mp ha
    exact ⟨a, ha, of_decide_eq_true hst, rfl⟩

theorem nextWorkflowBranch_status {tx : Transaction} {before after : List Branch} {b : Branch}
    (h : tx.nextWorkflowBranch = some (before, b, after)) :
    b.status = .pending ∨ b.status = .failed := (nextWorkflowBranch_runnable h).1

theorem does_startWorkflowLoop {gid : String} {fuel : Nat} (hσ : σ.snap = some base)
    (hk : base.kind = .workflow)
    (hm : ∀ target, target = .succeeding ∨ target = .succeeded ∨ target = .aborting →
      TransactionStatus.moves .workflow base.status target = true) :
    coordinator.Does (dtm.startWorkflowLoop gid fuel { base with status := .succeeding }) σ
      (fun _ _ => True) := by
  induction fuel generalizing σ base with
  | zero => exact Discipline.does_pure.mpr trivial
  | succ fuel ih =>
    rw [Dtm.startWorkflowLoop]
    split
    · split
      · exact does_persistTransaction hσ
          (writes_workflow hk (hm _ (by simp)) (SameBranches.refl _)) trivial
      · exact Discipline.does_throw
    · rename_i before branch after hnext
      have hb : base.branches = before ++ branch :: after := nextWorkflowBranch_eq_some hnext
      have hsame {b : Branch} (hd : b.definition = branch.definition) :
          SameBranches base.branches (before ++ b :: after) :=
        hb ▸ forall₂_middle (SameBranches.refl before) hd (SameBranches.refl after)
      rw [Discipline.does_bind]
      refine does_barrier_plain (show "workflow" ≠ "cancel" by decide)
        (show "workflow" ≠ "try" by decide) (fun _ => ?_) ?_
      · simp only [ne_eq, not_true_eq_false, if_false, Discipline.does_bind]
        refine does_invokeBranch (Or.inl (Session.setHold_self ..)) ?_ fun b hd _ => ?_
        · simp only [if_true, Discipline.does_bind]
          refine does_persistTransaction (by simpa using hσ)
            (writes_workflow hk (hm _ (by simp)) (hsame rfl)) ?_
          refine @ih _ (Transaction.written
            { base with status := .succeeding, branches := before ++ _ :: after }) rfl hk ?_
          rintro _ (rfl | rfl | rfl) <;> rfl
        · simp only [Discipline.does_bind, Bool.false_eq_true, if_false]
          refine does_releaseBarrier (Or.inr (Session.setHold_self ..)) ?_
          exact does_persistTransaction (by simpa using hσ)
            (writes_workflow hk (hm _ (by simp)) (hsame hd)) (does_abortWorkflow gid)
      · simp

theorem does_startWorkflow (gid : String) :
    coordinator.Does (dtm.startWorkflow gid) σ (fun _ _ => True) := by
  simp only [Dtm.startWorkflow, Discipline.does_bind, does_transactionOfKind]
  intro tx hk
  split
  · exact Discipline.does_pure.mpr trivial
  · simp only [Discipline.does_bind, does_ofExcept, ensureStatus_eq_ok]
    intro _ _ _ hs
    refine does_startWorkflowLoop rfl hk ?_
    simp only [List.mem_cons, List.not_mem_nil, or_false] at hs
    rcases hs with hs | hs | hs <;> rw [hs] <;> rintro _ (rfl | rfl | rfl) <;> rfl

/-! ### Callback Workflows -/

theorem does_terminalAfterConflict (gid : String) (error : Err) :
    coordinator.Does (Dtm.terminalAfterConflict gid error) σ (fun _ _ => True) := by
  simp only [Dtm.terminalAfterConflict, Discipline.does_bind, does_loadTransaction]
  intro tx
  split
  · exact Discipline.does_pure.mpr trivial
  · exact Discipline.does_throw

theorem does_finishOrTerminal (gid : String) (reason : Option String) :
    coordinator.Does (Dtm.finishOrTerminal gid reason) σ (fun _ _ => True) := by
  simp only [Dtm.finishOrTerminal, Discipline.does_bind, does_finishWorkflow]
  rintro (e | tx)
  · exact does_terminalAfterConflict gid e
  · exact Discipline.does_pure.mpr trivial

theorem does_deferCallbackWorkflow (tx : Transaction) (now : Nat) (backoff : Bool)
    (outcome : String) :
    coordinator.Does (dtm.deferCallbackWorkflow tx now backoff outcome) σ (fun _ _ => True) := by
  simp only [Dtm.deferCallbackWorkflow, Discipline.does_bind, does_deferWorkflowRecovery]
  rintro (e | tx')
  · exact does_terminalAfterConflict tx.gid e
  · exact Discipline.does_pure.mpr trivial

theorem does_recoverCallbackWorkflow (gid : String) :
    coordinator.Does (dtm.recoverCallbackWorkflow gid) σ (fun _ _ => True) := by
  simp only [Dtm.recoverCallbackWorkflow, Discipline.does_bind, does_transactionOfKind]
  intro tx hk
  split
  · exact Discipline.does_pure.mpr trivial
  · simp only [Discipline.does_bind, does_ofExcept, does_currentMillis]
    intro _ _ _ _ now
    split
    · exact does_deferCallbackWorkflow ..
    · simp only [Discipline.does_bind, does_queryWorkflowCallback, does_loadTransaction]
      intro result latest
      split
      · exact Discipline.does_pure.mpr trivial
      · simp only [Discipline.does_bind, does_ofExcept]
        intro _ _ _ _
        split
        · exact does_finishOrTerminal ..
        · exact does_deferCallbackWorkflow ..
        · exact does_deferCallbackWorkflow ..
        · exact does_deferCallbackWorkflow ..

theorem does_expireCallbackWorkflow (tx : Transaction) :
    coordinator.Does (Dtm.expireCallbackWorkflow tx) σ (fun _ _ => True) := by
  rw [Dtm.expireCallbackWorkflow]
  split
  · rw [Discipline.does_bind]
    refine (does_prepareWorkflow tx.gid).mono fun σ tx' _ => ?_
    simp only [Discipline.does_bind, does_ofExcept]
    exact fun _ _ => does_finishOrTerminal ..
  · simp only [Discipline.does_bind, Discipline.does_pure, does_ofExcept]
    exact fun _ _ => does_finishOrTerminal ..

end Workflow

end RozeDtm
