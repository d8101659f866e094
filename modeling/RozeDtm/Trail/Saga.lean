import RozeDtm.Session.Saga
import RozeDtm.Session.Workflow
import RozeDtm.Trail.Batch

/-!
# Saga and Workflow operations write what has developed
-/

namespace RozeDtm

open Conc

section Saga

variable {dtm : Dtm} {C : BranchCall → Prop} {σ : Trail} {gid : String} {tx : Transaction}

theorem developing_abortSagaLoop (hC : ∀ c, c.op = "compensate" → C c) {ahead passed : List Branch}
    (h : σ.From { tx with branches := ahead.reverse ++ passed }) :
    (developing C).Does (dtm.abortSagaLoop tx ahead passed) σ (fun _ _ => True) := by
  induction ahead generalizing σ passed with
  | nil => exact developing_persistTransaction (h.status .aborted) trivial
  | cons branch ahead ih =>
    have stop {σ : Trail} {b : Branch} {Q : Trail → Transaction → Prop} (hQ : ∀ tx, Q σ tx)
        (h : σ.From { tx with branches := (branch :: ahead).reverse ++ passed })
        (hd : b.definition = branch.definition) (hs : b.status = .compensating) :
        (developing C).Does
          (persistTransaction { tx with branches := ahead.reverse ++ b :: passed }) σ Q :=
      developing_persistTransaction (h.passBack (.retry hd (by rw [Branch.retryable, hs]; rfl)))
        (hQ _)
    rw [Dtm.abortSagaLoop]
    split
    · rename_i hpending
      exact ih (h.passBack (.skipped hpending))
    · split
      · exact ih (h.passBack (.refl branch))
      · simp only [Discipline.does_bind, developing_barrier]
        intro d
        cases d with
        | execute =>
          dsimp only
          split
          · simp only [Discipline.does_bind]
            refine developing_invokeBranch (hC _ rfl) (ih ?_) fun b hb => ?_
            · exact (h.addWon _).passBack (.dropped rfl rfl rfl)
            · simp only [Bool.false_eq_true, if_false, Discipline.does_bind,
                developing_releaseBarrier]
              exact stop (fun _ => trivial) h hb rfl
          · exact ih (h.passBack (.dropped rfl rfl rfl))
        | skipDuplicate => exact stop (fun _ => trivial) h rfl rfl
        | skipNullCompensation => exact Discipline.does_throw
        | skipCancelledTry => exact Discipline.does_throw

theorem Branch.Develops.aborted {won : Set BranchBarrier} {kind : TransactionKind} (a : Branch) :
    Branch.Develops won gid kind a a.aborted := by
  have hd := aborted_definition a
  cases hs : a.status with
  | succeeded => exact .retry hd (by simp [Branch.aborted, hs, Branch.retryable])
  | pending | running | failed =>
    exact .dropped hd (by simp [Branch.aborted, hs]) (by simp [Branch.aborted, hs])
  | compensating | skipped =>
    have h : a.aborted = a := by simp [Branch.aborted, hs]
    rw [h]
    exact .refl a

theorem developing_abortConcurrentSagaLoop {fuel : Nat} (hC : ∀ c, c.op = "compensate" → C c)
    (h : σ.From tx) :
    (developing C).Does (dtm.abortConcurrentSagaLoop fuel tx) σ (fun _ _ => True) := by
  induction fuel generalizing σ tx with
  | zero => exact Discipline.does_pure.mpr trivial
  | succ fuel ih =>
    simp only [Dtm.abortConcurrentSagaLoop]
    split
    · exact developing_persistTransaction (h.status _) trivial
    · split
      · exact Discipline.does_throw
      · rw [Discipline.does_bind]
        refine developing_claimBatch fun claimed => ?_
        split
        · rw [Discipline.does_bind]
          generalize hf : (fun branch : Branch =>
            { branch with attempts := satAdd32 branch.attempts 1 }) = f
          have hbase := h.mapAt tx.readyCompensations (f := f) fun b => by
            rw [← hf]
            exact ⟨rfl, fun h => h, Or.inl⟩
          refine developing_persistTransaction hbase ?_
          have hwritten := hbase.written
          generalize (tx.mapBranchesAt tx.readyCompensations f).written = base at hwritten
          have hfst := compensationTasks_fst base (base.branchesAt tx.readyCompensations)
          have hsnd := @compensationTasks_snd base (base.branchesAt tx.readyCompensations)
          generalize Dtm.compensationTasks _ _ = tasks at hfst hsnd ⊢
          obtain ⟨tasks, missing⟩ := tasks
          dsimp only at hfst hsnd ⊢
          subst hfst
          cases missing with
          | some error =>
            rw [Discipline.does_bind]
            refine (developing_abandonBatch fun t ht => ?_).mono fun _ _ _ => Discipline.does_throw
            obtain ⟨_, htask, rfl⟩ := List.mem_map.mp ht
            obtain ⟨p, -, rfl⟩ := List.mem_map.mp htask
            exact hC _ rfl
          | none =>
            rw [hsnd rfl, Discipline.does_bind]
            refine developing_runBatch _ hC (Or.inr (by decide)) (Or.inr rfl) hwritten
              fun σ' bs failed h' => ?_
            rw [Discipline.does_bind]
            refine developing_persistTransaction h' ?_
            split
            · exact ih h'.written
            · exact Discipline.does_pure.mpr trivial
        · exact developing_loadTransaction.mpr fun _ => trivial

theorem developing_abortConcurrentSaga (hC : ∀ c, c.op = "compensate" → C c) (h : σ.From tx) :
    (developing C).Does (dtm.abortConcurrentSaga tx) σ (fun _ _ => True) := by
  simp only [Dtm.abortConcurrentSaga, Discipline.does_bind, does_ofExcept]
  intro _ _
  have h' := h.map .aborting fun b _ => Branch.Develops.aborted b
  exact developing_persistTransaction h' (developing_abortConcurrentSagaLoop hC h'.written)

theorem developing_abortSaga (hC : ∀ c, c.op = "compensate" → C c) :
    (developing C).Does (dtm.abortSaga gid) σ (fun _ _ => True) := by
  simp only [Dtm.abortSaga, Discipline.does_bind, developing_loadTransaction, does_ofExcept]
  intro tx _ _
  split
  · exact Discipline.does_pure.mpr trivial
  · simp only [Discipline.does_bind, does_ofExcept]
    intro _ _
    have h := σ.from_addRead tx
    split
    · exact developing_abortConcurrentSaga hC h
    · refine developing_abortSagaLoop hC ?_
      rw [List.reverse_reverse, List.append_nil]
      exact h.status .aborting

/-- The calls that `start_saga` may issue. -/
def SagaOp (op : String) : Prop := op = "action" ∨ op = "compensate"

theorem developing_startSagaLoop (hC : ∀ c, SagaOp c.op → C c) (hk : tx.kind = .saga)
    {passed ahead : List Branch} (h : σ.From { tx with branches := passed ++ ahead }) :
    (developing C).Does (dtm.startSagaLoop gid tx passed ahead) σ (fun _ _ => True) := by
  induction ahead generalizing σ tx passed with
  | nil =>
    rw [List.append_nil] at h
    exact developing_persistTransaction (h.status .succeeded) trivial
  | cons branch ahead ih =>
    rw [Dtm.startSagaLoop]
    split
    · exact ih hk (h.pass (.refl branch))
    · simp only [Discipline.does_bind, developing_barrier]
      intro d
      split
      · exact developing_loadTransaction.mpr fun _ => trivial
      · simp only [Discipline.does_bind]
        refine developing_invokeBranch (hC _ (Or.inl rfl)) ?_ fun b hb => ?_
        · have h' := (h.addWon (branch.key tx.gid "action")).carry (b := { branch with
              status := .succeeded, attempts := satAdd32 branch.attempts 1,
              nextRetryMillis := none }) tx.status
            (.won "action" rfl rfl (mem_forwardOps hk (by decide)) (Set.mem_insert _ _))
          simp only [if_true, Discipline.does_bind]
          refine developing_persistTransaction h' (ih (by exact hk) ?_)
          rw [List.append_assoc]
          exact h'.written
        · simp only [Bool.false_eq_true, if_false]
          split
          · simp only [Discipline.does_bind, developing_releaseBarrier]
            exact developing_persistTransaction (h.carry tx.status (.retry hb rfl)) trivial
          · -- the attempts are used up
            rw [Discipline.does_bind]
            refine developing_persistTransaction ?_
              (developing_abortSaga fun c hc => hC c (Or.inr hc))
            have h' := h.carry (b := { b with status := .compensating }) tx.status (.retry hb rfl)
            refine h'.map .aborting fun a _ => ?_
            split
            · exact .retry rfl rfl
            · exact .refl a

theorem developing_startConcurrentSagaLoop {fuel : Nat} (hC : ∀ c, SagaOp c.op → C c)
    (hk : tx.kind = .saga) (h : σ.From tx) :
    (developing C).Does (dtm.startConcurrentSagaLoop fuel tx) σ (fun _ _ => True) := by
  induction fuel generalizing σ tx with
  | zero => exact Discipline.does_pure.mpr trivial
  | succ fuel ih =>
    simp only [Dtm.startConcurrentSagaLoop]
    split
    · exact developing_persistTransaction (h.status _) trivial
    · split
      · exact Discipline.does_pure.mpr trivial
      · rw [Discipline.does_bind]
        refine developing_claimBatch fun claimed => ?_
        split
        · rw [Discipline.does_bind]
          have hbase := h.mapAt tx.readyBranches (f := fun branch =>
            { branch with status := .running, attempts := satAdd32 branch.attempts 1 })
            fun b => .retry rfl rfl
          refine developing_persistTransaction hbase ?_
          rw [Discipline.does_bind]
          refine developing_runBatch Branch.action (fun c hc => hC c (Or.inl hc))
            (Or.inl (mem_forwardOps (by exact hk) (by decide))) (Or.inl rfl) hbase.written
            fun σ' bs failed h' => ?_
          split
          · rw [Discipline.does_bind]
            have hturned := h'.map .aborting (f := fun branch =>
              if branch.status = .succeeded then { branch with status := .compensating }
              else { branch with status := .skipped, nextRetryMillis := none }) fun a _ => by
              split
              · exact .retry rfl rfl
              · exact .dropped rfl rfl rfl
            exact developing_persistTransaction hturned
              (developing_abortConcurrentSaga (fun c hc => hC c (Or.inr hc)) hturned.written)
          · rw [Discipline.does_bind]
            refine developing_persistTransaction h' ?_
            split
            · exact ih hk h'.written
            · exact Discipline.does_pure.mpr trivial
        · exact developing_loadTransaction.mpr fun _ => trivial

theorem developing_startSaga (hC : ∀ c, SagaOp c.op → C c) :
    (developing C).Does (dtm.startSaga gid) σ (fun _ _ => True) := by
  simp only [Dtm.startSaga, Discipline.does_bind, developing_loadTransaction, does_ofExcept,
    ensureKind_eq_ok]
  intro tx _ hk
  split
  · exact Discipline.does_pure.mpr trivial
  · simp only [Discipline.does_bind, does_ofExcept]
    intro _ _
    have h := (σ.from_addRead tx).status .succeeding
    split
    · simp only [Dtm.startConcurrentSaga, Discipline.does_bind, does_ofExcept]
      exact fun _ _ => developing_persistTransaction h
        (developing_startConcurrentSagaLoop hC hk h.written)
    · rw [Discipline.does_bind]
      exact developing_persistTransaction h (developing_startSagaLoop hC (by exact hk) h.written)

end Saga

/-! ### Workflows -/

section Workflow

variable {dtm : Dtm} {C : BranchCall → Prop} {σ : Trail} {gid : String} {tx : Transaction}

/-- The calls that `start_workflow` may issue. -/
def WorkflowOp (op : String) : Prop := op = "workflow" ∨ op = "workflow_rollback"

theorem developing_prepareWorkflow :
    (developing C).Does (Dtm.prepareWorkflow gid) σ (fun _ _ => True) := by
  simp only [Dtm.prepareWorkflow, Discipline.does_bind, developing_transactionOfKind]
  intro tx _
  split
  · exact Discipline.does_pure.mpr trivial
  · simp only [Discipline.does_bind, does_ofExcept]
    exact fun _ _ => developing_persistTransaction ((σ.from_addRead tx).status _) trivial

theorem developing_abortWorkflowLoop (hC : ∀ c, c.op = "workflow_rollback" → C c)
    {ahead passed : List Branch} (h : σ.From { tx with branches := ahead.reverse ++ passed }) :
    (developing C).Does (dtm.abortWorkflowLoop tx ahead passed) σ (fun _ _ => True) := by
  induction ahead generalizing σ passed with
  | nil => exact developing_persistTransaction (h.status .aborted) trivial
  | cons branch ahead ih =>
    rw [Dtm.abortWorkflowLoop]
    split
    · refine ih (h.passBack ?_)
      split
      · rename_i hpending
        exact .skipped hpending
      · exact .refl branch
    · simp only [Discipline.does_bind, developing_barrier]
      intro d
      split
      · simp only [Discipline.does_bind, does_ofOption]
        intro compensate _
        refine developing_invokeBranch (hC _ rfl) (ih ?_) fun b hb => ?_
        · exact (h.addWon _).passBack (.dropped rfl rfl rfl)
        · simp only [Bool.false_eq_true, if_false, Discipline.does_bind,
            developing_releaseBarrier]
          exact developing_persistTransaction (h.passBack (.retry hb rfl)) trivial
      · exact ih (h.passBack (.dropped rfl rfl rfl))

theorem developing_abortWorkflow (hC : ∀ c, c.op = "workflow_rollback" → C c) :
    (developing C).Does (dtm.abortWorkflow gid) σ (fun _ _ => True) := by
  simp only [Dtm.abortWorkflow, Discipline.does_bind, developing_transactionOfKind]
  intro tx _
  split
  · exact Discipline.does_pure.mpr trivial
  · simp only [Discipline.does_bind, does_ofExcept]
    refine fun _ _ => developing_abortWorkflowLoop hC ?_
    rw [List.reverse_reverse, List.append_nil]
    exact (σ.from_addRead tx).status .aborting

theorem developing_startWorkflowLoop {fuel : Nat} (hC : ∀ c, WorkflowOp c.op → C c)
    (hk : tx.kind = .workflow) (h : σ.From tx) :
    (developing C).Does (dtm.startWorkflowLoop gid fuel tx) σ (fun _ _ => True) := by
  induction fuel generalizing σ tx with
  | zero => exact Discipline.does_pure.mpr trivial
  | succ fuel ih =>
    rw [Dtm.startWorkflowLoop]
    split
    · split
      · exact developing_persistTransaction (h.status _) trivial
      · exact Discipline.does_throw
    · rename_i before branch after hnext
      have hbranches : tx.branches = before ++ branch :: after := nextWorkflowBranch_eq_some hnext
      have h' : σ.From { tx with branches := before ++ branch :: after } := by
        rw [← hbranches]
        exact h
      simp only [Discipline.does_bind, developing_barrier]
      intro d
      split
      · exact developing_loadTransaction.mpr fun _ => trivial
      · simp only [Discipline.does_bind]
        refine developing_invokeBranch (hC _ (Or.inl rfl)) ?_ fun b hb => ?_
        · have hwon := (h'.addWon (branch.key tx.gid "workflow")).carry (b := { branch with
              status := .succeeded, attempts := satAdd32 branch.attempts 1,
              nextRetryMillis := none }) tx.status
            (.won "workflow" rfl rfl (mem_forwardOps hk (by decide)) (Set.mem_insert _ _))
          simp only [if_true, Discipline.does_bind]
          exact developing_persistTransaction hwon (ih hk hwon.written)
        · simp only [Bool.false_eq_true, if_false, Discipline.does_bind,
            developing_releaseBarrier]
          exact developing_persistTransaction (h'.carry _ (.retry hb rfl))
            (developing_abortWorkflow fun c hc => hC c (Or.inr hc))

theorem developing_startWorkflow (hC : ∀ c, WorkflowOp c.op → C c) :
    (developing C).Does (dtm.startWorkflow gid) σ (fun _ _ => True) := by
  simp only [Dtm.startWorkflow, Discipline.does_bind, developing_transactionOfKind]
  intro tx hk
  split
  · exact Discipline.does_pure.mpr trivial
  · simp only [Discipline.does_bind, does_ofExcept]
    exact fun _ _ _ _ => developing_startWorkflowLoop hC hk ((σ.from_addRead tx).status _)

theorem developing_terminalAfterConflict {e : Err} :
    (developing C).Does (Dtm.terminalAfterConflict gid e) σ (fun _ _ => True) := by
  simp only [Dtm.terminalAfterConflict, Discipline.does_bind, developing_loadTransaction]
  intro tx
  split
  · exact Discipline.does_pure.mpr trivial
  · exact Discipline.does_throw

theorem developing_finishOrTerminal {reason : Option String} :
    (developing C).Does (Dtm.finishOrTerminal gid reason) σ (fun _ _ => True) := by
  simp only [Dtm.finishOrTerminal, Discipline.does_bind, developing_finishWorkflow]
  intro r
  cases r with
  | ok tx => exact Discipline.does_pure.mpr trivial
  | error e => exact developing_terminalAfterConflict

theorem developing_deferCallbackWorkflow {at' : Nat} {backoff : Bool} {outcome : String} :
    (developing C).Does (dtm.deferCallbackWorkflow tx at' backoff outcome) σ (fun _ _ => True) := by
  simp only [Dtm.deferCallbackWorkflow, Discipline.does_bind, developing_deferWorkflowRecovery]
  intro r
  cases r with
  | ok tx => exact Discipline.does_pure.mpr trivial
  | error e => exact developing_terminalAfterConflict

theorem developing_recoverCallbackWorkflow :
    (developing C).Does (dtm.recoverCallbackWorkflow gid) σ (fun _ _ => True) := by
  simp only [Dtm.recoverCallbackWorkflow, Discipline.does_bind, developing_transactionOfKind]
  intro tx _
  split
  · exact Discipline.does_pure.mpr trivial
  · simp only [Discipline.does_bind, does_ofExcept, developing_currentMillis]
    intro _ _ _ _ now
    split
    · exact developing_deferCallbackWorkflow
    · simp only [Discipline.does_bind, developing_queryWorkflowCallback,
        developing_loadTransaction]
      intro r latest
      split
      · exact Discipline.does_pure.mpr trivial
      · simp only [Discipline.does_bind, does_ofExcept]
        intro _ _ _ _
        split
        · exact developing_finishOrTerminal
        · exact developing_deferCallbackWorkflow
        · exact developing_deferCallbackWorkflow
        · exact developing_deferCallbackWorkflow

theorem developing_expireCallbackWorkflow :
    (developing C).Does (Dtm.expireCallbackWorkflow tx) σ (fun _ _ => True) := by
  rw [Dtm.expireCallbackWorkflow]
  split
  · rw [Discipline.does_bind]
    refine developing_prepareWorkflow.mono fun _ tx' _ => ?_
    simp only [Discipline.does_bind, does_ofExcept]
    exact fun _ _ => developing_finishOrTerminal
  · simp only [Discipline.does_bind, Discipline.does_pure, does_ofExcept]
    exact fun _ _ => developing_finishOrTerminal

end Workflow

end RozeDtm
