import RozeDtm.Properties.WorkflowCompensation
import RozeDtm.Serial.WorkflowOrder

/-!
# The order of a Workflow's compensation

`start_workflow` follows the dependencies of a static Workflow, and `abort_workflow` goes
through its branches against the order of their declaration.  The two agree only where what
depends on a branch is declared after it and has not been left Compensating: otherwise a branch
is compensated before one that depends on it (`workflow_compensated_early`).  When
compensations are called only where the dependent branches are settled, the calls of the
Workflow are in order at every point of every run of its operations one after another
(`workflow_in_order`).
-/

namespace RozeDtm

open Conc

/-- The record of a static Workflow as it is submitted or prepared. -/
structure StepsSubmitted (s₀ : Transaction) : Prop where
  kind : s₀.kind = .workflow
  status : s₀.status = .submitted ∨ s₀.status = .prepared
  static : isCallbackWorkflow s₀ = false
  valid : validateTransactionDependencies s₀ = .ok ()
  compensate : ∀ b ∈ s₀.branches, b.compensate ≠ none
  pending : ∀ b ∈ s₀.branches, b.status = .pending

theorem StepsSubmitted.steps {s₀ : Transaction} (hs : StepsSubmitted s₀) : StaticSteps s₀ where
  kind := hs.kind
  static := hs.static
  ids := nodup_of_validateWorkflow hs.kind hs.valid
  irreflexive := by
    obtain ⟨name, hvalid⟩ := validateDependencyGraph_of_validate (Or.inl hs.kind) hs.valid
    obtain ⟨rank, hrank⟩ := exists_rank_of_validateDependencyGraph hvalid
    intro m hm
    exact absurd (hrank m m hm) (Nat.lt_irrefl _)
  compensate := hs.compensate

/-- The Workflow before it is started. -/
theorem StepsSubmitted.inv {s₀ : Transaction} {w : World} (hs : StepsSubmitted s₀) (hw : w.Keyed)
    (hh : w.history = []) (hb : ∀ b ∈ w.barriers, b.gid ≠ s₀.gid)
    (hs₀ : w.txs[s₀.gid]? = some s₀) : StepsInv s₀ w := by
  have hcalls : callEvents s₀.gid w.history = [] := by
    rw [hh]
    rfl
  refine ⟨s₀, ⟨hw, fun b hbm hbg => absurd hbg (hb b hbm), ?_⟩, hs₀,
    ⟨rfl, hs.kind, rfl, SameBranches.refl _, fun b hbm => ⟨fun hst => ?_, ?_⟩⟩, fun _ => ?_⟩
  · rw [World.StepsOrdered, hcalls]
    exact .nil
  · rw [hs.pending b hbm] at hst
    cases hst
  · rw [hcalls]
    intro h
    cases h
  · rw [hcalls]
    rfl

/-- **One operation keeps the Workflow.** -/
theorem ends_drivesSteps {dtm : Dtm} {s₀ : Transaction} {op : Operation} {i : Nat} {w : World}
    (hop : op.DrivesWorkflow) (hS : StaticSteps s₀) (hw : StepsInv s₀ w) :
    (alone (DependentsSettled s₀.gid)).Ends (World.StepsOrdered s₀) i (op.prog dtm)
      (fun _ => StepsInv s₀) w := by
  have hsteady := steady_steps s₀
  have close {x : Act (List Transaction)} (h : KeepsSteps s₀ i x w) :
      (alone (DependentsSettled s₀.gid)).Ends (World.StepsOrdered s₀) i x.run
        (fun _ => StepsInv s₀) w :=
    Machine.Ends.mono h fun r w' hr => by cases r <;> exact hr
  have hrecord : ∀ tx, w.txs[s₀.gid]? = some tx →
      tx.gid = s₀.gid ∧ tx.kind = .workflow ∧ ¬ isCallbackWorkflow tx = true := by
    obtain ⟨s, hs⟩ := hw
    intro tx htx
    cases hs.stored.symm.trans htx
    exact ⟨hs.record.gid, hs.record.kind, hs.record.static hS⟩
  have hmove {w' : World} {tx : Transaction} {move : Act Transaction} (hw' : StepsInv s₀ w')
      (htx : w.txs[s₀.gid]? = some tx) (h : dtm.RecoveryMove tx move) : KeepsSteps s₀ i move w' := by
    obtain ⟨hg, hk, hstatic⟩ := hrecord tx htx
    exact keeps_recoverySteps hS hw' hg hk hstatic h
  cases op with
  | startWorkflow gid =>
    refine close (hsteady.one hw within_startWorkflow fun hg => ?_)
    subst hg
    exact keeps_startSteps hS hw
  | abortWorkflow gid =>
    refine close (hsteady.one hw within_abortWorkflow fun hg => ?_)
    subst hg
    exact keeps_abortSteps hS hw
  | scheduleAbort gid =>
    refine close (hsteady.one hw within_scheduleAbort fun hg => ?_)
    subst hg
    exact keeps_scheduleAbortSteps hw
  | recover gid =>
    refine close (hsteady.one hw within_recover fun hg => ?_)
    subst hg
    exact hsteady.recover hw hmove
  | tickRecoverOnce =>
    exact close (hsteady.tickRecoverOnce hw fun hw' htx h =>
      hmove hw' htx (Dtm.recoveryMove_of_tickMove h))
  | _ => exact hop.elim

/-- **A static Workflow executes along its dependencies and compensates against them** at every
point of every run of its operations one after another in which each compensation is called
when the branches that depend on its own are settled. -/
theorem workflow_in_order (dtm : Dtm) {s₀ : Transaction} {w w' : World} (hw : w.Keyed)
    (hh : w.history = []) (hb : ∀ b ∈ w.barriers, b.gid ≠ s₀.gid)
    (hs₀ : w.txs[s₀.gid]? = some s₀) (hs : StepsSubmitted s₀)
    (hr : (alone (DependentsSettled s₀.gid)).SerialAt (dtm.Programs Operation.DrivesWorkflow)
      w w') :
    IssuedUnder (AfterDependencies s₀.branches "workflow") (callEvents s₀.gid w'.history) ∧
    IssuedUnder (AfterDependents s₀.branches "workflow" "workflow_rollback")
      (callEvents s₀.gid w'.history) := by
  have hordered : w'.StepsOrdered s₀ := by
    refine hr.along ?_ (fun _ => StepsInv.ordered) ?_ (hs.inv hw hh hb hs₀)
    · rintro w w' h ⟨now, rfl⟩
      exact h.setClock now
    · rintro i p w ⟨op, hop, rfl⟩ h
      exact ends_drivesSteps hop hs.steps h
  exact ⟨hordered.acts, hordered.undoes⟩

/-- A chain of three branches, each declared after the one that it depends on. -/
def chain : Transaction := .new 0 "g" .workflow
  [.workflow "a" "do" "undo" [] .null, .workflow "b" "do" "undo" ["a"] .null,
    .workflow "c" "do" "undo" ["b"] .null]

/-- The third action fails, and the other two are compensated in order. -/
theorem workflow_in_order_chain : ∃ w : World,
    (alone (DependentsSettled "g")).SerialAt (Dtm.plain.Programs Operation.DrivesWorkflow)
      (.initial [chain]) w ∧
    doneIds "workflow_rollback" (callEvents "g" w.history) = ["a", "b"] ∧
    IssuedUnder (AfterDependents chain.branches "workflow" "workflow_rollback")
      (callEvents "g" w.history) := by
  obtain ⟨w, hw, hφ⟩ := Dtm.exists_serial (alone (DependentsSettled "g")) .plain
    Operation.DrivesWorkflow (.initial [chain])
    [(.startWorkflow "g", outcomes 9 true ++ outcomes 6 false ++ outcomes 12 true)]
    (fun w => doneIds "workflow_rollback" (callEvents "g" w.history) = ["a", "b"])
    (by simp [Operation.DrivesWorkflow]) (by decide)
  have hat := hw.at ⟨.tickRecoverOnce, trivial, rfl⟩
  have hsub : StepsSubmitted chain := by
    refine ⟨rfl, Or.inl rfl, rfl, ?_, ?_, ?_⟩ <;> decide
  exact ⟨w, hat, of_decide_eq_true hφ, (workflow_in_order .plain (World.keyed_initial _) rfl
    (by simp [World.barriers_initial]) rfl hsub hat).2⟩

/-- The same chain, with the second branch declared before the first. -/
def swapped : Transaction := .new 0 "g" .workflow
  [.workflow "b" "do" "undo" ["a"] .null, .workflow "a" "do" "undo" [] .null,
    .workflow "c" "do" "undo" ["b"] .null]

/-- The first branch is compensated next, after two actions and no other compensation. -/
def World.undoesFirst (w : World) : Bool :=
  match (callEvents "g" w.history).tail with
  | (_, .began c) :: earlier => c.op = "workflow_rollback" && c.branchId = "a" &&
      doneIds "workflow" earlier = ["b", "a"] && doneIds "workflow_rollback" earlier = []
  | _ => false

/-- The third action fails.  `abort_workflow` compensates the first branch before the second,
which depends on it. -/
theorem workflow_compensated_early : StepsSubmitted swapped ∧ ∃ w : World,
    inMemory.SerialAt (Dtm.plain.Programs Operation.DrivesWorkflow) (.initial [swapped]) w ∧
    ¬ IssuedUnder (AfterDependents swapped.branches "workflow" "workflow_rollback")
      (callEvents "g" w.history) := by
  have hsub : StepsSubmitted swapped := by
    refine ⟨rfl, Or.inl rfl, rfl, ?_, ?_, ?_⟩ <;> decide
  obtain ⟨w, hw, hφ⟩ := Dtm.exists_serial inMemory .plain Operation.DrivesWorkflow
    (.initial [swapped])
    [(.startWorkflow "g", outcomes 9 true ++ outcomes 13 false)]
    World.undoesFirst (by simp [Operation.DrivesWorkflow]) (by decide)
  refine ⟨hsub, w, hw.at ⟨.tickRecoverOnce, trivial, rfl⟩, fun hissued => ?_⟩
  unfold World.undoesFirst at hφ
  generalize callEvents "g" w.history = calls at hissued hφ
  split at hφ
  · rename_i i c earlier hcalls
    simp only [Bool.and_eq_true, decide_eq_true_eq] at hφ
    obtain ⟨⟨⟨hop, hid⟩, hacted⟩, hundone⟩ := hφ
    obtain ⟨last, rfl⟩ : ∃ last, calls = last :: (i, .began c) :: earlier := by
      cases calls with
      | nil => cases hcalls
      | cons last calls => exact ⟨last, congrArg (last :: ·) hcalls⟩
    have hb : DependsOn swapped.branches "b" c.branchId := ⟨_, .head _, rfl, hid ▸ .head _⟩
    have hmem := hissued [last] i c earlier rfl hop "b" (.single hb) (hacted ▸ .head _)
    rw [hundone] at hmem
    cases hmem
  · cases hφ

end RozeDtm
