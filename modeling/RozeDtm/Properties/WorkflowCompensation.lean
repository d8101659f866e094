import RozeDtm.Model.Dependencies
import RozeDtm.Serial.Workflow

/-!
# Completeness of a Workflow's compensation

`abort_workflow` compensates the branches that are stored as Succeeded.  One whose
compensation has failed is stored as Compensating, and the next attempt passes it by and
writes Aborted (`workflow_compensation_dropped`).  When Aborted is not written over such a
branch, the compensation of a static Workflow is complete at every point of every run of
its operations one after another (`workflow_compensated`).
-/

namespace RozeDtm

open Conc

/-- The operations that a static Workflow is driven by. -/
def Operation.DrivesWorkflow : Operation → Prop
  | .startWorkflow _ | .abortWorkflow _ | .scheduleAbort _ | .recover _ | .tickRecoverOnce => True
  | _ => False

/-- **One operation keeps the Workflow.** -/
theorem ends_drivesWorkflow {dtm : Dtm} {g : String} {op : Operation} {i : Nat} {w : World}
    (hop : op.DrivesWorkflow) (hw : WorkflowInv g w) :
    (alone (NoneCompensating g)).Ends (World.WorkflowCompensated g) i (op.prog dtm)
      (fun _ => WorkflowInv g) w := by
  -- an operation on one gid that gives back one transaction
  have one {gid : String} {x : Act Transaction} (hx : (within gid).Does x () (fun _ _ => True))
      (h : gid = g → KeepsWorkflow g i x w) : KeepsWorkflow g i (Operation.act.one x) w := by
    refine Machine.runs_bind.mpr ?_
    by_cases hg : gid = g
    · exact h hg
    · exact keeps_other hw hg hx
  have close {x : Act (List Transaction)} (h : KeepsWorkflow g i x w) :
      (alone (NoneCompensating g)).Ends (World.WorkflowCompensated g) i x.run
        (fun _ => WorkflowInv g) w :=
    Machine.Ends.mono h fun r w' hr => by cases r <;> exact hr
  cases op with
  | startWorkflow gid =>
    refine close (one within_startWorkflow fun hg => ?_)
    subst hg
    exact keeps_startWorkflow hw
  | abortWorkflow gid =>
    refine close (one within_abortWorkflow fun hg => ?_)
    subst hg
    exact keeps_abortWorkflow hw
  | scheduleAbort gid =>
    refine close (one within_scheduleAbort fun hg => ?_)
    subst hg
    exact keeps_scheduleAbort hw
  | recover gid =>
    refine close (one within_recover fun hg => ?_)
    subst hg
    exact keeps_recover hw
  | tickRecoverOnce => exact close (keeps_tickRecoverOnce hw)
  | _ => exact hop.elim

/-- **Compensation of a static Workflow is complete** at every point of every run of its
operations one after another in which Aborted is not written over a branch that is left
Compensating. -/
theorem workflow_compensated (dtm : Dtm) {g : String} {w w' : World} (hw : w.Keyed)
    (hh : w.history = []) (hb : ∀ b ∈ w.barriers, b.gid ≠ g) {s₀ : Transaction}
    (hs₀ : w.txs[g]? = some s₀) (hk : s₀.kind = .workflow)
    (hstatic : isCallbackWorkflow s₀ = false)
    (hv : validateTransactionDependencies s₀ = .ok ()) (hc : ∀ b ∈ s₀.branches, b.compensate ≠ none)
    (hr : (alone (NoneCompensating g)).SerialAt (dtm.Programs Operation.DrivesWorkflow) w w')
    {s : Transaction} (hs : w'.txs[g]? = some s) : WorkflowCompensated g w'.history s := by
  have hnone (b : BranchBarrier) : ¬ Succeeded w.history b := by
    rw [hh]
    rintro ⟨_, hm, -⟩
    cases hm
  have hinv : WorkflowInv g w := by
    refine ⟨s₀, hw, fun b hbm hbg => absurd hbg (hb b hbm), hs₀, ?_⟩
    exact ⟨hw g s₀ hs₀, hk, hstatic, nodup_of_validateWorkflow hk hv, hc,
      fun b _ hact => absurd hact (hnone _), fun _ b _ hact => absurd hact (hnone _)⟩
  have hdone : w'.WorkflowCompensated g := by
    refine hr.along ?_ (fun _ => WorkflowInv.compensated) ?_ hinv
    · rintro w w' h ⟨now, rfl⟩
      exact h.setClock now
    · rintro i p w ⟨op, hop, rfl⟩ h
      exact ends_drivesWorkflow hop h
  exact hdone s hs

/-- Two branches, the second one after the first. -/
def twoSteps : Transaction := .new 0 "g" .workflow
  [.workflow "a" "do" "undo" [] .null, .workflow "b" "do" "undo" ["a"] .null]

/-- The first action succeeds, the second one fails, and the first is compensated. -/
theorem workflow_compensated_failed : ∃ (w : World) (s : Transaction),
    (alone (NoneCompensating "g")).SerialAt (Dtm.plain.Programs Operation.DrivesWorkflow)
      (.initial [twoSteps]) w ∧
    w.txs["g"]? = some s ∧ s.status = .aborted ∧
    Succeeded w.history ⟨"g", "a", "workflow"⟩ ∧ WorkflowCompensated "g" w.history s := by
  obtain ⟨w, hw, hφ⟩ := Dtm.exists_serial (alone (NoneCompensating "g")) .plain
    Operation.DrivesWorkflow (.initial [twoSteps])
    [(.startWorkflow "g", outcomes 5 true ++ outcomes 6 false ++ outcomes 5 true)]
    (fun w => w.statusOf "g" = some .aborted && Succeeded w.history ⟨"g", "a", "workflow"⟩)
    (by simp [Operation.DrivesWorkflow]) (by decide)
  rw [Bool.and_eq_true, decide_eq_true_eq, decide_eq_true_eq] at hφ
  obtain ⟨s, hs, hst⟩ := World.hasStatus_iff.mpr hφ.1
  have hat := hw.at ⟨.tickRecoverOnce, trivial, rfl⟩
  exact ⟨w, s, hat, hs, hst, hφ.2, workflow_compensated .plain (World.keyed_initial _) rfl
    (by simp [World.barriers_initial]) rfl rfl (by decide) (by decide) (by decide)
    hat hs⟩

/-- The compensation of the first action fails once.  `abort_workflow` passes it by when it is
called again, and writes Aborted. -/
theorem workflow_compensation_dropped : ∃ (w : World) (s : Transaction),
    inMemory.SerialAt (Dtm.plain.Programs Operation.DrivesWorkflow) (.initial [twoSteps]) w ∧
    w.txs["g"]? = some s ∧ ¬ WorkflowCompensated "g" w.history s := by
  obtain ⟨w, hw, hφ⟩ := Dtm.exists_serial inMemory .plain Operation.DrivesWorkflow
    (.initial [twoSteps])
    [(.startWorkflow "g", outcomes 5 true ++ outcomes 13 false),
      (.abortWorkflow "g", outcomes 2 true)]
    (fun w => (w.txs["g"]?).any fun s => s.status = .aborted && s.branches.any fun b =>
      Succeeded w.history (b.key "g" "workflow") &&
        !Succeeded w.history (b.key "g" "workflow_rollback"))
    (by simp [Operation.DrivesWorkflow]) (by decide)
  rw [Option.any_eq_true] at hφ
  obtain ⟨s, hs, h⟩ := hφ
  simp only [Bool.and_eq_true, decide_eq_true_eq, List.any_eq_true, Bool.not_eq_true',
    decide_eq_false_iff_not] at h
  obtain ⟨hst, b, hb, hact, hn⟩ := h
  exact ⟨w, s, hw.at ⟨.tickRecoverOnce, trivial, rfl⟩, hs, fun hc => hn (hc hst b hb hact)⟩

end RozeDtm
