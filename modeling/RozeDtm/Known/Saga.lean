import RozeDtm.Known.Batch
import RozeDtm.Model.Coordinator.Saga
import RozeDtm.Serial.SagaGraph

/-!
# Sagas on a known record

A Saga whose branches can all be compensated and whose dependencies are accepted is started and
aborted without an error.
-/

namespace RozeDtm

open Conc

/-- What an abort relies on: every branch can be compensated, and the dependencies are
accepted. -/
structure Undoable (gid : String) (kind : TransactionKind) (tx : Transaction) : Prop where
  gid : tx.gid = gid
  kind : tx.kind = kind
  compensate : ∀ b ∈ tx.branches, b.compensate ≠ none
  valid : validateTransactionDependencies tx = .ok ()

section Undoable

variable {gid : String} {kind : TransactionKind} {tx : Transaction}

/-- Only the definitions of the branches matter. -/
theorem Undoable.change (h : Undoable gid kind tx) {bs : List Branch}
    (hbs : SameBranches tx.branches bs) (status : TransactionStatus) :
    Undoable gid kind { tx with branches := bs, status := status } where
  gid := h.gid
  kind := h.kind
  compensate := by
    intro b hb
    obtain ⟨a, ha, hab⟩ := exists_of_forall₂ hbs hb
    rw [Branch.compensate_eq hab]
    exact h.compensate a ha
  valid := by
    have hnodes : List.Forall₂ SameNode tx.branches bs :=
      hbs.imp fun _ _ hab => ⟨Branch.id_eq hab, Branch.dependencies_eq hab⟩
    rw [← h.valid]
    exact validateTransactionDependencies_congr rfl rfl hnodes

theorem Undoable.status (h : Undoable gid kind tx) (status : TransactionStatus) :
    Undoable gid kind { tx with status := status } := h.change (.refl tx.branches) status

theorem Undoable.record {tx' : Transaction} (h : Undoable gid kind tx) (hsame : SameRecord tx tx') :
    Undoable gid kind tx' := by
  obtain ⟨revision, updated, rfl⟩ := hsame
  exact ⟨h.gid, h.kind, h.compensate, h.valid⟩

/-- One branch gets another status. -/
theorem Undoable.middle {bs bs' : List Branch} {a b : Branch}
    (h : Undoable gid kind { tx with branches := bs ++ a :: bs' })
    (hb : b.definition = a.definition) (status : TransactionStatus) :
    Undoable gid kind { tx with branches := bs ++ b :: bs', status := status } :=
  h.change (forall₂_middle (SameBranches.refl bs) hb (SameBranches.refl bs')) status

/-- The branches at some places change, but not their definitions. -/
theorem Undoable.mapAt (h : Undoable gid kind tx) (ready : List Nat) {f : Branch → Branch}
    (hf : ∀ b, (f b).definition = b.definition) :
    Undoable gid kind (tx.mapBranchesAt ready f) :=
  h.change (forall₂_mapBranchesAt (fun _ _ _ _ => rfl) hf) tx.status

theorem Undoable.written (h : Undoable gid kind tx) : Undoable gid kind tx.written :=
  h.record ⟨_, _, rfl⟩

end Undoable

section Saga

variable {dtm : Dtm} {gid : String} {σ tx : Transaction}

/-! ### Compensation -/

/-- The barriers of the operations other than Try and Cancel. -/
theorem mayDecide_plain {b : BranchBarrier} {d : BarrierDecision} (ht : b.op ≠ "try")
    (hc : b.op ≠ "cancel") (h : b.mayDecide d) : d = .execute ∨ d = .skipDuplicate := by
  cases d with
  | execute => exact Or.inl rfl
  | skipDuplicate => exact Or.inr rfl
  | skipNullCompensation => exact absurd h hc
  | skipCancelledTry => exact absurd h ht

theorem knowing_abortSagaLoop {ahead passed : List Branch} (hg : tx.gid = gid) :
    (knowing gid).Yields (dtm.abortSagaLoop tx ahead passed) σ (Answers gid) := by
  induction ahead generalizing passed with
  | nil => exact knowing_answer hg
  | cons branch ahead ih =>
    rw [Dtm.abortSagaLoop]
    split
    · exact ih
    · split
      · exact ih
      · simp only [Discipline.yields_bind, knowing_barrier]
        intro d hd
        rcases mayDecide_plain (show "compensate" ≠ "try" by decide)
          (show "compensate" ≠ "cancel" by decide) hd with rfl | rfl
        · dsimp only
          split
          · rw [Discipline.yields_bind]
            apply knowing_invokeBranch
            · exact ih
            · intro b _ _
              simp only [Bool.false_eq_true, if_false, Discipline.yields_bind,
                knowing_releaseBarrier]
              exact knowing_answer hg
          · exact ih
        · exact knowing_answer hg

theorem knowing_abortConcurrentSagaLoop {fuel : Nat} (hσ : σ.gid = gid)
    (hundo : Undoable gid .saga tx) (hconc : tx.options.concurrent = true) :
    (knowing gid).Yields (dtm.abortConcurrentSagaLoop fuel tx) σ (Answers gid) := by
  induction fuel generalizing σ tx with
  | zero => exact Discipline.yields_pure.mpr hundo.gid
  | succ fuel ih =>
    rw [Dtm.abortConcurrentSagaLoop]
    split
    · exact knowing_answer hundo.gid
    · rename_i hcompensating
      -- one that is compensated last depends on none that still has to be
      have hready : tx.readyCompensations ≠ [] := by
        simp only [ne_eq, decide_not, List.all_eq_true, Bool.not_eq_eq_eq_not, Bool.not_true,
          decide_eq_false_iff_not, not_forall, Decidable.not_not] at hcompensating
        obtain ⟨b, hb, hst⟩ := hcompensating
        obtain ⟨name, hgraph⟩ :=
          validateDependencyGraph_of_validate (Or.inr ⟨hundo.kind, hconc⟩) hundo.valid
        obtain ⟨rank, hrank⟩ := exists_rank_of_validateDependencyGraph hgraph
        exact readyCompensations_ne_nil hrank hb hst
      dsimp only
      rw [if_neg (by rw [List.isEmpty_iff]; exact hready), Discipline.yields_bind]
      apply knowing_claimBatch
      intro claimed
      split
      · have hundo' : Undoable gid .saga (tx.mapBranchesAt tx.readyCompensations fun branch =>
            { branch with attempts := satAdd32 branch.attempts 1 }) :=
          hundo.mapAt _ fun _ => rfl
        rw [Discipline.yields_bind]
        refine knowing_persistTransaction hundo'.gid ?_
        have hrun := hundo'.written
        have hconc' : (tx.mapBranchesAt tx.readyCompensations fun branch =>
          { branch with attempts := satAdd32 branch.attempts 1 }).options.concurrent = true := hconc
        generalize (tx.mapBranchesAt tx.readyCompensations fun branch =>
          { branch with attempts := satAdd32 branch.attempts 1 }) = running at hundo' hrun hconc' ⊢
        have hurls : ∀ p ∈ running.written.branchesAt tx.readyCompensations,
            p.2.compensate ≠ none := fun p hp =>
          hrun.compensate p.2 (List.mem_of_getElem? (branchesAt_getElem? hp))
        rw [compensationTasks_eq hurls]
        dsimp only
        rw [Discipline.yields_bind]
        apply knowing_runBatch fun b => b.compensate.getD ""
        intro bs failed hbs
        have hdone := hrun.change hbs running.written.status
        rw [Discipline.yields_bind]
        refine knowing_persistTransaction hdone.gid ?_
        split
        · exact ih hdone.gid hdone.written hconc'
        · exact Discipline.yields_pure.mpr hdone.gid
      · rw [hundo.gid]
        exact knowing_reload hσ

theorem knowing_abortConcurrentSaga (hundo : Undoable gid .saga tx)
    (hconc : tx.options.concurrent = true) :
    (knowing gid).Yields (dtm.abortConcurrentSaga tx) σ (Answers gid) := by
  simp only [Dtm.abortConcurrentSaga, Discipline.yields_bind]
  refine ⟨(), hundo.valid, ?_⟩
  have hbs : SameBranches tx.branches (tx.branches.map Branch.aborted) := by
    rw [SameBranches, List.forall₂_map_right_iff, List.forall₂_same]
    exact fun b _ => aborted_definition b
  have haborting := hundo.change hbs .aborting
  refine knowing_persistTransaction haborting.gid ?_
  exact knowing_abortConcurrentSagaLoop haborting.gid haborting.written hconc

/-- `abort_saga`, from a status that it accepts. -/
theorem knowing_abortSaga (hundo : Undoable gid .saga σ)
    (hst : σ.status ∈ [TransactionStatus.submitted, .succeeding, .aborting]) :
    (knowing gid).Yields (dtm.abortSaga gid) σ (Answers gid) := by
  rw [Dtm.abortSaga, Discipline.yields_bind, knowing_loadTransaction]
  intro tx hsame
  have hundo' := hundo.record hsame
  obtain ⟨revision, updated, rfl⟩ := hsame
  rw [Discipline.yields_bind]
  refine ⟨(), ensureKind_eq_ok.mpr hundo.kind, ?_⟩
  split
  · exact Discipline.yields_pure.mpr hundo.gid
  · rw [Discipline.yields_bind]
    refine ⟨(), ensureStatus_eq_ok.mpr hst, ?_⟩
    split
    · rename_i hconc
      exact knowing_abortConcurrentSaga hundo' hconc
    · exact knowing_abortSagaLoop hundo.gid

/-! ### Execution -/

/-- The branches that have acted are due for compensation. -/
theorem sameBranches_compensating (bs : List Branch) :
    SameBranches bs (bs.map fun previous =>
      if previous.status = .succeeded then { previous with status := .compensating }
      else previous) := by
  rw [SameBranches, List.forall₂_map_right_iff, List.forall₂_same]
  intro b _
  split <;> rfl

theorem knowing_startSagaLoop {passed ahead : List Branch} (hσ : σ.gid = gid)
    (hundo : Undoable gid .saga { tx with branches := passed ++ ahead }) :
    (knowing gid).Yields (dtm.startSagaLoop gid tx passed ahead) σ (Answers gid) := by
  induction ahead generalizing σ tx passed with
  | nil => exact knowing_answer hundo.gid
  | cons branch ahead ih =>
    rw [Dtm.startSagaLoop]
    split
    · apply ih hσ
      rw [List.append_assoc]
      exact hundo
    · simp only [Discipline.yields_bind, knowing_barrier]
      intro d _
      split
      · exact knowing_reload hσ
      · rw [Discipline.yields_bind]
        apply knowing_invokeBranch
        · simp only [if_true, Discipline.yields_bind]
          have hdone := hundo.middle (b := { branch with
            status := .succeeded, attempts := satAdd32 branch.attempts 1,
            nextRetryMillis := none }) rfl tx.status
          refine knowing_persistTransaction hdone.gid (ih hdone.gid ?_)
          rw [List.append_assoc]
          exact hdone.written
        · intro b hb _
          simp only [Bool.false_eq_true, if_false]
          split
          · simp only [Discipline.yields_bind, knowing_releaseBarrier]
            exact knowing_answer hundo.gid
          · have hfailed := hundo.middle (b := { b with status := .compensating }) hb .aborting
            have haborting := hfailed.change (sameBranches_compensating _) .aborting
            rw [Discipline.yields_bind]
            refine knowing_persistTransaction hundo.gid ?_
            exact knowing_abortSaga haborting (show TransactionStatus.aborting ∈
              [TransactionStatus.submitted, .succeeding, .aborting] by decide)

theorem knowing_startConcurrentSagaLoop {fuel : Nat} (hσ : σ.gid = gid)
    (hundo : Undoable gid .saga tx) (hconc : tx.options.concurrent = true) :
    (knowing gid).Yields (dtm.startConcurrentSagaLoop fuel tx) σ (Answers gid) := by
  induction fuel generalizing σ tx with
  | zero => exact Discipline.yields_pure.mpr hundo.gid
  | succ fuel ih =>
    rw [Dtm.startConcurrentSagaLoop]
    split
    · exact knowing_answer hundo.gid
    · dsimp only
      split
      · exact Discipline.yields_pure.mpr hundo.gid
      · rw [Discipline.yields_bind]
        apply knowing_claimBatch
        intro claimed
        split
        · have hundo' : Undoable gid .saga (tx.mapBranchesAt tx.readyBranches fun branch =>
              { branch with status := .running, attempts := satAdd32 branch.attempts 1 }) :=
            hundo.mapAt _ fun _ => rfl
          rw [Discipline.yields_bind]
          refine knowing_persistTransaction hundo'.gid ?_
          have hrun := hundo'.written
          have hconc' : (tx.mapBranchesAt tx.readyBranches fun branch => { branch with
            status := .running, attempts := satAdd32 branch.attempts 1 }).options.concurrent =
              true := hconc
          generalize (tx.mapBranchesAt tx.readyBranches fun branch => { branch with
            status := .running, attempts := satAdd32 branch.attempts 1 }) = running
            at hundo' hrun hconc' ⊢
          rw [Discipline.yields_bind]
          apply knowing_runBatch Branch.action
          intro bs failed hbs
          have hdone := hrun.change hbs running.written.status
          split
          · have hmap : SameBranches bs (bs.map fun branch =>
                if branch.status = .succeeded then { branch with status := .compensating }
                else { branch with status := .skipped, nextRetryMillis := none }) := by
              rw [SameBranches, List.forall₂_map_right_iff, List.forall₂_same]
              intro b _
              split <;> rfl
            have haborting := hdone.change hmap .aborting
            rw [Discipline.yields_bind]
            refine knowing_persistTransaction hundo'.gid ?_
            exact knowing_abortConcurrentSaga haborting.written hconc'
          · rw [Discipline.yields_bind]
            refine knowing_persistTransaction hdone.gid ?_
            split
            · exact ih hdone.gid hdone.written hconc'
            · exact Discipline.yields_pure.mpr hdone.gid
        · rw [hundo.gid]
          exact knowing_reload hσ

/-- `start_saga`, from a status that it accepts. -/
theorem knowing_startSaga (hundo : Undoable gid .saga σ)
    (hst : σ.status ∈ [TransactionStatus.submitted, .succeeding]) :
    (knowing gid).Yields (dtm.startSaga gid) σ (Answers gid) := by
  rw [Dtm.startSaga, Discipline.yields_bind, knowing_loadTransaction]
  intro tx hsame
  have hundo' := (hundo.record hsame).status .succeeding
  obtain ⟨revision, updated, rfl⟩ := hsame
  rw [Discipline.yields_bind]
  refine ⟨(), ensureKind_eq_ok.mpr hundo.kind, ?_⟩
  split
  · exact Discipline.yields_pure.mpr hundo.gid
  · rw [Discipline.yields_bind]
    refine ⟨(), ensureStatus_eq_ok.mpr hst, ?_⟩
    split
    · rename_i hconc
      simp only [Dtm.startConcurrentSaga, Discipline.yields_bind]
      refine ⟨(), hundo.valid, knowing_persistTransaction hundo.gid ?_⟩
      exact knowing_startConcurrentSagaLoop hundo.gid hundo'.written hconc
    · rw [Discipline.yields_bind]
      refine knowing_persistTransaction hundo.gid ?_
      exact knowing_startSagaLoop hundo.gid hundo'.written

end Saga

end RozeDtm
