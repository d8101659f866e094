import RozeDtm.Model.Coordinator.Saga
import RozeDtm.Session.Batch

/-!
# The Saga operations keep the discipline

While a Saga is Submitted or Succeeding nothing is asked of a write but that it keeps
the branches' definitions.  From the write that takes it to Aborting on, a branch that
is Succeeded or Compensating stays so until its compensation has returned success, or
is passed over because it has none.
-/

namespace RozeDtm

open Conc

section Saga

variable {dtm : Dtm} {σ : Session} {base : Transaction}

/-- A write that does not abort. -/
theorem writes_saga {bs : List Branch} {target : TransactionStatus} (hk : base.kind = .saga)
    (hm : TransactionStatus.moves .saga base.status target = true) (h1 : target ≠ .aborting)
    (h2 : target ≠ .aborted) (hbs : SameBranches base.branches bs) :
    Writes σ base { base with branches := bs, status := target } where
  head := (SameHead.refl base).change _ _ _
  moves := by rw [hk]; exact hm
  branches := hbs.imp fun _ _ hd => .saga hk hd
    (fun h => (h.elim h1 h2).elim) (fun h => absurd h h2)

/-- The same for a record that is Succeeding already. -/
theorem writes_saga_runs {bs : List Branch} (hk : base.kind = .saga)
    (hs : base.status = .succeeding) (hbs : SameBranches base.branches bs) :
    Writes σ base { base with branches := bs } := by
  have h : Writes σ base { base with branches := bs, status := .succeeding } :=
    writes_saga hk (by rw [hs]; rfl) (by decide) (by decide) hbs
  rwa [← hs] at h

/-- A write of the compensation: a branch that was Succeeded or Compensating is so
still, or is accounted for. -/
theorem writes_saga_aborting {bs : List Branch} (hk : base.kind = .saga)
    (hm : TransactionStatus.moves .saga base.status .aborting = true)
    (hbs : List.Forall₂ (fun a b => b.definition = a.definition ∧
      (a.status = .succeeded ∨ (a.status = .compensating ∧ base.status = .aborting) →
        b.status = .succeeded ∨ b.status = .compensating ∨
          σ.Done (a.key base.gid "compensate") ∨ a.compensate = none)) base.branches bs) :
    Writes σ base { base with branches := bs, status := .aborting } where
  head := (SameHead.refl base).change _ _ _
  moves := by rw [hk]; exact hm
  branches := hbs.imp fun _ _ h => .saga hk h.1 (fun _ => h.2) (by simp)

/-- The same for a record that is Aborting already. -/
theorem writes_saga_stays {bs : List Branch} (hk : base.kind = .saga)
    (hs : base.status = .aborting)
    (hbs : List.Forall₂ (fun a b => b.definition = a.definition ∧
      (a.status = .succeeded ∨ a.status = .compensating →
        b.status = .succeeded ∨ b.status = .compensating ∨
          σ.Done (a.key base.gid "compensate") ∨ a.compensate = none)) base.branches bs) :
    Writes σ base { base with branches := bs } := by
  have h : Writes σ base _ := writes_saga_aborting hk (by rw [hs]; rfl) (hbs.imp fun _ _ h =>
    ⟨h.1, fun h' => h.2 (h'.imp_right fun h => h.1)⟩)
  rwa [← hs] at h

/-! ### Sequential compensation -/

/-- What a passed branch of the loop of `abort_saga` has. -/
def Compensated (σ : Session) (gid : String) (a b : Branch) : Prop :=
  b.definition = a.definition ∧
    (a.status = .succeeded ∨ a.status = .compensating →
      σ.Done (a.key gid "compensate") ∨ a.compensate = none) ∧
    b.status ≠ .succeeded ∧ b.status ≠ .compensating

theorem Compensated.setHold {gid : String} {a b : Branch} {k : BranchBarrier} {h : Option Hold}
    (hab : Compensated σ gid a b) (hk : σ.hold k = none) :
    Compensated (σ.setHold k h) gid a b :=
  ⟨hab.1, fun hs => (hab.2.1 hs).imp_left fun hd => hd.setHold hk, hab.2.2⟩

theorem does_abortSagaLoop (hσ : σ.snap = some base) (hk : base.kind = .saga)
    (hm : ∀ target, target = .aborting ∨ target = .aborted →
      TransactionStatus.moves .saga base.status target = true)
    {ahead after passed : List Branch} (hb : base.branches = ahead.reverse ++ after)
    (hp : List.Forall₂ (Compensated σ base.gid) after passed) :
    coordinator.Does (dtm.abortSagaLoop { base with status := .aborting } ahead passed) σ
      (fun _ _ => True) := by
  induction ahead generalizing σ after passed with
  | nil =>
    refine does_persistTransaction hσ ?_ trivial
    exact {
      head := (SameHead.refl base).change _ _ _
      moves := by rw [hk]; exact hm _ (Or.inr rfl)
      branches := by
        rw [hb]
        refine hp.imp fun _ _ h => .saga hk h.1 (fun _ hs => ?_) fun _ => h.2.2
        exact Or.inr (Or.inr (h.2.1 (hs.imp_right fun h => h.1))) }
  | cons branch ahead ih =>
    have hcons : base.branches = ahead.reverse ++ branch :: after := by simp [hb]
    -- the write that stops the loop at this branch
    have stop {σ : Session} {b : Branch} {Q : Session → Transaction → Prop}
        (hσ : σ.snap = some base) (hp : List.Forall₂ (Compensated σ base.gid) after passed)
        (hd : b.definition = branch.definition) (hs : b.status = .compensating)
        (hQ : ∀ σ tx, Q σ tx) : coordinator.Does (persistTransaction
          { base with status := .aborting, branches := ahead.reverse ++ b :: passed }) σ Q := by
      refine does_persistTransaction hσ (writes_saga_aborting hk (hm _ (Or.inl rfl)) ?_) (hQ _ _)
      rw [hcons]
      refine forall₂_middle (List.forall₂_same.mpr fun a _ => ⟨rfl, fun h => ?_⟩)
        ⟨hd, fun _ => Or.inr (Or.inl hs)⟩ (hp.imp fun a b h => ⟨h.1, fun hs => ?_⟩)
      · exact h.imp_right fun h => Or.inl h.1
      · exact Or.inr (Or.inr (h.2.1 (hs.imp_right fun h => h.1)))
    rw [Dtm.abortSagaLoop]
    split
    · rename_i hpending
      exact ih hσ hcons (.cons ⟨rfl, by simp [hpending], by simp, by simp⟩ hp)
    · split
      · rename_i hs
        exact ih hσ hcons (.cons ⟨rfl, fun h => absurd h (by simpa using hs), hs⟩ hp)
      · rw [Discipline.does_bind]
        refine does_barrier_plain (show "compensate" ≠ "cancel" by decide)
          (show "compensate" ≠ "try" by decide) (fun hfree => ?_)
          (stop hσ (hp.imp fun _ _ h => h) rfl rfl fun _ _ => trivial)
        have hp' {h : Option Hold} : List.Forall₂
            (Compensated (σ.setHold (branch.key base.gid "compensate") h) base.gid) after passed :=
          hp.imp fun _ _ hc => hc.setHold hfree
        dsimp only
        split
        · rw [Discipline.does_bind]
          refine does_invokeBranch (Or.inl (Session.setHold_self ..)) ?_ fun b hd hs => ?_
          · rw [show Branch.key _ base.gid "compensate" = branch.key base.gid "compensate" from rfl,
              Session.setHold_setHold]
            exact ih (by simpa using hσ) hcons
              (.cons ⟨rfl, fun _ => Or.inl (Session.setHold_self ..), by simp, by simp⟩ hp')
          · simp only [Discipline.does_bind, Bool.false_eq_true, if_false]
            refine does_releaseBarrier (Or.inr (Session.setHold_self ..)) ?_
            rw [show Branch.key _ base.gid "compensate" = branch.key base.gid "compensate" from rfl,
              Session.setHold_setHold, show (⟨base.gid, branch.id, "compensate"⟩ : BranchBarrier) =
                branch.key base.gid "compensate" from rfl, Session.setHold_setHold]
            exact stop (by simpa using hσ) hp' hd rfl fun _ _ => trivial
        · rename_i hnone
          exact ih (by simpa using hσ) hcons
            (.cons ⟨rfl, fun _ => Or.inr hnone, by simp, by simp⟩ hp')

/-! ### Concurrent compensation -/

theorem mem_readyCompensations {tx : Transaction} {i : Nat} (hi : i ∈ tx.readyCompensations) :
    ∃ b, tx.branches[i]? = some b ∧ b.status = .compensating := by
  obtain ⟨b, hb, hp⟩ := (mem_indices tx.branches _ i).mp hi
  simp only [Bool.and_eq_true, decide_eq_true_eq] at hp
  exact ⟨b, hb, hp.1⟩

/-- The tasks of a compensation batch up to the first branch without a URL. -/
theorem compensationTasks_fst (tx : Transaction) (ps : List (Nat × Branch)) :
    (Dtm.compensationTasks tx ps).1 = spawnAll tx.options tx.gid "compensate"
      (fun b => b.compensate.getD "") (ps.takeWhile fun p => p.2.compensate.isSome) := by
  induction ps with
  | nil => rfl
  | cons p ps ih =>
    obtain ⟨i, b⟩ := p
    cases hc : b.compensate with
    | none => simp [Dtm.compensationTasks, hc, spawnAll]
    | some url => simp [Dtm.compensationTasks, hc, ih, spawnAll]

theorem compensationTasks_snd {tx : Transaction} {ps : List (Nat × Branch)}
    (h : (Dtm.compensationTasks tx ps).2 = none) :
    (ps.takeWhile fun p => p.2.compensate.isSome) = ps := by
  induction ps with
  | nil => rfl
  | cons p ps ih =>
    obtain ⟨i, b⟩ := p
    cases hc : b.compensate with
    | none => simp [Dtm.compensationTasks, hc] at h
    | some url =>
      simp only [Dtm.compensationTasks, hc] at h
      simp [hc, ih h]

theorem does_abortConcurrentSagaLoop {fuel : Nat} (hσ : σ.snap = some base)
    (hk : base.kind = .saga) (hs : base.status = .aborting)
    (hb : ∀ b ∈ base.branches, b.status ≠ .succeeded) :
    coordinator.Does (dtm.abortConcurrentSagaLoop fuel base) σ (fun _ _ => True) := by
  induction fuel generalizing σ base with
  | zero => exact Discipline.does_pure.mpr trivial
  | succ fuel ih =>
    rw [Dtm.abortConcurrentSagaLoop]
    split
    · rename_i hall
      simp only [List.all_eq_true, decide_eq_true_eq] at hall
      refine does_persistTransaction hσ ?_ trivial
      exact {
        head := (SameHead.refl base).change _ _ _
        moves := by rw [hk, hs]; rfl
        branches := List.forall₂_same.mpr fun b hbm => .saga hk rfl
          (fun _ h => absurd h (by simp [hb b hbm, hall b hbm])) fun _ => ⟨hb b hbm, hall b hbm⟩ }
    · dsimp only
      split
      · exact Discipline.does_bind.mpr Discipline.does_throw
      · rw [Discipline.does_bind]
        refine does_claim (by decide) (by decide) (fun σ => by simp) fun σ' hsnap hclaimed => ?_
        simp only [if_true, Discipline.does_bind]
        generalize hf : (fun branch : Branch =>
          { branch with attempts := satAdd32 branch.attempts 1 }) = f
        have hdef : ∀ b, (f b).definition = b.definition := fun b => by rw [← hf]; rfl
        have hstatus : ∀ b, (f b).status = b.status := fun b => by rw [← hf]
        set ready := base.readyCompensations
        have hs' : (base.mapBranchesAt ready f).written.status = .aborting := hs
        refine does_persistTransaction (hsnap.trans hσ) ?_ ?_
        · refine Writes.still base.metadata (forall₂_mapBranchesAt (fun _ _ _ _ => ⟨rfl, rfl⟩)
            fun a => ⟨hdef a, hstatus a⟩) ?_ ?_ ?_
          · rw [hk, hs]; rfl
          · rw [hs]; decide
          · rw [hs]; decide
        · have hat : (base.mapBranchesAt ready f).written.branchesAt ready =
              (base.branchesAt ready).map fun p => (p.1, f p.2) := mapBranchesAt_branchesAt ..
          have hin : ∀ i ∈ ready, ∃ b, (base.mapBranchesAt ready f).written.branches[i]? = some b :=
            fun i hi => by
              obtain ⟨b, hbi, -⟩ := mem_readyCompensations hi
              exact ⟨_, getElem?_mapBranchesAt.trans (by rw [hbi]; rfl)⟩
          have hclaimed' : Claimed (σ'.setSnap (some (base.mapBranchesAt ready f).written)) base.gid
              "compensate" ((base.mapBranchesAt ready f).written.branchesAt ready) := by
            rw [hat]
            exact (hclaimed.map hdef).setSnap
          have hfst := compensationTasks_fst (base.mapBranchesAt ready f).written
            ((base.mapBranchesAt ready f).written.branchesAt ready)
          have hsnd := @compensationTasks_snd (base.mapBranchesAt ready f).written
            ((base.mapBranchesAt ready f).written.branchesAt ready)
          generalize Dtm.compensationTasks _ _ = tasks at hfst hsnd
          obtain ⟨tasks, missing⟩ := tasks
          dsimp only at hfst hsnd ⊢
          subst hfst
          cases missing with
          | some error =>
            rw [Discipline.does_bind]
            refine does_abandonBatch ((hclaimed'.sublist (List.takeWhile_sublist _)).inBatch _ _ _ _
              (fun p hp => branchesAt_getElem? ((List.takeWhile_sublist _).subset hp)) ?_)
              fun _ => Discipline.does_throw
            refine List.Nodup.sublist ((List.takeWhile_sublist _).map _) ?_
            rw [branchesAt_map_fst hin]
            exact nodup_indices ..
          | none =>
            rw [hsnd rfl, Discipline.does_bind]
            refine does_runBatch _ ready hclaimed' (nodup_indices ..) hin
              fun σ'' bs failed hsnap' hbatch => ?_
            rw [Discipline.does_bind]
            refine does_persistTransaction (hsnap'.trans rfl) (writes_saga_stays hk hs' ?_) ?_
            · exact hbatch.forall₂ (fun _ a _ _ => ⟨rfl, fun h => h.imp_right Or.inl⟩)
                fun _ a b _ _ hj => ⟨hj.1, fun _ => Or.inr (hj.2.elim
                  (fun h => Or.inr (Or.inl h.2)) fun h => Or.inl h.1)⟩
            · split
              · refine ih rfl hk hs fun b hbm => ?_
                rcases hbatch.of_mem hbm with hbm | ⟨a, hj⟩
                · obtain ⟨a, ha, rfl | rfl⟩ := of_mem_mapBranchesAt hbm
                  · rw [hstatus]
                    exact hb a ha
                  · exact hb _ ha
                · rcases hj.2 with h | h <;> rw [h.1] <;> decide
              · exact Discipline.does_pure.mpr trivial

theorem aborted_definition (b : Branch) : b.aborted.definition = b.definition := by
  rw [Branch.aborted]
  split <;> rfl

theorem aborted_status (b : Branch) : b.aborted.status =
    if b.status = .succeeded ∨ b.status = .compensating then .compensating else .skipped := by
  rw [Branch.aborted]
  split <;> rename_i h <;> simp [h]

theorem does_abortConcurrentSaga (hσ : σ.snap = some base) (hk : base.kind = .saga)
    (hm : ∀ target, target = .aborting ∨ target = .aborted →
      TransactionStatus.moves .saga base.status target = true) :
    coordinator.Does (dtm.abortConcurrentSaga base) σ (fun _ _ => True) := by
  simp only [Dtm.abortConcurrentSaga, Discipline.does_bind, does_ofExcept]
  intro _ _
  refine does_persistTransaction hσ (writes_saga_aborting hk (hm _ (Or.inl rfl)) ?_) ?_
  · rw [List.forall₂_map_right_iff, List.forall₂_same]
    refine fun b _ => ⟨aborted_definition b, fun h => Or.inr (Or.inl ?_)⟩
    rw [aborted_status, if_pos (h.imp_right fun h => h.1)]
  · refine does_abortConcurrentSagaLoop rfl hk rfl fun b hb => ?_
    obtain ⟨a, -, rfl⟩ := List.mem_map.mp hb
    rw [aborted_status]
    split <;> decide

theorem does_abortSaga (gid : String) :
    coordinator.Does (dtm.abortSaga gid) σ (fun _ _ => True) := by
  simp only [Dtm.abortSaga, Discipline.does_bind, does_loadTransaction, does_ofExcept,
    ensureKind_eq_ok]
  intro tx _ hk
  split
  · exact Discipline.does_pure.mpr trivial
  · simp only [Discipline.does_bind, does_ofExcept, ensureStatus_eq_ok]
    intro _ hs
    have hm : ∀ target, target = .aborting ∨ target = .aborted →
        TransactionStatus.moves .saga tx.status target = true := by
      simp only [List.mem_cons, List.not_mem_nil, or_false] at hs
      rcases hs with hs | hs | hs <;> rw [hs] <;> rintro _ (rfl | rfl) <;> rfl
    split
    · exact does_abortConcurrentSaga rfl hk hm
    · exact does_abortSagaLoop rfl hk hm (by simp) .nil

/-! ### Execution -/

/-- The write that gives up: the branches that succeeded are Compensating. -/
theorem forall₂_compensating {bs : List Branch} (hs : base.status = .succeeding) :
    List.Forall₂ (fun a b => b.definition = a.definition ∧
      (a.status = .succeeded ∨ (a.status = .compensating ∧ base.status = .aborting) →
        b.status = .succeeded ∨ b.status = .compensating ∨
          σ.Done (a.key base.gid "compensate") ∨ a.compensate = none)) bs
      (bs.map fun previous =>
        if previous.status = .succeeded then { previous with status := .compensating }
        else previous) := by
  rw [List.forall₂_map_right_iff, List.forall₂_same]
  intro a _
  split
  · exact ⟨rfl, fun _ => Or.inr (Or.inl rfl)⟩
  · rename_i ha
    exact ⟨rfl, fun h => absurd (h.resolve_right fun h => by simp [hs] at h) ha⟩

theorem does_startSagaLoop {gid : String} (hσ : σ.snap = some base) (hk : base.kind = .saga)
    (hs : base.status = .succeeding) {passed ahead : List Branch}
    (hb : base.branches = passed ++ ahead) :
    coordinator.Does (dtm.startSagaLoop gid base passed ahead) σ (fun _ _ => True) := by
  induction ahead generalizing σ base passed with
  | nil =>
    refine does_persistTransaction hσ (writes_saga hk (by rw [hs]; rfl) (by decide) (by decide) ?_)
      trivial
    rw [hb, List.append_nil]
    exact SameBranches.refl passed
  | cons branch ahead ih =>
    have hsame {b : Branch} (hd : b.definition = branch.definition) :
        SameBranches base.branches (passed ++ b :: ahead) :=
      hb ▸ forall₂_middle (SameBranches.refl passed) hd (SameBranches.refl ahead)
    rw [Dtm.startSagaLoop]
    split
    · exact ih hσ hk hs (by simp [hb])
    · rw [Discipline.does_bind]
      refine does_barrier_plain (show "action" ≠ "cancel" by decide)
        (show "action" ≠ "try" by decide) (fun _ => ?_) (by simp)
      simp only [ne_eq, not_true_eq_false, if_false, Discipline.does_bind]
      refine does_invokeBranch (Or.inl (Session.setHold_self ..)) ?_ fun b hd _ => ?_
      · simp only [if_true, Discipline.does_bind]
        refine does_persistTransaction (by simpa using hσ) (writes_saga_runs hk hs ?_) ?_
        · exact hsame rfl
        · refine @ih _ (Transaction.written { base with branches := passed ++ _ :: ahead })
            rfl hk hs _ ?_
          simp [Transaction.written]
      · simp only [Bool.false_eq_true, if_false]
        split
        · rw [Discipline.does_bind]
          refine does_releaseBarrier (Or.inr (Session.setHold_self ..)) ?_
          refine does_persistTransaction (by simpa using hσ) (writes_saga_runs hk hs ?_) trivial
          exact hsame hd
        · rw [Discipline.does_bind]
          refine does_persistTransaction (by simpa using hσ)
            (writes_saga_aborting hk (by rw [hs]; rfl) ?_) (does_abortSaga gid)
          rw [List.map_append, List.map_cons, hb]
          refine List.rel_append (forall₂_compensating hs) (.cons ⟨?_, fun h => ?_⟩
            (forall₂_compensating hs))
          · exact hd
          · exact Or.inr (Or.inl rfl)

theorem mem_readyBranches {tx : Transaction} {i : Nat} (hi : i ∈ tx.readyBranches) :
    ∃ b, tx.branches[i]? = some b := by
  obtain ⟨b, hb, -⟩ := (mem_indices tx.branches _ i).mp hi
  exact ⟨b, hb⟩

theorem does_startConcurrentSagaLoop {fuel : Nat} (hσ : σ.snap = some base)
    (hk : base.kind = .saga) (hs : base.status = .succeeding) :
    coordinator.Does (dtm.startConcurrentSagaLoop fuel base) σ (fun _ _ => True) := by
  induction fuel generalizing σ base with
  | zero => exact Discipline.does_pure.mpr trivial
  | succ fuel ih =>
    rw [Dtm.startConcurrentSagaLoop]
    split
    · exact does_persistTransaction hσ (writes_saga hk (by rw [hs]; rfl) (by decide) (by decide)
        (SameBranches.refl _)) trivial
    · dsimp only
      split
      · exact Discipline.does_pure.mpr trivial
      · rw [Discipline.does_bind]
        refine does_claim (by decide) (by decide) (fun σ => by simp) fun σ' hsnap hclaimed => ?_
        simp only [if_true, Discipline.does_bind]
        generalize hf : (fun branch : Branch =>
          { branch with status := .running, attempts := satAdd32 branch.attempts 1 }) = f
        have hdef : ∀ b, (f b).definition = b.definition := fun b => by rw [← hf]; rfl
        have hrun : ∀ b, (f b).status = .running := fun b => by rw [← hf]
        set ready := base.readyBranches
        have hs' : (base.mapBranchesAt ready f).written.status = .succeeding := hs
        refine does_persistTransaction (hsnap.trans hσ) (writes_saga_runs hk hs ?_) ?_
        · exact forall₂_mapBranchesAt (fun _ _ _ _ => rfl) hdef
        · have hat : (base.mapBranchesAt ready f).written.branchesAt ready =
              (base.branchesAt ready).map fun p => (p.1, f p.2) := mapBranchesAt_branchesAt ..
          refine does_runBatch Branch.action ready ?_ (nodup_indices ..) (fun i hi => ?_)
            fun σ'' bs failed hsnap' hbatch => ?_
          · rw [hat]
            exact (hclaimed.map hdef).setSnap
          · obtain ⟨b, hb⟩ := mem_readyBranches hi
            exact ⟨_, getElem?_mapBranchesAt.trans (by rw [hb]; rfl)⟩
          · dsimp only
            split
            · rw [Discipline.does_bind]
              refine does_persistTransaction (hsnap'.trans rfl)
                (writes_saga_aborting hk (by rw [hs']; rfl) ?_)
                (does_abortConcurrentSaga rfl hk (by rintro _ (rfl | rfl) <;> rfl))
              -- a branch that was Succeeded before the batch was not in it
              rw [List.forall₂_map_right_iff]
              refine hbatch.forall₂ (fun i a ha hi => ?_) fun i a b ha hi hj => ?_
              · split
                · exact ⟨rfl, fun _ => Or.inr (Or.inl rfl)⟩
                · rename_i hns
                  exact ⟨rfl, fun h => absurd (h.resolve_right fun h => by simp [hs'] at h) hns⟩
              · refine ⟨by split <;> exact hj.1, fun h => absurd h ?_⟩
                obtain ⟨a', -, rfl⟩ := Option.map_eq_some_iff.mp
                  (getElem?_mapBranchesAt.symm.trans ha)
                rw [if_pos hi, hrun]
                simp
            · rw [Discipline.does_bind]
              refine does_persistTransaction (hsnap'.trans rfl) (writes_saga_runs hk hs' ?_) ?_
              · exact hbatch.forall₂ (fun _ _ _ _ => rfl) fun _ _ _ _ _ hj => hj.1
              · split
                · exact ih rfl hk hs
                · exact Discipline.does_pure.mpr trivial

theorem does_startSaga (gid : String) :
    coordinator.Does (dtm.startSaga gid) σ (fun _ _ => True) := by
  simp only [Dtm.startSaga, Discipline.does_bind, does_loadTransaction, does_ofExcept,
    ensureKind_eq_ok]
  intro tx _ hk
  split
  · exact Discipline.does_pure.mpr trivial
  · simp only [Discipline.does_bind, does_ofExcept, ensureStatus_eq_ok]
    intro _ hs
    have hw {σ : Session} : Writes σ tx { tx with status := .succeeding } := by
      refine Writes.status ?_ (by decide) (by decide)
      simp only [List.mem_cons, List.not_mem_nil, or_false] at hs
      rcases hs with hs | hs <;> rw [hs] <;> rfl
    split
    · simp only [Dtm.startConcurrentSaga, Discipline.does_bind, does_ofExcept]
      intro _ _
      refine does_persistTransaction rfl hw (does_startConcurrentSagaLoop ?_ ?_ ?_)
      exacts [rfl, hk, rfl]
    · rw [Discipline.does_bind]
      refine does_persistTransaction rfl hw (does_startSagaLoop ?_ ?_ ?_ ?_)
      exacts [rfl, hk, rfl, rfl]

end Saga

end RozeDtm
