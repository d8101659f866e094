import RozeDtm.Model.Coordinator.Message
import RozeDtm.Session.Batch

/-!
# The Message operations keep the discipline

A branch is written Succeeded only when it was so before or when its call has just
returned success.  The sequential loop of `dispatch_message` also passes the branches
whose barrier it finds taken; the concurrent mode does not.
-/

namespace RozeDtm

open Conc

section Message

variable {dtm : Dtm} {σ : Session} {base : Transaction}

theorem does_prepareMessage (gid : String) :
    coordinator.Does (Dtm.prepareMessage gid) σ (fun _ _ => True) := by
  simp only [Dtm.prepareMessage, Discipline.does_bind, does_transactionOfKind]
  intro tx hk
  split
  · exact Discipline.does_pure.mpr trivial
  · simp only [Discipline.does_bind, does_ofExcept, ensureStatus_eq_ok]
    intro _ hs
    refine does_persistTransaction rfl (Writes.status ?_ (by decide) (by decide)) trivial
    rw [List.mem_singleton.mp hs]
    rfl

theorem does_abortMessage (gid : String) :
    coordinator.Does (Dtm.abortMessage gid) σ (fun _ _ => True) := by
  simp only [Dtm.abortMessage, Discipline.does_bind, does_transactionOfKind]
  intro tx hk
  split
  · exact Discipline.does_pure.mpr trivial
  · simp only [Discipline.does_bind, does_ofExcept, ensureStatus_eq_ok]
    intro _ hs
    refine does_persistTransaction rfl ?_ trivial
    exact {
      head := (SameHead.refl tx).change _ _ _
      moves := by
        simp only [List.mem_cons, List.not_mem_nil, or_false] at hs
        rcases hs with hs | hs <;> rw [hs] <;> rfl
      branches := by
        rw [List.forall₂_map_right_iff, List.forall₂_same]
        exact fun b _ => .message hk rfl (by simp) (by simp) }

/-! ### Sequential delivery -/

/-- What a passed branch of the loop of `dispatch_message` has. -/
def Passed (σ : Session) (gid : String) (a b : Branch) : Prop :=
  b.definition = a.definition ∧
    (b.status = .succeeded → a.status = .succeeded ∨ σ.Done (a.key gid "message")) ∧
    (b.status = .succeeded ∨ σ.dup (a.key gid "message"))

theorem Passed.setHold {gid : String} {a b : Branch} {k : BranchBarrier} {h : Option Hold}
    (hab : Passed σ gid a b) (hk : σ.hold k = none) : Passed (σ.setHold k h) gid a b :=
  ⟨hab.1, fun hs => (hab.2.1 hs).imp_right fun hd => hd.setHold hk, hab.2.2⟩

theorem Passed.addDup {gid : String} {a b : Branch} {k : BranchBarrier}
    (hab : Passed σ gid a b) : Passed (σ.addDup k) gid a b :=
  ⟨hab.1, hab.2.1, hab.2.2.imp_right Or.inr⟩

theorem does_dispatchMessageLoop (hσ : σ.snap = some base) (hk : base.kind = .message)
    (hs : base.status = .succeeding) (hseq : base.options.concurrent = false)
    {before passed ahead : List Branch} (hb : base.branches = before ++ ahead)
    (hp : List.Forall₂ (Passed σ base.gid) before passed) :
    coordinator.Does (dtm.dispatchMessageLoop base passed ahead) σ (fun _ _ => True) := by
  induction ahead generalizing σ before passed with
  | nil =>
    rw [List.append_nil] at hb
    refine does_persistTransaction hσ ?_ trivial
    exact {
      head := (SameHead.refl base).change _ _ _
      moves := by rw [hk, hs]; rfl
      branches := by
        rw [hb]
        exact hp.imp fun _ _ h =>
          .message hk h.1 h.2.1 fun _ => h.2.2.imp_right fun hd => ⟨hseq, hd⟩ }
  | cons branch ahead ih =>
    have hsnoc : base.branches = (before ++ [branch]) ++ ahead := by simp [hb]
    rw [Dtm.dispatchMessageLoop]
    split
    · rename_i hbs
      exact ih hσ hsnoc (forall₂_snoc hp ⟨rfl, Or.inl, Or.inl hbs⟩)
    · rw [Discipline.does_bind]
      refine does_barrier_plain (show "message" ≠ "cancel" by decide)
        (show "message" ≠ "try" by decide) (fun hfree => ?_) ?_
      · simp only [if_true, Discipline.does_bind]
        refine does_invokeBranch (Or.inl (Session.setHold_self ..)) ?_ fun b hd _ => ?_
        · rw [show Branch.key _ base.gid "message" = branch.key base.gid "message" from rfl,
            Session.setHold_setHold]
          exact ih (by simpa using hσ) hsnoc (forall₂_snoc
            (hp.imp fun _ _ h => h.setHold hfree)
            ⟨rfl, fun _ => Or.inr (Session.setHold_self ..), Or.inl rfl⟩)
        · simp only [Discipline.does_bind, Bool.false_eq_true, if_false]
          refine does_releaseBarrier (Or.inr (Session.setHold_self ..)) ?_
          rw [show Branch.key _ base.gid "message" = branch.key base.gid "message" from rfl,
            Session.setHold_setHold, show (⟨base.gid, branch.id, "message"⟩ : BranchBarrier) =
              branch.key base.gid "message" from rfl, Session.setHold_setHold]
          refine does_persistTransaction (by simpa using hσ) ?_ trivial
          exact {
            head := (SameHead.refl base).change _ _ _
            moves := by rw [hk, hs]; rfl
            branches := by
              rw [hb]
              refine forall₂_middle (hp.imp fun _ _ h => ?_) (.message hk hd (by simp) (by simp [hs]))
                (List.forall₂_same.mpr fun b _ => .message hk rfl Or.inl (by simp [hs]))
              exact .message hk h.1 (h.setHold hfree).2.1 (by simp [hs]) }
      · exact ih (by simpa using hσ) hsnoc (forall₂_snoc
          (hp.imp fun _ _ h => h.addDup) ⟨rfl, Or.inl, Or.inr (Or.inl rfl)⟩)

/-! ### Concurrent delivery -/

theorem mem_undelivered {tx : Transaction} {i : Nat} :
    i ∈ tx.undelivered ↔ ∃ b, tx.branches[i]? = some b ∧ b.status ≠ .succeeded := by
  simpa [Transaction.undelivered] using
    mem_indices tx.branches (fun p => p.1.status ≠ .succeeded) i

theorem does_dispatchMessageConcurrent (hσ : σ.snap = some base) (hk : base.kind = .message)
    (hs : base.status = .succeeding) :
    coordinator.Does (dtm.dispatchMessageConcurrent base) σ (fun _ _ => True) := by
  have hdone {i : Nat} {b : Branch} (hb : base.branches[i]? = some b)
      (hi : i ∉ base.undelivered) : b.status = .succeeded := by
    rw [mem_undelivered] at hi
    exact Decidable.not_not.mp fun h => hi ⟨b, hb, h⟩
  rw [Dtm.dispatchMessageConcurrent]
  split
  · rename_i hempty
    rw [List.isEmpty_iff] at hempty
    refine does_persistTransaction hσ ?_ trivial
    exact {
      head := (SameHead.refl base).change _ _ _
      moves := by rw [hk, hs]; rfl
      branches := List.forall₂_same.mpr fun b hb => by
        obtain ⟨i, hi⟩ := List.mem_iff_getElem?.mp hb
        exact .message hk rfl Or.inl fun _ => Or.inl (hdone hi (by simp [hempty])) }
  · rw [Discipline.does_bind]
    refine does_claim (by decide) (by decide) (fun σ => ?_) fun σ' hsnap hclaimed => ?_
    · simp
    · simp only [if_true, Discipline.does_bind]
      generalize hf : (fun branch : Branch =>
        { branch with status := .running, attempts := satAdd32 branch.attempts 1 }) = f
      have hdef : ∀ b, (f b).definition = b.definition := fun b => by rw [← hf]; rfl
      have hrun : ∀ b, (f b).status = .running := fun b => by rw [← hf]
      refine does_persistTransaction (hsnap.trans hσ) ?_ ?_
      · exact {
          head := (SameHead.refl base).change _ _ _
          moves := by rw [hk]; show TransactionStatus.moves _ _ base.status = _; rw [hs]; rfl
          branches := by
            have hns : TransactionStatus.succeeding ≠ .succeeded := by decide
            have hs' : (base.mapBranchesAt base.undelivered f).status = .succeeding := hs
            rw [hs']
            exact forall₂_mapBranchesAt
              (fun i a _ _ => .message hk rfl Or.inl fun h => absurd h hns)
              fun a => .message hk (hdef a) (fun h => by rw [hrun] at h; cases h)
                fun h => absurd h hns }
      · have hat : (base.mapBranchesAt base.undelivered f).written.branchesAt base.undelivered =
            (base.branchesAt base.undelivered).map fun p => (p.1, f p.2) :=
          mapBranchesAt_branchesAt ..
        refine does_runBatch Branch.action base.undelivered ?_
          (nodup_indices ..) (fun i hi => ?_) fun σ'' bs failed hsnap' hbatch => ?_
        · rw [hat]
          exact (hclaimed.map hdef).setSnap
        · obtain ⟨b, hb, -⟩ := mem_undelivered.mp hi
          exact ⟨_, getElem?_mapBranchesAt.trans (by rw [hb]; rfl)⟩
        · refine does_persistTransaction (hsnap'.trans (Session.setSnap_snap ..)) ?_ trivial
          exact {
            head := (SameHead.refl _).change _ _ _
            moves := by
              show TransactionStatus.moves base.kind base.status _ = true
              rw [hk, hs]
              split <;> rfl
            branches := by
              refine hbatch.forall₂ (fun i a ha hi => .message hk rfl Or.inl fun _ => Or.inl ?_)
                fun i a b _ _ hj => .message hk hj.1 (fun h => ?_) fun h => ?_
              · obtain ⟨b, hb, hba⟩ :=
                  Option.map_eq_some_iff.mp (getElem?_mapBranchesAt.symm.trans ha)
                rw [if_neg hi] at hba
                rw [← hba]
                exact hdone hb hi
              · rcases hj.2 with hj | hj
                · exact Or.inr hj.2
                · rw [hj.1] at h
                  cases h
              · rcases hj.2 with hj | hj
                · exact Or.inl hj.1
                · rw [if_neg (by simpa using hj.2)] at h
                  cases h }

theorem does_dispatchMessage (gid : String) :
    coordinator.Does (dtm.dispatchMessage gid) σ (fun _ _ => True) := by
  simp only [Dtm.dispatchMessage, Discipline.does_bind, does_transactionOfKind]
  intro tx hk
  split
  · exact Discipline.does_pure.mpr trivial
  · simp only [Discipline.does_bind, does_ofExcept, ensureStatus_eq_ok]
    intro _ hs
    -- from the record that is in Succeeding, however it came to be so
    have dispatch {σ : Session} {tx : Transaction} (hσ : σ.snap = some tx)
        (hk : tx.kind = .message) (hs : tx.status = .succeeding) (now : Nat) :
        coordinator.Does (do
          if !messageDispatchDue tx now then
            return tx
          if tx.options.concurrent then
            dtm.dispatchMessageConcurrent tx
          else
            dtm.dispatchMessageLoop tx [] tx.branches) σ (fun _ _ => True) := by
      split
      · exact Discipline.does_pure.mpr trivial
      · split
        · exact does_dispatchMessageConcurrent hσ hk hs
        · rename_i hseq
          exact does_dispatchMessageLoop hσ hk hs (by simpa using hseq) rfl .nil
    split
    · rw [Discipline.does_bind]
      refine does_persistTransaction rfl (Writes.status ?_ (by decide) (by decide)) ?_
      · simp only [List.mem_cons, List.not_mem_nil, or_false] at hs
        rcases hs with hs | hs | hs <;> rw [hs] <;> rfl
      · rw [Discipline.does_bind, does_currentMillis]
        intro now
        refine dispatch ?_ ?_ ?_ now
        · rfl
        · exact hk
        · rfl
    · rename_i heq
      simp only [Discipline.does_bind, Discipline.does_pure, does_currentMillis]
      exact fun now => dispatch rfl hk (by simpa using heq) now

end Message

end RozeDtm
