import RozeDtm.Model.Coordinator.Phase2
import RozeDtm.Model.Coordinator.Message
import RozeDtm.Trail.Rules

/-!
# TCC, XA and Message write what has developed
-/

namespace RozeDtm

open Conc

section Loops

variable {dtm : Dtm} {C : BranchCall → Prop} {σ : Trail} {gid : String} {tx : Transaction}

theorem mem_forwardOps {kind k : TransactionKind} {op : String} (hk : kind = k)
    (hop : op ∈ k.forwardOps) : op ∈ kind.forwardOps := hk ▸ hop

/-- A branch that was called and is Succeeded for it. -/
theorem Branch.Develops.won (op : String) {won : Set BranchBarrier} {kind : TransactionKind}
    {a b : Branch} (hd : b.definition = a.definition) (hn : b.nextRetryMillis = none)
    (hop : op ∈ kind.forwardOps) (hwon : a.key gid op ∈ won) :
    Branch.Develops won gid kind a b :=
  .settled hd hn fun _ => Or.inr ⟨op, hop, hwon⟩

/-- A branch that was called and ends in a status that is not Succeeded. -/
theorem Branch.Develops.ended {won : Set BranchBarrier} {kind : TransactionKind} {a b : Branch}
    (hd : b.definition = a.definition) (hn : b.nextRetryMillis = none)
    (hs : b.status ≠ .succeeded) : Branch.Develops won gid kind a b :=
  .settled hd hn fun h => absurd h hs

/-- A branch that is Skipped once it was called, or because it need not be. -/
theorem Branch.Develops.dropped {won : Set BranchBarrier} {kind : TransactionKind} {a b : Branch}
    (hd : b.definition = a.definition) (hn : b.nextRetryMillis = none) (hs : b.status = .skipped) :
    Branch.Develops won gid kind a b :=
  .ended hd hn (by rw [hs]; decide)

/-! ### TCC and XA -/

theorem developing_prepareTccLoop (hC : ∀ c, c.op = "try" → C c) (hk : tx.kind = .tcc)
    {passed ahead : List Branch} (h : σ.From { tx with branches := passed ++ ahead }) :
    (developing C).Does (dtm.prepareTccLoop tx passed ahead) σ (fun _ _ => True) := by
  induction ahead generalizing σ passed with
  | nil =>
    rw [List.append_nil] at h
    exact developing_persistTransaction (h.status .prepared) trivial
  | cons branch ahead ih =>
    rw [Dtm.prepareTccLoop]
    split
    · exact ih (h.pass (.refl branch))
    · simp only [Discipline.does_bind, developing_barrier]
      intro d
      cases d with
      | execute =>
        simp only [Discipline.does_bind]
        refine developing_invokeBranch (hC _ rfl) (ih ?_) fun b hb => ?_
        · exact (h.addWon _).pass (.won "try" rfl rfl (mem_forwardOps hk (by decide))
            (Set.mem_insert _ _))
        · simp only [Bool.false_eq_true, if_false, Discipline.does_bind,
            developing_releaseBarrier]
          exact developing_persistTransaction (h.carry _ (.retry hb rfl)) trivial
      | skipDuplicate => exact ih (h.pass (.refl branch))
      | skipNullCompensation => exact Discipline.does_throw
      | skipCancelledTry =>
        exact developing_persistTransaction (h.carry _ (.dropped rfl rfl rfl)) trivial

theorem developing_prepareTcc (hC : ∀ c, c.op = "try" → C c) :
    (developing C).Does (dtm.prepareTcc gid) σ (fun _ _ => True) := by
  simp only [Dtm.prepareTcc, Discipline.does_bind, developing_loadTransaction, does_ofExcept,
    ensureKind_eq_ok]
  intro tx _ hk
  split
  · exact Discipline.does_pure.mpr trivial
  · simp only [Discipline.does_bind, does_ofExcept]
    exact fun _ _ => developing_prepareTccLoop hC (by exact hk) ((σ.from_addRead tx).status .trying)

/-- The loop of `confirm_tcc`, `commit_xa` and `rollback_xa`. -/
theorem developing_phase2Loop {op : String} {url : Branch → Except Err String}
    {onOk : BranchStatus} {final : TransactionStatus} (hC : ∀ c, c.op = op → C c)
    (hop : op ∈ tx.kind.forwardOps ∨ onOk ≠ .succeeded) {passed ahead : List Branch}
    (h : σ.From { tx with branches := passed ++ ahead }) :
    (developing C).Does (dtm.phase2Loop op url onOk final tx passed ahead) σ
      (fun _ _ => True) := by
  induction ahead generalizing σ passed with
  | nil =>
    rw [List.append_nil] at h
    exact developing_persistTransaction (h.status final) trivial
  | cons branch ahead ih =>
    simp only [Dtm.phase2Loop, Discipline.does_bind, developing_barrier]
    intro d
    split
    · simp only [Discipline.does_bind, does_ofExcept]
      intro target _
      refine developing_invokeBranch (hC _ rfl) (ih ?_) fun b hb => ?_
      · refine (h.addWon _).pass ?_
        rcases hop with hop | hne
        · exact .won op rfl rfl hop (Set.mem_insert _ _)
        · exact .ended rfl rfl hne
      · simp only [Bool.false_eq_true, if_false, Discipline.does_bind, developing_releaseBarrier]
        exact developing_persistTransaction (h.carry _ (.retry hb rfl)) trivial
    · exact ih (h.pass (.refl branch))

theorem developing_confirmTcc (hC : ∀ c, c.op = "confirm" → C c) :
    (developing C).Does (dtm.confirmTcc gid) σ (fun _ _ => True) := by
  simp only [Dtm.confirmTcc, Discipline.does_bind, developing_loadTransaction, does_ofExcept,
    ensureKind_eq_ok]
  intro tx _ hk
  split
  · exact Discipline.does_pure.mpr trivial
  · simp only [Discipline.does_bind, does_ofExcept]
    exact fun _ _ => developing_phase2Loop hC (Or.inl (mem_forwardOps (by exact hk) (by decide)))
      ((σ.from_addRead tx).status _)

theorem developing_cancelTccLoop (hC : ∀ c, c.op = "cancel" → C c) {passed ahead : List Branch}
    (h : σ.From { tx with branches := passed ++ ahead }) :
    (developing C).Does (dtm.cancelTccLoop tx passed ahead) σ (fun _ _ => True) := by
  induction ahead generalizing σ passed with
  | nil =>
    rw [List.append_nil] at h
    exact developing_persistTransaction (h.status .aborted) trivial
  | cons branch ahead ih =>
    simp only [Dtm.cancelTccLoop, Discipline.does_bind, developing_barrier]
    intro d
    split
    · simp only [Discipline.does_bind, does_ofExcept]
      intro target _
      refine developing_invokeBranch (hC _ rfl) (ih ?_) fun b hb => ?_
      · exact (h.addWon _).pass (.dropped rfl rfl rfl)
      · simp only [Bool.false_eq_true, if_false, Discipline.does_bind, developing_releaseBarrier]
        exact developing_persistTransaction (h.carry _ (.retry hb rfl)) trivial
    · cases d with
      | execute => exact Discipline.does_throw
      | skipDuplicate => exact ih (h.pass (.refl branch))
      | skipNullCompensation => exact ih (h.pass (.dropped rfl rfl rfl))
      | skipCancelledTry => exact Discipline.does_throw

theorem developing_cancelTcc (hC : ∀ c, c.op = "cancel" → C c) :
    (developing C).Does (dtm.cancelTcc gid) σ (fun _ _ => True) := by
  simp only [Dtm.cancelTcc, Discipline.does_bind, developing_loadTransaction, does_ofExcept]
  intro tx _ _
  split
  · exact Discipline.does_pure.mpr trivial
  · simp only [Discipline.does_bind, does_ofExcept]
    exact fun _ _ => developing_cancelTccLoop hC ((σ.from_addRead tx).status _)

theorem developing_prepareXa :
    (developing C).Does (Dtm.prepareXa gid) σ (fun _ _ => True) := by
  simp only [Dtm.prepareXa, Discipline.does_bind, developing_transactionOfKind]
  intro tx _
  split
  · exact Discipline.does_pure.mpr trivial
  · simp only [Discipline.does_bind, does_ofExcept]
    exact fun _ _ => developing_persistTransaction ((σ.from_addRead tx).status _) trivial

theorem developing_commitXa (hC : ∀ c, c.op = "commit" → C c) :
    (developing C).Does (dtm.commitXa gid) σ (fun _ _ => True) := by
  simp only [Dtm.commitXa, Discipline.does_bind, developing_transactionOfKind]
  intro tx hk
  split
  · exact Discipline.does_pure.mpr trivial
  · simp only [Discipline.does_bind, does_ofExcept]
    exact fun _ _ => developing_phase2Loop hC (Or.inl (mem_forwardOps (by exact hk) (by decide)))
      ((σ.from_addRead tx).status _)

theorem developing_rollbackXa (hC : ∀ c, c.op = "rollback" → C c) :
    (developing C).Does (dtm.rollbackXa gid) σ (fun _ _ => True) := by
  simp only [Dtm.rollbackXa, Discipline.does_bind, developing_transactionOfKind]
  intro tx _
  split
  · exact Discipline.does_pure.mpr trivial
  · simp only [Discipline.does_bind, does_ofExcept]
    exact fun _ _ => developing_phase2Loop hC (Or.inr (by decide)) ((σ.from_addRead tx).status _)

end Loops

end RozeDtm
