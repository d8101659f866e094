import RozeDtm.Session.Scope

/-!
# Operations that do not decide to commit

`undecided g` is the discipline of the operations that prepare, abort and reset, and of the
recovery tick: over a TCC, XA or Message `g` for which nobody has asked to commit they
write no record with the decision, and they call no second-phase endpoint that carries it
out.  The tick sees a stored record and keeps to this because of what the record is, not
because of what it is asked to do.
-/

namespace RozeDtm

open Conc

/-- A TCC, XA or Message that nobody has asked to commit. -/
structure Undecided (tx : Transaction) : Prop where
  kind : tx.kind = .tcc ∨ tx.kind = .xa ∨ tx.kind = .message
  succeeding : tx.status ≠ .succeeding
  succeeded : tx.status ≠ .succeeded

/-- The calls that carry a commit out: Confirm, XA commit, and messages. -/
def commitOps : List String := ["confirm", "commit", "message"]

/-- What an operation does that leaves `g` undecided. -/
def undecided (g : String) : Discipline effects Unit where
  pre := fun _ o => match o with
    | .updateTransaction tx | .insertTransaction tx => tx.gid = g → Undecided tx
    | .invokeBegin c => c.gid = g → c.op ∉ commitOps
    | .deleteTransactionIfUnchanged _ => False
    | _ => True
  sees := fun _ o r => match o with
    | .getTransaction gid =>
      ∀ tx, (r : Option Transaction) = some tx → tx.gid = gid ∧ (gid = g → Undecided tx)
    | .listTransactions => ∀ tx, List.Mem tx r → tx.gid = g → Undecided tx
    | _ => True
  next := fun _ _ _ => ()

/-- What stays with another transaction leaves `g` undecided. -/
theorem within_le_undecided {gid g : String} (hg : gid ≠ g) :
    Discipline.Le (within gid) (undecided g) where
  pre := by
    rintro _ o hp
    cases o with
    | updateTransaction tx => exact fun h => absurd ((hp : tx.gid = gid).symm.trans h) hg
    | invokeBegin c => exact fun h => absurd ((hp : c.gid = gid).symm.trans h) hg
    | insertTransaction | deleteTransactionIfUnchanged => exact hp.elim
    | _ => trivial
  sees := by
    rintro _ o r hr
    cases o with
    | getTransaction gid' => exact fun tx htx => (hr tx htx).1
    | _ => trivial
  next := rfl

namespace Undecided

variable {tx : Transaction}

/-- Another status that is no decision to commit. -/
theorem withStatus (h : Undecided tx) {st : TransactionStatus} {bs : List Branch}
    (h1 : st ≠ .succeeding) (h2 : st ≠ .succeeded) :
    Undecided { tx with branches := bs, status := st } := ⟨h.kind, h1, h2⟩

theorem written (h : Undecided tx) : Undecided tx.written := ⟨h.kind, h.succeeding, h.succeeded⟩

end Undecided

section Walk

variable {g : String} {t : Unit} {dtm : Dtm}

/-! ### Steps -/

theorem undecided_call {o : Effect} {Q : Unit → o.Reply → Prop} :
    (undecided g).Does (Act.call o) t Q ↔
      (undecided g).pre t o ∧ ∀ r, (undecided g).sees t o r → Q () r :=
  Discipline.does_perform

@[simp] theorem undecided_loadTransaction {Q : Unit → Transaction → Prop} :
    (undecided g).Does (loadTransaction g) t Q ↔ ∀ tx, tx.gid = g → Undecided tx → Q () tx := by
  simp only [loadTransaction, Discipline.does_bind, does_ofOption]
  constructor
  · intro h tx hg hu
    refine (undecided_call.mp h).2 (some tx) ?_ tx rfl
    rintro _ ⟨⟩
    exact ⟨hg, fun _ => hu⟩
  · intro h
    refine undecided_call.mpr ⟨trivial, fun r hr tx htx => ?_⟩
    obtain ⟨hg, hu⟩ := hr tx htx
    exact h tx hg (hu rfl)

@[simp] theorem undecided_transactionOfKind {kind : TransactionKind}
    {Q : Unit → Transaction → Prop} :
    (undecided g).Does (transactionOfKind g kind) t Q ↔
      ∀ tx, tx.gid = g → Undecided tx → tx.kind = kind → Q () tx := by
  simp only [transactionOfKind, Discipline.does_bind, undecided_loadTransaction, does_ofExcept,
    ensureKind_eq_ok, Discipline.does_pure]
  exact ⟨fun h tx hg hu hk => h tx hg hu () hk, fun h tx hg hu _ hk => h tx hg hu hk⟩

theorem undecided_persistTransaction {tx : Transaction} {Q : Unit → Transaction → Prop}
    (hu : Undecided tx) (hQ : Q () tx.written) :
    (undecided g).Does (persistTransaction tx) t Q := by
  refine ⟨fun _ => hu, fun r _ => ?_⟩
  match r with
  | .ok _ =>
    rintro a ⟨⟩
    exact hQ
  | .error _ => exact fun a ha => nomatch ha

theorem undecided_barrier {b : BranchBarrier} {Q : Unit → BarrierDecision → Prop}
    (hQ : ∀ d, Q () d) : (undecided g).Does (Store.barrier b) t Q :=
  undecided_call.mpr ⟨trivial, fun d _ => hQ d⟩

theorem undecided_releaseBarrier {b : BranchBarrier} {Q : Unit → Unit → Prop} (hQ : Q () ()) :
    (undecided g).Does (Store.releaseBarrier b) t Q :=
  undecided_call.mpr ⟨trivial, fun _ _ => hQ⟩

theorem undecided_currentMillis {Q : Unit → Nat → Prop} (hQ : ∀ now, Q () now) :
    (undecided g).Does currentMillis t Q :=
  undecided_call.mpr ⟨trivial, fun now _ => hQ now⟩

theorem undecided_invokeBranch {options : TransactionOptions} {gid : String} {branch : Branch}
    {url op : String} {Q : Unit → Branch × Bool → Prop}
    (hop : op ∉ commitOps) (hQ : ∀ r, Q () r) :
    (undecided g).Does (dtm.invokeBranch options gid branch url op) t Q := by
  simp only [Dtm.invokeBranch, Discipline.does_bind]
  refine undecided_call.mpr ⟨fun _ => hop, fun _ _ => undecided_call.mpr ⟨trivial, fun ok _ => ?_⟩⟩
  split
  · exact Discipline.does_pure.mpr (hQ _)
  · rw [Discipline.does_bind]
    exact undecided_currentMillis fun _ => Discipline.does_pure.mpr (hQ _)

/-! ### TCC and XA -/

theorem undecided_prepareTccLoop {tx : Transaction} (hu : Undecided tx)
    (passed ahead : List Branch) :
    (undecided g).Does (dtm.prepareTccLoop tx passed ahead) t (fun _ _ => True) := by
  induction ahead generalizing passed with
  | nil => exact undecided_persistTransaction (hu.withStatus (by decide) (by decide)) trivial
  | cons branch ahead ih =>
    rw [Dtm.prepareTccLoop]
    split
    · exact ih _
    · rw [Discipline.does_bind]
      refine undecided_barrier fun d => ?_
      cases d with
      | execute =>
        simp only [Discipline.does_bind]
        refine undecided_invokeBranch (by decide) fun r => ?_
        split
        · exact ih _
        · rw [Discipline.does_bind]
          refine undecided_releaseBarrier (undecided_persistTransaction ?_ trivial)
          split
          · exact hu.withStatus (by decide) (by decide)
          · exact hu.withStatus hu.succeeding hu.succeeded
      | skipDuplicate => exact ih _
      | skipNullCompensation => exact Discipline.does_throw
      | skipCancelledTry =>
        exact undecided_persistTransaction (hu.withStatus (by decide) (by decide)) trivial

theorem undecided_prepareTcc : (undecided g).Does (dtm.prepareTcc g) t (fun _ _ => True) := by
  simp only [Dtm.prepareTcc, Discipline.does_bind, undecided_loadTransaction, does_ofExcept]
  intro tx _ hu _ _
  split
  · exact Discipline.does_pure.mpr trivial
  · simp only [Discipline.does_bind, does_ofExcept]
    exact fun _ _ => undecided_prepareTccLoop (hu.withStatus (by decide) (by decide)) _ _

theorem undecided_cancelTccLoop {tx : Transaction} (hu : Undecided tx)
    (passed ahead : List Branch) :
    (undecided g).Does (dtm.cancelTccLoop tx passed ahead) t (fun _ _ => True) := by
  induction ahead generalizing passed with
  | nil => exact undecided_persistTransaction (hu.withStatus (by decide) (by decide)) trivial
  | cons branch ahead ih =>
    simp only [Dtm.cancelTccLoop, Discipline.does_bind]
    refine undecided_barrier fun d => ?_
    split
    · simp only [Discipline.does_bind, does_ofExcept]
      intro _ _
      refine undecided_invokeBranch (by decide) fun r => ?_
      split
      · exact ih _
      · rw [Discipline.does_bind]
        exact undecided_releaseBarrier
          (undecided_persistTransaction (hu.withStatus hu.succeeding hu.succeeded) trivial)
    · cases d with
      | execute => exact Discipline.does_throw
      | skipDuplicate => exact ih _
      | skipNullCompensation => exact ih _
      | skipCancelledTry => exact Discipline.does_throw

theorem undecided_cancelTcc : (undecided g).Does (dtm.cancelTcc g) t (fun _ _ => True) := by
  simp only [Dtm.cancelTcc, Discipline.does_bind, undecided_loadTransaction, does_ofExcept]
  intro tx _ hu _ _
  split
  · exact Discipline.does_pure.mpr trivial
  · simp only [Discipline.does_bind, does_ofExcept]
    exact fun _ _ => undecided_cancelTccLoop (hu.withStatus (by decide) (by decide)) _ _

theorem undecided_rollbackLoop {url : Branch → Except Err String} {tx : Transaction}
    (hu : Undecided tx) (passed ahead : List Branch) :
    (undecided g).Does (dtm.phase2Loop "rollback" url .skipped .aborted tx passed ahead) t
      (fun _ _ => True) := by
  induction ahead generalizing passed with
  | nil => exact undecided_persistTransaction (hu.withStatus (by decide) (by decide)) trivial
  | cons branch ahead ih =>
    rw [Dtm.phase2Loop, Discipline.does_bind]
    refine undecided_barrier fun d => ?_
    split
    · simp only [Discipline.does_bind, does_ofExcept]
      intro _ _
      refine undecided_invokeBranch (by decide) fun r => ?_
      split
      · exact ih _
      · rw [Discipline.does_bind]
        exact undecided_releaseBarrier
          (undecided_persistTransaction (hu.withStatus hu.succeeding hu.succeeded) trivial)
    · exact ih _

theorem undecided_rollbackXa : (undecided g).Does (dtm.rollbackXa g) t (fun _ _ => True) := by
  simp only [Dtm.rollbackXa, Discipline.does_bind, undecided_transactionOfKind]
  intro tx _ hu _
  split
  · exact Discipline.does_pure.mpr trivial
  · simp only [Discipline.does_bind, does_ofExcept]
    exact fun _ _ => undecided_rollbackLoop (hu.withStatus (by decide) (by decide)) _ _

theorem undecided_prepareXa : (undecided g).Does (Dtm.prepareXa g) t (fun _ _ => True) := by
  simp only [Dtm.prepareXa, Discipline.does_bind, undecided_transactionOfKind]
  intro tx _ hu _
  split
  · exact Discipline.does_pure.mpr trivial
  · simp only [Discipline.does_bind, does_ofExcept]
    exact fun _ _ => undecided_persistTransaction (hu.withStatus (by decide) (by decide)) trivial

/-! ### Messages -/

theorem undecided_prepareMessage :
    (undecided g).Does (Dtm.prepareMessage g) t (fun _ _ => True) := by
  simp only [Dtm.prepareMessage, Discipline.does_bind, undecided_transactionOfKind]
  intro tx _ hu _
  split
  · exact Discipline.does_pure.mpr trivial
  · simp only [Discipline.does_bind, does_ofExcept]
    exact fun _ _ => undecided_persistTransaction (hu.withStatus (by decide) (by decide)) trivial

theorem undecided_abortMessage : (undecided g).Does (Dtm.abortMessage g) t (fun _ _ => True) := by
  simp only [Dtm.abortMessage, Discipline.does_bind, undecided_transactionOfKind]
  intro tx _ hu _
  split
  · exact Discipline.does_pure.mpr trivial
  · simp only [Discipline.does_bind, does_ofExcept]
    exact fun _ _ => undecided_persistTransaction (hu.withStatus (by decide) (by decide)) trivial

/-! ### Any kind -/

theorem undecided_prepareWorkflow :
    (undecided g).Does (Dtm.prepareWorkflow g) t (fun _ _ => True) := by
  simp only [Dtm.prepareWorkflow, Discipline.does_bind, undecided_transactionOfKind]
  intro tx _ hu hk
  rcases hu.kind with h | h | h <;> cases hk.symm.trans h

theorem undecided_scheduleAbort :
    (undecided g).Does (Dtm.scheduleAbort g) t (fun _ _ => True) := by
  simp only [Dtm.scheduleAbort, Discipline.does_bind, undecided_loadTransaction]
  intro tx _ hu
  split
  · exact Discipline.does_pure.mpr trivial
  · split
    · exact undecided_abortMessage
    · simp only [Discipline.does_bind, does_ofExcept]
      exact fun _ _ => undecided_persistTransaction (hu.withStatus (by decide) (by decide)) trivial

theorem undecided_forceStop : (undecided g).Does (Dtm.forceStop g) t (fun _ _ => True) := by
  simp only [Dtm.forceStop, Discipline.does_bind, undecided_loadTransaction, does_ofExcept]
  intro tx _ hu _ _
  exact undecided_persistTransaction (hu.withStatus (by decide) (by decide)) trivial

theorem undecided_resetRetry : (undecided g).Does (Dtm.resetRetry g) t (fun _ _ => True) := by
  simp only [Dtm.resetRetry, Discipline.does_bind, undecided_loadTransaction, does_ofExcept]
  intro tx _ hu _ _
  refine undecided_currentMillis fun now => undecided_persistTransaction ?_ trivial
  exact ⟨hu.kind, hu.succeeding, hu.succeeded⟩

/-! ### The recovery tick -/

theorem undecided_resume {kind : TransactionKind} {status : TransactionStatus}
    (hk : kind = .tcc ∨ kind = .xa ∨ kind = .message) (hs : status ≠ .succeeding)
    {move : Act Transaction} (h : dtm.resume g kind status = some move) :
    (undecided g).Does move t (fun _ _ => True) := by
  rcases hk with rfl | rfl | rfl <;> cases status <;> cases h
  · exact undecided_prepareTcc
  · exact undecided_prepareTcc
  · exact absurd rfl hs
  · exact undecided_cancelTcc
  · exact undecided_prepareXa
  · exact absurd rfl hs
  · exact undecided_rollbackXa
  · exact undecided_prepareMessage
  · exact absurd rfl hs

/-- **What the tick does with an undecided transaction leaves it undecided**: none of the rows
of its table that commit is for such a record. -/
theorem undecided_tickMove {now : Nat} {tx : Transaction} (hg : tx.gid = g) (hu : Undecided tx)
    {move : Act Transaction} (h : dtm.tickMove now tx = some move) :
    (undecided g).Does move t (fun _ _ => True) := by
  have hcallback : isCallbackWorkflow tx = false := by
    rcases hu.kind with hk | hk | hk <;> simp [isCallbackWorkflow, hk]
  have hexpire : (undecided g).Does (dtm.expire tx) t (fun _ _ => True) := by
    subst hg
    rw [Dtm.expire]
    rcases hu.kind with hk | hk | hk <;> simp only [hk, hu.succeeding, if_false]
    · exact undecided_cancelTcc
    · exact undecided_rollbackXa
    · exact undecided_abortMessage
  rw [Dtm.tickMove, hcallback] at h
  split at h
  · cases h
  split at h
  · cases h
  split at h
  · cases h
    exact hexpire
  simp only [Bool.false_eq_true, if_false] at h
  split at h
  · cases h
  · rw [hg] at h
    exact undecided_resume hu.kind hu.succeeding h

theorem undecided_tickLoop {now : Nat} {txs : List Transaction}
    (htxs : ∀ tx ∈ txs, tx.gid = g → Undecided tx) :
    (undecided g).Does (dtm.tickLoop now txs) t (fun _ _ => True) := by
  induction txs with
  | nil => exact Discipline.does_pure.mpr trivial
  | cons tx rest ih =>
    have ih := ih fun tx htx => htxs tx (.tail _ htx)
    rw [Dtm.tickLoop]
    split
    · exact ih
    · rename_i move hmove
      have hmove : (undecided g).Does move t (fun _ _ => True) := by
        by_cases hg : tx.gid = g
        · exact undecided_tickMove hg (htxs tx (.head _) hg) hmove
        · exact (within_tickMove hmove).le (within_le_undecided hg)
      simp only [Discipline.does_bind, Discipline.does_pure]
      exact hmove.mono fun _ _ _ => ih.mono fun _ _ _ => trivial

theorem undecided_tickRecoverOnce :
    (undecided g).Does dtm.tickRecoverOnce t (fun _ _ => True) := by
  simp only [Dtm.tickRecoverOnce, Discipline.does_bind]
  exact undecided_currentMillis fun now =>
    undecided_call.mpr ⟨trivial, fun r hr => undecided_tickLoop hr⟩

/-! ### Submission -/

theorem undecided_expandBranches (branches : List Branch) :
    (undecided g).Does (dtm.expandBranches branches) t (fun _ _ => True) := by
  induction branches with
  | nil => exact Discipline.does_pure.mpr trivial
  | cons branch rest ih =>
    rw [Dtm.expandBranches]
    split
    · simp only [Discipline.does_bind, does_ofOption, does_ofExcept, Discipline.does_pure,
        Dtm.getTopic]
      intro _ _
      refine undecided_call.mpr ⟨trivial, fun r _ => ?_⟩
      cases r with
      | none =>
        simp only [Discipline.does_pure, reduceCtorEq, false_implies, implies_true]
      | some entry =>
        simp only [Discipline.does_bind, does_ofExcept, Discipline.does_pure]
        exact fun _ _ _ _ _ _ => ih.mono fun _ _ _ => trivial
    · simp only [Discipline.does_bind, Discipline.does_pure]
      exact ih.mono fun _ _ _ => trivial

theorem undecided_submit {tx : Transaction} (hu : tx.gid = g → Undecided tx) :
    (undecided g).Does (dtm.submit tx) t (fun _ _ => True) := by
  -- of an accepted record only the revision, the timeout and the branches are changed
  have insert {tx' : Transaction}
      (h : tx'.gid = tx.gid ∧ tx'.kind = tx.kind ∧ tx'.status = tx.status) :
      (undecided g).Does (Store.insertTransaction tx') () (fun _ _ => True) := by
    obtain ⟨hg, hk, hs⟩ := h
    refine ⟨fun hg' => ?_, fun _ _ _ _ => trivial⟩
    obtain ⟨h1, h2, h3⟩ := hu (hg.symm.trans hg')
    exact ⟨by rwa [hk], by rwa [hs], by rwa [hs]⟩
  simp only [Dtm.submit, Discipline.does_bind, does_ofExcept]
  intro _ _ _ _ _ _
  split
  · simp only [Dtm.expandMessageTopics, Discipline.does_bind, does_ofExcept, Discipline.does_pure]
    refine (undecided_expandBranches _).mono fun _ bs _ _ _ => insert ?_
    split <;> exact ⟨rfl, rfl, rfl⟩
  · simp only [Discipline.does_bind, Discipline.does_pure]
    refine insert ?_
    split <;> exact ⟨rfl, rfl, rfl⟩

end Walk

end RozeDtm
