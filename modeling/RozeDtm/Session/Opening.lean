import RozeDtm.Session.Closing
import RozeDtm.Session.Operations

/-!
# What becomes of the branches while a transaction is open

While a transaction is open, `prepare_tcc` tries its branches and `reset_retry` sets the retry
times of those that wait for one.  A branch that neither of them touches (`Branch.Fixed`) is left
as it is by every operation that leaves the transaction open: `opening` is the discipline of such
writes.
-/

namespace RozeDtm

open Conc

/-- A branch that no operation touches while the transaction is open: no retry waits for it, and
if the transaction is a TCC that is not prepared yet, its Try is already done. -/
structure Branch.Fixed (tx : Transaction) (b : Branch) : Prop where
  idle : b.retryable = false
  tried : tx.kind = .tcc → tx.status ≠ .prepared → b.status = .succeeded

/-- What a write that leaves a transaction open makes of the record that was read. -/
structure OpenWrite (base tx : Transaction) : Prop where
  prepared : base.kind = .tcc → base.status = .prepared → tx.status = .prepared
  branches : List.Forall₂ (fun a b => Branch.Fixed base a → b = a) base.branches tx.branches

/-- Every record that is left open is written over the record that was read in this way. -/
def Opens (σ : Session) : Effect → Prop
  | .updateTransaction tx =>
    tx.status.isOpen = true → ∃ base, σ.snap = some base ∧ OpenWrite base tx
  | _ => True

/-- The discipline of such writes. -/
def opening : Discipline effects Session where
  pre := Opens
  sees := fun _ _ _ => True
  next := Session.next

section Rules

variable {σ : Session} {tx : Transaction} {gid : String}

theorem opening_call {o : Effect} {Q : Session → o.Reply → Prop} :
    opening.Does (Act.call o) σ Q ↔ opening.pre σ o ∧ ∀ r, True → Q (σ.next o r) r :=
  Discipline.does_perform

/-- Any step that writes no record is permitted at any time. -/
theorem opening_always {o : Effect} (h : ∀ tx, o ≠ .updateTransaction tx) :
    opening.Always (Act.call o) := by
  refine fun σ => opening_call.mpr ⟨?_, fun _ _ => trivial⟩
  cases o with
  | updateTransaction tx => exact absurd rfl (h tx)
  | _ => trivial

theorem opening_loadTransaction {Q : Session → Transaction → Prop}
    (h : ∀ tx, Q (σ.setSnap (some tx)) tx) : opening.Does (loadTransaction gid) σ Q := by
  simp only [loadTransaction, Discipline.does_bind]
  refine opening_call.mpr ⟨trivial, fun r _ => does_ofOption.mpr fun tx htx => ?_⟩
  cases htx
  exact h tx

theorem opening_transactionOfKind {kind : TransactionKind} {Q : Session → Transaction → Prop}
    (h : ∀ tx, tx.kind = kind → Q (σ.setSnap (some tx)) tx) :
    opening.Does (transactionOfKind gid kind) σ Q := by
  simp only [transactionOfKind, Discipline.does_bind, does_ofExcept, ensureKind_eq_ok,
    Discipline.does_pure]
  exact opening_loadTransaction fun tx _ hk => h tx hk

theorem opening_persistTransaction
    (h : tx.status.isOpen = true → ∃ base, σ.snap = some base ∧ OpenWrite base tx) :
    opening.Does (persistTransaction tx) σ (fun _ _ => True) := by
  refine ⟨h, fun r _ => ?_⟩
  match r with
  | .ok _ => exact fun _ _ => trivial
  | .error _ => exact fun _ _ => trivial

/-- A step that neither reads nor writes a record leaves what was read last. -/
theorem opening_silent {o : Effect} {base : Option Transaction} {Q : Session → o.Reply → Prop}
    (hsnap : σ.snap = base) (hread : ∀ gid, o ≠ .getTransaction gid)
    (hwrite : ∀ tx, o ≠ .updateTransaction tx) (h : ∀ σ' r, σ'.snap = base → Q σ' r) :
    opening.Does (Act.call o) σ Q := by
  refine opening_call.mpr ⟨?_, fun r _ => h _ r ?_⟩
  · cases o with
    | updateTransaction tx => exact absurd rfl (hwrite tx)
    | _ => trivial
  · rw [← hsnap]
    cases o with
    | getTransaction gid => exact absurd rfl (hread gid)
    | updateTransaction tx => exact absurd rfl (hwrite tx)
    | barrier b => cases (r : BarrierDecision) <;> rfl
    | invokeEnd c => cases (r : Bool) <;> rfl
    | _ => rfl

theorem opening_invokeBranch {dtm : Dtm} {options : TransactionOptions} {branch : Branch}
    {url op : String} {base : Option Transaction} {Q : Session → Branch × Bool → Prop}
    (hsnap : σ.snap = base) (h : ∀ σ' r, σ'.snap = base → Q σ' r) :
    opening.Does (dtm.invokeBranch options gid branch url op) σ Q := by
  simp only [Dtm.invokeBranch, Discipline.does_bind]
  refine opening_silent hsnap (fun _ h => by cases h) (fun _ h => by cases h) fun σ _ hsnap => ?_
  refine opening_silent hsnap (fun _ h => by cases h) (fun _ h => by cases h) fun σ ok hsnap => ?_
  cases ok with
  | true => exact Discipline.does_pure.mpr (h _ _ hsnap)
  | false =>
    simp only [Bool.false_eq_true, if_false, Discipline.does_bind, Discipline.does_pure]
    exact opening_silent hsnap (fun _ h => by cases h) (fun _ h => by cases h)
      fun _ _ hsnap => h _ _ hsnap

/-- **The operations that leave no transaction open.** -/
theorem opening_closing : Act.Closing fun x => opening.Always x where
  toClosed := closed_always opening
  clock := opening_always fun _ h => nomatch h
  joinNext := fun _ => opening_always fun _ h => nomatch h
  invokeBegin := fun _ _ => opening_always fun _ h => nomatch h
  invokeEnd := fun _ _ => opening_always fun _ h => nomatch h
  barrier := fun _ _ => opening_always fun _ h => nomatch h
  releaseBarrier := fun _ _ => opening_always fun _ h => nomatch h
  load := fun _ _ => opening_loadTransaction fun _ => trivial
  persist := fun tx htx _ => opening_persistTransaction fun hopen => by
    rw [htx] at hopen
    cases hopen

end Rules

/-! ### The operations that leave a transaction open -/

section Operations

variable {dtm : Dtm} {σ : Session} {base tx : Transaction} {passed ahead : List Branch}

/-- A new status over the same branches. -/
theorem OpenWrite.status (status : TransactionStatus)
    (h : tx.kind = .tcc → tx.status = .prepared → status = .prepared) :
    OpenWrite tx { tx with status := status } :=
  ⟨h, List.forall₂_same.mpr fun _ _ _ => rfl⟩

/-- The loop of `prepare_tcc`: the branches that it has passed are as they were read if their Try
was done. -/
theorem opening_prepareTccLoop {front : List Branch} (hsnap : σ.snap = some base)
    (hk : base.kind = .tcc) (hst : base.status ≠ .prepared)
    (hbranches : base.branches = front ++ ahead)
    (hpassed : List.Forall₂ (fun a b => Branch.Fixed base a → b = a) front passed) :
    opening.Does (dtm.prepareTccLoop tx passed ahead) σ (fun _ _ => True) := by
  have hwrite {σ : Session} {bs : List Branch} {tx : Transaction} (hsnap : σ.snap = some base)
      (hbs : List.Forall₂ (fun a b => Branch.Fixed base a → b = a) base.branches bs)
      (htx : tx.branches = bs) : opening.Does (persistTransaction tx) σ (fun _ _ => True) :=
    opening_persistTransaction fun _ =>
      ⟨base, hsnap, fun _ h => absurd h hst, by rw [htx]; exact hbs⟩
  induction ahead generalizing σ front passed with
  | nil =>
    rw [List.append_nil] at hbranches
    rw [← hbranches] at hpassed
    exact hwrite hsnap hpassed rfl
  | cons branch ahead ih =>
    have hrest : base.branches = (front ++ [branch]) ++ ahead := by
      rw [hbranches, List.append_assoc, List.singleton_append]
    rw [Dtm.prepareTccLoop]
    split
    · exact ih hsnap hrest (forall₂_snoc hpassed fun _ => rfl)
    rename_i hnot
    -- a branch whose Try is not done is none that stays as it is
    have htried {b : Branch} : Branch.Fixed base branch → b = branch := fun hf =>
      absurd (hf.tried hk hst) hnot
    have hstop {b : Branch} : List.Forall₂ (fun a b => Branch.Fixed base a → b = a) base.branches
        (passed ++ b :: ahead) := by
      rw [hbranches]
      exact forall₂_middle hpassed htried (List.forall₂_same.mpr fun _ _ _ => rfl)
    rw [Discipline.does_bind]
    refine opening_silent hsnap (fun _ h => by cases h) (fun _ h => by cases h) fun σ d hsnap => ?_
    cases d with
    | execute =>
      rw [Discipline.does_bind]
      refine opening_invokeBranch hsnap fun σ called hsnap => ?_
      dsimp only
      split
      · exact ih hsnap hrest (forall₂_snoc hpassed htried)
      · rw [Discipline.does_bind]
        exact opening_silent hsnap (fun _ h => by cases h) (fun _ h => by cases h)
          fun σ _ hsnap => hwrite hsnap hstop rfl
    | skipCancelledTry => exact hwrite hsnap hstop rfl
    | skipDuplicate => exact ih hsnap hrest (forall₂_snoc hpassed htried)
    | skipNullCompensation => exact Discipline.does_throw

theorem opening_prepareTcc (gid : String) : opening.Always (dtm.prepareTcc gid) := by
  intro σ
  simp only [Dtm.prepareTcc, Discipline.does_bind, does_ofExcept, ensureKind_eq_ok]
  refine opening_loadTransaction fun tx _ hk => ?_
  split
  · exact Discipline.does_pure.mpr trivial
  rename_i hst
  simp only [Discipline.does_bind, does_ofExcept]
  exact fun _ _ => @opening_prepareTccLoop _ _ tx _ _ _ [] rfl hk hst rfl .nil

theorem opening_prepareXa (gid : String) : opening.Always (Dtm.prepareXa gid) := by
  intro σ
  rw [Dtm.prepareXa, Discipline.does_bind]
  refine opening_transactionOfKind fun tx hk => ?_
  split
  · exact Discipline.does_pure.mpr trivial
  simp only [Discipline.does_bind, does_ofExcept]
  exact fun _ _ => opening_persistTransaction fun _ => ⟨tx, rfl, .status _ fun _ _ => rfl⟩

theorem opening_prepareMessage (gid : String) : opening.Always (Dtm.prepareMessage gid) := by
  intro σ
  rw [Dtm.prepareMessage, Discipline.does_bind]
  refine opening_transactionOfKind fun tx hk => ?_
  split
  · exact Discipline.does_pure.mpr trivial
  simp only [Discipline.does_bind, does_ofExcept]
  exact fun _ _ => opening_persistTransaction fun _ => ⟨tx, rfl, .status _ fun _ _ => rfl⟩

theorem opening_prepareWorkflow (gid : String) : opening.Always (Dtm.prepareWorkflow gid) := by
  intro σ
  rw [Dtm.prepareWorkflow, Discipline.does_bind]
  refine opening_transactionOfKind fun tx hk => ?_
  split
  · exact Discipline.does_pure.mpr trivial
  simp only [Discipline.does_bind, does_ofExcept]
  exact fun _ _ => opening_persistTransaction fun _ => ⟨tx, rfl, .status _ fun _ _ => rfl⟩

theorem opening_scheduleSubmit (gid : String) : opening.Always (Dtm.scheduleSubmit gid) := by
  intro σ
  rw [Dtm.scheduleSubmit, Discipline.does_bind]
  refine opening_loadTransaction fun tx => ?_
  split
  · exact Discipline.does_pure.mpr trivial
  simp only [Discipline.does_bind, does_ofExcept]
  intro _ _ _ _
  split
  · exact opening_persistTransaction fun hopen => by cases hopen
  split
  · rename_i hworkflow
    refine opening_persistTransaction fun _ => ⟨tx, rfl, .status _ fun hk => ?_⟩
    rw [hworkflow.1] at hk
    cases hk
  · exact Discipline.does_pure.mpr trivial

/-- Only the branches that wait for a retry are changed. -/
theorem opening_resetRetry (gid : String) : opening.Always (Dtm.resetRetry gid) := by
  intro σ
  simp only [Dtm.resetRetry, Discipline.does_bind, does_ofExcept]
  refine opening_loadTransaction fun tx _ hopen => ?_
  refine opening_silent rfl (fun _ h => by cases h) (fun _ h => by cases h) fun σ now hsnap => ?_
  refine opening_persistTransaction fun _ => ⟨tx, hsnap, fun _ h => h, ?_⟩
  show List.Forall₂ _ tx.branches (tx.branches.map _)
  rw [List.forall₂_map_right_iff]
  refine List.forall₂_same.mpr fun b _ hfixed => ?_
  rw [if_neg (by rw [hfixed.idle]; decide)]

/-- **Every operation writes open records in this way.** -/
theorem opening_walks : dtm.Walks (fun _ _ => True) fun x => opening.Always x where
  toClosed := closed_always opening
  load := opening_closing.load
  clock := opening_closing.clock
  list := opening_always fun _ h => nomatch h
  lease := fun _ _ _ => opening_always fun _ h => nomatch h
  insert := fun _ _ => ⟨trivial, fun _ _ _ _ => trivial⟩
  register := fun _ _ _ _ => ⟨trivial, fun _ _ _ _ => trivial⟩
  progress := fun _ _ _ => ⟨trivial, fun _ _ _ _ => trivial⟩
  kv := fun _ _ => opening_always fun _ h => nomatch h
  finish := fun _ _ _ _ => opening_always fun _ h => nomatch h
  defer := fun _ _ => opening_always fun _ h => nomatch h
  query := fun _ _ => opening_always fun _ h => nomatch h
  scheduleSubmit := opening_scheduleSubmit
  scheduleAbort := opening_closing.scheduleAbort
  forceStop := opening_closing.forceStop
  resetRetry := opening_resetRetry
  startSaga := opening_closing.startSaga
  abortSaga := opening_closing.abortSaga
  prepareTcc := opening_prepareTcc
  confirmTcc := opening_closing.confirmTcc
  cancelTcc := opening_closing.cancelTcc
  prepareMessage := opening_prepareMessage
  dispatchMessage := opening_closing.dispatchMessage
  abortMessage := opening_closing.abortMessage
  prepareWorkflow := opening_prepareWorkflow
  startWorkflow := opening_closing.startWorkflow
  abortWorkflow := opening_closing.abortWorkflow
  prepareXa := opening_prepareXa
  commitXa := opening_closing.commitXa
  rollbackXa := opening_closing.rollbackXa

/-- The discipline of all operations, with these writes. -/
def registeringOpen : Discipline effects Session := registering.also Opens

theorem follows_registeringOpen (dtm : Dtm) (op : Operation) :
    registeringOpen.Follows (op.prog dtm) Session.start (fun _ _ => True) :=
  Discipline.Follows.also (follows_prog_registering dtm op _)
    (opening_walks.act (by cases op <;> trivial) Session.start).follows
    id (fun _ => trivial) rfl

end Operations

end RozeDtm
