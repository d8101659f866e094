import RozeDtm.Known.Workflow
import RozeDtm.Model.Service.Compat

/-!
# What a request does to a new transaction

The operations that `compat_apply` runs on the transaction that it has just submitted.  Every one
of them answers with that transaction, but for the Submit of a TCC or an XA, which asks for a
prepared one.
-/

namespace RozeDtm

open Conc

/-- A transaction as a compatibility request submits it. -/
structure NewRecord (gid : String) (kind : TransactionKind) (tx : Transaction) : Prop where
  gid : tx.gid = gid
  ofKind : tx.kind = kind
  status : tx.status = .submitted
  pending : ∀ b ∈ tx.branches, b.status = .pending
  compensate : kind = .saga ∨ kind = .workflow → ∀ b ∈ tx.branches, b.compensate ≠ none
  empty : kind = .tcc ∨ kind = .xa → tx.branches = []
  valid : kind = .saga ∨ kind = .workflow → validateTransactionDependencies tx = .ok ()

section New

variable {dtm : Dtm} {gid : String} {kind : TransactionKind} {σ : Transaction}

theorem NewRecord.undoable (h : NewRecord gid kind σ) (hk : kind = .saga ∨ kind = .workflow) :
    Undoable gid kind σ := ⟨h.gid, h.ofKind, h.compensate hk, h.valid hk⟩

/-! ### TCC and XA -/

theorem knowing_prepareTcc (h : NewRecord gid .tcc σ) :
    (knowing gid).Yields (dtm.prepareTcc gid) σ (Answers gid) := by
  rw [Dtm.prepareTcc, Discipline.yields_bind, knowing_loadTransaction]
  rintro tx ⟨revision, updated, rfl⟩
  rw [Discipline.yields_bind]
  refine ⟨(), ensureKind_eq_ok.mpr h.ofKind, ?_⟩
  split
  · exact Discipline.yields_pure.mpr h.gid
  · rw [Discipline.yields_bind]
    refine ⟨(), ensureStatus_eq_ok.mpr (List.mem_cons.mpr (Or.inl h.status)), ?_⟩
    dsimp only
    rw [h.empty (Or.inl rfl), Dtm.prepareTccLoop]
    exact knowing_answer h.gid

theorem knowing_cancelTcc (h : NewRecord gid .tcc σ) :
    (knowing gid).Yields (dtm.cancelTcc gid) σ (Answers gid) := by
  rw [Dtm.cancelTcc, Discipline.yields_bind, knowing_loadTransaction]
  rintro tx ⟨revision, updated, rfl⟩
  rw [Discipline.yields_bind]
  refine ⟨(), ensureKind_eq_ok.mpr h.ofKind, ?_⟩
  split
  · exact Discipline.yields_pure.mpr h.gid
  · rw [Discipline.yields_bind]
    refine ⟨(), ensureStatus_eq_ok.mpr (List.mem_cons.mpr (Or.inl h.status)), ?_⟩
    dsimp only
    rw [h.empty (Or.inl rfl), Dtm.cancelTccLoop]
    exact knowing_answer h.gid

theorem knowing_prepareXa (h : NewRecord gid .xa σ) :
    (knowing gid).Yields (Dtm.prepareXa gid) σ (Answers gid) := by
  rw [Dtm.prepareXa, Discipline.yields_bind]
  apply knowing_transactionOfKind h.ofKind
  rintro tx ⟨revision, updated, rfl⟩
  split
  · exact Discipline.yields_pure.mpr h.gid
  · rw [Discipline.yields_bind]
    refine ⟨(), ensureStatus_eq_ok.mpr (List.mem_singleton.mpr h.status), ?_⟩
    exact knowing_answer h.gid

theorem knowing_rollbackXa (h : NewRecord gid .xa σ) :
    (knowing gid).Yields (dtm.rollbackXa gid) σ (Answers gid) := by
  rw [Dtm.rollbackXa, Discipline.yields_bind]
  apply knowing_transactionOfKind h.ofKind
  rintro tx ⟨revision, updated, rfl⟩
  split
  · exact Discipline.yields_pure.mpr h.gid
  · rw [Discipline.yields_bind]
    refine ⟨(), ensureStatus_eq_ok.mpr (List.mem_cons.mpr (Or.inl h.status)), ?_⟩
    dsimp only
    rw [h.empty (Or.inr rfl), Dtm.phase2Loop]
    exact knowing_answer h.gid

/-! ### Scheduling -/

theorem knowing_scheduleSubmit (h : NewRecord gid kind σ) (hk : kind ≠ .tcc ∧ kind ≠ .xa)
    (hcallback : isCallbackWorkflow σ = false) :
    (knowing gid).Yields (Dtm.scheduleSubmit gid) σ (Answers gid) := by
  rw [Dtm.scheduleSubmit, Discipline.yields_bind, knowing_loadTransaction]
  rintro tx ⟨revision, updated, rfl⟩
  have hallowed : σ.status ∈ Dtm.scheduleSubmitAllowed σ.kind := by
    rw [h.status, h.ofKind]
    cases kind with
    | tcc => exact absurd rfl hk.1
    | xa => exact absurd rfl hk.2
    | saga => decide
    | workflow => decide
    | message => decide
  split
  · exact Discipline.yields_pure.mpr h.gid
  · simp only [Discipline.yields_bind]
    refine ⟨(), ensure_eq_ok.mpr ?_, (), ensureStatus_eq_ok.mpr hallowed, ?_⟩
    · rw [Bool.not_eq_true']
      exact hcallback
    · split
      · exact knowing_answer h.gid
      · split
        · exact knowing_answer h.gid
        · exact Discipline.yields_pure.mpr h.gid

theorem knowing_scheduleAbort (h : NewRecord gid kind σ) :
    (knowing gid).Yields (Dtm.scheduleAbort gid) σ (Answers gid) := by
  rw [Dtm.scheduleAbort, Discipline.yields_bind, knowing_loadTransaction]
  rintro tx ⟨revision, updated, rfl⟩
  split
  · exact Discipline.yields_pure.mpr h.gid
  · split
    · rename_i hmessage
      exact knowing_abortMessage h.gid hmessage (Or.inl h.status)
    · rename_i hmessage
      have hallowed : σ.status ∈ Dtm.scheduleAbortAllowed σ.kind := by
        rw [h.status]
        cases hk : σ.kind with
        | message => exact absurd hk hmessage
        | tcc => decide
        | xa => decide
        | saga => decide
        | workflow => decide
      rw [Discipline.yields_bind]
      exact ⟨(), ensureStatus_eq_ok.mpr hallowed, knowing_answer h.gid⟩

/-! ### The operation of a request -/

variable {state : ControlState} {operation : CompatOperation}

theorem knowing_compatOperate (h : NewRecord gid kind σ)
    (hk : operation = .submit → kind ≠ .tcc ∧ kind ≠ .xa)
    (hcallback : operation = .submit → isCallbackWorkflow σ = false) :
    (knowing gid).Yields (state.compatOperate kind operation gid) σ (Answers gid) := by
  have hsubmitted (rest : List TransactionStatus) :
      σ.status ∈ TransactionStatus.submitted :: rest := List.mem_cons.mpr (Or.inl h.status)
  cases kind with
  | tcc =>
    cases operation with
    | prepare => exact knowing_prepareTcc h
    | submit => exact absurd rfl (hk rfl).1
    | abort => exact knowing_cancelTcc h
  | xa =>
    cases operation with
    | prepare => exact knowing_prepareXa h
    | submit => exact absurd rfl (hk rfl).2
    | abort => exact knowing_rollbackXa h
  | message =>
    cases operation with
    | prepare => exact knowing_prepareMessage h.gid h.ofKind (Or.inl h.status)
    | submit => exact knowing_dispatchMessage h.gid h.ofKind (hsubmitted _)
    | abort => exact knowing_abortMessage h.gid h.ofKind (Or.inl h.status)
  | saga =>
    cases operation with
    | prepare =>
      simp only [ControlState.compatOperate, Discipline.yields_bind, knowing_getTransaction,
        yields_ofOption, Option.some.injEq, exists_eq_left']
      rintro tx ⟨revision, updated, rfl⟩
      exact h.gid
    | submit => exact knowing_startSaga (h.undoable (Or.inl rfl)) (hsubmitted _)
    | abort => exact knowing_abortSaga (h.undoable (Or.inl rfl)) (hsubmitted _)
  | workflow =>
    cases operation with
    | prepare => exact knowing_prepareWorkflow h.gid h.ofKind h.status
    | submit =>
      exact knowing_startWorkflow (h.undoable (Or.inr rfl)) (hcallback rfl) (hsubmitted _)
        fun b hb => Or.inl (h.pending b hb)
    | abort => exact knowing_abortWorkflow (h.undoable (Or.inr rfl)) (hsubmitted _)

/-- **What a request does to the transaction that it has submitted succeeds.** -/
theorem knowing_compatDispatch {waitResult : Bool} (h : NewRecord gid kind σ)
    (hk : operation = .submit → kind ≠ .tcc ∧ kind ≠ .xa)
    (hcallback : operation = .submit → isCallbackWorkflow σ = false) :
    (knowing gid).Yields (state.compatDispatch kind operation waitResult none gid) σ
      (Answers gid) := by
  unfold ControlState.compatDispatch
  dsimp only
  split
  · exact knowing_scheduleSubmit h (hk rfl) (hcallback rfl)
  · exact knowing_scheduleAbort h
  · exact knowing_compatOperate h hk hcallback

end New

end RozeDtm
