import RozeDtm.Model.System

/-!
# The next recovery time and the due test

The recovery tick passes over a transaction until every time that it waits for has come;
`transaction_next_recovery_millis` gives the earliest of them.  The two agree while these times
are all past or all ahead, and not in between.

* `beyond_iff`: when the next recovery time is late.
* `transactionDue_iff`: what the due test waits for.
* `next_recovery_agrees_iff`: at which clock values the two agree.
-/

namespace RozeDtm

open Conc

/-! ### The next recovery time -/

/-- The next recovery time is later than `cutoff`. -/
def Transaction.Beyond (cutoff : Nat) (tx : Transaction) : Prop :=
  ∃ next ∈ transactionNextRecoveryMillis tx, cutoff < next

instance (cutoff : Nat) (tx : Transaction) : Decidable (tx.Beyond cutoff) :=
  inferInstanceAs (Decidable (∃ next ∈ _, _))

section Next

variable {cutoff now : Nat} {tx : Transaction}

/-- `now.to_string()` is read back as `now`. -/
theorem parseUnsigned_toString (h : now ≤ u64Max) : parseUnsigned u64Max (toString now) = some now := by
  have htext : (toString now).toList = Nat.toDigits 10 now := Nat.toList_repr
  have hdigit : ∀ c ∈ Nat.toDigits 10 now, c.isDigit = true := fun c hc =>
    Nat.isDigit_of_mem_toDigits (by decide) (by decide) hc
  have hplus : ∀ cs, Nat.toDigits 10 now ≠ '+' :: cs := fun cs hcs => by
    have hplus := hdigit '+' (by rw [hcs]; exact List.mem_cons_self)
    revert hplus
    decide
  unfold parseUnsigned
  rw [htext]
  split
  · rename_i cs hcs
    exact absurd hcs (hplus cs)
  · have hvalue : (Nat.toDigits 10 now).foldl (fun n c => 10 * n + (c.toNat - 48)) 0 = now :=
      Nat.ofDigitChars_ten_toDigits
    have hdigits : ¬ ((Nat.toDigits 10 now).isEmpty || !(Nat.toDigits 10 now).all Char.isDigit) := by
      rw [Bool.or_eq_true, List.isEmpty_iff, Bool.not_eq_true', List.all_eq_false]
      rintro (hnil | ⟨c, hc, hnot⟩)
      · exact Nat.toDigits_ne_nil hnil
      · exact hnot (hdigit c hc)
    dsimp only
    rw [if_neg hdigits, hvalue, if_pos h]

/-- The earliest of some time and the retry times of branches. -/
theorem fold_beyond (branches : List Branch) (first : Option Nat) :
    (∃ next ∈ (branches.foldlM (fun (next : Option Nat) (branch : Branch) =>
        branch.nextRetryMillis.map fun branchNext =>
          some (next.elim branchNext fun current => min current branchNext)) first).join,
      cutoff < next) ↔
    (∀ b ∈ branches, ∃ next ∈ b.nextRetryMillis, cutoff < next) ∧ (∀ next ∈ first, cutoff < next) ∧
      (branches = [] → first.isSome) := by
  induction branches generalizing first with
  | nil =>
    cases first with
    | none => simp
    | some next => simp
  | cons b branches ih =>
    rw [List.foldlM_cons]
    cases hb : b.nextRetryMillis with
    | none => simp [hb]
    | some branchNext =>
      rw [Option.map_some, Option.bind_eq_bind, Option.bind_some, ih]
      cases first with
      | none => simp [hb, and_comm]
      | some current =>
        simp only [Option.elim_some, Option.mem_some_iff, forall_eq', lt_min_iff,
          List.forall_mem_cons, hb, exists_eq_left', Option.isSome_some, implies_true, and_true]
        tauto

/-- The time of the first delivery of a Message, while it counts. -/
def firstDelivery (tx : Transaction) : Option Nat :=
  if tx.kind = .message && tx.status = .succeeding &&
      tx.branches.all fun branch => branch.attempts = 0 then
    messageDispatchAtMillis tx
  else none

/-- **When the next recovery time of a transaction with branches is late.** -/
theorem beyond_iff (hst : tx.status.isTerminal = false) (hcb : isCallbackWorkflow tx = false) :
    tx.Beyond cutoff ↔
      (∀ b ∈ tx.branches, b.retryable = true → ∃ next ∈ b.nextRetryMillis, cutoff < next) ∧
      (∀ next ∈ firstDelivery tx, cutoff < next) ∧
      ((∀ b ∈ tx.branches, b.retryable = false) → (firstDelivery tx).isSome) := by
  unfold Transaction.Beyond transactionNextRecoveryMillis
  rw [if_neg (by rw [hst]; decide), if_neg (by rw [hcb]; decide)]
  refine (fold_beyond (tx.branches.filter Branch.retryable) (firstDelivery tx)).trans ?_
  refine and_congr ?_ (and_congr Iff.rfl (imp_congr ?_ Iff.rfl))
  · simp only [List.mem_filter, and_imp]
  · simp only [List.filter_eq_nil_iff, Bool.not_eq_true]

theorem waiting_of_firstDelivery (h : (firstDelivery tx).isSome) :
    tx.kind = .message ∧ tx.status = .succeeding ∧ ∀ b ∈ tx.branches, b.attempts = 0 := by
  unfold firstDelivery at h
  split at h
  · rename_i hwaits
    rw [Bool.and_eq_true, Bool.and_eq_true, decide_eq_true_eq, decide_eq_true_eq,
      List.all_eq_true] at hwaits
    exact ⟨hwaits.1.1, hwaits.1.2, fun b hb => of_decide_eq_true (hwaits.2 b hb)⟩
  · cases h

theorem not_terminal_of_beyond (h : tx.Beyond cutoff) : tx.status.isTerminal = false := by
  obtain ⟨next, hnext, -⟩ := h
  unfold transactionNextRecoveryMillis at hnext
  split at hnext
  · cases hnext
  · rename_i hst
    exact Bool.eq_false_of_not_eq_true hst

/-! ### The due test -/

/-- The test of the recovery tick on a transaction that is not past its timeout. -/
def recoveryDue (tx : Transaction) (now : Nat) : Bool :=
  if isCallbackWorkflow tx then callbackWorkflowDue tx now else transactionDue tx now

/-- A tick does nothing with a transaction for which it is not time yet; a callback Workflow
that is only Submitted is prepared at any time. -/
theorem tickMove_eq_none {dtm : Dtm} (hdue : recoveryDue tx now = false)
    (htime : isExpired tx now = false) (hcb : isCallbackWorkflow tx = true → tx.status ≠ .submitted) :
    dtm.tickMove now tx = none := by
  unfold Dtm.tickMove
  split
  · rfl
  split
  · rfl
  rw [if_neg (by rw [htime]; decide)]
  unfold recoveryDue at hdue
  by_cases hwf : isCallbackWorkflow tx = true
  · rw [if_pos hwf] at hdue ⊢
    cases hst : tx.status with
    | submitted => exact absurd hst (hcb hwf)
    | prepared => exact if_neg (by rw [hdue]; decide)
    | trying | succeeding | succeeded | aborting | aborted | failed => rfl
  · rw [if_neg hwf] at hdue ⊢
    exact if_pos (by rw [hdue]; rfl)

/-- A time that the due test waits for: the retry time of a branch, and the dispatch time of a
Message in `Succeeding`. -/
def Transaction.Awaits (tx : Transaction) (time : Nat) : Prop :=
  (∃ b ∈ tx.branches, b.retryable = true ∧ b.nextRetryMillis = some time) ∨
    (tx.kind = .message ∧ tx.status = .succeeding ∧ messageDispatchAtMillis tx = some time)

/-- Every retry time lies ahead, and so does the first delivery of a Message that waits for it;
there is such a time. -/
def Transaction.AllAhead (tx : Transaction) (now : Nat) : Prop :=
  (∀ b ∈ tx.branches, b.retryable = true → ∃ next ∈ b.nextRetryMillis, now < next) ∧
    (∀ next ∈ firstDelivery tx, now < next) ∧
    ((∀ b ∈ tx.branches, b.retryable = false) → (firstDelivery tx).isSome)

theorem transactionDue_iff : transactionDue tx now = true ↔ ∀ time, tx.Awaits time → time ≤ now := by
  have hbranches : ((tx.branches.filter Branch.retryable).all fun branch =>
      branch.nextRetryMillis.all fun next => next ≤ now) = true ↔
      ∀ b ∈ tx.branches, b.retryable = true → ∀ time, b.nextRetryMillis = some time → time ≤ now := by
    simp only [List.all_eq_true, List.mem_filter, and_imp, Option.all_eq_true, decide_eq_true_eq]
  unfold transactionDue
  split
  · rename_i hwaits
    simp only [Bool.and_eq_true, decide_eq_true_eq, Bool.not_eq_true'] at hwaits
    obtain ⟨⟨hkind, hst⟩, hearly⟩ := hwaits
    refine iff_of_false (by decide) fun hall => ?_
    have hcome : messageDispatchDue tx now = true := by
      refine (Option.all_eq_true _ _).mpr fun time htime => decide_eq_true ?_
      exact hall time (.inr ⟨hkind, hst, htime⟩)
    rw [hcome] at hearly
    cases hearly
  · rename_i hwaits
    rw [hbranches]
    constructor
    · rintro hall time (⟨b, hb, hretry, hnext⟩ | ⟨hkind, hst, hdispatch⟩)
      · exact hall b hb hretry time hnext
      · have hcome : messageDispatchDue tx now = true := by
          by_contra hearly
          exact hwaits (by simp [hkind, hst, hearly])
        exact of_decide_eq_true ((Option.all_eq_true _ _).mp hcome time hdispatch)
    · exact fun hall b hb hretry time hnext => hall time (.inl ⟨b, hb, hretry, hnext⟩)

/-- A time that lies ahead is one that is waited for. -/
theorem Transaction.AllAhead.not_due (h : tx.AllAhead now) : transactionDue tx now = false := by
  rw [← Bool.not_eq_true, transactionDue_iff]
  intro hcome
  obtain ⟨hretries, hdelivery, hsome⟩ := h
  by_cases hnone : ∀ b ∈ tx.branches, b.retryable = false
  · obtain ⟨time, htime⟩ := Option.isSome_iff_exists.mp (hsome hnone)
    obtain ⟨hkind, hst, -⟩ := waiting_of_firstDelivery (hsome hnone)
    have hdispatch : messageDispatchAtMillis tx = some time := by
      unfold firstDelivery at htime
      split at htime
      · exact htime
      · cases htime
    have hle := hcome time (.inr ⟨hkind, hst, hdispatch⟩)
    have hlt := hdelivery time htime
    omega
  · push Not at hnone
    obtain ⟨b, hb, hretry⟩ := hnone
    rw [ne_eq, Bool.not_eq_false] at hretry
    obtain ⟨time, hnext, hlt⟩ := hretries b hb hretry
    have hle := hcome time (.inl ⟨b, hb, hretry, hnext⟩)
    omega

/-- The next recovery time is none or has come. -/
theorem next_le_iff : (∀ next ∈ transactionNextRecoveryMillis tx, next ≤ now) ↔ ¬ tx.Beyond now := by
  unfold Transaction.Beyond
  push Not
  rfl

/-- **When the next recovery time agrees with the due test**: at a callback Workflow always, and
else at the clock values at which every time that is waited for has come or none has. -/
theorem next_recovery_agrees_iff (tx : Transaction) (hst : tx.status.isTerminal = false)
    (now : Nat) :
    (recoveryDue tx now = true ↔ ∀ next ∈ transactionNextRecoveryMillis tx, next ≤ now) ↔
      isCallbackWorkflow tx = true ∨ (∀ time, tx.Awaits time → time ≤ now) ∨ tx.AllAhead now := by
  by_cases hcb : isCallbackWorkflow tx = true
  · refine iff_of_true ?_ (.inl hcb)
    unfold recoveryDue transactionNextRecoveryMillis
    rw [if_pos hcb, if_neg (by rw [hst]; decide), if_pos hcb]
    exact (Option.all_eq_true _ _).trans (by simp only [decide_eq_true_eq, Option.mem_def])
  · have hahead : tx.Beyond now ↔ tx.AllAhead now := beyond_iff hst (Bool.eq_false_of_not_eq_true hcb)
    unfold recoveryDue
    rw [if_neg hcb, next_le_iff, hahead, ← transactionDue_iff, or_iff_right hcb]
    constructor
    · intro hagree
      by_cases hall : tx.AllAhead now
      · exact .inr hall
      · exact .inl (hagree.mpr hall)
    · rintro (hdue | hall)
      · refine iff_of_true hdue fun hall => ?_
        rw [hall.not_due] at hdue
        cases hdue
      · refine iff_of_false ?_ (not_not_intro hall)
        rw [hall.not_due]
        decide

end Next

/-- A Saga of which two branches fail, the second one for the first time when the first one fails
again: the next recovery time is that of the second one, and the tick waits for the other. -/
def unevenSaga : Transaction :=
  { Transaction.new 0 "g" .saga
      [.saga "a" "http://a" "http://x" .null, .saga "d" "http://d" "http://x" .null,
        { Branch.saga "b" "http://b" "http://x" .null with dependencies := ["d"] }] with
    options := { TransactionOptions.default with concurrent := true, retryLimit := some 5 } }

theorem next_recovery_early : ∃ w : World, inMemory.Serial
    (Dtm.plain.Programs fun _ => True) (.initial []) w ∧
    ∃ tx now, w.txs["g"]? = some tx ∧ tx.status.isTerminal = false ∧
      ¬ (recoveryDue tx now = true ↔ ∀ next ∈ transactionNextRecoveryMillis tx, next ≤ now) := by
  obtain ⟨w, hw, hφ⟩ := Dtm.exists_serial inMemory .plain (fun _ => True) (.initial [])
    [(.submit unevenSaga, outcomes 1 true),
      (.startSaga "g", outcomes 8 true ++ outcomes 1 false ++ outcomes 9 true),
      (.startSaga "g", outcomes 8 true ++ outcomes 1 false ++ outcomes 6 true ++
        outcomes 1 false ++ outcomes 4 true)]
    (fun w => (w.txs["g"]?).any fun tx => !tx.status.isTerminal && !recoveryDue tx 1500 &&
      transactionNextRecoveryMillis tx = some 1000)
    (fun _ _ => trivial) (by decide +kernel)
  refine ⟨w, hw, ?_⟩
  simp only [Option.any_eq_true, Bool.and_eq_true, Bool.not_eq_true', decide_eq_true_eq] at hφ
  obtain ⟨tx, htx, ⟨hst, hdue⟩, hnext⟩ := hφ
  refine ⟨tx, 1500, htx, hst, fun hagree => ?_⟩
  rw [hdue, hnext] at hagree
  exact absurd (hagree.mpr fun next hmem => by cases hmem; decide) (by decide)

/-- Once both have waited, the two agree. -/
theorem next_recovery_agrees_late :
    let tx := { unevenSaga with branches := unevenSaga.branches.map fun b =>
      { b with status := .failed, nextRetryMillis := some 1000 } }
    recoveryDue tx 2500 = true ↔ ∀ next ∈ transactionNextRecoveryMillis tx, next ≤ 2500 := by
  refine (next_recovery_agrees_iff _ rfl 2500).mpr (.inr (.inl ?_))
  rintro time (⟨b, hb, -, hnext⟩ | ⟨hkind, -⟩)
  · obtain ⟨b, -, rfl⟩ := List.mem_map.mp hb
    cases hnext
    decide
  · cases hkind

end RozeDtm
