import RozeDtm.Serial.TrialBatch

/-!
# Attempt limits

Operations that run one after another call the action of a Saga branch and the Try of a TCC
branch no more often than the limits of the transaction and of the coordinator allow.
`start_saga` turns to an abort only when an action has failed that often, and `prepare_tcc`
only after a Try that has, or that came after its Cancel (`attempt_limits_exact`).
-/

namespace RozeDtm

open Conc

namespace Trial

variable {T : Trial} {F : (String → Nat) → Prop} {i : Nat} {w : World} {s : Transaction} {dtm : Dtm}

theorem Explained.imp {R R' : World → Prop} (h : T.Explained R w) (hR : ∀ w, R w → R' w) :
    T.Explained R' w := ⟨h.1, fun ht => hR w (h.2 ht)⟩

/-- What an operation that tries has to show for its branches. -/
theorem runs_explained {α : Type} {R R' : World → Prop} {x : Act α} (hR : ∀ w, R w → R' w)
    (h : (alone fun _ _ => True).Runs (T.Explained R) i x (fun _ w => T.Inv w ∧ T.Explained R w)
      (fun _ w => T.Inv w ∧ T.Explained R w) w) :
    (alone fun _ _ => True).Runs (T.Explained R') i x (fun _ w => T.Inv w ∧ T.Explained R' w)
      (fun _ w => T.Inv w ∧ T.Explained R' w) w := by
  refine Machine.Ends.imp (Machine.Runs.mono h (fun _ w h => ?_) fun _ w h => ?_) fun w h =>
    h.imp hR
  · exact ⟨h.1, h.2.imp hR⟩
  · exact ⟨h.1, h.2.imp hR⟩

/-- The world before the operation. -/
theorem explained_before {R : World → Prop} (hw : T.Inv w) (now : Nat) :
    T.Explained (fun w' => T.Turned w ∨ R w') (w.setClock now) :=
  ⟨hw.limited, fun ht => Or.inl ht⟩

/-- **`start_saga`** turns a Saga to an abort when a branch has used up its attempts. -/
theorem runs_startSaga (hk : T.kind = .saga) (hlimit : sagaMaxAttempts T.options = T.limit)
    (ho : T.Open s w) (hr : T.Record w s) :
    (alone fun _ _ => True).Runs
      (T.Explained fun w' => T.Turned w ∨ T.Spent (s.branches.map Branch.id) w') i
      (dtm.startSaga T.gid)
      (fun _ w' => T.Inv w' ∧
        T.Explained (fun w' => T.Turned w ∨ T.Spent (s.branches.map Branch.id) w') w')
      (fun _ w' => T.Inv w' ∧
        T.Explained (fun w' => T.Turned w ∨ T.Spent (s.branches.map Branch.id) w') w') w := by
  have hw : T.Inv w := ⟨s, ho, hr⟩
  have hshow (now : Nat) := explained_before (R := T.Spent (s.branches.map Branch.id)) hw now
  refine Machine.runs_bind.mpr (runs_loadTransaction hshow (fun now tx htx => ?_) fun now _ _ =>
    ⟨hw.setClock now, hshow now⟩)
  cases ho.stored.symm.trans htx
  have hend : T.Inv (w.setClock now) ∧ T.Explained _ (w.setClock now) :=
    ⟨hw.setClock now, hshow now⟩
  rw [Machine.runs_bind, runs_ofExcept]
  split
  swap
  · exact hend
  split
  · exact hend
  rw [Machine.runs_bind, runs_ofExcept]
  split
  swap
  · exact hend
  rename_i hst
  have hstatus : s.status = .submitted ∨ s.status = .succeeding := by
    simpa [ensureStatus] using hst
  have htries : T.Tries s.status := by
    rw [Tries, if_pos hk]
    exact hstatus
  have ho := ho.setClock now
  have hr := hr.setClock now
  have hcounted := hr.counted htries
  have htries' : T.Tries .succeeding := Or.inr (if_pos hk).symm
  have hwrite : T.Record (w.setClock now) { s with status := .succeeding } :=
    ⟨⟨hr.gid, hr.kind, hr.options⟩, fun h => (by cases h), fun _ => hcounted⟩
  refine runs_explained (fun _ h => Or.inr h) ?_
  split
  · -- the branches are called at the same time
    rename_i hconc
    rw [Dtm.startConcurrentSaga, Machine.runs_bind, runs_ofExcept]
    split
    swap
    · exact ⟨hend.1, explained_of_tries ho htries⟩
    rename_i hvalid
    obtain ⟨name, hgraph⟩ := validateDependencyGraph_of_validate
      (Or.inr ⟨hr.kind.trans hk, hconc⟩) hvalid
    refine Machine.runs_bind.mpr (runs_persistTrial ho hwrite
      (fun now' => explained_of_tries (ho.setClock now') htries)
      fun now' w' hidle _ _ ho' hr' => ?_)
    refine runs_startConcurrentSagaLoop hk hlimit ⟨⟨hr.gid, hr.kind, hr.options⟩, ho', hr', htries',
      rfl, nodup_of_validateDependencyGraph hgraph, rfl, hidle.counted hcounted⟩
  · -- one branch is called after another
    refine Machine.runs_bind.mpr (runs_persistTrial ho hwrite
      (fun now' => explained_of_tries (ho.setClock now') htries)
      fun now' w' hidle _ _ ho' hr' => ?_)
    exact runs_startSagaLoop hk hlimit ⟨ho', htries', rfl, fun _ h => (by cases h),
      hidle.counted hcounted⟩ hr' ⟨hr.gid, hr.kind, hr.options⟩ rfl

/-- **`prepare_tcc`** turns a TCC to an abort after a Try that has used up its attempts, or that
came after its Cancel. -/
theorem runs_prepareTcc (hk : T.kind = .tcc) (hlimit : dtm.maxAttempts T.options = T.limit)
    (ho : T.Open s w) (hr : T.Record w s) :
    (alone fun _ _ => True).Runs
      (T.Explained fun w' => T.Turned w ∨ T.TryFailed (s.branches.map Branch.id) w') i
      (dtm.prepareTcc T.gid)
      (fun _ w' => T.Inv w' ∧
        T.Explained (fun w' => T.Turned w ∨ T.TryFailed (s.branches.map Branch.id) w') w')
      (fun _ w' => T.Inv w' ∧
        T.Explained (fun w' => T.Turned w ∨ T.TryFailed (s.branches.map Branch.id) w') w') w := by
  have hw : T.Inv w := ⟨s, ho, hr⟩
  have hshow (now : Nat) := explained_before (R := T.TryFailed (s.branches.map Branch.id)) hw now
  refine Machine.runs_bind.mpr (runs_loadTransaction hshow (fun now tx htx => ?_) fun now _ _ =>
    ⟨hw.setClock now, hshow now⟩)
  cases ho.stored.symm.trans htx
  have hend : T.Inv (w.setClock now) ∧ T.Explained _ (w.setClock now) :=
    ⟨hw.setClock now, hshow now⟩
  rw [Machine.runs_bind, runs_ofExcept]
  split
  swap
  · exact hend
  split
  · exact hend
  rw [Machine.runs_bind, runs_ofExcept]
  split
  swap
  · exact hend
  rename_i hst
  have hstatus : s.status = .submitted ∨ s.status = .trying := by
    simpa [ensureStatus] using hst
  have hnot : T.kind ≠ .saga := by
    rw [hk]
    decide
  have htries : T.Tries s.status := by
    rw [Tries, if_neg hnot]
    exact hstatus
  have ho := ho.setClock now
  have hr := hr.setClock now
  refine runs_explained (fun _ h => Or.inr h) ?_
  exact runs_prepareTccLoop hk hlimit ⟨ho, htries, rfl, fun _ h => (by cases h), hr.counted htries⟩
    ⟨hr.gid, hr.kind, hr.options⟩ rfl

/-- The limits of `dtm` are those of the trial. -/
structure Matches (T : Trial) (dtm : Dtm) : Prop where
  saga : T.kind = .saga → sagaMaxAttempts T.options = T.limit
  tcc : T.kind = .tcc → dtm.maxAttempts T.options = T.limit

/-- Between operations nothing is asked of the failures. -/
def anyFailures : (String → Nat) → Prop := fun _ => True

/-- An operation that tries keeps the invariant. -/
theorem keeps_of_explained {α : Type} {x : Act α}
    (h : ∀ w s, T.Open s w → T.Record w s → ∃ R, (alone fun _ _ => True).Runs (T.Explained R) i x
      (fun _ w => T.Inv w ∧ T.Explained R w) (fun _ w => T.Inv w ∧ T.Explained R w) w) :
    T.Keeps anyFailures i x := by
  rintro w ⟨s, ho, hr⟩ -
  obtain ⟨R, hruns⟩ := h w s ho hr
  refine Machine.Ends.imp (Machine.Runs.mono hruns (fun _ w h => ?_) fun _ w h => ?_) fun w h => ?_
  · exact ⟨h.1, trivial⟩
  · exact ⟨h.1, trivial⟩
  · exact ⟨h.1, trivial⟩

/-- An operation for another kind finds the wrong one. -/
theorem keeps_ensureKind {α : Type} {kind : TransactionKind} {f : Transaction → Act α}
    (hk : kind ≠ T.kind) : T.Keeps F i (loadTransaction T.gid >>= fun tx =>
      Act.ofExcept (ensureKind tx kind) >>= fun _ => f tx) := by
  refine keeps_load fun tx htx => ?_
  cases h : ensureKind tx kind with
  | ok u => exact absurd ((ensureKind_eq_ok.mp h).symm.trans htx.kind) hk
  | error e => exact (closed_keeps T F i).throw e

theorem keeps_startSaga (hd : T.Matches dtm) : T.Keeps anyFailures i (dtm.startSaga T.gid) := by
  by_cases hk : T.kind = .saga
  · exact keeps_of_explained fun w s ho hr => ⟨_, runs_startSaga hk (hd.saga hk) ho hr⟩
  · exact keeps_ensureKind (Ne.symm hk)

theorem keeps_prepareTcc (hd : T.Matches dtm) : T.Keeps anyFailures i (dtm.prepareTcc T.gid) := by
  by_cases hk : T.kind = .tcc
  · exact keeps_of_explained fun w s ho hr => ⟨_, runs_prepareTcc hk (hd.tcc hk) ho hr⟩
  · exact keeps_ensureKind (Ne.symm hk)

/-- An operation on one transaction, when the one on this transaction keeps the invariant. -/
theorem keeps_on {α : Type} {x : String → Act α} {gid : String} {Q : Unit → α → Prop}
    (hx : (within gid).Does (x gid) () Q) (h : T.Keeps F i (x T.gid)) :
    T.Keeps F i (x gid) := by
  intro w hw hF
  by_cases hg : gid = T.gid
  · rw [hg]
    exact h w hw hF
  · exact (steady T F).other ⟨hw, hF⟩ hg hx

theorem ne_kind {kind : TransactionKind} (hs : kind ≠ .saga) (ht : kind ≠ .tcc) : kind ≠ T.kind := by
  rintro rfl
  exact T.driven.elim hs ht

/-- **Every operation keeps the invariant.** -/
theorem walks_trial (hd : T.Matches dtm) (i : Nat) :
    dtm.Walks (fun gid branch => gid = T.gid → branch.attempts = 0)
      fun x => T.Keeps anyFailures i x where
  toClosed := closed_keeps T anyFailures i
  load := fun _ => keeps_loadTransaction
  clock := keeps_call trivial
  list := keeps_call trivial
  lease := fun _ _ _ => keeps_call trivial
  insert := fun tx => keeps_step (o := .insertTransaction tx) id trivial
  register := fun gid branch h => keeps_step (o := .registerBranch gid branch) id h
  progress := fun gid progress => keeps_step (o := .recordWorkflowProgress gid progress) id trivial
  kv := fun _ _ => keeps_call trivial
  finish := fun _ _ _ _ => keeps_call trivial
  defer := fun _ _ => keeps_call trivial
  query := fun _ _ => keeps_call trivial
  scheduleSubmit := fun _ => keeps_on within_scheduleSubmit keeps_scheduleSubmit
  scheduleAbort := fun _ => keeps_on within_scheduleAbort keeps_scheduleAbort
  forceStop := fun _ => keeps_on within_forceStop keeps_forceStop
  resetRetry := fun _ => keeps_on within_resetRetry keeps_resetRetry
  startSaga := fun _ => keeps_on within_startSaga (keeps_startSaga hd)
  abortSaga := fun _ => keeps_on within_abortSaga keeps_abortSaga
  prepareTcc := fun _ => keeps_on within_prepareTcc (keeps_prepareTcc hd)
  confirmTcc := fun _ => keeps_on within_confirmTcc (by
    by_cases hk : T.kind = .tcc
    · exact keeps_confirmTcc hk
    · exact keeps_ensureKind (Ne.symm hk))
  cancelTcc := fun _ => keeps_on within_cancelTcc keeps_cancelTcc
  prepareMessage := fun _ => keeps_on within_prepareMessage
    (keeps_otherKind (ne_kind (by decide) (by decide)))
  dispatchMessage := fun _ => keeps_on within_dispatchMessage
    (keeps_otherKind (ne_kind (by decide) (by decide)))
  abortMessage := fun _ => keeps_on within_abortMessage
    (keeps_otherKind (ne_kind (by decide) (by decide)))
  prepareWorkflow := fun _ => keeps_on within_prepareWorkflow
    (keeps_otherKind (ne_kind (by decide) (by decide)))
  startWorkflow := fun _ => keeps_on within_startWorkflow
    (keeps_otherKind (ne_kind (by decide) (by decide)))
  abortWorkflow := fun _ => keeps_on within_abortWorkflow
    (keeps_otherKind (ne_kind (by decide) (by decide)))
  prepareXa := fun _ => keeps_on within_prepareXa
    (keeps_otherKind (ne_kind (by decide) (by decide)))
  commitXa := fun _ => keeps_on within_commitXa
    (keeps_otherKind (ne_kind (by decide) (by decide)))
  rollbackXa := fun _ => keeps_on within_rollbackXa
    (keeps_otherKind (ne_kind (by decide) (by decide)))

end Trial

/-! ### The limits -/

/-- The operation of the first call of a branch. -/
def Transaction.tryOp (tx : Transaction) : String := if tx.kind = .saga then "action" else "try"

/-- How often the first call of a branch may be made. -/
def Dtm.attemptLimit (dtm : Dtm) (tx : Transaction) : Nat :=
  (tx.options.retryLimit.map (· + 1)).getD (if tx.kind = .saga then 1 else dtm.options.maxAttempts)

/-- A Saga or a TCC as it is stored when it was submitted, with fresh branches; its options were
checked. -/
structure Dtm.SubmittedFresh (dtm : Dtm) (s₀ : Transaction) (w : World) : Prop where
  keyed : w.Keyed
  stored : w.txs[s₀.gid]? = some s₀
  events : eventsOf s₀.gid w.history = []
  kind : s₀.kind = .saga ∨ s₀.kind = .tcc
  options : s₀.options.validate dtm.libs = .ok ()
  attempts : ∀ b ∈ s₀.branches, b.attempts = 0

/-- What runs: the operations, which register fresh branches with `gid`, and each move that a
recovery tick makes. -/
def Dtm.Drives (dtm : Dtm) (gid : String) (p : Prog effects (Except Err (List Transaction))) : Prop :=
  dtm.Programs (Operation.RegistersIn fun g branch => g = gid → branch.attempts = 0) p ∨
    ∃ now tx move, dtm.tickMove now tx = some move ∧ p = (Operation.act.one move).run

/-- What was done last is a call under `b` that has failed and has given the barrier back. -/
def World.JustFailed (w : World) (b : BranchBarrier) : Prop :=
  ∃ i c rest, w.history = (i, .released b) :: (i, .ended c false) :: rest ∧ c.barrier = b

/-- What was done last is a Try that found its Cancel. -/
def World.JustCancelled (w : World) (b : BranchBarrier) : Prop :=
  ∃ i, w.history.head? = some (i, .decided b .skipCancelledTry)

theorem TransactionOptions.retries_of_validate {libs : Libs} {o : TransactionOptions}
    (h : o.validate libs = .ok ()) {retries : Nat} (hretries : o.retryLimit = some retries) :
    retries ≤ 10000 := by
  by_contra hout
  have hcheck : decide (retries ≤ 10000) = false := decide_eq_false hout
  -- whichever of the checks before it are made, the check of the limit fails
  cases hd : o.delayMillis <;> cases hi : o.retryIntervalMillis <;>
    cases hq : o.requestTimeoutMillis <;>
    simp only [TransactionOptions.validate, hd, hi, hq, hretries, ensure, hcheck,
      Bool.false_eq_true, if_false] at h <;>
    (try split_ifs at h) <;> cases h

section Limits

variable {dtm : Dtm} {s₀ : Transaction} {w : World}

/-- The sums of the source do not saturate. -/
theorem satAdd32_retries (h : s₀.options.validate dtm.libs = .ok ()) {n : Nat} :
    (s₀.options.retryLimit.map fun retries => satAdd32 retries 1).getD n =
      (s₀.options.retryLimit.map (· + 1)).getD n := by
  cases hr : s₀.options.retryLimit with
  | none => rfl
  | some retries =>
    have hle := TransactionOptions.retries_of_validate h hr
    have hmax : retries + 1 ≤ u32Max := by
      rw [u32Max]
      omega
    exact Nat.min_eq_left hmax

theorem attemptLimit_bounds (hmin : 1 ≤ dtm.options.maxAttempts)
    (hmax : dtm.options.maxAttempts ≤ u32Max) (h : s₀.options.validate dtm.libs = .ok ()) :
    0 < dtm.attemptLimit s₀ ∧ dtm.attemptLimit s₀ ≤ u32Max := by
  rw [Dtm.attemptLimit]
  cases hr : s₀.options.retryLimit with
  | none =>
    rw [Option.map_none, Option.getD_none]
    split
    · decide
    · exact ⟨hmin, hmax⟩
  | some retries =>
    have hle := TransactionOptions.retries_of_validate h hr
    rw [Option.map_some, Option.getD_some, u32Max]
    omega

/-- The trial of a transaction that was submitted. -/
def Dtm.SubmittedFresh.trial (hs : dtm.SubmittedFresh s₀ w) (hmin : 1 ≤ dtm.options.maxAttempts)
    (hmax : dtm.options.maxAttempts ≤ u32Max) : Trial where
  gid := s₀.gid
  kind := s₀.kind
  options := s₀.options
  limit := dtm.attemptLimit s₀
  driven := hs.kind
  pos := (attemptLimit_bounds hmin hmax hs.options).1
  bound := (attemptLimit_bounds hmin hmax hs.options).2

variable (hs : dtm.SubmittedFresh s₀ w) (hmin : 1 ≤ dtm.options.maxAttempts)
  (hmax : dtm.options.maxAttempts ≤ u32Max)

theorem Dtm.SubmittedFresh.matches : (hs.trial hmin hmax).Matches dtm where
  saga := fun hk => by
    have hk : s₀.kind = .saga := hk
    show sagaMaxAttempts s₀.options = dtm.attemptLimit s₀
    rw [sagaMaxAttempts, satAdd32_retries hs.options, attemptLimit, if_pos hk]
  tcc := fun hk => by
    have hk : s₀.kind ≠ .saga := by
      rw [show s₀.kind = .tcc from hk]
      decide
    show dtm.maxAttempts s₀.options = dtm.attemptLimit s₀
    rw [maxAttempts, satAdd32_retries hs.options, attemptLimit, if_neg hk]

/-- No branch was called before. -/
theorem Dtm.SubmittedFresh.inv : (hs.trial hmin hmax).Inv w := by
  have hcalls (id : String) : (hs.trial hmin hmax).calls w id = 0 := by
    show callsUnder ((hs.trial hmin hmax).key id) w.history = 0
    rw [← callsUnder_eventsOf]
    exact congrArg (callsUnder ((hs.trial hmin hmax).key id)) hs.events
  have hfailures (id : String) : (hs.trial hmin hmax).failures w id = 0 := by
    show failuresUnder ((hs.trial hmin hmax).key id) w.history = 0
    rw [← failuresUnder_eventsOf]
    exact congrArg (failuresUnder ((hs.trial hmin hmax).key id)) hs.events
  refine ⟨s₀, ⟨hs.keyed, fun id => ?_, hs.stored⟩, ⟨rfl, rfl, rfl⟩, fun _ id =>
    ⟨hcalls id, hfailures id⟩, fun _ id b hdue _ => ?_⟩
  · rw [hcalls]
    exact Nat.zero_le _
  · have hb := hs.attempts b (Trial.due_eq_some hdue).1
    refine ⟨⟨(hcalls _).trans hb.symm, (hfailures _).trans hb.symm⟩, ?_⟩
    rw [hb]
    exact (hs.trial hmin hmax).pos

end Limits

/-! ### Runs -/

section Runs

variable {T : Trial} {dtm : Dtm} {i : Nat} {w w' : World} {s : Transaction}

/-- **One program keeps the trial.** -/
theorem ends_drives (hd : T.Matches dtm) {p : Prog effects (Except Err (List Transaction))}
    (hp : dtm.Drives T.gid p) (hw : T.Inv w) : inMemory.Ends T.Limited i p (fun _ => T.Inv) w := by
  have hwalks := Trial.walks_trial hd i
  have close {x : Act (List Transaction)} (h : T.Keeps Trial.anyFailures i x) :
      inMemory.Ends T.Limited i x.run (fun _ => T.Inv) w := by
    have hruns := Machine.Ends.mono (h w hw trivial) (R := fun _ w => T.Inv w) fun r w' hr => by
      cases r <;> exact hr.1
    exact (hruns.ofRestrict fun _ _ => trivial).imp fun _ h => h.1
  rcases hp with ⟨op, hop, rfl⟩ | ⟨now, tx, move, hmove, rfl⟩
  · exact close (hwalks.act hop)
  · exact close (hwalks.bind (hwalks.tickMove hmove) fun _ => hwalks.pure _)

theorem inv_drift (h : T.Inv w) (hd : inMemory.drift w w') : T.Inv w' := by
  obtain ⟨now, rfl⟩ := hd
  exact h.setClock now

/-- What an operation that tries has shown at any point. -/
theorem explained_along {α : Type} {R : World → Prop} {x : Act α} {r : Option (Except Err α)}
    (h : (alone fun _ _ => True).Runs (T.Explained R) i x (fun _ w => T.Inv w ∧ T.Explained R w)
      (fun _ w => T.Inv w ∧ T.Explained R w) w)
    (hR : ∀ (w : World) now, R w → R (w.setClock now)) (hg : inMemory.Goes i x.run w r w') :
    T.Explained R w' := by
  have hends := Machine.Ends.mono h (R := fun _ w => T.Explained R w) fun r w' hr => by
    cases r <;> exact hr.2
  refine (hends.ofRestrict fun _ _ => trivial).along (fun _ w w' hw hd => ?_) (fun _ _ h => h) hg
  obtain ⟨now, rfl⟩ := hd
  exact ⟨hw.1, fun ht => hR w now (hw.2 ht)⟩

/-- **Attempt limits are exact.**  The action of a Saga branch and the Try of a TCC branch are
called no more often than the limit says, at every point of every run of programs one after
another.  Where `start_saga` has turned the Saga to an abort, the action of a branch has failed
as often as the limit says; where `prepare_tcc` has turned the TCC to one, a Try was done last
that found its Cancel, or that has failed and had failed as often as the limit says. -/
theorem attempt_limits_exact (dtm : Dtm) (hmin : 1 ≤ dtm.options.maxAttempts)
    (hmax : dtm.options.maxAttempts ≤ u32Max) {s₀ : Transaction} {w₀ : World}
    (hs : dtm.SubmittedFresh s₀ w₀) :
    (∀ w, inMemory.SerialAt (dtm.Drives s₀.gid) w₀ w → ∀ id,
      callsUnder ⟨s₀.gid, id, s₀.tryOp⟩ w.history ≤ dtm.attemptLimit s₀) ∧
    (∀ w s, inMemory.Serial (dtm.Drives s₀.gid) w₀ w → w.txs[s₀.gid]? = some s →
      s.status ≠ .aborting → s.status ≠ .aborted → ∀ i r w' s', w'.txs[s₀.gid]? = some s' →
      s'.status = .aborting ∨ s'.status = .aborted →
      (s₀.kind = .saga → inMemory.Goes i (dtm.startSaga s₀.gid).run w r w' →
        ∃ b ∈ s.branches,
          failuresUnder ⟨s₀.gid, b.id, s₀.tryOp⟩ w'.history = dtm.attemptLimit s₀) ∧
      (s₀.kind = .tcc → inMemory.Goes i (dtm.prepareTcc s₀.gid).run w r w' →
        ∃ b ∈ s.branches, w'.JustCancelled ⟨s₀.gid, b.id, s₀.tryOp⟩ ∨
          (w'.JustFailed ⟨s₀.gid, b.id, s₀.tryOp⟩ ∧
            failuresUnder ⟨s₀.gid, b.id, s₀.tryOp⟩ w'.history = dtm.attemptLimit s₀))) := by
  have hd := hs.matches hmin hmax
  have hinv := hs.inv hmin hmax
  have hstep (i : Nat) (p : Prog effects (Except Err (List Transaction))) (w : World)
      (hp : dtm.Drives s₀.gid p) (hw : (hs.trial hmin hmax).Inv w) :=
    ends_drives (i := i) hd hp hw
  refine ⟨fun w hr id => ?_, fun w s hr hs' hst hst' i r w' s' hs'' hturned => ⟨fun hk hg => ?_,
    fun hk hg => ?_⟩⟩
  · exact hr.along (fun _ _ => inv_drift) (fun _ => Trial.Inv.limited) hstep hinv id
  · obtain ⟨_, ho, hrec⟩ := hr.stays (fun _ _ => inv_drift) hstep hinv
    cases ho.stored.symm.trans hs'
    have hexp := explained_along (Trial.runs_startSaga hk (hd.saga hk) ho hrec)
      (fun _ _ h => h) hg
    rcases hexp.2 ⟨s', hs'', hturned⟩ with ⟨_, hs₁, hst₁⟩ | ⟨id, hid, hspent⟩
    · cases hs'.symm.trans hs₁
      exact absurd hst₁ (not_or.mpr ⟨hst, hst'⟩)
    · obtain ⟨b, hb, rfl⟩ := List.mem_map.mp hid
      exact ⟨b, hb, hspent⟩
  · obtain ⟨_, ho, hrec⟩ := hr.stays (fun _ _ => inv_drift) hstep hinv
    cases ho.stored.symm.trans hs'
    have hexp := explained_along (Trial.runs_prepareTcc hk (hd.tcc hk) ho hrec)
      (fun _ _ h => h) hg
    rcases hexp.2 ⟨s', hs'', hturned⟩ with ⟨_, hs₁, hst₁⟩ | ⟨id, hid, hfailed⟩
    · cases hs'.symm.trans hs₁
      exact absurd hst₁ (not_or.mpr ⟨hst, hst'⟩)
    · obtain ⟨b, hb, rfl⟩ := List.mem_map.mp hid
      exact ⟨b, hb, hfailed⟩

end Runs

/-- A Saga with one branch, which may be called twice. -/
def triedTwice : Transaction :=
  { Transaction.new 0 "g" .saga [.saga "b" "do" "undo" .null] with
    options := { TransactionOptions.default with retryLimit := some 1 } }

/-- A TCC with one branch, which may be tried as often as the coordinator says. -/
def triedOften : Transaction :=
  Transaction.new 0 "g" .tcc [.tccTry "b" "try" "confirm" "cancel" .null]

/-- The record is turned to an abort. -/
def World.hasTurned (w : World) (gid : String) : Bool :=
  (w.txs[gid]?).any fun s => s.status = .aborting || s.status = .aborted

/-- A run that turns to an abort in the operation `op`. -/
theorem exists_turned {tx : Transaction} {x : Act Transaction} {runs : List (Operation × List Outcome)}
    {cs : List Outcome} (hops : ∀ r ∈ runs, r.1.RegistersIn fun g b => g = tx.gid → b.attempts = 0)
    (h : (inMemory.finishAll? (Operation.prog .plain) (.initial [tx]) runs).any (fun w =>
      !w.hasTurned tx.gid && (w.txs[tx.gid]?).isSome &&
      (inMemory.finish? 0 x.run w cs).any fun r => r.2.hasTurned tx.gid) = true) :
    ∃ w s r w' s', inMemory.Serial (Dtm.plain.Drives tx.gid) (.initial [tx]) w ∧
      w.txs[tx.gid]? = some s ∧ s.status ≠ .aborting ∧ s.status ≠ .aborted ∧
      inMemory.Goes 0 x.run w r w' ∧ w'.txs[tx.gid]? = some s' ∧
      (s'.status = .aborting ∨ s'.status = .aborted) := by
  obtain ⟨w, hw, hφ⟩ := Dtm.exists_serial inMemory .plain
    (Operation.RegistersIn fun g b => g = tx.gid → b.attempts = 0) (.initial [tx]) runs _ hops h
  rw [Bool.and_eq_true, Bool.and_eq_true, Option.any_eq_true] at hφ
  obtain ⟨⟨hnot, hsome⟩, r, hr, hturned⟩ := hφ
  obtain ⟨s, hs⟩ := Option.isSome_iff_exists.mp hsome
  rw [World.hasTurned, Option.any_eq_true] at hturned
  obtain ⟨s', hs', hst'⟩ := hturned
  rw [World.hasTurned, hs] at hnot
  simp only [Option.any_some, Bool.not_eq_true', Bool.or_eq_false_iff, decide_eq_false_iff_not] at hnot
  refine ⟨w, s, _, r.2, s', hw.mono fun p hp => Or.inl hp, hs, hnot.1, hnot.2,
    Machine.goes_of_finish? hr, hs', ?_⟩
  simpa using hst'

/-- An action that may be called twice fails twice, and `start_saga` turns to the abort; a Try
fails as often as the coordinator says, and `prepare_tcc` does. -/
theorem attempt_limits_exact_turned :
    (∃ w s r w' s', inMemory.Serial (Dtm.plain.Drives "g") (.initial [triedTwice]) w ∧
      inMemory.Goes 0 (Dtm.plain.startSaga "g").run w r w' ∧ w.txs["g"]? = some s ∧
      w'.txs["g"]? = some s' ∧ (s'.status = .aborting ∨ s'.status = .aborted) ∧
      ∃ b ∈ s.branches, failuresUnder ⟨"g", b.id, "action"⟩ w'.history = 2) ∧
    (∃ w s r w' s', inMemory.Serial (Dtm.plain.Drives "g") (.initial [triedOften]) w ∧
      inMemory.Goes 0 (Dtm.plain.prepareTcc "g").run w r w' ∧ w.txs["g"]? = some s ∧
      w'.txs["g"]? = some s' ∧ (s'.status = .aborting ∨ s'.status = .aborted) ∧
      ∃ b ∈ s.branches, w'.JustCancelled ⟨"g", b.id, "try"⟩ ∨
        (w'.JustFailed ⟨"g", b.id, "try"⟩ ∧
          failuresUnder ⟨"g", b.id, "try"⟩ w'.history = 5)) := by
  refine ⟨?_, ?_⟩
  · obtain ⟨w, s, r, w', s', hw, hs, hst, hst', hg, hs', hturned⟩ := @exists_turned triedTwice
      (Dtm.plain.startSaga "g") [(.startSaga "g", outcomes 12 false)] (outcomes 20 false)
      (by simp [Operation.RegistersIn]) (by decide +kernel)
    have hfresh : Dtm.plain.SubmittedFresh triedTwice (.initial [triedTwice]) :=
      ⟨World.keyed_initial _, rfl, rfl, Or.inl rfl, by decide, by decide⟩
    refine ⟨w, s, r, w', s', hw, hg, hs, hs', hturned, ?_⟩
    exact ((attempt_limits_exact .plain (by decide) (by decide) hfresh).2 w s hw hs hst hst' 0 r w' s'
      hs' hturned).1 rfl hg
  · obtain ⟨w, s, r, w', s', hw, hs, hst, hst', hg, hs', hturned⟩ := @exists_turned triedOften
      (Dtm.plain.prepareTcc "g") (List.replicate 4 (.prepareTcc "g", outcomes 12 false))
      (outcomes 20 false) (by simp [Operation.RegistersIn]) (by decide +kernel)
    have hfresh : Dtm.plain.SubmittedFresh triedOften (.initial [triedOften]) :=
      ⟨World.keyed_initial _, rfl, rfl, Or.inr rfl, by decide, by decide⟩
    refine ⟨w, s, r, w', s', hw, hg, hs, hs', hturned, ?_⟩
    exact ((attempt_limits_exact .plain (by decide) (by decide) hfresh).2 w s hw hs hst hst' 0 r w' s'
      hs' hturned).2 rfl hg

end RozeDtm
