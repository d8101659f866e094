import RozeDtm.Serial.Attempts

/-!
# Operations that do not try

The operations that compensate, confirm, cancel or stop a transaction make no call of its trial.
What they write ends the trial, so they keep `Trial.Inv`, and so does every operation of another
kind: it finds the wrong kind and stops.
-/

namespace RozeDtm

open Conc

namespace Trial

variable {T : Trial} {F : (String → Nat) → Prop} {i : Nat} {α : Type} {dtm : Dtm}
  {tx : Transaction} {passed ahead : List Branch}

theorem Of.change (h : T.Of tx) (branches : List Branch) (status : TransactionStatus) :
    T.Of { tx with branches := branches, status := status } := ⟨h.gid, h.kind, h.options⟩

/-- Barriers for compensations. -/
theorem compensate_ne (gid id : String) :
    ∀ id', (⟨gid, id, "compensate"⟩ : BranchBarrier) ≠ T.key id' :=
  ne_key (show "compensate" ≠ "action" by decide) (show "compensate" ≠ "try" by decide)

/-- A TCC that is confirmed is no longer tried. -/
theorem not_tries_succeeding (hk : T.kind = .tcc) : ¬ T.Tries .succeeding := by
  rw [Tries, hk]
  decide

/-- Writing the record of an abort that goes on. -/
theorem keeps_persistAborting (htx : T.Of tx) (hst : tx.status = .aborting) :
    T.Keeps F i (persistTransaction tx) :=
  keeps_persist htx (not_tries (by rw [hst]; rfl))

/-! ### The abort of a Saga -/

theorem keeps_abortSagaLoop (htx : T.Of tx) (hst : tx.status = .aborting) :
    T.Keeps F i (dtm.abortSagaLoop tx ahead passed) := by
  have hc := keeps_batches T F i
  have hwrite (bs : List Branch) : T.Keeps F i (persistTransaction { tx with branches := bs }) :=
    keeps_persistAborting (htx.change bs tx.status) hst
  induction ahead generalizing passed with
  | nil => exact keeps_persist (htx.change passed .aborted) (not_tries rfl)
  | cons branch ahead ih =>
    rw [Dtm.abortSagaLoop]
    split
    · exact ih
    split
    · exact ih
    refine hc.bind (hc.barrier _ (compensate_ne _ _)) fun d => ?_
    cases d with
    | execute =>
      dsimp only
      split
      · refine hc.bind (hc.invokeBranch (compensate_ne _ _)) fun r => ?_
        obtain ⟨b, succeeded⟩ := r
        dsimp only
        split
        · exact ih
        · exact hc.bind (hc.releaseBarrier _ (compensate_ne _ _)) fun _ => hwrite _
      · exact ih
    | skipDuplicate => exact hwrite _
    | skipNullCompensation => exact hc.throw _
    | skipCancelledTry => exact hc.throw _

/-- The calls of a compensation batch. -/
theorem compensationTasks_ne {ps : List (Nat × Branch)} :
    ∀ t ∈ (Dtm.compensationTasks tx ps).1, ∀ id, t.call.barrier ≠ T.key id := by
  induction ps with
  | nil =>
    intro _ ht
    cases ht
  | cons p ps ih =>
    obtain ⟨index, branch⟩ := p
    rw [Dtm.compensationTasks]
    split
    · intro _ ht
      cases ht
    · exact List.forall_mem_cons.mpr ⟨compensate_ne _ _, ih⟩

theorem keeps_abortConcurrentSagaLoop {fuel : Nat} (htx : T.Of tx) (hst : tx.status = .aborting) :
    T.Keeps F i (dtm.abortConcurrentSagaLoop fuel tx) := by
  have hc := keeps_batches T F i
  induction fuel generalizing tx with
  | zero => exact hc.pure _
  | succ fuel ih =>
    rw [Dtm.abortConcurrentSagaLoop]
    split
    · exact keeps_persist (htx.change tx.branches .aborted) (not_tries rfl)
    dsimp only
    split
    · exact hc.throw _
    have hnone : ∀ b ∈ [], ∀ id, b ≠ T.key id := fun _ hb => by cases hb
    refine hc.bind (hc.claimBatch hnone fun id _ => compensate_ne _ id) fun ok => ?_
    split
    · refine hc.bind_whatever (keeps_persistAborting ⟨htx.gid, htx.kind, htx.options⟩ hst)
        (anyReply_persistTransaction rfl) ?_
      rintro _ rfl
      split
      · refine hc.bind (hc.abandonBatch fun t ht => ?_) fun _ => hc.throw _
        obtain ⟨task, htask, rfl⟩ := List.mem_map.mp ht
        exact compensationTasks_ne task htask
      · refine hc.bind_whatever (hc.runBatch compensationTasks_ne) anyReply_joinBatch_same ?_
        rintro ⟨_, failed⟩ ⟨bs, rfl⟩
        refine hc.bind_whatever (keeps_persistAborting ⟨htx.gid, htx.kind, htx.options⟩ hst)
          (anyReply_persistTransaction rfl) ?_
        rintro _ rfl
        split
        · exact ih ⟨htx.gid, htx.kind, htx.options⟩ hst
        · exact hc.pure _
    · exact keeps_loadTransaction

theorem keeps_abortConcurrentSaga (htx : T.Of tx) : T.Keeps F i (dtm.abortConcurrentSaga tx) := by
  have hc := closed_keeps T F i
  refine hc.bind (hc.ofExcept _) fun _ => ?_
  refine hc.bind_whatever (keeps_persistAborting (htx.change _ _) rfl)
    (anyReply_persistTransaction rfl) ?_
  rintro _ rfl
  exact keeps_abortConcurrentSagaLoop ⟨htx.gid, htx.kind, htx.options⟩ rfl

theorem keeps_abortSaga : T.Keeps F i (dtm.abortSaga T.gid) := by
  have hc := closed_keeps T F i
  refine keeps_load fun tx htx => hc.bind (hc.ofExcept _) fun _ => ?_
  split
  · exact hc.pure _
  refine hc.bind (hc.ofExcept _) fun _ => ?_
  split
  · exact keeps_abortConcurrentSaga htx
  · exact keeps_abortSagaLoop (htx.change tx.branches .aborting) rfl

/-! ### The second phase of a TCC -/

theorem keeps_phase2Loop {op : String} {url : Branch → Except Err String} {onOk : BranchStatus}
    {final : TransactionStatus} (hop : ∀ gid id id', (⟨gid, id, op⟩ : BranchBarrier) ≠ T.key id')
    (htx : T.Of tx) (hst : ¬ T.Tries tx.status) (hfinal : final.mayTry = false) :
    T.Keeps F i (dtm.phase2Loop op url onOk final tx passed ahead) := by
  have hc := keeps_batches T F i
  induction ahead generalizing passed with
  | nil => exact keeps_persist (htx.change passed final) (not_tries hfinal)
  | cons branch ahead ih =>
    rw [Dtm.phase2Loop]
    refine hc.bind (hc.barrier _ (hop _ _)) fun d => ?_
    split
    · refine hc.bind (hc.ofExcept _) fun target => ?_
      refine hc.bind (hc.invokeBranch (hop _ _)) fun r => ?_
      obtain ⟨b, succeeded⟩ := r
      dsimp only
      split
      · exact ih
      · exact hc.bind (hc.releaseBarrier _ (hop _ _)) fun _ =>
          keeps_persist (htx.change _ tx.status) hst
    · exact ih

theorem keeps_confirmTcc (hk : T.kind = .tcc) : T.Keeps F i (dtm.confirmTcc T.gid) := by
  have hc := closed_keeps T F i
  refine keeps_load fun tx htx => hc.bind (hc.ofExcept _) fun _ => ?_
  split
  · exact hc.pure _
  refine hc.bind (hc.ofExcept _) fun _ => keeps_phase2Loop (fun gid id => ?_)
    (htx.change tx.branches .succeeding) (not_tries_succeeding hk) rfl
  exact ne_key (show "confirm" ≠ "action" by decide) (show "confirm" ≠ "try" by decide)

theorem keeps_cancelTccLoop (htx : T.Of tx) (hst : tx.status = .aborting) :
    T.Keeps F i (dtm.cancelTccLoop tx passed ahead) := by
  have hc := keeps_batches T F i
  have hkey (gid id : String) : ∀ id', (⟨gid, id, "cancel"⟩ : BranchBarrier) ≠ T.key id' :=
    ne_key (show "cancel" ≠ "action" by decide) (show "cancel" ≠ "try" by decide)
  induction ahead generalizing passed with
  | nil => exact keeps_persist (htx.change passed .aborted) (not_tries rfl)
  | cons branch ahead ih =>
    rw [Dtm.cancelTccLoop]
    refine hc.bind (hc.barrier _ (hkey _ _)) fun d => ?_
    split
    · refine hc.bind (hc.ofExcept _) fun target => ?_
      refine hc.bind (hc.invokeBranch (hkey _ _)) fun r => ?_
      obtain ⟨b, succeeded⟩ := r
      dsimp only
      split
      · exact ih
      · exact hc.bind (hc.releaseBarrier _ (hkey _ _)) fun _ =>
          keeps_persistAborting (htx.change _ tx.status) hst
    · split
      · exact hc.throw _
      · exact ih
      · exact ih
      · exact hc.throw _

theorem keeps_cancelTcc : T.Keeps F i (dtm.cancelTcc T.gid) := by
  have hc := closed_keeps T F i
  refine keeps_load fun tx htx => hc.bind (hc.ofExcept _) fun _ => ?_
  split
  · exact hc.pure _
  exact hc.bind (hc.ofExcept _) fun _ => keeps_cancelTccLoop (htx.change tx.branches .aborting) rfl

/-! ### Scheduling -/

theorem keeps_scheduleSubmit : T.Keeps F i (Dtm.scheduleSubmit T.gid) := by
  have hc := closed_keeps T F i
  refine keeps_load fun tx htx => ?_
  split
  · exact hc.pure _
  refine hc.bind (hc.ofExcept _) fun _ => hc.bind (hc.ofExcept _) fun _ => ?_
  split
  · rename_i hsub
    refine keeps_persist (htx.change tx.branches .succeeding) (not_tries_succeeding ?_)
    rw [htx.kind] at hsub
    rcases T.driven with hk | hk
    · rw [hk] at hsub
      simp at hsub
    · exact hk
  split
  · rename_i hw
    exact absurd (htx.kind.symm.trans hw.1) kind_ne_workflow
  · exact hc.pure _

theorem keeps_scheduleAbort : T.Keeps F i (Dtm.scheduleAbort T.gid) := by
  have hc := closed_keeps T F i
  refine keeps_load fun tx htx => ?_
  split
  · exact hc.pure _
  split
  · rename_i hm
    rw [htx.kind] at hm
    rcases T.driven with hk | hk <;> rw [hk] at hm <;> cases hm
  · exact hc.bind (hc.ofExcept _) fun _ => keeps_persistAborting (htx.change _ _) rfl

theorem keeps_forceStop : T.Keeps F i (Dtm.forceStop T.gid) := by
  have hc := closed_keeps T F i
  exact keeps_load fun tx htx => hc.bind (hc.ofExcept _) fun _ =>
    keeps_persist (htx.change _ .failed) (not_tries rfl)

/-! ### A new retry time -/

/-- A branch with another retry time counts for the same. -/
theorem due_map {f : Branch → Branch} {id : String} {bs : List Branch} (hid : ∀ b, (f b).id = b.id)
    (hst : ∀ b, (f b).status = b.status) : due id (bs.map f) = (due id bs).map f := by
  rw [due, List.find?_map, due]
  refine congrArg (Option.map f) (congrArg (fun p => bs.find? p) ?_)
  funext b
  simp only [Function.comp_apply, hid, hst]

theorem Counted.map {w : World} {f : Branch → Branch} {bs : List Branch} (h : T.Counted w bs)
    (hid : ∀ b, (f b).id = b.id) (hst : ∀ b, (f b).status = b.status)
    (hatt : ∀ b, (f b).attempts = b.attempts) : T.Counted w (bs.map f) := by
  intro id b hdue hfree
  rw [due_map hid hst, Option.map_eq_some_iff] at hdue
  obtain ⟨a, ha, rfl⟩ := hdue
  obtain ⟨heven, hlt⟩ := h id a ha hfree
  refine ⟨⟨?_, ?_⟩, ?_⟩
  · rw [hid, hatt]
    exact heven.calls
  · rw [hid, hatt]
    exact heven.failures
  · rw [hatt]
    exact hlt

/-- A record with other retry times says the same. -/
theorem Record.retryNow {w : World} {s : Transaction} (hr : T.Record w s) (now : Nat) :
    T.Record w (Dtm.retryNow now s) where
  gid := hr.gid
  kind := hr.kind
  options := hr.options
  fresh := hr.fresh
  counted := fun ht => by
    refine (hr.counted ht).map (fun b => ?_) (fun b => ?_) fun b => ?_ <;> split <;> rfl

theorem keeps_resetRetry : T.Keeps F i (Dtm.resetRetry T.gid) := by
  intro w hw hF
  obtain ⟨s, ho, hr⟩ := id hw
  have hshow (now : Nat) : T.Limited (w.setClock now) ∧ F (T.failures (w.setClock now)) :=
    ⟨(hw.setClock now).limited, hF⟩
  refine Machine.runs_bind.mpr (runs_loadTransaction hshow (fun now tx htx => ?_) fun now _ _ =>
    ⟨hw.setClock now, hF⟩)
  cases ho.stored.symm.trans htx
  rw [Machine.runs_bind, runs_ofExcept]
  split
  · refine Machine.runs_bind.mpr (runs_currentMillis hshow fun now' => ?_)
    exact runs_persistTrial (ho.setClock _) ((hr.setClock _).retryNow _) hshow
      fun _ w' hidle _ _ ho' hr' => ⟨⟨_, ho', hr'⟩, hidle.failures ▸ hF⟩
  · exact ⟨hw.setClock now, hF⟩

/-! ### Operations of another kind -/

/-- An operation of another kind stops. -/
theorem keeps_otherKind {kind : TransactionKind} {f : Transaction → Act α} (hk : kind ≠ T.kind) :
    T.Keeps F i (transactionOfKind T.gid kind >>= f) := by
  intro w hw hF
  obtain ⟨s, ho, hr⟩ := id hw
  refine Machine.runs_bind.mpr (runs_transactionOfKind
    (fun now => ⟨(hw.setClock now).limited, hF⟩) (fun now tx htx hkind => ?_) fun now _ =>
      ⟨hw.setClock now, hF⟩)
  cases ho.stored.symm.trans htx
  exact absurd (hkind.symm.trans hr.kind) hk

end Trial

end RozeDtm
