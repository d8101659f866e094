import RozeDtm.Serial.SagaCalls
import RozeDtm.Serial.Steady

/-!
# Sequential Sagas, one operation after another

`SagaInv` is what holds of a sequential Saga between operations that run one after another:
its calls are in order, and its stored record says how far they have come.  `start_saga` and
`abort_saga` keep it.  During an operation the stored record lags behind the calls; what is
left to do is then what the loop has ahead of it (`SagaOpen`).
-/

namespace RozeDtm

open Conc

/-- What the stored record of the Saga says of its calls. -/
structure SagaRecord (s₀ : Transaction) (h : List (Nat × Event)) (s : Transaction) : Prop where
  gid : s.gid = s₀.gid
  kind : s.kind = .saga
  options : s.options = s₀.options
  same : SameBranches s₀.branches s.branches
  phase : SagaPhase s₀ h s.status s.branches

/-- The world while an operation on the Saga is between two branches; `s` is the stored
record. -/
structure SagaAt (s₀ s : Transaction) (w : World) : Prop where
  keyed : w.Keyed
  stored : w.txs[s₀.gid]? = some s
  order : SagaOrder s₀ (callEvents s₀.gid w.history)
  record : SagaRecord s₀ (callEvents s₀.gid w.history) s

/-- What holds of the Saga between operations. -/
def SagaInv (s₀ : Transaction) (w : World) : Prop := ∃ s, SagaAt s₀ s w

/-- The calls of the Saga are in order, and if it is Aborted, it is compensated. -/
def World.SagaOrdered (s₀ : Transaction) (w : World) : Prop :=
  SagaOrder s₀ (callEvents s₀.gid w.history) ∧
  ∀ s, w.txs[s₀.gid]? = some s → s.status = .aborted →
    doneIds "compensate" (callEvents s₀.gid w.history) = compensated s₀ (callEvents s₀.gid w.history)

/-- The branches are run in order, and each can be compensated. -/
structure Sequential (s₀ : Transaction) : Prop where
  sequential : s₀.options.concurrent = false
  ids : (s₀.branches.map Branch.id).Nodup
  compensate : ∀ b ∈ s₀.branches, b.compensate ≠ none

/-- The world while an operation on the Saga is at a branch; `s` is the stored record. -/
structure SagaOpen (s₀ s : Transaction) (w : World) : Prop where
  keyed : w.Keyed
  stored : w.txs[s₀.gid]? = some s
  notAborted : s.status ≠ .aborted
  order : SagaOrder s₀ (callEvents s₀.gid w.history)

section Worlds

variable {s₀ s tx : Transaction} {w w' : World} {i now : Nat}

theorem SagaOpen.ordered (hw : SagaOpen s₀ s w) : w.SagaOrdered s₀ := by
  refine ⟨hw.order, fun s' hs' ha => ?_⟩
  cases hw.stored.symm.trans hs'
  exact absurd ha hw.notAborted

theorem SagaOpen.goesOn (hw : SagaOpen s₀ s w) (htxs : w'.txs = w.txs)
    (ho : SagaOrder s₀ (callEvents s₀.gid w'.history)) : SagaOpen s₀ s w' where
  keyed := by
    rw [World.Keyed, htxs]
    exact hw.keyed
  stored := by
    rw [htxs]
    exact hw.stored
  notAborted := hw.notAborted
  order := ho

/-- A call is under way. -/
theorem SagaOpen.orderedAt (hw : SagaOpen s₀ s w) (htxs : w'.txs = w.txs)
    (ho : SagaOrder s₀ (callEvents s₀.gid w'.history)) : w'.SagaOrdered s₀ :=
  (hw.goesOn htxs ho).ordered

theorem SagaAt.opens (hw : SagaAt s₀ s w) (hst : s.status ≠ .aborted) : SagaOpen s₀ s w :=
  ⟨hw.keyed, hw.stored, hst, hw.order⟩

theorem SagaAt.same (hw : SagaAt s₀ s w) (hk : w'.Keyed)
    (htxs : w'.txs[s₀.gid]? = w.txs[s₀.gid]?)
    (hcalls : callEvents s₀.gid w'.history = callEvents s₀.gid w.history) : SagaAt s₀ s w' where
  keyed := hk
  stored := htxs.trans hw.stored
  order := by
    rw [hcalls]
    exact hw.order
  record := by
    rw [hcalls]
    exact hw.record

theorem SagaInv.ordered (hw : SagaInv s₀ w) : w.SagaOrdered s₀ := by
  obtain ⟨s, hs⟩ := hw
  refine ⟨hs.order, fun s' hs' ha => ?_⟩
  cases hs.stored.symm.trans hs'
  cases hs.record.phase with
  | forward _ _ hst => rcases hst with hst | hst <;> exact absurd (hst.symm.trans ha) (by decide)
  | succeeded hst => exact absurd (hst.symm.trans ha) (by decide)
  | backward hst => exact absurd (hst.symm.trans ha) (by decide)
  | aborted _ hb => exact hb

theorem SagaInv.setClock (hw : SagaInv s₀ w) (now : Nat) : SagaInv s₀ (w.setClock now) :=
  hw.imp fun _ h => h.same h.keyed rfl rfl

/-- What is done to other transactions does not matter. -/
theorem steady_saga (s₀ : Transaction) : Steady s₀.gid (World.SagaOrdered s₀) (SagaInv s₀) where
  keyed := fun hw => by
    obtain ⟨s, hs⟩ := hw
    exact hs.keyed
  clock := fun now hw => hw.setClock now
  same := fun hw hk hsame =>
    hw.imp fun _ h => h.same hk hsame.txs (by rw [callEvents, hsame.events, callEvents])
  shows := SagaInv.ordered

/-- The world after the record was written. -/
theorem SagaAt.put (hk : w.Keyed) (ho : SagaOrder s₀ (callEvents s₀.gid w.history))
    (hr : SagaRecord s₀ (callEvents s₀.gid w.history) tx) :
    SagaAt s₀ (bumpTransactionRevision now tx) (w.put (bumpTransactionRevision now tx)) where
  keyed := hk.put _
  stored := by
    have hg : (bumpTransactionRevision now tx).gid = s₀.gid := hr.gid
    rw [World.put_txs, hg]
    exact Std.ExtTreeMap.getElem?_insert_self
  order := ho
  record := ⟨hr.gid, hr.kind, hr.options, hr.same, hr.phase⟩

/-- The next action has succeeded. -/
theorem SagaOpen.acted {acted rest : List Branch} {b : Branch} (hw : SagaOpen s₀ s w)
    (i now now' : Nat) (x : BranchBarrier) (c : BranchCall) (b' : Branch) (hg : c.gid = s₀.gid)
    (hop : c.op = "action") (hid : c.branchId = b'.id) (hst : b'.status = .succeeded)
    (hs : SameBranches s₀.branches (acted ++ b' :: rest))
    (hf : Forward s₀ (callEvents s₀.gid w.history) acted (b :: rest))
    (hw' : w' = (((w.setClock now).claimed i x).called i c true).setClock now') :
    SagaOpen s₀ s w' ∧ Forward s₀ (callEvents s₀.gid w'.history) (acted ++ [b']) rest := by
  subst hw'
  rw [callEvents_claimed_called w i now now' x true hg]
  have hf' := hf.act (i := i) hop hid hst
  refine ⟨hw.goesOn rfl ?_, hf'⟩
  rw [callEvents_claimed_called w i now now' x true hg]
  refine hf'.order ?_ (hw.order.began fun _ => hf.notBegun).actionsFirst.ended
  rw [List.append_assoc, List.singleton_append]
  exact hs

/-- The last of the compensations that are left has succeeded. -/
theorem SagaOpen.undone {left : List String} (hw : SagaOpen s₀ s w) (i now now' : Nat)
    (b : BranchBarrier) (c : BranchCall) (hg : c.gid = s₀.gid) (hop : c.op = "compensate")
    (hb : Backward s₀ (callEvents s₀.gid w.history) (left ++ [c.branchId]))
    (hw' : w' = (((w.setClock now).claimed i b).called i c true).setClock now') :
    SagaOpen s₀ s w' ∧ Backward s₀ (callEvents s₀.gid w'.history) left := by
  subst hw'
  have hleft := hb.undo (i := i) hop
  rw [← callEvents_claimed_called w i now now' b true hg] at hleft
  refine ⟨hw.goesOn rfl ?_, hleft⟩
  rw [callEvents_claimed_called w i now now' b true hg] at hleft ⊢
  exact hw.order.undo hop hleft

/-- A call under a free barrier has failed, and the barrier is given back. -/
theorem SagaOpen.givenBack (hw : SagaOpen s₀ s w) (i now now' now'' : Nat) (b : BranchBarrier)
    (c : BranchCall) (hg : c.gid = s₀.gid)
    (hop : c.op = "action" → ¬ Begun "compensate" (callEvents s₀.gid w.history))
    (hw' : w' = (InMemory.releaseBarrier (((((w.setClock now).claimed i b).called i
      c false).setClock now').setClock now'') b).note i (.released b)) :
    SagaOpen s₀ s w' ∧ callEvents s₀.gid w'.history =
      (i, .ended c false) :: (i, .began c) :: callEvents s₀.gid w.history := by
  subst hw'
  have hcalls := callEvents_claimed_called w i now now' b false hg
  refine ⟨hw.goesOn rfl ?_, ?_⟩
  · rw [World.note_history, callEvents_released]
    refine hcalls ▸ (hw.order.began hop).failed
  · rw [World.note_history, callEvents_released]
    exact hcalls

end Worlds

section Operations

variable {s₀ s tx : Transaction} {w : World} {dtm : Dtm} {i : Nat}

/-- An operation keeps the Saga, however it ends. -/
abbrev KeepsSaga {α : Type} (s₀ : Transaction) (i : Nat) (x : Act α) (w : World) : Prop :=
  Keeps (fun _ _ => True) (World.SagaOrdered s₀) (SagaInv s₀) i x w

/-- Writing the record of the Saga. -/
theorem runs_persistSaga {Q : Transaction → World → Prop} (hw : SagaOpen s₀ s w)
    (hr : SagaRecord s₀ (callEvents s₀.gid w.history) tx)
    (h : ∀ now w', w'.history = w.history → SagaAt s₀ (bumpTransactionRevision now tx) w' →
      Q tx.written w') :
    (alone fun _ _ => True).Runs (World.SagaOrdered s₀) i (persistTransaction tx) Q
      (fun _ => SagaInv s₀) w := by
  refine runs_persistTransaction (fun _ => ?_) fun now _ => h now _ rfl ?_
  · exact hw.orderedAt rfl hw.order
  · exact .put (w := w.setClock now) hw.keyed hw.order hr

/-- Calling a branch of the Saga. -/
theorem runs_sagaCall {gid : String} {branch : Branch} {url op : String}
    {Q : Branch × Bool → World → Prop} {E : Err → World → Prop} (hw : SagaOpen s₀ s w)
    (hg : gid = s₀.gid)
    (hop : op = "action" → ¬ Begun "compensate" (callEvents s₀.gid w.history))
    (ok : ∀ now, Q (branch, true)
      ((w.called i (Dtm.branchCall tx.options gid branch url op) true).setClock now))
    (error : ∀ now b, b.definition = branch.definition → b.status = branch.status →
      b.attempts = branch.attempts →
      SagaOpen s₀ s ((w.called i (Dtm.branchCall tx.options gid branch url op) false).setClock now) →
      Q (b, false)
        ((w.called i (Dtm.branchCall tx.options gid branch url op) false).setClock now)) :
    (alone fun _ _ => True).Runs (World.SagaOrdered s₀) i
      (dtm.invokeBranch tx.options gid branch url op) Q E w := by
  have hbegan : SagaOrder s₀ ((i, .began (Dtm.branchCall tx.options gid branch url op)) ::
      callEvents s₀.gid w.history) := hw.order.began hop
  have hfailed (now : Nat) : SagaOpen s₀ s
      ((w.called i (Dtm.branchCall tx.options gid branch url op) false).setClock now) := by
    refine hw.goesOn rfl ?_
    rw [setClock_history, callEvents_called hg]
    exact hbegan.failed
  refine runs_invokeBranch_through (fun _ => ?_) (fun now => ?_) (fun now => (hfailed now).ordered)
    ok fun now b hdef hst hatt => error now b hdef hst hatt (hfailed now)
  · exact hw.orderedAt rfl hw.order
  · refine hw.orderedAt rfl ?_
    rw [setClock_history, World.note_history, callEvents_began hg]
    exact hbegan

/-- **The loop of `abort_saga`.** -/
theorem keeps_abortSagaLoop {ahead passed : List Branch} (hw : SagaOpen s₀ s w)
    (hg : tx.gid = s₀.gid) (hk : tx.kind = .saga) (ho : tx.options = s₀.options)
    (htx : tx.status = .aborting) (hc : ∀ b ∈ s₀.branches, b.compensate ≠ none)
    (hs : SameBranches s₀.branches (ahead.reverse ++ passed)) (hpassed : toUndo passed = [])
    (hb : Backward s₀ (callEvents s₀.gid w.history) (toUndo ahead.reverse)) :
    KeepsSaga s₀ i (dtm.abortSagaLoop tx ahead passed) w := by
  induction ahead generalizing w passed with
  | nil =>
    exact runs_persistSaga hw ⟨hg, hk, ho, hs, .aborted rfl hb⟩ fun _ _ _ hw' => ⟨_, hw'⟩
  | cons branch ahead ih =>
    rw [List.reverse_cons, List.append_assoc, List.singleton_append] at hs
    rw [List.reverse_cons, toUndo_append] at hb
    have hcomp : branch.compensate ≠ none := hs.compensate hc branch (by simp)
    rw [Dtm.abortSagaLoop]
    split
    · -- a branch that is Pending is passed by
      rename_i hst
      rw [toUndo_cons_of_not_owed (by rw [hst]; rfl), toUndo_nil, List.append_nil] at hb
      refine ih hw (hs.exchange rfl) ?_ hb
      rw [toUndo_cons_of_not_owed rfl, hpassed]
    split
    · rename_i hst
      have hnot : branch.status.isOwed = false := by
        simpa [BranchStatus.isOwed] using hst
      rw [toUndo_cons_of_not_owed hnot, toUndo_nil, List.append_nil] at hb
      refine ih hw hs ?_ hb
      rw [toUndo_cons_of_not_owed hnot, hpassed]
    · rename_i hst
      have howed : branch.status.isOwed = true := by
        simpa [BranchStatus.isOwed, Classical.or_iff_not_imp_left] using hst
      rw [toUndo_cons_of_owed howed, toUndo_nil] at hb
      refine Machine.runs_bind.mpr (runs_barrier (show "compensate" ≠ "try" by decide)
        (show "compensate" ≠ "cancel" by decide) (fun _ => hw.orderedAt rfl hw.order)
        (fun now hbar => ?_) fun now hbar => ?_)
      · -- the barrier is taken
        have hsame : callEvents s₀.gid ((w.setClock now).note i
            (.decided ⟨tx.gid, branch.id, "compensate"⟩ .skipDuplicate)).history =
              callEvents s₀.gid w.history := callEvents_decided
        refine runs_persistSaga (hw.goesOn rfl (hsame ▸ hw.order))
          ⟨hg, hk, ho, hs.exchange rfl, .backward htx ?_⟩ fun _ _ _ hw' => ⟨_, hw'⟩
        rw [hsame, toUndo_append, toUndo_cons_of_owed rfl, hpassed]
        exact hb
      · dsimp only
        split
        · rename_i compensate _
          have hw₁ : SagaOpen s₀ s ((w.setClock now).claimed i ⟨tx.gid, branch.id, "compensate"⟩) :=
            hw.goesOn rfl (by rw [claimed_history, callEvents_decided]; exact hw.order)
          refine Machine.runs_bind.mpr (runs_sagaCall hw₁ hg (fun h => absurd h (by decide))
            (fun now' => ?_) fun now' b' hdef hst' _ hw₂ => ?_)
          · -- the compensation has succeeded
            obtain ⟨hw', hleft⟩ := hw.undone i now now' ⟨tx.gid, branch.id, "compensate"⟩
              (Dtm.branchCall tx.options tx.gid { branch with
                status := .compensating, attempts := satAdd32 branch.attempts 1 } compensate
                "compensate") hg rfl hb rfl
            refine ih hw' (hs.exchange rfl) ?_ hleft
            rw [toUndo_cons_of_not_owed rfl, hpassed]
          · -- the compensation has failed: the branch is written as Compensating
            simp only [Bool.false_eq_true, if_false, Machine.runs_bind]
            refine runs_releaseBarrier (fun _ => hw₂.orderedAt rfl hw₂.order) fun now'' => ?_
            obtain ⟨hw', hcalls⟩ := hw.givenBack i now now' now'' ⟨tx.gid, branch.id, "compensate"⟩
              (Dtm.branchCall tx.options tx.gid { branch with
                status := .compensating, attempts := satAdd32 branch.attempts 1 } compensate
                "compensate") hg (fun h => absurd (show "compensate" = "action" from h) (by decide)) rfl
            have hid : b'.id = branch.id := Branch.id_eq hdef
            refine runs_persistSaga hw' ⟨hg, hk, ho, hs.exchange hdef, .backward htx ?_⟩
              fun _ _ _ hw' => ⟨_, hw'⟩
            rw [toUndo_append, toUndo_cons_of_owed rfl, hpassed, hid, hcalls]
            exact hb.failed rfl
        · rename_i hnone
          exact absurd hnone hcomp

/-- What `abort_saga` finds is to be compensated. -/
theorem SagaRecord.backward {h : List (Nat × Event)} (hr : SagaRecord s₀ h s)
    (hst : s.status ∈ [TransactionStatus.submitted, .succeeding, .aborting]) :
    Backward s₀ h (toUndo s.branches) := by
  cases hr.phase with
  | forward acted rest _ hbs hf =>
    rw [hbs]
    exact hf.backward (hbs ▸ hr.same)
  | succeeded h => rw [h] at hst; exact absurd hst (by decide)
  | backward _ hb => exact hb
  | aborted h => rw [h] at hst; exact absurd hst (by decide)

/-- `abort_saga`. -/
theorem keeps_abortSaga (hS : Sequential s₀) (hw : SagaInv s₀ w) :
    KeepsSaga s₀ i (dtm.abortSaga s₀.gid) w := by
  refine Machine.runs_bind.mpr (runs_loadTransaction (fun now => (hw.setClock now).ordered)
    (fun now tx htx => ?_) fun now _ _ => hw.setClock now)
  obtain ⟨_, hs⟩ := hw.setClock now
  cases hs.stored.symm.trans htx
  rw [Machine.runs_bind, runs_ofExcept]
  split
  · split
    · exact ⟨tx, hs⟩
    · rename_i hst
      rw [Machine.runs_bind, runs_ofExcept]
      split
      · rename_i hallowed
        have hseq : tx.options.concurrent = false := by
          rw [hs.record.options]
          exact hS.sequential
        rw [hseq, if_neg (by decide)]
        have hb := hs.record.backward (ensureStatus_eq_ok.mp hallowed)
        refine keeps_abortSagaLoop (hs.opens hst) hs.record.gid hs.record.kind hs.record.options rfl
          hS.compensate ?_ rfl ?_
        · rw [List.reverse_reverse, List.append_nil]
          exact hs.record.same
        · rw [List.reverse_reverse]
          exact hb
      · exact ⟨tx, hs⟩
  · exact ⟨tx, hs⟩

/-- **The loop of `start_saga`.** -/
theorem keeps_startSagaLoop {passed acted rest ahead : List Branch} (hS : Sequential s₀)
    (hw : SagaAt s₀ s w) (hst : s.status = .succeeding) (hg : tx.gid = s₀.gid)
    (hk : tx.kind = .saga) (ho : tx.options = s₀.options) (htx : tx.status = .succeeding)
    (hahead : ahead = acted ++ rest) (hbs : s.branches = passed ++ ahead)
    (hf : Forward s₀ (callEvents s₀.gid w.history) (passed ++ acted) rest) :
    KeepsSaga s₀ i (dtm.startSagaLoop s₀.gid tx passed ahead) w := by
  induction ahead generalizing s tx w passed acted rest with
  | nil =>
    have hsame : SameBranches s₀.branches passed := by
      rw [← List.append_nil passed, ← hbs]
      exact hw.record.same
    refine runs_persistSaga (hw.opens ?_) ⟨hg, hk, ho, hsame, .succeeded rfl⟩
      fun _ _ _ hw' => ⟨_, hw'⟩
    rw [hst]
    decide
  | cons branch ahead ih =>
    rw [Dtm.startSagaLoop]
    cases acted with
    | cons a acted =>
      cases hahead
      rw [if_pos (hf.succeeded branch (by simp))]
      refine ih hw hst hg hk ho htx rfl ?_ ?_
      · rw [hbs, List.append_assoc, List.singleton_append]
      · rw [List.append_assoc, List.singleton_append]
        exact hf
    | nil =>
      rw [List.append_nil] at hf
      cases hahead
      have hopen : SagaOpen s₀ s w := hw.opens (by rw [hst]; decide)
      have hbranch := hf.untaken branch (.head _)
      rw [if_neg (by rcases hbranch.status with h | h <;> rw [h] <;> decide)]
      refine Machine.runs_bind.mpr (runs_barrier (show "action" ≠ "try" by decide)
        (show "action" ≠ "cancel" by decide) (fun _ => hopen.orderedAt rfl hopen.order)
        (fun now hbar => ?_) fun now hbar => ?_)
      · -- another attempt holds the barrier
        simp only [ne_eq, reduceCtorEq, not_false_eq_true, if_true]
        have hw' : SagaInv s₀ ((w.setClock now).note i
            (.decided ⟨tx.gid, branch.id, "action"⟩ .skipDuplicate)) :=
          ⟨s, hw.same hw.keyed rfl callEvents_decided⟩
        exact runs_loadTransaction (fun now => (hw'.setClock now).ordered)
          (fun now _ _ => hw'.setClock now) fun now _ _ => hw'.setClock now
      · simp only [ne_eq, not_true_eq_false, if_false, Machine.runs_bind]
        have hsame : SameBranches s₀.branches (passed ++ branch :: ahead) := hbs ▸ hw.record.same
        have hnodup : ((passed ++ branch :: ahead).map Branch.id).Nodup := hsame.ids ▸ hS.ids
        have hopen₁ : SagaOpen s₀ s ((w.setClock now).claimed i ⟨tx.gid, branch.id, "action"⟩) :=
          hopen.goesOn rfl (by rw [claimed_history, callEvents_decided]; exact hopen.order)
        refine runs_sagaCall hopen₁ hg (fun _ => ?_) (fun now' => ?_)
          fun now' b' hdef hst' hatt hopen₂ => ?_
        · rw [claimed_history, callEvents_decided]
          exact hf.notBegun
        · -- the action has succeeded
          simp only [if_true, Machine.runs_bind]
          obtain ⟨hopen', hf'⟩ := hopen.acted i now now' ⟨tx.gid, branch.id, "action"⟩
            (Dtm.branchCall tx.options tx.gid { branch with
              status := .running, attempts := satAdd32 branch.attempts 1 } branch.action "action")
            { branch with
              status := .succeeded, attempts := satAdd32 branch.attempts 1, nextRetryMillis := none }
            hg rfl rfl rfl (hsame.exchange rfl) hf rfl
          refine runs_persistSaga hopen' ⟨hg, hk, ho, hsame.exchange rfl, .forward _ _ (Or.inr htx)
            ?_ hf'⟩ fun now'' w'' hhist hat => ih hat htx hg hk ho htx
              (List.nil_append ahead).symm ?_ ?_
          · rw [List.append_assoc, List.singleton_append]
          · exact List.append_cons ..
          · rw [List.append_nil, hhist]
            exact hf'
        · simp only [Bool.false_eq_true, if_false]
          split
          · -- the action has failed and is tried again later
            rename_i hleft
            simp only [Machine.runs_bind]
            refine runs_releaseBarrier (fun _ => hopen₂.orderedAt rfl hopen₂.order) fun now'' => ?_
            obtain ⟨hopen', hcalls⟩ := hopen.givenBack i now now' now''
              ⟨tx.gid, branch.id, "action"⟩ (Dtm.branchCall tx.options tx.gid { branch with
                status := .running, attempts := satAdd32 branch.attempts 1 } branch.action "action")
              hg (fun _ => hf.notBegun) rfl
            refine runs_persistSaga hopen' ⟨hg, hk, ho, hsame.exchange hdef, .forward _ _
              (Or.inr htx) rfl ?_⟩ fun _ _ _ hw' => ⟨_, hw'⟩
            rw [hcalls]
            refine (hf.missed { b' with status := .failed } hnodup rfl rfl (Branch.id_eq hdef)
              hatt).retried rfl ?_
            exact ho ▸ hleft
          · -- the action has used up its attempts
            rename_i hleft
            have hcalls := @callEvents_claimed_called s₀.gid w i now now'
              ⟨tx.gid, branch.id, "action"⟩ (Dtm.branchCall tx.options tx.gid
                { branch with status := .running, attempts := satAdd32 branch.attempts 1 }
                branch.action "action") false hg
            have hturned : SameBranches s₀.branches
                (passed ++ { b' with status := .compensating } :: ahead) := hsame.exchange hdef
            simp only [Machine.runs_bind]
            refine runs_persistSaga hopen₂ ⟨hg, hk, ho, hturned.map fun b => ?_, .backward rfl ?_⟩
              fun _ _ _ hw' => keeps_abortSaga hS ⟨_, hw'⟩
            · split <;> rfl
            rw [toUndo_turned]
            refine hcalls ▸ (hf.missed { b' with status := .compensating } hnodup rfl rfl
              (Branch.id_eq hdef) hatt).givenUp rfl ?_ hturned
            exact ho ▸ Nat.not_lt.mp hleft

/-- `start_saga`. -/
theorem keeps_startSaga (hS : Sequential s₀) (hw : SagaInv s₀ w) :
    KeepsSaga s₀ i (dtm.startSaga s₀.gid) w := by
  refine Machine.runs_bind.mpr (runs_loadTransaction (fun now => (hw.setClock now).ordered)
    (fun now tx htx => ?_) fun now _ _ => hw.setClock now)
  obtain ⟨_, hs⟩ := hw.setClock now
  cases hs.stored.symm.trans htx
  rw [Machine.runs_bind, runs_ofExcept]
  split
  · split
    · exact ⟨tx, hs⟩
    · rw [Machine.runs_bind, runs_ofExcept]
      split
      · rename_i hallowed
        have hmem := ensureStatus_eq_ok.mp hallowed
        have hseq : tx.options.concurrent = false := by
          rw [hs.record.options]
          exact hS.sequential
        have hr := hs.record
        rw [hseq, if_neg (by decide), Machine.runs_bind]
        obtain ⟨acted, rest, hbs, hf⟩ : ∃ acted rest, tx.branches = acted ++ rest ∧
            Forward s₀ (callEvents s₀.gid (w.setClock now).history) acted rest := by
          cases hr.phase with
          | forward acted rest _ hbs hf => exact ⟨acted, rest, hbs, hf⟩
          | succeeded h => rw [h] at hmem; exact absurd hmem (by decide)
          | backward h => rw [h] at hmem; exact absurd hmem (by decide)
          | aborted h => rw [h] at hmem; exact absurd hmem (by decide)
        have hst : tx.status ≠ .aborted := fun h => by
          rw [h] at hmem
          exact absurd hmem (by decide)
        refine runs_persistSaga (hs.opens hst) ⟨hr.gid, hr.kind, hr.options, hr.same,
          .forward acted rest (Or.inr rfl) hbs hf⟩ fun now' w' hhist hat => ?_
        refine keeps_startSagaLoop hS hat rfl hr.gid hr.kind hr.options rfl hbs rfl ?_
        rw [hhist]
        exact hf
      · exact ⟨tx, hs⟩
  · exact ⟨tx, hs⟩

/-- `schedule_abort`. -/
theorem keeps_scheduleAbortSaga (hw : SagaInv s₀ w) :
    KeepsSaga s₀ i (Dtm.scheduleAbort s₀.gid) w := by
  refine Machine.runs_bind.mpr (runs_loadTransaction (fun now => (hw.setClock now).ordered)
    (fun now tx htx => ?_) fun now _ _ => hw.setClock now)
  obtain ⟨_, hs⟩ := hw.setClock now
  cases hs.stored.symm.trans htx
  have hr := hs.record
  split
  · exact ⟨tx, hs⟩
  · rename_i hst
    rw [if_neg (by rw [hr.kind]; decide), Machine.runs_bind, runs_ofExcept]
    split
    · rename_i hallowed
      have hmem := ensureStatus_eq_ok.mp hallowed
      rw [hr.kind] at hmem
      exact runs_persistSaga (hs.opens hst) ⟨hr.gid, hr.kind, hr.options,
        hr.same.map fun _ => rfl, .backward rfl ((hr.backward hmem).map (fun _ => rfl) fun _ => rfl)⟩
        fun _ _ _ hw' => ⟨_, hw'⟩
    · exact ⟨tx, hs⟩

/-- What the recovery runs for a status of the Saga. -/
theorem keeps_resumeSaga {status : TransactionStatus} {move : Act Transaction}
    (hS : Sequential s₀) (hw : SagaInv s₀ w) (h : dtm.resume s₀.gid .saga status = some move) :
    KeepsSaga s₀ i move w := by
  rw [Dtm.resume.eq_def] at h
  cases status with
  | submitted | succeeding =>
    cases h
    exact keeps_startSaga hS hw
  | aborting =>
    cases h
    exact keeps_abortSaga hS hw
  | trying | prepared | succeeded | aborted | failed => cases h

/-- What the recovery runs for the Saga past its timeout. -/
theorem keeps_expireSaga (hS : Sequential s₀) (hw : SagaInv s₀ w) (hg : tx.gid = s₀.gid)
    (hk : tx.kind = .saga) : KeepsSaga s₀ i (dtm.expire tx) w := by
  rw [Dtm.expire, hk, hg]
  exact keeps_abortSaga hS hw

/-- `recover`. -/
theorem keeps_recoverSaga (hS : Sequential s₀) (hw : SagaInv s₀ w) :
    KeepsSaga s₀ i (dtm.recover s₀.gid) w := by
  refine Machine.runs_bind.mpr (runs_loadTransaction (fun now => (hw.setClock now).ordered)
    (fun now tx htx => ?_) fun now _ _ => hw.setClock now)
  obtain ⟨_, hs⟩ := hw.setClock now
  cases hs.stored.symm.trans htx
  have hk : tx.kind = .saga := hs.record.kind
  split
  · exact ⟨tx, hs⟩
  · have hmessage : ¬ (tx.kind = .message ∧ tx.status = .succeeding) := by
      rw [hk]
      exact fun h => absurd h.1 (by decide)
    have hcallback : ¬ isCallbackWorkflow tx = true := by simp [isCallbackWorkflow, hk]
    rw [if_neg hmessage]
    simp only [Machine.runs_bind, Machine.runs_pure, Bool.false_eq_true, if_false]
    refine runs_call (fun now' => (SagaInv.setClock ⟨tx, hs⟩ now').ordered) fun now' c _ => ?_
    have hw' : SagaInv s₀ ((w.setClock now).setClock now') := SagaInv.setClock ⟨tx, hs⟩ now'
    split
    · exact keeps_expireSaga hS hw' hs.record.gid hk
    · rw [hk]
      have hmove : dtm.recoverMove s₀.gid .saga tx.status =
        (dtm.resume s₀.gid .saga tx.status).getD
          (throw s!"transaction {s₀.gid} is in non-replayable state {tx.status.debug}") := rfl
      rw [hmove]
      cases h : dtm.resume s₀.gid .saga tx.status with
      | none => exact hw'
      | some move => exact keeps_resumeSaga hS hw' h

/-- What the recovery tick does with the record of the Saga. -/
theorem keeps_tickMoveSaga {now : Nat} {move : Act Transaction} (hS : Sequential s₀)
    (hw : SagaInv s₀ w) (hg : tx.gid = s₀.gid) (hk : tx.kind = .saga)
    (h : dtm.tickMove now tx = some move) : KeepsSaga s₀ i move w := by
  have hcallback : ¬ isCallbackWorkflow tx = true := by simp [isCallbackWorkflow, hk]
  rw [Dtm.tickMove] at h
  split at h
  · cases h
  split at h
  · cases h
  split at h
  · cases h
    exact keeps_expireSaga hS hw hg hk
  · rw [hk, hg] at h
    split at h
    · cases h
    · exact keeps_resumeSaga hS hw h

end Operations

end RozeDtm
