import RozeDtm.Session.Rules

/-!
# What a step does to a stored transaction

`txs_step` says once what can become of the record under a gid in one step: nothing, a
whole record is written over it, a new one is put where there was none, or the store
changes it in place.  `Amends` is the last case, and `Amends.amended` what all changes in
place have in common.
-/

namespace RozeDtm

open Conc

/-- The record that a step writes over the stored one. -/
def Effect.write? : Effect → Option Transaction
  | .updateTransaction tx => some tx
  | _ => none

/-- The barrier that a step asks for. -/
def Effect.barrier? : Effect → Option BranchBarrier
  | .barrier b => some b
  | _ => none

/-- The call that a step issues. -/
def Effect.call? : Effect → Option BranchCall
  | .invokeBegin c => some c
  | _ => none

/-- The same record, at another revision or time of update. -/
def SameRecord (tx tx' : Transaction) : Prop :=
  ∃ revision updatedAtMillis,
    tx' = { tx with revision := revision, updatedAtMillis := updatedAtMillis }

theorem SameRecord.refl (tx : Transaction) : SameRecord tx tx :=
  ⟨tx.revision, tx.updatedAtMillis, rfl⟩

theorem SameRecord.bump (now : Nat) (tx : Transaction) :
    SameRecord tx (bumpTransactionRevision now tx) := ⟨_, _, rfl⟩

/-- The change in place that a step asks the store for, of the record under `g`. -/
def Amends (now : Nat) (g : String) (s s' : Transaction) : Effect → Prop
  | .registerBranch gid branch => gid = g ∧ appendDynamicBranch now s branch = .ok s'
  | .recordWorkflowProgress gid progress =>
    gid = g ∧ appendWorkflowProgress now s progress = .ok s'
  | .finishWorkflow gid status reason result =>
    gid = g ∧ applyWorkflowCompletion now s status reason result = .ok s'
  | .deferWorkflowRecovery gid delay =>
    gid = g ∧ RozeDtm.deferWorkflowRecovery now s delay = .ok s'
  | _ => False

section Stored

variable {w : World} {g : String}

/-- A change in place that is made. -/
theorem modify_ok {f : Transaction → Except Err Transaction} {s s' : Transaction}
    (hs : w.txs[g]? = some s) (hf : f s = .ok s') :
    InMemory.modify w g f = (.ok s', { w with txs := w.txs.insert g s' }) := by
  rw [InMemory.modify, hs]
  simp only [hf]

/-- A change in place that is refused. -/
theorem modify_error {f : Transaction → Except Err Transaction} {s : Transaction} {e : Err}
    (hs : w.txs[g]? = some s) (hf : f s = .error e) : InMemory.modify w g f = (.error e, w) := by
  rw [InMemory.modify, hs]
  simp only [hf]

/-- A change in place is made or refused. -/
theorem modify_cases {f : Transaction → Except Err Transaction} {s : Transaction}
    (hs : w.txs[g]? = some s) :
    (∃ s', f s = .ok s' ∧ InMemory.modify w g f = (.ok s', { w with txs := w.txs.insert g s' })) ∨
      ∃ e, f s = .error e ∧ InMemory.modify w g f = (.error e, w) := by
  cases hf : f s with
  | ok s' => exact Or.inl ⟨s', rfl, modify_ok hs hf⟩
  | error e => exact Or.inr ⟨e, rfl, modify_error hs hf⟩

theorem modify_txs {gid : String} {f : Transaction → Except Err Transaction} :
    (InMemory.modify w gid f).2.txs[g]? = w.txs[g]? ∨
      (gid = g ∧ ∃ s s', w.txs[g]? = some s ∧ f s = .ok s' ∧
        (InMemory.modify w gid f).2.txs[g]? = some s') := by
  rw [InMemory.modify]
  split
  · exact Or.inl rfl
  · rename_i s hs
    split
    · exact Or.inl rfl
    · rename_i s' hf
      by_cases hg : gid = g
      · subst hg
        exact Or.inr ⟨rfl, s, s', hs, hf, Std.ExtTreeMap.getElem?_insert_self⟩
      · left
        simp [Std.ExtTreeMap.getElem?_insert, hg]

theorem noteOk_txs {α : Type} {i : Nat} {e : Event} {r : Except Err α × World} :
    (InMemory.noteOk i e r).2.txs = r.2.txs := by
  rw [InMemory.noteOk]
  split <;> rfl

/-- **The record under a gid through one step.** -/
theorem txs_step (i : Nat) {o : Effect} (c : Outcome) (w : World) (g : String)
    (hd : ∀ tx, o ≠ .deleteTransactionIfUnchanged tx) :
    (InMemory.exec i o c w).2.txs[g]? = w.txs[g]? ∨
    (∃ tx, o = .updateTransaction tx ∧ tx.gid = g ∧
      (InMemory.exec i o c w).2.txs[g]? = some (bumpTransactionRevision w.clock tx)) ∨
    (∃ tx, o = .insertTransaction tx ∧ tx.gid = g ∧ w.txs[g]? = none ∧
      (InMemory.exec i o c w).2.txs[g]? = some tx) ∨
    (∃ s s', w.txs[g]? = some s ∧ Amends w.clock g s s' o ∧
      (InMemory.exec i o c w).2.txs[g]? = some s') := by
  cases o with
  | insertTransaction tx =>
    simp only [InMemory.exec, InMemory.insertTransaction]
    split
    · exact Or.inl rfl
    · rename_i hc
      by_cases hg : tx.gid = g
      · subst hg
        refine Or.inr (Or.inr (Or.inl ⟨tx, rfl, rfl, ?_, Std.ExtTreeMap.getElem?_insert_self⟩))
        rw [Std.ExtTreeMap.contains_eq_isSome_getElem?] at hc
        simpa using hc
      · left
        simp [Std.ExtTreeMap.getElem?_insert, hg]
  | updateTransaction tx =>
    simp only [InMemory.exec, InMemory.updateTransaction, World.put_txs]
    by_cases hg : tx.gid = g
    · subst hg
      exact Or.inr (Or.inl ⟨tx, rfl, rfl, Std.ExtTreeMap.getElem?_insert_self⟩)
    · left
      have hb : (bumpTransactionRevision w.clock tx).gid ≠ g := hg
      simp [Std.ExtTreeMap.getElem?_insert, hb]
  | registerBranch gid branch =>
    simp only [InMemory.exec, noteOk_txs, InMemory.registerBranch]
    exact modify_txs.imp id fun ⟨hg, s, s', hs, hf, h⟩ =>
      Or.inr (Or.inr ⟨s, s', hs, ⟨hg, hf⟩, h⟩)
  | recordWorkflowProgress gid progress =>
    simp only [InMemory.exec, noteOk_txs, InMemory.recordWorkflowProgress]
    exact modify_txs.imp id fun ⟨hg, s, s', hs, hf, h⟩ =>
      Or.inr (Or.inr ⟨s, s', hs, ⟨hg, hf⟩, h⟩)
  | finishWorkflow gid status reason result =>
    simp only [InMemory.exec, InMemory.finishWorkflow]
    exact modify_txs.imp id fun ⟨hg, s, s', hs, hf, h⟩ =>
      Or.inr (Or.inr ⟨s, s', hs, ⟨hg, hf⟩, h⟩)
  | deferWorkflowRecovery gid delay =>
    simp only [InMemory.exec, InMemory.deferRecovery]
    exact modify_txs.imp id fun ⟨hg, s, s', hs, hf, h⟩ =>
      Or.inr (Or.inr ⟨s, s', hs, ⟨hg, hf⟩, h⟩)
  | deleteTransactionIfUnchanged tx => exact absurd rfl (hd tx)
  | barrier b =>
    left
    simp only [InMemory.exec, InMemory.barrier]
    split
    · rfl
    · split
      · rfl
      · split <;> rfl
  | acquireRecoveryLease name owner ttl =>
    left
    simp only [InMemory.exec, InMemory.acquireRecoveryLease, InMemory.tryAcquireRecoveryLease]
    split <;> rfl
  | _ => exact Or.inl rfl

theorem delete_stored {w : World} {tx : Transaction} (h : w.txs[tx.gid]? = some tx) :
    (InMemory.deleteTransactionIfUnchanged w tx).2.txs[tx.gid]? = none := by
  rw [InMemory.deleteTransactionIfUnchanged, if_neg (not_not.mpr h)]
  simp

/-- The record under a gid when a record is deleted. -/
theorem delete_txs (w : World) (g : String) (tx : Transaction) :
    (InMemory.deleteTransactionIfUnchanged w tx).2.txs[g]? = w.txs[g]? ∨
    (tx.gid = g ∧ w.txs[g]? = some tx ∧
      (InMemory.deleteTransactionIfUnchanged w tx).2.txs[g]? = none) := by
  by_cases hstored : w.txs[tx.gid]? = some tx
  · by_cases hg : tx.gid = g
    · subst hg
      exact Or.inr ⟨rfl, hstored, delete_stored hstored⟩
    · left
      rw [InMemory.deleteTransactionIfUnchanged, if_neg (not_not.mpr hstored)]
      simp [Std.ExtTreeMap.getElem?_erase, hg]
  · left
    rw [InMemory.deleteTransactionIfUnchanged, if_pos hstored]

end Stored

/-! ### The record of the run -/

/-- The events that a step can be recorded with. -/
def Event.OfStep (e : Event) : Effect → Prop
  | .registerBranch gid branch => e = .registered gid branch
  | .recordWorkflowProgress gid progress => e = .progressed gid progress
  | .barrier b => ∃ d, e = .decided b d
  | .releaseBarrier b => e = .released b
  | .invokeBegin c => e = .began c
  | .invokeEnd c => ∃ ok, e = .ended c ok
  | _ => False

/-- The branch that an event registers in `g`. -/
def Event.registration? (g : String) : Event → Option Branch
  | .registered gid branch => if gid = g then some branch else none
  | _ => none

theorem Event.registration?_eq_some {g : String} {e : Event} {b : Branch} :
    e.registration? g = some b ↔ e = .registered g b := by
  cases e with
  | registered gid branch =>
    by_cases hg : gid = g
    · subst hg
      simp [Event.registration?]
    · simp [Event.registration?, hg]
  | _ => simp [Event.registration?]

theorem noteOk_modify {w : World} {i : Nat} {e : Event} {gid : String}
    {f : Transaction → Except Err Transaction} :
    (InMemory.noteOk i e (InMemory.modify w gid f)).2.history = w.history ∨
      ∃ s s', w.txs[gid]? = some s ∧ f s = .ok s' ∧
        (InMemory.noteOk i e (InMemory.modify w gid f)).2.txs[gid]? = some s' ∧
        (InMemory.noteOk i e (InMemory.modify w gid f)).2.history = (i, e) :: w.history := by
  simp only [InMemory.noteOk, InMemory.modify]
  cases hs : w.txs[gid]? with
  | none => exact Or.inl rfl
  | some s =>
    dsimp only
    cases hf : f s with
    | error e => exact Or.inl rfl
    | ok s' => exact Or.inr ⟨s, s', rfl, hf, Std.ExtTreeMap.getElem?_insert_self, rfl⟩

theorem modify_history {w : World} {gid : String} {f : Transaction → Except Err Transaction} :
    (InMemory.modify w gid f).2.history = w.history := by
  simp only [InMemory.modify]
  split
  · rfl
  · split <;> rfl

/-- **A step records at most one event, its own.** -/
theorem history_step (i : Nat) (o : Effect) (c : Outcome) (w : World) :
    (InMemory.exec i o c w).2.history = w.history ∨
      ∃ e, e.OfStep o ∧ (InMemory.exec i o c w).2.history = (i, e) :: w.history := by
  cases o with
  | insertTransaction tx =>
    left
    simp only [InMemory.exec, InMemory.insertTransaction]
    split <;> rfl
  | registerBranch gid branch =>
    exact noteOk_modify.imp id fun ⟨_, _, _, _, _, h⟩ => ⟨_, rfl, h⟩
  | recordWorkflowProgress gid progress =>
    exact noteOk_modify.imp id fun ⟨_, _, _, _, _, h⟩ => ⟨_, rfl, h⟩
  | finishWorkflow gid status reason result => exact Or.inl modify_history
  | deferWorkflowRecovery gid delay => exact Or.inl modify_history
  | deleteTransactionIfUnchanged tx =>
    left
    simp only [InMemory.exec, InMemory.deleteTransactionIfUnchanged]
    split <;> rfl
  | barrier b =>
    refine Or.inr ⟨.decided b (InMemory.barrier w b).1, ⟨_, rfl⟩, ?_⟩
    simp only [InMemory.exec, InMemory.barrier, World.note_history]
    split
    · rfl
    · split
      · rfl
      · split <;> rfl
  | releaseBarrier b => exact Or.inr ⟨_, rfl, rfl⟩
  | acquireRecoveryLease name owner ttl =>
    left
    simp only [InMemory.exec, InMemory.acquireRecoveryLease, InMemory.tryAcquireRecoveryLease]
    split <;> rfl
  | invokeBegin call => exact Or.inr ⟨_, rfl, rfl⟩
  | invokeEnd call => exact Or.inr ⟨_, ⟨_, rfl⟩, rfl⟩
  | _ => exact Or.inl rfl

/-- The clock does not stand in the store. -/
theorem clock_step (i : Nat) (o : Effect) (c : Outcome) (w : World) :
    (InMemory.exec i o c w).2.clock = w.clock := by
  have hmodify (gid : String) (f : Transaction → Except Err Transaction) :
      (InMemory.modify w gid f).2.clock = w.clock := by
    rw [InMemory.modify]
    split
    · rfl
    · split <;> rfl
  have hnote {α : Type} (e : Event) (r : Except Err α × World) :
      (InMemory.noteOk i e r).2.clock = r.2.clock := by
    rw [InMemory.noteOk]
    split <;> rfl
  cases o with
  | insertTransaction tx =>
    simp only [InMemory.exec, InMemory.insertTransaction]
    split <;> rfl
  | registerBranch gid branch => exact (hnote _ _).trans (hmodify _ _)
  | recordWorkflowProgress gid progress => exact (hnote _ _).trans (hmodify _ _)
  | finishWorkflow gid status reason result => exact hmodify _ _
  | deferWorkflowRecovery gid delay => exact hmodify _ _
  | deleteTransactionIfUnchanged tx =>
    simp only [InMemory.exec, InMemory.deleteTransactionIfUnchanged]
    split <;> rfl
  | barrier b =>
    simp only [InMemory.exec, InMemory.barrier, World.note_clock]
    split
    · rfl
    · split
      · rfl
      · split <;> rfl
  | acquireRecoveryLease name owner ttl =>
    simp only [InMemory.exec, InMemory.acquireRecoveryLease, InMemory.tryAcquireRecoveryLease]
    split <;> rfl
  | _ => rfl

theorem began_ofStep {o : Effect} {call : BranchCall} (he : (Event.began call).OfStep o) :
    o = .invokeBegin call := by
  cases o with
  | invokeBegin call' =>
    cases he
    rfl
  | barrier b =>
    obtain ⟨d, hd⟩ := he
    cases hd
  | invokeEnd call' =>
    obtain ⟨ok, hok⟩ := he
    cases hok
  | _ => cases he

theorem ended_ofStep {o : Effect} {call : BranchCall} {ok : Bool}
    (he : (Event.ended call ok).OfStep o) : o = .invokeEnd call := by
  cases o with
  | invokeEnd call' =>
    obtain ⟨ok', hok⟩ := he
    cases hok
    rfl
  | barrier b =>
    obtain ⟨d, hd⟩ := he
    cases hd
  | _ => cases he

/-- An event that was not there before the step is the step's own. -/
theorem mem_history_step {i j : Nat} {o : Effect} {c : Outcome} {w : World} {e : Event}
    (h : (j, e) ∈ (InMemory.exec i o c w).2.history) : (j, e) ∈ w.history ∨ e.OfStep o := by
  rcases history_step i o c w with hh | ⟨e', he', hh⟩ <;> rw [hh] at h
  · exact Or.inl h
  · rcases List.mem_cons.mp h with h | h
    · cases h
      exact Or.inr he'
    · exact Or.inl h

theorem mem_history_exec {i : Nat} {o : Effect} {c : Outcome} {w : World} {p : Nat × Event}
    (h : p ∈ w.history) : p ∈ (InMemory.exec i o c w).2.history := by
  rcases history_step i o c w with hh | ⟨e', -, hh⟩ <;> rw [hh]
  · exact h
  · exact List.mem_cons_of_mem _ h

/-! ### Changes in place -/

/-- What a change in place leaves as it was, and what it may do to the status. -/
structure Amended (s s' : Transaction) : Prop where
  gid : s'.gid = s.gid
  kind : s'.kind = s.kind
  options : s'.options = s.options
  branches : ∃ new, s'.branches = s.branches ++ new
  workflowProgresses : ∃ new, s'.workflowProgresses = s.workflowProgresses ++ new
  live : s.status.isTerminal = false
  status : s'.status = s.status ∨ s.kind = .workflow
  kinds : s.kind = .tcc ∨ s.kind = .xa ∨ s.kind = .workflow
  revision : s'.revision = satAdd64 s.revision 1

/-- Other keys of the metadata do not matter to whether a Workflow is one with a callback. -/
theorem isCallbackWorkflow_congr {s s' : Transaction} (hk : s'.kind = s.kind)
    (hb : s'.branches = s.branches)
    (hm : s'.metadata["dtm.query_prepared"]? = s.metadata["dtm.query_prepared"]?) :
    isCallbackWorkflow s' = isCallbackWorkflow s := by
  rw [isCallbackWorkflow, isCallbackWorkflow, hk, hb, hm]

theorem getElem?_insert_other {metadata : Std.ExtTreeMap String String} {key key' value : String}
    (h : key ≠ key') : (metadata.insert key value)[key']? = metadata[key']? := by
  rw [Std.ExtTreeMap.getElem?_insert, if_neg (mt Std.compare_eq_iff_eq.mp h)]

theorem getElem?_putOrRemove {m : Std.ExtTreeMap String String} {key key' value : String}
    (hne : key ≠ key') : (putOrRemove m key value)[key']? = m[key']? := by
  rw [putOrRemove]
  split
  · rw [Std.ExtTreeMap.getElem?_erase, if_neg (by simpa using hne)]
  · rw [Std.ExtTreeMap.getElem?_insert, if_neg (by simpa using hne)]

theorem appendDynamicBranch_ok {now : Nat} {s s' : Transaction} {branch : Branch}
    (h : appendDynamicBranch now s branch = .ok s') :
    (s' = s ∧ branch ∈ s.branches) ∨ (Amended s s' ∧ s'.status = s.status ∧
      s'.branches = s.branches ++ [branch]) := by
  rw [appendDynamicBranch] at h
  obtain ⟨_, hk, h⟩ := bind_eq_ok h
  obtain ⟨_, hs, h⟩ := bind_eq_ok h
  rw [ensure_eq_ok] at hk hs
  simp only [Bool.or_eq_true, decide_eq_true_eq] at hk hs
  split at h
  · rename_i existing hfind
    obtain ⟨_, he, h⟩ := bind_eq_ok h
    rw [ensure_eq_ok, decide_eq_true_eq] at he
    cases h
    exact Or.inl ⟨rfl, he ▸ List.mem_of_find?_eq_some hfind⟩
  · cases h
    refine Or.inr ⟨⟨rfl, rfl, rfl, ⟨_, rfl⟩, ⟨[], by simp [bumpTransactionRevision]⟩, ?_, Or.inl rfl,
      or_assoc.mp hk, rfl⟩, rfl, rfl⟩
    rcases hs with hs | hs <;> rw [hs] <;> rfl

theorem appendDynamicBranch_accepts {now : Nat} {s s' : Transaction} {branch : Branch}
    (h : appendDynamicBranch now s branch = .ok s') :
    s.status = .submitted ∨ s.status = .prepared := by
  rw [appendDynamicBranch] at h
  obtain ⟨_, -, h⟩ := bind_eq_ok h
  obtain ⟨_, hs, -⟩ := bind_eq_ok h
  rw [ensure_eq_ok] at hs
  simpa only [Bool.or_eq_true, decide_eq_true_eq] using hs

theorem appendDynamicBranch_existing {now : Nat} {s s' : Transaction} {branch : Branch}
    (h : appendDynamicBranch now s branch = .ok s')
    (hex : ∃ existing ∈ s.branches, existing.id = branch.id) : s' = s := by
  rw [appendDynamicBranch] at h
  obtain ⟨_, -, h⟩ := bind_eq_ok h
  obtain ⟨_, -, h⟩ := bind_eq_ok h
  split at h
  · obtain ⟨_, -, h⟩ := bind_eq_ok h
    cases h
    rfl
  · rename_i hnone
    obtain ⟨existing, hm, hid⟩ := hex
    exact absurd (decide_eq_true hid) (List.find?_eq_none.mp hnone existing hm)

theorem ensureCallbackWorkflow_ok {tx : Transaction} {u : Unit}
    (h : ensureCallbackWorkflow tx = .ok u) : tx.kind = .workflow := by
  rw [ensureCallbackWorkflow] at h
  obtain ⟨_, hk, -⟩ := bind_eq_ok h
  rw [ensure_eq_ok, decide_eq_true_eq] at hk
  exact hk

theorem appendWorkflowProgress_ok {now : Nat} {s s' : Transaction} {progress : WorkflowProgress}
    (h : appendWorkflowProgress now s progress = .ok s') :
    (s' = s ∧ progress ∈ s.workflowProgresses) ∨ (Amended s s' ∧ s'.status = s.status ∧
      s'.workflowProgresses = s.workflowProgresses ++ [progress]) := by
  rw [appendWorkflowProgress] at h
  obtain ⟨_, hk, h⟩ := bind_eq_ok h
  obtain ⟨_, hs, h⟩ := bind_eq_ok h
  obtain ⟨_, -, h⟩ := bind_eq_ok h
  have hk := ensureCallbackWorkflow_ok hk
  rw [ensureStatus_eq_ok, List.mem_singleton] at hs
  split at h
  · rename_i existing hfind
    obtain ⟨_, he, h⟩ := bind_eq_ok h
    rw [ensure_eq_ok, decide_eq_true_eq] at he
    cases h
    exact Or.inl ⟨rfl, he ▸ List.mem_of_find?_eq_some hfind⟩
  · obtain ⟨_, -, h⟩ := bind_eq_ok h
    obtain ⟨_, -, h⟩ := bind_eq_ok h
    obtain ⟨_, -, h⟩ := bind_eq_ok h
    cases h
    exact Or.inr ⟨⟨rfl, rfl, rfl, ⟨[], (List.append_nil _).symm⟩, ⟨_, rfl⟩, by rw [hs]; rfl,
      Or.inl rfl, Or.inr (Or.inr hk), rfl⟩, rfl, rfl⟩

theorem applyWorkflowCompletion_ok {now : Nat} {s s' : Transaction} {status : TransactionStatus}
    {reason result : Option String}
    (h : applyWorkflowCompletion now s status reason result = .ok s') :
    s' = s ∨ (Amended s s' ∧ s'.branches = s.branches) := by
  rw [applyWorkflowCompletion] at h
  obtain ⟨_, hk, h⟩ := bind_eq_ok h
  obtain ⟨_, -, h⟩ := bind_eq_ok h
  obtain ⟨_, -, h⟩ := bind_eq_ok h
  obtain ⟨_, -, h⟩ := bind_eq_ok h
  have hk := ensureCallbackWorkflow_ok hk
  split at h
  · obtain ⟨_, -, h⟩ := bind_eq_ok h
    cases h
    exact Or.inl rfl
  · rename_i hlive
    obtain ⟨_, -, h⟩ := bind_eq_ok h
    cases h
    exact Or.inr ⟨⟨rfl, rfl, rfl, ⟨[], (List.append_nil _).symm⟩, ⟨[], (List.append_nil _).symm⟩,
      by simpa using hlive, Or.inr hk, Or.inr (Or.inr hk), rfl⟩, rfl⟩

theorem deferWorkflowRecovery_ok {now : Nat} {s s' : Transaction} {delay : WorkflowRecoveryDelay}
    (h : deferWorkflowRecovery now s delay = .ok s') :
    Amended s s' ∧ s'.branches = s.branches := by
  rw [deferWorkflowRecovery] at h
  obtain ⟨_, hk, h⟩ := bind_eq_ok h
  obtain ⟨_, hs, h⟩ := bind_eq_ok h
  obtain ⟨_, -, h⟩ := bind_eq_ok h
  have hk := ensureCallbackWorkflow_ok hk
  rw [ensureStatus_eq_ok, List.mem_singleton] at hs
  cases h
  exact ⟨⟨rfl, rfl, rfl, ⟨[], (List.append_nil _).symm⟩, ⟨[], (List.append_nil _).symm⟩,
    by rw [hs]; rfl, Or.inl rfl, Or.inr (Or.inr hk), rfl⟩, rfl⟩

/-- The other changes in place are made to Workflows. -/
theorem Amends.workflow {now : Nat} {g : String} {s s' : Transaction} {o : Effect}
    (h : Amends now g s s' o) (ho : ∀ gid branch, o ≠ .registerBranch gid branch) :
    s.kind = .workflow := by
  cases o with
  | registerBranch gid branch => exact absurd rfl (ho gid branch)
  | recordWorkflowProgress gid progress =>
    obtain ⟨_, hk, -⟩ := bind_eq_ok h.2
    exact ensureCallbackWorkflow_ok hk
  | finishWorkflow gid status reason result =>
    obtain ⟨_, hk, -⟩ := bind_eq_ok h.2
    exact ensureCallbackWorkflow_ok hk
  | deferWorkflowRecovery gid delay =>
    obtain ⟨_, hk, -⟩ := bind_eq_ok h.2
    exact ensureCallbackWorkflow_ok hk
  | _ => exact h.elim

/-- **What all changes in place have in common.** -/
theorem Amends.amended {now : Nat} {g : String} {s s' : Transaction} {o : Effect}
    (h : Amends now g s s' o) :
    s' = s ∨ Amended s s' := by
  cases o with
  | registerBranch gid branch =>
    exact (appendDynamicBranch_ok h.2).imp And.left And.left
  | recordWorkflowProgress gid progress =>
    exact (appendWorkflowProgress_ok h.2).imp And.left And.left
  | finishWorkflow gid status reason result =>
    exact (applyWorkflowCompletion_ok h.2).imp id And.left
  | deferWorkflowRecovery gid delay => exact Or.inr (deferWorkflowRecovery_ok h.2).1
  | _ => exact h.elim

/-- A change in place keeps the status, but for a completion. -/
theorem Amends.status {now : Nat} {g : String} {s s' : Transaction} {o : Effect}
    (h : Amends now g s s' o) :
    s'.status = s.status ∨ s'.status = .succeeded ∨ s'.status = .failed := by
  cases o with
  | registerBranch gid branch =>
    left
    rcases appendDynamicBranch_ok h.2 with ⟨rfl, -⟩ | ⟨-, hst, -⟩
    · rfl
    · exact hst
  | recordWorkflowProgress gid progress =>
    left
    rcases appendWorkflowProgress_ok h.2 with ⟨rfl, -⟩ | ⟨-, hst, -⟩
    · rfl
    · exact hst
  | finishWorkflow gid status reason result =>
    have h := h.2
    rw [applyWorkflowCompletion] at h
    obtain ⟨_, -, h⟩ := bind_eq_ok h
    obtain ⟨_, hfinal, h⟩ := bind_eq_ok h
    obtain ⟨_, -, h⟩ := bind_eq_ok h
    obtain ⟨_, -, h⟩ := bind_eq_ok h
    rw [ensure_eq_ok, Bool.or_eq_true, decide_eq_true_eq, decide_eq_true_eq] at hfinal
    split at h
    · obtain ⟨_, -, h⟩ := bind_eq_ok h
      cases h
      exact Or.inl rfl
    · obtain ⟨_, -, h⟩ := bind_eq_ok h
      cases h
      exact Or.inr hfinal
  | deferWorkflowRecovery gid delay =>
    have h := h.2
    rw [RozeDtm.deferWorkflowRecovery] at h
    obtain ⟨_, -, h⟩ := bind_eq_ok h
    obtain ⟨_, -, h⟩ := bind_eq_ok h
    obtain ⟨_, -, h⟩ := bind_eq_ok h
    cases h
    exact Or.inl rfl
  | _ => exact h.elim

/-- A change in place that is not a registration leaves the branches as they are. -/
theorem Amends.branches {now : Nat} {g : String} {s s' : Transaction} {o : Effect} {σ : Session}
    (h : Amends now g s s' o) (hp : coordinator.pre σ o) :
    s' = s ∨ (Amended s s' ∧ s'.branches = s.branches) := by
  cases o with
  | registerBranch gid branch => exact hp.elim
  | recordWorkflowProgress gid progress => exact hp.elim
  | finishWorkflow gid status reason result => exact applyWorkflowCompletion_ok h.2
  | deferWorkflowRecovery gid delay => exact Or.inr (deferWorkflowRecovery_ok h.2)
  | _ => exact h.elim

end RozeDtm
