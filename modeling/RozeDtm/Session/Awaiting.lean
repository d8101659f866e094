import RozeDtm.Session.Scope

/-!
# Operations that leave a callback Workflow to its completion

`awaiting g` is the discipline of the operations that complete a callback Workflow `g`, report
its progress and query its callback, and of the recovery tick: none of them writes a whole
record of `g`, so the record changes only in place, in the store.  The tick keeps to this
because of what the stored record is.
-/

namespace RozeDtm

open Conc

/-- A callback Workflow that waits for its completion, or has it. -/
structure Awaited (tx : Transaction) : Prop where
  callback : isCallbackWorkflow tx = true
  status : tx.status = .prepared ∨ tx.status.isTerminal = true

/-- What an operation does that writes no record of `g`. -/
def awaiting (g : String) : Discipline effects Unit where
  pre := fun _ o => match o with
    | .updateTransaction tx | .insertTransaction tx => tx.gid ≠ g
    | .registerBranch gid _ => gid ≠ g
    | .deleteTransactionIfUnchanged _ => False
    | _ => True
  sees := fun _ o r => match o with
    | .getTransaction gid => ∀ tx, (r : Option Transaction) = some tx → tx.gid = gid
    | .listTransactions => ∀ tx, List.Mem tx r → tx.gid = g → Awaited tx
    | _ => True
  next := fun _ _ _ => ()

/-- What stays with another transaction writes no record of `g`. -/
theorem within_le_awaiting {gid g : String} (hg : gid ≠ g) :
    Discipline.Le (within gid) (awaiting g) where
  pre := by
    rintro _ o hp
    cases o with
    | updateTransaction tx => exact fun h => hg ((hp : tx.gid = gid).symm.trans h)
    | insertTransaction | registerBranch | deleteTransactionIfUnchanged => exact hp.elim
    | _ => trivial
  sees := by
    rintro _ o r hr
    cases o with
    | getTransaction gid' => exact hr
    | _ => trivial
  next := rfl

section Walk

variable {g : String} {t : Unit} {dtm : Dtm}

theorem awaiting_call {o : Effect} {Q : Unit → o.Reply → Prop} :
    (awaiting g).Does (Act.call o) t Q ↔
      (awaiting g).pre t o ∧ ∀ r, (awaiting g).sees t o r → Q () r :=
  Discipline.does_perform

theorem awaiting_loadTransaction {gid : String} {Q : Unit → Transaction → Prop}
    (hQ : ∀ tx, tx.gid = gid → Q () tx) : (awaiting g).Does (loadTransaction gid) t Q := by
  simp only [loadTransaction, Discipline.does_bind, does_ofOption]
  exact awaiting_call.mpr ⟨trivial, fun r hr tx htx => hQ tx (hr tx htx)⟩

theorem awaiting_terminalAfterConflict {gid : String} {error : Err} :
    (awaiting g).Does (Dtm.terminalAfterConflict gid error) t (fun _ _ => True) := by
  rw [Dtm.terminalAfterConflict, Discipline.does_bind]
  refine awaiting_loadTransaction fun tx _ => ?_
  split
  · exact Discipline.does_pure.mpr trivial
  · exact Discipline.does_throw

theorem awaiting_finishOrTerminal {gid : String} {reason : Option String} :
    (awaiting g).Does (Dtm.finishOrTerminal gid reason) t (fun _ _ => True) := by
  rw [Dtm.finishOrTerminal, Discipline.does_bind]
  refine awaiting_call.mpr ⟨trivial, fun r _ => ?_⟩
  rcases r with e | tx
  · exact awaiting_terminalAfterConflict
  · exact Discipline.does_pure.mpr trivial

theorem awaiting_deferCallbackWorkflow {tx : Transaction} {now : Nat} {backoff : Bool}
    {outcome : String} :
    (awaiting g).Does (dtm.deferCallbackWorkflow tx now backoff outcome) t (fun _ _ => True) := by
  simp only [Dtm.deferCallbackWorkflow, Discipline.does_bind]
  refine awaiting_call.mpr ⟨trivial, fun r _ => ?_⟩
  rcases r with e | tx'
  · exact awaiting_terminalAfterConflict
  · exact Discipline.does_pure.mpr trivial

/-- `recover_callback_workflow`, for any gid. -/
theorem awaiting_recoverCallbackWorkflow {gid : String} :
    (awaiting g).Does (dtm.recoverCallbackWorkflow gid) t (fun _ _ => True) := by
  simp only [Dtm.recoverCallbackWorkflow, transactionOfKind, Discipline.does_bind]
  refine awaiting_loadTransaction fun tx _ => ?_
  rw [does_ofExcept]
  refine fun _ _ => Discipline.does_pure.mpr ?_
  split
  · exact Discipline.does_pure.mpr trivial
  · simp only [Discipline.does_bind, does_ofExcept]
    refine fun _ _ _ _ => awaiting_call.mpr ⟨trivial, fun now _ => ?_⟩
    split
    · exact awaiting_deferCallbackWorkflow
    · rw [Discipline.does_bind]
      refine awaiting_call.mpr ⟨trivial, fun result _ => ?_⟩
      rw [Discipline.does_bind]
      refine awaiting_loadTransaction fun latest _ => ?_
      split
      · exact Discipline.does_pure.mpr trivial
      · simp only [Discipline.does_bind, does_ofExcept]
        intro _ _ _ _
        split
        · exact awaiting_finishOrTerminal
        · exact awaiting_deferCallbackWorkflow
        · exact awaiting_deferCallbackWorkflow
        · exact awaiting_deferCallbackWorkflow

/-- `expire_callback_workflow`, for a record that is Prepared. -/
theorem awaiting_expireCallbackWorkflow {tx : Transaction} (hp : tx.status = .prepared) :
    (awaiting g).Does (Dtm.expireCallbackWorkflow tx) t (fun _ _ => True) := by
  rw [Dtm.expireCallbackWorkflow, if_neg (by rw [hp]; decide)]
  simp only [Discipline.does_bind, Discipline.does_pure, does_ofExcept]
  exact fun _ _ => awaiting_finishOrTerminal

/-- The two moves of a tick on a record of `g`. -/
theorem tickMove_awaited {now : Nat} {tx : Transaction} {move : Act Transaction} (ha : Awaited tx)
    (h : dtm.tickMove now tx = some move) : tx.status = .prepared ∧
      (move = Dtm.expireCallbackWorkflow tx ∨ move = dtm.recoverCallbackWorkflow tx.gid) := by
  have hk : tx.kind = .workflow := by
    have hc := ha.callback
    simp only [isCallbackWorkflow, Bool.and_eq_true, decide_eq_true_eq] at hc
    exact hc.1.1
  rw [Dtm.tickMove] at h
  split at h
  · cases h
  · rename_i hlive
    have hst : tx.status = .prepared := ha.status.resolve_right hlive
    refine ⟨hst, ?_⟩
    rw [if_neg (by rw [hk]; simp)] at h
    split at h
    · cases h
      left
      simp only [Dtm.expire, hk, ha.callback, if_true]
    · rw [ha.callback, if_pos rfl, hst] at h
      dsimp only at h
      split at h
      · cases h
        exact Or.inr rfl
      · cases h

theorem awaiting_tickMove {now : Nat} {tx : Transaction} {move : Act Transaction}
    (ha : tx.gid = g → Awaited tx) (h : dtm.tickMove now tx = some move) :
    (awaiting g).Does move t (fun _ _ => True) := by
  by_cases hg : tx.gid = g
  · obtain ⟨hst, rfl | rfl⟩ := tickMove_awaited (ha hg) h
    · exact awaiting_expireCallbackWorkflow hst
    · exact awaiting_recoverCallbackWorkflow
  · exact ((within_tickMove h).le (within_le_awaiting hg)).mono fun _ _ _ => trivial

theorem awaiting_tickLoop {now : Nat} {txs : List Transaction}
    (htxs : ∀ tx ∈ txs, tx.gid = g → Awaited tx) :
    (awaiting g).Does (dtm.tickLoop now txs) t (fun _ _ => True) := by
  induction txs generalizing t with
  | nil => exact Discipline.does_pure.mpr trivial
  | cons tx rest ih =>
    have hrest {t : Unit} := ih (t := t) fun tx h => htxs tx (.tail _ h)
    rw [Dtm.tickLoop]
    split
    · exact hrest
    · rename_i move hmove
      rw [Discipline.does_bind]
      refine (awaiting_tickMove (htxs tx (.head _)) hmove).mono fun _ _ _ => ?_
      rw [Discipline.does_bind]
      exact hrest.mono fun _ _ _ => Discipline.does_pure.mpr trivial

/-- `tick_recover_once`. -/
theorem awaiting_tickRecoverOnce :
    (awaiting g).Does dtm.tickRecoverOnce t (fun _ _ => True) := by
  simp only [Dtm.tickRecoverOnce, Discipline.does_bind]
  refine awaiting_call.mpr ⟨trivial, fun now _ => awaiting_call.mpr ⟨trivial, fun listed hl => ?_⟩⟩
  exact awaiting_tickLoop hl

end Walk

end RozeDtm
