import RozeDtm.Model.Coordinator.Retention
import RozeDtm.Session.Delivery

/-!
# Purging beside the operations

`upkeep policy g` is the discipline of the operations on a Message `g` together with a purge,
which deletes only records that had expired when it read the clock.
-/

namespace RozeDtm

open Conc

/-- What the operations on the Message `g` and a purge do. -/
def upkeep (policy : RetentionPolicy) (g : String) : Discipline effects MessageView where
  pre := fun σ o => match o with
    | .deleteTransactionIfUnchanged tx => transactionExpired tx σ.now policy = true
    | o => (delivery g).pre σ o
  sees := (delivery g).sees
  next := fun σ o r => match o, r with
    | .deleteTransactionIfUnchanged tx, _ => if tx.gid = g then { σ with snap := none } else σ
    | o, r => (delivery g).next σ o r

section Upkeep

variable {policy : RetentionPolicy} {g : String} {σ : MessageView}

/-- An operation on the Message deletes nothing. -/
theorem upkeep_of_delivery {α : Type} {p : Prog effects α} {Q : MessageView → α → Prop}
    (h : (delivery g).Follows p σ Q) : (upkeep policy g).Follows p σ (fun _ _ => True) := by
  have hp := Discipline.Follows.transfer (fun σ τ => σ = τ) (E := upkeep policy g) (u := σ) ?_ ?_
    ?_ h rfl
  · exact hp.mono fun _ _ _ => trivial
  · rintro σ _ o rfl hp
    cases o with
    | deleteTransactionIfUnchanged => exact hp.elim
    | _ => exact hp
  · rintro σ _ o r rfl - hr
    exact hr
  · rintro σ _ o r rfl hp -
    cases o with
    | deleteTransactionIfUnchanged => exact hp.elim
    | _ => rfl

theorem upkeep_call {o : Effect} {Q : MessageView → o.Reply → Prop} :
    (upkeep policy g).Does (Act.call o) σ Q ↔ (upkeep policy g).pre σ o ∧
      ∀ r, (upkeep policy g).sees σ o r → Q ((upkeep policy g).next σ o r) r :=
  Discipline.does_perform

theorem upkeep_purgeLoop {txs : List Transaction} (report : RetentionReport)
    (h : ∀ tx ∈ txs, transactionExpired tx σ.now policy = true) :
    (upkeep policy g).Does (Dtm.purgeLoop report txs) σ (fun _ _ => True) := by
  induction txs generalizing σ report with
  | nil => exact Discipline.does_pure.mpr trivial
  | cons tx rest ih =>
    have hrest : ∀ tx' ∈ rest, transactionExpired tx' σ.now policy = true :=
      fun tx' htx' => h tx' (.tail _ htx')
    rw [Dtm.purgeLoop, Discipline.does_bind]
    refine upkeep_call.mpr ⟨h tx (.head _), fun deleted _ => ?_⟩
    -- the time that was read stays
    have hnow : ((upkeep policy g).next σ (.deleteTransactionIfUnchanged tx) deleted).now =
        σ.now := by
      simp only [upkeep]
      split <;> rfl
    split
    · exact ih _ (by rw [hnow]; exact hrest)
    · exact ih _ (by rw [hnow]; exact hrest)

theorem upkeep_purgeExpiredTransactions :
    (upkeep policy g).Does (Dtm.purgeExpiredTransactions policy) σ (fun _ _ => True) := by
  simp only [Dtm.purgeExpiredTransactions, Discipline.does_bind, does_ofExcept,
    RetentionPolicy.validate_eq_ok]
  rintro _ ⟨-, rfl⟩
  refine upkeep_call.mpr ⟨trivial, fun now _ => upkeep_call.mpr ⟨trivial, fun txs _ => ?_⟩⟩
  refine upkeep_purgeLoop _ fun tx htx => ?_
  have hexpired := (List.mem_filter.mp (List.mem_of_mem_take htx)).2
  exact transactionExpired_mono hexpired (Nat.le_max_right ..)

end Upkeep

end RozeDtm
