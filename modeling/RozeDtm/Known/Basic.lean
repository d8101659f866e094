import RozeDtm.InMemory.Ledger
import RozeDtm.InMemory.Stored

/-!
# Operations on a record that is known

An operation that runs alone on a gid whose record is known reads that record, and after each of
its writes the one that it has written.  `knowing` is the discipline of such operations: its
session is the record that is stored, and every read of the gid is answered with it, up to the
revision and the time of the update.  An operation that `Yields` under it returns `Ok`, whatever
its branch calls return.
-/

namespace RozeDtm

open Conc

/-- What an operation on `gid` may do, and what it is answered, while the record is `σ`. -/
def knowing (gid : String) : Discipline effects Transaction where
  pre := fun _ o => match o with
    | .getTransaction g => g = gid
    | .updateTransaction tx => tx.gid = gid
    | .barrier _ | .releaseBarrier _ | .currentMillis | .invokeBegin _ | .invokeEnd _
    | .joinNext _ => True
    | _ => False
  sees := fun σ o r => match o with
    | .getTransaction _ => ∃ tx, (r : Option Transaction) = some tx ∧ SameRecord σ tx
    | .updateTransaction _ => (r : Except Err Unit) = .ok ()
    | .barrier b => b.mayDecide r
    | _ => True
  next := fun σ o _ => match o with
    | .updateTransaction tx => tx
    | _ => σ

section Rules

variable {gid : String} {σ tx : Transaction} {α : Type}

theorem knowing_call {o : Effect} {Q : Transaction → o.Reply → Prop} :
    (knowing gid).Yields (Act.call o) σ Q ↔ (knowing gid).pre σ o ∧
      ∀ r, (knowing gid).sees σ o r → Q ((knowing gid).next σ o r) r :=
  Discipline.yields_perform

@[simp] theorem yields_ofExcept {T : Type} {D : Discipline effects T} {t : T} {e : Except Err α}
    {Q : T → α → Prop} : D.Yields (Act.ofExcept e) t Q ↔ ∃ a, e = .ok a ∧ Q t a := Iff.rfl

@[simp] theorem yields_ofOption {T : Type} {D : Discipline effects T} {t : T} {o : Option α}
    {e : Err} {Q : T → α → Prop} :
    D.Yields (Act.ofOption o e) t Q ↔ ∃ a, o = some a ∧ Q t a := by
  cases o <;> simp [Act.ofOption]

@[simp] theorem knowing_currentMillis {Q : Transaction → Nat → Prop} :
    (knowing gid).Yields currentMillis σ Q ↔ ∀ now, Q σ now :=
  knowing_call.trans ⟨fun h now => h.2 now trivial, fun h => ⟨trivial, fun now _ => h now⟩⟩

@[simp] theorem knowing_joinNext {n : Nat} {Q : Transaction → Fin (n + 1) → Prop} :
    (knowing gid).Yields (joinNext n) σ Q ↔ ∀ k, Q σ k :=
  knowing_call.trans ⟨fun h k => h.2 k trivial, fun h => ⟨trivial, fun k _ => h k⟩⟩

@[simp] theorem knowing_releaseBarrier {b : BranchBarrier} {Q : Transaction → Unit → Prop} :
    (knowing gid).Yields (Store.releaseBarrier b) σ Q ↔ Q σ () :=
  knowing_call.trans ⟨fun h => h.2 () trivial, fun h => ⟨trivial, fun _ _ => h⟩⟩

@[simp] theorem knowing_invokeBegin {c : BranchCall} {Q : Transaction → Unit → Prop} :
    (knowing gid).Yields (invokeBegin c) σ Q ↔ Q σ () :=
  knowing_call.trans ⟨fun h => h.2 () trivial, fun h => ⟨trivial, fun _ _ => h⟩⟩

@[simp] theorem knowing_invokeEnd {c : BranchCall} {Q : Transaction → Bool → Prop} :
    (knowing gid).Yields (invokeEnd c) σ Q ↔ ∀ ok, Q σ ok :=
  knowing_call.trans ⟨fun h ok => h.2 ok trivial, fun h => ⟨trivial, fun ok _ => h ok⟩⟩

theorem knowing_barrier {b : BranchBarrier} {Q : Transaction → BarrierDecision → Prop} :
    (knowing gid).Yields (Store.barrier b) σ Q ↔ ∀ d, b.mayDecide d → Q σ d :=
  knowing_call.trans ⟨fun h => h.2, fun h => ⟨trivial, h⟩⟩

@[simp] theorem knowing_getTransaction {Q : Transaction → Option Transaction → Prop} :
    (knowing gid).Yields (Store.getTransaction gid) σ Q ↔
      ∀ tx, SameRecord σ tx → Q σ (some tx) := by
  refine knowing_call.trans ⟨fun h tx htx => h.2 (some tx) ⟨tx, rfl, htx⟩, fun h => ⟨rfl, ?_⟩⟩
  rintro _ ⟨tx, rfl, htx⟩
  exact h tx htx

/-- **Reading the record.** -/
@[simp] theorem knowing_loadTransaction {Q : Transaction → Transaction → Prop} :
    (knowing gid).Yields (loadTransaction gid) σ Q ↔ ∀ tx, SameRecord σ tx → Q σ tx := by
  simp only [loadTransaction, Discipline.yields_bind, knowing_getTransaction, yields_ofOption,
    Option.some.injEq, exists_eq_left']

theorem knowing_transactionOfKind {kind : TransactionKind} {Q : Transaction → Transaction → Prop}
    (hk : σ.kind = kind) (h : ∀ tx, SameRecord σ tx → Q σ tx) :
    (knowing gid).Yields (transactionOfKind gid kind) σ Q := by
  simp only [transactionOfKind, Discipline.yields_bind, knowing_loadTransaction, yields_ofExcept,
    Discipline.yields_pure]
  intro tx htx
  refine ⟨(), ?_, h tx htx⟩
  obtain ⟨revision, updated, rfl⟩ := htx
  exact ensureKind_eq_ok.mpr hk

/-- **Writing the record.** -/
theorem knowing_persistTransaction {Q : Transaction → Transaction → Prop} (hg : tx.gid = gid)
    (hQ : Q tx tx.written) : (knowing gid).Yields (persistTransaction tx) σ Q := by
  refine ⟨hg, fun r hr => ?_⟩
  cases show r = .ok () from hr
  exact ⟨tx.written, rfl, hQ⟩

/-- **Calling a branch.** -/
theorem knowing_invokeBranch {dtm : Dtm} {options : TransactionOptions} {gid' : String}
    {branch : Branch} {url op : String} {Q : Transaction → Branch × Bool → Prop}
    (ok : Q σ (branch, true))
    (error : ∀ b, b.definition = branch.definition → b.status = branch.status → Q σ (b, false)) :
    (knowing gid).Yields (dtm.invokeBranch options gid' branch url op) σ Q := by
  simp only [Dtm.invokeBranch, Discipline.yields_bind, knowing_invokeBegin, knowing_invokeEnd]
  intro r
  cases r with
  | true => exact Discipline.yields_pure.mpr ok
  | false =>
    simp only [Bool.false_eq_true, if_false, Discipline.yields_bind, knowing_currentMillis,
      Discipline.yields_pure]
    exact fun now => error _ rfl rfl

end Rules

end RozeDtm
