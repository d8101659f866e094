import RozeDtm.Conc.Discipline
import RozeDtm.Relational.Xa

/-!
# What a `prepare_branch` keeps to

A branch is prepared only after the coordinator has acknowledged its registration
(`registersFirst`), and a resource id that was committed or rolled back stays so.
-/

namespace RozeDtm

open Conc

/-- A branch is registered before it is prepared: the session says whether its registration was
acknowledged. -/
def registersFirst (T : Type) : Discipline (xaStatements T) Bool where
  pre := fun t o => match o with
    | .control .prepare => t = true
    | _ => True
  sees := fun _ _ _ => True
  next := fun t o r => match o with
    | .register =>
      match (r : Except Err Unit) with
      | .ok _ => true
      | .error _ => t
    | _ => t

section Walk

variable {T α : Type} {t : Bool} {cleanup : XaProc T Unit}

theorem registersFirst_ask {o : XaStatement} {Q : Bool → o.Reply T → Prop} :
    (registersFirst T).Does (XaProc.ask o) t Q ↔
      (registersFirst T).pre t o ∧ ∀ r, Q ((registersFirst T).next t o r) r := by
  refine Discipline.does_perform.trans (and_congr_right fun _ => ?_)
  exact forall_congr' fun r => ⟨fun h => h trivial, fun h _ => h⟩

theorem registersFirst_ofExcept {e : Except Err α} {Q : Bool → α → Prop}
    (hQ : ∀ a, Q t a) : (registersFirst T).Does (XaProc.ofExcept e) t Q :=
  fun a _ => hQ a

theorem registersFirst_context {x : XaProc T α} {text : Err} {Q : Bool → α → Prop}
    (h : (registersFirst T).Does x t Q) : (registersFirst T).Does (x.context text) t Q := by
  refine Discipline.follows_bind.mpr (Discipline.Follows.mono h fun t' r hr => ?_)
  rintro a ha
  cases r with
  | ok b =>
    cases ha
    exact hr _ rfl
  | error e => cases ha

/-- A clean-up prepares and registers nothing. -/
theorem registersFirst_cleanupMySql {Q : Bool → Unit → Prop} (hQ : Q t ()) :
    (registersFirst T).Does XaProc.cleanupMySql t Q := by
  simp only [XaProc.cleanupMySql, Discipline.does_bind, registersFirst_ask]
  refine ⟨trivial, fun _ => ⟨trivial, fun (r : Except Err Unit) => ?_⟩⟩
  cases r with
  | ok _ => exact Discipline.does_pure.mpr hQ
  | error e =>
    simp only [Discipline.does_bind, registersFirst_ask]
    exact ⟨trivial, fun _ => Discipline.does_throw⟩

theorem registersFirst_cleanupPostgres {Q : Bool → Unit → Prop} (hQ : Q t ()) :
    (registersFirst T).Does XaProc.cleanupPostgres t Q := by
  simp only [XaProc.cleanupPostgres, Discipline.does_bind, registersFirst_ask]
  refine ⟨trivial, fun (r : Except Err Unit) => ?_⟩
  cases r with
  | ok _ => exact Discipline.does_pure.mpr hQ
  | error e =>
    simp only [Discipline.does_bind, registersFirst_ask]
    exact ⟨trivial, fun _ => Discipline.does_throw⟩

variable (hclean : ∀ {t : Bool} {Q : Bool → Unit → Prop}, Q t () →
  (registersFirst T).Does cleanup t Q)

include hclean

theorem registersFirst_giveUp {text error : Err} {Q : Bool → α → Prop} :
    (registersFirst T).Does (XaProc.giveUp cleanup text error) t Q := by
  rw [XaProc.giveUp, Discipline.does_bind]
  exact registersFirst_context (hclean Discipline.does_throw)

/-- Once the branch is registered, it may be ended. -/
theorem registersFirst_finish (last : List (XaControl × Err × Err)) :
    (registersFirst T).Does (XaProc.finish cleanup last) true (fun t _ => t = true) := by
  induction last with
  | nil => exact Discipline.does_pure.mpr rfl
  | cons entry rest ih =>
    obtain ⟨c, text, error⟩ := entry
    rw [XaProc.finish, Discipline.does_bind]
    refine registersFirst_ask.mpr ⟨?_, fun (r : Except Err Unit) => ?_⟩
    · cases c with
      | prepare => exact rfl
      | _ => trivial
    · cases r with
      | ok _ => exact ih
      | error e => exact registersFirst_giveUp hclean

/-- From the start of the transaction. -/
theorem registersFirst_prepareWith (last : List (XaControl × Err × Err)) :
    (registersFirst T).Does (XaProc.prepareWith cleanup last) t
      (fun t r => ∀ v, r = .prepared v → t = true) := by
  simp only [XaProc.prepareWith, Discipline.does_bind]
  refine ⟨trivial, fun r _ _ _ => registersFirst_ask.mpr ⟨trivial, fun (r : Except Err Nat) => ?_⟩⟩
  cases r with
  | error e => exact registersFirst_giveUp hclean
  | ok inserted =>
    dsimp only
    split
    · rw [Discipline.does_bind]
      exact hclean (Discipline.does_pure.mpr fun _ h => (by cases h))
    · rw [Discipline.does_bind]
      refine registersFirst_ask.mpr ⟨trivial, fun (r : Except Err T) => ?_⟩
      cases r with
      | error e => exact registersFirst_giveUp hclean
      | ok value =>
        dsimp only
        rw [Discipline.does_bind]
        refine registersFirst_ask.mpr ⟨trivial, fun (r : Except Err Unit) => ?_⟩
        cases r with
        | error e => exact registersFirst_giveUp hclean
        | ok _ =>
          dsimp only
          rw [Discipline.does_bind]
          exact (registersFirst_finish hclean last).mono
            fun t _ ht => Discipline.does_pure.mpr fun _ _ => ht

end Walk

/-- **A `prepare_branch` registers its branch before it prepares it.** -/
theorem registersFirst_prepareBranch {T : Type} {t : Bool} {lib : UrlLib}
    {branch : XaBranchDescriptor} (d : XaDialect) :
    (registersFirst T).Does (d.prepareBranch lib branch) t
      (fun t r => ∀ v, r = .prepared v → t = true) := by
  simp only [XaDialect.prepareBranch, Discipline.does_bind]
  refine registersFirst_ofExcept fun _ => ⟨trivial, fun r _ _ _ => ?_⟩
  cases d with
  | mySql => exact registersFirst_prepareWith registersFirst_cleanupMySql _
  | postgres => exact registersFirst_prepareWith registersFirst_cleanupPostgres _

/-! ### Resource ids -/

section Resource

variable {T : Type} {d : XaDialect} {fate : Fate} {value : T} {o : XaStatement} {r : XaResource}

/-- A control statement leaves what was resolved, and only a PREPARE prepares. -/
theorem after_cases {c : XaControl} {s s' : XaState} (h : d.after c s = some s') :
    s' = s ∨ (s ≠ .committed ∧ s ≠ .rolledBack ∧ (s' = .prepared → c = .prepare)) := by
  cases d <;> cases c <;> cases s <;> cases h <;> simp

/-- **A statement of a `prepare_branch` and its resource id.** -/
theorem exec_cases : (d.exec fate value o r).2.state = r.state ∨
    (r.state ≠ .committed ∧ r.state ≠ .rolledBack ∧
      ((d.exec fate value o r).2.state = .prepared → o = .control .prepare)) := by
  cases o with
  | control c =>
    simp only [XaDialect.exec]
    cases hafter : d.after c r.state with
    | none => exact Or.inl rfl
    | some s =>
      cases fate with
      | done | lost =>
        refine (after_cases hafter).imp id fun ⟨h1, h2, h3⟩ => ⟨h1, h2, fun h => ?_⟩
        rw [h3 h]
      | failed => exact Or.inl rfl
  | close =>
    simp only [XaDialect.exec]
    split
    · rename_i h
      refine Or.inr ⟨?_, ?_, fun h => (nomatch h)⟩ <;>
        rcases h with h | h <;> rw [h] <;> decide
    · exact Or.inl rfl
  | acquire | insertBarrier | work | register => exact Or.inl rfl

/-- **What `resolve` makes of a resource id**, and when its answer is a success. -/
theorem resolve_cases {lib : UrlLib} {branch : XaBranchDescriptor} {phase : XaPhase2} :
    (d.resolve lib branch phase fate r).2 = r ∧
      ((d.resolve lib branch phase fate r).1.toBool = true → r.state ≠ .prepared) ∨
    r.state = .prepared ∧ (d.resolve lib branch phase fate r).2 = phase.applied r := by
  rw [XaDialect.resolve]
  cases d.check lib branch with
  | error e => exact Or.inl ⟨rfl, fun h => (nomatch h)⟩
  | ok _ =>
    by_cases hst : r.state = .prepared
    · cases fate with
      | done | lost => exact Or.inr ⟨hst, by simp [XaResource.phase2, hst]⟩
      | failed => exact Or.inl (by simp [XaResource.phase2, hst, Except.toBool])
    · refine Or.inl ⟨?_, fun _ => hst⟩
      cases fate <;> simp [XaResource.phase2, hst]

end Resource

end RozeDtm
