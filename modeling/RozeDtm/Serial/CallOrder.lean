import Mathlib.Logic.Relation
import RozeDtm.Model.Dependencies
import RozeDtm.Serial.SagaCalls

/-!
# The calls of a dependency graph

A transaction whose branches depend on each other has two kinds of calls: those of the
operation `act` go along the graph, those of `undo` against it.  `CallOrder` is what
holds of the calls when each of them was issued in its turn: an `act` when what its branch
depends on had succeeded, an `undo` when what depends on its branch had been undone.
-/

namespace RozeDtm

open Conc

/-- Every call was issued when `P` held of the calls before it. -/
def IssuedUnder (P : BranchCall → List (Nat × Event) → Prop) (h : List (Nat × Event)) : Prop :=
  ∀ later i c earlier, h = later ++ (i, .began c) :: earlier → P c earlier

/-- A call of `act` comes after those of everything that its branch depends on. -/
def AfterDependencies (bs : List Branch) (act : String) (c : BranchCall)
    (h : List (Nat × Event)) : Prop :=
  c.op = act → ∀ d, DependsOn bs c.branchId d → d ∈ doneIds act h

/-- A call of `undo` comes after those of every branch that depends on its own, directly or
through others, and has done its `act`. -/
def AfterDependents (bs : List Branch) (act undo : String) (c : BranchCall)
    (h : List (Nat × Event)) : Prop :=
  c.op = undo → ∀ m, Relation.TransGen (DependsOn bs) m c.branchId →
    m ∈ doneIds act h → m ∈ doneIds undo h

/-- The calls of a graph are in order. -/
structure CallOrder (bs : List Branch) (act undo : String) (h : List (Nat × Event)) : Prop where
  acts : IssuedUnder (AfterDependencies bs act) h
  undoes : IssuedUnder (AfterDependents bs act undo) h
  acted : ∀ m d, DependsOn bs m d → m ∈ doneIds act h → d ∈ doneIds act h
  undone : ∀ m d, DependsOn bs m d → d ∈ doneIds undo h → m ∈ doneIds act h → m ∈ doneIds undo h

section Issued

variable {P : BranchCall → List (Nat × Event) → Prop} {h : List (Nat × Event)} {i : Nat}
  {c : BranchCall}

theorem IssuedUnder.nil : IssuedUnder P [] := by
  intro later _ _ _ h
  cases later <;> cases h

theorem IssuedUnder.cons {entry : Nat × Event} (hp : IssuedUnder P h)
    (hentry : ∀ c, entry.2 = .began c → P c h) : IssuedUnder P (entry :: h) := by
  intro later i c earlier hsplit
  cases later with
  | nil =>
    cases hsplit
    exact hentry c rfl
  | cons _ later =>
    cases hsplit
    exact hp later i c earlier rfl

theorem IssuedUnder.began (hp : IssuedUnder P h) (hc : P c h) :
    IssuedUnder P ((i, .began c) :: h) :=
  hp.cons fun _ he => by cases he; exact hc

theorem IssuedUnder.ended {ok : Bool} (hp : IssuedUnder P h) :
    IssuedUnder P ((i, .ended c ok) :: h) :=
  hp.cons fun _ he => nomatch he

end Issued

section Order

variable {bs : List Branch} {act undo : String} {h : List (Nat × Event)} {i : Nat}
  {c : BranchCall}

theorem CallOrder.nil : CallOrder bs act undo [] :=
  ⟨.nil, .nil, fun _ _ _ h => (nomatch h), fun _ _ _ h => (nomatch h)⟩

/-- **What depends on a branch through others** is settled by what depends on it directly. -/
theorem CallOrder.dependents (ho : CallOrder bs act undo h) {b : String}
    (hdirect : ∀ m, DependsOn bs m b → m ∈ doneIds act h → m ∈ doneIds undo h) :
    ∀ m, Relation.TransGen (DependsOn bs) m b → m ∈ doneIds act h → m ∈ doneIds undo h := by
  intro m hm
  induction hm using Relation.TransGen.head_induction_on with
  | single hmb => exact hdirect _ hmb
  | head hmx _ ih =>
    intro hacted
    exact ho.undone _ _ hmx (ih (ho.acted _ _ hmx hacted)) hacted

/-- A call was issued in its turn. -/
theorem CallOrder.began (ho : CallOrder bs act undo h)
    (hact : AfterDependencies bs act c h)
    (hundo : c.op = undo → ∀ m, DependsOn bs m c.branchId →
      m ∈ doneIds act h → m ∈ doneIds undo h) :
    CallOrder bs act undo ((i, .began c) :: h) where
  acts := ho.acts.began hact
  undoes := ho.undoes.began fun hop => ho.dependents (hundo hop)
  acted := ho.acted
  undone := ho.undone

theorem CallOrder.failed (ho : CallOrder bs act undo h) :
    CallOrder bs act undo ((i, .ended c false) :: h) where
  acts := ho.acts.ended
  undoes := ho.undoes.ended
  acted := ho.acted
  undone := ho.undone

/-- An `act` has succeeded before anything was undone. -/
theorem CallOrder.actedOne (ho : CallOrder bs act undo h) (hne : act ≠ undo) (hop : c.op = act)
    (hdeps : ∀ d, DependsOn bs c.branchId d → d ∈ doneIds act h) (hundone : doneIds undo h = []) :
    CallOrder bs act undo ((i, .ended c true) :: h) where
  acts := ho.acts.ended
  undoes := ho.undoes.ended
  acted := by
    intro m d hmd
    rw [doneIds_succeeded hop, List.mem_cons, List.mem_cons]
    rintro (rfl | hm)
    · exact Or.inr (hdeps d hmd)
    · exact Or.inr (ho.acted m d hmd hm)
  undone := by
    intro m d _ hd
    rw [doneIds_succeeded_of_ne (hop ▸ hne), hundone] at hd
    cases hd

/-- An `undo` has succeeded after those of what depends on its branch. -/
theorem CallOrder.undoneOne (ho : CallOrder bs act undo h) (hne : act ≠ undo) (hop : c.op = undo)
    (hdirect : ∀ m, DependsOn bs m c.branchId → m ∈ doneIds act h → m ∈ doneIds undo h) :
    CallOrder bs act undo ((i, .ended c true) :: h) where
  acts := ho.acts.ended
  undoes := ho.undoes.ended
  acted := by
    rw [doneIds_succeeded_of_ne fun h => hne (h.symm.trans hop)]
    exact ho.acted
  undone := by
    intro m d hmd
    rw [doneIds_succeeded_of_ne fun h => hne (h.symm.trans hop), doneIds_succeeded hop,
      List.mem_cons, List.mem_cons]
    rintro (rfl | hd) hacted
    · exact Or.inr (hdirect m hmd hacted)
    · exact Or.inr (ho.undone m d hmd hd hacted)

end Order

/-! ### Branches that are written again -/

/-- Writes of a branch keep what it depends on. -/
theorem SameBranches.dependsOn {as bs : List Branch} (h : SameBranches as bs) (m d : String) :
    DependsOn bs m d ↔ DependsOn as m d := by
  constructor
  · rintro ⟨b, hb, rfl, hd⟩
    obtain ⟨a, ha, hdef⟩ := exists_of_forall₂ h hb
    exact ⟨a, ha, (Branch.id_eq hdef).symm, Branch.dependencies_eq hdef ▸ hd⟩
  · rintro ⟨a, ha, rfl, hd⟩
    obtain ⟨b, hb, hdef⟩ := exists_of_forall₂_left h ha
    exact ⟨b, hb, Branch.id_eq hdef, (Branch.dependencies_eq hdef).symm ▸ hd⟩

/-- Where the ids are distinct, what a branch depends on is what it says. -/
theorem dependsOn_iff {bs : List Branch} (hn : (bs.map Branch.id).Nodup) {b : Branch} (hb : b ∈ bs)
    (d : String) : DependsOn bs b.id d ↔ d ∈ b.dependencies := by
  refine ⟨?_, fun hd => ⟨b, hb, rfl, hd⟩⟩
  rintro ⟨b', hb', hid, hd⟩
  rw [← List.inj_on_of_nodup_map hn hb' hb hid]
  exact hd

end RozeDtm
