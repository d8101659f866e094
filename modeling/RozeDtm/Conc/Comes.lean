import RozeDtm.Conc.Discipline

/-!
# The steps that a program can come to

`p.Comes sees o` says that program `p`, answered as `sees` says, can come to step `o`.  What holds
of all these steps is what a discipline with one session permits (`follows_permitting`), so it is
proved by a walk through the program.
-/

namespace Conc

variable {S : Sig} {T α β ε : Type} {sees : (o : S.Op) → S.Reply o → Prop}

/-- Program `p` can come to a step. -/
inductive Prog.Comes (sees : (o : S.Op) → S.Reply o → Prop) : Prog S α → S.Op → Prop
  | here (o : S.Op) (k : S.Reply o → Prog S α) : Comes sees (.step o k) o
  | later {o o' : S.Op} {k : S.Reply o → Prog S α} {r : S.Reply o} (hr : sees o r)
      (h : Comes sees (k r) o') : Comes sees (.step o k) o'

/-- The steps of a program whose answers are given. -/
def Prog.asks (answer : (o : S.Op) → S.Reply o) : Prog S α → List S.Op
  | .pure _ => []
  | .step o k => o :: (k (answer o)).asks answer

/-- With answers that may be seen the program comes to the steps it asks for. -/
theorem Prog.comes_of_asks {answer : (o : S.Op) → S.Reply o} (hanswer : ∀ o, sees o (answer o))
    {p : Prog S α} {φ : S.Op → Bool} (h : (p.asks answer).any φ = true) :
    ∃ o, p.Comes sees o ∧ φ o = true := by
  induction p with
  | pure a => cases h
  | step o k ih =>
    rw [Prog.asks, List.any_cons, Bool.or_eq_true] at h
    rcases h with h | h
    · exact ⟨o, .here o k, h⟩
    · obtain ⟨o', hcomes, ho'⟩ := ih (answer o) h
      exact ⟨o', .later (hanswer o) hcomes, ho'⟩

namespace Discipline

variable {φ : S.Op → Prop}

/-- The discipline that permits the steps with `φ` at any time. -/
def permitting (sees : (o : S.Op) → S.Reply o → Prop) (φ : S.Op → Prop) : Discipline S Unit where
  pre := fun _ o => φ o
  sees := fun _ o r => sees o r
  next := fun _ _ _ => ()

theorem follows_permitting {p : Prog S α} :
    (permitting sees φ).Follows p () (fun _ _ => True) ↔ ∀ o, p.Comes sees o → φ o := by
  constructor
  · intro h o hcomes
    induction hcomes with
    | here o k => exact h.1
    | later hr _ ih => exact ih (h.2 _ hr)
  · intro h
    induction p with
    | pure a => trivial
    | step o k ih =>
      exact ⟨h o (.here o k), fun r hr => ih r fun o' hcomes => h o' (.later hr hcomes)⟩

/-- What a program that follows a discipline comes to, when the discipline expects no other
answers. -/
theorem Follows.permitting {D : Discipline S T} (hsees : ∀ {t o r}, sees o r → D.sees t o r)
    (hpre : ∀ {t o}, D.pre t o → φ o) {p : Prog S α} {t : T} {Q : T → α → Prop}
    (h : D.Follows p t Q) : (permitting sees φ).Follows p () (fun _ _ => True) :=
  (h.transfer (fun _ _ => True) (fun _ hp => hpre hp) (fun _ _ hr => hsees hr)
    (fun _ _ _ => trivial) trivial).mono fun _ _ _ => trivial

end Discipline

end Conc
