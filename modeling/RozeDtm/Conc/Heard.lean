import RozeDtm.Conc.Alone

/-!
# What a program alone is told

`M.Hears i p w l a w'` is `M.Goes i p w (some a) w'` together with the answers `l` that the
program was given on its way.  What the outside has decided in a run, such as the time that a
clock has shown, can be read off them.
-/

namespace Conc

variable {S : Sig} {W C α β ε : Type}

/-- A step and what it was answered with. -/
abbrev Sig.Answer (S : Sig) : Type := Σ o : S.Op, S.Reply o

namespace Machine

variable (M : Machine S W C) (i : Nat)

/-- Program `p`, running alone as number `i`, takes `w` to `w'`, is given the answers `l` and
ends with `a`. -/
inductive Hears : Prog S α → W → List S.Answer → α → W → Prop
  | done (a : α) (w : W) : Hears (.pure a) w [] a w
  | step {o : S.Op} {k : S.Reply o → Prog S α} {w w' : W} {l : List S.Answer} {a : α} (c : C)
      (ha : M.allow o w) (h : Hears (k (M.exec i o c w).1) (M.exec i o c w).2 l a w') :
      Hears (.step o k) w (⟨o, (M.exec i o c w).1⟩ :: l) a w'
  | drift {p : Prog S α} {w w' w'' : W} {l : List S.Answer} {a : α} (hd : M.drift w w')
      (h : Hears p w' l a w'') : Hears p w l a w''

variable {M i} {w w' : W} {l : List S.Answer}

theorem Hears.goes {p : Prog S α} {a : α} (h : M.Hears i p w l a w') :
    M.Goes i p w (some a) w' := by
  induction h with
  | done a w => exact .done a w
  | step c ha _ ih => exact .step c ha ih
  | drift hd _ ih => exact .drift hd ih

/-- **Every run of a program alone to its end is one with answers.** -/
theorem Goes.exists_hears {p : Prog S α} {a : α} (h : M.Goes i p w (some a) w') :
    ∃ l, M.Hears i p w l a w' := by
  generalize hr : some a = r at h
  induction h with
  | done b w =>
    cases hr
    exact ⟨[], .done a w⟩
  | cut p w => cases hr
  | step c ha _ ih =>
    obtain ⟨l, hl⟩ := ih hr
    exact ⟨_, .step c ha hl⟩
  | drift hd _ ih =>
    obtain ⟨l, hl⟩ := ih hr
    exact ⟨l, .drift hd hl⟩

theorem Hears.of_pure {a b : α} (h : M.Hears i (.pure a) w l b w') :
    l = [] ∧ b = a ∧ M.Drifts w w' := by
  generalize hp : Prog.pure a = p at h
  induction h with
  | done b w =>
    cases hp
    exact ⟨rfl, rfl, .refl⟩
  | step c ha _ _ => cases hp
  | drift hd _ ih =>
    obtain ⟨hl, hb, hdrifts⟩ := ih hp
    exact ⟨hl, hb, .head hd hdrifts⟩

theorem Hears.of_step {o : S.Op} {k : S.Reply o → Prog S α} {b : α}
    (h : M.Hears i (.step o k) w l b w') :
    ∃ w₁ c l', M.Drifts w w₁ ∧ M.allow o w₁ ∧ l = ⟨o, (M.exec i o c w₁).1⟩ :: l' ∧
      M.Hears i (k (M.exec i o c w₁).1) (M.exec i o c w₁).2 l' b w' := by
  generalize hp : Prog.step o k = p at h
  induction h with
  | done b w => cases hp
  | @step o' k' w w' l a c ha h _ =>
    cases hp
    exact ⟨w, c, l, .refl, ha, rfl, h⟩
  | drift hd _ ih =>
    obtain ⟨w₁, c, l', hdrifts, hrest⟩ := ih hp
    exact ⟨w₁, c, l', .head hd hdrifts, hrest⟩

theorem Hears.of_bind {p : Prog S α} {f : α → Prog S β} {b : β}
    (h : M.Hears i (p.bind f) w l b w') :
    ∃ l₁ a w₁ l₂, M.Hears i p w l₁ a w₁ ∧ M.Hears i (f a) w₁ l₂ b w' ∧ l = l₁ ++ l₂ := by
  induction p generalizing w l with
  | pure a => exact ⟨[], a, w, l, .done a w, h, rfl⟩
  | step o k ih =>
    obtain ⟨w₁, c, l', hdrifts, ha, rfl, hrest⟩ := Hears.of_step (k := fun r => (k r).bind f) h
    obtain ⟨l₁, a, w₂, l₂, hp, hf, rfl⟩ := ih _ hrest
    refine ⟨⟨o, (M.exec i o c w₁).1⟩ :: l₁, a, w₂, l₂, ?_, hf, rfl⟩
    clear h hf ih hrest
    induction hdrifts using Relation.ReflTransGen.head_induction_on with
    | refl => exact .step c ha hp
    | head hd _ ih => exact .drift hd ih

/-- What a program that may stop with an error is told before it goes on. -/
theorem Hears.of_proc_bind {x : Proc S ε α} {f : α → Proc S ε β} {r : Except ε β}
    (h : M.Hears i (x >>= f).run w l r w') :
    (∃ l₁ a w₁ l₂, M.Hears i x.run w l₁ (.ok a) w₁ ∧ M.Hears i (f a).run w₁ l₂ r w' ∧
      l = l₁ ++ l₂) ∨ ∃ e w₁, M.Hears i x.run w l (.error e) w₁ ∧ r = .error e := by
  obtain ⟨l₁, a, w₁, l₂, hx, hf, rfl⟩ := Hears.of_bind h
  cases a with
  | ok a => exact Or.inl ⟨l₁, a, w₁, l₂, hx, hf, rfl⟩
  | error e =>
    obtain ⟨rfl, rfl, -⟩ := Hears.of_pure hf
    rw [List.append_nil]
    exact Or.inr ⟨e, w₁, hx, rfl⟩

/-- Run a program to its end, with the outcomes of a list, and keep what it was told. -/
def hear? (M : Machine S W C) [∀ o w, Decidable (M.allow o w)] (i : Nat) :
    Prog S α → W → List C → Option (List S.Answer × α × W)
  | .pure a, w, _ => some ([], a, w)
  | .step _ _, _, [] => none
  | .step o k, w, c :: cs =>
    if M.allow o w then
      (hear? M i (k (M.exec i o c w).1) (M.exec i o c w).2 cs).map fun r =>
        (⟨o, (M.exec i o c w).1⟩ :: r.1, r.2)
    else none

theorem hears_of_hear? [∀ o w, Decidable (M.allow o w)] {p : Prog S α} {a : α} {cs : List C}
    (h : M.hear? i p w cs = some (l, a, w')) : M.Hears i p w l a w' := by
  induction p generalizing w l cs with
  | pure b =>
    cases h
    exact .done _ _
  | step o k ih =>
    cases cs with
    | nil => cases h
    | cons c cs =>
      rw [hear?] at h
      split at h
      · rename_i ha
        obtain ⟨⟨l', a', w''⟩, hrest, heq⟩ := Option.map_eq_some_iff.mp h
        cases heq
        exact .step c ha (ih _ hrest)
      · cases h

/-- A run that is computed to an end with property `φ`. -/
theorem exists_hears [∀ o w, Decidable (M.allow o w)] {p : Prog S α} {cs : List C}
    {φ : List S.Answer → α → W → Bool}
    (h : ((M.hear? i p w cs).any fun r => φ r.1 r.2.1 r.2.2) = true) :
    ∃ l a w', M.Hears i p w l a w' ∧ φ l a w' = true := by
  rw [Option.any_eq_true] at h
  obtain ⟨⟨l, a, w'⟩, hr, hφ⟩ := h
  exact ⟨l, a, w', hears_of_hear? hr, hφ⟩

end Machine

end Conc
