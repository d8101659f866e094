import RozeDtm.Conc.Alone
import RozeDtm.Conc.Turns

/-!
# A program among others

`M.among starts` is the machine `M` as one program sees it while others are under way: its
world is the pool of the others, and between two of its steps that pool makes any moves.  A
program alone in `M.among starts` is that program in any interleaving with the others, so the
rules for programs that run alone are rules for it.  It may be a part of a larger program, as
what that goes on to do afterwards does not matter to it.

`M.Comes` leads a program to what is left of it, and `M.Returns` to the value it returns, in
the world right after its last step.

`M.picking p` is the machine `M` when the outcomes that the outside picks meet `p`.
-/

namespace Conc

variable {S : Sig} {W C T α β : Type}

/-- The machine `M` where only outcomes with `p` are picked. -/
def Machine.picking (M : Machine S W C) (p : C → Prop) : Machine S W {c // p c} where
  exec := fun i o c w => M.exec i o c.1 w
  drift := M.drift
  allow := M.allow

/-- The machine `M` as one program sees it among others. -/
def Machine.among (M : Machine S W C) (starts : Prog S β → Prop) :
    Machine S (Pool S W β) C where
  exec := fun i o c P => ((M.exec i o c P.world).1, { P with world := (M.exec i o c P.world).2 })
  drift := M.Step starts
  allow := fun o P => M.allow o P.world

namespace Machine

/-- Program `p` in world `w` comes to where `q` is left of it, in world `w'`. -/
inductive Comes (M : Machine S W C) (i : Nat) : Prog S α → W → Prog S α → W → Prop
  | refl (p : Prog S α) (w : W) : Comes M i p w p w
  | step {o : S.Op} {k : S.Reply o → Prog S α} {q : Prog S α} {w w' : W} (c : C)
      (ha : M.allow o w) (h : Comes M i (k (M.exec i o c w).1) (M.exec i o c w).2 q w') :
      Comes M i (.step o k) w q w'
  | drift {p q : Prog S α} {w w' w'' : W} (hd : M.drift w w') (h : Comes M i p w' q w'') :
      Comes M i p w q w''

/-- Program `p` in world `w` returns `a`, and its last step leads to world `w'`. -/
inductive Returns (M : Machine S W C) (i : Nat) : Prog S α → W → α → W → Prop
  | last {o : S.Op} {k : S.Reply o → Prog S α} {a : α} {w : W} (c : C) (ha : M.allow o w)
      (hk : k (M.exec i o c w).1 = .pure a) : Returns M i (.step o k) w a (M.exec i o c w).2
  | step {o : S.Op} {k : S.Reply o → Prog S α} {a : α} {w w' : W} (c : C) (ha : M.allow o w)
      (h : Returns M i (k (M.exec i o c w).1) (M.exec i o c w).2 a w') :
      Returns M i (.step o k) w a w'
  | drift {p : Prog S α} {a : α} {w w' w'' : W} (hd : M.drift w w')
      (h : Returns M i p w' a w'') : Returns M i p w a w''

variable {M : Machine S W C} {φ : W → Prop} {i : Nat} {p q : Prog S α} {w w' w'' : W} {a : α}

theorem Comes.returns (hc : M.Comes i p w q w') (hr : M.Returns i q w' a w'') :
    M.Returns i p w a w'' := by
  induction hc with
  | refl => exact hr
  | step c ha _ ih => exact .step c ha (ih hr)
  | drift hd _ ih => exact .drift hd (ih hr)

theorem not_returns_pure {b : α} : ¬ M.Returns i (.pure b) w a w' := by
  intro h
  generalize hp : Prog.pure b = p at h
  induction h with
  | last c ha hk => cases hp
  | step c ha _ ih => cases hp
  | drift hd _ ih => exact ih hp

/-- **What `Ends` says of a program that returns.** -/
theorem Ends.returns {Q : α → W → Prop} (h : M.Ends φ i p Q w) (hr : M.Returns i p w a w') :
    Q a w' := by
  induction hr with
  | last c ha hk =>
    have hend := (h _ .refl).2 ha c
    rw [hk] at hend
    exact hend
  | step c ha _ ih => exact ih ((h _ .refl).2 ha c)
  | @drift p a w w' w'' hd hr ih =>
    cases p with
    | pure b => exact absurd hr not_returns_pure
    | step o k => exact ih fun w₁ hd₁ => h w₁ (.head hd hd₁)

end Machine

/-! ### Outlines of a program among others -/

namespace Solo

variable {M : Machine S W C} {D : Discipline S T} {t₀ : T} (O : Solo M D t₀) {i : Nat}
  {p q : Prog S α} {w w' : W} {a : α} {t : T} {Q : T → α → Prop}

/-- What is left of a program keeps to the discipline too. -/
theorem comes (hw : O.inv w) (ho : O.own t w) (h : D.Follows p t Q) (hc : M.Comes i p w q w') :
    O.inv w' ∧ ∃ t', O.own t' w' ∧ D.Follows q t' Q := by
  induction hc generalizing t with
  | refl => exact ⟨hw, t, ho, h⟩
  | step c ha _ ih =>
    exact ih (O.inv_step c hw ho h.1 ha) (O.own_step c hw ho h.1 ha) (h.2 _ (O.sees c hw ho h.1 ha))
  | drift hd _ ih => exact ih (O.inv_drift hw hd) (O.own_drift hw ho hd) h

/-- **What every permitted step and every move of the others keeps, holds when the program
returns.** -/
theorem returns {ψ : W → Prop} (hw : O.inv w) (ho : O.own t w) (h : D.Follows p t Q)
    (hstep : ∀ {w t o} (c : C), O.inv w → O.own t w → D.pre t o → M.allow o w → ψ w →
      ψ (M.exec i o c w).2)
    (hdrift : ∀ {w w'}, O.inv w → M.drift w w' → ψ w → ψ w') (hψ : ψ w)
    (hr : M.Returns i p w a w') : ψ w' := by
  induction hr generalizing t with
  | last c ha hk => exact hstep c hw ho h.1 ha hψ
  | step c ha _ ih =>
    exact ih (O.inv_step c hw ho h.1 ha) (O.own_step c hw ho h.1 ha)
      (h.2 _ (O.sees c hw ho h.1 ha)) (hstep c hw ho h.1 ha hψ)
  | drift hd _ ih => exact ih (O.inv_drift hw hd) (O.own_drift hw ho hd) h (hdrift hw hd hψ)

end Solo

/-- An outline whose assertions say nothing, as one for a program among others that keep to the
discipline. -/
def Outline.solo {M : Machine S W C} {D : Discipline S T} {t₀ : T} (O : Outline M D t₀)
    (hown : ∀ i t w, O.own i t w) {starts : Prog S β → Prop}
    (hstart : ∀ p, starts p → D.Follows p t₀ (fun _ _ => True)) : Solo (M.among starts) D t₀ where
  inv := O.Good
  own := fun _ _ => True
  own_start := fun _ => trivial
  sees := fun {P i t _} c hP _ hp ha => O.sees c hP.1 (hown i t P.world) hp ha
  inv_step := fun {P i t o} c hP _ hp ha => by
    obtain ⟨hinv, s, -, hidle, hfol⟩ := hP
    exact ⟨O.inv_step c hinv (hown i t P.world) hp ha, s, fun j => hown .., hidle, hfol⟩
  own_step := fun _ _ _ _ _ => trivial
  inv_drift := fun hP hs => hP.step hstart hs
  own_drift := fun _ _ _ => trivial

end Conc
