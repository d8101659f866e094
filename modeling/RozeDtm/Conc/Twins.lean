import RozeDtm.Conc.Alone

/-!
# Two runs side by side

`Single` is a world in which one program runs alone.  At each step the world either answers,
with an outcome from outside, or fails.  A failed step says what the error is, and whether the
program is answered with it or ends with it.  `M.run?` runs a program through a list of such
outcomes and failures, all of which it has to use.

`Twins` says of two programs, each in a world of its own, that the same outcomes and failures
lead both through the same steps, and what can be said of the two ends.  It is computed from
the programs, with one rule for each way of putting programs together, and `Twins.sound` is
what it says about the runs.  `Both` is `Twins` for programs that may stop with an error.
-/

namespace Conc

variable {S : Sig} {W C F α α' β β' ε : Type}

/-- What becomes of a program whose step fails. -/
inductive Failing (ρ : Type)
  /-- Such a step does not fail. -/
  | never
  /-- The program is answered. -/
  | reply (r : ρ)
  /-- The error ends the program. -/
  | ends

/-- A world for one program, with outcomes `C` and failures `F`. -/
structure Single (S : Sig) (W C F ε : Type) where
  exec : (o : S.Op) → C → W → S.Reply o × W
  text : F → ε
  failing : (o : S.Op) → ε → Failing (S.Reply o)

namespace Single

variable (M M' : Single S W C F ε)

/-- The result of a program that uses up the outcomes and failures. -/
def run? : Prog S (Except ε α) → W → List (C ⊕ F) → Option (Except ε α)
  | .pure r, _, [] => some r
  | .pure _, _, _ :: _ => none
  | .step _ _, _, [] => none
  | .step o k, w, .inl c :: cs => run? (k (M.exec o c w).1) (M.exec o c w).2 cs
  | .step o k, w, .inr f :: cs =>
    match M.failing o (M.text f) with
    | .never => none
    | .reply r => run? (k r) w cs
    | .ends => if cs.isEmpty then some (.error (M.text f)) else none

/-- The same world as one for many programs. -/
def machine : Machine S W C where
  exec _ := M.exec
  drift := Eq
  allow _ _ := True

/-- Every program has a run without failures, to any outcome at all steps. -/
theorem run_outcome (c : C) (p : Prog S (Except ε α)) (w : W) :
    ∃ n, M.run? p w (List.replicate n (.inl c)) =
      some (M.machine.outcome (fun _ _ => c) 0 p w).1 := by
  induction p generalizing w with
  | pure r => exact ⟨0, rfl⟩
  | step o k ih =>
    obtain ⟨n, h⟩ := ih (M.exec o c w).1 (M.exec o c w).2
    exact ⟨n + 1, h⟩

/-- Such a run ends as the program does. -/
theorem outcome_of_run {c : C} {p : Prog S (Except ε α)} {w : W} {n : Nat} {r : Except ε α}
    (h : M.run? p w (List.replicate n (.inl c)) = some r) :
    (M.machine.outcome (fun _ _ => c) 0 p w).1 = r := by
  induction p generalizing w n with
  | pure a =>
    cases n with
    | zero =>
      cases h
      rfl
    | succ n => cases h
  | step o k ih =>
    cases n with
    | zero => cases h
    | succ n => exact ih _ h

/-- The same steps of both programs, and `Q` at their ends.  The flag says whether a step has
failed; only failures with `fails` are looked at. -/
def Twins (fails : F → Prop) (Q : Bool → Except ε α → Except ε β → W → W → Prop) :
    Bool → Prog S (Except ε α) → Prog S (Except ε β) → W → W → Prop
  | t, .pure r, .pure r', w, w' => Q t r r' w w'
  | t, .step o k, .step o' k', w, w' =>
    (∀ c, Twins fails Q t (k (M.exec o c w).1) (k' (M'.exec o' c w').1)
      (M.exec o c w).2 (M'.exec o' c w').2) ∧
    ∀ f, fails f → match M.failing o (M.text f), M'.failing o' (M'.text f) with
      | .never, .never => True
      | .reply r, .reply r' => Twins fails Q true (k r) (k' r') w w'
      | .ends, .ends => Q true (.error (M.text f)) (.error (M'.text f)) w w'
      | _, _ => False
  | _, .pure _, .step _ _, _, _ => False
  | _, .step _ _, .pure _, _, _ => False

variable {M M'} {fails : F → Prop}

theorem Twins.mono {Q R : Bool → Except ε α → Except ε β → W → W → Prop} {t : Bool}
    {p : Prog S (Except ε α)} {p' : Prog S (Except ε β)} {w w' : W}
    (hQ : ∀ t r r' w w', Q t r r' w w' → R t r r' w w') (h : M.Twins M' fails Q t p p' w w') :
    M.Twins M' fails R t p p' w w' := by
  induction p generalizing t p' w w' with
  | pure r =>
    cases p' with
    | pure r' => exact hQ _ _ _ _ _ h
    | step o' k' => exact h.elim
  | step o k ih =>
    cases p' with
    | pure r' => exact h.elim
    | step o' k' =>
      refine ⟨fun c => ih _ (h.1 c), fun f hf => ?_⟩
      have hfail := h.2 f hf
      split at hfail
      · exact trivial
      · exact ih _ hfail
      · exact hQ _ _ _ _ _ hfail
      · exact hfail.elim

/-- **What twins have to do with runs**: the outcomes and failures of a run of the one program
are those of a run of the other, and the two ends are as said. -/
theorem Twins.sound {Q : Bool → Except ε α → Except ε β → W → W → Prop} {t : Bool}
    {p : Prog S (Except ε α)} {p' : Prog S (Except ε β)} {w w' : W} {cs : List (C ⊕ F)}
    {r : Except ε α} (h : M.Twins M' fails Q t p p' w w') (hcs : ∀ f, .inr f ∈ cs → fails f)
    (hr : M.run? p w cs = some r) :
    ∃ r' u u', M'.run? p' w' cs = some r' ∧ Q (t || cs.any Sum.isRight) r r' u u' := by
  induction p generalizing t p' w w' cs with
  | pure a =>
    cases p' with
    | step o' k' => exact h.elim
    | pure a' =>
      cases cs with
      | cons c cs => cases hr
      | nil =>
        cases hr
        exact ⟨a', w, w', rfl, by rw [List.any_nil, Bool.or_false]; exact h⟩
  | step o k ih =>
    cases p' with
    | pure a' => exact h.elim
    | step o' k' =>
      cases cs with
      | nil => cases hr
      | cons c cs =>
        have hrest : ∀ f, .inr f ∈ cs → fails f := fun f hf => hcs f (.tail _ hf)
        cases c with
        | inl c =>
          rw [List.any_cons, Sum.isRight_inl, Bool.false_or]
          obtain ⟨r', u, u', hr', hQ⟩ := ih _ (h.1 c) hrest hr
          exact ⟨r', u, u', hr', hQ⟩
        | inr f =>
          have hfail := h.2 f (hcs f (.head _))
          rw [run?] at hr ⊢
          split at hfail
          · rename_i heq _
            rw [heq] at hr
            cases hr
          · rename_i heq heq'
            rw [heq] at hr
            rw [heq', List.any_cons, Sum.isRight_inr, Bool.true_or, Bool.or_true]
            exact ih _ hfail hrest hr
          · rename_i heq heq'
            rw [heq] at hr
            rw [heq', List.any_cons, Sum.isRight_inr, Bool.true_or, Bool.or_true]
            cases cs with
            | cons c cs => cases hr
            | nil =>
              cases hr
              exact ⟨_, w, w', rfl, hfail⟩
          · exact hfail.elim

/-! ### Programs that may stop with an error -/

variable (M M' fails)

/-- The verdict on two ends: values with `Q` or errors with `E`, and after a failure its error. -/
def Verdict (Q : α → β → W → W → Prop) (E : ε → ε → Prop) :
    Bool → Except ε α → Except ε β → W → W → Prop
  | false, .ok a, .ok b, w, w' => Q a b w w'
  | false, .error e, .error e', _, _ => E e e'
  | true, .error e, .error e', _, _ => ∃ f, fails f ∧ e = M.text f ∧ e' = M'.text f
  | _, _, _, _, _ => False

/-- `Twins` for programs that may stop with an error. -/
def Both (x : Proc S ε α) (x' : Proc S ε β) (Q : α → β → W → W → Prop) (E : ε → ε → Prop)
    (w w' : W) : Prop :=
  M.Twins M' fails (M.Verdict M' fails Q E) false x.run x'.run w w'

variable {M M' fails} {E : ε → ε → Prop}

theorem Both.mono {x : Proc S ε α} {x' : Proc S ε β} {Q R : α → β → W → W → Prop}
    {E₁ E₂ : ε → ε → Prop} {w w' : W} (h : M.Both M' fails x x' Q E₁ w w')
    (hQ : ∀ a b w w', Q a b w w' → R a b w w') (hE : ∀ e e', E₁ e e' → E₂ e e') :
    M.Both M' fails x x' R E₂ w w' := by
  refine Twins.mono (fun t r r' w w' hv => ?_) h
  cases t <;> cases r <;> cases r' <;> first | exact hv.elim | skip
  · exact hE _ _ hv
  · exact hQ _ _ _ _ hv
  · exact hv

/-- **Both end alike**: a run of the one that ends with an error is one of the other, which ends
with an error that the first is related to, after a failure the error of that failure. -/
theorem Both.sound {x : Proc S ε α} {x' : Proc S ε β} {Q : α → β → W → W → Prop} {w w' : W}
    {cs : List (C ⊕ F)} {e : ε} (h : M.Both M' fails x x' Q E w w')
    (hcs : ∀ f, .inr f ∈ cs → fails f)
    (hr : M.run? x.run w cs = some (.error e)) :
    ∃ e', M'.run? x'.run w' cs = some (.error e') ∧
      if cs.any Sum.isRight then ∃ f, fails f ∧ e = M.text f ∧ e' = M'.text f else E e e' := by
  obtain ⟨r', u, u', hr', hv⟩ := Twins.sound h hcs hr
  rw [Bool.false_or] at hv
  cases r' with
  | ok b => cases hany : cs.any Sum.isRight <;> rw [hany] at hv <;> exact hv.elim
  | error e' =>
    refine ⟨e', hr', ?_⟩
    cases hany : cs.any Sum.isRight
    · rw [hany] at hv
      exact hv
    · rw [hany] at hv
      exact hv

/-- Two that cannot end with a value have a run without failures to two errors. -/
theorem Both.exists_error {x : Proc S ε α} {x' : Proc S ε β} {w w' : W} (c : C)
    (h : M.Both M' fails x x' (fun _ _ _ _ => False) E w w') :
    ∃ n e e', M.run? x.run w (List.replicate n (.inl c)) = some (.error e) ∧
      M'.run? x'.run w' (List.replicate n (.inl c)) = some (.error e') ∧ E e e' := by
  obtain ⟨n, hr⟩ := M.run_outcome c x.run w
  have hnone : ∀ f, (.inr f : C ⊕ F) ∉ List.replicate n (.inl c) := fun f hf => by
    cases List.eq_of_mem_replicate hf
  obtain ⟨r', u, u', hr', hv⟩ := Twins.sound h (fun f hf => absurd hf (hnone f)) hr
  have hany : (List.replicate n (.inl c : C ⊕ F)).any Sum.isRight = false := by
    rw [List.any_eq_false]
    intro d hd
    rw [List.eq_of_mem_replicate hd]
    exact Bool.false_ne_true
  rw [hany] at hv
  cases hend : (M.machine.outcome (fun _ _ => c) 0 x.run w).1 with
  | ok a =>
    rw [hend] at hv
    cases r' <;> exact hv.elim
  | error e =>
    rw [hend] at hv hr
    cases r' with
    | ok b => exact hv.elim
    | error e' => exact ⟨n, e, e', hr, hr', hv⟩

@[simp] theorem both_pure {a : α} {b : β} {Q : α → β → W → W → Prop} {w w' : W} :
    M.Both M' fails (Pure.pure a : Proc S ε α) (Pure.pure b : Proc S ε β) Q E w w' ↔ Q a b w w' :=
  Iff.rfl

@[simp] theorem both_throw {e e' : ε} {Q : α → β → W → W → Prop} {w w' : W} :
    M.Both M' fails (throw e : Proc S ε α) (throw e' : Proc S ε β) Q E w w' ↔ E e e' :=
  Iff.rfl

/-- Both go on with their values, and an error ends both. -/
theorem Both.bind {x : Proc S ε α} {x' : Proc S ε α'} {f : α → Proc S ε β} {f' : α' → Proc S ε β'}
    {Q : β → β' → W → W → Prop} {w w' : W}
    (h : M.Both M' fails x x' (fun a a' w w' => M.Both M' fails (f a) (f' a') Q E w w') E w w') :
    M.Both M' fails (x >>= f) (x' >>= f') Q E w w' := by
  have gen : ∀ (t : Bool) (p : Prog S (Except ε α)) (p' : Prog S (Except ε α')) (w w' : W),
      M.Twins M' fails (M.Verdict M' fails (fun a a' w w' =>
        M.Both M' fails (f a) (f' a') Q E w w') E) t p p' w w' →
      M.Twins M' fails (M.Verdict M' fails Q E) t
        (p.bind fun r => ExceptT.bindCont f r) (p'.bind fun r => ExceptT.bindCont f' r) w w' := by
    intro t p
    induction p generalizing t with
    | pure r =>
      intro p' w w' h
      cases p' with
      | step o' k' => exact h.elim
      | pure r' => cases t <;> cases r <;> cases r' <;> first | exact h.elim | exact h
    | step o k ih =>
      intro p' w w' h
      cases p' with
      | pure r' => exact h.elim
      | step o' k' =>
        refine ⟨fun c => ih _ _ _ _ _ (h.1 c), fun g hg => ?_⟩
        have hfail := h.2 g hg
        split at hfail
        · exact trivial
        · exact ih _ _ _ _ _ hfail
        · exact hfail
        · exact hfail.elim
  exact gen false x x' w w' h

/-- What is made of the values does not matter to the two runs. -/
theorem Both.of_map {x : Proc S ε α} {x' : Proc S ε α'} (g : α → β) (g' : α' → β')
    {P : W → W → Prop} {w w' : W}
    (h : M.Both M' fails (x >>= fun a => Pure.pure (g a)) (x' >>= fun a => Pure.pure (g' a))
      (fun _ _ => P) E w w') : M.Both M' fails x x' (fun _ _ => P) E w w' := by
  have gen : ∀ (t : Bool) (p : Prog S (Except ε α)) (p' : Prog S (Except ε α')) (w w' : W),
      M.Twins M' fails (M.Verdict M' fails (fun _ _ => P) E) t
        (p.bind fun r => ExceptT.bindCont (fun a => (Pure.pure (g a) : Proc S ε β)) r)
        (p'.bind fun r => ExceptT.bindCont (fun a => (Pure.pure (g' a) : Proc S ε β')) r) w w' →
      M.Twins M' fails (M.Verdict M' fails (fun _ _ => P) E) t p p' w w' := by
    intro t p
    induction p generalizing t with
    | pure r =>
      intro p' w w' h
      cases p' with
      | step o' k' => cases r <;> exact h.elim
      | pure r' => cases t <;> cases r <;> cases r' <;> first | exact h.elim | exact h
    | step o k ih =>
      intro p' w w' h
      cases p' with
      | pure r' => cases r' <;> exact h.elim
      | step o' k' =>
        refine ⟨fun c => ih _ _ _ _ _ (h.1 c), fun f hf => ?_⟩
        have hfail := h.2 f hf
        split at hfail
        · exact trivial
        · exact ih _ _ _ _ _ hfail
        · exact hfail
        · exact hfail.elim
  exact gen false x x' w w' h

/-- One step of both, that the world may fail where it ends the program. -/
theorem both_perform {o o' : S.Op} {Q : S.Reply o → S.Reply o' → W → W → Prop} {w w' : W}
    (hstep : ∀ c, Q (M.exec o c w).1 (M'.exec o' c w').1 (M.exec o c w).2 (M'.exec o' c w').2)
    (hfail : ∀ f, M.failing o (M.text f) = .never ∧ M'.failing o' (M'.text f) = .never ∨
      M.failing o (M.text f) = .ends ∧ M'.failing o' (M'.text f) = .ends) :
    M.Both M' fails (Proc.perform o : Proc S ε (S.Reply o))
      (Proc.perform o' : Proc S ε (S.Reply o')) Q E w w' := by
  refine ⟨hstep, fun f hf => ?_⟩
  obtain ⟨h, h'⟩ | ⟨h, h'⟩ := hfail f
  · rw [h, h']
    exact trivial
  · rw [h, h']
    exact ⟨f, hf, rfl, rfl⟩

end Single

end Conc
