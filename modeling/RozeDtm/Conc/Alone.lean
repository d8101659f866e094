import RozeDtm.Conc.Outline

/-!
# Programs that run alone

`M.Ends φ i p Q w` says that program `p`, running alone from `w` as number `i`, passes only
through worlds that satisfy `φ` and can only end in a value and a world that satisfy `Q`;
the world may drift before each step, and every outcome is possible.  It is computed from
the program, with one rule for each way of putting programs together, and `Ends.sound` and
`Ends.along` are what it says about `M.Goes`.  A discipline and an outline that a program
keeps to give an `Ends` too (`Outline.ends`).

`M.Serial` is a run in which each program starts when the one before it has ended, and
`M.SerialAt` is any point of such a run.
-/

namespace Conc

variable {S : Sig} {W C T α β ε : Type}

namespace Machine

variable (M : Machine S W C) (φ : W → Prop)

/-- Any drift of the world. -/
abbrev Drifts : W → W → Prop := Relation.ReflTransGen M.drift

/-- On its way from `w`, running alone, `p` only meets worlds with `φ`, and wherever it ends
`Q` holds. -/
def Ends (i : Nat) : Prog S α → (α → W → Prop) → W → Prop
  | .pure a, Q, w => Q a w
  | .step o k, Q, w => ∀ w₁, M.Drifts w w₁ → φ w₁ ∧ (M.allow o w₁ →
      ∀ c, Ends i (k (M.exec i o c w₁).1) Q (M.exec i o c w₁).2)

variable {M φ} {i : Nat}

theorem Ends.mono {p : Prog S α} {w : W} {Q R : α → W → Prop} (h : M.Ends φ i p Q w)
    (hQ : ∀ a w, Q a w → R a w) : M.Ends φ i p R w := by
  induction p generalizing w with
  | pure a => exact hQ _ _ h
  | step o k ih => exact fun w₁ hd => (h w₁ hd).imp id fun h ha c => ih _ (h ha c)

/-- What is shown on the way may say less. -/
theorem Ends.imp {ψ : W → Prop} {p : Prog S α} {w : W} {Q : α → W → Prop} (h : M.Ends φ i p Q w)
    (hφ : ∀ w, φ w → ψ w) : M.Ends ψ i p Q w := by
  induction p generalizing w with
  | pure a => exact h
  | step o k ih =>
    exact fun w₁ hd => ⟨hφ w₁ (h w₁ hd).1, fun ha c => ih _ ((h w₁ hd).2 ha c)⟩

theorem ends_bind {p : Prog S α} {f : α → Prog S β} {w : W} {Q : β → W → Prop} :
    M.Ends φ i (p.bind f) Q w ↔ M.Ends φ i p (fun a w => M.Ends φ i (f a) Q w) w := by
  induction p generalizing w with
  | pure a => exact Iff.rfl
  | step o k ih =>
    simp only [Prog.step_bind, Ends]
    refine forall₂_congr fun w₁ _ => and_congr Iff.rfl ?_
    exact forall_congr' fun _ => forall_congr' fun c => ih _

theorem Ends.drift {p : Prog S α} {w w' : W} {Q : α → W → Prop}
    (hQ : ∀ a w w', Q a w → M.drift w w' → Q a w') (h : M.Ends φ i p Q w) (hd : M.drift w w') :
    M.Ends φ i p Q w' := by
  cases p with
  | pure a => exact hQ a w w' h hd
  | step o k => exact fun w₁ hd₁ => h w₁ (.head hd hd₁)

/-- **What `Ends` says of the end of a program alone.** -/
theorem Ends.sound {p : Prog S α} {w w' : W} {a : α} {Q : α → W → Prop}
    (hQ : ∀ a w w', Q a w → M.drift w w' → Q a w') (h : M.Ends φ i p Q w)
    (hg : M.Goes i p w (some a) w') : Q a w' := by
  generalize hr : some a = r at hg
  induction hg with
  | done b w =>
    cases hr
    exact h
  | cut p w => cases hr
  | step c ha _ ih => exact ih ((h _ .refl).2 ha c) hr
  | drift hd _ ih => exact ih (h.drift hQ hd) hr

/-- **What `Ends` says of every world that a program alone passes through.** -/
theorem Ends.along {p : Prog S α} {w w' : W} {r : Option α} {Q : α → W → Prop}
    (hQ : ∀ a w w', Q a w → M.drift w w' → Q a w') (hφ : ∀ a w, Q a w → φ w)
    (h : M.Ends φ i p Q w) (hg : M.Goes i p w r w') : φ w' := by
  induction hg with
  | done a w => exact hφ a w h
  | cut p w =>
    cases p with
    | pure a => exact hφ a w h
    | step o k => exact (h w .refl).1
  | step c ha _ ih => exact ih ((h _ .refl).2 ha c)
  | drift hd _ ih => exact ih (h.drift hQ hd)

/-- Drift before a program starts. -/
theorem Goes.drifts {p : Prog S α} {w w' w'' : W} {r : Option α} (hd : M.Drifts w w')
    (h : M.Goes i p w' r w'') : M.Goes i p w r w'' := by
  induction hd using Relation.ReflTransGen.head_induction_on with
  | refl => exact h
  | head hd _ ih => exact .drift hd ih

/-- **Wherever a program alone is shown to end, it can end.** -/
theorem Ends.goes {p : Prog S α} {w : W} {Q : α → W → Prop} (h : M.Ends φ i p Q w) :
    M.Ends φ i p (fun a w' => Q a w' ∧ M.Goes i p w (some a) w') w := by
  induction p generalizing w with
  | pure a => exact ⟨h, .done a w⟩
  | step o k ih =>
    refine fun w₁ hd => (h w₁ hd).imp id fun h ha c => (ih _ (h ha c)).mono fun a w' hQ => ?_
    exact ⟨hQ.1, Goes.drifts hd (.step c ha hQ.2)⟩

/-- **A program alone that is shown to end has a run to its end**, if every step is allowed. -/
theorem Ends.exists_goes [Nonempty C] (hallow : ∀ o w, M.allow o w) {p : Prog S α} {w : W}
    {Q : α → W → Prop} (h : M.Ends φ i p Q w) : ∃ a w', M.Goes i p w (some a) w' ∧ Q a w' := by
  induction p generalizing w with
  | pure a => exact ⟨a, w, .done a w, h⟩
  | step o k ih =>
    obtain ⟨c⟩ := ‹Nonempty C›
    obtain ⟨a, w', hg, hQ⟩ := ih _ ((h w .refl).2 (hallow o w) c)
    exact ⟨a, w', .step c (hallow o w) hg, hQ⟩

/-- A run in which the world drifts less is a run. -/
theorem Goes.widen {drift : W → W → Prop} (hdrift : ∀ w w', drift w w' → M.drift w w')
    {p : Prog S α} {w w' : W} {r : Option α}
    (h : ({ M with drift := drift } : Machine S W C).Goes i p w r w') : M.Goes i p w r w' := by
  induction h with
  | done a w => exact .done a w
  | cut p w => exact .cut p w
  | step c ha _ ih => exact .step c ha ih
  | drift hd _ ih => exact .drift (hdrift _ _ hd) ih

/-- A run under a restriction is a run. -/
theorem Goes.ofRestrict {allow : S.Op → W → Prop} {p : Prog S α} {w w' : W} {r : Option α}
    (h : (M.restrict allow).Goes i p w r w') : M.Goes i p w r w' := by
  induction h with
  | done a w => exact .done a w
  | cut p w => exact .cut p w
  | step c ha _ ih => exact .step c ha.1 ih
  | drift hd _ ih => exact .drift hd ih

/-- A run is one under a restriction that every step meets. -/
theorem Goes.restrict {allow : S.Op → W → Prop} (hallow : ∀ o w, allow o w) {p : Prog S α}
    {w w' : W} {r : Option α} (h : M.Goes i p w r w') : (M.restrict allow).Goes i p w r w' := by
  induction h with
  | done a w => exact .done a w
  | cut p w => exact .cut p w
  | step c ha _ ih => exact .step c ⟨ha, hallow _ _⟩ ih
  | drift hd _ ih => exact .drift hd ih

/-- What holds under a restriction that every step meets holds without it. -/
theorem Ends.ofRestrict {allow : S.Op → W → Prop} (hallow : ∀ o w, allow o w) {p : Prog S α} {w : W}
    {Q : α → W → Prop} (h : (M.restrict allow).Ends φ i p Q w) : M.Ends φ i p Q w := by
  induction p generalizing w with
  | pure a => exact h
  | step o k ih =>
    exact fun w₁ hd => (h w₁ hd).imp id fun h ha c => ih _ (h ⟨ha, hallow o w₁⟩ c)

variable (M φ)

/-- `Ends` for a program that may stop with an error: `Q` is about its value, `E` about the
world in which it stops with an error. -/
def Runs (i : Nat) (x : Proc S ε α) (Q : α → W → Prop) (E : ε → W → Prop) (w : W) : Prop :=
  M.Ends φ i x.run (fun r => match r with
    | .ok a => Q a
    | .error e => E e) w

variable {M φ} {E : ε → W → Prop}

theorem Runs.mono {x : Proc S ε α} {w : W} {Q R : α → W → Prop} {F : ε → W → Prop}
    (h : M.Runs φ i x Q E w) (hQ : ∀ a w, Q a w → R a w) (hE : ∀ e w, E e w → F e w) :
    M.Runs φ i x R F w :=
  Ends.mono h fun r w hr => match r with
    | .ok a => hQ a w hr
    | .error e => hE e w hr

@[simp] theorem runs_pure {a : α} {w : W} {Q : α → W → Prop} :
    M.Runs φ i (Pure.pure a : Proc S ε α) Q E w ↔ Q a w := Iff.rfl

@[simp] theorem runs_throw {e : ε} {w : W} {Q : α → W → Prop} :
    M.Runs φ i (throw e : Proc S ε α) Q E w ↔ E e w := Iff.rfl

@[simp] theorem runs_bind {x : Proc S ε α} {f : α → Proc S ε β} {w : W} {Q : β → W → Prop} :
    M.Runs φ i (x >>= f) Q E w ↔ M.Runs φ i x (fun a w => M.Runs φ i (f a) Q E w) E w := by
  refine ends_bind.trans ⟨fun h => Ends.mono h ?_, fun h => Ends.mono h ?_⟩ <;>
  · intro r w hr
    cases r <;> exact hr

theorem runs_perform {o : S.Op} {w : W} {Q : S.Reply o → W → Prop} :
    M.Runs φ i (Proc.perform o : Proc S ε (S.Reply o)) Q E w ↔
      ∀ w₁, M.Drifts w w₁ → φ w₁ ∧ (M.allow o w₁ →
        ∀ c, Q (M.exec i o c w₁).1 (M.exec i o c w₁).2) :=
  Iff.rfl

/-! ### Runs of programs one after another -/

variable (M)

/-- The worlds that programs run one after another can lead to, each to its end. -/
inductive Serial (starts : Prog S α → Prop) : W → W → Prop
  | refl (w : W) : Serial starts w w
  | tail {w w' w'' : W} (prior : Serial starts w w') (i : Nat) (p : Prog S α) (a : α)
      (hp : starts p) (hg : M.Goes i p w' (some a) w'') : Serial starts w w''

/-- The worlds at any point of such a run: the last program may still be under way. -/
def SerialAt (starts : Prog S α → Prop) (w w' : W) : Prop :=
  ∃ w₁ i p r, M.Serial starts w w₁ ∧ starts p ∧ M.Goes i p w₁ r w'

variable {M}

/-- More programs may be run. -/
theorem Serial.mono {starts starts' : Prog S α → Prop} {w w' : W}
    (hstarts : ∀ p, starts p → starts' p) (h : M.Serial starts w w') : M.Serial starts' w w' := by
  induction h with
  | refl => exact .refl _
  | tail _ i p a hp hg ih => exact .tail ih i p a (hstarts p hp) hg

/-- A serial run in which the world drifts less is a serial run. -/
theorem Serial.widen {drift : W → W → Prop} (hdrift : ∀ w w', drift w w' → M.drift w w')
    {starts : Prog S α → Prop} {w w' : W}
    (h : ({ M with drift := drift } : Machine S W C).Serial starts w w') : M.Serial starts w w' := by
  induction h with
  | refl => exact .refl _
  | tail _ i p a hp hg ih => exact .tail ih i p a hp (hg.widen hdrift)

/-- A serial run is one under a restriction that every step meets. -/
theorem Serial.restrict {allow : S.Op → W → Prop} (hallow : ∀ o w, allow o w)
    {starts : Prog S α → Prop} {w w' : W} (h : M.Serial starts w w') :
    (M.restrict allow).Serial starts w w' := by
  induction h with
  | refl => exact .refl _
  | tail _ i p a hp hg ih => exact .tail ih i p a hp (hg.restrict hallow)

/-- **What every program keeps, every serial run keeps.** -/
theorem Serial.stays {starts : Prog S α → Prop} {w w' : W} {inv : W → Prop}
    (hdrift : ∀ w w', inv w → M.drift w w' → inv w')
    (hstep : ∀ i p w, starts p → inv w → M.Ends φ i p (fun _ w => inv w) w)
    (h : M.Serial starts w w') (hw : inv w) : inv w' := by
  induction h with
  | refl => exact hw
  | tail _ i p a hp hg ih => exact (hstep i p _ hp ih).sound (fun _ => hdrift) hg

/-- **What holds on the way of every program holds all along a serial run.** -/
theorem SerialAt.along {starts : Prog S α → Prop} {w w' : W} {inv : W → Prop}
    (hdrift : ∀ w w', inv w → M.drift w w' → inv w') (hφ : ∀ w, inv w → φ w)
    (hstep : ∀ i p w, starts p → inv w → M.Ends φ i p (fun _ w => inv w) w)
    (h : M.SerialAt starts w w') (hw : inv w) : φ w' := by
  obtain ⟨w₁, i, p, r, hs, hp, hg⟩ := h
  exact (hstep i p w₁ hp (hs.stays hdrift hstep hw)).along (fun _ => hdrift) (fun _ => hφ) hg

/-- A world at the end of a serial run is one at a point of it. -/
theorem Serial.at {starts : Prog S α → Prop} {w w' : W} {p : Prog S α}
    (h : M.Serial starts w w') (hp : starts p) : M.SerialAt starts w w' :=
  ⟨w', 0, p, none, h, hp, .cut p w'⟩

/-! ### Runs whose outcomes are a function of the world -/

section Outcome

variable (M) (choose : S.Op → W → C)

/-- Run a program to its end, each step with the outcome that `choose` picks. -/
def outcome (i : Nat) : Prog S α → W → α × W
  | .pure a, w => (a, w)
  | .step o k, w =>
    outcome i (k (M.exec i o (choose o w) w).1) (M.exec i o (choose o w) w).2

variable {M choose}

theorem outcome_bind {p : Prog S α} {f : α → Prog S β} {w : W} :
    M.outcome choose i (p.bind f) w =
      M.outcome choose i (f (M.outcome choose i p w).1) (M.outcome choose i p w).2 := by
  induction p generalizing w with
  | pure a => rfl
  | step o k ih => exact ih _

@[simp] theorem outcome_run_pure {a : α} {w : W} :
    M.outcome choose i (Pure.pure a : Proc S ε α).run w = (.ok a, w) := rfl

@[simp] theorem outcome_run_throw {e : ε} {w : W} :
    M.outcome choose i (throw e : Proc S ε α).run w = (.error e, w) := rfl

theorem outcome_run_bind_ok {x : Proc S ε α} {f : α → Proc S ε β} {w w' : W} {a : α}
    (h : M.outcome choose i x.run w = (.ok a, w')) :
    M.outcome choose i (x >>= f).run w = M.outcome choose i (f a).run w' := by
  refine outcome_bind.trans ?_
  rw [show M.outcome choose i x w = (.ok a, w') from h]
  rfl

theorem outcome_run_bind_error {x : Proc S ε α} {f : α → Proc S ε β} {w w' : W} {e : ε}
    (h : M.outcome choose i x.run w = (.error e, w')) :
    M.outcome choose i (x >>= f).run w = (.error e, w') := by
  refine outcome_bind.trans ?_
  rw [show M.outcome choose i x w = (.error e, w') from h]
  rfl

/-- **The run that the outcomes make.** -/
theorem goes_outcome (hallow : ∀ o w, M.allow o w) (p : Prog S α) (w : W) :
    M.Goes i p w (some (M.outcome choose i p w).1) (M.outcome choose i p w).2 := by
  induction p generalizing w with
  | pure a => exact .done a w
  | step o k ih => exact .step (choose o w) (hallow o w) (ih _ _)

/-- What every step keeps. -/
theorem outcome_keeps {inv : W → Prop} (hstep : ∀ o w, inv w → inv (M.exec i o (choose o w) w).2)
    {p : Prog S α} {w : W} (hw : inv w) : inv (M.outcome choose i p w).2 := by
  induction p generalizing w with
  | pure a => exact hw
  | step o k ih => exact ih _ (hstep o w hw)

variable (M)

/-- On the way of a program from `w`, `choose` picks what `script` picks. -/
def Scripted (choose script : S.Op → W → C) (i : Nat) : Prog S α → W → Prop
  | .pure _, _ => True
  | .step o k, w => choose o w = script o w ∧
    Scripted choose script i (k (M.exec i o (choose o w) w).1) (M.exec i o (choose o w) w).2

variable {M}

theorem Scripted.refl (choose : S.Op → W → C) (p : Prog S α) (w : W) :
    M.Scripted choose choose i p w := by
  induction p generalizing w with
  | pure a => trivial
  | step o k ih => exact ⟨rfl, ih _ _⟩

theorem Scripted.outcome {script : S.Op → W → C} {p : Prog S α} {w : W}
    (h : M.Scripted choose script i p w) :
    M.outcome choose i p w = M.outcome script i p w := by
  induction p generalizing w with
  | pure a => rfl
  | step o k ih =>
    obtain ⟨ho, hk⟩ := h
    refine (ih _ hk).trans ?_
    rw [ho]
    rfl

end Outcome

/-! ### Serial runs from lists of outcomes -/

section Compute

variable (M) [∀ o w, Decidable (M.allow o w)]

/-- Run a program to its end, with the outcomes of a list. -/
def finish? (i : Nat) : Prog S α → W → List C → Option (α × W)
  | .pure a, w, _ => some (a, w)
  | .step _ _, _, [] => none
  | .step o k, w, c :: cs =>
    if M.allow o w then finish? i (k (M.exec i o c w).1) (M.exec i o c w).2 cs else none

/-- Run programs one after another, each with the outcomes that come with it. -/
def finishAll? {A : Type} (prog : A → Prog S α) : W → List (A × List C) → Option W
  | w, [] => some w
  | w, (a, cs) :: rest => (M.finish? 0 (prog a) w cs).bind fun r => finishAll? prog r.2 rest

variable {M}

theorem goes_of_finish? {p : Prog S α} {w w' : W} {a : α} {cs : List C}
    (h : M.finish? i p w cs = some (a, w')) : M.Goes i p w (some a) w' := by
  induction p generalizing w cs with
  | pure b =>
    cases h
    exact .done _ _
  | step o k ih =>
    cases cs with
    | nil => cases h
    | cons c cs =>
      rw [finish?] at h
      split at h
      · rename_i ha
        exact .step c ha (ih _ h)
      · cases h

/-- **A computed serial run is a serial run.** -/
theorem serial_of_finishAll? {A : Type} {prog : A → Prog S α} {starts : A → Prop} {w w' : W}
    {runs : List (A × List C)} (hruns : ∀ r ∈ runs, starts r.1)
    (h : M.finishAll? prog w runs = some w') :
    M.Serial (fun p => ∃ a, starts a ∧ p = prog a) w w' := by
  -- runs are taken from the front, serial runs grow at the end
  have gen : ∀ (runs : List (A × List C)) (w₁ : W), (∀ r ∈ runs, starts r.1) →
      M.finishAll? prog w₁ runs = some w' →
      M.Serial (fun p => ∃ a, starts a ∧ p = prog a) w w₁ →
      M.Serial (fun p => ∃ a, starts a ∧ p = prog a) w w' := by
    intro runs
    induction runs with
    | nil =>
      intro w₁ _ h hw
      cases h
      exact hw
    | cons r rest ih =>
      intro w₁ hruns h hw
      obtain ⟨⟨a, w₂⟩, hr, h⟩ := Option.bind_eq_some_iff.mp h
      exact ih w₂ (fun r hr => hruns r (.tail _ hr)) h
        (hw.tail 0 _ a ⟨r.1, hruns r (.head _), rfl⟩ (goes_of_finish? hr))
  exact gen runs w hruns h (.refl w)

/-- A serial run computed to a world with property `φ`. -/
theorem exists_of_finishAll? {A : Type} {prog : A → Prog S α} {starts : A → Prop} {w : W}
    {runs : List (A × List C)} {φ : W → Bool} (hruns : ∀ r ∈ runs, starts r.1)
    (h : (M.finishAll? prog w runs).any φ = true) :
    ∃ w', M.Serial (fun p => ∃ a, starts a ∧ p = prog a) w w' ∧ φ w' = true := by
  rw [Option.any_eq_true] at h
  obtain ⟨w', hw', hφ⟩ := h
  exact ⟨w', serial_of_finishAll? hruns hw', hφ⟩

end Compute

end Machine

/-- **A program that keeps to a discipline, alone in a world that its session describes.** -/
theorem Discipline.Follows.ends {M : Machine S W C} {D : Discipline S T} {φ : W → Prop} {i : Nat}
    {R : T → W → Prop} (hφ : ∀ t w, R t w → φ w)
    (hsees : ∀ t o (c : C) w, R t w → D.pre t o → M.allow o w → D.sees t o (M.exec i o c w).1)
    (hstep : ∀ t o (c : C) w, R t w → D.pre t o → M.allow o w →
      R (D.next t o (M.exec i o c w).1) (M.exec i o c w).2)
    (hdrift : ∀ t w w', R t w → M.drift w w' → R t w') {p : Prog S α} {t : T} {w : W}
    {Q : T → α → Prop} (hw : R t w) (h : D.Follows p t Q) :
    M.Ends φ i p (fun a w' => ∃ t', R t' w' ∧ Q t' a) w := by
  induction p generalizing t w with
  | pure a => exact ⟨t, hw, h⟩
  | step o k ih =>
    intro w₁ hd
    have hw₁ : R t w₁ := by
      induction hd with
      | refl => exact hw
      | tail _ hd ih => exact hdrift _ _ _ ih hd
    refine ⟨hφ t w₁ hw₁, fun ha c => ?_⟩
    exact ih _ (hstep t o c w₁ hw₁ h.1 ha) (h.2 _ (hsees t o c w₁ hw₁ h.1 ha))

/-- **A program that keeps to a discipline, alone in a world that an outline is about.** -/
theorem Outline.ends {M : Machine S W C} {D : Discipline S T} {t₀ : T} (O : Outline M D t₀)
    {φ : W → Prop} (hφ : ∀ w, O.inv w → φ w) {p : Prog S α} {i : Nat} {t : T} {w : W}
    {Q : T → α → Prop} (hw : O.inv w) (ho : O.own i t w) (h : D.Follows p t Q) :
    M.Ends φ i p (fun a w' => O.inv w' ∧ ∃ t', O.own i t' w' ∧ Q t' a) w := by
  induction p generalizing t w with
  | pure a => exact ⟨hw, t, ho, h⟩
  | step o k ih =>
    intro w₁ hd
    have hw₁ : O.inv w₁ ∧ O.own i t w₁ := by
      induction hd with
      | refl => exact ⟨hw, ho⟩
      | tail _ hd ih => exact ⟨O.inv_drift ih.1 hd, O.own_drift ih.1 ih.2 hd⟩
    refine ⟨hφ w₁ hw₁.1, fun ha c => ?_⟩
    exact ih _ (O.inv_step c hw₁.1 hw₁.2 h.1 ha) (O.own_step c hw₁.1 hw₁.2 h.1 ha)
      (h.2 _ (O.sees c hw₁.1 hw₁.2 h.1 ha))

/-- **An outline along a serial run of programs that keep to the discipline.** -/
theorem Outline.serial {M : Machine S W C} {D : Discipline S T} {t₀ : T} (O : Outline M D t₀)
    {starts : Prog S α → Prop} {w w' : W} (hown : ∀ i w, O.inv w → O.own i t₀ w)
    (hstart : ∀ p, starts p → D.Follows p t₀ (fun _ _ => True)) (hw : O.inv w)
    (h : M.Serial starts w w') : O.inv w' :=
  h.stays (fun _ _ => O.inv_drift) (fun i p w hp hw =>
    (O.ends (fun _ h => h) hw (hown i w hw) (hstart p hp)).mono fun _ _ h => h.1) hw

/-- The same for a run whose outcomes are a function of the world. -/
theorem Outline.outcome {M : Machine S W C} {D : Discipline S T} {t₀ : T} (O : Outline M D t₀)
    (hallow : ∀ o w, M.allow o w) {choose : S.Op → W → C} {p : Prog S α} {i : Nat} {t : T} {w : W}
    {Q : T → α → Prop} (hw : O.inv w) (ho : O.own i t w) (h : D.Follows p t Q) :
    O.inv (M.outcome choose i p w).2 := by
  induction p generalizing t w with
  | pure a => exact hw
  | step o k ih =>
    have ha := hallow o w
    exact ih _ (O.inv_step _ hw ho h.1 ha) (O.own_step _ hw ho h.1 ha)
      (h.2 _ (O.sees _ hw ho h.1 ha))

end Conc
