import RozeDtm.Conc.Prog

/-!
# Interleaved runs of programs

A `Machine` says what each atomic step does to the world.  A `Pool` is a world
together with the programs that are under way in it, by number.  `Machine.Step`
is one move of the whole: a program is started, a program takes its next atomic
step, a program is cut off (a crash, or a step that failed to come back: its
local state is gone, the world stays), or the world drifts by itself (the clock).
`Machine.Run` is any number of moves, so a run is any interleaving of any number
of programs with any cut-offs.

What a step does may depend on a `C`, the outcome that the outside world picks;
once it is picked the step is a function, and `Machine.perform?` computes a run
from a list of moves.  `Machine.Goes` is one program running alone, to its end or
to a cut-off.

`allow` restricts the steps: a statement about the runs of `M.restrict allow` is a
statement about the runs in which every step meets `allow` in the state before it.
-/

namespace Conc

variable {S : Sig} {W C α : Type}

/-- What the atomic steps of `S` do to a world `W`, when the outside picks a `C`.
The first argument is the number of the program that takes the step; it is for
the world's own records. -/
structure Machine (S : Sig) (W C : Type) where
  exec : Nat → (o : S.Op) → C → W → S.Reply o × W
  drift : W → W → Prop
  allow : S.Op → W → Prop

/-- The same machine, taking only the steps that meet `allow`. -/
def Machine.restrict (M : Machine S W C) (allow : S.Op → W → Prop) : Machine S W C :=
  { M with allow := fun o w => M.allow o w ∧ allow o w }

instance {M : Machine S W C} {allow : S.Op → W → Prop} [∀ o w, Decidable (M.allow o w)]
    [∀ o w, Decidable (allow o w)] (o : S.Op) (w : W) :
    Decidable ((M.restrict allow).allow o w) :=
  inferInstanceAs (Decidable (M.allow o w ∧ allow o w))

/-- A world and the programs under way in it; `none` is a program that was cut off. -/
structure Pool (S : Sig) (W α : Type) where
  world : W
  threads : List (Option (Prog S α))

/-- One move of the pool; `starts` says which programs may be started. -/
inductive Machine.Step (M : Machine S W C) (starts : Prog S α → Prop) :
    Pool S W α → Pool S W α → Prop
  | start {w : W} {ts : List (Option (Prog S α))} (p : Prog S α) (h : starts p) :
      Step M starts ⟨w, ts⟩ ⟨w, ts ++ [some p]⟩
  | exec {w : W} {ts : List (Option (Prog S α))} (i : Nat) (o : S.Op) (k : S.Reply o → Prog S α)
      (c : C) (h : ts[i]? = some (some (.step o k))) (ha : M.allow o w) :
      Step M starts ⟨w, ts⟩
        ⟨(M.exec i o c w).2, ts.set i (some (k (M.exec i o c w).1))⟩
  | cut {w : W} {ts : List (Option (Prog S α))} (i : Nat) :
      Step M starts ⟨w, ts⟩ ⟨w, ts.set i none⟩
  | drift {w w' : W} {ts : List (Option (Prog S α))} (h : M.drift w w') :
      Step M starts ⟨w, ts⟩ ⟨w', ts⟩

/-- Any number of moves. -/
def Machine.Run (M : Machine S W C) (starts : Prog S α → Prop) :
    Pool S W α → Pool S W α → Prop :=
  Relation.ReflTransGen (M.Step starts)

/-- The pool before anything was started. -/
def Pool.idle (w : W) : Pool S W α := ⟨w, []⟩

/-- The pools that a run from an idle pool over `w` can reach. -/
def Machine.Reaches (M : Machine S W C) (starts : Prog S α → Prop) (w : W) (P : Pool S W α) :
    Prop :=
  M.Run starts (Pool.idle w) P

theorem Machine.Reaches.refl (M : Machine S W C) (starts : Prog S α → Prop) (w : W) :
    M.Reaches starts w (Pool.idle w) := Relation.ReflTransGen.refl

theorem Machine.Reaches.step {M : Machine S W C} {starts : Prog S α → Prop} {w : W}
    {P Q : Pool S W α} (h : M.Reaches starts w P) (hs : M.Step starts P Q) :
    M.Reaches starts w Q := Relation.ReflTransGen.tail h hs

theorem Machine.Reaches.run {M : Machine S W C} {starts : Prog S α → Prop} {w : W}
    {P Q : Pool S W α} (h : M.Reaches starts w P) (hs : M.Run starts P Q) :
    M.Reaches starts w Q := Relation.ReflTransGen.trans h hs

theorem Machine.Reaches.start {M : Machine S W C} {starts : Prog S α → Prop} {w w' : W}
    {ts : List (Option (Prog S α))} (h : M.Reaches starts w ⟨w', ts⟩) {p : Prog S α}
    (hp : starts p) : M.Reaches starts w ⟨w', ts ++ [some p]⟩ := h.step (.start p hp)

theorem Machine.Reaches.exec {M : Machine S W C} {starts : Prog S α → Prop} {w w' : W}
    {ts : List (Option (Prog S α))} (h : M.Reaches starts w ⟨w', ts⟩) (i : Nat) (c : C)
    {o : S.Op} {k : S.Reply o → Prog S α} (hi : ts[i]? = some (some (.step o k)))
    (ha : M.allow o w') :
    M.Reaches starts w ⟨(M.exec i o c w').2, ts.set i (some (k (M.exec i o c w').1))⟩ :=
  h.step (.exec i o k c hi ha)

theorem Machine.Step.mono {M : Machine S W C} {starts starts' : Prog S α → Prop}
    {P Q : Pool S W α} (hs : M.Step starts P Q) (h : ∀ p, starts p → starts' p) :
    M.Step starts' P Q := by
  cases hs with
  | start p hp => exact .start p (h p hp)
  | exec i o k c hi ha => exact .exec i o k c hi ha
  | cut i => exact .cut i
  | drift hd => exact .drift hd

/-- What more programs can reach. -/
theorem Machine.Reaches.mono {M : Machine S W C} {starts starts' : Prog S α → Prop} {w : W}
    {P : Pool S W α} (hr : M.Reaches starts w P) (h : ∀ p, starts p → starts' p) :
    M.Reaches starts' w P :=
  Relation.ReflTransGen.mono (fun _ _ hs => hs.mono h) _ _ hr

/-- A program is started and takes its first step. -/
theorem Machine.Run.startExec {M : Machine S W C} {starts : Prog S α → Prop} {w : W}
    {ts : List (Option (Prog S α))} (c : C) {o : S.Op} {k : S.Reply o → Prog S α}
    (hp : starts (.step o k)) (ha : M.allow o w) :
    M.Run starts ⟨w, ts⟩ ⟨(M.exec ts.length o c w).2,
      ts ++ [some (k (M.exec ts.length o c w).1)]⟩ := by
  have hi : (ts ++ [some (Prog.step o k)])[ts.length]? = some (some (.step o k)) := by simp
  have hexec := @Machine.Step.exec S W C α M starts w _ ts.length o k c hi ha
  rw [List.set_append_right _ _ (Nat.le_refl _), Nat.sub_self, List.set_cons_zero] at hexec
  exact .head (.start _ hp) (.single hexec)

/-! ### What a move does -/

/-- Program `i` is about to take the step `o`. -/
def Pool.AboutTo (P : Pool S W α) (i : Nat) (o : S.Op) : Prop :=
  ∃ k : S.Reply o → Prog S α, P.threads[i]? = some (some (.step o k))

/-- What a program that is under way after a move was before it: the same, a program that was
not started yet, or the one that took the step. -/
theorem Machine.Step.thread {M : Machine S W C} {starts : Prog S α → Prop} {P Q : Pool S W α}
    (hs : M.Step starts P Q) {j : Nat} {q : Prog S α} (hq : Q.threads[j]? = some (some q)) :
    P.threads[j]? = some (some q) ∨ starts q ∨
    ∃ o k c, P.threads[j]? = some (some (.step o k)) ∧ M.allow o P.world ∧
      Q.world = (M.exec j o c P.world).2 ∧ q = k (M.exec j o c P.world).1 := by
  cases hs with
  | @start w ts p hp =>
    rcases Nat.lt_or_ge j ts.length with hlt | hge
    · rw [List.getElem?_append_left hlt] at hq
      exact Or.inl hq
    · rw [List.getElem?_append_right hge, List.getElem?_singleton] at hq
      split at hq
      · cases hq
        exact Or.inr (Or.inl hp)
      · cases hq
  | @exec w ts i o k c hi ha =>
    by_cases hji : j = i
    · subst hji
      rw [List.getElem?_set_self (List.getElem?_eq_some_iff.mp hi).1] at hq
      cases hq
      exact Or.inr (Or.inr ⟨o, k, c, hi, ha, rfl, rfl⟩)
    · rw [List.getElem?_set_ne (Ne.symm hji)] at hq
      exact Or.inl hq
  | @cut w ts i =>
    by_cases hji : j = i
    · subst hji
      rw [List.getElem?_set] at hq
      simp only [if_true] at hq
      split at hq <;> cases hq
    · rw [List.getElem?_set_ne (Ne.symm hji)] at hq
      exact Or.inl hq
  | drift hd => exact Or.inl hq

/-- What a move makes of the world. -/
theorem Machine.Step.world {M : Machine S W C} {starts : Prog S α → Prop} {P Q : Pool S W α}
    (hs : M.Step starts P Q) : Q.world = P.world ∨ M.drift P.world Q.world ∨
    ∃ i o c, P.AboutTo i o ∧ M.allow o P.world ∧ Q.world = (M.exec i o c P.world).2 := by
  cases hs with
  | start p hp => exact Or.inl rfl
  | exec i o k c hi ha => exact Or.inr (Or.inr ⟨i, o, c, ⟨k, hi⟩, ha, rfl⟩)
  | cut i => exact Or.inl rfl
  | drift hd => exact Or.inr (Or.inl hd)

/-! ### Computing a run -/

/-- A move as data.  `A` names the programs that can be started. -/
inductive Move (A C : Type)
  | start (a : A)
  | exec (i : Nat) (c : C)
  | cut (i : Nat)

variable {A : Type}

/-- Do one move: `none` when the program it names has no next step, or when the
step is not allowed. -/
def Machine.perform? (M : Machine S W C) [∀ o w, Decidable (M.allow o w)] (prog : A → Prog S α)
    (P : Pool S W α) : Move A C → Option (Pool S W α)
  | .start a => some ⟨P.world, P.threads ++ [some (prog a)]⟩
  | .exec i c =>
    match P.threads[i]? with
    | some (some (.step o k)) =>
      if M.allow o P.world then
        some ⟨(M.exec i o c P.world).2,
          P.threads.set i (some (k (M.exec i o c P.world).1))⟩
      else none
    | _ => none
  | .cut i => some ⟨P.world, P.threads.set i none⟩

/-- Do the moves of a list, one after another. -/
def Machine.performAll? (M : Machine S W C) [∀ o w, Decidable (M.allow o w)] (prog : A → Prog S α) :
    Pool S W α → List (Move A C) → Option (Pool S W α)
  | P, [] => some P
  | P, m :: ms => (M.perform? prog P m).bind fun Q => M.performAll? prog Q ms

section Compute

variable {M : Machine S W C} [∀ o w, Decidable (M.allow o w)] {prog : A → Prog S α}
  {starts : A → Prop}

theorem Machine.step_of_perform? {P Q : Pool S W α} {m : Move A C}
    (hm : ∀ a, m = .start a → starts a) (h : M.perform? prog P m = some Q) :
    M.Step (fun p => ∃ a, starts a ∧ p = prog a) P Q := by
  cases m with
  | start a =>
    simp only [Machine.perform?, Option.some.injEq] at h
    subst h
    exact .start _ ⟨a, hm a rfl, rfl⟩
  | exec i c =>
    simp only [Machine.perform?] at h
    split at h
    · rename_i o k ht
      split at h
      · rename_i ha
        simp only [Option.some.injEq] at h
        subst h
        exact .exec i o k c ht ha
      · exact absurd h (by simp)
    · exact absurd h (by simp)
  | cut i =>
    simp only [Machine.perform?, Option.some.injEq] at h
    subst h
    exact .cut i

/-- **A computed run is a run.** -/
theorem Machine.run_of_performAll? {ms : List (Move A C)}
    (hms : ∀ a, Move.start a ∈ ms → starts a) : ∀ {P Q : Pool S W α},
      M.performAll? prog P ms = some Q → M.Run (fun p => ∃ a, starts a ∧ p = prog a) P Q := by
  induction ms with
  | nil =>
    intro P Q h
    simp only [Machine.performAll?, Option.some.injEq] at h
    subst h
    exact .refl
  | cons m ms ih =>
    intro P Q h
    simp only [Machine.performAll?, Option.bind_eq_some_iff] at h
    obtain ⟨R, h1, h2⟩ := h
    refine .head (Machine.step_of_perform? (fun a ha => hms a ?_) h1)
      (ih (fun a ha => hms a (.tail _ ha)) h2)
    rw [ha]
    exact .head _

/-- A run computed to a world with property `φ` reaches a pool with that property. -/
theorem Machine.exists_of_performAll? {w : W} {ms : List (Move A C)} {φ : W → Bool}
    (hms : ∀ a, Move.start a ∈ ms → starts a)
    (h : ((M.performAll? prog (Pool.idle w) ms).any fun P => φ P.world) = true) :
    ∃ P : Pool S W α, M.Reaches (fun p => ∃ a, starts a ∧ p = prog a) w P ∧
      φ P.world = true := by
  rw [Option.any_eq_true] at h
  obtain ⟨P, hP, hφ⟩ := h
  exact ⟨P, Machine.run_of_performAll? hms hP, hφ⟩

/-- The same for a run in two parts. -/
theorem Machine.exists_later_of_performAll? {w : W} {ms ms' : List (Move A C)} {φ ψ : W → Bool}
    (hms : ∀ a, Move.start a ∈ ms ++ ms' → starts a)
    (h : ((M.performAll? prog (Pool.idle w) ms).any fun P => φ P.world &&
      (M.performAll? prog P ms').any fun Q => ψ Q.world) = true) :
    ∃ P Q : Pool S W α, M.Reaches (fun p => ∃ a, starts a ∧ p = prog a) w P ∧
      M.Run (fun p => ∃ a, starts a ∧ p = prog a) P Q ∧ φ P.world = true ∧ ψ Q.world = true := by
  rw [Option.any_eq_true] at h
  obtain ⟨P, hP, h⟩ := h
  rw [Bool.and_eq_true, Option.any_eq_true] at h
  obtain ⟨hφ, Q, hQ, hψ⟩ := h
  exact ⟨P, Q, Machine.run_of_performAll? (fun a ha => hms a (List.mem_append_left _ ha)) hP,
    Machine.run_of_performAll? (fun a ha => hms a (List.mem_append_right _ ha)) hQ, hφ, hψ⟩

/-- The same for a run in two parts with a drift between them, to a pool with property `φ`. -/
theorem Machine.exists_drifted_of_performAll? {w : W} {ms ms' : List (Move A C)} {d : W → W}
    {φ : Pool S W α → Bool} (hd : ∀ w, M.drift w (d w))
    (hms : ∀ a, Move.start a ∈ ms ++ ms' → starts a)
    (h : ((M.performAll? prog (Pool.idle w) ms).any fun P =>
      (M.performAll? prog ⟨d P.world, P.threads⟩ ms').any φ) = true) :
    ∃ P : Pool S W α, M.Reaches (fun p => ∃ a, starts a ∧ p = prog a) w P ∧ φ P = true := by
  rw [Option.any_eq_true] at h
  obtain ⟨P, hP, h⟩ := h
  rw [Option.any_eq_true] at h
  obtain ⟨Q, hQ, hφ⟩ := h
  have hfirst := Machine.run_of_performAll? (fun a ha => hms a (List.mem_append_left _ ha)) hP
  have hdrift : M.Step (fun p => ∃ a, starts a ∧ p = prog a) P ⟨d P.world, P.threads⟩ :=
    .drift (hd P.world)
  exact ⟨Q, (hfirst.tail hdrift).trans
    (Machine.run_of_performAll? (fun a ha => hms a (List.mem_append_right _ ha)) hQ), hφ⟩

end Compute

/-! ### One program alone -/

/-- `M.Goes i p w a w'`: program `p`, running alone as number `i`, takes `w` to `w'`.
It ends with `a = some _`, or is cut off on the way, `a = none`.  The world may
drift between its steps. -/
inductive Machine.Goes (M : Machine S W C) (i : Nat) : Prog S α → W → Option α → W → Prop
  | done (a : α) (w : W) : Goes M i (.pure a) w (some a) w
  | cut (p : Prog S α) (w : W) : Goes M i p w none w
  | step {o : S.Op} {k : S.Reply o → Prog S α} {w w' : W} {a : Option α} (c : C)
      (ha : M.allow o w) (h : Goes M i (k (M.exec i o c w).1) (M.exec i o c w).2 a w') :
      Goes M i (.step o k) w a w'
  | drift {p : Prog S α} {w w' w'' : W} {a : Option α} (hd : M.drift w w')
      (h : Goes M i p w' a w'') : Goes M i p w a w''

end Conc
