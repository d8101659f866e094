import RozeDtm.Conc.Discipline
import RozeDtm.Conc.Pool

/-!
# Programs that take turns

`M.Turns` are the runs in which a program is started only when all the others have ended or
were cut off, so that at every point at most one is under way.  Unlike `M.Serial` they show
the program under way, with the step that it is about to take, and a run can be split at any
point.

A `Solo` is an outline for such runs: there is nobody else whose assertion a step could
break.
-/

namespace Conc

variable {S : Sig} {W C T α : Type}

/-- No program is under way. -/
def Pool.Over (P : Pool S W α) : Prop :=
  ∀ (i : Nat) (p : Prog S α), P.threads[i]? = some (some p) → ∃ a, p = .pure a

/-- One move in a run of programs that take turns. -/
def Machine.Turn (M : Machine S W C) (starts : Prog S α → Prop) (P Q : Pool S W α) : Prop :=
  M.Step (fun p => starts p ∧ P.Over) P Q

/-- Any number of them. -/
def Machine.Turns (M : Machine S W C) (starts : Prog S α → Prop) :
    Pool S W α → Pool S W α → Prop :=
  Relation.ReflTransGen (M.Turn starts)

section Moves

variable {M : Machine S W C} {starts : Prog S α → Prop} {P Q : Pool S W α}

theorem Machine.Turns.start (h : M.Turns starts P Q) {p : Prog S α} (hp : starts p)
    (hover : Q.Over) : M.Turns starts P ⟨Q.world, Q.threads ++ [some p]⟩ :=
  h.tail (.start p ⟨hp, hover⟩)

theorem Machine.Turns.exec (h : M.Turns starts P Q) {i : Nat} {o : S.Op}
    {k : S.Reply o → Prog S α} (hi : Q.threads[i]? = some (some (.step o k)))
    (ha : M.allow o Q.world) (c : C) {r : S.Reply o} {w : W}
    (he : M.exec i o c Q.world = (r, w)) :
    M.Turns starts P ⟨w, Q.threads.set i (some (k r))⟩ := by
  refine h.tail ?_
  have hs : M.Turn starts Q _ := .exec i o k c hi ha
  rwa [he] at hs

theorem Machine.Turns.drift (h : M.Turns starts P Q) {w : W} (hd : M.drift Q.world w) :
    M.Turns starts P ⟨w, Q.threads⟩ := h.tail (.drift hd)

end Moves

/-! ### Computing a run -/

section Compute

variable {A : Type} (M : Machine S W C) [∀ o w, Decidable (M.allow o w)] (prog : A → Prog S α)

/-- Whether a program has ended or was cut off. -/
def over? : Option (Prog S α) → Bool
  | none | some (.pure _) => true
  | some (.step _ _) => false

/-- Do one move; a program is started when the others are over. -/
def Machine.turn? (P : Pool S W α) : Move A C → Option (Pool S W α)
  | .start a => if P.threads.all over? then M.perform? prog P (.start a) else none
  | m => M.perform? prog P m

/-- Do the moves of a list, one after another. -/
def Machine.turnAll? : Pool S W α → List (Move A C) → Option (Pool S W α)
  | P, [] => some P
  | P, m :: ms => (M.turn? prog P m).bind fun Q => turnAll? Q ms

variable {M prog}

theorem Pool.over_of_all {P : Pool S W α} (h : P.threads.all over? = true) : P.Over := by
  intro i p hp
  have hone := List.all_eq_true.mp h _ (List.mem_of_getElem? hp)
  cases p with
  | pure a => exact ⟨a, rfl⟩
  | step o k => cases hone

theorem Machine.turn_of_turn? {starts : A → Prop} {P Q : Pool S W α} {m : Move A C}
    (hm : ∀ a, m = .start a → starts a) (h : M.turn? prog P m = some Q) :
    M.Turn (fun p => ∃ a, starts a ∧ p = prog a) P Q := by
  cases m with
  | start a =>
    rw [Machine.turn?] at h
    split at h
    · rename_i hover
      cases h
      exact .start _ ⟨⟨a, hm a rfl, rfl⟩, Pool.over_of_all hover⟩
    · cases h
  | exec i c =>
    have hno : ∀ a : A, (.exec i c : Move A C) = .start a → False := fun _ h => nomatch h
    have hperform : M.perform? prog P (.exec i c) = some Q := h
    cases Machine.step_of_perform? hno hperform with
    | start p hp => exact hp.elim fun _ hp => hp.1.elim
    | exec i o k c hi ha => exact .exec i o k c hi ha
    | cut i => exact .cut i
    | drift hd => exact .drift hd
  | cut i =>
    cases h
    exact .cut i

/-- **A computed run is a run.** -/
theorem Machine.turns_of_turnAll? {starts : A → Prop} {ms : List (Move A C)}
    (hms : ∀ a, Move.start a ∈ ms → starts a) {P Q : Pool S W α}
    (h : M.turnAll? prog P ms = some Q) :
    M.Turns (fun p => ∃ a, starts a ∧ p = prog a) P Q := by
  induction ms generalizing P with
  | nil =>
    cases h
    exact .refl
  | cons m ms ih =>
    obtain ⟨R, h1, h2⟩ := Option.bind_eq_some_iff.mp h
    refine .head (Machine.turn_of_turn? (fun a ha => hms a ?_) h1)
      (ih (fun a ha => hms a (.tail _ ha)) h2)
    rw [ha]
    exact .head _

end Compute

/-! ### Outlines for programs that take turns -/

/-- An invariant `inv` of the world, and an assertion `own t` that ties the session `t` of the
program under way to the world. -/
structure Solo (M : Machine S W C) (D : Discipline S T) (t₀ : T) where
  inv : W → Prop
  own : T → W → Prop
  own_start : ∀ {w}, inv w → own t₀ w
  sees : ∀ {w i t o} (c : C), inv w → own t w → D.pre t o → M.allow o w →
    D.sees t o (M.exec i o c w).1
  inv_step : ∀ {w i t o} (c : C), inv w → own t w → D.pre t o → M.allow o w →
    inv (M.exec i o c w).2
  own_step : ∀ {w i t o} (c : C), inv w → own t w → D.pre t o → M.allow o w →
    own (D.next t o (M.exec i o c w).1) (M.exec i o c w).2
  inv_drift : ∀ {w w'}, inv w → M.drift w w' → inv w'
  own_drift : ∀ {w w' t}, inv w → own t w → M.drift w w' → own t w'

namespace Solo

variable {M : Machine S W C} {D : Discipline S T} {t₀ : T} (O : Solo M D t₀)

/-- The invariant holds, and the program under way, if there is one, has a session that its
assertion ties to the world and from which it follows the discipline. -/
def Good (P : Pool S W α) : Prop :=
  O.inv P.world ∧ ∃ turn : Nat,
    (∀ (i : Nat) (p : Prog S α), i ≠ turn → P.threads[i]? = some (some p) → ∃ a, p = .pure a) ∧
    ∀ p : Prog S α, P.threads[turn]? = some (some p) →
      ∃ t, O.own t P.world ∧ D.Follows p t (fun _ _ => True)

variable {O}

theorem good_idle {w : W} (hw : O.inv w) : O.Good (Pool.idle w : Pool S W α) :=
  ⟨hw, 0, fun i p _ h => by simp [Pool.idle] at h, fun p h => by simp [Pool.idle] at h⟩

/-- The step that the program under way is about to take is one that its session permits. -/
theorem Good.pre {P : Pool S W α} (hP : O.Good P) {i : Nat} {o : S.Op} {k : S.Reply o → Prog S α}
    (hi : P.threads[i]? = some (some (.step o k))) :
    ∃ t, O.own t P.world ∧ D.pre t o ∧
      ∀ r, D.sees t o r → D.Follows (k r) (D.next t o r) (fun _ _ => True) := by
  obtain ⟨-, turn, hover, hfol⟩ := hP
  by_cases hit : i = turn
  · subst hit
    obtain ⟨t, ho, hp, hk⟩ := hfol _ hi
    exact ⟨t, ho, hp, hk⟩
  · obtain ⟨a, ha⟩ := hover i _ hit hi
    cases ha

/-- **One move keeps a pool good.** -/
theorem Good.turn {starts : Prog S α → Prop} {P Q : Pool S W α} (hP : O.Good P)
    (hstart : ∀ p, starts p → D.Follows p t₀ (fun _ _ => True)) (hs : M.Turn starts P Q) :
    O.Good Q := by
  cases hs with
  | @start w ts p hp =>
    -- all others are over: the turn goes to the program that is started
    refine ⟨hP.1, ts.length, fun i q hi hq => ?_, fun q hq => ?_⟩
    · rcases Nat.lt_or_ge i ts.length with hlt | hge
      · rw [List.getElem?_append_left hlt] at hq
        exact hp.2 i q hq
      · rw [List.getElem?_eq_none (by simp only [List.length_append, List.length_singleton]; omega)]
          at hq
        cases hq
    · rw [List.getElem?_append_right (Nat.le_refl _), Nat.sub_self] at hq
      cases hq
      exact ⟨t₀, O.own_start hP.1, hstart p hp.1⟩
  | @exec w ts i o k c hi ha =>
    have hlt : i < ts.length := (List.getElem?_eq_some_iff.mp hi).1
    obtain ⟨t, ho, hp, hk⟩ := hP.pre hi
    obtain ⟨hinv, turn, hover, -⟩ := hP
    have hit : i = turn := by
      by_cases hit : i = turn
      · exact hit
      · obtain ⟨a, ha⟩ := hover i _ hit hi
        cases ha
    subst hit
    refine ⟨O.inv_step c hinv ho hp ha, i, fun j q hj hq => ?_, fun q hq => ?_⟩
    · rw [List.getElem?_set_ne (Ne.symm hj)] at hq
      exact hover j q hj hq
    · rw [List.getElem?_set_self hlt] at hq
      cases hq
      exact ⟨_, O.own_step c hinv ho hp ha, hk _ (O.sees c hinv ho hp ha)⟩
  | @cut w ts i =>
    obtain ⟨hinv, turn, hover, hfol⟩ := hP
    -- a program that is cut off is not under way any more
    have hset (j : Nat) (q : Prog S α) (hq : (ts.set i none)[j]? = some (some q)) :
        ts[j]? = some (some q) := by
      by_cases hji : j = i
      · subst hji
        rw [List.getElem?_set] at hq
        simp only [if_true] at hq
        split at hq <;> cases hq
      · rwa [List.getElem?_set_ne (Ne.symm hji)] at hq
    exact ⟨hinv, turn, fun j q hj hq => hover j q hj (hset j q hq),
      fun q hq => hfol q (hset turn q hq)⟩
  | @drift w w' ts hd =>
    obtain ⟨hinv, turn, hover, hfol⟩ := hP
    refine ⟨O.inv_drift hinv hd, turn, hover, fun p hp => ?_⟩
    obtain ⟨t, ho, hf⟩ := hfol p hp
    exact ⟨t, O.own_drift hinv ho hd, hf⟩

theorem Good.turns {starts : Prog S α → Prop} {P Q : Pool S W α} (hP : O.Good P)
    (hstart : ∀ p, starts p → D.Follows p t₀ (fun _ _ => True)) (hr : M.Turns starts P Q) :
    O.Good Q := by
  induction hr with
  | refl => exact hP
  | tail _ hs ih => exact ih.turn hstart hs

/-- **A property of the world that every permitted step keeps is kept along a run.** -/
theorem Good.stays {starts : Prog S α → Prop} {P Q : Pool S W α} (hP : O.Good P) (φ : W → Prop)
    (hstart : ∀ p, starts p → D.Follows p t₀ (fun _ _ => True))
    (hstep : ∀ {w i t o} (c : C), O.inv w → O.own t w → D.pre t o → M.allow o w → φ w →
      φ (M.exec i o c w).2)
    (hdrift : ∀ {w w'}, O.inv w → M.drift w w' → φ w → φ w')
    (hφ : φ P.world) (hr : M.Turns starts P Q) : φ Q.world := by
  induction hr with
  | refl => exact hφ
  | @tail Q R hr hs ih =>
    have hQ := hP.turns hstart hr
    cases hs with
    | start p hp => exact ih
    | exec i o k c hi ha =>
      obtain ⟨t, ho, hp, -⟩ := hQ.pre hi
      exact hstep c hQ.1 ho hp ha ih
    | cut i => exact ih
    | drift hd => exact hdrift hQ.1 hd ih

end Solo

end Conc
