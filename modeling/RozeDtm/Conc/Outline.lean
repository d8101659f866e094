import Mathlib.Logic.Function.Basic
import RozeDtm.Conc.Discipline
import RozeDtm.Conc.Pool

/-!
# Proof outlines for interleaved programs

An `Outline` is the concurrent side of a discipline.  It has an invariant of the
world and, for each program by number, an assertion that ties its session to the
world.  The proof obligations are about single steps: what a permitted step does to
the invariant, to the assertion of the program that takes it, and to the assertions
of all the others.  `Outline.good_of_reaches` puts the two together: when every
program that can be started follows the discipline, the invariant holds in every
pool that any interleaving reaches.

An outline for a machine is one for the machine with fewer steps allowed
(`Outline.restrict`), and a `Layer` adds an invariant and an assertion to an outline
whose own may be used to prove them.
-/

namespace Conc

variable {S : Sig} {W C T α : Type}

/-- An invariant `inv` of the world and, for the program with number `i` in session
`t`, an assertion `own i t` about the world.  A program that is not started yet
counts as one in session `t₀`. -/
structure Outline (M : Machine S W C) (D : Discipline S T) (t₀ : T) where
  inv : W → Prop
  own : Nat → T → W → Prop
  sees : ∀ {w i t o} (c : C), inv w → own i t w → D.pre t o → M.allow o w →
    D.sees t o (M.exec i o c w).1
  inv_step : ∀ {w i t o} (c : C), inv w → own i t w → D.pre t o → M.allow o w →
    inv (M.exec i o c w).2
  own_step : ∀ {w i t o} (c : C), inv w → own i t w → D.pre t o → M.allow o w →
    own i (D.next t o (M.exec i o c w).1) (M.exec i o c w).2
  own_other : ∀ {w i t o} (c : C) {j u}, inv w → own i t w → D.pre t o → M.allow o w →
    j ≠ i → own j u w → own j u (M.exec i o c w).2
  inv_drift : ∀ {w w'}, inv w → M.drift w w' → inv w'
  own_drift : ∀ {w w' i t}, inv w → own i t w → M.drift w w' → own i t w'

namespace Outline

variable {M : Machine S W C} {D : Discipline S T} {t₀ : T} (O : Outline M D t₀)

/-- The same outline when fewer steps are allowed. -/
def restrict (allow : S.Op → W → Prop) : Outline (M.restrict allow) D t₀ where
  inv := O.inv
  own := O.own
  sees := fun c hi ho hp ha => O.sees c hi ho hp ha.1
  inv_step := fun c hi ho hp ha => O.inv_step c hi ho hp ha.1
  own_step := fun c hi ho hp ha => O.own_step c hi ho hp ha.1
  own_other := fun c _ _ hi ho hp ha => O.own_other c hi ho hp ha.1
  inv_drift := O.inv_drift
  own_drift := O.own_drift

/-- The same outline for a discipline that permits less. -/
def strengthen {E : Discipline S T} (hle : Discipline.Le E D) : Outline M E t₀ where
  inv := O.inv
  own := O.own
  sees := fun c hi ho hp ha => hle.sees (O.sees c hi ho (hle.pre hp) ha)
  inv_step := fun c hi ho hp ha => O.inv_step c hi ho (hle.pre hp) ha
  own_step := fun c hi ho hp ha => by
    rw [← hle.next]
    exact O.own_step c hi ho (hle.pre hp) ha
  own_other := fun c _ _ hi ho hp ha => O.own_other c hi ho (hle.pre hp) ha
  inv_drift := O.inv_drift
  own_drift := O.own_drift

/-- A further invariant and assertion, kept by steps from where those of `O` hold. -/
structure Layer where
  inv : W → Prop
  own : Nat → T → W → Prop
  inv_step : ∀ {w i t o} (c : C), O.inv w → O.own i t w → inv w → own i t w → D.pre t o →
    M.allow o w → inv (M.exec i o c w).2
  own_step : ∀ {w i t o} (c : C), O.inv w → O.own i t w → inv w → own i t w → D.pre t o →
    M.allow o w → own i (D.next t o (M.exec i o c w).1) (M.exec i o c w).2
  own_other : ∀ {w i t o} (c : C) {j u}, O.inv w → O.own i t w → inv w → own i t w →
    D.pre t o → M.allow o w → j ≠ i → O.own j u w → own j u w → own j u (M.exec i o c w).2
  inv_drift : ∀ {w w'}, O.inv w → inv w → M.drift w w' → inv w'
  own_drift : ∀ {w w' i t}, O.inv w → inv w → own i t w → M.drift w w' → own i t w'

/-- An outline with a layer on top. -/
def extend (L : O.Layer) : Outline M D t₀ where
  inv := fun w => O.inv w ∧ L.inv w
  own := fun i t w => O.own i t w ∧ L.own i t w
  sees := fun c hi ho hp ha => O.sees c hi.1 ho.1 hp ha
  inv_step := fun c hi ho hp ha =>
    ⟨O.inv_step c hi.1 ho.1 hp ha, L.inv_step c hi.1 ho.1 hi.2 ho.2 hp ha⟩
  own_step := fun c hi ho hp ha =>
    ⟨O.own_step c hi.1 ho.1 hp ha, L.own_step c hi.1 ho.1 hi.2 ho.2 hp ha⟩
  own_other := fun c _ _ hi ho hp ha hji hj =>
    ⟨O.own_other c hi.1 ho.1 hp ha hji hj.1,
      L.own_other c hi.1 ho.1 hi.2 ho.2 hp ha hji hj.1 hj.2⟩
  inv_drift := fun hi hd => ⟨O.inv_drift hi.1 hd, L.inv_drift hi.1 hi.2 hd⟩
  own_drift := fun hi ho hd =>
    ⟨O.own_drift hi.1 ho.1 hd, L.own_drift hi.1 hi.2 ho.2 hd⟩

/-- The invariant holds, and every program under way has a session that its
assertion ties to the world and from which it follows the discipline. -/
def Good (P : Pool S W α) : Prop :=
  O.inv P.world ∧ ∃ s : Nat → T, (∀ i, O.own i (s i) P.world) ∧
    (∀ i, P.threads.length ≤ i → s i = t₀) ∧
    ∀ (i : Nat) (p : Prog S α), P.threads[i]? = some (some p) →
      D.Follows p (s i) (fun _ _ => True)

variable {O}

theorem good_idle {w : W} (hw : O.inv w) (h : ∀ i, O.own i t₀ w) :
    O.Good (Pool.idle w : Pool S W α) :=
  ⟨hw, fun _ => t₀, h, fun _ _ => rfl, fun i p hp => by simp [Pool.idle] at hp⟩

/-- **One move keeps a pool good.** -/
theorem Good.step {starts : Prog S α → Prop} {P Q : Pool S W α} (hP : O.Good P)
    (hstart : ∀ p, starts p → D.Follows p t₀ (fun _ _ => True)) (hs : M.Step starts P Q) :
    O.Good Q := by
  obtain ⟨hinv, s, hown, hidle, hfol⟩ := hP
  cases hs with
  | @start w ts p hp =>
    refine ⟨hinv, s, hown, fun i hi => hidle i ?_, fun i q hq => ?_⟩
    · simp only [List.length_append, List.length_singleton] at hi
      exact Nat.le_of_succ_le hi
    · rcases Nat.lt_trichotomy i ts.length with hlt | heq | hgt
      · rw [List.getElem?_append_left hlt] at hq
        exact hfol i q hq
      · subst heq
        rw [List.getElem?_append_right (Nat.le_refl _), Nat.sub_self] at hq
        simp only [List.getElem?_cons_zero, Option.some.injEq] at hq
        subst hq
        rw [hidle ts.length (Nat.le_refl _)]
        exact hstart _ hp
      · rw [List.getElem?_eq_none (by simp only [List.length_append, List.length_singleton]; omega)]
          at hq
        exact absurd hq (by simp)
  | @exec w ts i o k c hi ha =>
    have hlt : i < ts.length := (List.getElem?_eq_some_iff.mp hi).1
    obtain ⟨hpre, hk⟩ := hfol i _ hi
    refine ⟨O.inv_step c hinv (hown i) hpre ha,
      Function.update s i (D.next (s i) o (M.exec i o c w).1), fun j => ?_, fun j hj => ?_,
      fun j q hq => ?_⟩
    · by_cases hji : j = i
      · subst hji
        rw [Function.update_self]
        exact O.own_step c hinv (hown j) hpre ha
      · rw [Function.update_of_ne hji]
        exact O.own_other c hinv (hown i) hpre ha hji (hown j)
    · rw [List.length_set] at hj
      rw [Function.update_of_ne (by omega)]
      exact hidle j hj
    · by_cases hji : j = i
      · subst hji
        rw [List.getElem?_set_self hlt] at hq
        simp only [Option.some.injEq] at hq
        subst hq
        rw [Function.update_self]
        exact hk _ (O.sees c hinv (hown j) hpre ha)
      · rw [List.getElem?_set_ne (Ne.symm hji)] at hq
        rw [Function.update_of_ne hji]
        exact hfol j q hq
  | @cut w ts i =>
    refine ⟨hinv, s, hown, fun j hj => hidle j (by simpa using hj), fun j q hq => ?_⟩
    by_cases hji : j = i
    · subst hji
      rw [List.getElem?_set] at hq
      simp only [if_true] at hq
      split at hq <;> exact absurd hq (by simp)
    · rw [List.getElem?_set_ne (Ne.symm hji)] at hq
      exact hfol j q hq
  | @drift w w' ts hd =>
    exact ⟨O.inv_drift hinv hd, s, fun i => O.own_drift hinv (hown i) hd, hidle, hfol⟩

theorem Good.run {starts : Prog S α → Prop} {P Q : Pool S W α} (hP : O.Good P)
    (hstart : ∀ p, starts p → D.Follows p t₀ (fun _ _ => True)) (hr : M.Run starts P Q) :
    O.Good Q := by
  induction hr with
  | refl => exact hP
  | tail _ hs ih => exact ih.step hstart hs

/-- **The invariant holds in every pool that a run reaches.** -/
theorem good_of_reaches (O : Outline M D t₀) {starts : Prog S α → Prop} {w : W} {P : Pool S W α}
    (hw : O.inv w) (ho : ∀ i, O.own i t₀ w)
    (hstart : ∀ p, starts p → D.Follows p t₀ (fun _ _ => True)) (h : M.Reaches starts w P) :
    O.Good P := (good_idle hw ho).run hstart h

/-- A property of the world that every permitted step keeps is kept along a run. -/
theorem Good.stays {starts : Prog S α → Prop} {P Q : Pool S W α} (hP : O.Good P) (φ : W → Prop)
    (hstart : ∀ p, starts p → D.Follows p t₀ (fun _ _ => True))
    (hstep : ∀ {w i t o} (c : C), O.inv w → O.own i t w → D.pre t o → M.allow o w → φ w →
      φ (M.exec i o c w).2)
    (hdrift : ∀ {w w'}, O.inv w → M.drift w w' → φ w → φ w')
    (hφ : φ P.world) (hr : M.Run starts P Q) : φ Q.world := by
  induction hr with
  | refl => exact hφ
  | @tail Q R hr hs ih =>
    obtain ⟨hinv, s, hown, -, hfol⟩ := hP.run hstart hr
    cases hs with
    | start p hp => exact ih
    | exec i o k c hi ha => exact hstep c hinv (hown i) (hfol i _ hi).1 ha ih
    | cut i => exact ih
    | drift hd => exact hdrift hinv hd ih

end Outline

end Conc
