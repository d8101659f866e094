import Mathlib.Data.List.Nodup
import RozeDtm.Conc.Pool

/-!
# Runs with one deciding step

A `Trace` is a run with all the pools that it went through.  `Linearizes` says that the programs
that have returned can be put in one order: an order in which their effects on a state of the
world follow each other (`Replays`), and in which a program that had returned before another was
started comes before it.

`Trace.exists_linearizes` is the rule for programs whose effect is in the last step that they
take: if every step is either `Silent` or such a `Point`, the order of the last steps is one.
-/

namespace Conc

variable {S : Sig} {W C α σ : Type}

/-- A run from the idle pool over `w`, with the pools that it went through, the latest first. -/
inductive Machine.Trace (M : Machine S W C) (starts : Prog S α → Prop) (w : W) :
    List (Pool S W α) → Pool S W α → Prop
  | idle : Trace M starts w [Pool.idle w] (Pool.idle w)
  | step {ps : List (Pool S W α)} {P Q : Pool S W α} (h : Trace M starts w ps P)
      (hs : M.Step starts P Q) : Trace M starts w (Q :: ps) Q

/-- Program `i` has returned `a`. -/
def Pool.Returned (P : Pool S W α) (i : Nat) (a : α) : Prop :=
  P.threads[i]? = some (some (.pure a))

/-- What program `i` has returned. -/
def Pool.result? (P : Pool S W α) (i : Nat) : Option α :=
  match P.threads[i]? with
  | some (some (.pure a)) => some a
  | _ => none

theorem Pool.result?_eq_some {P : Pool S W α} {i : Nat} {a : α} :
    P.result? i = some a ↔ P.Returned i a := by
  unfold Pool.result? Pool.Returned
  constructor
  · intro h
    split at h
    · rename_i b hb
      cases h
      exact hb
    · cases h
  · intro h
    rw [h]

theorem Pool.result?_eq_none {P : Pool S W α} {i : Nat} (h : P.threads[i]? = some none) :
    P.result? i = none := by
  unfold Pool.result?
  rw [h]

/-- The states that a list of returned values leads through, one after another. -/
def Replays (after : α → σ → σ → Prop) : σ → List α → σ → Prop
  | s, [], s' => s = s'
  | s, a :: rest, s' => ∃ mid, after a s mid ∧ Replays after mid rest s'

theorem Replays.append {after : α → σ → σ → Prop} {s mid s' : σ} {as bs : List α}
    (h : Replays after s as mid) (h' : Replays after mid bs s') :
    Replays after s (as ++ bs) s' := by
  induction as generalizing s with
  | nil =>
    obtain rfl : s = mid := h
    exact h'
  | cons a as ih =>
    obtain ⟨next, hnext, h⟩ := h
    exact ⟨next, hnext, ih h⟩

theorem Replays.split {after : α → σ → σ → Prop} {s s' : σ} {as bs : List α}
    (h : Replays after s (as ++ bs) s') : ∃ mid, Replays after s as mid ∧ Replays after mid bs s' := by
  induction as generalizing s with
  | nil => exact ⟨s, rfl, h⟩
  | cons a as ih =>
    obtain ⟨next, hnext, h⟩ := h
    obtain ⟨mid, has, hbs⟩ := ih h
    exact ⟨mid, ⟨next, hnext, has⟩, hbs⟩

theorem Replays.mono {after after' : α → σ → σ → Prop}
    (hafter : ∀ a s s', after a s s' → after' a s s') {s s' : σ} {as : List α}
    (h : Replays after s as s') : Replays after' s as s' := by
  induction as generalizing s with
  | nil => exact h
  | cons a as ih =>
    obtain ⟨mid, hmid, h⟩ := h
    exact ⟨mid, hafter a s mid hmid, ih h⟩

/-- `order` is an order of the programs that have returned a value with `ret`, with these
values. -/
structure Linearizes (ret : α → Prop) (after : α → σ → σ → Prop) (abs : W → σ) (w : W)
    (ps : List (Pool S W α)) (P : Pool S W α) (order : List (Nat × α)) : Prop where
  unique : (order.map Prod.fst).Nodup
  returned : ∀ i a, (i, a) ∈ order ↔ ret a ∧ ∃ R ∈ ps, R.Returned i a
  realTime : ∀ R ∈ ps, ∀ i j a b, R.Returned i a → R.threads.length ≤ j → (i, a) ∈ order →
    (j, b) ∈ order → [i, j].Sublist (order.map Prod.fst)
  replays : Replays after (abs w) (order.map Prod.snd) (abs P.world)

/-- In an order, what is before `i` stands before it. -/
theorem mem_of_before {l before later : List Nat} {i j : Nat} (hl : l = before ++ i :: later)
    (hnodup : l.Nodup) (h : [j, i].Sublist l) : j ∈ before := by
  subst hl
  induction before with
  | nil =>
    have hi : i ∉ later := (List.nodup_cons.mp hnodup).1
    cases h with
    | cons _ h => exact absurd (h.subset (by simp)) hi
    | cons_cons _ h => exact absurd (h.subset (List.mem_singleton_self i)) hi
  | cons b before ih =>
    cases h with
    | cons _ h => exact List.mem_cons_of_mem b (ih (List.nodup_cons.mp hnodup).2 h)
    | cons_cons _ _ => exact List.mem_cons_self

section Moves

variable {M : Machine S W C} {starts : Prog S α → Prop} {w : W} {ps : List (Pool S W α)}
  {P Q : Pool S W α}

theorem Machine.Step.length_le (hs : M.Step starts P Q) : P.threads.length ≤ Q.threads.length := by
  cases hs with
  | start p hp => simp
  | exec i o k c hi ha => simp
  | cut i => simp
  | drift hd => exact Nat.le_refl _

/-- A program that has returned stays so, until it is cut off. -/
theorem Machine.Step.returned (hs : M.Step starts P Q) {i : Nat} {a : α}
    (h : P.Returned i a ∨ P.threads[i]? = some none) :
    Q.Returned i a ∨ Q.threads[i]? = some none := by
  have hlt : i < P.threads.length := by
    rcases h with h | h
    · exact (List.getElem?_eq_some_iff.mp h).1
    · exact (List.getElem?_eq_some_iff.mp h).1
  cases hs with
  | start p hp =>
    refine h.imp (fun h => ?_) fun h => ?_
    · exact (List.getElem?_append_left hlt).trans h
    · exact (List.getElem?_append_left hlt).trans h
  | @exec w ts j o k c hj ha =>
    by_cases hij : j = i
    · subst hij
      rcases h with h | h
      · cases hj.symm.trans h
      · cases hj.symm.trans h
    · refine h.imp (fun h => ?_) fun h => ?_
      · exact (List.getElem?_set_ne hij).trans h
      · exact (List.getElem?_set_ne hij).trans h
  | @cut w ts j =>
    by_cases hij : j = i
    · subst hij
      exact Or.inr (List.getElem?_set_self hlt)
    · refine h.imp (fun h => ?_) fun h => ?_
      · exact (List.getElem?_set_ne hij).trans h
      · exact (List.getElem?_set_ne hij).trans h
  | drift hd => exact h

theorem Machine.Trace.mem (h : M.Trace starts w ps P) : P ∈ ps := by
  cases h with
  | idle => exact List.mem_singleton_self _
  | step _ _ => exact List.mem_cons_self

theorem Machine.Trace.reaches (h : M.Trace starts w ps P) : M.Reaches starts w P := by
  induction h with
  | idle => exact .refl M starts w
  | step _ hs ih => exact ih.step hs

/-- A trace goes on along a run. -/
theorem Machine.Trace.run (h : M.Trace starts w ps P) (hr : M.Run starts P Q) :
    ∃ qs, M.Trace starts w qs Q ∧ P ∈ qs := by
  induction hr with
  | refl => exact ⟨ps, h, h.mem⟩
  | @tail R R' _ hs ih =>
    obtain ⟨qs, hqs, hmem⟩ := ih
    exact ⟨R' :: qs, .step hqs hs, List.mem_cons_of_mem R' hmem⟩

theorem Machine.Reaches.trace (h : M.Reaches starts w P) : ∃ ps, M.Trace starts w ps P := by
  obtain ⟨ps, hps, -⟩ := Machine.Trace.run (.idle : M.Trace starts w _ _) h
  exact ⟨ps, hps⟩

theorem Machine.Trace.length_le (h : M.Trace starts w ps P) {R : Pool S W α} (hR : R ∈ ps) :
    R.threads.length ≤ P.threads.length := by
  induction h with
  | idle => exact Nat.le_of_eq (congrArg (·.threads.length) (List.mem_singleton.mp hR))
  | step _ hs ih =>
    rcases List.mem_cons.mp hR with rfl | hR
    · exact Nat.le_refl _
    · exact Nat.le_trans (ih hR) hs.length_le

/-- What has returned in an earlier pool. -/
theorem Machine.Trace.returned (h : M.Trace starts w ps P) {R : Pool S W α} (hR : R ∈ ps) {i : Nat}
    {a : α} (hi : R.Returned i a) : P.Returned i a ∨ P.threads[i]? = some none := by
  induction h with
  | idle =>
    rw [List.mem_singleton.mp hR] at hi
    exact Or.inl hi
  | step _ hs ih =>
    rcases List.mem_cons.mp hR with rfl | hR
    · exact Or.inl hi
    · exact hs.returned (ih hR)

end Moves

/-! ### The rule -/

variable (ret : α → Prop) (after : α → σ → σ → Prop) (abs : W → σ)

/-- A move after which nothing more has returned and the state is the same. -/
structure Silent (P Q : Pool S W α) : Prop where
  returned : ∀ i a, ret a → Q.Returned i a → P.Returned i a
  state : abs Q.world = abs P.world

/-- A move with which program `i` returns `a` and has its effect. -/
structure Point (P Q : Pool S W α) (i : Nat) (a : α) : Prop where
  ret : ret a
  under_way : ∃ o k, P.threads[i]? = some (some (.step o k))
  now : Q.Returned i a
  others : ∀ j b, j ≠ i → Q.Returned j b → P.Returned j b
  state : after a (abs P.world) (abs Q.world)

variable {ret after abs} {M : Machine S W C} {starts : Prog S α → Prop} {w : W}
  {ps : List (Pool S W α)} {P Q : Pool S W α} {order : List (Nat × α)}

/-- An order for `after` is one for what `after` implies. -/
theorem Linearizes.mono {after' : α → σ → σ → Prop} (h : Linearizes ret after abs w ps P order)
    (hafter : ∀ a s s', after a s s' → after' a s s') :
    Linearizes ret after' abs w ps P order where
  unique := h.unique
  returned := h.returned
  realTime := h.realTime
  replays := h.replays.mono hafter

theorem Linearizes.idle :
    Linearizes ret after abs w [Pool.idle w] (Pool.idle w : Pool S W α) [] where
  unique := List.nodup_nil
  returned := fun i a => by
    constructor
    · exact fun h => nomatch h
    · rintro ⟨-, R, hR, h⟩
      rw [List.mem_singleton.mp hR] at h
      cases h
  realTime := fun _ _ _ _ _ _ _ _ h => nomatch h
  replays := rfl

theorem Linearizes.silent (h : Linearizes ret after abs w ps P order)
    (ht : M.Trace starts w ps P) (hs : M.Step starts P Q) (hsilent : Silent ret abs P Q) :
    Linearizes ret after abs w (Q :: ps) Q order where
  unique := h.unique
  returned := fun i a => by
    rw [h.returned]
    constructor
    · rintro ⟨hret, R, hR, hi⟩
      exact ⟨hret, R, List.mem_cons_of_mem Q hR, hi⟩
    · rintro ⟨hret, R, hR, hi⟩
      rcases List.mem_cons.mp hR with rfl | hR
      · exact ⟨hret, P, ht.mem, hsilent.returned i a hret hi⟩
      · exact ⟨hret, R, hR, hi⟩
  realTime := fun R hR i j a b hi hj hia hjb => by
    rcases List.mem_cons.mp hR with rfl | hR
    · -- whatever has returned was started
      obtain ⟨-, R', hR', hj'⟩ := (h.returned j b).mp hjb
      have hlt : j < R'.threads.length := (List.getElem?_eq_some_iff.mp hj').1
      have hle := Nat.le_trans (ht.length_le hR') hs.length_le
      omega
    · exact h.realTime R hR i j a b hi hj hia hjb
  replays := by
    rw [hsilent.state]
    exact h.replays

theorem Linearizes.point (h : Linearizes ret after abs w ps P order)
    (ht : M.Trace starts w ps P) (hs : M.Step starts P Q) {i : Nat} {a : α}
    (hpoint : Point ret after abs P Q i a) :
    Linearizes ret after abs w (Q :: ps) Q (order ++ [(i, a)]) := by
  have hnew : ∀ R ∈ ps, ∀ b, ¬ R.Returned i b := by
    intro R hR b hi
    obtain ⟨o, k, hstep⟩ := hpoint.under_way
    rcases ht.returned hR hi with hi | hi
    · cases hstep.symm.trans hi
    · cases hstep.symm.trans hi
  have hnot : i ∉ order.map Prod.fst := by
    intro hmem
    obtain ⟨⟨j, b⟩, hjb, rfl⟩ := List.mem_map.mp hmem
    obtain ⟨-, R, hR, hj⟩ := (h.returned j b).mp hjb
    exact hnew R hR b hj
  refine ⟨?_, fun j b => ?_, fun R hR j k b c hj hk hjb hkc => ?_, ?_⟩
  · rw [List.map_append]
    exact List.nodup_append.mpr ⟨h.unique, List.nodup_singleton i, fun j hj k hk heq => by
      obtain rfl : k = i := List.mem_singleton.mp hk
      exact hnot (heq ▸ hj)⟩
  · rw [List.mem_append, List.mem_singleton, h.returned]
    constructor
    · rintro (⟨hret, R, hR, hj⟩ | heq)
      · exact ⟨hret, R, List.mem_cons_of_mem Q hR, hj⟩
      · cases heq
        exact ⟨hpoint.ret, Q, List.mem_cons_self, hpoint.now⟩
    · rintro ⟨hret, R, hR, hj⟩
      rcases List.mem_cons.mp hR with rfl | hR
      · by_cases hji : j = i
        · subst hji
          have heq := hj.symm.trans hpoint.now
          cases heq
          exact Or.inr rfl
        · exact Or.inl ⟨hret, P, ht.mem, hpoint.others j b hji hj⟩
      · exact Or.inl ⟨hret, R, hR, hj⟩
  · rw [List.map_append]
    rcases List.mem_cons.mp hR with rfl | hR
    · -- whatever has returned was started
      have hlt : k < R.threads.length := by
        rcases List.mem_append.mp hkc with hkc | hkc
        · obtain ⟨-, R', hR', hk'⟩ := (h.returned k c).mp hkc
          have hlt : k < R'.threads.length := (List.getElem?_eq_some_iff.mp hk').1
          have hle := Nat.le_trans (ht.length_le hR') hs.length_le
          omega
        · cases List.mem_singleton.mp hkc
          exact (List.getElem?_eq_some_iff.mp hpoint.now).1
      omega
    · have hjorder : (j, b) ∈ order := by
        rcases List.mem_append.mp hjb with hjb | hjb
        · exact hjb
        · cases List.mem_singleton.mp hjb
          exact absurd hj (hnew R hR a)
      rcases List.mem_append.mp hkc with hkc | hkc
      · exact (h.realTime R hR j k b c hj hk hjorder hkc).trans (List.sublist_append_left _ _)
      · cases List.mem_singleton.mp hkc
        have hmem : j ∈ order.map Prod.fst := List.mem_map.mpr ⟨(j, b), hjorder, rfl⟩
        exact List.Sublist.append (List.singleton_sublist.mpr hmem) (List.Sublist.refl [i])
  · rw [List.map_append]
    exact h.replays.append ⟨_, hpoint.state, rfl⟩

/-- **A run whose moves are all silent or the last of a program is linearizable.** -/
theorem Machine.Trace.exists_linearizes (h : M.Trace starts w ps P)
    (hmoves : ∀ {P Q}, M.Reaches starts w P → M.Step starts P Q →
      Silent ret abs P Q ∨ ∃ i a, Point ret after abs P Q i a) :
    ∃ order, Linearizes ret after abs w ps P order := by
  induction h with
  | idle => exact ⟨[], .idle⟩
  | step ht hs ih =>
    obtain ⟨order, horder⟩ := ih
    rcases hmoves ht.reaches hs with hsilent | ⟨i, a, hpoint⟩
    · exact ⟨order, horder.silent ht hs hsilent⟩
    · exact ⟨order ++ [(i, a)], horder.point ht hs hpoint⟩

end Conc
