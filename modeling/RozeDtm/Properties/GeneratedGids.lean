import Mathlib.Data.List.Pairwise
import RozeDtm.Model.Service.Gid

/-!
# Generated gids are distinct

The time and the sequence stand next to each other without a separator, so that different pairs
can have the same digits.  Of two calls in the order in which they counted themselves neither
number falls, and then neither does the number of its digits: equal gids are parted at the same
place.
-/

namespace RozeDtm

open Conc Codec

namespace GidProcess

/-- Where call `i` is, and what the process knows of it there. -/
inductive Stage (w : GidProcess) (i : Nat) : Prog gidSteps String → Prop
  | started (h : i ∉ w.counted) : Stage w i generateGid
  | read (sinceEpoch : Option Nat) (h : i ∉ w.counted)
      (hread : w.readings i = gidMillis sinceEpoch) :
      Stage w i (.step .fetchAdd fun sequence => .pure (gidText (gidMillis sinceEpoch) sequence))
  | returned (k : Nat) (h : w.counted[k]? = some i) :
      Stage w i (.pure (gidText (w.readings i) (k % 2 ^ 64)))

/-- The counter stands at the number of calls that were counted, each of them once. -/
structure Counts (P : Pool gidSteps GidProcess String) : Prop where
  sequence : P.world.sequence = P.world.counted.length % 2 ^ 64
  nodup : P.world.counted.Nodup
  known : ∀ i ∈ P.world.counted, i < P.threads.length
  stage : ∀ (i : Nat) (p : Prog gidSteps String), P.threads[i]? = some (some p) →
    P.world.Stage i p

theorem counts_idle : Counts (Pool.idle start) where
  sequence := rfl
  nodup := .nil
  known := nofun
  stage := nofun

variable {w : GidProcess} {i j : Nat} {p : Prog gidSteps String}

/-- What is known of a call when another one reads the clock. -/
theorem Stage.now (h : w.Stage j p) (hij : j ≠ i) (c : Option Nat) :
    (exec i .now c w).2.Stage j p := by
  have hreadings : (exec i .now c w).2.readings j = w.readings j := Function.update_of_ne hij _ _
  cases h with
  | started h => exact .started h
  | read sinceEpoch h hread => exact .read sinceEpoch h (hreadings.trans hread)
  | returned k h =>
    rw [← hreadings]
    exact .returned k h

/-- What is known of a call when another one counts itself. -/
theorem Stage.fetchAdd (h : w.Stage j p) (hij : j ≠ i) (c : Option Nat) :
    (exec i .fetchAdd c w).2.Stage j p := by
  have hcounted (h : j ∉ w.counted) : j ∉ w.counted ++ [i] := by
    rw [List.mem_append, List.mem_singleton]
    exact fun hj => hj.elim h hij
  cases h with
  | started h => exact .started (hcounted h)
  | read sinceEpoch h hread => exact .read sinceEpoch (hcounted h) hread
  | returned k h =>
    exact .returned k ((List.getElem?_append_left (List.getElem?_eq_some_iff.mp h).1).trans h)

/-- The threads after one of them took a step. -/
theorem forall_thread_set {w : GidProcess} {ts : List (Option (Prog gidSteps String))}
    {q : Prog gidSteps String} (hself : w.Stage i q)
    (hother : ∀ j p, j ≠ i → ts[j]? = some (some p) → w.Stage j p) :
    ∀ j p, (ts.set i (some q))[j]? = some (some p) → w.Stage j p := by
  intro j p hp
  by_cases hji : j = i
  · subst hji
    rw [List.getElem?_set_self'] at hp
    cases hj : ts[j]? with
    | none =>
      rw [hj] at hp
      cases hp
    | some q' =>
      rw [hj] at hp
      cases hp
      exact hself
  · rw [List.getElem?_set_ne (Ne.symm hji)] at hp
    exact hother j p hji hp

/-- **A call that takes a step** reads the clock first and counts itself after it. -/
theorem Counts.exec {ts : List (Option (Prog gidSteps String))} {o : GidStep}
    {k : o.Reply → Prog gidSteps String} (h : Counts ⟨w, ts⟩) (c : Option Nat)
    (hi : ts[i]? = some (some (.step o k))) :
    Counts ⟨(GidProcess.exec i o c w).2, ts.set i (some (k (GidProcess.exec i o c w).1))⟩ := by
  have hlt : i < ts.length := (List.getElem?_eq_some_iff.mp hi).1
  have hstage := h.stage i _ hi
  cases o with
  | now =>
    refine ⟨h.sequence, h.nodup, ?_, forall_thread_set ?_ fun j p hji hp =>
      (h.stage j p hp).now hji c⟩
    · intro j hj
      rw [List.length_set]
      exact h.known j hj
    · generalize hp : Prog.step (S := gidSteps) GidStep.now k = p at hstage
      cases hstage with
      | started hcounted =>
        cases hp
        exact .read c hcounted (Function.update_self _ _ _)
      | read sinceEpoch => cases hp
      | returned k => cases hp
  | fetchAdd =>
    generalize hp : Prog.step (S := gidSteps) GidStep.fetchAdd k = p at hstage
    cases hstage with
    | started => cases hp
    | returned k => cases hp
    | read sinceEpoch hcounted hread =>
      cases hp
      refine ⟨?_, ?_, ?_, forall_thread_set ?_ fun j p hji hp => (h.stage j p hp).fetchAdd hji c⟩
      · show (w.sequence + 1) % 2 ^ 64 = (w.counted ++ [i]).length % 2 ^ 64
        rw [h.sequence, List.length_append, Nat.mod_add_mod]
        rfl
      · refine List.nodup_append.mpr ⟨h.nodup, List.pairwise_singleton _ i, ?_⟩
        rintro a ha b hb rfl
        rw [List.mem_singleton.mp hb] at ha
        exact hcounted ha
      · intro j hj
        rw [List.length_set]
        rcases List.mem_append.mp hj with hj | hj
        · exact h.known j hj
        · rw [List.mem_singleton.mp hj]
          exact hlt
      · show Stage _ i (.pure (gidText (gidMillis sinceEpoch) w.sequence))
        rw [h.sequence, ← hread]
        exact .returned w.counted.length List.getElem?_concat_length

theorem Counts.step {P Q : Pool gidSteps GidProcess String} (h : Counts P)
    (hs : gidMachine.Step (· = generateGid) P Q) : Counts Q := by
  cases hs with
  | @start w ts p hp =>
    subst hp
    refine ⟨h.sequence, h.nodup, ?_, ?_⟩
    · intro i hi
      rw [List.length_append]
      exact Nat.lt_add_right _ (h.known i hi)
    · intro i p hp
      rcases Nat.lt_or_ge i ts.length with hlt | hge
      · rw [List.getElem?_append_left hlt] at hp
        exact h.stage i p hp
      · rw [List.getElem?_append_right hge, List.getElem?_singleton] at hp
        split at hp
        · cases hp
          exact .started fun hmem => Nat.not_lt.mpr hge (h.known i hmem)
        · cases hp
  | exec i o k c hi ha => exact h.exec c hi
  | @cut w ts i =>
    refine ⟨h.sequence, h.nodup, ?_, ?_⟩
    · intro j hj
      rw [List.length_set]
      exact h.known j hj
    · intro j p hp
      by_cases hji : j = i
      · subst hji
        rw [List.getElem?_set] at hp
        simp only [if_true] at hp
        split at hp <;> cases hp
      · rw [List.getElem?_set_ne (Ne.symm hji)] at hp
        exact h.stage j p hp
  | drift hd => exact hd.elim

/-- **The calls of every run are counted**, one after another. -/
theorem counts_of_reaches {P : Pool gidSteps GidProcess String}
    (h : gidMachine.Reaches (· = generateGid) start P) : Counts P := by
  induction h with
  | refl => exact counts_idle
  | tail _ hs ih => exact ih.step hs

/-- What a call that has returned was counted as. -/
theorem Counts.returned {P : Pool gidSteps GidProcess String} (h : Counts P) {gid : String}
    (hi : P.threads[i]? = some (some (.pure gid))) :
    ∃ k, P.world.counted[k]? = some i ∧ gid = gidText (P.world.readings i) (k % 2 ^ 64) := by
  have hstage := h.stage i _ hi
  generalize hp : Prog.pure (S := gidSteps) gid = p at hstage
  cases hstage with
  | started => cases hp
  | read => cases hp
  | returned k hk =>
    cases hp
    exact ⟨k, hk, rfl⟩

end GidProcess

/-- Of two gids with neither a smaller time nor a smaller sequence the texts are different. -/
theorem gidText_inj {m m' s s' : Nat} (hm : m ≤ m') (hs : s ≤ s')
    (h : gidText m s = gidText m' s') : m = m' ∧ s = s' :=
  Digits.padded_append_injective (by decide) (by decide) hm hs (String.ofList_injective h)

/-- Gids of two calls, the second counted after the first. -/
theorem gidText_ne_of_counted {w : GidProcess} {i j k l : Nat} (hwrap : w.counted.length ≤ 2 ^ 64)
    (hclock : (w.counted.map w.readings).Pairwise (· ≤ ·)) (hk : w.counted[k]? = some i)
    (hl : w.counted[l]? = some j) (hkl : k < l) :
    gidText (w.readings i) (k % 2 ^ 64) ≠ gidText (w.readings j) (l % 2 ^ 64) := by
  intro h
  obtain ⟨hk', rfl⟩ := List.getElem?_eq_some_iff.mp hk
  obtain ⟨hl', rfl⟩ := List.getElem?_eq_some_iff.mp hl
  have hread : w.readings w.counted[k] ≤ w.readings w.counted[l] := by
    have hpair := List.pairwise_iff_getElem.mp hclock k l (by rwa [List.length_map])
      (by rwa [List.length_map]) hkl
    rwa [List.getElem_map, List.getElem_map] at hpair
  rw [Nat.mod_eq_of_lt (by omega), Nat.mod_eq_of_lt (by omega)] at h
  have hseq := (gidText_inj hread (Nat.le_of_lt hkl) h).2
  omega

/-- **Generated gids are distinct.**  In every run of any number of calls, started, interleaved
and cut off in any way, in which the sequence has not wrapped and the clock readings do not fall
in the order of the sequence numbers, no two calls have returned the same gid. -/
theorem generated_gids_distinct {P : Pool gidSteps GidProcess String}
    (h : gidMachine.Reaches (· = generateGid) .start P)
    (hwrap : P.world.counted.length ≤ 2 ^ 64)
    (hclock : (P.world.counted.map P.world.readings).Pairwise (· ≤ ·)) {i j : Nat}
    {gid gid' : String} (hij : i ≠ j) (hi : P.threads[i]? = some (some (.pure gid)))
    (hj : P.threads[j]? = some (some (.pure gid'))) : gid ≠ gid' := by
  have hcounts := GidProcess.counts_of_reaches h
  obtain ⟨k, hk, rfl⟩ := hcounts.returned hi
  obtain ⟨l, hl, rfl⟩ := hcounts.returned hj
  rcases Nat.lt_trichotomy k l with hkl | rfl | hlk
  · exact gidText_ne_of_counted hwrap hclock hk hl hkl
  · rw [hk] at hl
    cases hl
    exact absurd rfl hij
  · exact (gidText_ne_of_counted hwrap hclock hl hk hlk).symm

/-- Two calls that both read the clock before either counts itself; the one that was started last
counts itself first. -/
theorem generated_gids_distinct_interleaved :
    ∃ P : Pool gidSteps GidProcess String, gidMachine.Reaches (· = generateGid) .start P ∧
      ∃ gid gid' : String, P.threads[0]? = some (some (.pure gid)) ∧
        P.threads[1]? = some (some (.pure gid')) ∧ gid ≠ gid' := by
  have hidle := Machine.Reaches.refl gidMachine (· = generateGid) GidProcess.start
  have hstarted := (hidle.start rfl).start rfl
  have hread := (hstarted.exec 0 (some 256) rfl trivial).exec 1 (some 255) rfl trivial
  have hcounted := (hread.exec 1 none rfl trivial).exec 0 none rfl trivial
  exact ⟨_, hcounted, _, _, rfl, rfl, generated_gids_distinct (i := 0) (j := 1) hcounted
    (by decide) (by decide) (by decide) rfl rfl⟩

end RozeDtm
