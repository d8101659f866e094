import RozeDtm.InMemory.Ledger
import RozeDtm.Model.System

/-!
# At most one success under a barrier

A sound record never has a call issued under a barrier after one under the same
barrier has returned success, and never has two calls under one barrier in flight: the
ledger entry of the barrier would have to be two things at once.
-/

namespace RozeDtm

open Conc

/-! ### Calls in flight -/

/-- The event is the issue of a call under the barrier. -/
def Event.issues (b : BranchBarrier) : Event → Bool
  | .began c => c.barrier = b
  | _ => false

/-- The event is the return of a call under the barrier. -/
def Event.returns (b : BranchBarrier) : Event → Bool
  | .ended c _ => c.barrier = b
  | _ => false

/-- How many calls were issued under a barrier. -/
def issued (h : List (Nat × Event)) (b : BranchBarrier) : Nat := h.countP fun p => p.2.issues b

/-- How many calls have returned under a barrier. -/
def returned (h : List (Nat × Event)) (b : BranchBarrier) : Nat := h.countP fun p => p.2.returns b

theorem Event.issues_iff {b : BranchBarrier} {e : Event} :
    e.issues b = true ↔ e.mark = some (b, some .calling) := by
  rcases e with ⟨_, _ | _ | _ | _⟩ | _ | _ | ⟨_, _ | _⟩ | _ | _ <;> simp [issues, mark]

theorem Event.returns_iff {b : BranchBarrier} {e : Event} :
    e.returns b = true ↔ e.mark = some (b, some .done) ∨ e.mark = some (b, some .failed) := by
  rcases e with ⟨_, _ | _ | _ | _⟩ | _ | _ | ⟨_, _ | _⟩ | _ | _ <;> simp [returns, mark]

/-- How many calls are in flight by a ledger entry. -/
def callsOf : Option (Nat × Hold) → Nat
  | some (_, .calling) => 1
  | _ => 0

/-- **The calls in flight under a barrier are the one that the ledger knows of.** -/
theorem Sound.issued_eq {h : List (Nat × Event)} (hs : Sound h) (b : BranchBarrier) :
    issued h b = returned h b + callsOf (ledger h b) := by
  induction h with
  | nil => rfl
  | cons p h ih =>
    obtain ⟨i, e⟩ := p
    have ih := ih hs.2
    simp only [issued, returned, List.countP_cons, Event.issues_iff, Event.returns_iff] at ih ⊢
    rcases ledger_cons_cases i e h b with ⟨k, hm, hl⟩ | ⟨hm, hl⟩
    · have hf := hs.1 b k hm
      rw [hl, hm]
      match k with
      | none => rcases hf with hf | hf <;> rw [hf] at ih <;> simpa [callsOf] using ih
      | some .taken | some .nulled => rw [hf] at ih; simpa [callsOf] using ih
      | some .calling => rcases hf with hf | hf <;> rw [hf] at ih <;> simpa [callsOf] using ih
      | some .done | some .failed => rw [hf] at ih; simpa [callsOf] using ih
    · rw [hl]
      simpa [hm] using ih

theorem callsOf_le_one (entry : Option (Nat × Hold)) : callsOf entry ≤ 1 := by
  rw [callsOf.eq_def]
  split <;> decide

/-- After a success under a barrier no call is issued under it. -/
theorem Sound.not_succeeded {h : List (Nat × Event)} {i : Nat} {c : BranchCall}
    (hs : Sound ((i, .began c) :: h)) : ¬ Succeeded h c.barrier := by
  intro hb
  obtain ⟨j, hj⟩ := hs.2.ledger_eq_done hb
  have hf := hs.1 c.barrier _ rfl
  rw [hj] at hf
  rcases hf with hf | hf <;> cases hf

/-! ### Over all runs -/

/-- **At most one success per branch operation.**  In every run of any operations: when a
call is issued, no call for the same gid, branch and operation name has returned
success before, and at no time are two such calls in flight. -/
theorem at_most_one_success (dtm : Dtm) {w : World} (hw : w.history = []) {P : System}
    (hP : inMemory.Reaches (dtm.Programs fun _ => True) w P) :
    (∀ h₁ h₂ i c, P.world.history = h₁ ++ (i, .began c) :: h₂ → ¬ Succeeded h₂ c.barrier) ∧
      ∀ h₁ h₂ b, P.world.history = h₁ ++ h₂ → issued h₂ b ≤ returned h₂ b + 1 := by
  have hgood : ledgerOutline.Good P := by
    refine ledgerOutline.good_of_reaches (ledgerInv_of_nil hw) (fun i b k hk => nomatch hk) ?_ hP
    rintro p ⟨op, -, rfl⟩
    exact follows_prog_registering dtm op _
  have hsound : Sound P.world.history := hgood.1.sound
  refine ⟨fun h₁ h₂ i c hh => ?_, fun h₁ h₂ b hh => ?_⟩
  · rw [hh] at hsound
    exact hsound.tail.not_succeeded
  · rw [hh] at hsound
    rw [hsound.tail.issued_eq b]
    exact Nat.add_le_add_left (callsOf_le_one _) _

/-- Two overlapping `prepare_tcc` over one branch: the second one finds the barrier of the
Try taken while the call of the first one is in flight. -/
theorem at_most_one_success_overlapping : ∃ P : System,
    inMemory.Reaches (Dtm.plain.Programs fun _ => True)
      (.initial [.new 0 "g" .tcc [.tccTry "b" "try" "confirm" "cancel" .null]]) P ∧
    (P.world.history.length = 4 ∧ issued P.world.history ⟨"g", "b", "try"⟩ = 1) ∧
    (∀ h₁ h₂ i c, P.world.history = h₁ ++ (i, .began c) :: h₂ → ¬ Succeeded h₂ c.barrier) ∧
      ∀ h₁ h₂ b, P.world.history = h₁ ++ h₂ → issued h₂ b ≤ returned h₂ b + 1 := by
  obtain ⟨P, hP, hφ⟩ := Dtm.exists_run inMemory .plain (fun _ => True)
    (.initial [.new 0 "g" .tcc [.tccTry "b" "try" "confirm" "cancel" .null]])
    (.start (.prepareTcc "g") :: .start (.prepareTcc "g") ::
      steps 0 3 true ++ steps 1 2 true ++ steps 0 1 true)
    (fun w => w.history.length = 4 && issued w.history ⟨"g", "b", "try"⟩ = 1)
    (fun _ _ => trivial) (by decide)
  refine ⟨P, hP, by simpa using hφ, at_most_one_success .plain rfl hP⟩

end RozeDtm
