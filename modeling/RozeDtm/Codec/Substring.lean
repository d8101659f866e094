import Mathlib.Data.List.Infix

/-!
# Searching for a text in a text that is put together

Whether `p` is in `xs ++ ys` is decided by the two parts when no piece of `p` is at the end of
the one or at the beginning of the other: `NoEnd p xs` and `NoStart p ys`, which compute.
-/

namespace Codec.Substring

variable {α : Type} [DecidableEq α] {p xs ys : List α}

/-- No beginning of `p` but the empty one and `p` itself is an end of `xs`. -/
def NoEnd (p xs : List α) : Prop := ∀ k < p.length, 0 < k → ¬ p.take k <:+ xs

/-- No end of `p` but the empty one and `p` itself is a beginning of `ys`. -/
def NoStart (p ys : List α) : Prop := ∀ k < p.length, 0 < k → ¬ p.drop k <+: ys

instance : Decidable (NoEnd p xs) := inferInstanceAs (Decidable (∀ k < p.length, _))

instance : Decidable (NoStart p ys) := inferInstanceAs (Decidable (∀ k < p.length, _))

omit [DecidableEq α] in
/-- Where a text lies across the seam, a piece of it is on either side. -/
theorem infix_append_cases (h : p <:+: xs ++ ys) : p <:+: xs ∨ p <:+: ys ∨
    ∃ k < p.length, 0 < k ∧ p.take k <:+ xs ∧ p.drop k <+: ys := by
  obtain h | h | ⟨l₁, l₂, h₁, h₂, rfl, hl₁, hl₂⟩ := List.infix_append_iff_ne_nil.mp h
  · exact Or.inl h
  · exact Or.inr (Or.inl h)
  · have hpos := List.length_pos_of_ne_nil h₁
    have hpos' := List.length_pos_of_ne_nil h₂
    refine Or.inr (Or.inr ⟨l₁.length, by rw [List.length_append]; omega, hpos, ?_, ?_⟩)
    · rwa [List.take_left]
    · rwa [List.drop_left]

omit [DecidableEq α] in
/-- **A text behind a fixed one.** -/
theorem infix_append_of_noEnd (h : NoEnd p xs) : p <:+: xs ++ ys ↔ p <:+: xs ∨ p <:+: ys := by
  constructor
  · intro hp
    obtain hp | hp | ⟨k, hk, hpos, hend, -⟩ := infix_append_cases hp
    · exact Or.inl hp
    · exact Or.inr hp
    · exact absurd hend (h k hk hpos)
  · rintro (hp | hp)
    · exact List.infix_append_of_infix_left hp
    · exact List.infix_append_of_infix_right hp

omit [DecidableEq α] in
/-- **A text before a fixed one.** -/
theorem infix_append_of_noStart (h : NoStart p ys) : p <:+: xs ++ ys ↔ p <:+: xs ∨ p <:+: ys := by
  constructor
  · intro hp
    obtain hp | hp | ⟨k, hk, hpos, -, hstart⟩ := infix_append_cases hp
    · exact Or.inl hp
    · exact Or.inr hp
    · exact absurd hstart (h k hk hpos)
  · rintro (hp | hp)
    · exact List.infix_append_of_infix_left hp
    · exact List.infix_append_of_infix_right hp

omit [DecidableEq α] in
/-- What a text begins with is not changed by what comes after it, if it is long enough. -/
theorem NoStart.append (h : NoStart p ys) (hle : p.length ≤ ys.length) (zs : List α) :
    NoStart p (ys ++ zs) := by
  intro k hk hpos hp
  refine h k hk hpos (List.prefix_of_prefix_length_le hp (List.prefix_append _ _) ?_)
  rw [List.length_drop]
  omega

omit [DecidableEq α] in
/-- A text before a fixed one begins with `p` only by itself. -/
theorem prefix_append_of_noStart (hne : ¬ p <+: ys) (h : NoStart p ys) :
    p <+: xs ++ ys ↔ p <+: xs := by
  refine ⟨fun hp => ?_, fun hp => hp.trans (List.prefix_append xs ys)⟩
  obtain ⟨t, ht⟩ := hp
  obtain ⟨l, hxs, -⟩ | ⟨l, hp, hys⟩ := List.append_eq_append_iff.mp ht
  · exact ⟨l, hxs.symm⟩
  · -- `p` reaches over the seam by `l`
    by_cases hl : l = []
    · rw [hl, List.append_nil] at hp
      exact hp ▸ List.prefix_rfl
    · have hpos := List.length_pos_of_ne_nil hl
      by_cases hxs : xs = []
      · rw [hxs, List.nil_append] at hp
        exact absurd ⟨t, by rw [hp, hys]⟩ hne
      · have hpos' := List.length_pos_of_ne_nil hxs
        refine absurd ⟨t, ?_⟩ (h xs.length (by rw [hp, List.length_append]; omega) hpos')
        rw [hp, List.drop_left, hys]

end Codec.Substring
