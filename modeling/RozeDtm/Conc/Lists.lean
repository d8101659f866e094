import Mathlib.Data.List.Forall2

/-!
# Related lists

What two lists have in common whose elements are related one by one.
-/

namespace Conc

variable {α β : Type} {R : α → β → Prop}

theorem forall₂_snoc {as : List α} {bs : List β} {a : α} {b : β} (h : List.Forall₂ R as bs)
    (hab : R a b) : List.Forall₂ R (as ++ [a]) (bs ++ [b]) :=
  List.rel_append h (.cons hab .nil)

theorem forall₂_middle {as as' : List α} {bs bs' : List β} {a : α} {b : β}
    (h : List.Forall₂ R as bs) (hab : R a b) (h' : List.Forall₂ R as' bs') :
    List.Forall₂ R (as ++ a :: as') (bs ++ b :: bs') :=
  List.rel_append h (.cons hab h')

theorem exists_of_forall₂ {as : List α} {bs : List β} {b : β} (h : List.Forall₂ R as bs)
    (hb : b ∈ bs) : ∃ a ∈ as, R a b := by
  induction h with
  | nil => cases hb
  | cons hab _ ih =>
    rcases List.mem_cons.mp hb with rfl | hb
    · exact ⟨_, .head _, hab⟩
    · obtain ⟨a, ha, h⟩ := ih hb
      exact ⟨a, .tail _ ha, h⟩

/-- Related elements have the same image. -/
theorem map_eq_of_forall₂ {γ : Type} {f : α → γ} {g : β → γ} (hfg : ∀ a b, R a b → g b = f a)
    {as : List α} {bs : List β} (h : List.Forall₂ R as bs) : bs.map g = as.map f := by
  induction h with
  | nil => rfl
  | cons hab _ ih => rw [List.map_cons, List.map_cons, hfg _ _ hab, ih]

/-- The same of those elements that a test picks. -/
theorem filter_map_eq_of_forall₂ {γ : Type} {p : α → Bool} {q : β → Bool} {f : α → γ} {g : β → γ}
    (hpq : ∀ a b, R a b → q b = p a) (hfg : ∀ a b, R a b → g b = f a) {as : List α} {bs : List β}
    (h : List.Forall₂ R as bs) : (bs.filter q).map g = (as.filter p).map f := by
  induction h with
  | nil => rfl
  | @cons a b as bs hab _ ih =>
    rw [List.filter_cons, List.filter_cons, hpq a b hab]
    split
    · rw [List.map_cons, List.map_cons, hfg a b hab, ih]
    · exact ih

/-- The first element that passes a test is related to the first one of the other list. -/
theorem find?_of_forall₂ {p : α → Bool} {q : β → Bool} {as : List α} {bs : List β} {a : α}
    (h : List.Forall₂ R as bs) (hpq : ∀ a b, R a b → q b = p a) (ha : as.find? p = some a) :
    ∃ b, bs.find? q = some b ∧ R a b := by
  induction h with
  | nil => cases ha
  | @cons x y as bs hxy _ ih =>
    rw [List.find?_cons] at ha ⊢
    rw [hpq x y hxy]
    cases hp : p x with
    | true =>
      rw [hp] at ha
      cases ha
      exact ⟨y, rfl, hxy⟩
    | false =>
      rw [hp] at ha
      exact ih ha

/-- Two lists related through a third. -/
theorem forall₂_trans {γ : Type} {R' : β → γ → Prop} {R'' : α → γ → Prop}
    (hR : ∀ a b c, R a b → R' b c → R'' a c) {as : List α} {bs : List β} {cs : List γ}
    (h : List.Forall₂ R as bs) (h' : List.Forall₂ R' bs cs) : List.Forall₂ R'' as cs := by
  induction h generalizing cs with
  | nil =>
    cases h'
    exact .nil
  | cons hab _ ih =>
    cases h' with
    | cons hbc h' => exact .cons (hR _ _ _ hab hbc) (ih h')

theorem exists_of_forall₂_left {as : List α} {bs : List β} {a : α} (h : List.Forall₂ R as bs)
    (ha : a ∈ as) : ∃ b ∈ bs, R a b := exists_of_forall₂ h.flip ha

/-- What holds of all elements of a list holds of them with one exchanged. -/
theorem forall_mem_exchange {P : α → Prop} {before after : List α} {a a' : α}
    (h : ∀ x ∈ before ++ a :: after, P x) (ha' : P a') : ∀ x ∈ before ++ a' :: after, P x := by
  rw [List.forall_mem_append, List.forall_mem_cons] at h ⊢
  exact ⟨h.1, ha', h.2.2⟩

end Conc
