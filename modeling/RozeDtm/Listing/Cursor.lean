import Mathlib.Data.List.Nodup
import Mathlib.Data.Nat.Basic

/-!
# Pages of a list after a cursor

A list is given out in pages of at most `limit` items.  A page is asked for by the key of the
last item of the page before it, which is looked up again in the list; the answer has the key of
its own last item when something is left after it.

`pages_exact` says that following the keys gives the list once, in order, when no two items have
the same key, and in how many pages.
-/

namespace Cursor

variable {α κ : Type} [DecidableEq κ] {key : α → κ} {limit : Nat} {l : List α}

/-- How many items lie before a page: those up to the one with the key. -/
def start? (key : α → κ) (l : List α) : Option κ → Option Nat
  | none => some 0
  | some k => (l.findIdx? fun a => key a = k).map (· + 1)

/-- The items of a page. -/
def items (limit : Nat) (l : List α) (position : Nat) : List α := (l.drop position).take limit

/-- The key under which the next page is asked for. -/
def next? (key : α → κ) (limit : Nat) (l : List α) (position : Nat) : Option κ :=
  if position + (items limit l position).length < l.length then
    (items limit l position).getLast?.map key
  else none

/-- The pages from a cursor on, up to one that says that nothing is left. -/
inductive Pages (key : α → κ) (limit : Nat) (l : List α) : Option κ → List (List α) → Prop
  | last {cursor : Option κ} {position : Nat} (hstart : start? key l cursor = some position)
      (hnext : next? key limit l position = none) : Pages key limit l cursor [items limit l position]
  | more {cursor : Option κ} {position : Nat} {k : κ} {pages : List (List α)}
      (hstart : start? key l cursor = some position) (hnext : next? key limit l position = some k)
      (rest : Pages key limit l (some k) pages) :
      Pages key limit l cursor (items limit l position :: pages)

/-- How many pages `n` items take; an empty list takes one. -/
def pageCount (limit n : Nat) : Nat := max 1 ((n + limit - 1) / limit)

theorem pageCount_of_le {n : Nat} (hn : n ≤ limit) (hlimit : 0 < limit) : pageCount limit n = 1 := by
  have hlt : (n + limit - 1) / limit < 2 := (Nat.div_lt_iff_lt_mul hlimit).mpr (by omega)
  unfold pageCount
  omega

theorem pageCount_eq {n : Nat} (hlimit : 0 < limit) :
    pageCount limit n = if n = 0 then 1 else (n + limit - 1) / limit := by
  split
  · rename_i hn
    exact pageCount_of_le (by omega) hlimit
  · have hone : 1 ≤ (n + limit - 1) / limit := (Nat.one_le_div_iff hlimit).mpr (by omega)
    unfold pageCount
    omega

theorem pageCount_add {n : Nat} (hn : 0 < n) (hlimit : 0 < limit) :
    pageCount limit (n + limit) = pageCount limit n + 1 := by
  have hone : 1 ≤ (n + limit - 1) / limit := (Nat.one_le_div_iff hlimit).mpr (by omega)
  have hstep : (n + limit + limit - 1) / limit = (n + limit - 1) / limit + 1 := by
    rw [← Nat.add_div_right _ hlimit]
    congr 1
    omega
  unfold pageCount
  omega

/-- The place of the only item with a key. -/
theorem start?_getElem (hkeys : (l.map key).Nodup) {i : Nat} (hi : i < l.length) :
    start? key l (some (key l[i])) = some (i + 1) := by
  have hdistinct : l.Pairwise fun a b => key a ≠ key b := List.pairwise_map.mp hkeys
  have hfind : (l.findIdx? fun a => key a = key l[i]) = some i := by
    refine List.findIdx?_eq_some_iff_getElem.mpr ⟨hi, decide_eq_true rfl, fun j hj hsame => ?_⟩
    exact List.pairwise_iff_getElem.mp hdistinct j i (Nat.lt_trans hj hi) hi hj (of_decide_eq_true hsame)
  show (l.findIdx? fun a => key a = key l[i]).map (· + 1) = some (i + 1)
  rw [hfind]
  rfl

theorem length_items {position : Nat} :
    (items limit l position).length = min limit (l.length - position) := by
  unfold items
  rw [List.length_take, List.length_drop]

/-- **The pages from a position on.** -/
theorem pages_from (hkeys : (l.map key).Nodup) (hlimit : 0 < limit) {n position : Nat}
    {cursor : Option κ} (hstart : start? key l cursor = some position)
    (hn : position + n = l.length) : ∃ pages, Pages key limit l cursor pages ∧
      pages.flatten = l.drop position ∧ pages.length = pageCount limit n := by
  induction n using Nat.strong_induction_on generalizing position cursor with
  | _ n ih =>
    have hlength := @length_items _ limit l position
    by_cases hlast : n ≤ limit
    · have hnext : next? key limit l position = none := if_neg (by omega)
      refine ⟨_, .last hstart hnext, ?_, (pageCount_of_le hlast hlimit).symm⟩
      rw [List.flatten_singleton]
      exact List.take_of_length_le (by rw [List.length_drop]; omega)
    · have hi : position + limit - 1 < l.length := by omega
      have hget : (items limit l position).getLast? = some l[position + limit - 1] := by
        rw [List.getLast?_eq_getElem?, hlength]
        unfold items
        rw [List.getElem?_take_of_lt (by omega), List.getElem?_drop]
        refine (List.getElem?_eq_some_iff.mpr ⟨by omega, ?_⟩)
        congr 1
        omega
      have hnext : next? key limit l position = some (key l[position + limit - 1]) := by
        unfold next?
        rw [if_pos (by omega), hget]
        rfl
      have hstart' : start? key l (some (key l[position + limit - 1])) = some (position + limit) := by
        rw [start?_getElem hkeys hi]
        congr 1
        omega
      obtain ⟨pages, hpages, hflatten, hcount⟩ := ih (n - limit) (by omega) hstart' (by omega)
      refine ⟨_, .more hstart hnext hpages, ?_, ?_⟩
      · rw [List.flatten_cons, hflatten, ← List.drop_drop]
        exact List.take_append_drop limit (l.drop position)
      · have hstep := pageCount_add (show 0 < n - limit by omega) hlimit
        rw [Nat.sub_add_cancel (by omega)] at hstep
        rw [List.length_cons, hcount, hstep]

/-- **The pages give the list once and in order**, from the first page to the one that says that
nothing is left. -/
theorem pages_exact (hkeys : (l.map key).Nodup) (hlimit : 0 < limit) :
    ∃ pages, Pages key limit l none pages ∧ pages.flatten = l ∧
      pages.length = pageCount limit l.length :=
  pages_from hkeys hlimit rfl (Nat.zero_add _)

/-- A cursor has one list of pages. -/
theorem Pages.unique {cursor : Option κ} {pages pages' : List (List α)}
    (h : Pages key limit l cursor pages) (h' : Pages key limit l cursor pages') : pages = pages' := by
  induction h generalizing pages' with
  | last hstart hnext =>
    cases h' with
    | last hstart' _ =>
      cases hstart.symm.trans hstart'
      rfl
    | more hstart' hnext' _ =>
      cases hstart.symm.trans hstart'
      cases hnext.symm.trans hnext'
  | more hstart hnext _ ih =>
    cases h' with
    | last hstart' hnext' =>
      cases hstart.symm.trans hstart'
      cases hnext.symm.trans hnext'
    | more hstart' hnext' rest' =>
      cases hstart.symm.trans hstart'
      cases hnext.symm.trans hnext'
      rw [ih rest']

end Cursor
