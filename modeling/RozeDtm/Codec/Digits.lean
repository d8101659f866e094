import Mathlib.Algebra.Ring.Nat
import Mathlib.Data.List.Basic

/-!
# Numbers in digits

A number in the digits of a base up to sixteen, with zeros in front up to a width; a number that
has more digits is written in all of them.

* `padded_injective`: the digits give the number back.
* `padded_append_injective`: two numbers written one after the other, without a separator, are
  given back by their digits among pairs that grow together.
-/

namespace Codec.Digits

/-- The number of a hexadecimal digit. -/
def number (c : Char) : Nat := if c.toNat < 58 then c.toNat - 48 else c.toNat - 87

theorem number_digitChar {n : Nat} (h : n < 16) : number n.digitChar = n := by
  revert n
  decide

/-- The number that these digits are read as, most significant first. -/
def value (base : Nat) (cs : List Char) : Nat :=
  cs.foldl (fun n c => base * n + number c) 0

/-- The digits of a number, with zeros in front up to `width`. -/
def padded (base width n : Nat) : List Char :=
  List.replicate (width - (Nat.toDigits base n).length) '0' ++ Nat.toDigits base n

variable {base width m n : Nat}

/-! ### Reading a number -/

theorem value_snoc (cs : List Char) (c : Char) :
    value base (cs ++ [c]) = base * value base cs + number c := List.foldl_concat _ _ _ _

theorem value_zeros_append (k : Nat) (cs : List Char) :
    value base (List.replicate k '0' ++ cs) = value base cs := by
  induction k with
  | zero => rfl
  | succ k ih =>
    have hzero : base * 0 + number '0' = 0 := Nat.mul_zero base
    rw [← ih]
    unfold value
    rw [List.replicate_succ, List.cons_append, List.foldl_cons, hzero]

theorem value_toDigits (hbase : 1 < base) (hhex : base ≤ 16) (n : Nat) :
    value base (Nat.toDigits base n) = n := by
  induction n using Nat.strongRecOn with
  | ind n ih =>
    by_cases hlt : n < base
    · rw [Nat.toDigits_of_lt_base hlt]
      have hdigit := number_digitChar (n := n) (by omega)
      show base * 0 + number n.digitChar = n
      rw [hdigit, Nat.mul_zero, Nat.zero_add]
    · have hless : n / base < n := Nat.div_lt_self (by omega) hbase
      have hmod : n % base < base := Nat.mod_lt n (by omega)
      rw [Nat.toDigits_of_base_le hbase (by omega), value_snoc, ih _ hless,
        number_digitChar (by omega)]
      exact Nat.div_add_mod n base

theorem value_padded (hbase : 1 < base) (hhex : base ≤ 16) (width n : Nat) :
    value base (padded base width n) = n := by
  unfold padded
  rw [value_zeros_append, value_toDigits hbase hhex]

/-- **The digits give the number back.** -/
theorem padded_injective (hbase : 1 < base) (hhex : base ≤ 16) (width : Nat) :
    Function.Injective (padded base width) := by
  intro m n h
  rw [← value_padded hbase hhex width m, h, value_padded hbase hhex]

theorem toDigits_injective (hbase : 1 < base) (hhex : base ≤ 16) :
    Function.Injective (Nat.toDigits base) := by
  intro m n h
  rw [← value_toDigits hbase hhex m, h, value_toDigits hbase hhex]

/-! ### Lengths -/

theorem length_padded : (padded base width n).length = max width (Nat.toDigits base n).length := by
  unfold padded
  rw [List.length_append, List.length_replicate]
  omega

/-- A larger number does not have fewer digits. -/
theorem length_toDigits_mono (hbase : 1 < base) (h : m ≤ n) :
    (Nat.toDigits base m).length ≤ (Nat.toDigits base n).length := by
  have hpos : 0 < (Nat.toDigits base n).length := Nat.length_toDigits_pos
  have hn := (Nat.length_toDigits_le_iff hbase hpos).mp (Nat.le_refl _)
  exact (Nat.length_toDigits_le_iff hbase hpos).mpr (Nat.lt_of_le_of_lt h hn)

theorem length_padded_mono (width : Nat) (hbase : 1 < base) (h : m ≤ n) :
    (padded base width m).length ≤ (padded base width n).length := by
  have hdigits := length_toDigits_mono hbase h
  rw [length_padded, length_padded]
  omega

/-- **Two numbers written one after the other**: where neither falls, their lengths do not fall,
so equal texts are parted at the same place. -/
theorem padded_append_injective {width' m' n' : Nat} (hbase : 1 < base) (hhex : base ≤ 16)
    (hm : m ≤ m') (hn : n ≤ n')
    (h : padded base width m ++ padded base width' n =
      padded base width m' ++ padded base width' n') : m = m' ∧ n = n' := by
  have hfirst := length_padded_mono width hbase hm
  have hsecond := length_padded_mono width' hbase hn
  have hlength := congrArg List.length h
  rw [List.length_append, List.length_append] at hlength
  obtain ⟨h1, h2⟩ := List.append_inj h (by omega)
  exact ⟨padded_injective hbase hhex width h1, padded_injective hbase hhex width' h2⟩

/-! ### Which characters are digits -/

/-- A decimal digit is none of the characters that are not digits. -/
theorem not_mem_toDigits {c : Char} (hc : c.isDigit = false) (n : Nat) :
    c ∉ Nat.toDigits 10 n := by
  intro hmem
  have hdigit := Nat.isDigit_of_mem_toDigits (by decide) (by decide) hmem
  rw [hc] at hdigit
  cases hdigit

end Codec.Digits
