import Mathlib.Data.List.Basic

/-!
# Base64

The standard alphabet with padding.  A group of three bytes is four letters; the last group may
be shorter, and then its unused bits are zero and `=` fills it up.

* `length_encodeChars`: four letters for every three bytes begun.
* `decodeChars_encodeChars`: what is encoded is decoded.
* `encodeUrlChars_injective`: in the alphabet for URLs, without padding, different bytes are
  encoded differently.
-/

namespace Codec.Base64

/-! ### Letters -/

/-- The letter of a number below 64. -/
def letter (n : Nat) : Char :=
  if n < 26 then Char.ofNat (65 + n)
  else if n < 52 then Char.ofNat (71 + n)
  else if n < 62 then Char.ofNat (n - 4)
  else if n = 62 then '+'
  else '/'

/-- The number of a letter. -/
def number (c : Char) : Option Nat :=
  if 'A' ≤ c ∧ c ≤ 'Z' then some (c.toNat - 65)
  else if 'a' ≤ c ∧ c ≤ 'z' then some (c.toNat - 71)
  else if '0' ≤ c ∧ c ≤ '9' then some (c.toNat + 4)
  else if c = '+' then some 62
  else if c = '/' then some 63
  else none

theorem number_letter {n : Nat} (h : n < 64) : number (letter n) = some n := by
  revert n
  decide

theorem letter_ne_pad {n : Nat} (h : n < 64) : letter n ≠ '=' := by
  revert n
  decide

/-- A letter is one byte long. -/
theorem utf8Size_letter {n : Nat} (h : n < 64) : (letter n).utf8Size = 1 := by
  revert n
  decide

/-! ### Bytes -/

/-- The letters of these bytes. -/
def encodeChars : List UInt8 → List Char
  | [] => []
  | [a] => [letter (a.toNat / 4), letter (a.toNat % 4 * 16), '=', '=']
  | [a, b] =>
    [letter (a.toNat / 4), letter (a.toNat % 4 * 16 + b.toNat / 16),
      letter (b.toNat % 16 * 4), '=']
  | a :: b :: c :: rest =>
    letter (a.toNat / 4) :: letter (a.toNat % 4 * 16 + b.toNat / 16) ::
      letter (b.toNat % 16 * 4 + c.toNat / 64) :: letter (c.toNat % 64) :: encodeChars rest

/-- The bytes of a full group. -/
def decodeGroup (x y z w : Char) : Option (List UInt8) := do
  let x ← number x
  let y ← number y
  let z ← number z
  let w ← number w
  return [.ofNat (x * 4 + y / 16), .ofNat (y % 16 * 16 + z / 4), .ofNat (z % 4 * 64 + w)]

/-- The bytes of the last group, where bits that no byte takes must be zero. -/
def decodeLast (x y z w : Char) : Option (List UInt8) :=
  if w ≠ '=' then decodeGroup x y z w
  else if z ≠ '=' then do
    let x ← number x
    let y ← number y
    let z ← number z
    guard (z % 4 = 0)
    return [.ofNat (x * 4 + y / 16), .ofNat (y % 16 * 16 + z / 4)]
  else do
    let x ← number x
    let y ← number y
    guard (y % 16 = 0)
    return [.ofNat (x * 4 + y / 16)]

/-- The bytes of these letters. -/
def decodeChars : List Char → Option (List UInt8)
  | [] => some []
  | [x, y, z, w] => decodeLast x y z w
  | x :: y :: z :: w :: rest => do
    let group ← decodeGroup x y z w
    let bytes ← decodeChars rest
    return group ++ bytes
  | _ => none

def encode (bytes : List UInt8) : String := String.ofList (encodeChars bytes)

def decode (text : String) : Option (List UInt8) := decodeChars text.toList

/-- The letter of a number below 64 in the alphabet for URLs. -/
def urlLetter (n : Nat) : Char :=
  if n = 62 then '-' else if n = 63 then '_' else letter n

/-- The letters of these bytes in the alphabet for URLs, without padding. -/
def encodeUrlChars : List UInt8 → List Char
  | [] => []
  | [a] => [urlLetter (a.toNat / 4), urlLetter (a.toNat % 4 * 16)]
  | [a, b] =>
    [urlLetter (a.toNat / 4), urlLetter (a.toNat % 4 * 16 + b.toNat / 16),
      urlLetter (b.toNat % 16 * 4)]
  | a :: b :: c :: rest =>
    urlLetter (a.toNat / 4) :: urlLetter (a.toNat % 4 * 16 + b.toNat / 16) ::
      urlLetter (b.toNat % 16 * 4 + c.toNat / 64) :: urlLetter (c.toNat % 64) ::
      encodeUrlChars rest

def encodeUrl (bytes : List UInt8) : String := String.ofList (encodeUrlChars bytes)

/-! ### Lengths -/

theorem length_encodeChars (bytes : List UInt8) :
    (encodeChars bytes).length = 4 * ((bytes.length + 2) / 3) := by
  induction bytes using encodeChars.induct with
  | case1 => rfl
  | case2 a => simp only [encodeChars, List.length_cons, List.length_nil]
  | case3 a b => simp only [encodeChars, List.length_cons, List.length_nil]
  | case4 a b c rest ih =>
    rw [encodeChars]
    simp only [List.length_cons, ih]
    omega

/-- What holds of every letter and of `=` holds of what is encoded. -/
theorem forall_encodeChars {P : Char → Prop} (hletter : ∀ n < 64, P (letter n)) (hpad : P '=')
    (bytes : List UInt8) : ∀ c ∈ encodeChars bytes, P c := by
  induction bytes using encodeChars.induct with
  | case1 => exact nofun
  | case2 a =>
    have ha := a.toNat_lt
    simp only [encodeChars, List.forall_mem_cons]
    exact ⟨hletter _ (by omega), hletter _ (by omega), hpad, hpad, nofun⟩
  | case3 a b =>
    have ha := a.toNat_lt
    have hb := b.toNat_lt
    simp only [encodeChars, List.forall_mem_cons]
    exact ⟨hletter _ (by omega), hletter _ (by omega), hletter _ (by omega), hpad, nofun⟩
  | case4 a b c rest ih =>
    have ha := a.toNat_lt
    have hb := b.toNat_lt
    have hc := c.toNat_lt
    simp only [encodeChars, List.forall_mem_cons]
    exact ⟨hletter _ (by omega), hletter _ (by omega), hletter _ (by omega),
      hletter _ (by omega), ih⟩

/-! ### Decoding what was encoded -/

theorem byte_eq {n : Nat} {a : UInt8} (h : n = a.toNat) : UInt8.ofNat n = a := by
  rw [h, UInt8.ofNat_toNat]

theorem decodeGroup_letters (a b c : UInt8) :
    decodeGroup (letter (a.toNat / 4)) (letter (a.toNat % 4 * 16 + b.toNat / 16))
      (letter (b.toNat % 16 * 4 + c.toNat / 64)) (letter (c.toNat % 64)) = some [a, b, c] := by
  have ha := a.toNat_lt
  have hb := b.toNat_lt
  have hc := c.toNat_lt
  unfold decodeGroup
  rw [number_letter (by omega), number_letter (by omega), number_letter (by omega),
    number_letter (by omega)]
  show some [UInt8.ofNat _, UInt8.ofNat _, UInt8.ofNat _] = _
  rw [byte_eq (a := a) (by omega), byte_eq (a := b) (by omega), byte_eq (a := c) (by omega)]

theorem decodeChars_pair (a b : UInt8) : decodeChars (encodeChars [a, b]) = some [a, b] := by
  have ha := a.toNat_lt
  have hb := b.toNat_lt
  rw [encodeChars, decodeChars, decodeLast, if_neg (by decide),
    if_pos (letter_ne_pad (by omega)), number_letter (by omega), number_letter (by omega),
    number_letter (by omega)]
  show (guard (b.toNat % 16 * 4 % 4 = 0) >>= fun _ => some [UInt8.ofNat _, UInt8.ofNat _]) = _
  rw [show b.toNat % 16 * 4 % 4 = 0 by omega, byte_eq (a := a) (by omega),
    byte_eq (a := b) (by omega)]
  rfl

theorem decodeChars_single (a : UInt8) : decodeChars (encodeChars [a]) = some [a] := by
  have ha := a.toNat_lt
  rw [encodeChars, decodeChars, decodeLast, if_neg (by decide), if_neg (by decide),
    number_letter (by omega), number_letter (by omega)]
  show (guard (a.toNat % 4 * 16 % 16 = 0) >>= fun _ => some [UInt8.ofNat _]) = _
  rw [show a.toNat % 4 * 16 % 16 = 0 by omega, byte_eq (a := a) (by omega)]
  rfl

/-- A group in front of others, full or last. -/
theorem decodeChars_group {x y z w : Char} {rest : List Char} {group bytes : List UInt8}
    (hw : w ≠ '=') (hgroup : decodeGroup x y z w = some group)
    (hrest : decodeChars rest = some bytes) :
    decodeChars (x :: y :: z :: w :: rest) = some (group ++ bytes) := by
  cases rest with
  | nil =>
    cases hrest
    rw [decodeChars, decodeLast, if_pos hw, hgroup, List.append_nil]
  | cons c rest =>
    rw [decodeChars, hgroup, hrest]
    · rfl
    · exact nofun

/-- **What is encoded is decoded.** -/
theorem decodeChars_encodeChars (bytes : List UInt8) :
    decodeChars (encodeChars bytes) = some bytes := by
  induction bytes using encodeChars.induct with
  | case1 => rfl
  | case2 a => exact decodeChars_single a
  | case3 a b => exact decodeChars_pair a b
  | case4 a b c rest ih =>
    have hc := c.toNat_lt
    rw [encodeChars]
    exact decodeChars_group (letter_ne_pad (by omega)) (decodeGroup_letters a b c) ih

theorem decode_encode (bytes : List UInt8) : decode (encode bytes) = some bytes := by
  unfold decode encode
  rw [String.toList_ofList]
  exact decodeChars_encodeChars bytes

/-! ### The alphabet for URLs -/

/-- The number of a letter in the alphabet for URLs. -/
def urlNumber (c : Char) : Option Nat :=
  if c = '-' then some 62 else if c = '_' then some 63 else number c

theorem urlNumber_urlLetter {n : Nat} (h : n < 64) : urlNumber (urlLetter n) = some n := by
  revert n
  decide

theorem urlLetter_inj {m n : Nat} (hm : m < 64) (hn : n < 64) (h : urlLetter m = urlLetter n) :
    m = n := by
  have hnumber := congrArg urlNumber h
  rw [urlNumber_urlLetter hm, urlNumber_urlLetter hn] at hnumber
  exact Option.some.inj hnumber

/-- What holds of every letter for URLs holds of what is encoded. -/
theorem forall_encodeUrlChars {P : Char → Prop} (hletter : ∀ n < 64, P (urlLetter n))
    (bytes : List UInt8) : ∀ c ∈ encodeUrlChars bytes, P c := by
  induction bytes using encodeUrlChars.induct with
  | case1 => exact nofun
  | case2 a =>
    have ha := a.toNat_lt
    simp only [encodeUrlChars, List.forall_mem_cons]
    exact ⟨hletter _ (by omega), hletter _ (by omega), nofun⟩
  | case3 a b =>
    have ha := a.toNat_lt
    have hb := b.toNat_lt
    simp only [encodeUrlChars, List.forall_mem_cons]
    exact ⟨hletter _ (by omega), hletter _ (by omega), hletter _ (by omega), nofun⟩
  | case4 a b c rest ih =>
    have ha := a.toNat_lt
    have hb := b.toNat_lt
    have hc := c.toNat_lt
    simp only [encodeUrlChars, List.forall_mem_cons]
    exact ⟨hletter _ (by omega), hletter _ (by omega), hletter _ (by omega),
      hletter _ (by omega), ih⟩

theorem length_encodeUrlChars (bytes : List UInt8) :
    (encodeUrlChars bytes).length = (4 * bytes.length + 2) / 3 := by
  induction bytes using encodeUrlChars.induct with
  | case1 => rfl
  | case2 a => simp only [encodeUrlChars, List.length_cons, List.length_nil]
  | case3 a b => simp only [encodeUrlChars, List.length_cons, List.length_nil]
  | case4 a b c rest ih =>
    rw [encodeUrlChars]
    simp only [List.length_cons, ih]
    omega

/-- The bytes that the letters of a group are made of. -/
theorem urlGroup_inj {a b c a' b' c' : UInt8}
    (h1 : urlLetter (a.toNat / 4) = urlLetter (a'.toNat / 4))
    (h2 : urlLetter (a.toNat % 4 * 16 + b.toNat / 16) =
      urlLetter (a'.toNat % 4 * 16 + b'.toNat / 16))
    (h3 : urlLetter (b.toNat % 16 * 4 + c.toNat / 64) =
      urlLetter (b'.toNat % 16 * 4 + c'.toNat / 64))
    (h4 : c.toNat % 64 = c'.toNat % 64) : a = a' ∧ b = b' ∧ c = c' := by
  have ha := a.toNat_lt
  have hb := b.toNat_lt
  have hc := c.toNat_lt
  have ha' := a'.toNat_lt
  have hb' := b'.toNat_lt
  have hc' := c'.toNat_lt
  have h1 := urlLetter_inj (by omega) (by omega) h1
  have h2 := urlLetter_inj (by omega) (by omega) h2
  have h3 := urlLetter_inj (by omega) (by omega) h3
  simp only [← UInt8.toNat_inj]
  omega

/-- **Different bytes are encoded differently.** -/
theorem encodeUrlChars_injective : Function.Injective encodeUrlChars := by
  intro xs ys h
  have hlength := congrArg List.length h
  rw [length_encodeUrlChars, length_encodeUrlChars] at hlength
  induction xs using encodeUrlChars.induct generalizing ys with
  | case1 => exact (List.length_eq_zero_iff.mp (by rw [List.length_nil] at hlength; omega)).symm
  | case2 a =>
    obtain ⟨a', rfl⟩ : ∃ a', ys = [a'] :=
      List.length_eq_one_iff.mp (by rw [List.length_singleton] at hlength; omega)
    simp only [encodeUrlChars, List.cons.injEq, and_true] at h
    rw [(@urlGroup_inj a 0 0 a' 0 0 h.1 h.2 rfl rfl).1]
  | case3 a b =>
    obtain ⟨a', b', rfl⟩ : ∃ a' b', ys = [a', b'] :=
      List.length_eq_two.mp (by simp only [List.length_cons, List.length_nil] at hlength; omega)
    simp only [encodeUrlChars, List.cons.injEq, and_true] at h
    obtain ⟨ha, hb, -⟩ := @urlGroup_inj a b 0 a' b' 0 h.1 h.2.1 h.2.2 rfl
    rw [ha, hb]
  | case4 a b c rest ih =>
    match ys with
    | [] | [_] | [_, _] =>
      simp only [List.length_cons, List.length_nil] at hlength
      omega
    | a' :: b' :: c' :: rest' =>
      simp only [encodeUrlChars, List.cons.injEq] at h
      obtain ⟨h1, h2, h3, h4, hrest⟩ := h
      have hc := urlLetter_inj (Nat.mod_lt _ (by decide)) (Nat.mod_lt _ (by decide)) h4
      obtain ⟨rfl, rfl, rfl⟩ := urlGroup_inj h1 h2 h3 hc
      rw [ih hrest]
      simp only [List.length_cons] at hlength
      omega

end Codec.Base64
