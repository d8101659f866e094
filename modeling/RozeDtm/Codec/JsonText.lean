import Mathlib.Algebra.Ring.Nat
import Mathlib.Data.List.Basic
import Mathlib.Data.Option.Basic

/-!
# Texts in JSON

A text in quotes, with the characters escaped that may not stand there as they are, an object
whose values are texts, and a list of texts.

* `utf8Size_quoteChars_le`: escaping makes a text at most six times as long.
* `readString_escapeChars`, `readEntry_entryChars`: what is written is read.
* `arrayChars_injective`: different lists of texts are written differently.
-/

namespace Codec.JsonText

/-- The hexadecimal digit of a number below 16. -/
def hexDigit (n : Nat) : Char := if n < 10 then Char.ofNat (48 + n) else Char.ofNat (87 + n)

/-- The letter that stands for a character after a backslash. -/
def shortEscape (c : Char) : Option Char :=
  if c = '"' then some '"'
  else if c = '\\' then some '\\'
  else if c = '\x08' then some 'b'
  else if c = '\t' then some 't'
  else if c = '\n' then some 'n'
  else if c = '\x0c' then some 'f'
  else if c = '\r' then some 'r'
  else none

/-- How a character is written. -/
def escapeChar (c : Char) : List Char :=
  match shortEscape c with
  | some e => ['\\', e]
  | none =>
    if c.toNat < 32 then ['\\', 'u', '0', '0', hexDigit (c.toNat / 16), hexDigit (c.toNat % 16)]
    else [c]

def escapeChars (cs : List Char) : List Char := cs.flatMap escapeChar

def quoteChars (cs : List Char) : List Char := '"' :: (escapeChars cs ++ ['"'])

/-- A key and its value. -/
def entryChars (entry : List Char × List Char) : List Char :=
  quoteChars entry.1 ++ ':' :: quoteChars entry.2

/-- An object of texts, without blanks. -/
def objectChars (entries : List (List Char × List Char)) : List Char :=
  '\x7b' :: ([','].intercalate (entries.map entryChars) ++ ['\x7d'])

/-- The texts of a list after the first, up to the closing bracket. -/
def restChars : List (List Char) → List Char
  | [] => [']']
  | cs :: css => ',' :: (quoteChars cs ++ restChars css)

/-- A list of texts, without blanks. -/
def arrayChars : List (List Char) → List Char
  | [] => ['[', ']']
  | cs :: css => '[' :: (quoteChars cs ++ restChars css)

/-! ### Lengths -/

/-- The length in bytes. -/
def utf8Size (cs : List Char) : Nat := (cs.map Char.utf8Size).sum

theorem utf8Size_cons (c : Char) (cs : List Char) : utf8Size (c :: cs) = c.utf8Size + utf8Size cs :=
  List.sum_cons

theorem utf8Size_append (cs ds : List Char) : utf8Size (cs ++ ds) = utf8Size cs + utf8Size ds := by
  unfold utf8Size
  rw [List.map_append, List.sum_append]

theorem utf8ByteSize_ofList (cs : List Char) : (String.ofList cs).utf8ByteSize = utf8Size cs := by
  induction cs with
  | nil => rfl
  | cons c cs ih =>
    rw [String.ofList_cons, String.utf8ByteSize_append, String.utf8ByteSize_singleton, ih,
      utf8Size_cons]

theorem utf8Size_toList (s : String) : utf8Size s.toList = s.utf8ByteSize := by
  rw [← utf8ByteSize_ofList, String.ofList_toList]

/-- Characters of one byte each. -/
theorem utf8Size_eq_length {cs : List Char} (h : ∀ c ∈ cs, c.utf8Size = 1) :
    utf8Size cs = cs.length := by
  induction cs with
  | nil => rfl
  | cons c cs ih =>
    rw [List.forall_mem_cons] at h
    rw [utf8Size_cons, h.1, ih h.2, List.length_cons, Nat.add_comm]

theorem utf8Size_hexDigit {n : Nat} (h : n < 16) : (hexDigit n).utf8Size = 1 := by
  revert n
  decide

theorem utf8Size_shortEscape {c e : Char} (h : shortEscape c = some e) : e.utf8Size = 1 := by
  unfold shortEscape at h
  split_ifs at h <;> cases h <;> rfl

theorem utf8Size_escapeChar_le (c : Char) : utf8Size (escapeChar c) ≤ 6 * c.utf8Size := by
  have hpos := c.utf8Size_pos
  unfold escapeChar
  split
  · rename_i e he
    have hsize : utf8Size ['\\', e] = 1 + (e.utf8Size + 0) := rfl
    rw [utf8Size_shortEscape he] at hsize
    omega
  · split
    · have hsize : utf8Size ['\\', 'u', '0', '0', hexDigit (c.toNat / 16), hexDigit (c.toNat % 16)] =
          1 + (1 + (1 + (1 + ((hexDigit (c.toNat / 16)).utf8Size +
            ((hexDigit (c.toNat % 16)).utf8Size + 0))))) := rfl
      rw [utf8Size_hexDigit (by omega), utf8Size_hexDigit (by omega)] at hsize
      omega
    · have hsize : utf8Size [c] = c.utf8Size + 0 := rfl
      omega

/-- **Escaping makes a text at most six times as long.** -/
theorem utf8Size_escapeChars_le (cs : List Char) : utf8Size (escapeChars cs) ≤ 6 * utf8Size cs := by
  induction cs with
  | nil => exact Nat.le_refl 0
  | cons c cs ih =>
    have hc := utf8Size_escapeChar_le c
    have happend : utf8Size (escapeChars (c :: cs)) =
        utf8Size (escapeChar c) + utf8Size (escapeChars cs) := utf8Size_append _ _
    rw [utf8Size_cons]
    omega

/-- Characters that are written as they are. -/
theorem escapeChars_eq_self {cs : List Char} (h : ∀ c ∈ cs, escapeChar c = [c]) :
    escapeChars cs = cs := by
  induction cs with
  | nil => rfl
  | cons c cs ih =>
    rw [List.forall_mem_cons] at h
    show escapeChar c ++ escapeChars cs = _
    rw [h.1, ih h.2, List.singleton_append]

theorem utf8Size_quoteChars (cs : List Char) :
    utf8Size (quoteChars cs) = utf8Size (escapeChars cs) + 2 := by
  have hquote : utf8Size ['"'] = 1 := rfl
  have hfirst : ('"').utf8Size = 1 := rfl
  unfold quoteChars
  rw [utf8Size_cons, utf8Size_append, hquote, hfirst]
  omega

/-! ### Reading -/

def hexNumber (c : Char) : Option Nat :=
  if '0' ≤ c ∧ c ≤ '9' then some (c.toNat - 48)
  else if 'a' ≤ c ∧ c ≤ 'f' then some (c.toNat - 87)
  else if 'A' ≤ c ∧ c ≤ 'F' then some (c.toNat - 55)
  else none

theorem hexNumber_hexDigit {n : Nat} (h : n < 16) : hexNumber (hexDigit n) = some n := by
  revert n
  decide

/-- The character that a letter after a backslash stands for. -/
def unescape (e : Char) : Option Char :=
  if e = '"' ∨ e = '\\' ∨ e = '/' then some e
  else if e = 'b' then some '\x08'
  else if e = 't' then some '\t'
  else if e = 'n' then some '\n'
  else if e = 'f' then some '\x0c'
  else if e = 'r' then some '\r'
  else none

/-- A text up to its closing quote, and what comes after.  A character outside the basic plane is
read where it stands as it is, not from a pair of escapes. -/
def readString : List Char → Option (List Char × List Char)
  | [] => none
  | c :: rest =>
    if c = '"' then some ([], rest)
    else if c ≠ '\\' then (readString rest).map fun (cs, tail) => (c :: cs, tail)
    else match rest with
      | [] => none
      | e :: rest =>
        if e ≠ 'u' then do
          let c ← unescape e
          (readString rest).map fun (cs, tail) => (c :: cs, tail)
        else match rest with
          | x :: y :: z :: w :: rest => do
            let x ← hexNumber x
            let y ← hexNumber y
            let z ← hexNumber z
            let w ← hexNumber w
            let n := x * 4096 + y * 256 + z * 16 + w
            guard (n < 55296 ∨ 57343 < n)
            (readString rest).map fun (cs, tail) => (Char.ofNat n :: cs, tail)
          | _ => none

/-- The next character is this one. -/
def expect (c : Char) : List Char → Option (List Char)
  | [] => none
  | d :: rest => if d = c then some rest else none

/-- A key, its value, and what comes after. -/
def readEntry (cs : List Char) : Option ((List Char × List Char) × List Char) := do
  let rest ← expect '"' cs
  let (key, rest) ← readString rest
  let rest ← expect ':' rest
  let rest ← expect '"' rest
  let (value, rest) ← readString rest
  return ((key, value), rest)

/-- Entries up to the closing brace, at most `fuel` of them. -/
def readEntries : Nat → List Char → Option (List (List Char × List Char) × List Char)
  | 0, _ => none
  | fuel + 1, cs => do
    let (entry, rest) ← readEntry cs
    match expect ',' rest with
    | some rest => (readEntries fuel rest).map fun (entries, tail) => (entry :: entries, tail)
    | none => (expect '\x7d' rest).map fun tail => ([entry], tail)

/-- An object with an entry at least; each is longer than one character. -/
def readObject (cs : List Char) : Option (List (List Char × List Char)) := do
  let rest ← expect '\x7b' cs
  let (entries, tail) ← readEntries cs.length rest
  guard tail.isEmpty
  return entries

theorem expect_cons (c : Char) (rest : List Char) : expect c (c :: rest) = some rest := if_pos rfl

theorem unescape_shortEscape {c e : Char} (h : shortEscape c = some e) :
    e ≠ 'u' ∧ unescape e = some c := by
  unfold shortEscape at h
  split_ifs at h <;> subst_vars <;> cases h <;> decide

theorem readString_escapeChar (c : Char) (rest : List Char) :
    readString (escapeChar c ++ rest) =
      (readString rest).map fun (cs, tail) => (c :: cs, tail) := by
  unfold escapeChar
  split
  · rename_i e he
    obtain ⟨hu, hc⟩ := unescape_shortEscape he
    show readString ('\\' :: e :: rest) = _
    rw [readString.eq_def]
    dsimp only
    rw [if_neg (by decide), if_neg (by decide), if_pos hu, hc]
    rfl
  · rename_i hshort
    split
    · rename_i hlow
      have hzero : hexNumber '0' = some 0 := rfl
      show readString ('\\' :: 'u' :: '0' :: '0' :: hexDigit (c.toNat / 16) ::
        hexDigit (c.toNat % 16) :: rest) = _
      rw [readString.eq_def]
      dsimp only
      rw [if_neg (by decide), if_neg (by decide), if_neg (by decide), hexNumber_hexDigit (by omega), hexNumber_hexDigit (by omega), hzero]
      show (guard (0 * 4096 + 0 * 256 + c.toNat / 16 * 16 + c.toNat % 16 < 55296 ∨ _) >>= fun _ =>
        (readString rest).map fun p => (Char.ofNat (0 * 4096 + 0 * 256 + c.toNat / 16 * 16 +
          c.toNat % 16) :: p.1, p.2)) = _
      rw [show 0 * 4096 + 0 * 256 + c.toNat / 16 * 16 + c.toNat % 16 = c.toNat by omega,
        Char.ofNat_toNat, guard, if_pos (.inl (by omega))]
      rfl
    · have hquote : c ≠ '"' := by
        rintro rfl
        cases hshort
      have hslash : c ≠ '\\' := by
        rintro rfl
        cases hshort
      show readString (c :: rest) = _
      rw [readString.eq_def]
      dsimp only
      rw [if_neg hquote, if_pos hslash]

/-- **What is written is read.** -/
theorem readString_escapeChars (cs tail : List Char) :
    readString (escapeChars cs ++ '"' :: tail) = some (cs, tail) := by
  induction cs with
  | nil =>
    show readString ('"' :: tail) = _
    rw [readString.eq_def]
    exact if_pos rfl
  | cons c cs ih =>
    show readString ((escapeChar c ++ escapeChars cs) ++ '"' :: tail) = _
    rw [List.append_assoc, readString_escapeChar, ih]
    rfl

theorem readEntry_entryChars (entry : List Char × List Char) (tail : List Char) :
    readEntry (entryChars entry ++ tail) = some (entry, tail) := by
  have hchars : entryChars entry ++ tail = '"' :: (escapeChars entry.1 ++ '"' :: ':' :: '"' ::
      (escapeChars entry.2 ++ '"' :: tail)) := by
    unfold entryChars quoteChars
    simp only [List.cons_append, List.append_assoc, List.nil_append]
  rw [hchars]
  unfold readEntry
  rw [expect_cons, Option.bind_eq_bind, Option.bind_some, readString_escapeChars]
  show ((readString (escapeChars entry.2 ++ '"' :: tail)).bind fun _ => _) = _
  rw [readString_escapeChars]
  rfl

theorem readEntries_entryChars {entries : List (List Char × List Char)} (hne : entries ≠ [])
    {fuel : Nat} (hfuel : entries.length ≤ fuel) (tail : List Char) :
    readEntries fuel ([','].intercalate (entries.map entryChars) ++ '\x7d' :: tail) =
      some (entries, tail) := by
  induction entries generalizing fuel with
  | nil => exact absurd rfl hne
  | cons entry entries ih =>
    obtain ⟨fuel, rfl⟩ : ∃ n, fuel = n + 1 := ⟨fuel - 1, by
      rw [List.length_cons] at hfuel
      omega⟩
    have hread (rest : List Char) : readEntries (fuel + 1) (entryChars entry ++ rest) =
        (match expect ',' rest with
        | some rest => (readEntries fuel rest).map fun (entries, tail) => (entry :: entries, tail)
        | none => (expect '\x7d' rest).map fun tail => ([entry], tail)) := by
      rw [readEntries, readEntry_entryChars]
      rfl
    cases entries with
    | nil =>
      show readEntries (fuel + 1) ((entryChars entry ++ []) ++ '\x7d' :: tail) = _
      rw [List.append_nil, hread]
      rfl
    | cons next entries =>
      have hchars : [','].intercalate ((entry :: next :: entries).map entryChars) ++ '\x7d' :: tail =
          entryChars entry ++ (',' :: ([','].intercalate ((next :: entries).map entryChars) ++
            '\x7d' :: tail)) := by
        rw [List.map_cons, List.map_cons, List.intercalate_cons_cons, List.append_assoc,
          List.append_assoc]
        rfl
      rw [hchars, hread, expect_cons]
      dsimp only
      rw [ih nofun (Nat.le_of_succ_le_succ hfuel)]
      rfl

theorem length_le_length_entries (entries : List (List Char × List Char)) :
    entries.length ≤ ([','].intercalate (entries.map entryChars)).length := by
  induction entries with
  | nil => exact Nat.le_refl 0
  | cons entry entries ih =>
    have hentry : 0 < (entryChars entry).length := Nat.succ_pos _
    cases entries with
    | nil =>
      show 1 ≤ (entryChars entry ++ []).length
      rw [List.append_nil]
      omega
    | cons next entries =>
      rw [List.map_cons, List.map_cons, List.intercalate_cons_cons, List.length_append,
        List.length_append, List.length_cons]
      rw [List.map_cons] at ih
      omega

/-- **An object that is written is read.** -/
theorem readObject_objectChars {entries : List (List Char × List Char)} (hne : entries ≠ []) :
    readObject (objectChars entries) = some entries := by
  have hlength := length_le_length_entries entries
  unfold readObject objectChars
  rw [expect_cons, Option.bind_eq_bind, Option.bind_some, readEntries_entryChars hne]
  · rfl
  · rw [List.length_cons, List.length_append]
    omega

/-! ### Lists of texts -/

/-- Of two texts that something follows the first is given back, and what follows it. -/
theorem quoteChars_append_injective {cs ds s t : List Char}
    (h : quoteChars cs ++ s = quoteChars ds ++ t) : cs = ds ∧ s = t := by
  have hread (cs s : List Char) : readString ((escapeChars cs ++ ['"']) ++ s) = some (cs, s) := by
    rw [List.append_assoc]
    exact readString_escapeChars cs s
  have htail : (escapeChars cs ++ ['"']) ++ s = (escapeChars ds ++ ['"']) ++ t :=
    (List.cons.inj h).2
  have htexts := hread cs s
  rw [htail, hread] at htexts
  cases htexts
  exact ⟨rfl, rfl⟩

theorem restChars_injective : Function.Injective restChars := by
  intro css dss h
  induction css generalizing dss with
  | nil =>
    cases dss with
    | nil => rfl
    | cons ds dss => cases (List.cons.inj h).1
  | cons cs css ih =>
    cases dss with
    | nil => cases (List.cons.inj h).1
    | cons ds dss =>
      obtain ⟨rfl, hrest⟩ := quoteChars_append_injective (List.cons.inj h).2
      rw [ih hrest]

/-- **Different lists of texts are written differently.** -/
theorem arrayChars_injective : Function.Injective arrayChars := by
  intro css dss h
  cases css with
  | nil =>
    cases dss with
    | nil => rfl
    | cons ds dss => cases (List.cons.inj (List.cons.inj h).2).1
  | cons cs css =>
    cases dss with
    | nil => cases (List.cons.inj (List.cons.inj h).2).1
    | cons ds dss =>
      obtain ⟨rfl, hrest⟩ := quoteChars_append_injective (List.cons.inj h).2
      rw [restChars_injective hrest]

end Codec.JsonText
