import Mathlib.Data.List.TakeWhile
import RozeDtm.Codec.JsonText

/-!
# Documents in JSON

A document is written without blanks, and read with a limit on how deep its arrays and objects
nest.  A number is kept as its literal, an object as its entries in the order of the text.

* `readNumber_append`: a literal is read up to what ends it.
* `parse_chars`: what is written is read, unless it nests deeper than the limit.
-/

namespace Codec.JsonText

inductive Doc
  | null
  | bool (b : Bool)
  | num (literal : List Char)
  | str (s : List Char)
  | arr (items : List Doc)
  | obj (entries : List (List Char × Doc))

/-- Induction with what is said of each item and each value. -/
theorem Doc.induction {P : Doc → Prop} (null : P .null) (bool : ∀ b, P (.bool b))
    (num : ∀ l, P (.num l)) (str : ∀ s, P (.str s))
    (arr : ∀ items, (∀ d ∈ items, P d) → P (.arr items))
    (obj : ∀ entries, (∀ e ∈ entries, P e.2) → P (.obj entries)) (d : Doc) : P d :=
  @Doc.rec P (fun items => ∀ d ∈ items, P d) (fun entries => ∀ e ∈ entries, P e.2)
    (fun e => P e.2) null bool num str arr obj (fun _ h => absurd h List.not_mem_nil)
    (fun _ _ hd hds => List.forall_mem_cons.mpr ⟨hd, hds⟩)
    (fun _ h => absurd h List.not_mem_nil)
    (fun _ _ he hes => List.forall_mem_cons.mpr ⟨he, hes⟩) (fun _ _ h => h) d

/-! ### Writing -/

mutual

/-- A document without blanks. -/
def Doc.chars : Doc → List Char
  | .null => ['n', 'u', 'l', 'l']
  | .bool true => ['t', 'r', 'u', 'e']
  | .bool false => ['f', 'a', 'l', 's', 'e']
  | .num literal => literal
  | .str s => quoteChars s
  | .arr [] => ['[', ']']
  | .arr (d :: ds) => '[' :: (d.chars ++ Doc.itemsChars ds)
  | .obj [] => ['\x7b', '\x7d']
  | .obj ((key, d) :: es) => '\x7b' :: (quoteChars key ++ ':' :: (d.chars ++ Doc.entriesChars es))

/-- The items after the first, up to the closing bracket. -/
def Doc.itemsChars : List Doc → List Char
  | [] => [']']
  | d :: ds => ',' :: (d.chars ++ Doc.itemsChars ds)

/-- The entries after the first, up to the closing brace. -/
def Doc.entriesChars : List (List Char × Doc) → List Char
  | [] => ['\x7d']
  | (key, d) :: es => ',' :: (quoteChars key ++ ':' :: (d.chars ++ Doc.entriesChars es))

end

mutual

/-- How deep arrays and objects nest. -/
def Doc.nesting : Doc → Nat
  | .arr items => Doc.itemsNesting items + 1
  | .obj entries => Doc.entriesNesting entries + 1
  | _ => 0

def Doc.itemsNesting : List Doc → Nat
  | [] => 0
  | d :: ds => max d.nesting (Doc.itemsNesting ds)

def Doc.entriesNesting : List (List Char × Doc) → Nat
  | [] => 0
  | (_, d) :: es => max d.nesting (Doc.entriesNesting es)

end

mutual

/-- The numbers of a document. -/
def Doc.literals : Doc → List (List Char)
  | .num literal => [literal]
  | .arr items => Doc.itemsLiterals items
  | .obj entries => Doc.entriesLiterals entries
  | _ => []

def Doc.itemsLiterals : List Doc → List (List Char)
  | [] => []
  | d :: ds => d.literals ++ Doc.itemsLiterals ds

def Doc.entriesLiterals : List (List Char × Doc) → List (List Char)
  | [] => []
  | (_, d) :: es => d.literals ++ Doc.entriesLiterals es

end

/-! ### Reading texts -/

def isBlank (c : Char) : Bool := c = ' ' || c = '\t' || c = '\n' || c = '\r'

def skipBlanks (cs : List Char) : List Char := cs.dropWhile isBlank

/-- The number that four hexadecimal digits are. -/
def readUnit : List Char → Option (Nat × List Char)
  | x :: y :: z :: w :: rest => do
    let x ← hexNumber x
    let y ← hexNumber y
    let z ← hexNumber z
    let w ← hexNumber w
    return (x * 4096 + y * 256 + z * 16 + w, rest)
  | _ => none

/-- The character of an escape with digits, after the letter `u`: one outside the basic plane is
two such escapes. -/
def readUnicode (cs : List Char) : Option (Char × List Char) := do
  let (high, rest) ← readUnit cs
  if high < 55296 ∨ 57343 < high then return (Char.ofNat high, rest)
  else if 56319 < high then none
  else
    let rest ← expect 'u' (← expect '\\' rest)
    let (low, rest) ← readUnit rest
    guard (56320 ≤ low ∧ low ≤ 57343)
    return (Char.ofNat (65536 + (high - 55296) * 1024 + (low - 56320)), rest)

/-- The next character of a text. -/
def readChar : List Char → Option (Char × List Char)
  | [] => none
  | c :: rest =>
    if c = '\\' then
      match rest with
      | [] => none
      | e :: rest => if e = 'u' then readUnicode rest else (unescape e).map fun c => (c, rest)
    else if c.toNat < 32 then none
    else some (c, rest)

/-- A text up to its closing quote, of at most `fuel` characters with the quote, and what comes
after. -/
def readText : Nat → List Char → Option (List Char × List Char)
  | 0, _ => none
  | fuel + 1, cs =>
    match expect '"' cs with
    | some rest => some ([], rest)
    | none => do
      let (c, rest) ← readChar cs
      (readText fuel rest).map fun (cs, tail) => (c :: cs, tail)

/-! ### Reading numbers -/

/-- What reads a part of a literal, and what comes after. -/
abbrev Part := List Char → Option (List Char × List Char)

/-- One part and then another one. -/
def Part.andThen (p q : Part) : Part := fun cs => do
  let (l, rest) ← p cs
  let (l', rest) ← q rest
  return (l ++ l', rest)

/-- The digits that come next. -/
def digitsPart : Part := fun cs => some (cs.takeWhile Char.isDigit, cs.dropWhile Char.isDigit)

/-- The digits that come next, one at least. -/
def someDigitsPart : Part := fun cs =>
  if (cs.takeWhile Char.isDigit).isEmpty then none else digitsPart cs

/-- A character that `p` holds of, if there is one. -/
def optionalPart (p : Char → Bool) : Part
  | [] => some ([], [])
  | c :: rest => if p c then some ([c], rest) else some ([], c :: rest)

/-- An integer without sign and without zeros before it. -/
def integerPart : Part
  | [] => none
  | c :: rest =>
    if c = '0' then
      if (rest.takeWhile Char.isDigit).isEmpty then some (['0'], rest) else none
    else someDigitsPart (c :: rest)

/-- What a character that `p` holds of begins, if there is one. -/
def begunPart (p : Char → Bool) (q : Part) : Part
  | [] => some ([], [])
  | c :: rest =>
    if p c then (q rest).map fun (l, tail) => (c :: l, tail) else some ([], c :: rest)

/-- A number, and what comes after. -/
def readNumber : Part :=
  (optionalPart (· = '-')).andThen (integerPart.andThen
    ((begunPart (· = '.') someDigitsPart).andThen
      (begunPart (fun c => c = 'e' || c = 'E')
        ((optionalPart fun c => c = '+' || c = '-').andThen someDigitsPart))))

/-- A literal that is a number. -/
def IsNumber (literal : List Char) : Prop := readNumber literal = some (literal, [])

instance (literal : List Char) : Decidable (IsNumber literal) :=
  inferInstanceAs (Decidable (_ = _))

/-! ### Reading documents -/

/-- The characters of `word` come next. -/
def expectAll : List Char → List Char → Option (List Char)
  | [], cs => some cs
  | c :: word, cs => (expect c cs).bind (expectAll word)

/-- A key with its colon, and what comes after. -/
def readKey (cs : List Char) : Option (List Char × List Char) := do
  let rest ← expect '"' (skipBlanks cs)
  let (key, rest) ← readText (rest.length + 1) rest
  let rest ← expect ':' (skipBlanks rest)
  return (key, rest)

mutual

/-- A document and what comes after.  Arrays and objects nest at most `limit` deep. -/
def readValue : Nat → Nat → List Char → Option (Doc × List Char)
  | 0, _, _ => none
  | fuel + 1, limit, cs =>
    match skipBlanks cs with
    | [] => none
    | c :: rest =>
      if c = 'n' then (expectAll ['u', 'l', 'l'] rest).map fun rest => (.null, rest)
      else if c = 't' then (expectAll ['r', 'u', 'e'] rest).map fun rest => (.bool true, rest)
      else if c = 'f' then
        (expectAll ['a', 'l', 's', 'e'] rest).map fun rest => (.bool false, rest)
      else if c = '"' then
        (readText (rest.length + 1) rest).map fun (s, rest) => (.str s, rest)
      else if c = '[' then
        match limit with
        | 0 => none
        | limit + 1 =>
          match expect ']' (skipBlanks rest) with
          | some rest => some (.arr [], rest)
          | none => (readItems fuel limit rest).map fun (items, rest) => (.arr items, rest)
      else if c = '\x7b' then
        match limit with
        | 0 => none
        | limit + 1 =>
          match expect '\x7d' (skipBlanks rest) with
          | some rest => some (.obj [], rest)
          | none => (readDocEntries fuel limit rest).map fun (es, rest) => (.obj es, rest)
      else (readNumber (c :: rest)).map fun (l, rest) => (.num l, rest)

/-- The items of an array, one at least, up to the closing bracket. -/
def readItems : Nat → Nat → List Char → Option (List Doc × List Char)
  | 0, _, _ => none
  | fuel + 1, limit, cs => do
    let (d, rest) ← readValue fuel limit cs
    match expect ',' (skipBlanks rest) with
    | some rest => (readItems fuel limit rest).map fun (ds, rest) => (d :: ds, rest)
    | none => (expect ']' (skipBlanks rest)).map fun rest => ([d], rest)

/-- The entries of an object, one at least, up to the closing brace. -/
def readDocEntries : Nat → Nat → List Char → Option (List (List Char × Doc) × List Char)
  | 0, _, _ => none
  | fuel + 1, limit, cs => do
    let (key, rest) ← readKey cs
    let (d, rest) ← readValue fuel limit rest
    match expect ',' (skipBlanks rest) with
    | some rest => (readDocEntries fuel limit rest).map fun (es, rest) => ((key, d) :: es, rest)
    | none => (expect '\x7d' (skipBlanks rest)).map fun rest => ([(key, d)], rest)

end

/-- A document that is the whole text. -/
def parse (limit : Nat) (cs : List Char) : Option Doc := do
  let (d, rest) ← readValue (cs.length + 1) limit cs
  guard (skipBlanks rest).isEmpty
  return d

/-! ### Texts that are written are read -/

theorem readUnit_append {x y z w : Char} {a b c d : Nat} (hx : hexNumber x = some a)
    (hy : hexNumber y = some b) (hz : hexNumber z = some c) (hw : hexNumber w = some d)
    (rest : List Char) :
    readUnit (x :: y :: z :: w :: rest) = some (a * 4096 + b * 256 + c * 16 + d, rest) := by
  rw [readUnit, hx, hy, hz, hw]
  rfl

theorem readChar_escapeChar (c : Char) (rest : List Char) :
    readChar (escapeChar c ++ rest) = some (c, rest) := by
  unfold escapeChar
  split
  · rename_i e he
    obtain ⟨hu, hc⟩ := unescape_shortEscape he
    show (if e = 'u' then readUnicode rest else (unescape e).map fun c => (c, rest)) = _
    rw [if_neg hu, hc]
    rfl
  · rename_i hshort
    split
    · rename_i hlow
      have hzero : hexNumber '0' = some 0 := rfl
      have hunit := readUnit_append hzero hzero
        (hexNumber_hexDigit (by omega : c.toNat / 16 < 16))
        (hexNumber_hexDigit (by omega : c.toNat % 16 < 16)) rest
      rw [show 0 * 4096 + 0 * 256 + c.toNat / 16 * 16 + c.toNat % 16 = c.toNat by omega] at hunit
      show readUnicode ('0' :: '0' :: hexDigit (c.toNat / 16) :: hexDigit (c.toNat % 16) :: rest) =
        some (c, rest)
      rw [readUnicode, hunit, Option.bind_eq_bind, Option.bind_some]
      dsimp only
      rw [if_pos (Or.inl (by omega)), Char.ofNat_toNat]
      rfl
    · rename_i hhigh
      have hslash : c ≠ '\\' := by
        rintro rfl
        cases hshort
      show (if c = '\\' then _ else if c.toNat < 32 then none else some (c, rest)) = _
      rw [if_neg hslash, if_neg hhigh]

theorem escapeChar_head (c : Char) (rest : List Char) :
    ∃ d tail, escapeChar c ++ rest = d :: tail ∧ d ≠ '"' := by
  unfold escapeChar
  split
  · exact ⟨_, _, rfl, by decide⟩
  · rename_i hshort
    split
    · exact ⟨_, _, rfl, by decide⟩
    · refine ⟨c, rest, rfl, ?_⟩
      rintro rfl
      cases hshort

/-- **A text that is written is read.** -/
theorem readText_escapeChars (cs tail : List Char) {fuel : Nat} (hfuel : cs.length < fuel) :
    readText fuel (escapeChars cs ++ '"' :: tail) = some (cs, tail) := by
  induction cs generalizing fuel with
  | nil =>
    obtain ⟨fuel, rfl⟩ := Nat.exists_eq_succ_of_ne_zero (Nat.ne_zero_of_lt hfuel)
    show readText (fuel + 1) ('"' :: tail) = _
    rw [readText, expect_cons]
  | cons c cs ih =>
    obtain ⟨fuel, rfl⟩ := Nat.exists_eq_succ_of_ne_zero (Nat.ne_zero_of_lt hfuel)
    have hchars : escapeChars (c :: cs) ++ '"' :: tail =
        escapeChar c ++ (escapeChars cs ++ '"' :: tail) := List.append_assoc ..
    obtain ⟨d, rest, hrest, hd⟩ := escapeChar_head c (escapeChars cs ++ '"' :: tail)
    have hquote : expect '"' (escapeChar c ++ (escapeChars cs ++ '"' :: tail)) = none := by
      rw [hrest]
      exact if_neg hd
    rw [hchars, Nat.succ_eq_add_one, readText, hquote]
    dsimp only
    rw [readChar_escapeChar, Option.bind_eq_bind, Option.bind_some]
    dsimp only
    rw [ih (Nat.lt_of_succ_lt_succ hfuel)]
    rfl

theorem length_le_escapeChars (cs : List Char) : cs.length ≤ (escapeChars cs).length := by
  induction cs with
  | nil => exact Nat.le_refl 0
  | cons c cs ih =>
    have hpos : 0 < (escapeChar c).length := by
      obtain ⟨d, tail, h, -⟩ := escapeChar_head c []
      rw [List.append_nil] at h
      rw [h]
      exact Nat.succ_pos _
    have happend : (escapeChars (c :: cs)).length =
        (escapeChar c).length + (escapeChars cs).length := List.length_append
    rw [List.length_cons]
    omega

/-- A text in quotes, after its first quote. -/
theorem readText_quoteChars (s tail : List Char) :
    ∃ rest, quoteChars s ++ tail = '"' :: rest ∧
      readText (rest.length + 1) rest = some (s, tail) := by
  have happend : quoteChars s ++ tail = '"' :: (escapeChars s ++ '"' :: tail) := by
    simp only [quoteChars, List.cons_append, List.append_assoc, List.nil_append]
  refine ⟨_, happend, readText_escapeChars s tail ?_⟩
  have hlength := length_le_escapeChars s
  rw [List.length_append]
  omega

/-! ### Numbers that are written are read -/

/-- No number goes on with this text. -/
def Ends (tail : List Char) : Prop := ∀ c ∈ tail.head?, c = ',' ∨ c = ']' ∨ c = '\x7d'

theorem ends_nil : Ends [] := fun _ hc => by cases hc

theorem ends_cons {c : Char} {tail : List Char} (h : c = ',' ∨ c = ']' ∨ c = '\x7d') :
    Ends (c :: tail) := fun _ hc => by
  cases hc
  exact h

theorem Ends.head {tail : List Char} (h : Ends tail) {p : Char → Bool}
    (hp : p ',' = false ∧ p ']' = false ∧ p '\x7d' = false) :
    ∀ c ∈ tail.head?, p c = false := by
  intro c hc
  rcases h c hc with rfl | rfl | rfl
  · exact hp.1
  · exact hp.2.1
  · exact hp.2.2

theorem takeWhile_append_of_head {p : Char → Bool} (cs : List Char) {tail : List Char}
    (h : ∀ c ∈ tail.head?, p c = false) :
    (cs ++ tail).takeWhile p = cs.takeWhile p ∧
      (cs ++ tail).dropWhile p = cs.dropWhile p ++ tail := by
  induction cs with
  | nil =>
    cases tail with
    | nil => exact ⟨rfl, rfl⟩
    | cons c tail =>
      have hc := h c rfl
      rw [List.nil_append, List.takeWhile_cons, List.dropWhile_cons, hc]
      exact ⟨rfl, rfl⟩
  | cons c cs ih =>
    rw [List.cons_append, List.takeWhile_cons, List.takeWhile_cons, List.dropWhile_cons,
      List.dropWhile_cons]
    cases p c with
    | false => exact ⟨rfl, rfl⟩
    | true => exact ⟨congrArg (c :: ·) ih.1, ih.2⟩

namespace Part

/-- The part is read up to what ends it. -/
structure Stops (p : Part) : Prop where
  append : ∀ {cs l rest tail : List Char}, Ends tail → p cs = some (l, rest) →
    p (cs ++ tail) = some (l, rest ++ tail)

theorem Stops.andThen {p q : Part} (hp : p.Stops) (hq : q.Stops) : (p.andThen q).Stops := by
  refine ⟨fun {cs l rest tail} ht h => ?_⟩
  simp only [Part.andThen, Option.bind_eq_bind, Option.bind_eq_some_iff, Option.pure_def,
    Option.some.injEq, Prod.mk.injEq] at h
  obtain ⟨⟨l₁, r₁⟩, h₁, ⟨l₂, r₂⟩, h₂, rfl, rfl⟩ := h
  simp only [Part.andThen, hp.append ht h₁, hq.append ht h₂, Option.bind_eq_bind, Option.bind_some]
  rfl

theorem stops_digitsPart : digitsPart.Stops := by
  refine ⟨fun {cs l rest tail} ht h => ?_⟩
  cases h
  have hsplit := takeWhile_append_of_head cs (ht.head (p := Char.isDigit) (by decide))
  rw [digitsPart, hsplit.1, hsplit.2]

theorem stops_someDigitsPart : someDigitsPart.Stops := by
  refine ⟨fun {cs l rest tail} ht h => ?_⟩
  have hsplit := takeWhile_append_of_head cs (ht.head (p := Char.isDigit) (by decide))
  rw [someDigitsPart] at h ⊢
  rw [hsplit.1]
  split at h
  · cases h
  · rename_i hne
    rw [if_neg hne]
    exact stops_digitsPart.append ht h

theorem stops_optionalPart {p : Char → Bool}
    (hp : p ',' = false ∧ p ']' = false ∧ p '\x7d' = false) : (optionalPart p).Stops := by
  refine ⟨fun {cs l rest tail} ht h => ?_⟩
  cases cs with
  | nil =>
    cases h
    cases tail with
    | nil => rfl
    | cons c tail =>
      have hc := ht.head hp c rfl
      show (if p c then some ([c], tail) else some ([], c :: tail)) = _
      rw [hc]
      rfl
  | cons c cs =>
    show (if p c then some ([c], cs ++ tail) else some ([], c :: (cs ++ tail))) = _
    change (if p c then some ([c], cs) else some ([], c :: cs)) = _ at h
    by_cases hc : p c = true
    · rw [if_pos hc] at h ⊢
      cases h
      rfl
    · rw [if_neg hc] at h ⊢
      cases h
      rfl

theorem stops_begunPart {p : Char → Bool} {q : Part}
    (hp : p ',' = false ∧ p ']' = false ∧ p '\x7d' = false) (hq : q.Stops) :
    (begunPart p q).Stops := by
  refine ⟨fun {cs l rest tail} ht h => ?_⟩
  cases cs with
  | nil =>
    cases h
    cases tail with
    | nil => rfl
    | cons c tail =>
      have hc := ht.head hp c rfl
      show (if p c then _ else some ([], c :: tail)) = _
      rw [hc]
      rfl
  | cons c cs =>
    show (if p c then (q (cs ++ tail)).map fun r => (c :: r.1, r.2) else
      some ([], c :: (cs ++ tail))) = _
    change (if p c then (q cs).map fun r => (c :: r.1, r.2) else some ([], c :: cs)) = _ at h
    by_cases hc : p c = true
    · rw [if_pos hc] at h ⊢
      obtain ⟨⟨l', r'⟩, h', heq⟩ := Option.map_eq_some_iff.mp h
      cases heq
      rw [hq.append ht h']
      rfl
    · rw [if_neg hc] at h ⊢
      cases h
      rfl

theorem stops_integerPart : integerPart.Stops := by
  refine ⟨fun {cs l rest tail} ht h => ?_⟩
  cases cs with
  | nil => cases h
  | cons c cs =>
    have hsplit := takeWhile_append_of_head cs (ht.head (p := Char.isDigit) (by decide))
    rw [integerPart] at h
    rw [List.cons_append, integerPart, hsplit.1]
    by_cases hzero : c = '0'
    · rw [if_pos hzero] at h ⊢
      by_cases hnone : (cs.takeWhile Char.isDigit).isEmpty = true
      · rw [if_pos hnone] at h ⊢
        cases h
        rfl
      · rw [if_neg hnone] at h
        cases h
    · rw [if_neg hzero] at h ⊢
      exact stops_someDigitsPart.append ht h

end Part

theorem stops_readNumber : Part.Stops readNumber := by
  have hsign : (optionalPart (· = '-')).Stops := Part.stops_optionalPart (by decide)
  have hfraction : (begunPart (· = '.') someDigitsPart).Stops :=
    Part.stops_begunPart (by decide) Part.stops_someDigitsPart
  have hexponentSign : (optionalPart fun c => c = '+' || c = '-').Stops :=
    Part.stops_optionalPart (by decide)
  exact hsign.andThen (Part.stops_integerPart.andThen (hfraction.andThen
    (Part.stops_begunPart (by decide) (hexponentSign.andThen Part.stops_someDigitsPart))))

/-- **A number that is written is read.** -/
theorem readNumber_append {l tail : List Char} (hl : IsNumber l) (ht : Ends tail) :
    readNumber (l ++ tail) = some (l, tail) := stops_readNumber.append ht hl

theorem integerPart_head {cs l rest : List Char} (h : integerPart cs = some (l, rest)) :
    ∃ c tail, cs = c :: tail ∧ c.isDigit = true := by
  cases cs with
  | nil => cases h
  | cons c cs =>
    refine ⟨c, cs, rfl, ?_⟩
    rw [integerPart] at h
    split at h
    · rename_i hc
      rw [hc]
      decide
    · by_cases hc : c.isDigit = true
      · exact hc
      · rw [someDigitsPart, List.takeWhile_cons, if_neg hc] at h
        cases h

/-- A number begins with a digit or a minus. -/
theorem IsNumber.head {l : List Char} (hl : IsNumber l) :
    ∃ c tail, l = c :: tail ∧ (c = '-' ∨ c.isDigit = true) := by
  cases l with
  | nil => cases hl
  | cons c l =>
    refine ⟨c, l, rfl, ?_⟩
    by_cases hc : c = '-'
    · exact Or.inl hc
    · have hsign : optionalPart (· = '-') (c :: l) = some ([], c :: l) := by
        rw [optionalPart, if_neg (by simpa using hc)]
      have hl' := hl
      simp only [IsNumber, readNumber, Part.andThen, hsign, Option.bind_eq_bind,
        Option.bind_some, Option.bind_eq_some_iff] at hl'
      obtain ⟨⟨l₁, r₁⟩, ⟨⟨l₂, r₂⟩, h, -⟩, -⟩ := hl'
      obtain ⟨d, tail, hd, hdigit⟩ := integerPart_head h
      cases hd
      exact Or.inr hdigit

theorem toDigits_head (n : Nat) :
    ∃ c tail, Nat.toDigits 10 n = c :: tail ∧ (c = '0' → tail = []) := by
  induction n using Nat.strongRecOn with
  | ind n ih =>
    by_cases hlt : n < 10
    · rw [Nat.toDigits_of_lt_base hlt]
      exact ⟨_, _, rfl, fun _ => rfl⟩
    · obtain ⟨c, tail, hc, hzero⟩ := ih (n / 10) (Nat.div_lt_self (by omega) (by decide))
      rw [Nat.toDigits_of_base_le (by decide) (by omega), hc]
      refine ⟨c, tail ++ _, rfl, fun h => ?_⟩
      -- a quotient that begins with 0 is 0
      have hsmall : Nat.toDigits 10 (n / 10) = Nat.toDigits 10 0 := by
        rw [hc, h, hzero h]
        rfl
      have hvalue := congrArg (Nat.ofDigitChars 10 · 0) hsmall
      simp only [Nat.ofDigitChars_ten_toDigits] at hvalue
      omega

/-- The decimal digits of a natural number. -/
theorem isNumber_toDigits (n : Nat) : IsNumber (Nat.toDigits 10 n) := by
  obtain ⟨c, tail, htext, hzero⟩ := toDigits_head n
  have hdigit : ∀ d ∈ c :: tail, d.isDigit = true := fun d hd =>
    Nat.isDigit_of_mem_toDigits (by decide) (by decide) (htext ▸ hd)
  rw [htext]
  have hsign : optionalPart (· = '-') (c :: tail) = some ([], c :: tail) := by
    have hc : c ≠ '-' := by
      rintro rfl
      have := hdigit '-' List.mem_cons_self
      revert this
      decide
    rw [optionalPart, if_neg (by simpa using hc)]
  have hinteger : integerPart (c :: tail) = some (c :: tail, []) := by
    rw [integerPart]
    split
    · rename_i hc
      rw [hzero hc, hc]
      rfl
    · have htake : (c :: tail).takeWhile Char.isDigit = c :: tail :=
        List.takeWhile_eq_self_iff.mpr hdigit
      have hdrop : (c :: tail).dropWhile Char.isDigit = [] :=
        List.dropWhile_eq_nil_iff.mpr hdigit
      rw [someDigitsPart, digitsPart, htake, hdrop]
      rfl
  simp only [IsNumber, readNumber, Part.andThen, hsign, hinteger, Option.bind_eq_bind,
    Option.bind_some, begunPart, Option.pure_def, List.nil_append, List.append_nil]

/-! ### Documents that are written are read -/

/-- What comes after an item or a value goes on with no number. -/
theorem ends_itemsChars (ds : List Doc) (tail : List Char) : Ends (Doc.itemsChars ds ++ tail) := by
  cases ds with
  | nil => exact ends_cons (Or.inr (Or.inl rfl))
  | cons d ds => exact ends_cons (Or.inl rfl)

theorem ends_entriesChars (es : List (List Char × Doc)) (tail : List Char) :
    Ends (Doc.entriesChars es ++ tail) := by
  cases es with
  | nil => exact ends_cons (Or.inr (Or.inr rfl))
  | cons e es => exact ends_cons (Or.inl rfl)

theorem skipBlanks_cons {c : Char} (hc : isBlank c = false) (cs : List Char) :
    skipBlanks (c :: cs) = c :: cs := by
  rw [skipBlanks, List.dropWhile_cons, hc]
  rfl

/-- Document `d` is read where it is written, up to a limit on its nesting. -/
structure Doc.Reads (d : Doc) : Prop where
  read : ∀ {fuel limit : Nat} {tail : List Char}, d.chars.length ≤ fuel → Ends tail →
    readValue fuel limit (d.chars ++ tail) = if d.nesting ≤ limit then some (d, tail) else none

theorem readItems_chars {ds : List Doc} (hds : ∀ d ∈ ds, d.Reads) {d : Doc} (hd : d.Reads)
    (limit : Nat) (tail : List Char) {fuel : Nat}
    (hfuel : (d.chars ++ Doc.itemsChars ds).length ≤ fuel) :
    readItems fuel limit (d.chars ++ Doc.itemsChars ds ++ tail) =
      if max d.nesting (Doc.itemsNesting ds) ≤ limit then some (d :: ds, tail) else none := by
  induction ds generalizing d fuel with
  | nil =>
    rw [List.length_append, Doc.itemsChars, List.length_singleton] at hfuel
    obtain ⟨fuel, rfl⟩ : ∃ n, fuel = n + 1 := ⟨fuel - 1, by omega⟩
    rw [List.append_assoc, readItems, hd.read (by omega) (ends_itemsChars [] tail),
      Doc.itemsNesting, Nat.max_zero]
    by_cases hnest : d.nesting ≤ limit
    · rw [if_pos hnest, if_pos hnest]
      rfl
    · rw [if_neg hnest, if_neg hnest]
      rfl
  | cons e ds ih =>
    rw [List.length_append, Doc.itemsChars, List.length_cons] at hfuel
    obtain ⟨fuel, rfl⟩ : ∃ n, fuel = n + 1 := ⟨fuel - 1, by omega⟩
    rw [List.append_assoc, readItems, hd.read (by omega) (ends_itemsChars (e :: ds) tail),
      Doc.itemsNesting]
    by_cases hnest : d.nesting ≤ limit
    · have hcomma : expect ',' (skipBlanks (Doc.itemsChars (e :: ds) ++ tail)) =
          some (e.chars ++ Doc.itemsChars ds ++ tail) := expect_cons ..
      rw [if_pos hnest, Option.bind_eq_bind, Option.bind_some]
      dsimp only
      rw [hcomma]
      dsimp only
      rw [ih (fun d hd => hds d (List.mem_cons_of_mem _ hd)) (hds e List.mem_cons_self)
        (by omega)]
      by_cases hrest : max e.nesting (Doc.itemsNesting ds) ≤ limit
      · rw [if_pos hrest, if_pos (Nat.max_le.mpr ⟨hnest, hrest⟩)]
        rfl
      · rw [if_neg hrest, if_neg fun h => hrest (Nat.max_le.mp h).2]
        rfl
    · rw [if_neg hnest, if_neg fun h => hnest (Nat.max_le.mp h).1]
      rfl

theorem readKey_quoteChars (key rest : List Char) :
    readKey (quoteChars key ++ ':' :: rest) = some (key, rest) := by
  obtain ⟨text, hquote, htext⟩ := readText_quoteChars key (':' :: rest)
  rw [readKey, hquote, skipBlanks_cons (by decide), expect_cons, Option.bind_eq_bind,
    Option.bind_some, htext]
  show ((expect ':' (skipBlanks (':' :: rest))).bind fun rest => some (key, rest)) = _
  rw [skipBlanks_cons (by decide), expect_cons]
  rfl

theorem readDocEntries_chars {es : List (List Char × Doc)} (hes : ∀ e ∈ es, e.2.Reads)
    {key : List Char} {d : Doc} (hd : d.Reads) (limit : Nat) (tail : List Char) {fuel : Nat}
    (hfuel : (quoteChars key ++ ':' :: (d.chars ++ Doc.entriesChars es)).length ≤ fuel) :
    readDocEntries fuel limit (quoteChars key ++ ':' :: (d.chars ++ Doc.entriesChars es ++ tail)) =
      if max d.nesting (Doc.entriesNesting es) ≤ limit then some ((key, d) :: es, tail)
      else none := by
  induction es generalizing key d fuel with
  | nil =>
    rw [List.length_append, List.length_cons, List.length_append] at hfuel
    obtain ⟨fuel, rfl⟩ : ∃ n, fuel = n + 1 := ⟨fuel - 1, by omega⟩
    rw [readDocEntries, readKey_quoteChars, Option.bind_eq_bind, Option.bind_some]
    dsimp only
    rw [List.append_assoc, hd.read (by omega) (ends_entriesChars [] tail), Doc.entriesNesting,
      Nat.max_zero]
    by_cases hnest : d.nesting ≤ limit
    · rw [if_pos hnest, if_pos hnest]
      rfl
    · rw [if_neg hnest, if_neg hnest]
      rfl
  | cons e es ih =>
    obtain ⟨next, e⟩ := e
    rw [List.length_append, List.length_cons, List.length_append, Doc.entriesChars,
      List.length_cons] at hfuel
    obtain ⟨fuel, rfl⟩ : ∃ n, fuel = n + 1 := ⟨fuel - 1, by omega⟩
    have hnext : (quoteChars next ++ ':' :: (e.chars ++ Doc.entriesChars es)).length ≤ fuel := by
      omega
    rw [readDocEntries, readKey_quoteChars, Option.bind_eq_bind, Option.bind_some]
    dsimp only
    rw [List.append_assoc, hd.read (by omega) (ends_entriesChars ((next, e) :: es) tail),
      Doc.entriesNesting]
    by_cases hnest : d.nesting ≤ limit
    · have hcomma : expect ',' (skipBlanks (Doc.entriesChars ((next, e) :: es) ++ tail)) =
          some (quoteChars next ++ ':' :: (e.chars ++ Doc.entriesChars es ++ tail)) := by
        rw [Doc.entriesChars, List.cons_append, skipBlanks_cons (by decide), expect_cons,
          List.append_assoc, List.cons_append]
      rw [if_pos hnest, Option.bind_eq_bind, Option.bind_some]
      dsimp only
      rw [hcomma]
      dsimp only
      rw [ih (fun e he => hes e (List.mem_cons_of_mem _ he)) (hes _ List.mem_cons_self) hnext]
      by_cases hrest : max e.nesting (Doc.entriesNesting es) ≤ limit
      · rw [if_pos hrest, if_pos (Nat.max_le.mpr ⟨hnest, hrest⟩)]
        rfl
      · rw [if_neg hrest, if_neg fun h => hrest (Nat.max_le.mp h).2]
        rfl
    · rw [if_neg hnest, if_neg fun h => hnest (Nat.max_le.mp h).1]
      rfl

theorem mem_itemsLiterals {ds : List Doc} {d : Doc} {l : List Char} (hd : d ∈ ds)
    (hl : l ∈ d.literals) : l ∈ Doc.itemsLiterals ds := by
  induction ds with
  | nil => cases hd
  | cons e ds ih =>
    rw [Doc.itemsLiterals, List.mem_append]
    rcases List.mem_cons.mp hd with rfl | hd
    · exact Or.inl hl
    · exact Or.inr (ih hd)

theorem mem_entriesLiterals {es : List (List Char × Doc)} {e : List Char × Doc} {l : List Char}
    (he : e ∈ es) (hl : l ∈ e.2.literals) : l ∈ Doc.entriesLiterals es := by
  induction es with
  | nil => cases he
  | cons f es ih =>
    rw [Doc.entriesLiterals, List.mem_append]
    rcases List.mem_cons.mp he with rfl | he
    · exact Or.inl hl
    · exact Or.inr (ih he)

/-! The reading of a document by its first character. -/

section First

variable {fuel limit : Nat} {rest : List Char}

theorem readValue_quote : readValue (fuel + 1) limit ('"' :: rest) =
    (readText (rest.length + 1) rest).map fun r => (.str r.1, r.2) := by
  rw [readValue, skipBlanks_cons (by decide)]
  rfl

theorem readValue_bracket (h : expect ']' (skipBlanks rest) = none) :
    readValue (fuel + 1) (limit + 1) ('[' :: rest) =
      (readItems fuel limit rest).map fun r => (.arr r.1, r.2) := by
  rw [readValue, skipBlanks_cons (by decide)]
  simp only [h]
  rfl

theorem readValue_brace (h : expect '\x7d' (skipBlanks rest) = none) :
    readValue (fuel + 1) (limit + 1) ('\x7b' :: rest) =
      (readDocEntries fuel limit rest).map fun r => (.obj r.1, r.2) := by
  rw [readValue, skipBlanks_cons (by decide)]
  simp only [h]
  rfl

theorem readValue_other {c : Char} (hblank : isBlank c = false)
    (hc : c ≠ 'n' ∧ c ≠ 't' ∧ c ≠ 'f' ∧ c ≠ '"' ∧ c ≠ '[' ∧ c ≠ '\x7b') :
    readValue (fuel + 1) limit (c :: rest) =
      (readNumber (c :: rest)).map fun r => (.num r.1, r.2) := by
  obtain ⟨hn, htrue, hfalse, hquote, hbracket, hbrace⟩ := hc
  rw [readValue, skipBlanks_cons hblank]
  dsimp only
  rw [if_neg hn, if_neg htrue, if_neg hfalse, if_neg hquote, if_neg hbracket, if_neg hbrace]

end First

/-- How a number begins. -/
theorem IsNumber.begins {l : List Char} (hl : IsNumber l) :
    ∃ c tail, l = c :: tail ∧ isBlank c = false ∧ c ≠ ']' ∧ c ≠ 'n' ∧ c ≠ 't' ∧ c ≠ 'f' ∧
      c ≠ '"' ∧ c ≠ '[' ∧ c ≠ '\x7b' := by
  obtain ⟨c, tail, htext, hc⟩ := hl.head
  refine ⟨c, tail, htext, ?_⟩
  rcases hc with rfl | hc
  · decide
  · have hne {d : Char} (hd : d.isDigit = false) : c ≠ d := by
      rintro rfl
      rw [hc] at hd
      cases hd
    have hblank : isBlank c = false := by
      simp only [isBlank, Bool.or_eq_false_iff, decide_eq_false_iff_not]
      exact ⟨⟨⟨hne rfl, hne rfl⟩, hne rfl⟩, hne rfl⟩
    exact ⟨hblank, hne rfl, hne rfl, hne rfl, hne rfl, hne rfl, hne rfl, hne rfl⟩

theorem Doc.begins {d : Doc} (hd : ∀ l ∈ d.literals, IsNumber l) :
    ∃ c tail, d.chars = c :: tail ∧ isBlank c = false ∧ c ≠ ']' := by
  cases d with
  | num l =>
    obtain ⟨c, tail, htext, hblank, hne, -⟩ := (hd l List.mem_cons_self).begins
    exact ⟨c, tail, htext, hblank, hne⟩
  | bool b => cases b <;> exact ⟨_, _, rfl, by decide⟩
  | arr items => cases items <;> exact ⟨_, _, rfl, by decide⟩
  | obj entries => cases entries <;> exact ⟨_, _, rfl, by decide⟩
  | null => exact ⟨_, _, rfl, by decide⟩
  | str s => exact ⟨_, _, rfl, by decide⟩

theorem exists_fuel {m fuel : Nat} (hm : 0 < m) (hfuel : m ≤ fuel) : ∃ n, fuel = n + 1 :=
  Nat.exists_eq_succ_of_ne_zero (Nat.ne_of_gt (Nat.lt_of_lt_of_le hm hfuel))

/-- A number is read where it is written. -/
theorem reads_num {l : List Char} (hl : IsNumber l) : (Doc.num l).Reads := by
  refine ⟨fun {fuel limit tail} hfuel ht => ?_⟩
  obtain ⟨c, rest, rfl, hblank, -, hother⟩ := hl.begins
  obtain ⟨fuel, rfl⟩ := exists_fuel (List.length_pos_of_ne_nil (List.cons_ne_nil c rest)) hfuel
  rw [Doc.chars, List.cons_append, readValue_other hblank hother, ← List.cons_append,
    readNumber_append hl ht]
  exact (if_pos (Nat.zero_le limit)).symm

theorem reads_arr {items : List Doc} (hitems : ∀ d ∈ items, d.Reads)
    (hnum : ∀ d ∈ items, ∀ l ∈ d.literals, IsNumber l) : (Doc.arr items).Reads := by
  refine ⟨fun {fuel limit tail} hfuel ht => ?_⟩
  cases items with
  | nil =>
    obtain ⟨fuel, rfl⟩ := exists_fuel (Nat.succ_pos 1) hfuel
    cases limit <;> rfl
  | cons d ds =>
    rw [List.forall_mem_cons] at hitems hnum
    obtain ⟨fuel, rfl⟩ := exists_fuel (Nat.succ_pos _) hfuel
    rw [Doc.chars, List.length_cons] at hfuel
    rw [Doc.chars, List.cons_append]
    cases limit with
    | zero => rfl
    | succ limit =>
      -- the first item does not begin with the closing bracket
      have hclose : expect ']' (skipBlanks (d.chars ++ Doc.itemsChars ds ++ tail)) = none := by
        obtain ⟨c, rest, htext, hblank, hne⟩ := Doc.begins hnum.1
        rw [htext, List.append_assoc, List.cons_append, skipBlanks_cons hblank]
        exact if_neg hne
      have hread := readItems_chars hitems.2 hitems.1 limit tail
        (Nat.le_of_succ_le_succ hfuel)
      rw [readValue_bracket hclose, hread]
      by_cases hnest : max d.nesting (Doc.itemsNesting ds) ≤ limit
      · rw [if_pos hnest]
        exact (if_pos (Nat.succ_le_succ hnest)).symm
      · rw [if_neg hnest]
        exact (if_neg fun h => hnest (Nat.le_of_succ_le_succ h)).symm

theorem reads_obj {entries : List (List Char × Doc)} (hentries : ∀ e ∈ entries, e.2.Reads) :
    (Doc.obj entries).Reads := by
  refine ⟨fun {fuel limit tail} hfuel ht => ?_⟩
  cases entries with
  | nil =>
    obtain ⟨fuel, rfl⟩ := exists_fuel (Nat.succ_pos 1) hfuel
    cases limit <;> rfl
  | cons e es =>
    obtain ⟨key, d⟩ := e
    rw [List.forall_mem_cons] at hentries
    obtain ⟨fuel, rfl⟩ := exists_fuel (Nat.succ_pos _) hfuel
    rw [Doc.chars, List.length_cons] at hfuel
    simp only [Doc.chars, List.cons_append, List.append_assoc]
    cases limit with
    | zero => rfl
    | succ limit =>
      have hread := readDocEntries_chars hentries.2 hentries.1 limit tail
        (Nat.le_of_succ_le_succ hfuel)
      have hclose : expect '\x7d' (skipBlanks (quoteChars key ++
          ':' :: (d.chars ++ (Doc.entriesChars es ++ tail)))) = none := rfl
      rw [List.append_assoc] at hread
      rw [readValue_brace hclose, hread]
      by_cases hnest : max d.nesting (Doc.entriesNesting es) ≤ limit
      · rw [if_pos hnest]
        exact (if_pos (Nat.succ_le_succ hnest)).symm
      · rw [if_neg hnest]
        exact (if_neg fun h => hnest (Nat.le_of_succ_le_succ h)).symm

/-- **A document whose literals are numbers is read where it is written.** -/
theorem Doc.reads (d : Doc) : (∀ l ∈ d.literals, IsNumber l) → d.Reads := by
  induction d using Doc.induction with
  | null =>
    refine fun _ => ⟨fun {fuel limit tail} hfuel ht => ?_⟩
    obtain ⟨fuel, rfl⟩ := exists_fuel (Nat.succ_pos 3) hfuel
    exact (if_pos (Nat.zero_le limit)).symm
  | bool b =>
    refine fun _ => ⟨fun {fuel limit tail} hfuel ht => ?_⟩
    cases b with
    | true =>
      obtain ⟨fuel, rfl⟩ := exists_fuel (Nat.succ_pos 3) hfuel
      exact (if_pos (Nat.zero_le limit)).symm
    | false =>
      obtain ⟨fuel, rfl⟩ := exists_fuel (Nat.succ_pos 4) hfuel
      exact (if_pos (Nat.zero_le limit)).symm
  | num l => exact fun hnum => reads_num (hnum l List.mem_cons_self)
  | str s =>
    refine fun _ => ⟨fun {fuel limit tail} hfuel ht => ?_⟩
    obtain ⟨fuel, rfl⟩ := exists_fuel (Nat.succ_pos _) hfuel
    obtain ⟨rest, hquote, htext⟩ := readText_quoteChars s tail
    rw [Doc.chars, hquote, readValue_quote, htext]
    exact (if_pos (Nat.zero_le limit)).symm
  | arr items ih =>
    intro hnum
    have hnum' : ∀ d ∈ items, ∀ l ∈ d.literals, IsNumber l := fun d hd l hl =>
      hnum l (mem_itemsLiterals hd hl)
    exact reads_arr (fun d hd => ih d hd (hnum' d hd)) hnum'
  | obj entries ih =>
    intro hnum
    exact reads_obj fun e he => ih e he fun l hl => hnum l (mem_entriesLiterals he hl)

/-- **What is written is read, unless it nests deeper than the limit.** -/
theorem parse_chars {d : Doc} (hd : ∀ l ∈ d.literals, IsNumber l) (limit : Nat) :
    parse limit d.chars = if d.nesting ≤ limit then some d else none := by
  have hread : readValue (d.chars.length + 1) limit (d.chars ++ []) =
      if d.nesting ≤ limit then some (d, []) else none :=
    (d.reads hd).read (Nat.le_succ _) ends_nil
  rw [List.append_nil] at hread
  rw [parse, hread]
  by_cases hnest : d.nesting ≤ limit
  · rw [if_pos hnest, if_pos hnest]
    rfl
  · rw [if_neg hnest, if_neg hnest]
    rfl

end Codec.JsonText
