import RozeDtm.Kv.Topics

/-!
# The text of a subscriber list

A codec for runs on small inputs: the text that `serde_json` writes for a list whose URLs and
remarks have no control characters, and a reader of such texts.
-/

namespace RozeDtm

namespace SubscriberText

/-- A string with its quotes and backslashes escaped. -/
def escape : List Char → List Char
  | [] => []
  | c :: cs => if c = '"' ∨ c = '\\' then '\\' :: c :: escape cs else c :: escape cs

/-- Read a string up to its closing quote; `escaped` says whether a backslash was just read. -/
def readText (escaped : Bool) : List Char → Option (List Char × List Char)
  | [] => none
  | c :: cs =>
    if escaped then (readText false cs).map fun r => (c :: r.1, r.2)
    else if c = '"' then some ([], cs)
    else if c = '\\' then readText true cs
    else (readText false cs).map fun r => (c :: r.1, r.2)

theorem readText_escape (cs rest : List Char) :
    readText false (escape cs ++ '"' :: rest) = some (cs, rest) := by
  induction cs with
  | nil => rfl
  | cons c cs ih =>
    unfold escape
    split
    · show (readText false (escape cs ++ '"' :: rest)).map _ = _
      rw [ih]
      rfl
    · rename_i hplain
      push Not at hplain
      show (if false = true then _ else if c = '"' then _ else if c = '\\' then _ else
        (readText false (escape cs ++ '"' :: rest)).map _) = _
      rw [if_neg (by decide), if_neg hplain.1, if_neg hplain.2, ih]
      rfl

/-- Read a fixed text. -/
def skip (expected cs : List Char) : Option (List Char) :=
  if expected.isPrefixOf cs then some (cs.drop expected.length) else none

theorem skip_append (expected rest : List Char) : skip expected (expected ++ rest) = some rest := by
  unfold skip
  rw [if_pos (List.isPrefixOf_iff_prefix.mpr (List.prefix_append expected rest)),
    List.drop_left]

/-- A `TopicSubscriber`. -/
def write (subscriber : TopicSubscriber) : List Char :=
  "\x7b\"url\":\"".toList ++ (escape subscriber.url.toList ++ '"' :: (",\"remark\":\"".toList ++
    (escape subscriber.remark.toList ++ '"' :: ['\x7d'])))

/-- Read a `TopicSubscriber`. -/
def read (cs : List Char) : Option (TopicSubscriber × List Char) := do
  let cs ← skip "\x7b\"url\":\"".toList cs
  let (url, cs) ← readText false cs
  let cs ← skip ",\"remark\":\"".toList cs
  let (remark, cs) ← readText false cs
  let cs ← skip ['\x7d'] cs
  return (⟨String.ofList url, String.ofList remark⟩, cs)

theorem read_write (subscriber : TopicSubscriber) (rest : List Char) :
    read (write subscriber ++ rest) = some (subscriber, rest) := by
  unfold read write
  simp only [List.append_assoc, List.cons_append, List.nil_append, skip_append, readText_escape,
    Option.bind_eq_bind, Option.bind_some]
  rw [show '\x7d' :: rest = ['\x7d'] ++ rest from rfl, skip_append]
  simp only [Option.bind_some, String.ofList_toList]
  rfl

/-- The subscribers after the first one and the end of the list. -/
def writeMore : List TopicSubscriber → List Char
  | [] => [']']
  | subscriber :: subscribers => ',' :: (write subscriber ++ writeMore subscribers)

/-- Read them, `fuel` at most. -/
def readMore : Nat → List Char → Option (List TopicSubscriber)
  | 0, _ => none
  | fuel + 1, cs =>
    if cs = [']'] then some []
    else do
      let cs ← skip [','] cs
      let (subscriber, cs) ← read cs
      return subscriber :: (← readMore fuel cs)

theorem readMore_writeMore (subscribers : List TopicSubscriber) :
    ∀ fuel, subscribers.length < fuel → readMore fuel (writeMore subscribers) = some subscribers := by
  induction subscribers with
  | nil =>
    intro fuel hfuel
    obtain ⟨fuel, rfl⟩ : ∃ n, fuel = n + 1 := ⟨fuel - 1, by omega⟩
    rfl
  | cons subscriber subscribers ih =>
    intro fuel hfuel
    rw [List.length_cons] at hfuel
    obtain ⟨fuel, rfl⟩ : ∃ n, fuel = n + 1 := ⟨fuel - 1, by omega⟩
    have hread : readMore fuel (writeMore subscribers) = some subscribers := ih fuel (by omega)
    show (if [','] ++ (write subscriber ++ writeMore subscribers) = [']'] then _ else do
      let cs ← skip [','] ([','] ++ (write subscriber ++ writeMore subscribers))
      _) = _
    rw [if_neg (by simp), skip_append]
    simp only [Option.bind_eq_bind, Option.bind_some, read_write, hread]
    rfl

theorem length_lt_writeMore (subscribers : List TopicSubscriber) :
    subscribers.length < (writeMore subscribers).length := by
  induction subscribers with
  | nil => decide
  | cons subscriber subscribers ih =>
    unfold writeMore
    rw [List.length_cons, List.length_cons, List.length_append]
    omega

/-- `serde_json::to_string`. -/
def toText : List TopicSubscriber → String
  | [] => "[]"
  | subscriber :: subscribers =>
    String.ofList ('[' :: (write subscriber ++ writeMore subscribers))

/-- `serde_json::from_str`. -/
def parse (text : String) : Except Err (List TopicSubscriber) :=
  if text = "[]" then .ok []
  else
    let found := do
      let cs ← skip ['['] text.toList
      let (subscriber, cs) ← read cs
      return subscriber :: (← readMore cs.length cs)
    match found with
    | some subscribers => .ok subscribers
    | none => .error "invalid subscribers"

theorem parse_toText (subscribers : List TopicSubscriber) :
    parse (toText subscribers) = .ok subscribers := by
  cases subscribers with
  | nil => rfl
  | cons subscriber subscribers =>
    have htext : (toText (subscriber :: subscribers)).toList =
        ['['] ++ (write subscriber ++ writeMore subscribers) := String.toList_ofList
    have hne : toText (subscriber :: subscribers) ≠ "[]" := fun heq => by
      have hlist := htext.symm.trans (congrArg String.toList heq)
      obtain ⟨cs, hcs⟩ : ∃ cs, write subscriber = '\x7b' :: cs := ⟨_, rfl⟩
      rw [hcs] at hlist
      injection hlist with _ htail
      injection htail with hbrace _
      revert hbrace
      decide
    unfold parse
    rw [if_neg hne, htext, skip_append]
    simp only [Option.bind_eq_bind, Option.bind_some, read_write,
      readMore_writeMore subscribers _ (length_lt_writeMore subscribers)]
    rfl

end SubscriberText

/-- Library functions for runs on small inputs. -/
def TopicLibs.plain : TopicLibs :=
  ⟨Libs.plain.url, SubscriberText.toText, SubscriberText.parse, SubscriberText.parse_toText⟩

end RozeDtm
