import RozeDtm.Model.Service.Control

/-!
# What an error's text is answered with

`operationError` searches the text.  A text that is put together from fixed pieces and names of
the user is decided by the names when no piece of a pattern is at a seam (`marked_behind`,
`marked_before`); for a given fixed piece the condition computes.
-/

namespace RozeDtm

open Codec.Substring

/-- A text with one of the words that `operation_error` takes for a conflict. -/
def Marked (s : String) : Prop :=
  "expected".toList <:+: s.toList ∨ "non-replayable state".toList <:+: s.toList

/-- A gid that makes the beginning `transaction {gid}` the one of a missing transaction. -/
def Lead (gid : String) : Prop := "not found:".toList <+: gid.toList

instance (s : String) : Decidable (Marked s) := inferInstanceAs (Decidable (_ ∨ _))

instance (gid : String) : Decidable (Lead gid) := inferInstanceAs (Decidable (_ <+: _))

/-- The HTTP status that an error is answered with. -/
def errorStatus (e : Err) : Nat := (operationError e).1

/-- An error that is answered as a failure of the operation. -/
def Plain (e : Err) : Prop := errorStatus e = 502

/-- The text of a missing transaction. -/
def Missing (e : Err) : Prop := "transaction not found:".toList <+: e.toList

instance (e : Err) : Decidable (Missing e) := inferInstanceAs (Decidable (_ <+: _))

theorem errorStatus_eq (e : Err) :
    errorStatus e = if Missing e then 404 else if Marked e then 409 else 502 := by
  have hstart : textStartsWith e "transaction not found:" = true ↔ Missing e := decide_eq_true_iff
  have hmark : (textContains e "expected" || textContains e "non-replayable state") = true ↔
      Marked e := by
    rw [Bool.or_eq_true]
    exact or_congr decide_eq_true_iff decide_eq_true_iff
  unfold errorStatus operationError
  by_cases hm : Missing e
  · rw [if_pos (hstart.mpr hm), if_pos hm]
  · rw [if_neg (mt hstart.mp hm), if_neg hm]
    by_cases hk : Marked e
    · rw [if_pos (hmark.mpr hk), if_pos hk]
    · rw [if_neg (mt hmark.mp hk), if_neg hk]

theorem errorStatus_eq_404_iff {e : Err} : errorStatus e = 404 ↔ Missing e := by
  rw [errorStatus_eq]
  split_ifs <;> simp [*]

theorem errorStatus_eq_409_iff {e : Err} : errorStatus e = 409 ↔ ¬ Missing e ∧ Marked e := by
  rw [errorStatus_eq]
  split_ifs <;> simp [*]

theorem plain_iff {e : Err} : Plain e ↔ ¬ Missing e ∧ ¬ Marked e := by
  rw [Plain, errorStatus_eq]
  split_ifs <;> simp [*]

/-! ### Texts that are put together -/

/-- A fixed piece that ends with no piece of a pattern, and has none in it. -/
def Behind (piece : String) : Prop :=
  NoEnd "expected".toList piece.toList ∧ NoEnd "non-replayable state".toList piece.toList ∧
    ¬ Marked piece

/-- A fixed piece that begins with no piece of a pattern, and has none in it. -/
def Before (piece : String) : Prop :=
  NoStart "expected".toList piece.toList ∧ NoStart "non-replayable state".toList piece.toList ∧
    ¬ Marked piece

instance (piece : String) : Decidable (Behind piece) := inferInstanceAs (Decidable (_ ∧ _))

instance (piece : String) : Decidable (Before piece) := inferInstanceAs (Decidable (_ ∧ _))

variable {piece s gid : String}

theorem marked_behind (h : Behind piece) : Marked (piece ++ s) ↔ Marked s := by
  obtain ⟨h₁, h₂, hnot⟩ := h
  unfold Marked at hnot ⊢
  rw [not_or] at hnot
  rw [String.toList_append, infix_append_of_noEnd h₁, infix_append_of_noEnd h₂,
    or_iff_right hnot.1, or_iff_right hnot.2]

/-- Two texts, where the second does not begin with a piece of a pattern. -/
theorem marked_append_iff (h₁ : NoStart "expected".toList piece.toList)
    (h₂ : NoStart "non-replayable state".toList piece.toList) :
    Marked (s ++ piece) ↔ Marked s ∨ Marked piece := by
  unfold Marked
  rw [String.toList_append, infix_append_of_noStart h₁, infix_append_of_noStart h₂, or_or_or_comm]

theorem marked_before (h : Before piece) : Marked (s ++ piece) ↔ Marked s :=
  (marked_append_iff h.1 h.2.1).trans (or_iff_left h.2.2)

/-- A mark stays in a longer text. -/
theorem Marked.behind (h : Marked piece) (s : String) : Marked (s ++ piece) := by
  unfold Marked at h ⊢
  rw [String.toList_append]
  exact h.imp List.infix_append_of_infix_right List.infix_append_of_infix_right

theorem Marked.before (h : Marked piece) (s : String) : Marked (piece ++ s) := by
  unfold Marked at h ⊢
  rw [String.toList_append]
  exact h.imp List.infix_append_of_infix_left List.infix_append_of_infix_left

/-- A text that begins otherwise. -/
def Otherwise (piece : String) : Prop :=
  ¬ "transaction not found:".toList <+: piece.toList ∧
    ¬ piece.toList <+: "transaction not found:".toList

instance (piece : String) : Decidable (Otherwise piece) :=
  inferInstanceAs (Decidable (¬ "transaction not found:".toList <+: piece.toList ∧
    ¬ piece.toList <+: "transaction not found:".toList))

theorem not_missing_append (h : Otherwise piece) : ¬ Missing (piece ++ s) := by
  unfold Missing
  rw [String.toList_append]
  intro hp
  obtain hle | hle := Nat.le_total "transaction not found:".toList.length piece.toList.length
  · exact h.1 (List.prefix_of_prefix_length_le hp (List.prefix_append _ _) hle)
  · exact h.2 (List.prefix_of_prefix_length_le (List.prefix_append _ _) hp hle)

/-- A text with one name in it, behind a fixed piece. -/
theorem plain_behind (piece : String) (hpiece : Behind piece) (hother : Otherwise piece) :
    Plain (piece ++ s) ↔ ¬ Marked s := by
  rw [plain_iff, marked_behind hpiece]
  exact and_iff_right (not_missing_append hother)

/-- A text with one name between two fixed pieces. -/
theorem plain_between (piece tail : String) (hpiece : Behind piece) (hother : Otherwise piece)
    (htail : Before tail) : Plain (piece ++ s ++ tail) ↔ ¬ Marked s := by
  rw [String.append_assoc, plain_behind piece hpiece hother, marked_before htail]

/-- A text with two names, each behind a fixed piece. -/
theorem plain_two {t : String} (piece middle : String) (hpiece : Behind piece)
    (hother : Otherwise piece) (hmiddle : Before middle) (hbehind : Behind middle) (hlong : 20 ≤ middle.toList.length) :
    Plain (piece ++ s ++ middle ++ t) ↔ ¬ Marked s ∧ ¬ Marked t := by
  have h₁ : NoStart "expected".toList (middle ++ t).toList := by
    rw [String.toList_append]
    exact hmiddle.1.append (Nat.le_trans (by decide) hlong) _
  have h₂ : NoStart "non-replayable state".toList (middle ++ t).toList := by
    rw [String.toList_append]
    exact hmiddle.2.1.append (Nat.le_trans (by decide) hlong) _
  rw [String.append_assoc, String.append_assoc, plain_behind piece hpiece hother,
    marked_append_iff h₁ h₂, marked_behind hbehind, not_or]

/-! ### The refusals -/

/-- **The beginning of a refusal**: it is taken for a missing transaction when the gid makes
it so. -/
theorem missing_transaction_iff (hne : ¬ "not found:".toList <+: piece.toList)
    (hstart : NoStart "not found:".toList piece.toList) :
    Missing ("transaction " ++ (gid ++ piece)) ↔ Lead gid := by
  unfold Missing Lead
  rw [String.toList_append, String.toList_append,
    show "transaction not found:".toList = "transaction ".toList ++ "not found:".toList from rfl,
    List.prefix_append_right_inj, prefix_append_of_noStart hne hstart]

/-- How an error is searched: as a missing transaction when `missing`, with a mark when
`marked`. -/
def SearchedAs (missing marked : Prop) (e : Err) : Prop := (Missing e ↔ missing) ∧ (Marked e ↔ marked)

theorem SearchedAs.conflict_iff {missing marked : Prop} {e : Err} (h : SearchedAs missing marked e) :
    errorStatus e = 409 ↔ ¬ missing ∧ marked := by
  rw [errorStatus_eq_409_iff, h.1, h.2]

/-- `ensure_kind`. -/
theorem reads_kind (gid : String) (kind expected : TransactionKind) :
    SearchedAs (Lead gid) True s!"transaction {gid} is {kind.debug}, expected {expected.debug}" := by
  constructor
  · have htext : s!"transaction {gid} is {kind.debug}, expected {expected.debug}" =
        "transaction " ++ (gid ++ (" is " ++ kind.debug ++ ", expected " ++ expected.debug)) := by
      simp only [String.append_assoc]
      rfl
    rw [htext]
    apply missing_transaction_iff <;> cases kind <;> cases expected <;> decide
  · rw [iff_true]
    have hmark : Marked ", expected " := by decide
    exact (hmark.behind _).before _

/-- `ensure_status`. -/
theorem reads_status (gid : String) (status : TransactionStatus) :
    SearchedAs (Lead gid) True s!"transaction {gid} is in non-replayable state {status.debug}" := by
  constructor
  · have htext : s!"transaction {gid} is in non-replayable state {status.debug}" =
        "transaction " ++ (gid ++ (" is in non-replayable state " ++ status.debug)) := by
      simp only [String.append_assoc]
      rfl
    rw [htext]
    apply missing_transaction_iff <;> cases status <;> decide
  · rw [iff_true]
    have hmark : Marked " is in non-replayable state " := by decide
    exact (hmark.behind _).before _

/-- The refusals of `force_stop` and `reset_retry`. -/
theorem reads_terminal (gid : String) {tail : String} (hne : ¬ "not found:".toList <+: tail.toList)
    (hstart : NoStart "not found:".toList tail.toList) (htail : Before tail) :
    SearchedAs (Lead gid) (Marked gid) ("transaction " ++ gid ++ tail) := by
  rw [String.append_assoc]
  refine ⟨missing_transaction_iff hne hstart, ?_⟩
  rw [marked_behind (by decide), marked_before htail]

/-- The refusal of a callback Workflow by `recover`. -/
theorem reads_callback (gid : String) (status : TransactionStatus) :
    SearchedAs False True s!"callback workflow {gid} is in non-replayable state {status.debug}" := by
  constructor
  · rw [iff_false]
    have htext : s!"callback workflow {gid} is in non-replayable state {status.debug}" =
        "callback workflow " ++ (gid ++ (" is in non-replayable state " ++ status.debug)) := by
      simp only [String.append_assoc]
      rfl
    rw [htext]
    exact not_missing_append (by decide)
  · rw [iff_true]
    have hmark : Marked " is in non-replayable state " := by decide
    exact (hmark.behind _).before _

end RozeDtm
