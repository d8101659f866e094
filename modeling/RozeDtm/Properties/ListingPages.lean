import Mathlib.Data.String.Basic
import RozeDtm.Listing.Cursor
import RozeDtm.Model.Service.Listing

/-!
# Pages of the compatibility list

A client of `all` starts with no position, or an empty one, and asks on with the `next_position`
of each answer until it is empty.  Over a list that does not change this gives every transaction
that the query selects once, in order.

* `buildCompatAllResponse_eq`: an answer is a page of the selected transactions.
* `listing_exact`: the pages of a query.
-/

namespace RozeDtm

open Cursor

/-! ### The order of the list -/

theorem listedBefore_iff {left right : Transaction} : listedBefore left right = true ↔
    right.createdAtMillis < left.createdAtMillis ∨
      right.createdAtMillis = left.createdAtMillis ∧ right.gid ≤ left.gid := by
  simp only [listedBefore, Bool.or_eq_true, Bool.and_eq_true, decide_eq_true_eq]

theorem listedBefore_trans (a b c : Transaction) (hab : listedBefore a b = true)
    (hbc : listedBefore b c = true) : listedBefore a c = true := by
  rw [listedBefore_iff] at hab hbc ⊢
  rcases hab with hab | ⟨hab, hgid⟩ <;> rcases hbc with hbc | ⟨hbc, hgid'⟩
  · exact .inl (by omega)
  · exact .inl (by omega)
  · exact .inl (by omega)
  · exact .inr ⟨by omega, String.le_trans hgid' hgid⟩

theorem listedBefore_total (a b : Transaction) : (listedBefore a b || listedBefore b a) = true := by
  rw [Bool.or_eq_true, listedBefore_iff, listedBefore_iff]
  rcases Nat.lt_trichotomy a.createdAtMillis b.createdAtMillis with hlt | heq | hlt
  · exact .inr (.inl hlt)
  · rcases String.le_total a.gid b.gid with hle | hle
    · exact .inr (.inr ⟨heq, hle⟩)
    · exact .inl (.inr ⟨heq.symm, hle⟩)
  · exact .inl (.inl hlt)

/-- By creation time, the latest first, and by gid, the greatest first, among those created at
once. -/
def Transaction.ListedAfter (right left : Transaction) : Prop :=
  right.createdAtMillis < left.createdAtMillis ∨
    right.createdAtMillis = left.createdAtMillis ∧ right.gid < left.gid

section Filtered

variable {transactions : List Transaction} {query : CompatQuery}

theorem filtered_perm : (query.filtered transactions).Perm (transactions.filter query.selects) :=
  List.mergeSort_perm _ _

theorem filtered_gids (hgids : (transactions.map Transaction.gid).Nodup) :
    ((query.filtered transactions).map Transaction.gid).Nodup := by
  rw [(filtered_perm.map Transaction.gid).nodup_iff]
  exact hgids.sublist ((List.filter_sublist).map _)

theorem filtered_ordered (hgids : (transactions.map Transaction.gid).Nodup) :
    (query.filtered transactions).Pairwise fun left right => right.ListedAfter left := by
  have hsorted : (query.filtered transactions).Pairwise fun a b => listedBefore a b = true :=
    List.pairwise_mergeSort listedBefore_trans listedBefore_total _
  have hdistinct : (query.filtered transactions).Pairwise fun a b => a.gid ≠ b.gid :=
    List.pairwise_map.mp (filtered_gids hgids)
  refine hsorted.imp₂ (fun a b hle hne => ?_) hdistinct
  rcases listedBefore_iff.mp hle with hlt | ⟨heq, hgid⟩
  · exact .inl hlt
  · exact .inr ⟨heq, lt_of_le_of_ne hgid hne.symm⟩

end Filtered

/-! ### The answers -/

/-- The answers to a query from a position on, up to one whose `next_position` is empty. -/
inductive CompatPages (libs : ListingLibs) (transactions : List Transaction) (query : CompatQuery) :
    Option String → List CompatAllResponse → Prop
  | last {position : Option String} {response : CompatAllResponse}
      (hanswer : buildCompatAllResponse libs transactions { query with position } = .ok response)
      (hlast : response.nextPosition = "") : CompatPages libs transactions query position [response]
  | more {position : Option String} {response : CompatAllResponse} {rest : List CompatAllResponse}
      (hanswer : buildCompatAllResponse libs transactions { query with position } = .ok response)
      (hmore : response.nextPosition ≠ "")
      (hrest : CompatPages libs transactions query (some response.nextPosition) rest) :
      CompatPages libs transactions query position (response :: rest)

section Answers

variable {libs : ListingLibs} {transactions : List Transaction} {query : CompatQuery}

/-- The answers are determined. -/
theorem CompatPages.unique {position : Option String} {pages pages' : List CompatAllResponse}
    (h : CompatPages libs transactions query position pages)
    (h' : CompatPages libs transactions query position pages') : pages = pages' := by
  induction h generalizing pages' with
  | last hanswer hlast =>
    cases h' with
    | last hanswer' _ =>
      cases hanswer.symm.trans hanswer'
      rfl
    | more hanswer' hmore' _ =>
      cases hanswer.symm.trans hanswer'
      exact absurd hlast hmore'
  | more hanswer hmore _ ih =>
    cases h' with
    | last hanswer' hlast' =>
      cases hanswer.symm.trans hanswer'
      exact absurd hlast' hmore
    | more hanswer' _ hrest' =>
      cases hanswer.symm.trans hanswer'
      rw [ih hrest']

/-- The position under which a client asks for the page after a cursor. -/
def AsksAfter (position : Option String) : Option String → Prop
  | none => position.getD "" = ""
  | some gid => position = some gid ∧ gid ≠ "" ∧ gid.utf8ByteSize ≤ 128

theorem compatPosition_eq {filtered : List Transaction} {position cursor : Option String}
    {place : Nat} (hasks : AsksAfter position cursor)
    (hstart : start? Transaction.gid filtered cursor = some place) :
    compatPosition filtered position = .ok place := by
  unfold compatPosition
  cases cursor with
  | none =>
    cases hstart
    exact if_pos hasks
  | some gid =>
    obtain ⟨rfl, hne, hsize⟩ := hasks
    have hfind : (filtered.findIdx? fun transaction => transaction.gid = gid).map (· + 1) =
        some place := hstart
    rw [Option.getD_some, if_neg hne, if_pos hsize, hfind]
    rfl

/-- The answer that gives a page of the selected transactions. -/
def pageResponse (libs : ListingLibs) (filtered : List Transaction) (limit place : Nat) :
    CompatAllResponse where
  transactions := (items limit filtered place).map (compatGlobalTransaction libs)
  nextPosition := (next? Transaction.gid limit filtered place).getD ""
  dtmResult := "SUCCESS"

/-- **An answer is a page** of the transactions that the query selects. -/
theorem buildCompatAllResponse_eq {position cursor : Option String} {place : Nat}
    (hordered : query.ordered = true) (hasks : AsksAfter position cursor)
    (hstart : start? Transaction.gid (query.filtered transactions) cursor = some place) :
    buildCompatAllResponse libs transactions { query with position } =
      .ok (pageResponse libs (query.filtered transactions) query.clampedLimit place) := by
  have hplace := compatPosition_eq hasks hstart
  unfold buildCompatAllResponse
  show (do
    ensure query.ordered _
    let position ← compatPosition (query.filtered transactions) position
    _) = _
  rw [hordered, hplace]
  rfl

/-- The cursor of a next page is the gid of a selected transaction. -/
theorem asksAfter_next (hnames : ∀ tx ∈ transactions, tx.gid ≠ "" ∧ tx.gid.utf8ByteSize ≤ 128)
    {limit place : Nat} {gid : String}
    (hnext : next? Transaction.gid limit (query.filtered transactions) place = some gid) :
    AsksAfter (some gid) (some gid) := by
  unfold next? at hnext
  split at hnext
  · obtain ⟨tx, hlast, rfl⟩ := Option.map_eq_some_iff.mp hnext
    have hmem : tx ∈ query.filtered transactions :=
      List.mem_of_mem_drop (List.mem_of_mem_take (List.mem_of_getLast? hlast))
    exact ⟨rfl, hnames tx (List.mem_filter.mp (filtered_perm.mem_iff.mp hmem)).1⟩
  · cases hnext

/-- The answers give the pages of the selected transactions. -/
theorem compatPages_of_pages (hordered : query.ordered = true)
    (hnames : ∀ tx ∈ transactions, tx.gid ≠ "" ∧ tx.gid.utf8ByteSize ≤ 128)
    {cursor : Option String} {pages : List (List Transaction)}
    (h : Pages Transaction.gid query.clampedLimit (query.filtered transactions) cursor pages)
    {position : Option String} (hasks : AsksAfter position cursor) :
    ∃ responses, CompatPages libs transactions query position responses ∧
      responses.flatMap CompatAllResponse.transactions =
        pages.flatten.map (compatGlobalTransaction libs) ∧
      responses.length = pages.length := by
  induction h generalizing position with
  | last hstart hnext =>
    refine ⟨[_], .last (buildCompatAllResponse_eq hordered hasks hstart) ?_, ?_, rfl⟩
    · rw [pageResponse, hnext]
      rfl
    · rw [List.flatMap_singleton, List.flatten_singleton]
      rfl
  | more hstart hnext _ ih =>
    have hafter := asksAfter_next hnames hnext
    obtain ⟨responses, hrest, hlisted, hlength⟩ := ih hafter
    have hposition := congrArg (fun next => next.getD "") hnext
    refine ⟨_ :: responses, .more (buildCompatAllResponse_eq hordered hasks hstart) ?_ ?_, ?_, ?_⟩
    · exact fun hempty => hafter.2.1 (hposition.symm.trans hempty)
    · show CompatPages libs transactions query (some ((next? ..).getD "")) responses
      rw [hposition]
      exact hrest
    · rw [List.flatMap_cons, List.flatten_cons, List.map_append, hlisted]
      rfl
    · rw [List.length_cons, List.length_cons, hlength]

end Answers

/-- **The pages of a query are exact.**  Asked from the first page on, every page is answered, and
together they give every selected transaction once, in order, in as many pages as it takes. -/
theorem listing_exact (libs : ListingLibs) (transactions : List Transaction)
    (hgids : (transactions.map Transaction.gid).Nodup)
    (hnames : ∀ tx ∈ transactions, tx.gid ≠ "" ∧ tx.gid.utf8ByteSize ≤ 128) (query : CompatQuery)
    (hordered : query.ordered = true) (position : Option String) (hfirst : position.getD "" = "") :
    ∃ pages, CompatPages libs transactions query position pages ∧
      (∀ pages', CompatPages libs transactions query position pages' → pages' = pages) ∧
      (∃ listed : List Transaction, listed.Perm (transactions.filter query.selects) ∧
        (listed.Pairwise fun left right => right.ListedAfter left) ∧
        pages.flatMap CompatAllResponse.transactions =
          listed.map (compatGlobalTransaction libs)) ∧
      pages.length = if (transactions.filter query.selects).length = 0 then 1 else
        ((transactions.filter query.selects).length + query.clampedLimit - 1) /
          query.clampedLimit := by
  have hlimit : 0 < query.clampedLimit := Nat.lt_of_lt_of_le Nat.one_pos (Nat.le_max_left _ _)
  obtain ⟨pages, hpages, hflatten, hcount⟩ :=
    pages_exact (@filtered_gids transactions query hgids) hlimit
  obtain ⟨responses, hresponses, hlisted, hlength⟩ :=
    @compatPages_of_pages libs transactions query hordered hnames none _ hpages position hfirst
  refine ⟨responses, hresponses, fun _ h => h.unique hresponses, ?_, ?_⟩
  · exact ⟨_, filtered_perm, filtered_ordered hgids, by rw [hlisted, hflatten]⟩
  · rw [hlength, hcount, filtered_perm.length_eq, pageCount_eq hlimit]

/-- Three transactions, two of them created at once, in pages of two. -/
theorem listing_exact_three :
    let transactions : List Transaction :=
      [.new 1 "a" .tcc [], .new 2 "b" .saga [], .new 2 "c" .message []]
    let query : CompatQuery := {
      gid := none, transType := none, status := some "submitted", position := none,
      limit := some 2, createTimeStart := some 1, createTimeEnd := some 2 }
    ∃ pages, CompatPages ⟨fun _ => "", fun _ => .error ""⟩ transactions query none pages ∧
      pages.length = 2 := by
  intro transactions query
  obtain ⟨pages, hpages, -, -, hlength⟩ := listing_exact ⟨fun _ => "", fun _ => .error ""⟩
    transactions (by decide) (by decide) query (by decide) none rfl
  exact ⟨pages, hpages, hlength.trans (by decide)⟩

end RozeDtm
