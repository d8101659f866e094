import Mathlib.Algebra.Order.BigOperators.Group.List
import Mathlib.Algebra.Order.Group.Nat
import RozeDtm.Kv.SubscriberText
import RozeDtm.Properties.BranchFit
import RozeDtm.Trail.Inserts

/-!
# The bounds on a Message after its topics are expanded

`build_transaction` checks the documented bounds on the branches of the request.  The expansion of
the topics changes how many branches there are and what their ids and URLs are, and checks only
that the ids are still distinct.

* `stored_branches`: the branches that are stored, over a fixed topic store.
* `expanded_bounds_iff`: when they are in bounds.
-/

namespace RozeDtm

open Conc

/-- An http or https URL of at most 2048 bytes. -/
def HttpUrl (url : UrlLib) (value : String) : Prop :=
  value.utf8ByteSize ≤ 2048 ∧
    ∃ u, url.parse value = some u ∧ (url.scheme u = "http" ∨ url.scheme u = "https")

/-- The documented bounds on the branches. -/
structure Transaction.InBounds (url : UrlLib) (tx : Transaction) : Prop where
  nonempty : 1 ≤ tx.branches.length
  count : tx.branches.length ≤ 100
  distinct : (tx.branches.map Branch.id).Nodup
  ids : ∀ b ∈ tx.branches, 1 ≤ b.id.utf8ByteSize ∧ b.id.utf8ByteSize ≤ 128
  urls : ∀ b ∈ tx.branches, HttpUrl url b.action

/-- The action of a branch names a topic. -/
def Branch.HasTopic (b : Branch) : Prop := b.action.startsWith "topic://" = true

instance (b : Branch) : Decidable b.HasTopic := inferInstanceAs (Decidable (_ = true))

/-- The subscribers that the topic store has for a branch. -/
def Branch.subscribers (libs : Libs) (kv : String × String → Option KvEntry) (b : Branch) :
    List TopicSubscriber :=
  ((kv ("topics", b.topic)).bind fun entry => (libs.parseSubscribers entry.value).toOption).getD []

/-- How many branches a branch becomes. -/
def Branch.fanOut (libs : Libs) (kv : String × String → Option KvEntry) (b : Branch) : Nat :=
  if b.HasTopic then (b.subscribers libs kv).length else 1

/-- The longest id to which the number of a subscriber can be added, when there are `n`. -/
def longestId (n : Nat) : Nat := if n < 100 then 125 else 124

/-- The topic store keeps the branches in bounds. -/
structure ExpandsInBounds (libs : Libs) (kv : String × String → Option KvEntry)
    (branches : List Branch) : Prop where
  count : (branches.map (Branch.fanOut libs kv)).sum ≤ 100
  ids : ∀ b ∈ branches, b.HasTopic → 1 < (b.subscribers libs kv).length →
    b.id.utf8ByteSize ≤ longestId (b.subscribers libs kv).length
  urls : ∀ b ∈ branches, b.HasTopic → ∀ s ∈ b.subscribers libs kv, HttpUrl libs.url s.url

section Bounds

variable {state : ControlState} {libs : Libs} {kv : String × String → Option KvEntry}
  {a b : Branch} {tx stored : Transaction} {request : SubmitTransactionRequest} {now : Nat}

/-! ### What is checked -/

theorem httpUrl_of_accepts {value : String} (h : state.dtm.libs.url.Accepts (some value)) :
    HttpUrl state.dtm.libs.url value := by
  obtain ⟨text, u, ⟨⟩, hparse⟩ := h
  unfold parseBranchUrl at hparse
  obtain ⟨_, hsize, hparse⟩ := bind_eq_ok hparse
  rw [ensure_eq_ok, Bool.and_eq_true, decide_eq_true_eq] at hsize
  split at hparse
  · cases hparse
  · rename_i parsed hparsed
    obtain ⟨_, hchecked, -⟩ := bind_eq_ok hparse
    simp only [ensure_eq_ok, Bool.and_eq_true, Bool.or_eq_true, decide_eq_true_eq] at hchecked
    exact ⟨hsize.2, parsed, hparsed, hchecked.1.1.1.1⟩

/-- What `subscribe` lets into the topic store is in bounds. -/
theorem httpUrl_of_validateSubscriberUrl {url : UrlLib} {value : String}
    (h : validateSubscriberUrl url value = .ok ()) : HttpUrl url value := by
  unfold validateSubscriberUrl at h
  split at h
  · cases h
  · rename_i parsed hparsed
    simp only [ensure_eq_ok, Bool.and_eq_true, Bool.or_eq_true, decide_eq_true_eq] at h
    exact ⟨h.1.1.1.1.1, parsed, hparsed, h.1.1.1.1.2⟩

/-- What `build_transaction` has checked of a branch. -/
structure Branch.Checked (url : UrlLib) (b : Branch) : Prop where
  ids : 1 ≤ b.id.utf8ByteSize ∧ b.id.utf8ByteSize ≤ 128
  urls : ¬ b.HasTopic → HttpUrl url b.action

theorem one_le_utf8ByteSize {text : String} (h : text ≠ "") : 1 ≤ text.utf8ByteSize := by
  have hne : text.utf8ByteSize ≠ 0 := mt String.utf8ByteSize_eq_zero_iff.mp h
  omega

theorem nativeBranches_checked {ids : List String} {requests : List BranchRequest}
    {bs : List Branch} (h : state.nativeBranches .message ids requests = .ok bs) :
    bs.length = requests.length ∧ ∀ b ∈ bs, b.Checked state.dtm.libs.url := by
  induction requests generalizing ids bs with
  | nil =>
    cases h
    exact ⟨rfl, fun _ hb => absurd hb List.not_mem_nil⟩
  | cons request rest ih =>
    unfold ControlState.nativeBranches at h
    obtain ⟨_, hcheck, h⟩ := bind_eq_ok h
    obtain ⟨built, hbuilt, h⟩ := bind_eq_ok h
    obtain ⟨bs', hbs', h⟩ := bind_eq_ok h
    cases h
    obtain ⟨hlength, hchecked⟩ := ih hbs'
    obtain ⟨_, -, hbuilt⟩ := bind_eq_ok hbuilt
    cases hbuilt
    simp only [ensure_eq_ok, Bool.not_eq_true', Bool.or_eq_false_iff, decide_eq_false_iff_not,
      Nat.not_lt] at hcheck
    obtain ⟨⟨⟨hid, hsize⟩, -⟩, hurl⟩ := hcheck
    refine ⟨by rw [List.length_cons, List.length_cons, hlength], ?_⟩
    refine List.forall_mem_cons.mpr ⟨⟨⟨?_, hsize⟩, fun htopic => ?_⟩, hchecked⟩
    · apply one_le_utf8ByteSize
      intro hempty
      rw [show request.id = "" from hempty] at hid
      revert hid
      decide
    · have htopic' : request.action.startsWith "topic://" = false := Bool.eq_false_of_not_eq_true htopic
      rw [htopic', Bool.and_false, Bool.false_and, Bool.not_false, Bool.true_and,
        Bool.not_eq_false'] at hurl
      exact httpUrl_of_accepts (accepts_of_isOk hurl)

/-- The branches of a Message that `build_transaction` lets through. -/
theorem buildTransaction_checked (h : state.buildTransaction now .message request = .ok tx) :
    tx.kind = .message ∧ 1 ≤ tx.branches.length ∧
      ∀ b ∈ tx.branches, b.Checked state.dtm.libs.url := by
  obtain ⟨hkind, hne, hbranches⟩ := buildTransaction_built h
  obtain ⟨hlength, hchecked⟩ := nativeBranches_checked hbranches
  refine ⟨hkind, ?_, hchecked⟩
  rw [hlength]
  exact List.length_pos_iff.mpr hne

/-! ### What is stored -/

/-- What a branch becomes. -/
def Branch.expanded (libs : Libs) (kv : String × String → Option KvEntry) (b : Branch) :
    List Branch :=
  if b.HasTopic then Dtm.subscriberBranches b (b.subscribers libs kv) else [b]

theorem length_expanded (b : Branch) : (b.expanded libs kv).length = b.fanOut libs kv := by
  unfold Branch.expanded Branch.fanOut
  split
  · exact List.length_mapIdx ..
  · rfl

/-- Over a fixed topic store a branch has one expansion. -/
theorem Expansion.eq_expanded {group : List Branch}
    (h : Expansion libs (fun category key r => r = kv (category, key)) a group) :
    group = a.expanded libs kv ∧ 1 ≤ a.fanOut libs kv := by
  cases h with
  | plain haction =>
    have hplain : ¬ a.HasTopic := Bool.eq_false_iff.mp haction
    unfold Branch.expanded Branch.fanOut
    rw [if_neg hplain, if_neg hplain]
    exact ⟨rfl, le_refl 1⟩
  | @topic haction entry hread subscribers hparse hne hname =>
    have hsubscribers : a.subscribers libs kv = subscribers := by
      unfold Branch.subscribers
      rw [← hread, Option.bind_some, hparse]
      rfl
    have htopic : a.HasTopic := haction
    unfold Branch.expanded Branch.fanOut
    rw [if_pos htopic, if_pos htopic, hsubscribers]
    exact ⟨rfl, List.length_pos_iff.mpr hne⟩

/-- **The branches that are stored.** -/
theorem stored_branches (hkind : tx.kind = .message)
    (h : Submitted state.dtm (fun category key r => r = kv (category, key)) tx stored) :
    stored.branches = tx.branches.flatMap (Branch.expanded state.dtm.libs kv) ∧
      (stored.branches.map Branch.id).Nodup ∧
      ∀ a ∈ tx.branches, 1 ≤ a.fanOut state.dtm.libs kv := by
  obtain ⟨branches, hbranches, rfl⟩ := h.record
  rw [Dtm.withTimeout_branches]
  obtain ⟨groups, hgroups, hflatten, hnodup⟩ := hbranches.expanded hkind
  have heq : groups = tx.branches.map (Branch.expanded state.dtm.libs kv) :=
    (List.map_id groups).symm.trans
      (map_eq_of_forall₂ (fun _ _ h => h.eq_expanded.1) hgroups)
  refine ⟨?_, hnodup, fun a ha => ?_⟩
  · rw [hflatten, heq]
    exact List.flatMap_def.symm
  · obtain ⟨group, -, hgroup⟩ := exists_of_forall₂_left hgroups ha
    exact hgroup.eq_expanded.2

/-! ### The ids with the numbers of the subscribers -/

theorem utf8ByteSize_twoDigits : ∀ n ≤ 100,
    (Dtm.twoDigits n).utf8ByteSize = if n < 100 then 2 else 3 := by
  decide +kernel

theorem utf8ByteSize_subscriberId (id : String) {n : Nat} (hn : n ≤ 100) :
    (s!"{id}-{Dtm.twoDigits n}").utf8ByteSize = id.utf8ByteSize + if n < 100 then 3 else 4 := by
  show (id ++ "-" ++ Dtm.twoDigits n).utf8ByteSize = _
  rw [String.utf8ByteSize_append, String.utf8ByteSize_append, utf8ByteSize_twoDigits n hn]
  show id.utf8ByteSize + 1 + _ = _
  split <;> omega

/-- The ids of the branches that a branch becomes are in bounds when the longest one is. -/
theorem expanded_ids_iff (hid : 1 ≤ a.id.utf8ByteSize ∧ a.id.utf8ByteSize ≤ 128)
    (hcount : a.fanOut libs kv ≤ 100) :
    (∀ b ∈ a.expanded libs kv, 1 ≤ b.id.utf8ByteSize ∧ b.id.utf8ByteSize ≤ 128) ↔
      (a.HasTopic → 1 < (a.subscribers libs kv).length →
        a.id.utf8ByteSize ≤ longestId (a.subscribers libs kv).length) := by
  unfold Branch.expanded longestId
  unfold Branch.fanOut at hcount
  by_cases htopic : a.HasTopic
  · rw [if_pos htopic] at hcount ⊢
    generalize a.subscribers libs kv = subscribers at hcount ⊢
    have hmem {b : Branch} : b ∈ Dtm.subscriberBranches a subscribers ↔
        ∃ i, ∃ h : i < subscribers.length, b = { a with
          id := if 1 < subscribers.length then s!"{a.id}-{Dtm.twoDigits (i + 1)}" else a.id
          action := (subscribers[i]).url } := by
      unfold Dtm.subscriberBranches
      rw [List.mem_mapIdx]
      exact exists_congr fun i => exists_congr fun h => eq_comm
    constructor
    · intro hids _ hmany
      have hlast := hids _ (hmem.mpr ⟨subscribers.length - 1, by omega, rfl⟩)
      dsimp only at hlast
      rw [if_pos hmany, Nat.sub_add_cancel (by omega),
        utf8ByteSize_subscriberId a.id hcount] at hlast
      split at hlast <;> split <;> omega
    · intro hlongest b hb
      obtain ⟨i, hi, rfl⟩ := hmem.mp hb
      dsimp only
      by_cases hmany : 1 < subscribers.length
      · have hbound := hlongest htopic hmany
        rw [if_pos hmany, utf8ByteSize_subscriberId a.id (by omega)]
        split at hbound <;> split <;> omega
      · rw [if_neg hmany]
        exact hid
  · rw [if_neg htopic]
    refine iff_of_true ?_ fun h => absurd h htopic
    exact List.forall_mem_singleton.mpr hid

/-- The URLs of the branches that a branch becomes. -/
theorem expanded_urls_iff (hurl : ¬ a.HasTopic → HttpUrl libs.url a.action) :
    (∀ b ∈ a.expanded libs kv, HttpUrl libs.url b.action) ↔
      (a.HasTopic → ∀ s ∈ a.subscribers libs kv, HttpUrl libs.url s.url) := by
  unfold Branch.expanded
  by_cases htopic : a.HasTopic
  · rw [if_pos htopic]
    constructor
    · intro hurls _ s hs
      obtain ⟨i, hi, rfl⟩ := List.mem_iff_getElem.mp hs
      exact hurls _ (List.mem_mapIdx.mpr ⟨i, hi, rfl⟩)
    · intro hurls b hb
      obtain ⟨i, hi, rfl⟩ := List.mem_mapIdx.mp hb
      exact hurls htopic _ (List.getElem_mem hi)
  · rw [if_neg htopic]
    refine iff_of_true ?_ fun h => absurd h htopic
    exact List.forall_mem_singleton.mpr (hurl htopic)

/-- **The stored Message is in bounds** exactly when the topics it names have not too many
subscribers, the ids leave room for their numbers, and their URLs are in bounds. -/
theorem expanded_bounds_iff (state : ControlState) (now : Nat) (request : SubmitTransactionRequest)
    (tx : Transaction) (hbuilt : state.buildTransaction now .message request = .ok tx)
    (kv : String × String → Option KvEntry) (stored : Transaction)
    (hstored : (state.dtm.submit tx).run.Comes
      (Reads fun category key r => r = kv (category, key)) (.insertTransaction stored)) :
    stored.InBounds state.dtm.libs.url ↔ ExpandsInBounds state.dtm.libs kv tx.branches := by
  obtain ⟨hkind, hne, hchecked⟩ := buildTransaction_checked hbuilt
  obtain ⟨hbranches, hnodup, hsome⟩ := stored_branches hkind (submitted_of_submit hstored)
  have hlength : stored.branches.length =
      (tx.branches.map (Branch.fanOut state.dtm.libs kv)).sum := by
    rw [hbranches, List.length_flatMap]
    congr 1
    exact List.map_congr_left fun b _ => length_expanded b
  have hall {P : Branch → Prop} : (∀ b ∈ stored.branches, P b) ↔
      ∀ a ∈ tx.branches, ∀ b ∈ a.expanded state.dtm.libs kv, P b := by
    rw [hbranches]
    exact List.forall_mem_flatMap
  have hids (hcount : (tx.branches.map (Branch.fanOut state.dtm.libs kv)).sum ≤ 100) :
      ∀ a ∈ tx.branches, a.fanOut state.dtm.libs kv ≤ 100 := fun a ha =>
    (List.le_sum_of_mem (List.mem_map_of_mem ha)).trans hcount
  constructor
  · intro h
    have hcount := hlength ▸ h.count
    refine ⟨hcount, fun a ha => ?_, fun a ha => ?_⟩
    · exact (expanded_ids_iff (hchecked a ha).ids (hids hcount a ha)).mp (hall.mp h.ids a ha)
    · exact (expanded_urls_iff (hchecked a ha).urls).mp (hall.mp h.urls a ha)
  · intro h
    refine ⟨?_, hlength ▸ h.count, hnodup, hall.mpr fun a ha => ?_, hall.mpr fun a ha => ?_⟩
    · obtain ⟨a, ha⟩ := List.exists_mem_of_length_pos hne
      rw [hlength]
      exact (hsome a ha).trans (List.le_sum_of_mem (List.mem_map_of_mem ha))
    · exact (expanded_ids_iff (hchecked a ha).ids (hids h.count a ha)).mpr (h.ids a ha)
    · exact (expanded_urls_iff (hchecked a ha).urls).mpr (h.urls a ha)

end Bounds

/-! ### A topic with two subscribers -/

/-- A topic store in which the topic `t` has two subscribers. -/
def kvOfTwo (key : String × String) : Option KvEntry :=
  if key = ("topics", "t") then
    some ⟨"topics", "t", SubscriberText.toText [⟨"http://a", ""⟩, ⟨"http://b", ""⟩], 2, 0, 0⟩
  else none

/-- A service that reads subscriber lists. -/
def ControlState.readingTopics : ControlState where
  dtm := ⟨.default, { Libs.plain with parseSubscribers := SubscriberText.parse }⟩
  libs := .plain
  branchUrlPolicy := .allowAll

/-- A Message with one branch, for the topic `t`. -/
def topicRequest (id : String) : SubmitTransactionRequest where
  gid := "g"
  kind := none
  branches := [⟨id, none, "topic://t", none, none, none, .null, []⟩]
  timeoutMillis := none
  metadata := ∅
  options := .default

/-- An id of 126 bytes. -/
def id126 : String := String.ofList (List.replicate 126 'a')

/-- The transaction that is built from it. -/
def topicMessage (id : String) : Transaction :=
  Transaction.new 0 "g" .message [Branch.message id "topic://t" .null]

/-- With an id of one byte the stored Message is in bounds. -/
theorem expanded_in_bounds :
    ControlState.readingTopics.buildTransaction 0 .message (topicRequest "b") =
      .ok (topicMessage "b") ∧
    ∃ stored, (ControlState.readingTopics.dtm.submit (topicMessage "b")).run.Comes
      (Reads fun category key r => r = kvOfTwo (category, key)) (.insertTransaction stored) ∧
      stored.InBounds Libs.plain.url := by
  have hbuilt : ControlState.readingTopics.buildTransaction 0 .message (topicRequest "b") =
      .ok (topicMessage "b") := by decide +kernel
  obtain ⟨stored, hstored, -⟩ := exists_insert { World.initial [] with kv := kvOfTwo }
    (K := fun category key r => r = kvOfTwo (category, key)) (fun _ _ => rfl)
    (p := (ControlState.readingTopics.dtm.submit (topicMessage "b")).run)
    (fun _ => true) (by decide +kernel)
  refine ⟨hbuilt, stored, hstored, (expanded_bounds_iff _ 0 _ _ hbuilt kvOfTwo stored hstored).mpr
    ⟨by decide +kernel, by decide +kernel, ?_⟩⟩
  intro b hb _ s hs
  cases List.mem_singleton.mp hb
  rw [show Branch.subscribers ControlState.readingTopics.dtm.libs kvOfTwo _ =
    [⟨"http://a", ""⟩, ⟨"http://b", ""⟩] by decide +kernel] at hs
  rcases List.mem_pair.mp hs with rfl | rfl
  · exact ⟨by decide, "http://a", rfl, .inl rfl⟩
  · exact ⟨by decide, "http://b", rfl, .inl rfl⟩

/-- With an id of 126 bytes the ids of the stored branches have 129. -/
theorem expanded_out_of_bounds :
    ControlState.readingTopics.buildTransaction 0 .message (topicRequest id126) =
      .ok (topicMessage id126) ∧
    ∃ stored, (ControlState.readingTopics.dtm.submit (topicMessage id126)).run.Comes
      (Reads fun category key r => r = kvOfTwo (category, key)) (.insertTransaction stored) ∧
      ¬ stored.InBounds Libs.plain.url := by
  obtain ⟨stored, hstored, hlong⟩ := exists_insert { World.initial [] with kv := kvOfTwo }
    (K := fun category key r => r = kvOfTwo (category, key)) (fun _ _ => rfl)
    (p := (ControlState.readingTopics.dtm.submit (topicMessage id126)).run)
    (fun tx => tx.branches.any fun b => 128 < b.id.utf8ByteSize) (by decide +kernel)
  refine ⟨by decide +kernel, stored, hstored, fun h => ?_⟩
  obtain ⟨b, hb, hsize⟩ := List.any_eq_true.mp hlong
  exact absurd (h.ids b hb).2 (Nat.not_le.mpr (of_decide_eq_true hsize))

end RozeDtm
