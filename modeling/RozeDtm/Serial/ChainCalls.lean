import RozeDtm.Conc.Retries
import RozeDtm.Serial.SagaCalls

/-!
# The calls of a Saga whose branches run in turn

A sequential Saga runs its branches in order, and a concurrent one does when each branch depends
on the one before it.  How far such a Saga is, is said by what its calls have returned: on the
way forward (`OnTheWay`) some branches have succeeded and the next one has failed some times,
and when a branch has used up its attempts (`GivenUp`) those before it are compensated from the
last one on (`OnTheWayBack`).  In the sequential mode the branch that was given up is compensated
too.
-/

namespace RozeDtm

open Conc Conc.Retries

/-! ### What was returned -/

/-- What a call of the transaction `g` for `op` has returned: the branch, and if it succeeded. -/
def Event.returned? (g op : String) : Event → Option (String × Bool)
  | .ended c ok => if c.gid = g ∧ c.op = op then some (c.branchId, ok) else none
  | _ => none

/-- What the calls of the transaction `g` for `op` have returned, the latest first. -/
def World.returns (w : World) (g op : String) : List (String × Bool) :=
  w.history.filterMap fun entry => entry.2.returned? g op

/-- No call of the transaction `g` has returned. -/
def World.ReturnsSame (w' : World) (g : String) (w : World) : Prop :=
  ∀ op, w'.returns g op = w.returns g op

/-- The branches whose calls have succeeded. -/
def succeededIds (l : List (String × Bool)) : List String :=
  (l.filter fun e => e.2).map Prod.fst

/-- The barrier of the transaction `g` for `op` of the branch `id`. -/
abbrev barrierOf (g op id : String) : BranchBarrier := ⟨g, id, op⟩

/-- A call of the branch `id` for `op` has returned, under its barrier. -/
structure Returned (g op id : String) (ok : Bool) (w w' : World) : Prop where
  same : w'.returns g op = (id, ok) :: w.returns g op
  other : ∀ op', op' ≠ op → w'.returns g op' = w.returns g op'
  barriers : ∀ op' id', (op' = op → id' ≠ id) →
    (barrierOf g op' id' ∈ w'.barriers ↔ barrierOf g op' id' ∈ w.barriers)

section Returns

variable {w w' w'' : World} {g op id : String} {i : Nat} {c : BranchCall} {ok : Bool} {b : BranchBarrier}

theorem returns_ended (hg : c.gid = g) (hop : c.op = op) (hid : c.branchId = id)
    (h : w'.history = (i, .ended c ok) :: w.history) :
    w'.returns g op = (id, ok) :: w.returns g op := by
  rw [World.returns, h, List.filterMap_cons_some (b := (id, ok)), World.returns]
  simp [Event.returned?, hg, hop, hid]

theorem returns_ended_of_ne (hop : c.op ≠ op) (h : w'.history = (i, .ended c ok) :: w.history) :
    w'.returns g op = w.returns g op := by
  rw [World.returns, h, List.filterMap_cons_none, World.returns]
  simp [Event.returned?, hop]

theorem returns_quiet {e : Event} (he : e.returned? g op = none) (h : w'.history = (i, e) :: w.history) :
    w'.returns g op = w.returns g op := by
  rw [World.returns, h, List.filterMap_cons_none (by exact he), World.returns]

theorem returnsSame_of_history (h : w'.history = w.history) : w'.ReturnsSame g w := fun op => by
  rw [World.returns, h, World.returns]

/-- An event of a barrier. -/
theorem returnsSame_of_event {e : Event} (he : ∀ op, e.returned? g op = none)
    (h : w'.history = (i, e) :: w.history) : w'.ReturnsSame g w := fun op => returns_quiet (he op) h

/-- What comes after without returning anything, and leaves the barriers of the others alone. -/
theorem Returned.trans (h : Returned g op id ok w w')
    (hreturns : w''.ReturnsSame g w') (hb : ∀ op' id', (op' = op → id' ≠ id) →
      (barrierOf g op' id' ∈ w''.barriers ↔ barrierOf g op' id' ∈ w'.barriers)) :
    Returned g op id ok w w'' where
  same := (hreturns op).trans h.same
  other := fun op' hop => (hreturns op').trans (h.other op' hop)
  barriers := fun op' id' hne => (hb op' id' hne).trans (h.barriers op' id' hne)

theorem barrierOf_inj {op' id' : String} :
    barrierOf g op' id' = barrierOf g op id ↔ op' = op ∧ id' = id := by
  simp [barrierOf, and_comm]

/-- A call under its barrier. -/
theorem returned_of_call {j k : Nat} {d : BarrierDecision} (hg : c.gid = g) (hop : c.op = op)
    (hid : c.branchId = id)
    (hh : w'.history = (i, .ended c ok) :: (j, .began c) ::
      (k, .decided (barrierOf g op id) d) :: w.history)
    (hb : w'.barriers = insert (barrierOf g op id) w.barriers) : Returned g op id ok w w' := by
  let w₁ : World := { w with history := (j, .began c) :: (k, .decided (barrierOf g op id) d) :: w.history }
  have hquiet : w₁.ReturnsSame g w := fun op' =>
    (returns_quiet (w := { w with history := (k, .decided (barrierOf g op id) d) :: w.history })
      rfl rfl).trans (returns_quiet rfl rfl)
  refine ⟨?_, fun op' hop' => ?_, fun op' id' hne => ?_⟩
  · rw [returns_ended (w := w₁) hg hop hid hh, hquiet]
  · rw [returns_ended_of_ne (w := w₁) (by rw [hop]; exact hop'.symm) hh, hquiet]
  · have hne' : barrierOf g op' id' ≠ barrierOf g op id := by
      rw [ne_eq, barrierOf_inj]
      exact fun h => hne h.1 h.2
    simp [hb, hne']

/-- The barrier is given back. -/
theorem Returned.released (h : Returned g op id ok w w')
    (hh : w''.history = (i, .released (barrierOf g op id)) :: w'.history)
    (hb : w''.barriers = w'.barriers.erase (barrierOf g op id)) :
    Returned g op id ok w w'' ∧ barrierOf g op id ∉ w''.barriers := by
  refine ⟨h.trans (returnsSame_of_event (fun _ => rfl) hh) fun op' id' hne => ?_, ?_⟩
  · have hne' : barrierOf g op' id' ≠ barrierOf g op id := by
      rw [ne_eq, barrierOf_inj]
      exact fun h => hne h.1 h.2
    simp [hb, hne']
  · simp [hb]

end Returns

/-! ### How far the Saga is -/

/-- The calls of a branch that failed before its action succeeded, by its record. -/
def Branch.job (b : Branch) : String × Nat := (b.id, b.attempts - 1)

/-- The calls of the branch that is called next. -/
def failedNext : List Branch → List (String × Bool)
  | [] => []
  | b :: _ => List.replicate b.attempts (b.id, false)

/-- On the way forward: the branches `acted` have succeeded, and those of `rest` have not. -/
structure OnTheWay (s₀ : Transaction) (w : World) (acted rest : List Branch) : Prop where
  won : ∀ b ∈ acted, b.status = .succeeded ∧ 0 < b.attempts ∧
    b.attempts ≤ sagaMaxAttempts s₀.options
  left : ∀ b ∈ rest, (b.status = .pending ∨ b.status = .failed) ∧
    b.attempts < sagaMaxAttempts s₀.options
  fresh : ∀ b ∈ rest.tail, b.attempts = 0
  actions : w.returns s₀.gid "action" = failedNext rest ++ wonLog (acted.map Branch.job)
  undone : w.returns s₀.gid "compensate" = []
  free : ∀ b ∈ rest, barrierOf s₀.gid "action" b.id ∉ w.barriers
  freeUndo : ∀ id, barrierOf s₀.gid "compensate" id ∉ w.barriers

/-- Every branch has succeeded, and none was compensated. -/
def Completed (s₀ : Transaction) (w : World) : Prop :=
  ∃ jobs : List (String × Nat), jobs.map Prod.fst = s₀.branches.map Branch.id ∧
    (∀ job ∈ jobs, job.2 < sagaMaxAttempts s₀.options) ∧
    w.returns s₀.gid "action" = wonLog jobs ∧ w.returns s₀.gid "compensate" = []

/-- The branch at the place `k` has used up its attempts; those before it have succeeded. -/
def GivenUp (s₀ : Transaction) (k : Nat) (w : World) : Prop :=
  ∃ (jobs : List (String × Nat)) (id : String), jobs.length = k ∧
    (jobs.map Prod.fst ++ [id]) <+: s₀.branches.map Branch.id ∧
    (∀ job ∈ jobs, job.2 < sagaMaxAttempts s₀.options) ∧
    w.returns s₀.gid "action" =
      List.replicate (sagaMaxAttempts s₀.options) (id, false) ++ wonLog jobs

/-- The branches that an abort has still to call. -/
def owing (bs : List Branch) : List String :=
  (bs.filter fun b => b.status.isOwed && b.compensate.isSome).map Branch.id

/-- The branches that are called by an abort when the one at the place `k` was given up: the
sequential mode compensates that one too. -/
def dueBack (s₀ : Transaction) (k : Nat) : List String :=
  ((s₀.branches.take (if s₀.options.concurrent then k else k + 1)).filter
    fun b => b.compensate.isSome).map Branch.id

/-- The branches of a concurrent Saga on the way back: those that are left come first, and those
that were compensated had a URL for it. -/
structure Descending (k : Nat) (bs left passed : List Branch) : Prop where
  split : bs = left ++ passed
  length : left.length ≤ k
  compensating : ∀ b ∈ left, b.status = .compensating
  settled : ∀ b ∈ passed, b.status.isOwed = false
  called : ∀ b ∈ passed.take (k - left.length), b.compensate ≠ none

/-- On the way back, after the branch at the place `k` was given up. -/
structure OnTheWayBack (s₀ : Transaction) (k : Nat) (w : World) (bs : List Branch) : Prop where
  givenUp : GivenUp s₀ k w
  owes : owing bs ++ succeededIds (w.returns s₀.gid "compensate") = dueBack s₀ k
  ids : ∀ e ∈ w.returns s₀.gid "compensate", e.1 ∈ s₀.branches.map Branch.id
  free : ∀ b ∈ bs, b.status.isOwed = true → (s₀.options.concurrent = true → b.compensate ≠ none) →
    barrierOf s₀.gid "compensate" b.id ∉ w.barriers

/-- The branches are the same, and no more of them are to be compensated. -/
def BranchesKept (bs bs' : List Branch) : Prop :=
  List.Forall₂ (fun a b => b.definition = a.definition ∧
    (b.status.isOwed = true → a.status.isOwed = true)) bs bs'

section Way

variable {s₀ : Transaction} {w w' : World} {acted rest bs : List Branch} {b b' : Branch} {k : Nat}
  {limit : Nat}

theorem OnTheWay.same (h : OnTheWay s₀ w acted rest) (hr : w'.ReturnsSame s₀.gid w)
    (hb : w'.barriers = w.barriers) : OnTheWay s₀ w' acted rest where
  won := h.won
  left := h.left
  fresh := h.fresh
  actions := (hr _).trans h.actions
  undone := (hr _).trans h.undone
  free := by
    rw [hb]
    exact h.free
  freeUndo := by
    rw [hb]
    exact h.freeUndo

theorem job_lt (h : ∀ b ∈ acted, b.status = .succeeded ∧ 0 < b.attempts ∧ b.attempts ≤ limit) :
    ∀ job ∈ acted.map Branch.job, job.2 < limit := by
  intro job hjob
  obtain ⟨b, hb, rfl⟩ := List.mem_map.mp hjob
  obtain ⟨-, hpos, hle⟩ := h b hb
  show b.attempts - 1 < limit
  omega

theorem map_job_fst : (acted.map Branch.job).map Prod.fst = acted.map Branch.id := by
  rw [List.map_map]
  rfl

/-- **The next action has succeeded.** -/
theorem OnTheWay.act (h : OnTheWay s₀ w acted (b :: rest)) (hn : ((b :: rest).map Branch.id).Nodup)
    (hr : Returned s₀.gid "action" b.id true w w') (hid : b'.id = b.id)
    (hst : b'.status = .succeeded) (hatt : b'.attempts = b.attempts + 1) :
    OnTheWay s₀ w' (acted ++ [b']) rest where
  won := by
    have hlt := (h.left b (.head _)).2
    refine List.forall_mem_append.mpr ⟨h.won, List.forall_mem_singleton.mpr ⟨hst, ?_, ?_⟩⟩
    · omega
    · omega
  left := fun a ha => h.left a (.tail _ ha)
  fresh := fun a ha => h.fresh a (List.mem_of_mem_tail ha)
  actions := by
    have hnext : failedNext rest = [] := by
      cases rest with
      | nil => rfl
      | cons a rest =>
        rw [failedNext, h.fresh a (.head _)]
        rfl
    have hjob : b'.job = (b.id, b.attempts) := by
      rw [Branch.job, hid, hatt, Nat.add_sub_cancel]
    rw [hr.same, h.actions, hnext, List.map_append, List.map_singleton, wonLog_snoc, hjob]
    rfl
  undone := (hr.other _ (by decide)).trans h.undone
  free := fun a ha hm => by
    rw [List.map_cons, List.nodup_cons] at hn
    refine h.free a (.tail _ ha) ((hr.barriers _ _ fun _ hid' => ?_).mp hm)
    exact hn.1 (hid' ▸ List.mem_map_of_mem ha)
  freeUndo := fun id hm => h.freeUndo id
    ((hr.barriers _ _ fun hop => absurd hop (by decide)).mp hm)

/-- **The next action has failed**, and may be called again. -/
theorem OnTheWay.miss (h : OnTheWay s₀ w acted (b :: rest)) (hn : ((b :: rest).map Branch.id).Nodup)
    (hr : Returned s₀.gid "action" b.id false w w')
    (hfree : barrierOf s₀.gid "action" b.id ∉ w'.barriers) (hid : b'.id = b.id)
    (hst : b'.status = .failed) (hatt : b'.attempts = b.attempts + 1)
    (hlt : b'.attempts < sagaMaxAttempts s₀.options) : OnTheWay s₀ w' acted (b' :: rest) where
  won := h.won
  left := List.forall_mem_cons.mpr ⟨⟨Or.inr hst, hlt⟩, fun a ha => h.left a (.tail _ ha)⟩
  fresh := h.fresh
  actions := by
    rw [hr.same, h.actions, failedNext, failedNext, hid, hatt, List.replicate_succ]
    rfl
  undone := (hr.other _ (by decide)).trans h.undone
  free := by
    refine List.forall_mem_cons.mpr ⟨by rw [hid]; exact hfree, fun a ha hm => ?_⟩
    rw [List.map_cons, List.nodup_cons] at hn
    refine h.free a (.tail _ ha) ((hr.barriers _ _ fun _ hid' => ?_).mp hm)
    exact hn.1 (hid' ▸ List.mem_map_of_mem ha)
  freeUndo := fun id hm => h.freeUndo id
    ((hr.barriers _ _ fun hop => absurd hop (by decide)).mp hm)

/-- **The next action has failed for the last time.** -/
theorem OnTheWay.giveUp (h : OnTheWay s₀ w acted (b :: rest))
    (hids : (acted ++ b :: rest).map Branch.id = s₀.branches.map Branch.id)
    (hr : Returned s₀.gid "action" b.id false w w')
    (hle : sagaMaxAttempts s₀.options ≤ b.attempts + 1) : GivenUp s₀ acted.length w' := by
  have hlt := (h.left b (.head _)).2
  have heq : b.attempts + 1 = sagaMaxAttempts s₀.options := by omega
  refine ⟨acted.map Branch.job, b.id, List.length_map _, ?_, job_lt h.won, ?_⟩
  · rw [map_job_fst, ← hids, List.map_append, List.map_cons]
    exact ⟨rest.map Branch.id, by simp⟩
  · rw [hr.same, h.actions, ← heq, List.replicate_succ]
    rfl

/-- Every action has succeeded. -/
theorem OnTheWay.completed (h : OnTheWay s₀ w acted [])
    (hids : acted.map Branch.id = s₀.branches.map Branch.id) : Completed s₀ w :=
  ⟨acted.map Branch.job, map_job_fst.trans hids, job_lt h.won, h.actions, h.undone⟩

/-! ### The way back -/

theorem GivenUp.same {w' : World} (h : GivenUp s₀ k w)
    (hr : w'.returns s₀.gid "action" = w.returns s₀.gid "action") : GivenUp s₀ k w' := by
  obtain ⟨jobs, id, hk, hprefix, hlt, hlog⟩ := h
  exact ⟨jobs, id, hk, hprefix, hlt, hr.trans hlog⟩

theorem owing_append (as bs : List Branch) : owing (as ++ bs) = owing as ++ owing bs := by
  rw [owing, List.filter_append, List.map_append, owing, owing]

theorem owing_of_not_owed (h : ∀ b ∈ bs, b.status.isOwed = false) : owing bs = [] := by
  rw [owing, List.filter_eq_nil_iff.mpr fun b hb => by simp [h b hb], List.map_nil]

theorem owing_of_owed (h : ∀ b ∈ bs, b.status.isOwed = true) :
    owing bs = (bs.filter fun b => b.compensate.isSome).map Branch.id := by
  rw [owing]
  congr 1
  refine List.filter_congr fun b hb => ?_
  rw [h b hb, Bool.true_and]

theorem owing_map {f : Branch → Branch} (hd : ∀ b, (f b).definition = b.definition)
    (ho : ∀ b, (f b).status.isOwed = b.status.isOwed) : owing (bs.map f) = owing bs := by
  have hid : Branch.id ∘ f = Branch.id := funext fun b => Branch.id_eq (hd b)
  rw [owing, List.filter_map, List.map_map, hid, owing]
  congr 2
  funext b
  rw [Function.comp_apply, ho, Branch.compensate_eq (hd b)]

theorem owing_cons_of_not_owed (hb : b.status.isOwed = false) : owing (b :: bs) = owing bs := by
  simp [owing, hb]

theorem owing_cons_of_none (hb : b.compensate = none) : owing (b :: bs) = owing bs := by
  simp [owing, hb]

theorem owing_cons (hb : b.status.isOwed = true) (hc : b.compensate ≠ none) :
    owing (b :: bs) = b.id :: owing bs := by
  obtain ⟨url, hurl⟩ := Option.ne_none_iff_exists'.mp hc
  simp [owing, hb, hurl]

/-- Around a branch the others have other ids. -/
theorem id_ne_of_nodup {before after : List Branch} (hn : ((before ++ b :: after).map Branch.id).Nodup)
    {a : Branch} (ha : a ∈ before ++ b' :: after) (hne : a ≠ b') : a.id ≠ b.id := by
  rw [List.map_append, List.map_cons, List.nodup_middle, List.nodup_cons, ← List.map_append] at hn
  have hmem : a ∈ before ++ after := by
    rw [List.mem_append, List.mem_cons] at ha
    rw [List.mem_append]
    exact ha.imp id fun h => h.resolve_left hne
  exact fun hid => hn.1 (hid ▸ List.mem_map_of_mem hmem)

/-- **Turning back**: what has to be compensated comes first. -/
theorem GivenUp.turn {left passed : List Branch} (h : GivenUp s₀ k w)
    (hs : SameBranches s₀.branches (left ++ passed))
    (hk : left.length = if s₀.options.concurrent then k else k + 1)
    (hleft : ∀ b ∈ left, b.status.isOwed = true) (hpassed : ∀ b ∈ passed, b.status.isOwed = false)
    (hundone : w.returns s₀.gid "compensate" = [])
    (hfree : ∀ id, barrierOf s₀.gid "compensate" id ∉ w.barriers) :
    OnTheWayBack s₀ k w (left ++ passed) where
  givenUp := h
  owes := by
    have htake : SameBranches (s₀.branches.take left.length) left := by
      have h := List.forall₂_take left.length hs
      rwa [List.take_left] at h
    rw [owing_append, owing_of_not_owed hpassed, List.append_nil, owing_of_owed hleft, hundone,
      dueBack, ← hk]
    refine (List.append_nil _).trans (filter_map_eq_of_forall₂ (fun a b hd => ?_) (fun a b hd => ?_) htake)
    · rw [Branch.compensate_eq hd]
    · exact Branch.id_eq hd
  ids := by
    rw [hundone]
    exact fun _ h => nomatch h
  free := fun b _ _ _ => hfree b.id

theorem BranchesKept.refl (bs : List Branch) : BranchesKept bs bs := List.forall₂_same.mpr fun _ _ => ⟨rfl, id⟩

/-- One branch is exchanged for itself with another status. -/
theorem BranchesKept.exchange {before after : List Branch} (hd : b'.definition = b.definition)
    (ho : b'.status.isOwed = true → b.status.isOwed = true) :
    BranchesKept (before ++ b :: after) (before ++ b' :: after) :=
  forall₂_middle (BranchesKept.refl before) ⟨hd, ho⟩ (BranchesKept.refl after)

theorem BranchesKept.map {f : Branch → Branch} (hd : ∀ b, (f b).definition = b.definition)
    (ho : ∀ b, (f b).status.isOwed = true → b.status.isOwed = true) : BranchesKept bs (bs.map f) :=
  List.forall₂_map_right_iff.mpr (List.forall₂_same.mpr fun b _ => ⟨hd b, ho b⟩)

/-- The barriers that have to be free stay so, but for that of the branch `id`. -/
theorem OnTheWayBack.freeKept {bs' : List Branch} {id : String} (h : OnTheWayBack s₀ k w bs)
    (hkept : BranchesKept bs bs') (hb : ∀ id', id' ≠ id →
      (barrierOf s₀.gid "compensate" id' ∈ w'.barriers ↔
        barrierOf s₀.gid "compensate" id' ∈ w.barriers))
    (hid : ∀ b ∈ bs', b.status.isOwed = true → b.id = id →
      barrierOf s₀.gid "compensate" id ∉ w'.barriers) :
    ∀ b ∈ bs', b.status.isOwed = true → (s₀.options.concurrent = true → b.compensate ≠ none) →
      barrierOf s₀.gid "compensate" b.id ∉ w'.barriers := by
  intro b hmem howed hcomp hm
  obtain ⟨a, ha, hd, ho⟩ := exists_of_forall₂ hkept hmem
  by_cases hne : b.id = id
  · exact hid b hmem howed hne (hne ▸ hm)
  · refine h.free a ha (ho howed) (fun hconc => ?_) ?_
    · rw [← Branch.compensate_eq hd]
      exact hcomp hconc
    · rw [← Branch.id_eq hd]
      exact (hb b.id hne).mp hm

/-- Nothing was called and no barrier was taken. -/
theorem OnTheWayBack.same {bs' : List Branch} (h : OnTheWayBack s₀ k w bs)
    (hr : w'.ReturnsSame s₀.gid w) (hb : w'.barriers = w.barriers) (hkept : BranchesKept bs bs')
    (ho : owing bs' = owing bs) : OnTheWayBack s₀ k w' bs' where
  givenUp := h.givenUp.same (hr _)
  owes := by
    rw [hr, ho]
    exact h.owes
  ids := by
    rw [hr]
    exact h.ids
  free := fun b hmem howed hcomp hm => by
    obtain ⟨a, ha, hd, ho⟩ := exists_of_forall₂ hkept hmem
    refine h.free a ha (ho howed) (fun hconc => ?_) ?_
    · rw [← Branch.compensate_eq hd]
      exact hcomp hconc
    · rw [← Branch.id_eq hd, ← hb]
      exact hm

/-- **A compensation has succeeded**; it was the last that was owed. -/
theorem OnTheWayBack.undo {bs' : List Branch} {left : List String} {id : String}
    (h : OnTheWayBack s₀ k w bs) (ho : owing bs = left ++ [id]) (ho' : owing bs' = left)
    (hmem : id ∈ s₀.branches.map Branch.id) (hr : Returned s₀.gid "compensate" id true w w')
    (hkept : BranchesKept bs bs') (hne : ∀ b ∈ bs', b.status.isOwed = true → b.id ≠ id) :
    OnTheWayBack s₀ k w' bs' where
  givenUp := h.givenUp.same (hr.other _ (by decide))
  owes := by
    rw [hr.same, ho', ← h.owes, ho]
    simp [succeededIds]
  ids := by
    rw [hr.same]
    exact List.forall_mem_cons.mpr ⟨hmem, h.ids⟩
  free := h.freeKept hkept (fun id' hne' => hr.barriers _ _ fun _ => hne')
    fun b hb howed hid => absurd hid (hne b hb howed)

/-- A compensation has failed. -/
theorem OnTheWayBack.missed {bs' : List Branch} {id : String} (h : OnTheWayBack s₀ k w bs)
    (hmem : id ∈ s₀.branches.map Branch.id) (hr : Returned s₀.gid "compensate" id false w w')
    (hfree : barrierOf s₀.gid "compensate" id ∉ w'.barriers) (hkept : BranchesKept bs bs')
    (ho' : owing bs' = owing bs) : OnTheWayBack s₀ k w' bs' where
  givenUp := h.givenUp.same (hr.other _ (by decide))
  owes := by
    rw [hr.same, ho', ← h.owes]
    simp [succeededIds]
  ids := by
    rw [hr.same]
    exact List.forall_mem_cons.mpr ⟨hmem, h.ids⟩
  free := h.freeKept hkept (fun id' hne' => hr.barriers _ _ fun _ => hne') fun _ _ _ _ => hfree

/-- The barrier of a compensation is taken, and nothing was called. -/
theorem OnTheWayBack.claimed {bs' : List Branch} {id : String}
    (h : OnTheWayBack s₀ k w bs)
    (hret : w'.ReturnsSame s₀.gid w)
    (hbar : w'.barriers ⊆ insert (barrierOf s₀.gid "compensate" id) w.barriers)
    (hkept : BranchesKept bs bs') (ho' : owing bs' = owing bs)
    (hne : ∀ b ∈ bs', b.status.isOwed = true →
      (s₀.options.concurrent = true → b.compensate ≠ none) → b.id ≠ id) :
    OnTheWayBack s₀ k w' bs' := by
  refine ⟨h.givenUp.same (hret _), ?_, ?_, fun b hmem howed hcomp hm => ?_⟩
  · rw [hret, ho']
    exact h.owes
  · rw [hret]
    exact h.ids
  · obtain ⟨a, ha, hd, ho⟩ := exists_of_forall₂ hkept hmem
    have hid := hne b hmem howed hcomp
    refine h.free a ha (ho howed) (fun hconc => ?_) ?_
    · rw [← Branch.compensate_eq hd]
      exact hcomp hconc
    · rw [← Branch.id_eq hd]
      exact (Finset.mem_insert.mp (hbar hm)).resolve_left fun h => hid (barrierOf_inj.mp h).2

end Way

end RozeDtm
