import RozeDtm.Serial.Frame
import RozeDtm.Session.Phase2

/-!
# The calls of a sequential Saga

The calls of a Saga say how far it has come: which actions have returned success
(`doneIds "action"`), how often the next one has failed, and which compensations have returned
success.  On the way forward the Succeeded branches of the record are those with a successful
action (`Forward`); on the way back the branches that are still to be compensated and those
that were are together the ones that have to be (`Backward`).
-/

namespace RozeDtm

open Conc

/-! ### What the calls of a run say -/

/-- A call was issued, or has returned. -/
def Event.isCall : Event → Bool
  | .began _ | .ended _ _ => true
  | _ => false

/-- The branch that a successful call for `op` is recorded of. -/
def Event.done? (op : String) : Event → Option String
  | .ended c true => if c.op = op then some c.branchId else none
  | _ => none

/-- The event records that a call for `op` of the branch `id` has failed. -/
def Event.fails (op id : String) : Event → Bool
  | .ended c false => c.op = op && c.branchId = id
  | _ => false

/-- The event records that a call for `op` was issued. -/
def Event.begins (op : String) : Event → Bool
  | .began c => c.op = op
  | _ => false

/-- The calls of the transaction `g`, latest first. -/
def callEvents (g : String) (h : List (Nat × Event)) : List (Nat × Event) :=
  (eventsOf g h).filter fun entry => entry.2.isCall

/-- The branches whose calls for `op` have returned success, latest first. -/
def doneIds (op : String) (h : List (Nat × Event)) : List String :=
  h.filterMap fun entry => entry.2.done? op

/-- How many calls for `op` of the branch `id` have failed. -/
def failedCalls (op id : String) (h : List (Nat × Event)) : Nat :=
  h.countP fun entry => entry.2.fails op id

/-- A call for `op` was issued. -/
def Begun (op : String) (h : List (Nat × Event)) : Prop := ∃ entry ∈ h, entry.2.begins op = true

/-- No action was called after a compensation. -/
def ActionsFirst (h : List (Nat × Event)) : Prop :=
  ∀ later entry earlier, h = later ++ entry :: earlier → entry.2.begins "action" = true →
    ¬ Begun "compensate" earlier

/-- The branch after those whose actions have succeeded has failed as often as `start_saga`
calls an action. -/
def UsedUp (s₀ : Transaction) (h : List (Nat × Event)) : Prop :=
  ∃ id ∈ (s₀.branches.map Branch.id)[(doneIds "action" h).length]?,
    sagaMaxAttempts s₀.options ≤ failedCalls "action" id h

instance (s₀ : Transaction) (h : List (Nat × Event)) : Decidable (UsedUp s₀ h) :=
  inferInstanceAs (Decidable (∃ id ∈ (s₀.branches.map Branch.id)[(doneIds "action" h).length]?, _))

/-- The branches that have to be compensated: those whose actions have succeeded, and the one
that has used up its attempts. -/
def compensated (s₀ : Transaction) (h : List (Nat × Event)) : List String :=
  (s₀.branches.map Branch.id).take
    ((doneIds "action" h).length + if UsedUp s₀ h then 1 else 0)

/-- The calls of the Saga that was submitted as `s₀` are in order. -/
structure SagaOrder (s₀ : Transaction) (h : List (Nat × Event)) : Prop where
  acted : (doneIds "action" h).reverse <+: s₀.branches.map Branch.id
  actionsFirst : ActionsFirst h
  undone : (doneIds "compensate" h).Sublist (s₀.branches.map Branch.id)

section Calls

variable {g op id : String} {h : List (Nat × Event)} {i : Nat} {c : BranchCall} {s₀ : Transaction}

theorem callEvents_cons {entry : Nat × Event} (hg : entry.2.gid = g)
    (hc : entry.2.isCall = true) : callEvents g (entry :: h) = entry :: callEvents g h := by
  simp [callEvents, eventsOf, hg, hc]

theorem callEvents_cons_of_not_isCall {entry : Nat × Event} (hc : entry.2.isCall = false) :
    callEvents g (entry :: h) = callEvents g h := by
  simp only [callEvents, eventsOf, List.filter_filter]
  exact List.filter_cons_of_neg (by simp [hc])

@[simp] theorem callEvents_decided {b : BranchBarrier} {d : BarrierDecision} :
    callEvents g ((i, .decided b d) :: h) = callEvents g h := callEvents_cons_of_not_isCall rfl

@[simp] theorem callEvents_released {b : BranchBarrier} :
    callEvents g ((i, .released b) :: h) = callEvents g h := callEvents_cons_of_not_isCall rfl

theorem callEvents_began (hg : c.gid = g) :
    callEvents g ((i, .began c) :: h) = (i, .began c) :: callEvents g h := callEvents_cons hg rfl

theorem callEvents_ended {ok : Bool} (hg : c.gid = g) :
    callEvents g ((i, .ended c ok) :: h) = (i, .ended c ok) :: callEvents g h := callEvents_cons hg rfl

theorem callEvents_called {w : World} {ok : Bool} (hg : c.gid = g) :
    callEvents g (w.called i c ok).history =
      (i, .ended c ok) :: (i, .began c) :: callEvents g w.history := by
  rw [called_history, callEvents_ended hg, callEvents_began hg]

/-- A call under a free barrier has returned. -/
theorem callEvents_claimed_called (w : World) (i now now' : Nat) (b : BranchBarrier)
    {c : BranchCall} (ok : Bool) (hg : c.gid = g) :
    callEvents g ((((w.setClock now).claimed i b).called i c ok).setClock now').history =
      (i, .ended c ok) :: (i, .began c) :: callEvents g w.history := by
  rw [setClock_history, callEvents_called hg, claimed_history, callEvents_decided, setClock_history]

@[simp] theorem doneIds_began : doneIds op ((i, .began c) :: h) = doneIds op h := rfl

@[simp] theorem doneIds_failed : doneIds op ((i, .ended c false) :: h) = doneIds op h := rfl

theorem doneIds_succeeded (hop : c.op = op) :
    doneIds op ((i, .ended c true) :: h) = c.branchId :: doneIds op h := by
  simp [doneIds, Event.done?, hop]

theorem doneIds_succeeded_of_ne (hop : c.op ≠ op) :
    doneIds op ((i, .ended c true) :: h) = doneIds op h := by
  simp [doneIds, Event.done?, hop]

@[simp] theorem failedCalls_began : failedCalls op id ((i, .began c) :: h) = failedCalls op id h :=
  List.countP_cons_of_neg (by simp [Event.fails])

@[simp] theorem failedCalls_succeeded :
    failedCalls op id ((i, .ended c true) :: h) = failedCalls op id h :=
  List.countP_cons_of_neg (by simp [Event.fails])

theorem failedCalls_failed (hop : c.op = op) (hid : c.branchId = id) :
    failedCalls op id ((i, .ended c false) :: h) = failedCalls op id h + 1 :=
  List.countP_cons_of_pos (by simp [Event.fails, hop, hid])

theorem failedCalls_failed_of_ne (hne : c.op = op → c.branchId ≠ id) :
    failedCalls op id ((i, .ended c false) :: h) = failedCalls op id h :=
  List.countP_cons_of_neg (by simpa [Event.fails] using hne)

@[simp] theorem begun_began : Begun op ((i, .began c) :: h) ↔ c.op = op ∨ Begun op h := by
  simp [Begun, Event.begins]

@[simp] theorem begun_ended {ok : Bool} : Begun op ((i, .ended c ok) :: h) ↔ Begun op h := by
  simp [Begun, Event.begins]

theorem ActionsFirst.cons {entry : Nat × Event} (ha : ActionsFirst h)
    (hentry : entry.2.begins "action" = true → ¬ Begun "compensate" h) :
    ActionsFirst (entry :: h) := by
  intro later entry' earlier hsplit hbegins
  cases later with
  | nil =>
    cases hsplit
    exact hentry hbegins
  | cons first later =>
    cases hsplit
    exact ha later entry' earlier rfl hbegins

/-- What has to be compensated is decided by the calls of the actions. -/
theorem compensated_congr {h' : List (Nat × Event)} (hd : doneIds "action" h' = doneIds "action" h)
    (hf : ∀ id, failedCalls "action" id h' = failedCalls "action" id h) :
    compensated s₀ h' = compensated s₀ h := by
  have hused : UsedUp s₀ h' ↔ UsedUp s₀ h := by simp only [UsedUp, hd, hf]
  simp only [compensated, hd, hused]

/-- The calls of a compensation. -/
theorem compensated_compensate {ok : Bool} (hop : c.op = "compensate") :
    compensated s₀ ((i, .ended c ok) :: (i, .began c) :: h) = compensated s₀ h := by
  have hne : c.op ≠ "action" := by
    rw [hop]
    decide
  cases ok with
  | true =>
    exact compensated_congr (by rw [doneIds_succeeded_of_ne hne, doneIds_began]) fun id => by simp
  | false =>
    refine compensated_congr rfl fun id => ?_
    rw [failedCalls_failed_of_ne fun h => absurd h hne, failedCalls_began]

end Calls

/-! ### The way forward and the way back -/

/-- A branch whose action has not succeeded, with attempts left. -/
structure Untaken (s₀ : Transaction) (h : List (Nat × Event)) (b : Branch) : Prop where
  status : b.status = .pending ∨ b.status = .failed
  failed : failedCalls "action" b.id h = b.attempts
  left : b.attempts < sagaMaxAttempts s₀.options

/-- No compensation was called; the actions of `acted` have succeeded, those of `rest` not. -/
structure Forward (s₀ : Transaction) (h : List (Nat × Event)) (acted rest : List Branch) :
    Prop where
  done : doneIds "action" h = (acted.map Branch.id).reverse
  notBegun : ¬ Begun "compensate" h
  notUndone : doneIds "compensate" h = []
  succeeded : ∀ b ∈ acted, b.status = .succeeded
  untaken : ∀ b ∈ rest, Untaken s₀ h b

/-- The branches that an abort is still to compensate. -/
def toUndo (bs : List Branch) : List String :=
  (bs.filter fun b => b.status.isOwed).map Branch.id

/-- Before those that were compensated come those that are still to be. -/
def Backward (s₀ : Transaction) (h : List (Nat × Event)) (left : List String) : Prop :=
  left ++ doneIds "compensate" h = compensated s₀ h

/-- How far a Saga is, by its status. -/
inductive SagaPhase (s₀ : Transaction) (h : List (Nat × Event)) (st : TransactionStatus)
    (bs : List Branch) : Prop
  | forward (acted rest : List Branch) (hst : st = .submitted ∨ st = .succeeding)
      (hbs : bs = acted ++ rest) (hf : Forward s₀ h acted rest)
  | succeeded (hst : st = .succeeded)
  | backward (hst : st = .aborting) (hb : Backward s₀ h (toUndo bs))
  | aborted (hst : st = .aborted) (hb : Backward s₀ h [])

section Phases

variable {s₀ : Transaction} {h : List (Nat × Event)} {i : Nat} {c : BranchCall}
  {acted rest bs : List Branch} {b b' : Branch} {left : List String}

theorem SameBranches.ids {as : List Branch} (hs : SameBranches as bs) :
    bs.map Branch.id = as.map Branch.id := by
  refine map_eq_of_forall₂ ?_ hs
  exact fun _ _ hd => Branch.id_eq hd

theorem SameBranches.compensate {as : List Branch} (hs : SameBranches as bs)
    (hc : ∀ a ∈ as, a.compensate ≠ none) : ∀ b ∈ bs, b.compensate ≠ none := by
  intro b hb
  obtain ⟨a, ha, hd⟩ := exists_of_forall₂ hs hb
  rw [Branch.compensate_eq hd]
  exact hc a ha

theorem SameBranches.trans {as cs : List Branch} (h : SameBranches as bs)
    (h' : SameBranches bs cs) : SameBranches as cs :=
  forall₂_trans (fun _ _ _ hab hbc => hbc.trans hab) h h'

/-- One branch is exchanged for itself with another status. -/
theorem SameBranches.exchange {as before after : List Branch}
    (h : SameBranches as (before ++ b :: after)) (hd : b'.definition = b.definition) :
    SameBranches as (before ++ b' :: after) :=
  h.trans (forall₂_middle (SameBranches.refl before) hd (SameBranches.refl after))

@[simp] theorem toUndo_nil : toUndo [] = [] := rfl

theorem toUndo_append (as bs : List Branch) : toUndo (as ++ bs) = toUndo as ++ toUndo bs := by
  rw [toUndo, List.filter_append, List.map_append, toUndo, toUndo]

theorem toUndo_cons_of_owed (hb : b.status.isOwed = true) :
    toUndo (b :: bs) = b.id :: toUndo bs := by
  simp [toUndo, hb]

theorem toUndo_cons_of_not_owed (hb : b.status.isOwed = false) : toUndo (b :: bs) = toUndo bs := by
  simp [toUndo, hb]

theorem one_le_sagaMaxAttempts (options : TransactionOptions) : 1 ≤ sagaMaxAttempts options := by
  rw [sagaMaxAttempts]
  cases options.retryLimit with
  | none => exact Nat.le_refl 1
  | some retries =>
    have h : 1 ≤ min (retries + 1) u32Max := Nat.le_min.mpr ⟨Nat.le_add_left .., by decide⟩
    exact h

theorem sagaMaxAttempts_le (options : TransactionOptions) :
    sagaMaxAttempts options ≤ u32Max := by
  rw [sagaMaxAttempts]
  cases options.retryLimit with
  | none => decide
  | some retries => exact Nat.min_le_right ..

/-- An action that may be called is counted. -/
theorem satAdd32_attempts (hb : b.attempts < sagaMaxAttempts s₀.options) :
    satAdd32 b.attempts 1 = b.attempts + 1 :=
  Nat.min_eq_left (Nat.lt_of_lt_of_le hb (sagaMaxAttempts_le _))

theorem Untaken.isOwed (hb : Untaken s₀ h b) : b.status.isOwed = false := by
  rcases hb.status with hst | hst <;> rw [hst] <;> rfl

/-- The actions that have succeeded are those of a first part of the branches. -/
theorem Forward.acted_prefix (hf : Forward s₀ h acted rest)
    (hs : SameBranches s₀.branches (acted ++ rest)) :
    (doneIds "action" h).reverse <+: s₀.branches.map Branch.id := by
  rw [hf.done, List.reverse_reverse, ← hs.ids, List.map_append]
  exact List.prefix_append ..

theorem Forward.order (hf : Forward s₀ h acted rest)
    (hs : SameBranches s₀.branches (acted ++ rest)) (ha : ActionsFirst h) : SagaOrder s₀ h :=
  ⟨hf.acted_prefix hs, ha, by rw [hf.notUndone]; exact List.nil_sublist _⟩

theorem toUndo_of_succeeded (hb : ∀ b ∈ bs, b.status = .succeeded) :
    toUndo bs = bs.map Branch.id := by
  rw [toUndo, List.filter_eq_self.mpr fun b h => by rw [hb b h]; rfl]

theorem toUndo_of_untaken (hb : ∀ b ∈ bs, Untaken s₀ h b) : toUndo bs = [] := by
  rw [toUndo, List.filter_eq_nil_iff.mpr fun b h => by simp [(hb b h).isOwed], List.map_nil]

/-- A write that changes no status from one that is owed to one that is not, or back. -/
theorem toUndo_map {f : Branch → Branch} (hid : ∀ b, (f b).id = b.id)
    (hst : ∀ b, (f b).status.isOwed = b.status.isOwed) (bs : List Branch) :
    toUndo (bs.map f) = toUndo bs := by
  simp [toUndo, List.filter_map, Function.comp_def, hid, hst]

theorem SameBranches.map {as : List Branch} {f : Branch → Branch} (h : SameBranches as bs)
    (hf : ∀ b, (f b).definition = b.definition) : SameBranches as (bs.map f) :=
  h.trans (List.forall₂_map_right_iff.mpr (List.forall₂_same.mpr fun b _ => hf b))

/-- What `start_saga` makes of the Succeeded branches when it turns back. -/
theorem toUndo_turned (bs : List Branch) :
    toUndo (bs.map fun b => if b.status = .succeeded then { b with status := .compensating } else b) =
      toUndo bs := by
  refine toUndo_map (fun b => ?_) (fun b => ?_) bs
  · split <;> rfl
  · split
    · rename_i hst
      rw [hst]
      rfl
    · rfl

/-- The id after those of the actions that have succeeded. -/
theorem Forward.next (hf : Forward s₀ h acted rest)
    (hs : SameBranches s₀.branches (acted ++ rest)) :
    (s₀.branches.map Branch.id)[(doneIds "action" h).length]? = (rest.map Branch.id).head? := by
  rw [← hs.ids, hf.done, List.length_reverse, List.map_append,
    List.getElem?_append_right (Nat.le_refl _), Nat.sub_self, List.head?_eq_getElem?]

/-- On the way forward no branch has used up its attempts. -/
theorem Forward.not_usedUp (hf : Forward s₀ h acted rest)
    (hs : SameBranches s₀.branches (acted ++ rest)) : ¬ UsedUp s₀ h := by
  rintro ⟨id, hid, hmax⟩
  rw [hf.next hs] at hid
  obtain ⟨b, hb, rfl⟩ := List.mem_map.mp (List.mem_of_mem_head? hid)
  have hbu := hf.untaken b hb
  rw [hbu.failed] at hmax
  exact absurd hbu.left (Nat.not_lt.mpr hmax)

/-- **Turning back**: what has to be compensated is what has succeeded. -/
theorem Forward.backward (hf : Forward s₀ h acted rest)
    (hs : SameBranches s₀.branches (acted ++ rest)) : Backward s₀ h (toUndo (acted ++ rest)) := by
  rw [Backward, toUndo_append, toUndo_of_succeeded hf.succeeded, toUndo_of_untaken hf.untaken,
    List.append_nil, hf.notUndone, List.append_nil, compensated, if_neg (hf.not_usedUp hs), hf.done,
    ← hs.ids, List.map_append]
  simp

/-- The next action has succeeded. -/
theorem Forward.act (hf : Forward s₀ h acted (b :: rest)) (hop : c.op = "action")
    (hid : c.branchId = b'.id) (hst : b'.status = .succeeded) :
    Forward s₀ ((i, .ended c true) :: (i, .began c) :: h) (acted ++ [b']) rest where
  done := by
    rw [doneIds_succeeded hop, doneIds_began, hf.done, hid]
    simp
  notBegun := by
    simpa [hop] using hf.notBegun
  notUndone := by
    rw [doneIds_succeeded_of_ne (by rw [hop]; decide), doneIds_began, hf.notUndone]
  succeeded := by
    simpa [or_imp, forall_and, hst] using hf.succeeded
  untaken := fun a ha => by
    obtain ⟨hst, hfailed, hleft⟩ := hf.untaken a (.tail _ ha)
    exact ⟨hst, by simpa using hfailed, hleft⟩

/-- The next action has failed, and its branch is written as `b'`. -/
structure Missed (s₀ : Transaction) (h : List (Nat × Event)) (acted : List Branch) (b' : Branch)
    (rest : List Branch) : Prop where
  done : doneIds "action" h = (acted.map Branch.id).reverse
  notBegun : ¬ Begun "compensate" h
  notUndone : doneIds "compensate" h = []
  succeeded : ∀ b ∈ acted, b.status = .succeeded
  failed : failedCalls "action" b'.id h = b'.attempts
  untaken : ∀ b ∈ rest, Untaken s₀ h b

theorem Forward.missed (b' : Branch) (hf : Forward s₀ h acted (b :: rest))
    (hn : ((acted ++ b :: rest).map Branch.id).Nodup) (hop : c.op = "action")
    (hc : c.branchId = b.id) (hid : b'.id = b.id) (hatt : b'.attempts = satAdd32 b.attempts 1) :
    Missed s₀ ((i, .ended c false) :: (i, .began c) :: h) acted b' rest where
  done := hf.done
  notBegun := by simpa [hop] using hf.notBegun
  notUndone := hf.notUndone
  succeeded := hf.succeeded
  failed := by
    have hb := hf.untaken b (.head _)
    rw [hid, failedCalls_failed hop hc, failedCalls_began, hb.failed, hatt,
      satAdd32_attempts hb.left]
  untaken := fun a ha => by
    obtain ⟨hst, hfailed, hleft⟩ := hf.untaken a (.tail _ ha)
    rw [List.map_append, List.map_cons, List.nodup_append, List.nodup_cons] at hn
    have hne : c.branchId ≠ a.id := by
      rw [hc]
      exact fun h => hn.2.1.1 (h ▸ List.mem_map_of_mem ha)
    exact ⟨hst, by rw [failedCalls_failed_of_ne fun _ => hne, failedCalls_began, hfailed], hleft⟩

/-- There are attempts left. -/
theorem Missed.retried (hm : Missed s₀ h acted b' rest) (hst : b'.status = .failed)
    (hatt : b'.attempts < sagaMaxAttempts s₀.options) : Forward s₀ h acted (b' :: rest) where
  done := hm.done
  notBegun := hm.notBegun
  notUndone := hm.notUndone
  succeeded := hm.succeeded
  untaken := fun a ha => by
    rcases List.mem_cons.mp ha with rfl | ha
    · exact ⟨Or.inr hst, hm.failed, hatt⟩
    · exact hm.untaken a ha

/-- **Giving up**: the branch that has used up its attempts is compensated as well. -/
theorem Missed.givenUp (hm : Missed s₀ h acted b' rest) (hst : b'.status = .compensating)
    (hatt : sagaMaxAttempts s₀.options ≤ b'.attempts)
    (hs : SameBranches s₀.branches (acted ++ b' :: rest)) :
    Backward s₀ h (toUndo (acted ++ b' :: rest)) := by
  have hids : s₀.branches.map Branch.id = acted.map Branch.id ++ b'.id :: rest.map Branch.id := by
    rw [← hs.ids, List.map_append, List.map_cons]
  have hused : UsedUp s₀ h := by
    refine ⟨b'.id, ?_, hm.failed ▸ hatt⟩
    rw [hids, hm.done]
    simp
  rw [Backward, toUndo_append, toUndo_of_succeeded hm.succeeded,
    toUndo_cons_of_owed (by rw [hst]; rfl), toUndo_of_untaken hm.untaken, hm.notUndone,
    compensated, if_pos hused, hids, hm.done]
  simp [List.take_append]

theorem Backward.undone (hb : Backward s₀ h left) :
    (doneIds "compensate" h).Sublist (s₀.branches.map Branch.id) := by
  have hsub : (doneIds "compensate" h).Sublist (compensated s₀ h) := by
    rw [← hb]
    exact List.sublist_append_right ..
  exact hsub.trans (List.take_sublist ..)

theorem Backward.map (hb : Backward s₀ h (toUndo bs)) {f : Branch → Branch}
    (hid : ∀ b, (f b).id = b.id) (hst : ∀ b, (f b).status.isOwed = b.status.isOwed) :
    Backward s₀ h (toUndo (bs.map f)) := by
  rw [toUndo_map hid hst]
  exact hb

/-- The last of the compensations that are left has succeeded. -/
theorem Backward.undo (hb : Backward s₀ h (left ++ [c.branchId])) (hop : c.op = "compensate") :
    Backward s₀ ((i, .ended c true) :: (i, .began c) :: h) left := by
  rw [Backward, compensated_compensate hop, doneIds_succeeded hop, doneIds_began, ← hb]
  simp

theorem Backward.failed (hb : Backward s₀ h left) (hop : c.op = "compensate") :
    Backward s₀ ((i, .ended c false) :: (i, .began c) :: h) left := by
  rw [Backward, compensated_compensate hop]
  exact hb

theorem SagaOrder.began (ho : SagaOrder s₀ h) (hc : c.op = "action" → ¬ Begun "compensate" h) :
    SagaOrder s₀ ((i, .began c) :: h) :=
  ⟨ho.acted, ho.actionsFirst.cons fun hb => hc (of_decide_eq_true hb), ho.undone⟩

theorem ActionsFirst.ended {ok : Bool} (ha : ActionsFirst h) :
    ActionsFirst ((i, .ended c ok) :: h) := ha.cons fun hb => (nomatch hb)

theorem SagaOrder.failed (ho : SagaOrder s₀ h) : SagaOrder s₀ ((i, .ended c false) :: h) :=
  ⟨ho.acted, ho.actionsFirst.ended, ho.undone⟩

/-- A compensation has succeeded. -/
theorem SagaOrder.undo (ho : SagaOrder s₀ h) (hop : c.op = "compensate")
    (hb : Backward s₀ ((i, .ended c true) :: (i, .began c) :: h) left) :
    SagaOrder s₀ ((i, .ended c true) :: (i, .began c) :: h) := by
  have hne : c.op ≠ "action" := by
    rw [hop]
    decide
  have hbegan : SagaOrder s₀ ((i, .began c) :: h) := ho.began fun h => absurd h hne
  refine ⟨?_, hbegan.actionsFirst.ended, hb.undone⟩
  rw [doneIds_succeeded_of_ne hne]
  exact hbegan.acted

end Phases

end RozeDtm
