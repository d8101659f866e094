import RozeDtm.InMemory.Ledger
import RozeDtm.InMemory.Stored
import RozeDtm.Properties.BarrierUse

/-!
# The calls of a store and the world that is seen

Another store holds a world without what only the record of a run has: of the events, those of
the branch calls.  `World.Stores` is what such a store sees of a write.
-/

namespace RozeDtm

open Conc

/-- The events of branch calls. -/
def Event.isBranchCall : Event → Bool
  | .began _ | .ended _ _ => true
  | _ => false

/-- World `w'` is `w` with record `tx` under `gid`, and perhaps an event that is not a call. -/
structure World.Stores (gid : String) (tx : Transaction) (w w' : World) : Prop where
  txs : w'.txs = w.txs.insert gid tx
  barriers : w'.barriers = w.barriers
  kv : w'.kv = w.kv
  leases : w'.leases = w.leases
  history : (w'.history.filter fun p => p.2.isBranchCall) =
    w.history.filter fun p => p.2.isBranchCall

/-- The world after a change in place that is made. -/
theorem stores_modify {gid : String} {f : Transaction → Except Err Transaction} {w : World}
    {tx tx' : Transaction} (htx : w.txs[gid]? = some tx) (hf : f tx = .ok tx') :
    ∃ w', InMemory.modify w gid f = (.ok tx', w') ∧ World.Stores gid tx' w w' :=
  ⟨_, modify_ok htx hf, rfl, rfl, rfl, rfl, rfl⟩

/-- The same where the change is recorded. -/
theorem stores_noteOk {i : Nat} {gid : String} {f : Transaction → Except Err Transaction}
    {w : World} {tx tx' : Transaction} {e : Event} (he : e.isBranchCall = false)
    (htx : w.txs[gid]? = some tx) (hf : f tx = .ok tx') :
    ∃ w', InMemory.noteOk i e (InMemory.modify w gid f) = (.ok tx', w') ∧
      World.Stores gid tx' w w' := by
  rw [modify_ok htx hf]
  refine ⟨_, rfl, rfl, rfl, rfl, rfl, ?_⟩
  rw [World.note_history, List.filter_cons_of_neg (by simp [he])]

/-- A new record. -/
theorem stores_insert {w : World} {tx : Transaction} (hnew : w.txs.contains tx.gid = false) :
    ∃ w', InMemory.insertTransaction w tx = (.ok (), w') ∧ World.Stores tx.gid tx w w' := by
  rw [InMemory.insertTransaction, hnew]
  exact ⟨_, if_neg Bool.false_ne_true, rfl, rfl, rfl, rfl, rfl⟩

theorem barrier_world (w : World) (b : BranchBarrier) :
    (InMemory.barrier w b).2 = { w with barriers := (InMemory.barrier w b).2.barriers } := by
  rcases barrier_cases w b with ⟨-, h⟩ | ⟨-, -, h⟩ | ⟨-, -, -, h⟩ | ⟨-, -, h⟩ <;> rw [h]

/-- A call that fails if the outside says so, with its change made or not. -/
def InMemory.faulty {α : Type} (fault : Option (Err × Bool)) (r : Except Err α × World)
    (w : World) : Except Err α × World :=
  match fault with
  | none => r
  | some (e, true) => (.error e, r.2)
  | some (e, false) => (.error e, w)

theorem faulty_world {α : Type} (fault : Option (Err × Bool)) (r : Except Err α × World)
    (w : World) :
    (InMemory.faulty fault r w).2 = w ∨ (InMemory.faulty fault r w).2 = r.2 := by
  rcases fault with _ | ⟨e, _ | _⟩
  · exact Or.inr rfl
  · exact Or.inl rfl
  · exact Or.inr rfl

/-! ### The record of the branch calls -/

/-- The record of the branch calls is what is left of the one above. -/
theorem issued_filter (h : List (Nat × Event)) (b : BranchBarrier) :
    issued (h.filter fun p => p.2.isBranchCall) b = issued h b := by
  rw [issued, issued, List.countP_filter]
  refine List.countP_congr fun p _ => ?_
  obtain ⟨i, _ | _ | _ | _ | _ | _⟩ := p <;> simp [Event.issues, Event.isBranchCall]

theorem returned_filter (h : List (Nat × Event)) (b : BranchBarrier) :
    returned (h.filter fun p => p.2.isBranchCall) b = returned h b := by
  rw [returned, returned, List.countP_filter]
  refine List.countP_congr fun p _ => ?_
  obtain ⟨i, _ | _ | _ | _ | _ | _⟩ := p <;> simp [Event.returns, Event.isBranchCall]

theorem Succeeded.of_filter {h : List (Nat × Event)} {b : BranchBarrier} {φ : Nat × Event → Bool}
    (hb : Succeeded (h.filter φ) b) : Succeeded h b := by
  obtain ⟨entry, hm, hc⟩ := hb
  exact ⟨entry, (List.mem_filter.mp hm).1, hc⟩

/-- **At most one success per branch operation**, as a store sees it that records the branch calls:
when a call is issued, no call under its barrier has returned success before, and at no time are
two calls under one barrier in flight. -/
theorem Sound.once_of_filter {h h' : List (Nat × Event)} (hs : Sound h)
    (hh : h' = h.filter fun p => p.2.isBranchCall) :
    (∀ h₁ h₂ i c, h' = h₁ ++ (i, .began c) :: h₂ → ¬ Succeeded h₂ c.barrier) ∧
      ∀ h₁ h₂ b, h' = h₁ ++ h₂ → issued h₂ b ≤ returned h₂ b + 1 := by
  refine ⟨fun h₁ h₂ i c heq hb => ?_, fun h₁ h₂ b heq => ?_⟩ <;> rw [hh] at heq
  · obtain ⟨l₁, l₂, hl, -, hrest⟩ := List.filter_eq_append_iff.mp heq
    obtain ⟨l₃, l₄, rfl, -, -, rfl⟩ := List.filter_eq_cons_iff.mp hrest
    rw [hl, ← List.append_assoc] at hs
    exact hs.tail.not_succeeded hb.of_filter
  · obtain ⟨l₁, l₂, hl, -, rfl⟩ := List.filter_eq_append_iff.mp heq
    rw [hl] at hs
    rw [issued_filter, returned_filter, hs.tail.issued_eq b]
    exact Nat.add_le_add_left (callsOf_le_one _) _

end RozeDtm
