import RozeDtm.Model.Service.Control

/-!
# One operation under two gids

Rules for an operation that runs alone in two stores, in which the same record lies under two
gids: `Held gid gid' tx w w'`.  Each step of the one has its twin in the other, with the same
answer up to the gid, and leaves a record held by both.
-/

namespace RozeDtm

open Conc

/-- The same record under another gid. -/
def Transaction.named (tx : Transaction) (gid : String) : Transaction := { tx with gid := gid }

section Fields

variable (tx : Transaction) (gid : String)

@[simp] theorem named_gid : (tx.named gid).gid = gid := rfl
@[simp] theorem named_kind : (tx.named gid).kind = tx.kind := rfl
@[simp] theorem named_status : (tx.named gid).status = tx.status := rfl
@[simp] theorem named_branches : (tx.named gid).branches = tx.branches := rfl
@[simp] theorem named_options : (tx.named gid).options = tx.options := rfl
@[simp] theorem named_metadata : (tx.named gid).metadata = tx.metadata := rfl
@[simp] theorem named_isCallbackWorkflow :
    isCallbackWorkflow (tx.named gid) = isCallbackWorkflow tx := rfl

end Fields

variable {gid gid' : String}

/-- Two stores hold one record, each under its gid, and the barriers of the two gids agree. -/
structure Held (gid gid' : String) (tx : Transaction) (w w' : World) : Prop where
  left : w.txs[gid]? = some (tx.named gid)
  right : w'.txs[gid']? = some (tx.named gid')
  barriers : ∀ id op, (⟨gid, id, op⟩ : BranchBarrier) ∈ w.barriers ↔
    (⟨gid', id, op⟩ : BranchBarrier) ∈ w'.barriers

/-- Two stores hold some record in common. -/
def Alive (gid gid' : String) (w w' : World) : Prop := ∃ tx, Held gid gid' tx w w'

/-- `Single.Both` for two stores under one operation. -/
abbrev Twin (fails : (String → Err) → Prop) (gid gid' : String) {α β : Type} (x : Act α)
    (x' : Act β) (Q : α → β → World → World → Prop) (E : Err → Err → Prop) (w w' : World) : Prop :=
  (controlStore gid).Both (controlStore gid') fails x x' Q E w w'

variable {fails : (String → Err) → Prop} {tx : Transaction} {w w' : World} {α β γ δ : Type}
  {E : Err → Err → Prop}

theorem Held.alive (h : Held gid gid' tx w w') : Alive gid gid' w w' := ⟨tx, h⟩

/-- A step that touches neither a record nor a barrier. -/
theorem Held.of_eq {u u' : World} (h : Held gid gid' tx w w') (htxs : u.txs = w.txs)
    (htxs' : u'.txs = w'.txs) (hb : u.barriers = w.barriers) (hb' : u'.barriers = w'.barriers) :
    Held gid gid' tx u u' := by
  refine ⟨htxs ▸ h.left, htxs' ▸ h.right, fun id op => ?_⟩
  rw [hb, hb']
  exact h.barriers id op

/-! ### Writes -/

theorem Held.put (h : Held gid gid' tx w w') (r : Transaction) (now now' : Nat) :
    Held gid gid' r (({ w with clock := now } : World).put (r.named gid))
      (({ w' with clock := now' } : World).put (r.named gid')) where
  left := Std.ExtTreeMap.getElem?_insert_self
  right := Std.ExtTreeMap.getElem?_insert_self
  barriers := h.barriers

theorem Held.insertBarrier (h : Held gid gid' tx w w') (id op : String) {u u' : World}
    (htxs : u.txs = w.txs) (htxs' : u'.txs = w'.txs)
    (hb : u.barriers = insert ⟨gid, id, op⟩ w.barriers)
    (hb' : u'.barriers = insert ⟨gid', id, op⟩ w'.barriers) : Held gid gid' tx u u' := by
  refine ⟨htxs ▸ h.left, htxs' ▸ h.right, fun id' op' => ?_⟩
  rw [hb, hb']
  simp [h.barriers]

theorem Held.releaseBarrier (h : Held gid gid' tx w w') (id op : String) (now now' : Nat) :
    Held gid gid' tx (InMemory.releaseBarrier { w with clock := now } ⟨gid, id, op⟩)
      (InMemory.releaseBarrier { w' with clock := now' } ⟨gid', id, op⟩) := by
  refine ⟨h.left, h.right, fun id' op' => ?_⟩
  simp [InMemory.releaseBarrier, h.barriers]

/-- **A barrier is decided alike.** -/
theorem Held.barrier (h : Held gid gid' tx w w') (id op : String) :
    (InMemory.barrier w ⟨gid, id, op⟩).1 = (InMemory.barrier w' ⟨gid', id, op⟩).1 ∧
      Held gid gid' tx (InMemory.barrier w ⟨gid, id, op⟩).2
        (InMemory.barrier w' ⟨gid', id, op⟩).2 := by
  have hown := h.barriers id op
  have hcancel := h.barriers id "cancel"
  have htry := h.barriers id "try"
  unfold InMemory.barrier
  simp only [hown, hcancel, htry]
  split_ifs
  · exact ⟨rfl, h⟩
  · exact ⟨rfl, h⟩
  · exact ⟨rfl, h.insertBarrier id "cancel" rfl rfl rfl rfl⟩
  · exact ⟨rfl, h.insertBarrier id op rfl rfl rfl rfl⟩

/-! ### Programs -/

theorem Twin.bind {x : Act α} {x' : Act β} {f : α → Act γ} {f' : β → Act δ}
    {Q : γ → δ → World → World → Prop}
    (h : Twin fails gid gid' x x' (fun a a' u u' => Twin fails gid gid' (f a) (f' a') Q E u u') E
      w w') : Twin fails gid gid' (x >>= f) (x' >>= f') Q E w w' := Single.Both.bind h

theorem twin_ite {c c' : Prop} [Decidable c] [Decidable c'] {x y : Act α} {x' y' : Act β}
    {Q : α → β → World → World → Prop} (hc : c ↔ c')
    (hthen : c → Twin fails gid gid' x x' Q E w w')
    (helse : ¬ c → Twin fails gid gid' y y' Q E w w') :
    Twin fails gid gid' (if c then x else y) (if c' then x' else y') Q E w w' := by
  by_cases h : c
  · rw [if_pos h, if_pos (hc.mp h)]
    exact hthen h
  · rw [if_neg h, if_neg (mt hc.mpr h)]
    exact helse h

theorem twin_ok {a : α} {b : β} {f : α → Act γ} {f' : β → Act δ}
    {Q : γ → δ → World → World → Prop} (h : Twin fails gid gid' (f a) (f' b) Q E w w') :
    Twin fails gid gid' (Act.ofExcept (.ok a) >>= f) (Act.ofExcept (.ok b) >>= f') Q E w w' :=
  h

/-- A check that is made alike. -/
theorem twin_ensure {c c' : Bool} {e e' : Err} {f f' : Unit → Act γ}
    {Q : γ → γ → World → World → Prop} (hc : c = c') (hfail : c = false → E e e')
    (h : c = true → Twin fails gid gid' (f ()) (f' ()) Q E w w') :
    Twin fails gid gid' (Act.ofExcept (ensure c e) >>= f) (Act.ofExcept (ensure c' e') >>= f') Q E
      w w' := by
  subst hc
  cases c with
  | false => exact hfail rfl
  | true => exact h rfl

/-- A check with the same result and errors that are alike. -/
theorem twin_check {r r' : Except Err Unit} {f f' : Unit → Act γ}
    {Q : γ → γ → World → World → Prop} (hr : r = r') (hfail : ∀ e, r = .error e → E e e)
    (h : r = .ok () → Twin fails gid gid' (f ()) (f' ()) Q E w w') :
    Twin fails gid gid' (Act.ofExcept r >>= f) (Act.ofExcept r' >>= f') Q E w w' := by
  subst hr
  cases r with
  | error e => exact hfail e rfl
  | ok u => exact h rfl

/-! ### Steps -/

theorem twin_getTransaction {Q : Option Transaction → Option Transaction → World → World → Prop}
    (h : Held gid gid' tx w w')
    (hQ : ∀ u u', Held gid gid' tx u u' → Q (some (tx.named gid)) (some (tx.named gid')) u u') :
    Twin fails gid gid' (Store.getTransaction gid) (Store.getTransaction gid') Q E w w' := by
  refine Single.both_perform (fun c => ?_) fun f => Or.inr ⟨rfl, rfl⟩
  show Q w.txs[gid]? w'.txs[gid']? _ _
  rw [h.left, h.right]
  exact hQ _ _ (h.of_eq rfl rfl rfl rfl)

/-- The record is there. -/
theorem twin_load {Q : Transaction → Transaction → World → World → Prop}
    (h : Held gid gid' tx w w')
    (hQ : ∀ u u', Held gid gid' tx u u' → Q (tx.named gid) (tx.named gid') u u') :
    Twin fails gid gid' (loadTransaction gid) (loadTransaction gid') Q E w w' :=
  Twin.bind (twin_getTransaction h hQ)

/-- The record is not there. -/
theorem twin_absent {Q : Transaction → Transaction → World → World → Prop}
    (hleft : w.txs[gid]? = none) (hright : w'.txs[gid']? = none)
    (hE : E ("transaction not found: " ++ gid) ("transaction not found: " ++ gid')) :
    Twin fails gid gid' (loadTransaction gid) (loadTransaction gid') Q E w w' := by
  refine Twin.bind (Single.both_perform (fun c => ?_) fun f => Or.inr ⟨rfl, rfl⟩)
  show Twin _ _ _ (Act.ofOption w.txs[gid]? _) (Act.ofOption w'.txs[gid']? _) Q E _ _
  rw [hleft, hright]
  exact hE

theorem twin_currentMillis {Q : Nat → Nat → World → World → Prop} (h : Held gid gid' tx w w')
    (hQ : ∀ now u u', Held gid gid' tx u u' → Q now now u u') :
    Twin fails gid gid' currentMillis currentMillis Q E w w' :=
  Single.both_perform (fun c => hQ c.now _ _ (h.of_eq rfl rfl rfl rfl)) fun _ => Or.inl ⟨rfl, rfl⟩

theorem twin_invokeBegin {call call' : BranchCall} {Q : Unit → Unit → World → World → Prop}
    (h : Held gid gid' tx w w') (hQ : ∀ u u', Held gid gid' tx u u' → Q () () u u') :
    Twin fails gid gid' (invokeBegin call) (invokeBegin call') Q E w w' :=
  Single.both_perform (fun _ => hQ _ _ (h.of_eq rfl rfl rfl rfl)) fun _ => Or.inl ⟨rfl, rfl⟩

theorem twin_invokeEnd {call call' : BranchCall} {Q : Bool → Bool → World → World → Prop}
    (h : Held gid gid' tx w w') (hQ : ∀ ok u u', Held gid gid' tx u u' → Q ok ok u u') :
    Twin fails gid gid' (invokeEnd call) (invokeEnd call') Q E w w' :=
  Single.both_perform (fun c => hQ c.outcome.ok _ _ (h.of_eq rfl rfl rfl rfl))
    fun _ => Or.inl ⟨rfl, rfl⟩

theorem twin_queryWorkflowCallback {request request' : WorkflowCallbackRequest}
    {options options' : TransactionOptions}
    {Q : Except Err WorkflowCallbackResult → Except Err WorkflowCallbackResult → World → World →
      Prop}
    (h : Held gid gid' tx w w') (hQ : ∀ result u u', Held gid gid' tx u u' → Q result result u u') :
    Twin fails gid gid' (queryWorkflowCallback request options)
      (queryWorkflowCallback request' options') Q E w w' :=
  Single.both_perform (fun c => hQ c.outcome.callback _ _ (h.of_eq rfl rfl rfl rfl))
    fun _ => Or.inl ⟨rfl, rfl⟩

theorem twin_joinNext {n n' : Nat} {Q : Fin (n + 1) → Fin (n' + 1) → World → World → Prop}
    (h : Held gid gid' tx w w') (hn : n' = n)
    (hQ : ∀ k k' u u', k'.val = k.val → Held gid gid' tx u u' → Q k k' u u') :
    Twin fails gid gid' (joinNext n) (joinNext n') Q E w w' := by
  subst hn
  exact Single.both_perform (fun c => hQ _ _ _ _ rfl (h.of_eq rfl rfl rfl rfl))
    fun _ => Or.inl ⟨rfl, rfl⟩

theorem twin_barrier {id op : String}
    {Q : BarrierDecision → BarrierDecision → World → World → Prop} (h : Held gid gid' tx w w')
    (hQ : ∀ decision u u', Held gid gid' tx u u' → Q decision decision u u') :
    Twin fails gid gid' (Store.barrier ⟨gid, id, op⟩) (Store.barrier ⟨gid', id, op⟩) Q E w w' := by
  refine Single.both_perform (fun c => ?_) fun _ => Or.inr ⟨rfl, rfl⟩
  have hclock : Held gid gid' tx { w with clock := c.now } { w' with clock := c.now } :=
    h.of_eq rfl rfl rfl rfl
  obtain ⟨hdecision, hheld⟩ := hclock.barrier id op
  show Q (InMemory.barrier _ _).1 (InMemory.barrier _ _).1 _ _
  rw [← hdecision]
  exact hQ _ _ _ (hheld.of_eq rfl rfl rfl rfl)

theorem twin_releaseBarrier {id op : String} {Q : Unit → Unit → World → World → Prop}
    (h : Held gid gid' tx w w') (hQ : ∀ u u', Held gid gid' tx u u' → Q () () u u') :
    Twin fails gid gid' (Store.releaseBarrier ⟨gid, id, op⟩) (Store.releaseBarrier ⟨gid', id, op⟩)
      Q E w w' :=
  Single.both_perform
    (fun c => hQ _ _ ((h.releaseBarrier id op c.now c.now).of_eq rfl rfl rfl rfl))
    fun _ => Or.inr ⟨rfl, rfl⟩

/-- **A write**: what is stored afterwards is the record that was written, but for its time and
its revision. -/
theorem twin_persist {r : Transaction} {Q : Transaction → Transaction → World → World → Prop}
    (h : Held gid gid' tx w w')
    (hQ : ∀ now u u', Held gid gid' (bumpTransactionRevision now r) u u' →
      Q (r.written.named gid) (r.written.named gid') u u') :
    Twin fails gid gid' (persistTransaction (r.named gid)) (persistTransaction (r.named gid')) Q E
      w w' := by
  refine Twin.bind ⟨fun c => ?_, fun f hf => ⟨f, hf, rfl, rfl⟩⟩
  exact hQ c.now _ _ (h.put (bumpTransactionRevision c.now r) c.now c.now)

end RozeDtm
