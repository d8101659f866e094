import RozeDtm.Serial.CallOrder
import RozeDtm.Serial.Steady
import RozeDtm.Session.Batch

/-!
# A batch of a concurrent Saga, one event after another

The calls of a batch come in any order of its events.  `InTurn` is what allows a call of the
Saga, and calls of one batch do not take it from each other.  `GraphBatch` is what holds
between two events: each branch that is not under way satisfies `T`, which says what its
status tells of its calls, and a branch that is under way satisfies it as the failed branch that
it becomes if its call fails.
-/

namespace RozeDtm

open Conc

/-- A compensation is called for a branch whose action has succeeded. -/
def OwnAction (c : BranchCall) (h : List (Nat × Event)) : Prop :=
  c.op = "compensate" → c.branchId ∈ doneIds "action" h

/-- The calls of the concurrent Saga are in order. -/
structure GraphOrder (bs : List Branch) (h : List (Nat × Event)) : Prop
    extends CallOrder bs "action" "compensate" h where
  own : IssuedUnder OwnAction h

/-- A call that may be issued. -/
structure InTurn (bs : List Branch) (h : List (Nat × Event)) (c : BranchCall) : Prop where
  acts : c.op = "action" →
    (∀ d, DependsOn bs c.branchId d → d ∈ doneIds "action" h) ∧ doneIds "compensate" h = []
  undoes : c.op = "compensate" → c.branchId ∈ doneIds "action" h ∧
    ∀ m, DependsOn bs m c.branchId → m ∈ doneIds "action" h → m ∈ doneIds "compensate" h

/-- The operations of a batch of the Saga. -/
def BatchOp (op : String) : Prop := op = "action" ∨ op = "compensate"

section Turns

variable {bs : List Branch} {h h' : List (Nat × Event)} {i : Nat} {c c' : BranchCall}

theorem GraphOrder.nil : GraphOrder bs [] := ⟨.nil, .nil⟩

/-- An event that completes no call. -/
theorem InTurn.quiet (hc : InTurn bs h c) (ha : doneIds "action" h' = doneIds "action" h)
    (hu : doneIds "compensate" h' = doneIds "compensate" h) : InTurn bs h' c where
  acts := by
    rw [ha, hu]
    exact hc.acts
  undoes := by
    rw [ha, hu]
    exact hc.undoes

/-- **Calls of one batch do not take the turn from each other.** -/
theorem InTurn.other (hc : InTurn bs h c) (hop : c'.op = c.op) :
    InTurn bs ((i, .ended c' true) :: h) c where
  acts := fun hact => by
    rw [doneIds_succeeded (hop.trans hact),
      doneIds_succeeded_of_ne (by rw [hop, hact]; decide)]
    exact (hc.acts hact).imp (fun hd d hdep => List.mem_cons_of_mem _ (hd d hdep)) id
  undoes := fun hundo => by
    rw [doneIds_succeeded (hop.trans hundo),
      doneIds_succeeded_of_ne (by rw [hop, hundo]; decide)]
    exact (hc.undoes hundo).imp id fun hm m hdep hacted => List.mem_cons_of_mem _ (hm m hdep hacted)

theorem GraphOrder.began (ho : GraphOrder bs h) (hc : InTurn bs h c) :
    GraphOrder bs ((i, .began c) :: h) where
  toCallOrder := ho.toCallOrder.began (fun hop => (hc.acts hop).1) fun hop => (hc.undoes hop).2
  own := ho.own.began fun hop => (hc.undoes hop).1

theorem GraphOrder.failed (ho : GraphOrder bs h) : GraphOrder bs ((i, .ended c false) :: h) :=
  ⟨ho.toCallOrder.failed, ho.own.ended⟩

theorem GraphOrder.succeeded (ho : GraphOrder bs h) (hc : InTurn bs h c) (hop : BatchOp c.op) :
    GraphOrder bs ((i, .ended c true) :: h) where
  toCallOrder := by
    rcases hop with hop | hop
    · exact ho.toCallOrder.actedOne (by decide) hop (hc.acts hop).1 (hc.acts hop).2
    · exact ho.toCallOrder.undoneOne (by decide) hop (hc.undoes hop).2
  own := ho.own.ended

end Turns

/-- What a batch of calls for `op` keeps of each branch: an event of another branch does not
matter, and a branch whose call succeeds goes from `onErr` to `onOk`. -/
structure BatchTold (op : String) (onOk onErr : BranchStatus)
    (T : List (Nat × Event) → Branch → Prop) : Prop where
  quiet : ∀ {h h' : List (Nat × Event)} {b : Branch},
    doneIds "action" h' = doneIds "action" h → doneIds "compensate" h' = doneIds "compensate" h →
    T h b → T h' b
  same : ∀ {h : List (Nat × Event)} {b b' : Branch}, b'.id = b.id → b'.status = b.status →
    T h b → T h b'
  other : ∀ {h : List (Nat × Event)} {b : Branch} {c : BranchCall} (i : Nat), c.op = op →
    c.branchId ≠ b.id → T h b → T ((i, .ended c true) :: h) b
  won : ∀ {h : List (Nat × Event)} {b : Branch} {c : BranchCall} (i : Nat), c.op = op →
    c.branchId = b.id → T h { b with status := onErr } →
    T ((i, .ended c true) :: h) { b with status := onOk }

/-- How far a task of the batch has come. -/
def TaskStage.Told (bs : List Branch) (onOk onErr : BranchStatus)
    (T : List (Nat × Event) → Branch → Prop) (h : List (Nat × Event)) (task : BatchTask) :
    TaskStage → Prop
  | .spawned | .calling => InTurn bs h task.call ∧ T h { task.branch with status := onErr }
  | .returned b succeeded => b.definition = task.branch.definition ∧
    b.status = (if succeeded then onOk else onErr) ∧ T h b

/-- A batch of calls for `op` under way; `bs` are the branches of the local record. -/
structure GraphBatch (s₀ : Transaction) (op : String) (onOk onErr : BranchStatus)
    (T : List (Nat × Event) → Branch → Prop) (h : List (Nat × Event))
    (tasks : List (BatchTask × TaskStage)) (bs : List Branch) : Prop where
  same : SameBranches s₀.branches bs
  places : ∀ t ∈ tasks, bs[t.1.index]? = some t.1.branch
  gids : ∀ t ∈ tasks, t.1.call.gid = s₀.gid
  ops : ∀ t ∈ tasks, t.1.call.op = op
  branchIds : ∀ t ∈ tasks, t.1.call.branchId = t.1.branch.id
  stages : ∀ t ∈ tasks, t.2.Told s₀.branches onOk onErr T h t.1
  landed : ∀ (i : Nat) b, bs[i]? = some b → (∀ t ∈ tasks, t.1.index ≠ i) → T h b
  indices : (tasks.map fun t => t.1.index).Nodup

section Batch

variable {s₀ : Transaction} {op : String} {onOk onErr : BranchStatus}
  {T : List (Nat × Event) → Branch → Prop} {h h' : List (Nat × Event)} {bs : List Branch}
  {l₁ l₂ : List (BatchTask × TaskStage)} {task : BatchTask} {stage stage' : TaskStage} {i : Nat}

theorem TaskStage.Told.quiet (hT : BatchTold op onOk onErr T)
    (ha : doneIds "action" h' = doneIds "action" h)
    (hu : doneIds "compensate" h' = doneIds "compensate" h)
    (hs : stage.Told bs onOk onErr T h task) : stage.Told bs onOk onErr T h' task := by
  cases stage with
  | spawned | calling => exact ⟨hs.1.quiet ha hu, hT.quiet ha hu hs.2⟩
  | returned b succeeded => exact ⟨hs.1, hs.2.1, hT.quiet ha hu hs.2.2⟩

/-- The call of another branch of the batch has succeeded. -/
theorem TaskStage.Told.other {c : BranchCall} (hT : BatchTold op onOk onErr T) (i : Nat)
    (hop : c.op = op) (hcall : task.call.op = op) (hne : c.branchId ≠ task.branch.id)
    (hs : stage.Told bs onOk onErr T h task) :
    stage.Told bs onOk onErr T ((i, .ended c true) :: h) task := by
  cases stage with
  | spawned | calling =>
    exact ⟨hs.1.other (hop.trans hcall.symm), hT.other (b := { task.branch with status := onErr })
      i hop hne hs.2⟩
  | returned b succeeded =>
    have hid : b.id = task.branch.id := Branch.id_eq hs.1
    exact ⟨hs.1, hs.2.1, hT.other i hop (hid ▸ hne) hs.2.2⟩

namespace GraphBatch

/-- The branches of two tasks have different ids. -/
theorem id_ne (hb : GraphBatch s₀ op onOk onErr T h (l₁ ++ (task, stage) :: l₂) bs)
    (hn : (s₀.branches.map Branch.id).Nodup) {j : Nat} {b : Branch} (hj : bs[j]? = some b)
    (hne : task.index ≠ j) : task.branch.id ≠ b.id := by
  rw [← hb.same.ids] at hn
  have hplace := hb.places (task, stage) (by simp)
  intro hid
  obtain ⟨hlt, -⟩ := List.getElem?_eq_some_iff.mp hplace
  have hlt' : task.index < (bs.map Branch.id).length := by rwa [List.length_map]
  refine hne ((List.getElem?_inj hlt' hn).mp ?_)
  rw [List.getElem?_map, List.getElem?_map, hplace, hj, Option.map_some, Option.map_some, hid]

/-- One task goes on; `h'` is what the calls are then. -/
theorem advance (hb : GraphBatch s₀ op onOk onErr T h (l₁ ++ (task, stage) :: l₂) bs)
    (hstage : stage'.Told s₀.branches onOk onErr T h' task)
    (hrest : ∀ t ∈ l₁ ++ l₂, t.2.Told s₀.branches onOk onErr T h t.1 →
      t.2.Told s₀.branches onOk onErr T h' t.1)
    (hlanded : ∀ (j : Nat) b, bs[j]? = some b → task.index ≠ j → T h b → T h' b) :
    GraphBatch s₀ op onOk onErr T h' (l₁ ++ (task, stage') :: l₂) bs := by
  have hall {P : BatchTask → Prop} (hP : ∀ t ∈ l₁ ++ (task, stage) :: l₂, P t.1) :
      ∀ t ∈ l₁ ++ (task, stage') :: l₂, P t.1 := by
    intro t ht
    rcases InBatch.cases_around ht with rfl | ht
    · exact hP (task, stage) (by simp)
    · exact hP t (InBatch.mem_around ht)
  refine ⟨hb.same, @hall (fun t => bs[t.index]? = some t.branch) hb.places,
    @hall (fun t => t.call.gid = s₀.gid) hb.gids, @hall (fun t => t.call.op = op) hb.ops,
    @hall (fun t => t.call.branchId = t.branch.id) hb.branchIds, fun t ht => ?_,
    fun j b hj hnone => ?_, ?_⟩
  · rcases InBatch.cases_around ht with rfl | ht
    · exact hstage
    · exact hrest t ht (hb.stages t (InBatch.mem_around ht))
  · have hne : task.index ≠ j := hnone (task, stage') (by simp)
    refine hlanded j b hj hne (hb.landed j b hj fun t ht => ?_)
    rcases InBatch.cases_around ht with rfl | ht
    · exact hne
    · exact hnone t (InBatch.mem_around ht)
  · simpa using hb.indices

/-- An event that completes no call. -/
theorem quiet (hT : BatchTold op onOk onErr T)
    (hb : GraphBatch s₀ op onOk onErr T h (l₁ ++ (task, stage) :: l₂) bs)
    (ha : doneIds "action" h' = doneIds "action" h)
    (hu : doneIds "compensate" h' = doneIds "compensate" h)
    (hstage : stage'.Told s₀.branches onOk onErr T h' task) :
    GraphBatch s₀ op onOk onErr T h' (l₁ ++ (task, stage') :: l₂) bs :=
  hb.advance hstage (fun _ _ hs => hs.quiet hT ha hu) fun _ _ _ _ => hT.quiet ha hu

/-- **The call of a task has returned success.** -/
theorem won {b : Branch} (hT : BatchTold op onOk onErr T)
    (hb : GraphBatch s₀ op onOk onErr T h (l₁ ++ (task, .calling) :: l₂) bs)
    (hn : (s₀.branches.map Branch.id).Nodup) (hdef : b.definition = task.branch.definition)
    (hst : b.status = onOk) :
    GraphBatch s₀ op onOk onErr T ((i, .ended task.call true) :: h)
      (l₁ ++ (task, .returned b true) :: l₂) bs := by
  have hmem : (task, TaskStage.calling) ∈ l₁ ++ (task, .calling) :: l₂ := by simp
  have hop : task.call.op = op := hb.ops _ hmem
  have hid : task.call.branchId = task.branch.id := hb.branchIds _ hmem
  have hne {j : Nat} {a : Branch} (hj : bs[j]? = some a) (h : task.index ≠ j) :
      task.call.branchId ≠ a.id := by
    rw [hid]
    exact hb.id_ne hn hj h
  refine hb.advance ⟨hdef, hst, ?_⟩ (fun t ht hs => ?_) fun j a hj h => hT.other i hop (hne hj h)
  · have hid' : b.id = task.branch.id := Branch.id_eq hdef
    exact hT.same (b := { task.branch with status := onOk }) hid' hst
      (hT.won i hop hid (hb.stages _ hmem).2)
  · have hmem' := (InBatch.mem_around ht : t ∈ l₁ ++ (task, TaskStage.calling) :: l₂)
    have hindex : task.index ≠ t.1.index := by
      have hindices := hb.indices
      simp only [List.map_append, List.map_cons, List.nodup_middle, List.nodup_cons] at hindices
      rw [← List.map_append] at hindices
      exact fun h => hindices.1 (h ▸ List.mem_map_of_mem ht)
    exact hs.other hT i hop (hb.ops t hmem') (hne (hb.places t hmem') hindex)

/-- **A task is joined.** -/
theorem join {b : Branch} {succeeded : Bool}
    (hb : GraphBatch s₀ op onOk onErr T h (l₁ ++ (task, .returned b succeeded) :: l₂) bs) :
    GraphBatch s₀ op onOk onErr T h (l₁ ++ l₂) (bs.set task.index b) := by
  have hmem : (task, TaskStage.returned b succeeded) ∈ l₁ ++ (task, .returned b succeeded) :: l₂ := by
    simp
  obtain ⟨hdef, -, htold⟩ := hb.stages _ hmem
  have hplace := hb.places _ hmem
  obtain ⟨hlt, hget⟩ := List.getElem?_eq_some_iff.mp hplace
  have hindices := hb.indices
  simp only [List.map_append, List.map_cons, List.nodup_middle, List.nodup_cons] at hindices
  rw [← List.map_append] at hindices
  have hne : ∀ t ∈ l₁ ++ l₂, task.index ≠ t.1.index := fun t ht h =>
    hindices.1 (h ▸ List.mem_map_of_mem ht)
  refine ⟨?_, fun t ht => ?_, fun t ht => hb.gids t (InBatch.mem_around ht),
    fun t ht => hb.ops t (InBatch.mem_around ht),
    fun t ht => hb.branchIds t (InBatch.mem_around ht),
    fun t ht => hb.stages t (InBatch.mem_around ht), fun j a hj hnone => ?_, hindices.2⟩
  · obtain ⟨before, after, haround, -, hset⟩ := exists_around bs ⟨task.index, hlt⟩
    rw [hset b]
    rw [List.get_eq_getElem] at haround
    refine SameBranches.exchange (haround ▸ hb.same) (hdef.trans ?_)
    exact congrArg Branch.definition hget.symm
  · rw [List.getElem?_set_ne (hne t ht)]
    exact hb.places t (InBatch.mem_around ht)
  · by_cases hj' : task.index = j
    · subst hj'
      rw [List.getElem?_set_self hlt] at hj
      cases hj
      exact htold
    · rw [List.getElem?_set_ne hj'] at hj
      refine hb.landed j a hj fun t ht => ?_
      rcases InBatch.cases_around ht with rfl | ht
      · exact hj'
      · exact hnone t ht

end GraphBatch

end Batch

/-! ### The batch in the world -/

/-- The calls of the Saga are in order. -/
def World.GraphOrdered (s₀ : Transaction) (w : World) : Prop :=
  GraphOrder s₀.branches (callEvents s₀.gid w.history)

/-- The world while an operation on the Saga is under way. -/
structure GraphOpen (s₀ : Transaction) (w : World) : Prop where
  keyed : w.Keyed
  order : w.GraphOrdered s₀

/-- Nothing was written and no call of the Saga was issued or has returned. -/
structure Still (s₀ : Transaction) (w w' : World) : Prop where
  txs : w'.txs = w.txs
  calls : callEvents s₀.gid w'.history = callEvents s₀.gid w.history

section World

variable {s₀ : Transaction} {w w' : World} {i : Nat} {dtm : Dtm} {op : String}
  {onOk onErr : BranchStatus} {T : List (Nat × Event) → Branch → Prop} {E : Err → World → Prop}

theorem Still.trans {w'' : World} (h : Still s₀ w w') (h' : Still s₀ w' w'') : Still s₀ w w'' :=
  ⟨h'.txs.trans h.txs, h'.calls.trans h.calls⟩

theorem GraphOpen.still (hw : GraphOpen s₀ w) (h : Still s₀ w w') : GraphOpen s₀ w' where
  keyed := by
    rw [World.Keyed, h.txs]
    exact hw.keyed
  order := by
    rw [World.GraphOrdered, h.calls]
    exact hw.order

theorem GraphOpen.noted {e : Event} {now : Nat} (hw : GraphOpen s₀ w)
    (ho : GraphOrder s₀.branches (callEvents s₀.gid ((i, e) :: w.history))) :
    GraphOpen s₀ ((w.setClock now).note i e) := ⟨hw.keyed, ho⟩

/-- Giving barriers back. -/
theorem runs_releaseAll {claimed : List BranchBarrier} {Q : Unit → World → Prop}
    (hw : GraphOpen s₀ w) (hQ : ∀ w', Still s₀ w w' → Q () w') :
    (alone fun _ _ => True).Runs (World.GraphOrdered s₀) i (claimBatch.releaseAll claimed) Q E w := by
  induction claimed generalizing w with
  | nil => exact hQ w ⟨rfl, rfl⟩
  | cons b rest ih =>
    rw [claimBatch.releaseAll]
    refine Machine.runs_bind.mpr (runs_releaseBarrier (fun _ => hw.order) fun now => ?_)
    have hstill : Still s₀ w
        ((InMemory.releaseBarrier (w.setClock now) b).note i (.released b)) :=
      ⟨rfl, callEvents_released⟩
    exact ih (hw.still hstill) fun w' h => hQ w' (hstill.trans h)

/-- Claiming the barriers of a batch. -/
theorem runs_claimBatch {gid : String} {claimed : List BranchBarrier} {ids : List String}
    {Q : Bool → World → Prop} (hop : BatchOp op) (hw : GraphOpen s₀ w)
    (hQ : ∀ r w', Still s₀ w w' → Q r w') :
    (alone fun _ _ => True).Runs (World.GraphOrdered s₀) i (claimBatch gid op claimed ids) Q E w := by
  have htry : op ≠ "try" := by rcases hop with rfl | rfl <;> decide
  have hcancel : op ≠ "cancel" := by rcases hop with rfl | rfl <;> decide
  induction ids generalizing w claimed with
  | nil => exact hQ true w ⟨rfl, rfl⟩
  | cons id ids ih =>
    rw [claimBatch]
    refine Machine.runs_bind.mpr (runs_barrier htry hcancel (fun _ => hw.order) (fun now hb => ?_)
      fun now hb => ?_)
    · have hstill : Still s₀ w ((w.setClock now).note i (.decided ⟨gid, id, op⟩ .skipDuplicate)) :=
        ⟨rfl, callEvents_decided⟩
      simp only [ne_eq, reduceCtorEq, not_false_eq_true, if_true]
      refine Machine.runs_bind.mpr (runs_releaseAll (hw.still hstill) fun w' h => ?_)
      exact hQ false w' (hstill.trans h)
    · have hstill : Still s₀ w ((w.setClock now).claimed i ⟨gid, id, op⟩) :=
        ⟨rfl, callEvents_decided⟩
      simp only [ne_eq, not_true_eq_false, if_false]
      exact ih (hw.still hstill) fun r w' h => hQ r w' (hstill.trans h)

/-- What a batch that was joined leaves. -/
structure GraphJoined (s₀ : Transaction) (op : String) (T : List (Nat × Event) → Branch → Prop)
    (w w' : World) (bs : List Branch) : Prop extends GraphOpen s₀ w' where
  txs : w'.txs = w.txs
  same : SameBranches s₀.branches bs
  told : ∀ b ∈ bs, T (callEvents s₀.gid w'.history) b
  others : ∀ op', op' ≠ op →
    doneIds op' (callEvents s₀.gid w'.history) = doneIds op' (callEvents s₀.gid w.history)

/-- **Joining a batch**, in any order of its events. -/
theorem runs_joinBatch {fuel : Nat} {options : TransactionOptions} {tx : Transaction}
    {tasks : List (BatchTask × TaskStage)} {failed bs : List Branch} {ref : World}
    {Q : Transaction × List Branch → World → Prop} (hT : BatchTold op onOk onErr T)
    (hop : BatchOp op) (hn : (s₀.branches.map Branch.id).Nodup) (hw : GraphOpen s₀ w)
    (hfuel : remaining tasks ≤ fuel)
    (hb : GraphBatch s₀ op onOk onErr T (callEvents s₀.gid w.history) tasks bs)
    (htxs : w.txs = ref.txs)
    (hothers : ∀ op', op' ≠ op →
      doneIds op' (callEvents s₀.gid w.history) = doneIds op' (callEvents s₀.gid ref.history))
    (hQ : ∀ w' bs failed, GraphJoined s₀ op T ref w' bs → Q ({ tx with branches := bs }, failed) w') :
    (alone fun _ _ => True).Runs (World.GraphOrdered s₀) i
      (dtm.joinBatch options onOk onErr fuel tasks { tx with branches := bs } failed) Q E w := by
  have hnil {w : World} {bs : List Branch} (hw : GraphOpen s₀ w) (htxs : w.txs = ref.txs)
      (hb : GraphBatch s₀ op onOk onErr T (callEvents s₀.gid w.history) [] bs)
      (hothers : ∀ op', op' ≠ op →
        doneIds op' (callEvents s₀.gid w.history) = doneIds op' (callEvents s₀.gid ref.history)) :
      GraphJoined s₀ op T ref w bs := by
    refine ⟨hw, htxs, hb.same, fun b hmem => ?_, hothers⟩
    obtain ⟨j, hj⟩ := List.mem_iff_getElem?.mp hmem
    exact hb.landed j b hj fun _ h => nomatch h
  induction fuel generalizing w tasks bs failed with
  | zero =>
    cases tasks with
    | nil => exact hQ w bs failed (hnil hw htxs hb hothers)
    | cons t ts => cases hstage : t.2 <;> simp [remaining, TaskStage.remaining, hstage] at hfuel
  | succ fuel ih =>
    cases tasks with
    | nil => exact hQ w bs failed (hnil hw htxs hb hothers)
    | cons t ts =>
      simp only [Dtm.joinBatch]
      refine Machine.runs_bind.mpr (runs_call (fun _ => hw.order) fun now c _ => ?_)
      dsimp only [InMemory.exec]
      generalize Fin.ofNat (ts.length + 1) c.pick = k
      obtain ⟨l₁, l₂, haround, herase, hset⟩ := exists_around (t :: ts) k
      generalize (t :: ts).get k = event at haround
      obtain ⟨task, stage⟩ := event
      rw [haround] at hb hfuel
      have hmem : (task, stage) ∈ l₁ ++ (task, stage) :: l₂ := by simp
      have hg : task.call.gid = s₀.gid := hb.gids _ hmem
      have hcop : task.call.op = op := hb.ops _ hmem
      have hle {stage' : TaskStage} (h : stage'.remaining + 1 = stage.remaining) :
          remaining (l₁ ++ (task, stage') :: l₂) ≤ fuel := by
        simp only [remaining, List.map_append, List.map_cons, List.sum_append, List.sum_cons]
          at hfuel ⊢
        omega
      -- what the loop does after a step of the task
      have advance {w' : World} {stage' : TaskStage} (h : stage'.remaining + 1 = stage.remaining)
          (hw' : GraphOpen s₀ w') (htxs' : w'.txs = w.txs)
          (hb' : GraphBatch s₀ op onOk onErr T (callEvents s₀.gid w'.history)
            (l₁ ++ (task, stage') :: l₂) bs)
          (hothers' : ∀ op', op' ≠ op → doneIds op' (callEvents s₀.gid w'.history) =
            doneIds op' (callEvents s₀.gid w.history)) :
          (alone fun _ _ => True).Runs (World.GraphOrdered s₀) i (dtm.joinBatch options onOk onErr
            fuel ((t :: ts).set k (task, stage')) { tx with branches := bs } failed) Q E w' := by
        rw [hset]
        exact ih hw' (hle h) hb' (htxs'.trans htxs)
          fun op' hne => (hothers' op' hne).trans (hothers op' hne)
      cases stage with
      | spawned =>
        -- the call is issued
        have hstage := hb.stages _ hmem
        simp only [Dtm.advanceTask]
        refine Machine.runs_bind.mpr (Machine.runs_bind.mpr (runs_call (fun _ => hw.order)
          fun now' c' _ => ?_))
        have hcalls : callEvents s₀.gid ((i, .began task.call) :: w.history) =
            (i, .began task.call) :: callEvents s₀.gid w.history := callEvents_began hg
        refine advance rfl (hw.noted (hcalls ▸ hw.order.began hstage.1)) rfl ?_ fun op' _ => ?_
        · exact hcalls ▸ hb.quiet hT doneIds_began doneIds_began
            ⟨hstage.1.quiet rfl rfl, hT.quiet doneIds_began doneIds_began hstage.2⟩
        · exact (congrArg (doneIds op') hcalls).trans doneIds_began
      | calling =>
        have hstage := hb.stages _ hmem
        simp only [Dtm.advanceTask]
        refine Machine.runs_bind.mpr (Machine.runs_bind.mpr (runs_invokeEnd (fun _ => hw.order)
          fun now' ok => ?_))
        have hcalls : callEvents s₀.gid ((i, .ended task.call ok) :: w.history) =
            (i, .ended task.call ok) :: callEvents s₀.gid w.history := callEvents_ended hg
        refine Machine.runs_bind.mpr ?_
        cases ok with
        | true =>
          -- the call has returned success
          have ho : GraphOrder s₀.branches ((i, .ended task.call true) ::
            callEvents s₀.gid w.history) := hw.order.succeeded hstage.1 (hcop ▸ hop)
          refine advance rfl (hw.noted (hcalls ▸ ho)) rfl ?_ fun op' hne => ?_
          · exact hcalls ▸ hb.won hT hn rfl rfl
          · exact (congrArg (doneIds op') hcalls).trans
              (doneIds_succeeded_of_ne fun h => hne (h.symm.trans hcop))
        | false =>
          -- the call has failed
          have hw' : GraphOpen s₀ (((w.setClock now).setClock now').note i
            (.ended task.call false)) := hw.noted (hcalls ▸ hw.order.failed)
          simp only [Dtm.settleTask, Bool.false_eq_true, if_false]
          refine Machine.runs_bind.mpr (runs_call (fun _ => hw'.order) fun now'' c' _ => ?_)
          refine advance rfl ⟨hw'.keyed, hw'.order⟩ rfl ?_ fun op' _ => ?_
          · exact hcalls ▸ hb.quiet hT doneIds_failed doneIds_failed
              ⟨rfl, rfl, hT.same (b := { task.branch with status := onErr }) rfl rfl
                (hT.quiet doneIds_failed doneIds_failed hstage.2)⟩
          · exact (congrArg (doneIds op') hcalls).trans doneIds_failed
      | returned b succeeded =>
        have hrest : remaining (l₁ ++ l₂) ≤ fuel := by
          simp only [remaining, List.map_append, List.map_cons, List.sum_append, List.sum_cons,
            TaskStage.remaining] at hfuel ⊢
          omega
        cases succeeded with
        | true =>
          simp only [if_true]
          rw [herase]
          exact ih (w := w.setClock now) ⟨hw.keyed, hw.order⟩ hrest hb.join htxs hothers
        | false =>
          simp only [Bool.false_eq_true, if_false]
          rw [herase]
          refine Machine.runs_bind.mpr (runs_releaseBarrier (fun _ => hw.order) fun now' => ?_)
          have hstill : Still s₀ w ((InMemory.releaseBarrier ((w.setClock now).setClock now')
              task.call.barrier).note i (.released task.call.barrier)) :=
            ⟨rfl, callEvents_released⟩
          exact ih (hw.still hstill) hrest (hstill.calls ▸ hb.join) (hstill.txs.trans htxs)
            fun op' hne => (congrArg (doneIds op') hstill.calls).trans (hothers op' hne)

/-- **A batch from its spawn to its last join.** -/
theorem runs_runBatch {options : TransactionOptions} {tx : Transaction} (url : Branch → String)
    (ready : List Nat) {Q : Transaction × List Branch → World → Prop}
    (hT : BatchTold op onOk onErr T) (hop : BatchOp op) (hn : (s₀.branches.map Branch.id).Nodup)
    (hw : GraphOpen s₀ w) (hg : tx.gid = s₀.gid) (hsame : SameBranches s₀.branches tx.branches)
    (hnodup : ready.Nodup) (hready : ∀ j ∈ ready, ∃ b, tx.branches[j]? = some b)
    (hturn : ∀ j ∈ ready, ∀ b, tx.branches[j]? = some b →
      InTurn s₀.branches (callEvents s₀.gid w.history)
        (Dtm.branchCall options tx.gid b (url b) op) ∧
      T (callEvents s₀.gid w.history) { b with status := onErr })
    (htold : ∀ (j : Nat) b, tx.branches[j]? = some b → j ∉ ready →
      T (callEvents s₀.gid w.history) b)
    (hQ : ∀ w' bs failed, GraphJoined s₀ op T w w' bs → Q ({ tx with branches := bs }, failed) w') :
    (alone fun _ _ => True).Runs (World.GraphOrdered s₀) i (dtm.runBatch options onOk onErr
      (spawnAll options tx.gid op url (tx.branchesAt ready)) tx) Q E w := by
  have hmem {t : BatchTask × TaskStage}
      (ht : t ∈ (spawnAll options tx.gid op url (tx.branchesAt ready)).map fun task =>
        (task, TaskStage.spawned)) : ∃ p ∈ tx.branchesAt ready,
      ((⟨p.1, p.2, Dtm.branchCall options tx.gid p.2 (url p.2) op⟩ : BatchTask),
        TaskStage.spawned) = t := by
    obtain ⟨task, htask, rfl⟩ := List.mem_map.mp ht
    obtain ⟨p, hp, rfl⟩ := List.mem_map.mp htask
    exact ⟨p, hp, rfl⟩
  have hfst := branchesAt_map_fst hready
  refine runs_joinBatch hT hop hn hw ?_ ?_ rfl (fun _ _ => rfl) hQ
  · simp [remaining, TaskStage.remaining, Function.comp_def, Nat.mul_comm]
  · refine ⟨hsame, fun t ht => ?_, fun t ht => ?_, fun t ht => ?_, fun t ht => ?_, fun t ht => ?_,
      fun j b hj hnone => htold j b hj fun hj' => ?_, ?_⟩
    · obtain ⟨p, hp, rfl⟩ := hmem ht
      exact branchesAt_getElem? hp
    · obtain ⟨p, hp, rfl⟩ := hmem ht
      exact hg
    · obtain ⟨p, hp, rfl⟩ := hmem ht
      rfl
    · obtain ⟨p, hp, rfl⟩ := hmem ht
      rfl
    · obtain ⟨p, hp, rfl⟩ := hmem ht
      exact hturn p.1 (mem_branchesAt.mp hp).1 p.2 (mem_branchesAt.mp hp).2
    · have hp : (j, b) ∈ tx.branchesAt ready := mem_branchesAt.mpr ⟨hj', hj⟩
      exact hnone _ (List.mem_map_of_mem (List.mem_map_of_mem hp)) rfl
    · simpa [spawnAll, Function.comp_def, hfst] using hnodup

end World

end RozeDtm
