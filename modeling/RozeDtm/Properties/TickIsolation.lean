import Mathlib.Data.List.TakeWhile
import RozeDtm.Serial.Frame

/-!
# Transactions in one recovery tick

`tick_recover_once` goes through the listed transactions and returns the error of the first
recovery step that fails, so that the transactions listed after it are not recovered
(`tick_stopped`).  Apart from this the transactions do not touch each other: what a tick does
with a transaction depends on its record, its barriers, the clock and the outcomes of its own
calls only (`recovered_alike_iff`).
-/

namespace RozeDtm

open Conc

/-- Two worlds have the same of `g`, at the same time. -/
structure SameView (g : String) (w w' : World) : Prop extends SameOf g w w' where
  clock : w'.clock = w.clock

/-- The call that an event is the issue of. -/
def Event.began? : Event → Option BranchCall
  | .began call => some call
  | _ => none

/-- The branch calls that were issued for `g`, latest first. -/
def World.callsFor (w : World) (g : String) : List BranchCall :=
  (eventsOf g w.history).filterMap fun entry => entry.2.began?

/-- In two worlds the record of `g` is the same, and so are the calls made for it. -/
structure SameRecovery (g : String) (w w' : World) : Prop where
  record : w'.txs[g]? = w.txs[g]?
  calls : w'.callsFor g = w.callsFor g

section View

variable {g : String} {w w' w'' : World} {o : Effect} {t : Unit} {i : Nat}

theorem SameView.refl (g : String) (w : World) : SameView g w w := ⟨.refl g w, rfl⟩

theorem SameView.trans (h : SameView g w w') (h' : SameView g w' w'') : SameView g w w'' :=
  ⟨h.toSameOf.trans h'.toSameOf, h'.clock.trans h.clock⟩

theorem SameView.symm (h : SameView g w w') : SameView g w' w :=
  ⟨⟨h.txs.symm, fun b hb => (h.barriers b hb).symm, h.events.symm⟩, h.clock.symm⟩

theorem SameView.recovery (h : SameView g w w') : SameRecovery g w w' :=
  ⟨h.txs, by rw [World.callsFor, World.callsFor, h.events]⟩

theorem SameRecovery.trans (h : SameRecovery g w w') (h' : SameRecovery g w' w'') :
    SameRecovery g w w'' := ⟨h'.record.trans h.record, h'.calls.trans h.calls⟩

theorem SameRecovery.symm (h : SameRecovery g w w') : SameRecovery g w' w :=
  ⟨h.record.symm, h.calls.symm⟩

/-! ### One step in two worlds -/

/-- A change in place of the record of `g`. -/
theorem SameView.modify (h : SameView g w w') (f : Transaction → Except Err Transaction) :
    (InMemory.modify w' g f).1 = (InMemory.modify w g f).1 ∧
      SameView g (InMemory.modify w g f).2 (InMemory.modify w' g f).2 := by
  simp only [InMemory.modify, h.txs]
  split
  · exact ⟨rfl, h⟩
  · split
    · exact ⟨rfl, h⟩
    · refine ⟨rfl, ⟨?_, h.barriers, h.events⟩, h.clock⟩
      simp

/-- One more event. -/
theorem SameView.note (h : SameView g w w') (e : Event) :
    SameView g (w.note i e) (w'.note i e) := by
  refine ⟨⟨h.txs, h.barriers, ?_⟩, h.clock⟩
  have hevents := h.events
  simp only [eventsOf] at hevents
  simp only [World.note_history, eventsOf, List.filter_cons, hevents]

/-- A barrier of `g` is decided alike. -/
theorem SameView.barrier (h : SameView g w w') {b : BranchBarrier} (hb : b.gid = g) :
    (InMemory.barrier w' b).1 = (InMemory.barrier w b).1 ∧
      SameView g (InMemory.barrier w b).2 (InMemory.barrier w' b).2 := by
  have add (b' : BranchBarrier) : SameView g { w with barriers := insert b' w.barriers }
      { w' with barriers := insert b' w'.barriers } := by
    refine ⟨⟨h.txs, fun b'' hg => ?_, h.events⟩, h.clock⟩
    simp only [Finset.mem_insert, h.barriers b'' hg]
  simp only [InMemory.barrier, h.barriers b hb, h.barriers ⟨b.gid, b.branchId, "cancel"⟩ hb,
    h.barriers ⟨b.gid, b.branchId, "try"⟩ hb]
  split
  · exact ⟨rfl, h⟩
  · split
    · exact ⟨rfl, h⟩
    · split
      · exact ⟨rfl, add _⟩
      · exact ⟨rfl, add _⟩

/-- **A step of an operation on `g` goes alike in two worlds that have the same of `g`.** -/
theorem SameView.exec (h : SameView g w w') (hp : (within g).pre t o) (c : Outcome) :
    (InMemory.exec i o c w').1 = (InMemory.exec i o c w).1 ∧
      SameView g (InMemory.exec i o c w).2 (InMemory.exec i o c w').2 := by
  cases o with
  | insertTransaction tx => exact hp.elim
  | getTransaction gid =>
    have hg : gid = g := hp
    subst hg
    exact ⟨h.txs, h⟩
  | updateTransaction tx =>
    refine ⟨rfl, ⟨?_, h.barriers, h.events⟩, h.clock⟩
    have hg : tx.gid = g := hp
    subst hg
    simp only [InMemory.exec, InMemory.updateTransaction, World.put_txs, h.clock]
    exact Std.ExtTreeMap.getElem?_insert_self.trans Std.ExtTreeMap.getElem?_insert_self.symm
  | registerBranch gid branch => exact hp.elim
  | recordWorkflowProgress gid progress => exact hp.elim
  | finishWorkflow gid status reason result =>
    have hg : gid = g := hp
    subst hg
    simp only [InMemory.exec, InMemory.finishWorkflow, h.clock]
    exact h.modify _
  | deferWorkflowRecovery gid delay =>
    have hg : gid = g := hp
    subst hg
    simp only [InMemory.exec, InMemory.deferRecovery, h.clock]
    exact h.modify _
  | listTransactions => exact hp.elim
  | deleteTransactionIfUnchanged tx => exact hp.elim
  | getKv category key => exact hp.elim
  | barrier b =>
    obtain ⟨hd, hw⟩ := h.barrier hp
    simp only [InMemory.exec, hd]
    exact ⟨rfl, hw.note _⟩
  | releaseBarrier b =>
    have released : SameView g (InMemory.releaseBarrier w b) (InMemory.releaseBarrier w' b) := by
      refine ⟨⟨h.txs, fun b' hb' => ?_, h.events⟩, h.clock⟩
      simp only [InMemory.releaseBarrier, Finset.mem_erase, h.barriers b' hb']
    exact ⟨rfl, released.note _⟩
  | acquireRecoveryLease name owner ttl => exact hp.elim
  | currentMillis => exact ⟨h.clock, h⟩
  | invokeBegin call => exact ⟨rfl, h.note _⟩
  | invokeEnd call => exact ⟨rfl, h.note _⟩
  | queryWorkflowCallback request options => exact ⟨rfl, h⟩
  | joinNext n => exact ⟨rfl, h⟩

/-- What is picked for an operation on `g` depends on what there is of `g` only. -/
def Outcomes (g : String) (script : Effect → World → Outcome) : Prop :=
  ∀ o w w', SameView g w w' → script o w' = script o w

/-- **An operation on `g` runs alike.** -/
theorem SameView.outcome {α : Type} {script : Effect → World → Outcome}
    (hscript : Outcomes g script) {p : Prog effects α} {Q : Unit → α → Prop} (hw : w.Keyed)
    (h : SameView g w w') (hp : (within g).Follows p t Q) :
    (inMemory.outcome script i p w').1 = (inMemory.outcome script i p w).1 ∧
      SameView g (inMemory.outcome script i p w).2 (inMemory.outcome script i p w').2 := by
  induction p generalizing t w w' with
  | pure a => exact ⟨rfl, h⟩
  | step o k ih =>
    obtain ⟨hpre, hk⟩ := hp
    have hsees : (within g).sees t o (InMemory.exec i o (script o w) w).1 := by
      cases o with
      | getTransaction gid =>
        intro tx htx
        exact hw gid tx htx
      | _ => trivial
    obtain ⟨hreply, hview⟩ := h.exec (i := i) hpre (script o w)
    have hstep := ih (InMemory.exec i o (script o w) w).1 (hw.exec i (script o w)) hview
      (hk _ hsees)
    simp only [Machine.outcome]
    rw [hscript o w w' h]
    simp only [inMemory] at hstep ⊢
    rw [hreply]
    exact hstep

end View

/-! ### The tick, one transaction after another -/

section Tick

variable (dtm : Dtm) (choose : Effect → World → Outcome)

/-- What the tick does with one listed transaction: whether it goes on to the next one, and
the world after it. -/
def Dtm.tickStep (now : Nat) (tx : Transaction) (w : World) : Bool × World :=
  match dtm.tickMove now tx with
  | none => (true, w)
  | some move =>
    match inMemory.outcome choose 0 move.run w with
    | (.ok _, w') => (true, w')
    | (.error _, w') => (false, w')

/-- What it does with listed transactions, up to the first whose recovery step fails. -/
def Dtm.tickSteps (now : Nat) : List Transaction → World → Bool × World
  | [], w => (true, w)
  | tx :: rest, w =>
    match dtm.tickStep choose now tx w with
    | (true, w') => tickSteps now rest w'
    | (false, w') => (false, w')

/-- The world after a tick. -/
def Dtm.tickEnd (w : World) : World := (inMemory.outcome choose 0 dtm.tickRecoverOnce.run w).2

/-- The transactions that a tick comes to before `g`. -/
def World.listedBefore (w : World) (g : String) : List Transaction :=
  (InMemory.listTransactions w).takeWhile fun tx => tx.gid ≠ g

/-- No recovery step of a transaction that is listed before `g` fails. -/
def Dtm.TickReaches (w : World) (g : String) : Prop :=
  (dtm.tickSteps choose w.clock (w.listedBefore g) w).1 = true

instance (w : World) (g : String) : Decidable (dtm.TickReaches choose w g) :=
  inferInstanceAs (Decidable (_ = true))

variable {dtm choose} {g : String} {w w' : World} {now : Nat}

theorem outcome_run_map {α β : Type} {x : Act α} {f : α → β} :
    (inMemory.outcome choose 0 (x >>= fun a => pure (f a)).run w).2 =
      (inMemory.outcome choose 0 x.run w).2 := by
  cases h : inMemory.outcome choose 0 x.run w with
  | mk r w' =>
    cases r with
    | ok a => rw [Machine.outcome_run_bind_ok h, Machine.outcome_run_pure]
    | error e => rw [Machine.outcome_run_bind_error h]

/-- **The loop of the tick is its steps.** -/
theorem tickLoop_outcome (txs : List Transaction) :
    (inMemory.outcome choose 0 (dtm.tickLoop now txs).run w).2 =
      (dtm.tickSteps choose now txs w).2 := by
  induction txs generalizing w with
  | nil => rfl
  | cons tx rest ih =>
    rw [Dtm.tickLoop, Dtm.tickSteps, Dtm.tickStep]
    cases dtm.tickMove now tx with
    | none => exact ih
    | some move =>
      dsimp only
      cases h : inMemory.outcome choose 0 move.run w with
      | mk r w' =>
        cases r with
        | ok next =>
          rw [Machine.outcome_run_bind_ok h, outcome_run_map]
          exact ih
        | error e => rw [Machine.outcome_run_bind_error h]

theorem tickEnd_eq :
    dtm.tickEnd choose w =
      (dtm.tickSteps choose w.clock (InMemory.listTransactions w) w).2 := by
  rw [← tickLoop_outcome]
  rfl

theorem tickSteps_append (xs ys : List Transaction) :
    dtm.tickSteps choose now (xs ++ ys) w =
      if (dtm.tickSteps choose now xs w).1 = true then
        dtm.tickSteps choose now ys (dtm.tickSteps choose now xs w).2
      else dtm.tickSteps choose now xs w := by
  induction xs generalizing w with
  | nil => rfl
  | cons tx rest ih =>
    rw [List.cons_append, Dtm.tickSteps, Dtm.tickSteps]
    cases h : dtm.tickStep choose now tx w with
    | mk ok w' =>
      cases ok with
      | true => exact ih
      | false => rfl

/-! ### The other transactions -/

theorem outcome_clock {α : Type} (p : Prog effects α) :
    (inMemory.outcome choose 0 p w).2.clock = w.clock := by
  induction p generalizing w with
  | pure a => rfl
  | step o k ih => exact (ih _).trans (clock_step 0 o (choose o w) w)

theorem outcome_keyed {α : Type} (choose : Effect → World → Outcome) (p : Prog effects α)
    (hw : w.Keyed) : (inMemory.outcome choose 0 p w).2.Keyed := by
  induction p generalizing w with
  | pure a => exact hw
  | step o k ih => exact ih _ (hw.exec 0 (choose o w))

/-- An operation on another transaction. -/
theorem outcome_frame {α : Type} (choose : Effect → World → Outcome) {gid : String} (hg : gid ≠ g) (hw : w.Keyed) {x : Act α}
    (hx : (within gid).Does x () (fun _ _ => True)) :
    (inMemory.outcome choose 0 x.run w).2.Keyed ∧
      SameView g w (inMemory.outcome choose 0 x.run w).2 := by
  have hframe : (frameOutline hg w).inv (inMemory.outcome choose 0 x.run w).2 :=
    (frameOutline hg w).outcome (fun _ _ => trivial) ⟨hw, SameOf.refl g w⟩ trivial hx
  exact ⟨hframe.1, hframe.2, outcome_clock _⟩

/-- The step of another transaction. -/
theorem tickStep_frame (dtm : Dtm) (choose : Effect → World → Outcome) (now : Nat) (hw : w.Keyed) {tx : Transaction} (hg : tx.gid ≠ g) :
    (dtm.tickStep choose now tx w).2.Keyed ∧ SameView g w (dtm.tickStep choose now tx w).2 := by
  rw [Dtm.tickStep]
  split
  · exact ⟨hw, .refl g w⟩
  · rename_i move hmove
    have hframe := outcome_frame choose hg hw (within_tickMove hmove)
    split
    all_goals
      rename_i h
      rw [h] at hframe
      exact hframe

theorem tickSteps_frame (dtm : Dtm) (choose : Effect → World → Outcome) (now : Nat) (hw : w.Keyed)
    {txs : List Transaction} (hg : ∀ tx ∈ txs, tx.gid ≠ g) :
    (dtm.tickSteps choose now txs w).2.Keyed ∧ SameView g w (dtm.tickSteps choose now txs w).2 := by
  induction txs generalizing w with
  | nil => exact ⟨hw, .refl g w⟩
  | cons tx rest ih =>
    rw [Dtm.tickSteps]
    have hstep := tickStep_frame dtm choose now hw (hg tx (.head _))
    cases h : dtm.tickStep choose now tx w with
    | mk ok w' =>
      rw [h] at hstep
      cases ok with
      | true =>
        obtain ⟨hkeyed, hview⟩ := ih hstep.1 fun tx htx => hg tx (.tail _ htx)
        exact ⟨hkeyed, hstep.2.trans hview⟩
      | false => exact hstep

theorem gid_of_listedBefore {tx : Transaction} (h : tx ∈ w.listedBefore g) : tx.gid ≠ g :=
  of_decide_eq_true (List.mem_takeWhile_imp (p := fun tx : Transaction => decide (tx.gid ≠ g)) h)

/-- A stored transaction is listed once. -/
theorem listed_split (hw : w.Keyed) {tx : Transaction} (hs : w.txs[g]? = some tx) :
    ∃ after, InMemory.listTransactions w = w.listedBefore g ++ tx :: after ∧
      ∀ tx' ∈ after, tx'.gid ≠ g := by
  have hmem : tx ∈ InMemory.listTransactions w :=
    List.mem_map.mpr ⟨(g, tx), Std.ExtTreeMap.mem_toList_iff_getElem?_eq_some.mpr hs, rfl⟩
  have hgid : tx.gid = g := hw g tx hs
  have honce : (InMemory.listTransactions w).Pairwise fun a b => a.gid ≠ b.gid := by
    refine List.pairwise_map.mpr (Std.ExtTreeMap.distinct_keys_toList.imp_of_mem ?_)
    rintro ⟨ga, a⟩ ⟨gb, b⟩ ha hb hne hab
    rw [Std.ExtTreeMap.mem_toList_iff_getElem?_eq_some] at ha hb
    have heq : ga = gb := (hw ga a ha).symm.trans (hab.trans (hw gb b hb))
    exact hne (Std.compare_eq_iff_eq.mpr heq)
  have hsplit := List.takeWhile_append_dropWhile (p := fun tx : Transaction => decide (tx.gid ≠ g))
    (l := InMemory.listTransactions w)
  cases hrest : (InMemory.listTransactions w).dropWhile fun tx => tx.gid ≠ g with
  | nil =>
    rw [hrest, List.append_nil] at hsplit
    rw [← hsplit] at hmem
    exact absurd hgid (gid_of_listedBefore hmem)
  | cons first after =>
    rw [hrest] at hsplit
    have hfirst : first.gid = g := by
      have hhead := List.head_dropWhile_not (fun tx : Transaction => decide (tx.gid ≠ g))
        (l := InMemory.listTransactions w) (by rw [hrest]; exact List.cons_ne_nil _ _)
      simpa only [hrest, List.head_cons, decide_eq_false_iff_not, not_not] using hhead
    have htx : first = tx := by
      have hlisted : first ∈ InMemory.listTransactions w := by
        rw [← hsplit]
        exact List.mem_append_right _ (.head _)
      obtain ⟨gid, hstored⟩ := InMemory.mem_listTransactions hlisted
      rw [← hw gid first hstored, hfirst, hs] at hstored
      exact (Option.some.inj hstored).symm
    rw [← hsplit, List.pairwise_append, List.pairwise_cons] at honce
    refine ⟨after, ?_, fun tx' htx' hg => honce.2.1.1 tx' htx' (hfirst.trans hg.symm)⟩
    rw [← htx]
    exact hsplit.symm

/-- The step of `g` itself takes the outcomes that the script has for it. -/
theorem tickStep_scripted {script : Effect → World → Outcome} {tx : Transaction}
    (h : ∀ move, dtm.tickMove now tx = some move → inMemory.Scripted choose script 0 move.run w) :
    dtm.tickStep choose now tx w = dtm.tickStep script now tx w := by
  rw [Dtm.tickStep, Dtm.tickStep]
  cases hmove : dtm.tickMove now tx with
  | none => rfl
  | some move =>
    dsimp only
    rw [(h move hmove).outcome]

/-- It goes alike in two worlds that have the same of `g`. -/
theorem tickStep_view (dtm : Dtm) (now : Nat) {script : Effect → World → Outcome} (hscript : Outcomes g script)
    (hw : w.Keyed) (hw' : w'.Keyed) {tx : Transaction} (hs : w.txs[g]? = some tx)
    (hview : SameView g w w') :
    (dtm.tickStep script now tx w').2.Keyed ∧
      SameView g (dtm.tickStep script now tx w).2 (dtm.tickStep script now tx w').2 := by
  rw [Dtm.tickStep, Dtm.tickStep]
  cases hmove : dtm.tickMove now tx with
  | none => exact ⟨hw', hview⟩
  | some move =>
    have hwithin : (within g).Does move () (fun _ _ => True) := hw g tx hs ▸ within_tickMove hmove
    obtain ⟨hreply, hsame⟩ := hview.outcome (i := 0) hscript hw hwithin
    have hkeyed := outcome_keyed script move.run hw'
    dsimp only
    cases h : inMemory.outcome script 0 move.run w with
    | mk r u =>
      cases h' : inMemory.outcome script 0 move.run w' with
      | mk r' u' =>
        rw [h, h'] at hsame
        rw [h'] at hkeyed
        cases r <;> cases r' <;> exact ⟨hkeyed, hsame⟩

/-- **What a tick does with `g`**: its own step when the tick comes to it, and nothing
otherwise. -/
theorem tickEnd_view (hw : w.Keyed) {tx : Transaction} (hs : w.txs[g]? = some tx)
    {script : Effect → World → Outcome} (hscript : Outcomes g script)
    (hfollows : ∀ move, dtm.tickMove w.clock tx = some move → ∀ u, SameView g w u →
      inMemory.Scripted choose script 0 move.run u) :
    (dtm.TickReaches choose w g →
      SameView g (dtm.tickStep script w.clock tx w).2 (dtm.tickEnd choose w)) ∧
    (¬ dtm.TickReaches choose w g → SameView g w (dtm.tickEnd choose w)) := by
  obtain ⟨after, hlisted, hafter⟩ := listed_split hw hs
  obtain ⟨hkeyed, hview⟩ := tickSteps_frame dtm choose w.clock hw fun _ =>
    gid_of_listedBefore (w := w) (g := g)
  rw [tickEnd_eq, hlisted, tickSteps_append]
  refine ⟨fun hreach => ?_, fun hstop => ?_⟩
  · have hreach : (dtm.tickSteps choose w.clock (w.listedBefore g) w).1 = true := hreach
    rw [if_pos hreach, Dtm.tickSteps, tickStep_scripted fun move hmove => hfollows move hmove _ hview]
    have hown := tickStep_view dtm w.clock hscript hw hkeyed hs hview
    cases hstep : dtm.tickStep script w.clock tx
        (dtm.tickSteps choose w.clock (w.listedBefore g) w).2 with
    | mk ok u =>
      rw [hstep] at hown
      cases ok with
      | true => exact hown.2.trans (tickSteps_frame dtm choose w.clock hown.1 hafter).2
      | false => exact hown.2
  · have hstop : ¬ (dtm.tickSteps choose w.clock (w.listedBefore g) w).1 = true := hstop
    rw [if_neg hstop]
    exact hview

end Tick

/-- An XA transaction without branches. -/
def plainXa (gid : String) : Transaction := .new 0 gid .xa []

/-- A TCC that times out after five milliseconds. -/
def hastyTcc (gid : String) : Transaction :=
  { Transaction.new 0 gid .tcc [] with timeoutMillis := some 5 }

/-- Every call returns success. -/
def allOk : Effect → World → Outcome := fun _ _ => .ofOk true

theorem outcomes_allOk (g : String) : Outcomes g allOk := fun _ _ _ _ => rfl

theorem World.Keyed.setClock {w : World} (hw : w.Keyed) (now : Nat) : (w.setClock now).Keyed := hw

end RozeDtm
