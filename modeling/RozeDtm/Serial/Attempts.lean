import RozeDtm.Serial.Steady
import RozeDtm.Session.Table

/-!
# How often a branch is called

The first calls of a transaction's branches, the actions of a Saga or the Tries of a TCC, are
limited, and the branches count them.  `Trial` is such a transaction.  As long as it is tried, a
branch whose call may be repeated has been called, and has failed, as often as it says
(`Trial.Counted`); the other operations leave the calls alone and end the trial.  `Trial.Inv` is
what holds between operations that run one after another.
-/

namespace RozeDtm

open Conc

/-! ### Counting calls -/

/-- A call under the barrier `b` was issued. -/
def Event.beginsUnder (b : BranchBarrier) : Event → Bool
  | .began c => c.barrier = b
  | _ => false

/-- A call under the barrier `b` has failed. -/
def Event.failsUnder (b : BranchBarrier) : Event → Bool
  | .ended c false => c.barrier = b
  | _ => false

/-- How many calls were issued under the barrier `b`. -/
def callsUnder (b : BranchBarrier) (h : List (Nat × Event)) : Nat :=
  h.countP fun entry => entry.2.beginsUnder b

/-- How many calls under the barrier `b` have failed. -/
def failuresUnder (b : BranchBarrier) (h : List (Nat × Event)) : Nat :=
  h.countP fun entry => entry.2.failsUnder b

section Counting

variable {b : BranchBarrier} {h : List (Nat × Event)} {i : Nat} {c : BranchCall}

theorem callsUnder_quiet {e : Event} (he : e.beginsUnder b = false) :
    callsUnder b ((i, e) :: h) = callsUnder b h :=
  List.countP_cons_of_neg (by simp [he])

theorem failuresUnder_quiet {e : Event} (he : e.failsUnder b = false) :
    failuresUnder b ((i, e) :: h) = failuresUnder b h :=
  List.countP_cons_of_neg (by simp [he])

theorem callsUnder_began (hc : c.barrier = b) :
    callsUnder b ((i, .began c) :: h) = callsUnder b h + 1 :=
  List.countP_cons_of_pos (by simp [Event.beginsUnder, hc])

theorem failuresUnder_failed (hc : c.barrier = b) :
    failuresUnder b ((i, .ended c false) :: h) = failuresUnder b h + 1 :=
  List.countP_cons_of_pos (by simp [Event.failsUnder, hc])

theorem beginsUnder_gid {e : Event} (he : e.beginsUnder b = true) : e.gid = b.gid := by
  cases e with
  | began c =>
    have hc : c.barrier = b := by simpa [Event.beginsUnder] using he
    rw [← hc]
    rfl
  | _ => cases he

theorem failsUnder_gid {e : Event} (he : e.failsUnder b = true) : e.gid = b.gid := by
  cases e with
  | ended c ok =>
    cases ok with
    | true => cases he
    | false =>
      have hc : c.barrier = b := by simpa [Event.failsUnder] using he
      rw [← hc]
      rfl
  | _ => cases he

/-- The calls under a barrier are recorded with the transaction that the barrier is of. -/
theorem callsUnder_eventsOf : callsUnder b (eventsOf b.gid h) = callsUnder b h := by
  rw [callsUnder, eventsOf, List.countP_filter]
  refine List.countP_congr fun entry _ => ?_
  simpa using beginsUnder_gid

theorem failuresUnder_eventsOf : failuresUnder b (eventsOf b.gid h) = failuresUnder b h := by
  rw [failuresUnder, eventsOf, List.countP_filter]
  refine List.countP_congr fun entry _ => ?_
  simpa using failsUnder_gid

end Counting

/-! ### The invariant -/

/-- The statuses in which a transaction may still make its first calls. -/
def TransactionStatus.mayTry : TransactionStatus → Bool
  | .submitted | .succeeding | .trying => true
  | .prepared | .aborting | .succeeded | .aborted | .failed => false

/-- A transaction whose first calls are limited. -/
structure Trial where
  gid : String
  kind : TransactionKind
  options : TransactionOptions
  limit : Nat
  driven : kind = .saga ∨ kind = .tcc
  pos : 0 < limit
  bound : limit ≤ u32Max

namespace Trial

variable (T : Trial)

/-- The operation that the calls are made for. -/
def op : String := if T.kind = .saga then "action" else "try"

/-- The statuses in which the calls are made. -/
def Tries (st : TransactionStatus) : Prop :=
  st = .submitted ∨ st = if T.kind = .saga then .succeeding else .trying

/-- The barrier of a call. -/
def key (id : String) : BranchBarrier := ⟨T.gid, id, T.op⟩

/-- How often the branch `id` was called. -/
def calls (w : World) (id : String) : Nat := callsUnder (T.key id) w.history

/-- How often its call has failed. -/
def failures (w : World) (id : String) : Nat := failuresUnder (T.key id) w.history

/-- No branch was called more often than it may be. -/
def Limited (w : World) : Prop := ∀ id, T.calls w id ≤ T.limit

/-- Every call of the branch has failed, and it says how many there were. -/
structure Even (w : World) (b : Branch) : Prop where
  calls : T.calls w b.id = b.attempts
  failures : T.failures w b.id = b.attempts

/-- The branch that is called next for `id`. -/
def due (id : String) (bs : List Branch) : Option Branch :=
  bs.find? fun b => b.id = id && b.status ≠ .succeeded

/-- The branches whose barriers are free can be called, and have counted their calls. -/
def Counted (w : World) (bs : List Branch) : Prop :=
  ∀ id b, due id bs = some b → T.key id ∉ w.barriers → T.Even w b ∧ b.attempts < T.limit

/-- A record of the transaction. -/
structure Of (tx : Transaction) : Prop where
  gid : tx.gid = T.gid
  kind : tx.kind = T.kind
  options : tx.options = T.options

/-- What the stored record says of the calls. -/
structure Record (w : World) (s : Transaction) : Prop extends T.Of s where
  fresh : s.status = .submitted → ∀ id, T.calls w id = 0 ∧ T.failures w id = 0
  counted : T.Tries s.status → T.Counted w s.branches

/-- The world while an operation on the transaction is under way; `s` is the stored record. -/
structure Open (s : Transaction) (w : World) : Prop where
  keyed : w.Keyed
  limited : T.Limited w
  stored : w.txs[T.gid]? = some s

/-- What holds of the transaction between operations. -/
def Inv (w : World) : Prop := ∃ s, T.Open s w ∧ T.Record w s

variable {T}

/-- A barrier for another operation. -/
theorem ne_key {b : BranchBarrier} (ha : b.op ≠ "action") (ht : b.op ≠ "try") (id : String) :
    b ≠ T.key id := by
  rintro rfl
  by_cases hk : T.kind = .saga
  · exact ha (if_pos hk)
  · exact ht (if_neg hk)

theorem kind_ne_workflow : T.kind ≠ .workflow := by
  intro h
  rcases T.driven with hk | hk <;> rw [hk] at h <;> cases h

theorem not_tries {st : TransactionStatus} (h : st.mayTry = false) : ¬ T.Tries st := by
  rintro (rfl | rfl)
  · cases h
  · split at h <;> cases h

theorem due_eq_some {id : String} {bs : List Branch} {b : Branch} (h : due id bs = some b) :
    b ∈ bs ∧ b.id = id ∧ b.status ≠ .succeeded := by
  have hp := List.find?_some h
  rw [Bool.and_eq_true, decide_eq_true_eq, decide_eq_true_eq] at hp
  exact ⟨List.mem_of_find?_eq_some h, hp⟩

end Trial

/-! ### Worlds with the same calls -/

/-- The calls of the transaction are the same, and none of their barriers was given back. -/
structure Trial.Idle (T : Trial) (w w' : World) : Prop where
  calls : T.calls w' = T.calls w
  failures : T.failures w' = T.failures w
  barriers : ∀ id, T.key id ∈ w.barriers → T.key id ∈ w'.barriers

namespace Trial

variable {T : Trial} {w w' : World} {s : Transaction} {bs : List Branch} {b : Branch}

theorem Idle.even (h : T.Idle w w') (hb : T.Even w b) : T.Even w' b := by
  refine ⟨?_, ?_⟩
  · rw [h.calls]
    exact hb.calls
  · rw [h.failures]
    exact hb.failures

theorem Idle.limited (h : T.Idle w w') (hw : T.Limited w) : T.Limited w' := by
  rw [Limited, h.calls]
  exact hw

theorem Idle.counted (h : T.Idle w w') (hw : T.Counted w bs) : T.Counted w' bs := by
  intro id b hdue hfree
  exact (hw id b hdue fun hb => hfree (h.barriers id hb)).imp h.even fun h => h

theorem Idle.record (h : T.Idle w w') (hw : T.Record w s) : T.Record w' s where
  toOf := hw.toOf
  fresh := by
    rw [h.calls, h.failures]
    exact hw.fresh
  counted := fun ht => h.counted (hw.counted ht)

theorem idle_of_sameOf (h : SameOf T.gid w w') : T.Idle w w' where
  calls := by
    funext id
    rw [calls, calls, ← callsUnder_eventsOf, ← callsUnder_eventsOf (h := w.history)]
    exact congrArg (callsUnder (T.key id)) h.events
  failures := by
    funext id
    rw [failures, failures, ← failuresUnder_eventsOf, ← failuresUnder_eventsOf (h := w.history)]
    exact congrArg (failuresUnder (T.key id)) h.events
  barriers := fun id hb => (h.barriers (T.key id) rfl).mpr hb

theorem Inv.same (h : T.Inv w) (hk : w'.Keyed) (hsame : SameOf T.gid w w') : T.Inv w' := by
  obtain ⟨s, ho, hr⟩ := h
  have hidle := idle_of_sameOf hsame
  exact ⟨s, ⟨hk, hidle.limited ho.limited, hsame.txs.trans ho.stored⟩, hidle.record hr⟩

/-- A step that is no call of the transaction, gives back none of its barriers, and writes its
record only to end the trial. -/
def Quiet (T : Trial) : Effect → Prop
  | .updateTransaction tx => T.Of tx ∧ ¬ T.Tries tx.status
  | .registerBranch gid branch => gid = T.gid → branch.attempts = 0
  | .releaseBarrier b => ∀ id, b ≠ T.key id
  | .invokeBegin c | .invokeEnd c => ∀ id, c.barrier ≠ T.key id
  | .deleteTransactionIfUnchanged _ => False
  | _ => True

section Step

variable {o : Effect}

theorem Quiet.not_delete (h : T.Quiet o) (tx : Transaction) :
    o ≠ .deleteTransactionIfUnchanged tx := by
  rintro rfl
  exact h

theorem Quiet.event {e : Event} {id : String} (h : T.Quiet o) (he : e.OfStep o) :
    e.beginsUnder (T.key id) = false ∧ e.failsUnder (T.key id) = false := by
  cases o with
  | invokeBegin c =>
    cases he
    exact ⟨by simpa [Event.beginsUnder] using h id, rfl⟩
  | invokeEnd c =>
    obtain ⟨ok, rfl⟩ := he
    refine ⟨rfl, ?_⟩
    cases ok with
    | true => rfl
    | false => simpa [Event.failsUnder] using h id
  | barrier b =>
    obtain ⟨d, rfl⟩ := he
    exact ⟨rfl, rfl⟩
  | releaseBarrier b | registerBranch gid branch | recordWorkflowProgress gid progress =>
    cases he
    exact ⟨rfl, rfl⟩
  | _ => cases he

/-- **A quiet step leaves the calls alone.** -/
theorem Quiet.idle (h : T.Quiet o) (i : Nat) (c : Outcome) (w : World) :
    T.Idle w (InMemory.exec i o c w).2 := by
  have hcalls : T.calls (InMemory.exec i o c w).2 = T.calls w ∧
      T.failures (InMemory.exec i o c w).2 = T.failures w := by
    rcases history_step i o c w with hh | ⟨e, he, hh⟩
    · exact ⟨funext fun id => by rw [calls, hh, calls], funext fun id => by rw [failures, hh, failures]⟩
    · refine ⟨funext fun id => ?_, funext fun id => ?_⟩
      · rw [calls, hh, callsUnder_quiet (h.event he).1, calls]
      · rw [failures, hh, failuresUnder_quiet (h.event he).2, failures]
  refine ⟨hcalls.1, hcalls.2, fun id hb => ?_⟩
  cases o with
  | barrier b =>
    simp only [InMemory.exec, World.note_barriers]
    rcases barrier_cases w b with ⟨-, h⟩ | ⟨-, -, h⟩ | ⟨-, -, -, h⟩ | ⟨-, -, h⟩ <;> rw [h] <;>
      simp [hb]
  | releaseBarrier b =>
    have hne : T.key id ≠ b := fun hk => h id hk.symm
    simpa [InMemory.exec, InMemory.releaseBarrier, hne] using hb
  | _ =>
    rw [barriers_step c h.not_delete (fun _ => by simp) fun _ => by simp]
    exact hb

/-- A branch is registered before the transaction is tried, or after. -/
theorem Record.register {now : Nat} {s' : Transaction} {branch : Branch} (hr : T.Record w s)
    (hb : branch.attempts = 0) (h : appendDynamicBranch now s branch = .ok s') :
    T.Record w s' := by
  have haccepts := appendDynamicBranch_accepts h
  rcases appendDynamicBranch_ok h with ⟨rfl, -⟩ | ⟨ha, hst, hbs⟩
  · exact hr
  refine ⟨⟨ha.gid.trans hr.gid, ha.kind.trans hr.kind, ha.options.trans hr.options⟩, ?_, ?_⟩
  · rw [hst]
    exact hr.fresh
  · rw [hst]
    intro ht
    have hsub : s.status = .submitted := by
      rcases haccepts with h | h
      · exact h
      · exact absurd ht (not_tries (by rw [h]; rfl))
    intro id b hdue hfree
    rw [hbs, due, List.find?_append, Option.or_eq_some_iff] at hdue
    rcases hdue with hdue | ⟨-, hdue⟩
    · exact hr.counted ht id b hdue hfree
    · obtain ⟨hmem, -⟩ := due_eq_some hdue
      rw [List.mem_singleton.mp hmem, hb]
      obtain ⟨hc, hf⟩ := hr.fresh hsub branch.id
      exact ⟨⟨hc.trans hb.symm, hf.trans hb.symm⟩, T.pos⟩

/-- **A quiet step keeps the invariant.** -/
theorem Inv.step (h : T.Inv w) (hq : T.Quiet o) (i : Nat) (c : Outcome) :
    T.Inv (InMemory.exec i o c w).2 := by
  obtain ⟨s, ho, hr⟩ := h
  have hidle := hq.idle i c w
  have hk : (InMemory.exec i o c w).2.Keyed := ho.keyed.exec i c
  have hlim := hidle.limited ho.limited
  rcases txs_step i c w T.gid hq.not_delete with h | ⟨tx, rfl, hg, h⟩ | ⟨tx, rfl, hg, hn, h⟩ |
    ⟨s₁, s', hs, ha, h⟩
  · exact ⟨s, ⟨hk, hlim, h.trans ho.stored⟩, hidle.record hr⟩
  · obtain ⟨⟨hg, hkind, hoptions⟩, ht⟩ := hq
    refine ⟨_, ⟨hk, hlim, h⟩, ⟨hg, hkind, hoptions⟩, fun hst => ?_, fun h => absurd h ht⟩
    exact absurd (Or.inl hst) ht
  · cases hn.symm.trans ho.stored
  · cases hs.symm.trans ho.stored
    refine ⟨s', ⟨hk, hlim, h⟩, ?_⟩
    have hne : s.kind ≠ .workflow := by
      rw [hr.kind]
      exact kind_ne_workflow
    cases o with
    | registerBranch gid branch => exact (hidle.record hr).register (hq ha.1) ha.2
    | recordWorkflowProgress gid progress =>
      obtain ⟨_, hcb, -⟩ := bind_eq_ok ha.2
      exact absurd (ensureCallbackWorkflow_ok hcb) hne
    | finishWorkflow gid status reason result =>
      obtain ⟨_, hcb, -⟩ := bind_eq_ok ha.2
      exact absurd (ensureCallbackWorkflow_ok hcb) hne
    | deferWorkflowRecovery gid delay =>
      obtain ⟨_, hcb, -⟩ := bind_eq_ok ha.2
      exact absurd (ensureCallbackWorkflow_ok hcb) hne
    | _ => exact ha.elim

end Step

/-- The time does not matter. -/
theorem idle_setClock (T : Trial) (w : World) (now : Nat) : T.Idle w (w.setClock now) :=
  ⟨rfl, rfl, fun _ hb => hb⟩

theorem Open.setClock (h : T.Open s w) (now : Nat) : T.Open s (w.setClock now) :=
  ⟨h.keyed, h.limited, h.stored⟩

theorem Record.setClock (h : T.Record w s) (now : Nat) : T.Record (w.setClock now) s :=
  (idle_setClock T w now).record h

theorem Inv.setClock (h : T.Inv w) (now : Nat) : T.Inv (w.setClock now) :=
  h.imp fun _ h => ⟨h.1.setClock now, h.2.setClock now⟩

/-- **Writing the record of the transaction.** -/
theorem runs_persistTrial {φ : World → Prop} {i : Nat} {tx : Transaction}
    {Q : Transaction → World → Prop} {E : Err → World → Prop} (ho : T.Open s w)
    (hr : T.Record w tx) (hφ : ∀ now, φ (w.setClock now))
    (h : ∀ now w', T.Idle w w' → w'.barriers = w.barriers → w'.history = w.history →
      T.Open (bumpTransactionRevision now tx) w' →
      T.Record w' (bumpTransactionRevision now tx) → Q tx.written w') :
    (alone fun _ _ => True).Runs φ i (persistTransaction tx) Q E w := by
  refine runs_persistTransaction hφ fun now _ => ?_
  have hidle : T.Idle w ((w.setClock now).put (bumpTransactionRevision now tx)) :=
    ⟨rfl, rfl, fun _ hb => hb⟩
  refine h now _ hidle rfl rfl ⟨?_, hidle.limited ho.limited, ?_⟩ ?_
  · exact World.Keyed.put (w := w.setClock now) ho.keyed _
  · have hg : (bumpTransactionRevision now tx).gid = T.gid := hr.gid
    rw [World.put_txs, hg]
    exact Std.ExtTreeMap.getElem?_insert_self
  · have hr' := hidle.record hr
    exact ⟨⟨hr'.gid, hr'.kind, hr'.options⟩, hr'.fresh, hr'.counted⟩

/-! ### Operations that are no trial -/

/-- The programs that keep the invariant, and what is said of the failures. -/
def Keeps (T : Trial) (F : (String → Nat) → Prop) (i : Nat) {α : Type} (x : Act α) : Prop :=
  ∀ w, T.Inv w → F (T.failures w) →
    (alone fun _ _ => True).Runs (fun w => T.Limited w ∧ F (T.failures w)) i x
      (fun _ w => T.Inv w ∧ F (T.failures w)) (fun _ w => T.Inv w ∧ F (T.failures w)) w

section Programs

variable {F : (String → Nat) → Prop} {i : Nat} {α : Type}

theorem Inv.limited (h : T.Inv w) : T.Limited w := by
  obtain ⟨s, ho, -⟩ := h
  exact ho.limited

/-- What is done to other transactions does not matter. -/
theorem steady (T : Trial) (F : (String → Nat) → Prop) :
    Steady T.gid (fun w => T.Limited w ∧ F (T.failures w))
      (fun w => T.Inv w ∧ F (T.failures w)) where
  keyed := fun hw => by
    obtain ⟨s, ho, -⟩ := hw.1
    exact ho.keyed
  clock := fun now hw => ⟨hw.1.setClock now, hw.2⟩
  same := fun hw hk hsame => by
    refine ⟨hw.1.same hk hsame, ?_⟩
    rw [(idle_of_sameOf hsame).failures]
    exact hw.2
  shows := fun hw => ⟨hw.1.limited, hw.2⟩

theorem closed_keeps (T : Trial) (F : (String → Nat) → Prop) (i : Nat) :
    Act.Closed fun x => T.Keeps F i x where
  pure := fun _ _ hw hF => ⟨hw, hF⟩
  throw := fun _ _ hw hF => ⟨hw, hF⟩
  bind := fun hx hf w hw hF => Machine.runs_bind.mpr
    (Machine.Runs.mono (hx w hw hF) (fun a w' h => hf a w' h.1 h.2) fun _ _ h => h)

/-- One quiet step, whose answer may be an error. -/
theorem keeps_step {o : Effect} (f : o.Reply → Except Err α) (hq : T.Quiet o) :
    T.Keeps F i (ExceptT.mk (Prog.step o fun r => Prog.pure (f r)) : Act α) := by
  intro w hw hF
  have hend : (alone fun _ _ => True).Ends (fun w => T.Limited w ∧ F (T.failures w)) i
      (Prog.step o fun r => Prog.pure (f r)) (fun _ w => T.Inv w ∧ F (T.failures w)) w := by
    intro w₁ hd
    obtain ⟨now, rfl⟩ := drifts_clock hd
    have hw₁ := hw.setClock now
    refine ⟨⟨hw₁.limited, hF⟩, fun _ c => ⟨hw₁.step hq i c, ?_⟩⟩
    exact (hq.idle i c (w.setClock now)).failures ▸ hF
  exact hend.mono fun r _ h => by cases r <;> exact h

theorem keeps_call {o : Effect} (hq : T.Quiet o) : T.Keeps F i (Act.call o) :=
  keeps_step Except.ok hq

theorem keeps_loadTransaction {gid : String} : T.Keeps F i (loadTransaction gid) :=
  (closed_keeps T F i).bind (keeps_call (o := .getTransaction gid) trivial)
    fun _ => (closed_keeps T F i).ofOption _ _

/-- Writing a record that ends the trial. -/
theorem keeps_persist {tx : Transaction} (htx : T.Of tx) (ht : ¬ T.Tries tx.status) :
    T.Keeps F i (persistTransaction tx) :=
  (closed_keeps T F i).bind (keeps_step (o := .updateTransaction tx) id ⟨htx, ht⟩)
    fun _ => (closed_keeps T F i).pure _

/-- **An operation that starts with reading the record.** -/
theorem keeps_load {f : Transaction → Act α} (h : ∀ tx, T.Of tx → T.Keeps F i (f tx)) :
    T.Keeps F i (loadTransaction T.gid >>= f) := by
  intro w hw hF
  obtain ⟨s, ho, hr⟩ := id hw
  refine Machine.runs_bind.mpr (runs_loadTransaction
    (fun now => ⟨(hw.setClock now).limited, hF⟩) (fun now tx htx => ?_) fun now _ _ =>
      ⟨hw.setClock now, hF⟩)
  cases ho.stored.symm.trans htx
  exact h s hr.toOf _ (hw.setClock now) hF

/-- The steps of a batch that calls for another operation. -/
theorem keeps_batches (T : Trial) (F : (String → Nat) → Prop) (i : Nat) :
    PermitsBatches (fun b => ∀ id, b ≠ T.key id) fun x => T.Keeps F i x where
  toClosed := closed_keeps T F i
  clock := keeps_call trivial
  joinNext := fun _ => keeps_call trivial
  invokeBegin := fun _ hc => keeps_call hc
  invokeEnd := fun _ hc => keeps_call hc
  barrier := fun _ _ => keeps_call trivial
  releaseBarrier := fun _ hb => keeps_call hb

end Programs

end Trial

end RozeDtm
