import RozeDtm.InMemory.Snapshot

/-!
# Completeness of the second phase

The loops of `confirm_tcc`, `cancel_tcc`, `commit_xa`, `rollback_xa` and of the
sequential `dispatch_message` take a barrier that is taken for a call that was made.  A
barrier is taken before the call, so an operation that is cut off in between leaves one
without a call, and the next operation finishes the transaction without it
(`phase2_skips_call`).  When a barrier that is found taken stands for a call that has
returned success, or for a null compensation, the second phase is complete
(`phase2_complete`).
-/

namespace RozeDtm

open Conc

/-! ### What a barrier stands for -/

/-- The cancellation of a branch is settled: its cancel call has returned success, or the
barrier is that of a null compensation and no branch of that id in `s` wants one. -/
def CancelSettled (s : Transaction) (h : List (Nat × Event)) (b : BranchBarrier) : Prop :=
  Succeeded h b ∨ ((ledger h b).map Prod.snd = some .nulled ∧
    ∀ a ∈ s.branches, a.id = b.branchId → a.action ≠ "")

/-- The barriers of the second phase that are settled by a call only.  The concurrent
`dispatch_message` gives up when it finds one taken. -/
def needsCall (s : Transaction) (b : BranchBarrier) : Bool :=
  b.op = "confirm" || b.op = "commit" || b.op = "rollback" ||
    (b.op = "message" && !s.options.concurrent)

/-- A barrier of the second phase of `s` stands for a call that has returned success, or for
a null compensation. -/
def Proven (s : Transaction) (h : List (Nat × Event)) (b : BranchBarrier) : Prop :=
  (needsCall s b = true → Succeeded h b) ∧ (b.op = "cancel" → CancelSettled s h b)

instance (s : Transaction) (h : List (Nat × Event)) (b : BranchBarrier) :
    Decidable (CancelSettled s h b) :=
  inferInstanceAs (Decidable (_ ∨ (_ ∧ ∀ a ∈ s.branches, _ → _)))

instance (s : Transaction) (h : List (Nat × Event)) (b : BranchBarrier) :
    Decidable (Proven s h b) :=
  inferInstanceAs (Decidable ((_ → _) ∧ (_ → _)))

/-- A barrier of the second phase of `g` that a step finds taken is proven. -/
def DuplicatesProven (g : String) (o : Effect) (w : World) : Prop :=
  ∀ b ∈ o.barrier?, b.gid = g → b ∈ w.barriers → ∀ s ∈ w.txs[g]?, Proven s w.history b

instance (g : String) (o : Effect) (w : World) : Decidable (DuplicatesProven g o w) :=
  inferInstanceAs (Decidable (∀ b ∈ o.barrier?, _ → _ → ∀ s ∈ w.txs[g]?, _))

/-- What the second phase of a transaction is for. -/
structure Phase2Complete (h : List (Nat × Event)) (s : Transaction) : Prop where
  confirmed : s.kind = .tcc → s.status = .succeeded →
    ∀ b ∈ s.branches, Succeeded h (b.key s.gid "confirm")
  committed : s.kind = .xa → s.status = .succeeded →
    ∀ b ∈ s.branches, Succeeded h (b.key s.gid "commit")
  delivered : s.kind = .message → s.status = .succeeded →
    ∀ b ∈ s.branches, Succeeded h (b.key s.gid "message")
  cancelled : s.kind = .tcc → s.status = .aborted →
    ∀ b ∈ s.branches, Succeeded h (b.key s.gid "try") ∨ b.action = "" →
      Succeeded h (b.key s.gid "cancel")
  rolledBack : s.kind = .xa → s.status = .aborted →
    ∀ b ∈ s.branches, Succeeded h (b.key s.gid "rollback")

/-! ### The transaction stays what it is -/

/-- The same transaction as `s₀`, however far it has come. -/
structure SameTransaction (s₀ s : Transaction) : Prop where
  gid : s.gid = s₀.gid
  kind : s.kind = s₀.kind
  options : s.options = s₀.options
  definitions : s.branches.map Branch.definition = s₀.branches.map Branch.definition

section Same

variable {s₀ s : Transaction} {σ : Session} {h : List (Nat × Event)} {b : BranchBarrier}

theorem SameTransaction.exists_branch (hs : SameTransaction s₀ s) {a : Branch}
    (ha : a ∈ s₀.branches) : ∃ a' ∈ s.branches, a'.definition = a.definition := by
  have hm : a.definition ∈ s.branches.map Branch.definition := by
    rw [hs.definitions]
    exact List.mem_map_of_mem ha
  obtain ⟨a', ha', h⟩ := List.mem_map.mp hm
  exact ⟨a', ha', h⟩

theorem SameTransaction.symm (hs : SameTransaction s₀ s) : SameTransaction s s₀ :=
  ⟨hs.gid.symm, hs.kind.symm, hs.options.symm, hs.definitions.symm⟩

theorem SameTransaction.cancelSettled (hs : SameTransaction s₀ s) (hc : CancelSettled s h b) :
    CancelSettled s₀ h b := by
  refine hc.imp id fun ⟨hn, ha⟩ => ⟨hn, fun a hm hid => ?_⟩
  obtain ⟨a', hm', hd⟩ := hs.exists_branch hm
  have := ha a' hm' ((Branch.id_eq hd).trans hid)
  rwa [Branch.action_eq hd] at this

theorem SameTransaction.proven (hs : SameTransaction s₀ s) (hp : Proven s h b) :
    Proven s₀ h b := by
  refine ⟨fun hn => hp.1 ?_, fun hop => hs.cancelSettled (hp.2 hop)⟩
  rw [needsCall, ← hs.options] at hn
  exact hn

theorem definitions_of_forall₂ {base : Transaction} {st : TransactionStatus}
    {as bs : List Branch} (hf : List.Forall₂ (BranchWrite σ base st) as bs) :
    bs.map Branch.definition = as.map Branch.definition := by
  induction hf with
  | nil => rfl
  | cons hr _ ih => rw [List.map_cons, List.map_cons, hr.definition, ih]

theorem SameTransaction.write {base tx : Transaction} (hs : SameTransaction s₀ base)
    (hw : Writes σ base tx) : SameTransaction s₀ tx :=
  ⟨hw.head.gid.trans hs.gid, hw.head.kind.trans hs.kind, hw.head.options.trans hs.options,
    (definitions_of_forall₂ hw.branches).trans hs.definitions⟩

/-- What a write says about each branch of the transaction. -/
theorem Writes.branch {base tx : Transaction} (hw : Writes σ base tx)
    (hs : SameTransaction s₀ base) {a : Branch} (ha : a ∈ s₀.branches) :
    ∃ a' b', a'.definition = a.definition ∧ b' ∈ tx.branches ∧
      BranchWrite σ base tx.status a' b' := by
  obtain ⟨a', ha', hd⟩ := hs.exists_branch ha
  obtain ⟨b', hb', hbw⟩ := exists_of_forall₂_left hw.branches ha'
  exact ⟨a', b', hd, hb', hbw⟩

end Same

/-! ### The invariant -/

/-- The branches of a Message that count as delivered were delivered. -/
def Delivered (h : List (Nat × Event)) (s : Transaction) : Prop :=
  s.kind = .message →
    ∀ b ∈ s.branches, b.status = .succeeded → Succeeded h (b.key s.gid "message")

/-- What the stored record says about the calls: `s₀` is the transaction at the start. -/
structure Progress (s₀ : Transaction) (h : List (Nat × Event)) (s : Transaction) : Prop where
  same : SameTransaction s₀ s
  delivered : Delivered h s
  succeeded : s.status = .succeeded → ∀ a ∈ s₀.branches,
    (s₀.kind = .tcc → Succeeded h (a.key s₀.gid "confirm")) ∧
    (s₀.kind = .xa → Succeeded h (a.key s₀.gid "commit")) ∧
    (s₀.kind = .message → Succeeded h (a.key s₀.gid "message"))
  aborted : s.status = .aborted → ∀ a ∈ s₀.branches,
    (s₀.kind = .tcc → CancelSettled s₀ h (a.key s₀.gid "cancel")) ∧
    (s₀.kind = .xa → Succeeded h (a.key s₀.gid "rollback"))

/-- The invariant: a null compensation keeps the Try of its branch out, and the stored record
tells the truth about the calls. -/
structure Phase2Inv (s₀ : Transaction) (w : World) : Prop where
  keyed : w.Keyed
  nulled : ∀ b, (ledger w.history b).map Prod.snd = some .nulled →
    b.op = "cancel" ∧ (⟨b.gid, b.branchId, "try"⟩ : BranchBarrier) ∉ w.barriers
  stored : ∃ s, w.txs[s₀.gid]? = some s ∧ Progress s₀ w.history s

/-- What an operation knows: its snapshot is of the transaction, and the barriers that it has
found taken are proven. -/
structure Phase2Own (s₀ : Transaction) (σ : Session) (w : World) : Prop where
  snap : ∀ base, σ.snap = some base → base.gid = s₀.gid →
    SameTransaction s₀ base ∧ Delivered w.history base
  dup : ∀ b, σ.dup b → b.gid = s₀.gid → Proven s₀ w.history b

section Step

variable {s₀ : Transaction} {σ : Session} {w : World} {o : Effect} {i : Nat}

theorem Delivered.exec {c : Outcome} {s : Transaction} (h : Delivered w.history s) :
    Delivered (InMemory.exec i o c w).2.history s :=
  fun hk b hb hs => succeeded_exec (h hk b hb hs)

/-- **A settled cancellation stays settled.** -/
theorem CancelSettled.exec {c : Outcome} {b : BranchBarrier} (hb : b.gid = s₀.gid)
    (hw : LedgerInv w) (hl : LedgerOwn i σ w) (ho : Phase2Own s₀ σ w) (hp : coordinator.pre σ o)
    (h : CancelSettled s₀ w.history b) :
    CancelSettled s₀ (InMemory.exec i o c w).2.history b := by
  rcases h with h | ⟨hn, ha⟩
  · exact Or.inl (succeeded_exec h)
  have hstep := (ledger_step c hw hl (coordinator_le_registering.pre hp)).2.inv.sound
  rcases history_step i o c w with hh | ⟨e, he, hh⟩ <;> rw [hh] at hstep ⊢
  · exact Or.inr ⟨hn, ha⟩
  obtain ⟨⟨j, k₀⟩, hentry, hk₀⟩ := Option.map_eq_some_iff.mp hn
  cases hk₀
  rcases ledger_cons_cases i e w.history b with ⟨k, hm, -⟩ | ⟨-, hk⟩
  · -- only a call may follow, and it would be of a branch with an empty action
    have hf := hstep.1 b k hm
    rw [hentry] at hf
    match k with
    | some .taken | some .nulled | some .done | some .failed => cases hf
    | none => rcases hf with hf | hf <;> cases hf
    | some .calling =>
      obtain ⟨call, rfl, rfl⟩ := began_of_mark hm
      cases began_ofStep he
      rcases hp with hp | ⟨-, base, hbase, hgid, a, hm, hid, haction⟩
      · have := (hl _ _ hp).symm.trans hentry
        cases this
      · obtain ⟨hsame, -⟩ := ho.snap base hbase (hgid.trans hb)
        obtain ⟨a', hm', hd⟩ := hsame.symm.exists_branch hm
        exact absurd ((Branch.action_eq hd).trans haction)
          (ha a' hm' ((Branch.id_eq hd).trans hid))
  · exact Or.inr ⟨by rw [hk, hn], ha⟩

theorem Proven.exec {c : Outcome} {b : BranchBarrier} (hb : b.gid = s₀.gid)
    (hw : LedgerInv w) (hl : LedgerOwn i σ w) (ho : Phase2Own s₀ σ w) (hp : coordinator.pre σ o)
    (h : Proven s₀ w.history b) : Proven s₀ (InMemory.exec i o c w).2.history b :=
  ⟨fun hn => succeeded_exec (h.1 hn), fun hop => (h.2 hop).exec hb hw hl ho hp⟩

theorem Progress.exec {c : Outcome} {s : Transaction} (hw : LedgerInv w) (hl : LedgerOwn i σ w)
    (ho : Phase2Own s₀ σ w) (hp : coordinator.pre σ o) (h : Progress s₀ w.history s) :
    Progress s₀ (InMemory.exec i o c w).2.history s := by
  refine ⟨h.same, h.delivered.exec, fun hs a ha => ?_, fun hs a ha => ?_⟩
  · obtain ⟨h1, h2, h3⟩ := h.succeeded hs a ha
    exact ⟨fun hk => succeeded_exec (h1 hk), fun hk => succeeded_exec (h2 hk),
      fun hk => succeeded_exec (h3 hk)⟩
  · obtain ⟨h1, h2⟩ := h.aborted hs a ha
    exact ⟨fun hk => (h1 hk).exec rfl hw hl ho hp, fun hk => succeeded_exec (h2 hk)⟩

/-- A write that makes a TCC Aborted finds every cancellation settled. -/
theorem cancelled_write {tx base : Transaction} (hl : LedgerOwn i σ w)
    (ho : Phase2Own s₀ σ w) (hgid : base.gid = s₀.gid) (hwr : Writes σ base tx)
    (hsame : SameTransaction s₀ base) (hk : base.kind = .tcc) (hs : tx.status = .aborted)
    {a : Branch} (ha : a ∈ s₀.branches) :
    CancelSettled s₀ w.history (a.key s₀.gid "cancel") := by
  -- what the write says of a branch with the id of `a`
  have each {d : Branch} (hd : d ∈ s₀.branches) (hid : d.id = a.id) :
      CancelSettled s₀ w.history (a.key s₀.gid "cancel") ∨
        (σ.hold (a.key s₀.gid "cancel") = some .nulled ∧ d.action ≠ "") := by
    obtain ⟨d', b', hdef, -, hbw⟩ := hwr.branch hsame hd
    have hkey : d'.key base.gid "cancel" = a.key s₀.gid "cancel" := by
      rw [hgid, Branch.key_eq hdef, Branch.key, Branch.key, hid]
    have hc := hbw.cancelled hk hs
    rw [hkey, Branch.action_eq hdef] at hc
    rcases hc with (hc | hc) | hc
    · exact Or.inl (Or.inl (succeeded_of_ledger (hl _ _ hc)))
    · exact Or.inl ((ho.dup _ hc rfl).2 rfl)
    · exact Or.inr hc
  rcases each ha rfl with h | ⟨hn, -⟩
  · exact h
  · have hledger := hl _ _ hn
    by_cases hall : ∀ d ∈ s₀.branches, d.id = a.id → d.action ≠ ""
    · exact Or.inr ⟨by rw [hledger]; rfl, hall⟩
    · simp only [not_forall] at hall
      obtain ⟨d, hd, hid, haction⟩ := hall
      exact (each hd hid).resolve_right fun h => haction h.2

/-- **A write tells the truth about the calls.** -/
theorem Progress.write {tx base : Transaction} (hl : LedgerOwn i σ w)
    (ho : Phase2Own s₀ σ w) (hg : tx.gid = s₀.gid) (hb : σ.snap = some base)
    (hwr : Writes σ base tx) : Progress s₀ w.history tx := by
  have hgid : base.gid = s₀.gid := hwr.head.gid.symm.trans hg
  obtain ⟨hsame, hdel⟩ := ho.snap base hb hgid
  have done {b : BranchBarrier} (h : σ.Done b) : Succeeded w.history b :=
    succeeded_of_ledger (hl b _ h)
  have settled {b : BranchBarrier} (hbg : b.gid = s₀.gid) (hn : needsCall s₀ b = true)
      (h : σ.Settled b) : Succeeded w.history b :=
    h.elim done fun h => (ho.dup b h hbg).1 hn
  have key {a a' : Branch} (hd : a'.definition = a.definition) (op : String) :
      a'.key base.gid op = a.key s₀.gid op := by rw [hgid, Branch.key_eq hd]
  have delivered : Delivered w.history tx := by
    intro hk b hm hs
    obtain ⟨a, ha, hbw⟩ := exists_of_forall₂_left hwr.branches.flip hm
    have hkb : base.kind = .message := hwr.head.kind.symm.trans hk
    rw [hwr.head.gid, Branch.key_eq hbw.definition]
    rcases hbw.delivered hkb hs with h | h
    · exact hdel hkb a ha h
    · exact done h
  refine ⟨hsame.write hwr, delivered, fun hs a ha => ?_, fun hs a ha => ?_⟩
  · obtain ⟨a', b', hd, hb', hbw⟩ := hwr.branch hsame ha
    refine ⟨fun hk => ?_, fun hk => ?_, fun hk => ?_⟩
    · rw [← key hd]
      exact settled hgid rfl (hbw.confirmed (hsame.kind.trans hk) hs)
    · rw [← key hd]
      exact settled hgid rfl (hbw.committed (hsame.kind.trans hk) hs)
    · have hkb : base.kind = .message := hsame.kind.trans hk
      rcases hbw.allDelivered hkb hs with h | ⟨hc, h⟩
      · rw [← key (hbw.definition.trans hd), ← hwr.head.gid]
        exact delivered (hwr.head.kind.trans hkb) b' hb' h
      · rw [← key hd]
        refine settled hgid ?_ (Or.inr h)
        rw [hsame.options] at hc
        simp [needsCall, hc]
  · refine ⟨fun hk => ?_, fun hk => ?_⟩
    · exact cancelled_write hl ho hgid hwr hsame (hsame.kind.trans hk) hs ha
    · obtain ⟨a', b', hd, hb', hbw⟩ := hwr.branch hsame ha
      rw [← key hd]
      exact settled hgid rfl (hbw.rolledBack (hsame.kind.trans hk) hs)

theorem nulled_of_mark {e : Event} {b : BranchBarrier} (he : e.mark = some (b, some .nulled)) :
    e = .decided b .skipNullCompensation := by
  rcases e with ⟨_, _ | _ | _ | _⟩ | _ | call | ⟨_, _ | _⟩ | _ | _ <;> simp [Event.mark] at he
  rw [he]

/-- A null compensation keeps the Try of its branch out. -/
theorem nulled_step (c : Outcome) (hp : coordinator.pre σ o) (hl : LedgerInv w)
    (hn : ∀ b, (ledger w.history b).map Prod.snd = some .nulled →
      b.op = "cancel" ∧ (⟨b.gid, b.branchId, "try"⟩ : BranchBarrier) ∉ w.barriers)
    {b : BranchBarrier}
    (hb : (ledger (InMemory.exec i o c w).2.history b).map Prod.snd = some .nulled) :
    b.op = "cancel" ∧
      (⟨b.gid, b.branchId, "try"⟩ : BranchBarrier) ∉ (InMemory.exec i o c w).2.barriers := by
  cases o with
  | barrier b' =>
    simp only [InMemory.exec] at hb ⊢
    rcases barrier_cases w b' with ⟨-, h⟩ | ⟨-, -, h⟩ | ⟨-, hop, ht, h⟩ | ⟨-, ht, h⟩ <;>
      rw [h] at hb ⊢
    · exact hn b hb
    · exact hn b hb
    · -- the Try barrier is not the cancel barrier that is taken here
      have hne (b : BranchBarrier) : (⟨b.gid, b.branchId, "try"⟩ : BranchBarrier) ≠ b' := by
        rintro rfl
        exact absurd (show "try" = "cancel" from hop) (by decide)
      simp only [World.note_barriers, Finset.mem_insert, not_or]
      by_cases hbb : b' = b
      · subst hbb
        exact ⟨hop, hne _, ht⟩
      · rw [World.note_history, ledger_cons_ne rfl hbb] at hb
        exact ⟨(hn b hb).1, hne _, (hn b hb).2⟩
    · have hbb : b' ≠ b := by
        rintro rfl
        rw [World.note_history, ledger_cons_mark rfl] at hb
        cases hb
      rw [World.note_history, ledger_cons_ne rfl hbb] at hb
      obtain ⟨hop, hnt⟩ := hn b hb
      simp only [World.note_barriers, Finset.mem_insert, not_or]
      refine ⟨hop, ?_, hnt⟩
      -- a Try is refused while the cancel barrier is taken
      rintro rfl
      refine ht rfl (hl.held _ fun h => ?_)
      have hcancel : b = ⟨b.gid, b.branchId, "cancel"⟩ := by rw [← hop]
      rw [← hcancel] at h
      rw [h] at hb
      cases hb
  | releaseBarrier b' =>
    simp only [InMemory.exec] at hb ⊢
    have hbb : b' ≠ b := by
      rintro rfl
      rw [World.note_history, ledger_cons_mark rfl] at hb
      cases hb
    rw [World.note_history, ledger_cons_ne rfl hbb] at hb
    refine ⟨(hn b hb).1, fun h => (hn b hb).2 ?_⟩
    exact Finset.mem_of_mem_erase h
  | _ =>
    rw [barriers_step c (not_delete (coordinator_le_registering.pre hp)) (fun _ => by simp)
      fun _ => by simp]
    refine hn b ?_
    rcases history_step i _ c w with hh | ⟨e, he, hh⟩ <;> rw [hh] at hb
    · exact hb
    · rcases ledger_cons_cases i e w.history b with ⟨k, hm, hk⟩ | ⟨-, hk⟩ <;> rw [hk] at hb
      · cases k with
        | none => cases hb
        | some k =>
          cases hb
          rw [nulled_of_mark hm] at he
          simp [Event.OfStep] at he
      · exact hb

theorem Progress.of_bump {h : List (Nat × Event)} {tx : Transaction} (now : Nat)
    (hp : Progress s₀ h tx) : Progress s₀ h (bumpTransactionRevision now tx) :=
  ⟨⟨hp.same.gid, hp.same.kind, hp.same.options, hp.same.definitions⟩, hp.delivered,
    hp.succeeded, hp.aborted⟩

theorem Progress.amended {h : List (Nat × Event)} {s s' : Transaction} (hp : Progress s₀ h s)
    (ha : Amended s s') (hb : s'.branches = s.branches) : Progress s₀ h s' := by
  have hsame : SameTransaction s₀ s' :=
    ⟨ha.gid.trans hp.same.gid, ha.kind.trans hp.same.kind, ha.options.trans hp.same.options,
      by rw [hb]; exact hp.same.definitions⟩
  have hdel : Delivered h s' := by
    rw [Delivered, ha.kind, ha.gid, hb]
    exact hp.delivered
  rcases ha.status with hst | hk
  · exact ⟨hsame, hdel, hst ▸ hp.succeeded, hst ▸ hp.aborted⟩
  · -- nothing is said of the status of a Workflow
    have hk : s₀.kind = .workflow := hp.same.kind.symm.trans hk
    refine ⟨hsame, hdel, fun _ a _ => ?_, fun _ a _ => ?_⟩ <;> simp [hk]

/-- **The invariant through one step.** -/
theorem Phase2Inv.exec (c : Outcome) (hl : LedgerInv w) (hlo : LedgerOwn i σ w)
    (hw : Phase2Inv s₀ w) (ho : Phase2Own s₀ σ w) (hp : coordinator.pre σ o) :
    Phase2Inv s₀ (InMemory.exec i o c w).2 := by
  have hpr := coordinator_le_registering.pre hp
  refine ⟨hw.keyed.exec i c, fun b => nulled_step c hp hl hw.nulled, ?_⟩
  obtain ⟨s, hs, hprog⟩ := hw.stored
  rcases txs_step i c w s₀.gid (not_delete hpr) with h | ⟨tx, rfl, hg, h⟩ | ⟨tx, rfl, hg, hn, h⟩ |
    ⟨s₁, s', hs₁, ha, h⟩
  · exact ⟨s, h.trans hs, hprog.exec hl hlo ho hp⟩
  · obtain ⟨base, hb, hwr⟩ := hp
    exact ⟨_, h, (Progress.write hlo ho hg hb hwr).of_bump _⟩
  · exact hp.elim
  · cases hs.symm.trans hs₁
    refine ⟨s', h, Progress.exec hl hlo ho hp ?_⟩
    rcases ha.branches hp with rfl | ⟨ha, hb⟩
    · exact hprog
    · exact hprog.amended ha hb

/-- What an operation knows stays true when another one takes a step. -/
theorem Phase2Own.other (c : Outcome) {τ : Session} (hl : LedgerInv w) (hlo : LedgerOwn i σ w)
    (ho : Phase2Own s₀ σ w) (hp : coordinator.pre σ o) (hτ : Phase2Own s₀ τ w) :
    Phase2Own s₀ τ (InMemory.exec i o c w).2 :=
  ⟨fun base hb hg => (hτ.snap base hb hg).imp id Delivered.exec,
    fun b hd hb => (hτ.dup b hd hb).exec hb hl hlo ho hp⟩

/-- **What an operation knows through a step of its own.** -/
theorem Phase2Own.next (c : Outcome) (hl : LedgerInv w) (hlo : LedgerOwn i σ w)
    (hw : Phase2Inv s₀ w) (ho : Phase2Own s₀ σ w) (hp : coordinator.pre σ o)
    (hd : DuplicatesProven s₀.gid o w) :
    Phase2Own s₀ (coordinator.next σ o (InMemory.exec i o c w).1)
      (InMemory.exec i o c w).2 := by
  have hkeep := Phase2Own.other c hl hlo ho hp ho
  have same {σ' : Session} (h : σ'.snap = σ.snap) (h' : ∀ b, σ'.dup b → σ.dup b) :
      Phase2Own s₀ σ' (InMemory.exec i o c w).2 :=
    ⟨fun base hb => hkeep.snap base (h ▸ hb), fun b hb => hkeep.dup b (h' b hb)⟩
  obtain ⟨s, hs, hprog⟩ := hw.stored
  cases o with
  | getTransaction gid =>
    refine ⟨fun base hb hg => ?_, hkeep.dup⟩
    have hb : w.txs[gid]? = some base := hb
    rw [← hw.keyed gid base hb, hg] at hb
    cases hs.symm.trans hb
    exact ⟨hprog.same, hprog.delivered⟩
  | updateTransaction tx =>
    refine ⟨fun base hb hg => ?_, hkeep.dup⟩
    cases hb
    have hg : tx.gid = s₀.gid := hg
    obtain ⟨base, hb, hwr⟩ := hp
    have hp := Progress.write hlo ho hg hb hwr
    exact ⟨⟨hp.same.gid, hp.same.kind, hp.same.options, hp.same.definitions⟩, hp.delivered⟩
  | barrier b =>
    have hnew (hg : b.gid = s₀.gid) (h : Proven s₀ w.history b) :
        Proven s₀ (InMemory.exec i (.barrier b) c w).2.history b := h.exec hg hl hlo ho hp
    simp only [InMemory.exec] at hkeep hnew ⊢
    rcases barrier_cases w b with ⟨hb, h⟩ | ⟨-, -, h⟩ | ⟨-, -, -, h⟩ | ⟨-, -, h⟩ <;>
      rw [h] at hkeep hnew ⊢
    · refine ⟨hkeep.snap, fun b' hb' hg => ?_⟩
      rcases hb' with rfl | hb'
      · exact hnew hg (hprog.same.proven (hd b' rfl hg hb s hs))
      · exact hkeep.dup b' hb' hg
    · exact hkeep
    · exact ⟨hkeep.snap, hkeep.dup⟩
    · exact ⟨hkeep.snap, hkeep.dup⟩
  | invokeEnd call =>
    refine same ?_ ?_ <;> simp only [coordinator, Session.next] <;> split
    · rfl
    · rfl
    · exact fun _ h => h
    · exact fun _ h => h
  | _ => exact same rfl fun _ h => h

end Step

/-! ### The outline -/

/-- The runs in which the barriers of the second phase of `g` that are found taken are
proven. -/
abbrev provenRuns (g : String) : Machine effects World Outcome :=
  inMemory.restrict (DuplicatesProven g)

/-- The ledger in these runs. -/
def provenLedger (g : String) : Outline (provenRuns g) coordinator Session.start :=
  (ledgerOutline.strengthen coordinator_le_registering).restrict (DuplicatesProven g)

/-- The invariant of the second phase on top of it. -/
def phase2Layer (s₀ : Transaction) : (provenLedger s₀.gid).Layer where
  inv := Phase2Inv s₀
  own := fun _ σ w => Phase2Own s₀ σ w
  inv_step := fun c hl hlo hw ho hp _ => hw.exec c hl hlo ho hp
  own_step := fun c hl hlo hw ho hp ha => Phase2Own.next c hl hlo hw ho hp ha.2
  own_other := fun c _ _ hl hlo _ ho hp _ _ _ hj => Phase2Own.other c hl hlo ho hp hj
  inv_drift := fun _ hw hd => by
    obtain ⟨now, rfl⟩ := hd
    exact ⟨hw.keyed, hw.nulled, hw.stored⟩
  own_drift := fun _ _ ho hd => by
    obtain ⟨now, rfl⟩ := hd
    exact ⟨ho.snap, ho.dup⟩

/-- A record that tells the truth about the calls is complete. -/
theorem Phase2Inv.complete {s₀ s : Transaction} {w : World} (hl : LedgerInv w)
    (hw : Phase2Inv s₀ w) (hs : w.txs[s₀.gid]? = some s) : Phase2Complete w.history s := by
  obtain ⟨s', hs', hp⟩ := hw.stored
  cases hs.symm.trans hs'
  -- the branch of `s₀` that a stored one is, and its barriers
  have key {b : Branch} (hb : b ∈ s.branches) : ∃ a ∈ s₀.branches, a.action = b.action ∧
      ∀ op, a.key s₀.gid op = b.key s.gid op := by
    obtain ⟨a, ha, hd⟩ := hp.same.symm.exists_branch hb
    exact ⟨a, ha, Branch.action_eq hd, fun op => by rw [hp.same.gid, Branch.key_eq hd]⟩
  have hkind {k : TransactionKind} (hk : s.kind = k) : s₀.kind = k := hp.same.kind.symm.trans hk
  refine ⟨fun hk hst b hb => ?_, fun hk hst b hb => ?_, fun hk hst b hb => ?_,
    fun hk hst b hb h => ?_, fun hk hst b hb => ?_⟩ <;> obtain ⟨a, ha, hact, hkey⟩ := key hb
  · rw [← hkey]
    exact (hp.succeeded hst a ha).1 (hkind hk)
  · rw [← hkey]
    exact (hp.succeeded hst a ha).2.1 (hkind hk)
  · rw [← hkey]
    exact (hp.succeeded hst a ha).2.2 (hkind hk)
  · rw [← hkey] at h ⊢
    refine ((hp.aborted hst a ha).1 (hkind hk)).resolve_right fun ⟨hn, hall⟩ => ?_
    rcases h with h | h
    · obtain ⟨i, hi⟩ := hl.sound.ledger_eq_done h
      exact (hw.nulled _ hn).2 (hl.held _ (by rw [hi]; exact Option.some_ne_none _))
    · exact hall a ha rfl (hact.trans h)
  · rw [← hkey]
    exact (hp.aborted hst a ha).2 (hkind hk)

/-- **In the runs in which a barrier of the second phase is found taken only when its call
has returned success or was not due, a transaction that is Succeeded or Aborted has had
all the calls of its second phase.** -/
theorem phase2_complete (dtm : Dtm) {w : World} (hw : w.Keyed) (hh : w.history = [])
    {s₀ : Transaction} (hs₀ : w.txs[s₀.gid]? = some s₀) (hopen : s₀.status ≠ .succeeded)
    (hopen' : s₀.status ≠ .aborted)
    (hbranches : s₀.kind = .message → ∀ b ∈ s₀.branches, b.status ≠ .succeeded) {P : System}
    (hP : (provenRuns s₀.gid).Reaches (dtm.Programs fun op => op.registers = false) w P)
    {s : Transaction} (hs : P.world.txs[s₀.gid]? = some s) :
    Phase2Complete P.world.history s := by
  have hinv : Phase2Inv s₀ w := by
    refine ⟨hw, fun b hb => ?_, s₀, hs₀, ⟨rfl, rfl, rfl, rfl⟩,
      fun hk b hb h => absurd h (hbranches hk b hb), fun h => absurd h hopen,
      fun h => absurd h hopen'⟩
    rw [hh] at hb
    cases hb
  have hgood : ((provenLedger s₀.gid).extend (phase2Layer s₀)).Good P := by
    refine Outline.good_of_reaches _ ⟨ledgerInv_of_nil hh, hinv⟩ (fun i => ⟨?_, ?_⟩) ?_ hP
    · exact fun b k hk => nomatch hk
    · exact ⟨fun base hb => (nomatch hb), fun b hb => hb.elim⟩
    · rintro p ⟨op, hop, rfl⟩
      exact follows_prog hop _
  exact Phase2Inv.complete hgood.1.1 hgood.1.2 hs

/-- A TCC is prepared, its first `confirm_tcc` has a call that fails, the second one finds the
barrier free again. -/
theorem phase2_complete_retried : ∃ (P : System) (s : Transaction),
    (provenRuns "g").Reaches (Dtm.plain.Programs fun op => op.registers = false)
      (.initial [.new 0 "g" .tcc [.tccTry "b" "try" "confirm" "cancel" .null]]) P ∧
    P.world.txs["g"]? = some s ∧ s.status = .succeeded ∧ Phase2Complete P.world.history s := by
  obtain ⟨P, hP, hφ⟩ := Dtm.exists_run (provenRuns "g") .plain (fun op => op.registers = false)
    (.initial [.new 0 "g" .tcc [.tccTry "b" "try" "confirm" "cancel" .null]])
    (.start (.prepareTcc "g") :: .start (.confirmTcc "g") :: .start (.confirmTcc "g") ::
      steps 0 5 true ++ steps 1 7 false ++ steps 2 5 true)
    (fun w => w.statusOf "g" = some .succeeded) (by simp [steps, Operation.registers]) (by decide)
  obtain ⟨s, hs, hst⟩ := World.hasStatus_iff.mpr (of_decide_eq_true hφ)
  exact ⟨P, s, hP, hs, hst, @phase2_complete .plain _ (World.keyed_initial _) rfl
    (.new 0 "g" .tcc [.tccTry "b" "try" "confirm" "cancel" .null]) rfl (by decide) (by decide)
    (by decide) P hP s hs⟩

/-- A `confirm_tcc` is cut off after it has taken the barrier; the next one finds it taken and
makes the TCC Succeeded.  No confirm call was ever issued. -/
theorem phase2_skips_call : ∃ (P : System) (s : Transaction),
    inMemory.Reaches (Dtm.plain.Programs fun op => op.registers = false)
      (.initial [.new 0 "g" .tcc [.tccTry "b" "try" "confirm" "cancel" .null]]) P ∧
    P.world.txs["g"]? = some s ∧ ¬ Phase2Complete P.world.history s := by
  obtain ⟨P, hP, hφ⟩ := Dtm.exists_run inMemory .plain (fun op => op.registers = false)
    (.initial [.new 0 "g" .tcc [.tccTry "b" "try" "confirm" "cancel" .null]])
    (.start (.prepareTcc "g") :: .start (.confirmTcc "g") :: .start (.confirmTcc "g") ::
      steps 0 5 true ++ steps 1 2 true ++ .cut 1 :: steps 2 3 true)
    (fun w => (w.txs["g"]?).any fun s => s.kind = .tcc && s.status = .succeeded &&
      s.branches.any fun b => !Succeeded w.history (b.key s.gid "confirm"))
    (by simp [steps, Operation.registers]) (by decide)
  rw [Option.any_eq_true] at hφ
  obtain ⟨s, hs, h⟩ := hφ
  simp only [Bool.and_eq_true, decide_eq_true_eq, List.any_eq_true, Bool.not_eq_true',
    decide_eq_false_iff_not] at h
  obtain ⟨⟨hk, hst⟩, b, hb, hn⟩ := h
  exact ⟨P, s, hP, hs, fun hc => hn (hc.confirmed hk hst b hb)⟩

end RozeDtm
