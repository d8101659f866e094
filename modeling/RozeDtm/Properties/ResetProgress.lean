import Mathlib.Data.List.Perm.Basic
import Mathlib.Data.List.Nodup
import RozeDtm.Conc.Heard
import RozeDtm.Conc.Lists
import RozeDtm.Properties.NextRecovery

/-!
# Progress of batch resets

`reset_retry_batch_after` selects by the next recovery time and resets retry times.  A reset
brings the next recovery time down to the time that it reads, except for a Message that waits
for its first delivery: its time comes from its delay, which a reset does not touch.

* `beyond_retryNow`: which transactions a reset leaves beyond a cutoff.
* `hears_resetRetryBatchAfter`: what a call alone does, by the times that it reads.
-/

namespace RozeDtm

open Conc

/-! ### A reset -/

/-- A Message none of whose deliveries was attempted or can be retried. -/
def Transaction.WaitsForDelivery (tx : Transaction) : Prop :=
  tx.kind = .message ∧ tx.status = .succeeding ∧ (∀ b ∈ tx.branches, b.attempts = 0) ∧
    ∀ b ∈ tx.branches, b.retryable = false

instance (tx : Transaction) : Decidable tx.WaitsForDelivery :=
  inferInstanceAs (Decidable (_ ∧ _ ∧ _ ∧ _))

section Next

variable {cutoff now : Nat} {tx : Transaction}

/-- What a reset makes of a branch. -/
theorem retryable_retried (b : Branch) :
    (if b.retryable then { b with nextRetryMillis := some now } else b).retryable = b.retryable := by
  split
  · rfl
  · rfl

theorem metadata_retryNow (key : String) (hnext : key ≠ "dtm.callback.next_retry_millis")
    (hlast : key ≠ "dtm.callback.last_outcome") :
    (Dtm.retryNow now tx).metadata[key]? = tx.metadata[key]? := by
  show (if isCallbackWorkflow tx then _ else _)[key]? = _
  split
  · rw [Std.ExtTreeMap.getElem?_insert, if_neg (mt Std.compare_eq_iff_eq.mp hlast.symm),
      Std.ExtTreeMap.getElem?_insert, if_neg (mt Std.compare_eq_iff_eq.mp hnext.symm)]
  · rfl

theorem isCallbackWorkflow_retryNow :
    isCallbackWorkflow (Dtm.retryNow now tx) = isCallbackWorkflow tx := by
  have hempty : (Dtm.retryNow now tx).branches.isEmpty = tx.branches.isEmpty := List.isEmpty_map
  unfold isCallbackWorkflow
  rw [metadata_retryNow _ (by decide) (by decide), hempty]
  rfl

theorem firstDelivery_retryNow : firstDelivery (Dtm.retryNow now tx) = firstDelivery tx := by
  have hall : ((Dtm.retryNow now tx).branches.all fun branch => branch.attempts = 0) =
      tx.branches.all fun branch => branch.attempts = 0 := by
    show (tx.branches.map _).all _ = _
    rw [List.all_map]
    refine List.all_congr rfl fun b => ?_
    show decide ((if b.retryable then { b with nextRetryMillis := some now } else b).attempts = 0) = _
    split
    · rfl
    · rfl
  unfold firstDelivery
  rw [hall]
  rfl

/-- **What a reset leaves beyond a cutoff** of what was beyond it. -/
theorem beyond_retryNow (h : tx.Beyond cutoff) (hnow : now ≤ u64Max) :
    (Dtm.retryNow now tx).Beyond cutoff ↔ tx.WaitsForDelivery ∨ cutoff < now := by
  have hst := not_terminal_of_beyond h
  have hst' : (Dtm.retryNow now tx).status.isTerminal = false := hst
  by_cases hcb : isCallbackWorkflow tx = true
  · have hcb' : isCallbackWorkflow (Dtm.retryNow now tx) = true :=
      isCallbackWorkflow_retryNow.trans hcb
    have hkind : tx.kind = .workflow := by
      unfold isCallbackWorkflow at hcb
      rw [Bool.and_eq_true, Bool.and_eq_true, decide_eq_true_eq] at hcb
      exact hcb.1.1
    have hnext : transactionNextRecoveryMillis (Dtm.retryNow now tx) = some now := by
      have hmetadata : (Dtm.retryNow now tx).metadata["dtm.callback.next_retry_millis"]? =
          some (toString now) := by
        show (if isCallbackWorkflow tx then _ else _)[_]? = _
        rw [if_pos hcb, Std.ExtTreeMap.getElem?_insert,
          if_neg (mt Std.compare_eq_iff_eq.mp (by decide)), Std.ExtTreeMap.getElem?_insert_self]
      unfold transactionNextRecoveryMillis
      rw [if_neg (by rw [hst']; decide), if_pos hcb', hmetadata, Option.bind_some,
        parseUnsigned_toString hnow]
    constructor
    · rintro ⟨next, hmem, hlt⟩
      rw [hnext, Option.mem_some_iff] at hmem
      exact Or.inr (hmem ▸ hlt)
    · rintro (⟨hmessage, -⟩ | hlt)
      · rw [hkind] at hmessage
        cases hmessage
      · exact ⟨now, hnext, hlt⟩
  · rw [Bool.not_eq_true] at hcb
    have hcb' : isCallbackWorkflow (Dtm.retryNow now tx) = false :=
      isCallbackWorkflow_retryNow.trans hcb
    obtain ⟨hnext, hfirst, hsome⟩ := (beyond_iff hst hcb).mp h
    rw [beyond_iff hst' hcb', firstDelivery_retryNow]
    constructor
    · rintro ⟨hlate, -, -⟩
      by_cases hnone : ∀ b ∈ tx.branches, b.retryable = false
      · refine Or.inl ?_
        obtain ⟨hkind, hstatus, hattempts⟩ := waiting_of_firstDelivery (hsome hnone)
        exact ⟨hkind, hstatus, hattempts, hnone⟩
      · push Not at hnone
        obtain ⟨b, hb, hretry⟩ := hnone
        rw [Bool.ne_false_iff] at hretry
        obtain ⟨next, hmem, hlt⟩ := hlate _ (List.mem_map_of_mem hb)
          ((retryable_retried b).trans hretry)
        rw [if_pos hretry, Option.mem_some_iff] at hmem
        exact Or.inr (hmem ▸ hlt)
    · intro hor
      refine ⟨fun b' hb' hretry => ?_, hfirst, fun hnone => hsome fun b hb => ?_⟩
      · obtain ⟨b, hb, rfl⟩ := List.mem_map.mp hb'
        rw [retryable_retried] at hretry
        rcases hor with ⟨-, -, -, hnone⟩ | hlt
        · exact absurd hretry (Bool.eq_false_iff.mp (hnone b hb))
        · rw [if_pos hretry]
          exact ⟨now, rfl, hlt⟩
      · rw [← @retryable_retried now b]
        exact hnone _ (List.mem_map_of_mem hb)

end Next

/-! ### The transactions beyond a cutoff -/

/-- The gids of the stored transactions beyond a cutoff. -/
def World.beyond (w : World) (cutoff : Nat) : List String :=
  ((InMemory.listTransactions w).filter fun tx => tx.Beyond cutoff).map Transaction.gid

section Counting

variable {w w' : World} {cutoff : Nat}

theorem listTransactions_nodup (hw : w.Keyed) :
    ((InMemory.listTransactions w).map Transaction.gid).Nodup := by
  refine List.pairwise_map.mpr (List.pairwise_map.mpr ?_)
  refine Std.ExtTreeMap.distinct_keys_toList.imp_of_mem ?_
  rintro ⟨ga, a⟩ ⟨gb, b⟩ ha hb hne hab
  rw [Std.ExtTreeMap.mem_toList_iff_getElem?_eq_some] at ha hb
  have heq : ga = gb := (hw ga a ha).symm.trans (hab.trans (hw gb b hb))
  exact hne (Std.compare_eq_iff_eq.mpr heq)

theorem beyond_nodup (hw : w.Keyed) : (w.beyond cutoff).Nodup :=
  (listTransactions_nodup hw).sublist (List.filter_sublist.map Transaction.gid)

theorem mem_beyond (hw : w.Keyed) {g : String} :
    g ∈ w.beyond cutoff ↔ ∃ tx, w.txs[g]? = some tx ∧ tx.Beyond cutoff := by
  unfold World.beyond
  constructor
  · intro h
    obtain ⟨tx, htx, rfl⟩ := List.mem_map.mp h
    obtain ⟨hmem, hbeyond⟩ := List.mem_filter.mp htx
    obtain ⟨g, hg⟩ := InMemory.mem_listTransactions hmem
    rw [hw g tx hg]
    exact ⟨tx, hg, of_decide_eq_true hbeyond⟩
  · rintro ⟨tx, hg, hbeyond⟩
    refine List.mem_map.mpr ⟨tx, List.mem_filter.mpr ⟨?_, decide_eq_true hbeyond⟩, hw g tx hg⟩
    exact List.mem_map.mpr ⟨(g, tx), Std.ExtTreeMap.mem_toList_iff_getElem?_eq_some.mpr hg, rfl⟩

/-- A later cutoff leaves fewer transactions beyond it. -/
theorem length_beyond_anti {cutoff' : Nat} (h : cutoff ≤ cutoff') :
    (w.beyond cutoff').length ≤ (w.beyond cutoff).length := by
  unfold World.beyond
  rw [List.length_map, List.length_map, ← List.countP_eq_length_filter,
    ← List.countP_eq_length_filter]
  refine List.countP_mono_left fun tx _ hbeyond => ?_
  obtain ⟨next, hnext, hlt⟩ := of_decide_eq_true hbeyond
  exact decide_eq_true ⟨next, hnext, Nat.lt_of_le_of_lt h hlt⟩

/-- What a change of some records leaves beyond a cutoff. -/
theorem length_beyond_of_reset (hw : w.Keyed) (hw' : w'.Keyed) {gids : List String}
    (hnodup : gids.Nodup) (hsub : ∀ g ∈ gids, g ∈ w.beyond cutoff)
    (hsame : ∀ g, g ∉ gids → w'.txs[g]? = w.txs[g]?)
    (hdone : ∀ g ∈ gids, g ∉ w'.beyond cutoff) :
    (w'.beyond cutoff).length + gids.length = (w.beyond cutoff).length := by
  have hperm : (w'.beyond cutoff ++ gids).Perm (w.beyond cutoff) := by
    refine (List.perm_ext_iff_of_nodup ?_ (beyond_nodup hw)).mpr fun g => ?_
    · refine List.nodup_append.mpr ⟨beyond_nodup hw', hnodup, ?_⟩
      rintro g hg _ hg' rfl
      exact hdone g hg' hg
    · rw [List.mem_append]
      by_cases hg : g ∈ gids
      · exact iff_of_true (Or.inr hg) (hsub g hg)
      · rw [mem_beyond hw, mem_beyond hw', hsame g hg]
        exact or_iff_left hg
  rw [← List.length_append]
  exact hperm.length_eq

end Counting

/-! ### What the programs do -/

/-- The times that a program was told. -/
def clockReadings (answers : List effects.Answer) : List Nat :=
  answers.filterMap fun answer =>
    match answer with
    | ⟨.currentMillis, now⟩ => some now
    | _ => none

section Programs

variable {w w' : World} {i : Nat} {l : List effects.Answer}

theorem drifts_txs (h : inMemoryOnward.Drifts w w') : w'.txs = w.txs := by
  induction h with
  | refl => rfl
  | tail _ hd ih =>
    obtain ⟨now, -, rfl⟩ := hd
    exact ih

theorem drifts_clock_le (h : inMemoryOnward.Drifts w w') : w.clock ≤ w'.clock := by
  induction h with
  | refl => exact Nat.le_refl _
  | tail _ hd ih =>
    obtain ⟨now, hle, rfl⟩ := hd
    exact Nat.le_trans ih hle

section Calls

variable {α : Type} {r : Except Err α}

theorem hears_loadTransaction {gid : String} {tx : Transaction} {f : Transaction → Act α}
    (hs : w.txs[gid]? = some tx)
    (h : inMemoryOnward.Hears i (loadTransaction gid >>= f).run w l r w') :
    ∃ w₁ l', inMemoryOnward.Drifts w w₁ ∧ clockReadings l = clockReadings l' ∧
      inMemoryOnward.Hears i (f tx).run w₁ l' r w' := by
  have hprog : (loadTransaction gid >>= f).run =
      @Prog.step effects _ (.getTransaction gid) fun found : Option Transaction =>
        (Act.ofOption found s!"transaction not found: {gid}" >>= f).run := rfl
  rw [hprog] at h
  obtain ⟨w₁, c, l', hdrifts, -, rfl, hrest⟩ := Machine.Hears.of_step h
  change inMemoryOnward.Hears i (Act.ofOption (w₁.txs[gid]?) _ >>= f).run w₁ l' r w' at hrest
  rw [drifts_txs hdrifts, hs] at hrest
  exact ⟨w₁, l', hdrifts, rfl, hrest⟩

theorem hears_listTransactions {f : List Transaction → Act α}
    (h : inMemoryOnward.Hears i (Store.listTransactions >>= f).run w l r w') :
    ∃ w₁ l', inMemoryOnward.Drifts w w₁ ∧ clockReadings l = clockReadings l' ∧
      inMemoryOnward.Hears i (f (InMemory.listTransactions w)).run w₁ l' r w' := by
  have hprog : (Store.listTransactions >>= f).run =
      @Prog.step effects _ .listTransactions fun listed : List Transaction => (f listed).run := rfl
  rw [hprog] at h
  obtain ⟨w₁, c, l', hdrifts, -, rfl, hrest⟩ := Machine.Hears.of_step h
  refine ⟨w₁, l', hdrifts, rfl, ?_⟩
  have hlist : InMemory.listTransactions w₁ = InMemory.listTransactions w := by
    unfold InMemory.listTransactions
    rw [drifts_txs hdrifts]
  rw [← hlist]
  exact hrest

theorem hears_currentMillis {f : Nat → Act α}
    (h : inMemoryOnward.Hears i (currentMillis >>= f).run w l r w') :
    ∃ w₁ l', inMemoryOnward.Drifts w w₁ ∧ clockReadings l = w₁.clock :: clockReadings l' ∧
      inMemoryOnward.Hears i (f w₁.clock).run w₁ l' r w' := by
  have hprog : (currentMillis >>= f).run =
      @Prog.step effects _ .currentMillis fun now : Nat => (f now).run := rfl
  rw [hprog] at h
  obtain ⟨w₁, c, l', hdrifts, -, rfl, hrest⟩ := Machine.Hears.of_step h
  exact ⟨w₁, l', hdrifts, rfl, hrest⟩

end Calls

theorem hears_persistTransaction {tx : Transaction} {r : Except Err Transaction}
    (h : inMemoryOnward.Hears i (persistTransaction tx).run w l r w') :
    ∃ written, clockReadings l = [] ∧ r = .ok tx.written ∧ w.clock ≤ w'.clock ∧
      w'.txs = w.txs.insert tx.gid (bumpTransactionRevision written tx) := by
  have hprog : (persistTransaction tx).run =
      @Prog.step effects _ (.updateTransaction tx) fun updated : Except Err Unit =>
        (Act.ofExcept updated >>= fun _ => return tx.written : Act Transaction).run := rfl
  rw [hprog] at h
  obtain ⟨w₁, c, l', hdrifts, -, rfl, hrest⟩ := Machine.Hears.of_step h
  obtain ⟨rfl, rfl, hlast⟩ := Machine.Hears.of_pure hrest
  refine ⟨w₁.clock, rfl, rfl, ?_, ?_⟩
  · have hput : w₁.clock ≤ w'.clock :=
      drifts_clock_le (w := w₁.put (bumpTransactionRevision w₁.clock tx)) hlast
    exact Nat.le_trans (drifts_clock_le hdrifts) hput
  · rw [drifts_txs hlast, ← drifts_txs hdrifts]
    rfl

/-- **What `reset_retry` does** with a transaction that is stored and not terminal. -/
theorem hears_resetRetry {gid : String} {tx : Transaction} {r : Except Err Transaction}
    (hs : w.txs[gid]? = some tx) (hst : tx.status.isTerminal = false)
    (h : inMemoryOnward.Hears i (Dtm.resetRetry gid).run w l r w') :
    ∃ now written, clockReadings l = [now] ∧ w.clock ≤ now ∧ now ≤ w'.clock ∧
      r = .ok (Dtm.retryNow now tx).written ∧
      w'.txs = w.txs.insert tx.gid (bumpTransactionRevision written (Dtm.retryNow now tx)) := by
  unfold Dtm.resetRetry at h
  obtain ⟨w₁, l₁, hd₁, hl₁, h⟩ := hears_loadTransaction hs h
  have hactive : ensure (!tx.status.isTerminal) s!"transaction {gid} is terminal" = .ok () := by
    rw [hst]
    rfl
  rw [hactive] at h
  obtain ⟨w₂, l₂, hd₂, hl₂, h⟩ := hears_currentMillis h
  obtain ⟨written, hl, hr, hclock, htxs⟩ := hears_persistTransaction h
  refine ⟨w₂.clock, written, ?_, ?_, hclock, hr, ?_⟩
  · rw [hl₁, hl₂, hl]
  · exact Nat.le_trans (drifts_clock_le hd₁) (drifts_clock_le hd₂)
  · rw [htxs, drifts_txs hd₂, drifts_txs hd₁]
    rfl

/-- What became of a transaction that was reset at time `now`. -/
def WasReset (w w' : World) (gid : String) (now : Nat) : Prop :=
  ∃ tx written, w.txs[gid]? = some tx ∧
    w'.txs[gid]? = some (bumpTransactionRevision written (Dtm.retryNow now tx))

/-- **What `reset_retry` does with each of some transactions.** -/
theorem hears_resetEach {gids : List String} {r : Except Err (List Transaction)} (hw : w.Keyed)
    (hnodup : gids.Nodup)
    (hactive : ∀ gid ∈ gids, ∃ tx, w.txs[gid]? = some tx ∧ tx.status.isTerminal = false)
    (h : inMemoryOnward.Hears i (Dtm.resetEach gids).run w l r w') :
    ∃ reset, r = .ok reset ∧ reset.map Transaction.gid = gids ∧ w'.Keyed ∧ w.clock ≤ w'.clock ∧
      (∀ gid, gid ∉ gids → w'.txs[gid]? = w.txs[gid]?) ∧
      List.Forall₂ (WasReset w w') gids (clockReadings l) := by
  induction gids generalizing w w' l r with
  | nil =>
    obtain ⟨rfl, rfl, hdrifts⟩ := Machine.Hears.of_pure h
    have htxs := drifts_txs hdrifts
    refine ⟨[], rfl, rfl, fun g tx hg => hw g tx (htxs ▸ hg), drifts_clock_le hdrifts,
      fun gid _ => by rw [htxs], .nil⟩
  | cons gid gids ih =>
    obtain ⟨tx, hs, hst⟩ := hactive gid List.mem_cons_self
    have hgid : tx.gid = gid := hw gid tx hs
    obtain ⟨hnot, hnodup⟩ := List.nodup_cons.mp hnodup
    unfold Dtm.resetEach at h
    rcases Machine.Hears.of_proc_bind h with ⟨l₁, a, w₁, l₂, hone, hrest, rfl⟩ | ⟨e, w₁, hone, -⟩
    · obtain ⟨now, written, hl, hread, hclock, hr, htxs⟩ := hears_resetRetry hs hst hone
      cases hr
      have hself : w₁.txs[gid]? = some (bumpTransactionRevision written (Dtm.retryNow now tx)) := by
        rw [htxs, hgid, Std.ExtTreeMap.getElem?_insert_self]
      have hothers : ∀ g, g ≠ gid → w₁.txs[g]? = w.txs[g]? := fun g hne => by
        rw [htxs, hgid, Std.ExtTreeMap.getElem?_insert, if_neg (mt Std.compare_eq_iff_eq.mp hne.symm)]
      have hw₁ : w₁.Keyed := fun g tx' hg => by
        by_cases hne : g = gid
        · subst hne
          rw [hself] at hg
          cases hg
          exact hgid
        · exact hw g tx' (hothers g hne ▸ hg)
      have hactive₁ : ∀ g ∈ gids, ∃ tx, w₁.txs[g]? = some tx ∧ tx.status.isTerminal = false := by
        intro g hg
        obtain ⟨tx', hs', hst'⟩ := hactive g (List.mem_cons_of_mem gid hg)
        exact ⟨tx', (hothers g fun heq => hnot (heq ▸ hg)).trans hs', hst'⟩
      rcases Machine.Hears.of_proc_bind hrest with ⟨l₃, rest, w₂, l₄, heach, hlast, rfl⟩ |
        ⟨e, w₂, heach, -⟩
      · obtain ⟨reset, hreset, hgids, hw₂, hclock₂, hsame, hall⟩ := ih hw₁ hnodup hactive₁ heach
        cases hreset
        obtain ⟨rfl, rfl, hdrifts⟩ := Machine.Hears.of_pure hlast
        have htxs₂ := drifts_txs hdrifts
        refine ⟨_, rfl, ?_, fun g tx' hg => hw₂ g tx' (htxs₂ ▸ hg), ?_, fun g hg => ?_, ?_⟩
        · rw [List.map_cons, hgids]
          exact congrArg (· :: gids) hgid
        · exact (hread.trans hclock).trans (hclock₂.trans (drifts_clock_le hdrifts))
        · rw [htxs₂, hsame g fun hmem => hg (List.mem_cons_of_mem gid hmem)]
          exact hothers g fun heq => hg (heq ▸ List.mem_cons_self)
        · have hreadings : clockReadings (l₁ ++ (l₃ ++ [])) = now :: clockReadings l₃ := by
            unfold clockReadings at hl ⊢
            rw [List.append_nil, List.filterMap_append, hl, List.singleton_append]
          rw [hreadings]
          have hne : ∀ g ∈ gids, g ≠ gid := fun g hg heq => hnot (heq ▸ hg)
          refine .cons ⟨tx, written, hs, ?_⟩ (((List.forall₂_and_left gids _).mpr ⟨hne, hall⟩).imp ?_)
          · rw [htxs₂, hsame gid hnot, hself]
          · rintro g now' ⟨hne, tx', written', hbefore, hafter⟩
            refine ⟨tx', written', (hothers g hne).symm.trans hbefore, ?_⟩
            rw [htxs₂, hafter]
      · obtain ⟨reset, hreset, -⟩ := ih hw₁ hnodup hactive₁ heach
        cases hreset
    · obtain ⟨now, written, -, -, -, hr, -⟩ := hears_resetRetry hs hst hone
      cases hr

/-- The transactions that `reset_retry_batch_after` picks, once it has read the clock. -/
def resetSelection (w : World) (cutoff limit : Nat) : List String :=
  ((((InMemory.listTransactions w).filterMap fun transaction =>
    ((transactionNextRecoveryMillis transaction).filter fun next => cutoff < next).map
      fun next => (next, transaction.gid)).mergeSort Dtm.candidateLe).take (max limit 1)).map Prod.snd

/-- The candidates are the transactions beyond the cutoff. -/
theorem map_snd_candidates (txs : List Transaction) (cutoff : Nat) :
    (txs.filterMap fun transaction =>
      ((transactionNextRecoveryMillis transaction).filter fun next => cutoff < next).map
        fun next => (next, transaction.gid)).map Prod.snd =
    (txs.filter fun tx => tx.Beyond cutoff).map Transaction.gid := by
  induction txs with
  | nil => rfl
  | cons tx txs ih =>
    rw [List.filterMap_cons, List.filter_cons]
    cases hnext : transactionNextRecoveryMillis tx with
    | none =>
      have hnot : ¬ tx.Beyond cutoff := by
        rintro ⟨next, hmem, -⟩
        rw [hnext] at hmem
        cases hmem
      rw [if_neg (by rw [decide_eq_false hnot]; decide)]
      exact ih
    | some next =>
      have hiff : tx.Beyond cutoff ↔ cutoff < next := by
        constructor
        · rintro ⟨next', hmem, hlt⟩
          rw [hnext, Option.mem_some_iff] at hmem
          exact hmem ▸ hlt
        · exact fun hlt => ⟨next, hnext, hlt⟩
      by_cases hlt : cutoff < next
      · rw [if_pos (decide_eq_true (hiff.mpr hlt)), Option.filter_some, if_pos (decide_eq_true hlt),
          List.map_cons]
        exact congrArg (tx.gid :: ·) ih
      · have hnot : ¬ tx.Beyond cutoff := fun hb => hlt (hiff.mp hb)
        rw [if_neg (by rw [decide_eq_false hnot]; decide), Option.filter_some,
          if_neg (by rw [decide_eq_false hlt]; decide)]
        exact ih

theorem resetSelection_spec (w : World) (cutoff limit : Nat) :
    ∃ gids : List String, gids.Perm (w.beyond cutoff) ∧
      resetSelection w cutoff limit = gids.take (max limit 1) := by
  refine ⟨_, ?_, (List.map_take ..)⟩
  exact ((List.mergeSort_perm _ _).map Prod.snd).trans (.of_eq (map_snd_candidates _ cutoff))

theorem mem_resetSelection {cutoff limit : Nat} {gid : String}
    (h : gid ∈ resetSelection w cutoff limit) : gid ∈ w.beyond cutoff := by
  obtain ⟨gids, hperm, heq⟩ := resetSelection_spec w cutoff limit
  rw [heq] at h
  exact hperm.mem_iff.mp (List.mem_of_mem_take h)

theorem resetSelection_nodup (hw : w.Keyed) (cutoff limit : Nat) :
    (resetSelection w cutoff limit).Nodup := by
  obtain ⟨gids, hperm, heq⟩ := resetSelection_spec w cutoff limit
  rw [heq]
  exact (hperm.nodup_iff.mpr (beyond_nodup hw)).sublist (List.take_sublist _ _)

theorem length_resetSelection (w : World) (cutoff limit : Nat) :
    (resetSelection w cutoff limit).length = min (max limit 1) (w.beyond cutoff).length := by
  obtain ⟨gids, hperm, heq⟩ := resetSelection_spec w cutoff limit
  rw [heq, List.length_take, hperm.length_eq]

/-- **What `reset_retry_batch_after` does**, by the times that it reads. -/
theorem hears_resetRetryBatchAfter {afterMillis limit : Nat}
    {r : Except Err (List Transaction × Bool)} (hw : w.Keyed)
    (h : inMemoryOnward.Hears i (Dtm.resetRetryBatchAfter afterMillis limit).run w l r w') :
    ∃ now times reset, clockReadings l = now :: times ∧ w.clock ≤ now ∧ now ≤ w'.clock ∧
      r = .ok (reset, decide (max limit 1 < (w.beyond (satAdd64 now afterMillis)).length)) ∧
      reset.map Transaction.gid = resetSelection w (satAdd64 now afterMillis) limit ∧ w'.Keyed ∧
      (∀ gid, gid ∉ resetSelection w (satAdd64 now afterMillis) limit →
        w'.txs[gid]? = w.txs[gid]?) ∧
      List.Forall₂ (WasReset w w') (resetSelection w (satAdd64 now afterMillis) limit) times := by
  unfold Dtm.resetRetryBatchAfter at h
  obtain ⟨w₁, l₁, hd₁, hl₁, h⟩ := hears_currentMillis h
  obtain ⟨w₂, l₂, hd₂, hl₂, h⟩ := hears_listTransactions h
  have htxs₂ : w₂.txs = w.txs := (drifts_txs hd₂).trans (drifts_txs hd₁)
  have hw₂ : w₂.Keyed := fun g tx hg => hw g tx (htxs₂ ▸ hg)
  have hlist : InMemory.listTransactions w₁ = InMemory.listTransactions w := by
    unfold InMemory.listTransactions
    rw [drifts_txs hd₁]
  rw [hlist] at h
  have hcandidates : ((((InMemory.listTransactions w).filterMap fun transaction =>
      ((transactionNextRecoveryMillis transaction).filter fun next =>
        satAdd64 w₁.clock afterMillis < next).map fun next =>
          (next, transaction.gid)).mergeSort Dtm.candidateLe).length) =
      (w.beyond (satAdd64 w₁.clock afterMillis)).length := by
    rw [List.length_mergeSort, ← List.length_map Prod.snd, map_snd_candidates]
    rfl
  have hactive : ∀ gid ∈ resetSelection w (satAdd64 w₁.clock afterMillis) limit,
      ∃ tx, w₂.txs[gid]? = some tx ∧ tx.status.isTerminal = false := by
    intro gid hgid
    obtain ⟨tx, hs, hbeyond⟩ := (mem_beyond hw).mp (mem_resetSelection hgid)
    exact ⟨tx, htxs₂ ▸ hs, not_terminal_of_beyond hbeyond⟩
  have hnodup := resetSelection_nodup hw (satAdd64 w₁.clock afterMillis) limit
  have hclock := drifts_clock_le hd₁
  have hclock₂ := drifts_clock_le hd₂
  rcases Machine.Hears.of_proc_bind h with ⟨l₃, reset, w₃, l₄, heach, hlast, rfl⟩ | ⟨e, w₃, heach, -⟩
  · obtain ⟨_, hreset, hgids, hw₃, hclock₃, hsame, hall⟩ := hears_resetEach hw₂ hnodup hactive heach
    cases hreset
    obtain ⟨rfl, rfl, hdrifts⟩ := Machine.Hears.of_pure hlast
    have htxs₃ := drifts_txs hdrifts
    have hclock₄ := drifts_clock_le hdrifts
    refine ⟨w₁.clock, clockReadings l₃, reset, ?_, hclock, by omega, ?_, hgids, ?_, fun gid hgid => ?_,
      hall.imp ?_⟩
    · rw [hl₁, hl₂, List.append_nil]
    · rw [← hcandidates]
    · exact fun g tx hg => hw₃ g tx (htxs₃ ▸ hg)
    · rw [htxs₃, hsame gid hgid, htxs₂]
    · rintro gid now ⟨tx, written, hbefore, hafter⟩
      exact ⟨tx, written, htxs₂ ▸ hbefore, htxs₃ ▸ hafter⟩
  · obtain ⟨_, hreset, -⟩ := hears_resetEach hw₂ hnodup hactive heach
    cases hreset

end Programs

/-! ### Calls and their progress -/

/-- A call of `reset_retry_batch_after` with no other operation in progress, over a store with
any content and a clock that never goes back. -/
structure ResetCall (afterMillis limit : Nat) where
  before : World
  answers : List effects.Answer
  result : Except Err (List Transaction × Bool)
  after : World
  keyed : before.Keyed
  runs : inMemoryOnward.Hears 0 (Dtm.resetRetryBatchAfter afterMillis limit).run before answers
    result after
  readings_le : ∀ now ∈ clockReadings answers, now ≤ u64Max

namespace ResetCall

variable {afterMillis limit : Nat} (c : ResetCall afterMillis limit)

/-- The cutoff: the first time that the call reads, and `after_millis`. -/
def cutoff : Nat := satAdd64 ((clockReadings c.answers).headD 0) afterMillis

/-- Every transaction that the call returns has no late recovery time any more, and there are
fewer late ones by as many as the limit allows. -/
def Progresses : Prop :=
  ∃ reset remaining, c.result = .ok (reset, remaining) ∧
    (∀ tx ∈ reset, ∃ stored, c.after.txs[tx.gid]? = some stored ∧ ¬ stored.Beyond c.cutoff) ∧
    (c.after.beyond c.cutoff).length + min limit (c.before.beyond c.cutoff).length =
      (c.before.beyond c.cutoff).length

/-- The call returns `has_remaining = true`. -/
def Remains : Prop := ∃ reset, c.result = .ok (reset, true)

/-- The limit is positive or nothing is late, no transaction that is picked waits for its first
delivery, and the call reads no time after its cutoff. -/
structure Meets : Prop where
  positive : limit = 0 → c.before.beyond c.cutoff = []
  picks : ∀ gid ∈ resetSelection c.before c.cutoff limit, ∀ tx, c.before.txs[gid]? = some tx →
    ¬ tx.WaitsForDelivery
  reads : ∀ now ∈ clockReadings c.answers, now ≤ c.cutoff

/-- What the call does, with its own names. -/
theorem spec : ∃ now times reset, clockReadings c.answers = now :: times ∧
    c.before.clock ≤ now ∧ now ≤ c.after.clock ∧ c.cutoff = satAdd64 now afterMillis ∧
    c.result = .ok (reset, decide (max limit 1 < (c.before.beyond c.cutoff).length)) ∧
    reset.map Transaction.gid = resetSelection c.before c.cutoff limit ∧ c.after.Keyed ∧
    (∀ gid, gid ∉ resetSelection c.before c.cutoff limit →
      c.after.txs[gid]? = c.before.txs[gid]?) ∧
    List.Forall₂ (WasReset c.before c.after) (resetSelection c.before c.cutoff limit) times := by
  obtain ⟨now, times, reset, hl, hbefore, hafter, hrest⟩ := hears_resetRetryBatchAfter c.keyed c.runs
  have hcutoff : c.cutoff = satAdd64 now afterMillis := by
    unfold ResetCall.cutoff
    rw [hl]
    rfl
  rw [← hcutoff] at hrest
  exact ⟨now, times, reset, hl, hbefore, hafter, hcutoff, hrest⟩

/-- What a reset transaction is beyond, by the time that the call read for it. -/
theorem mem_beyond_after {gid : String} {now : Nat} (hkeyed : c.after.Keyed)
    (hgid : gid ∈ resetSelection c.before c.cutoff limit) (hnow : now ≤ u64Max)
    (h : WasReset c.before c.after gid now) :
    gid ∈ c.after.beyond c.cutoff ↔
      (∃ tx, c.before.txs[gid]? = some tx ∧ tx.WaitsForDelivery) ∨ c.cutoff < now := by
  obtain ⟨tx, written, hbefore, hafter⟩ := h
  obtain ⟨tx', hbefore', hbeyond⟩ := (mem_beyond c.keyed).mp (mem_resetSelection hgid)
  cases hbefore.symm.trans hbefore'
  have hreset := beyond_retryNow hbeyond hnow
  rw [mem_beyond hkeyed]
  constructor
  · rintro ⟨stored, hstored, hlate⟩
    cases hafter.symm.trans hstored
    exact (hreset.mp hlate).imp (fun hwaits => ⟨tx, hbefore, hwaits⟩) id
  · intro hor
    refine ⟨_, hafter, hreset.mpr (hor.imp ?_ id)⟩
    rintro ⟨tx', hbefore', hwaits⟩
    cases hbefore.symm.trans hbefore'
    exact hwaits

/-- **A call makes progress** exactly when it meets `Meets`. -/
theorem progresses_iff : c.Progresses ↔ c.Meets := by
  obtain ⟨now, times, reset, hl, -, -, hcutoff, hresult, hgids, hkeyed, hsame, hall⟩ := c.spec
  have hle : ∀ t ∈ now :: times, t ≤ u64Max := fun t ht => c.readings_le t (hl ▸ ht)
  have hnodup := resetSelection_nodup c.keyed c.cutoff limit
  have hcount : (∀ gid ∈ resetSelection c.before c.cutoff limit, gid ∉ c.after.beyond c.cutoff) →
      (c.after.beyond c.cutoff).length + min (max limit 1) (c.before.beyond c.cutoff).length =
        (c.before.beyond c.cutoff).length := by
    intro hdone
    rw [← length_resetSelection]
    exact length_beyond_of_reset c.keyed hkeyed hnodup (fun g => mem_resetSelection) hsame hdone
  constructor
  · rintro ⟨reset', remaining, hresult', hreturned, hfewer⟩
    have hdone : ∀ gid ∈ resetSelection c.before c.cutoff limit, gid ∉ c.after.beyond c.cutoff := by
      intro gid hgid hlate
      rw [hresult] at hresult'
      cases hresult'
      rw [← hgids] at hgid
      obtain ⟨tx, htx, rfl⟩ := List.mem_map.mp hgid
      obtain ⟨stored, hstored, hnot⟩ := hreturned tx htx
      obtain ⟨stored', hstored', hlate⟩ := (mem_beyond hkeyed).mp hlate
      cases hstored.symm.trans hstored'
      exact hnot hlate
    refine ⟨fun hlimit => ?_, fun gid hgid tx htx hwaits => ?_, fun t ht => ?_⟩
    · have hall := hcount hdone
      rw [← List.length_eq_zero_iff]
      omega
    · obtain ⟨t, ht, hreset⟩ := exists_of_forall₂_left hall hgid
      have hnow := hle t (List.mem_cons_of_mem now ht)
      exact hdone gid hgid
        ((c.mem_beyond_after hkeyed hgid hnow hreset).mpr (Or.inl ⟨tx, htx, hwaits⟩))
    · rw [hl] at ht
      rcases List.mem_cons.mp ht with rfl | ht
      · have hnow := hle t List.mem_cons_self
        rw [hcutoff]
        unfold satAdd64
        omega
      · obtain ⟨gid, hgid, hreset⟩ := exists_of_forall₂ hall ht
        have hnow := hle t (List.mem_cons_of_mem now ht)
        by_contra hlate
        exact hdone gid hgid
          ((c.mem_beyond_after hkeyed hgid hnow hreset).mpr (Or.inr (Nat.lt_of_not_le hlate)))
  · intro h
    have hdone : ∀ gid ∈ resetSelection c.before c.cutoff limit, gid ∉ c.after.beyond c.cutoff := by
      intro gid hgid hlate
      obtain ⟨t, ht, hreset⟩ := exists_of_forall₂_left hall hgid
      have hread : t ∈ clockReadings c.answers := hl ▸ List.mem_cons_of_mem now ht
      rcases (c.mem_beyond_after hkeyed hgid (c.readings_le t hread) hreset).mp hlate with
        ⟨tx, htx, hwaits⟩ | hlt
      · exact h.picks gid hgid tx htx hwaits
      · have hle := h.reads t hread
        omega
    refine ⟨reset, _, hresult, fun tx htx => ?_, ?_⟩
    · have hgid : tx.gid ∈ resetSelection c.before c.cutoff limit := by
        rw [← hgids]
        exact List.mem_map_of_mem htx
      obtain ⟨t, -, tx', written, -, hafter⟩ := exists_of_forall₂_left hall hgid
      refine ⟨_, hafter, fun hlate => hdone _ hgid ((mem_beyond hkeyed).mpr ⟨_, hafter, hlate⟩)⟩
    · have hall := hcount hdone
      by_cases hlimit : limit = 0
      · rw [h.positive hlimit] at hall ⊢
        rw [List.length_nil] at hall ⊢
        omega
      · omega

/-- The cutoff of a later call is not earlier. -/
theorem cutoff_le {c c' : ResetCall afterMillis limit} (h : c'.before = c.after) :
    c.cutoff ≤ c'.cutoff := by
  obtain ⟨now, times, -, -, -, hafter, hcutoff, -⟩ := c.spec
  obtain ⟨now', times', -, -, hbefore, -, hcutoff', -⟩ := c'.spec
  rw [h] at hbefore
  rw [hcutoff, hcutoff']
  unfold satAdd64
  omega

/-- **While more remain, the next call of a loop has fewer late transactions before it.** -/
theorem length_beyond_lt {c c' : ResetCall afterMillis limit} (h : c'.before = c.after)
    (hmeets : c.Meets) (hremains : c.Remains) :
    (c'.before.beyond c'.cutoff).length < (c.before.beyond c.cutoff).length := by
  obtain ⟨_, _, _, -, -, -, -, hresult, -⟩ := c.spec
  obtain ⟨reset, hmore⟩ := hremains
  rw [hresult, Except.ok.injEq, Prod.mk.injEq, decide_eq_true_eq] at hmore
  obtain ⟨_, _, -, -, hfewer⟩ := c.progresses_iff.mpr hmeets
  have hnext : (c'.before.beyond c'.cutoff).length ≤ (c.after.beyond c.cutoff).length := by
    rw [h]
    exact length_beyond_anti (cutoff_le h)
  have hpositive : limit ≠ 0 := fun hzero => by
    rw [hmeets.positive hzero, List.length_nil] at hmore
    omega
  omega

end ResetCall

/-- **Batch resets make progress and their loop ends** exactly when every call of it meets
`Meets`. -/
theorem reset_batch_progresses_iff {afterMillis limit : Nat}
    (calls : Nat → ResetCall afterMillis limit)
    (hchain : ∀ k, (calls (k + 1)).before = (calls k).after) :
    ((∀ k, (calls k).Progresses) ∧ ∃ k, ¬ (calls k).Remains) ↔ ∀ k, (calls k).Meets := by
  constructor
  · exact fun h k => (calls k).progresses_iff.mp (h.1 k)
  · intro h
    refine ⟨fun k => (calls k).progresses_iff.mpr (h k), ?_⟩
    by_contra hforever
    push Not at hforever
    have hdown : ∀ k, ((calls k).before.beyond (calls k).cutoff).length + k ≤
        ((calls 0).before.beyond (calls 0).cutoff).length := by
      intro k
      induction k with
      | zero => exact Nat.le_refl _
      | succ k ih =>
        have hlt := ResetCall.length_beyond_lt (hchain k) (h k) (hforever k)
        omega
    have hlast := hdown (((calls 0).before.beyond (calls 0).cutoff).length + 1)
    omega

/-! ### Calls on small stores -/

/-- A Saga whose action has failed and is due at time 2000. -/
def backedOffSaga : Transaction :=
  { Transaction.new 0 "g" .saga [{ Branch.saga "b" "do" "undo" .null with
      status := .failed, attempts := 1, nextRetryMillis := some 2000 }] with status := .succeeding }

/-- A Message that is due for its first delivery at time 2000. -/
def waitingMessage : Transaction :=
  { Transaction.new 0 "m" .message [.message "b" "topic" .null] with
    status := .succeeding
    options := { TransactionOptions.default with delayMillis := some 2000 } }

/-- A call that finds nothing late. -/
theorem hears_idle {afterMillis limit : Nat} {w : World}
    (h : w.beyond (satAdd64 w.clock afterMillis) = []) :
    inMemoryOnward.Hears 0 (Dtm.resetRetryBatchAfter afterMillis limit).run w
      [⟨.currentMillis, w.clock⟩, ⟨.listTransactions, InMemory.listTransactions w⟩]
      (.ok ([], false)) w := by
  have hnone : (InMemory.listTransactions w).filterMap (fun transaction =>
      ((transactionNextRecoveryMillis transaction).filter fun next =>
        satAdd64 w.clock afterMillis < next).map fun next => (next, transaction.gid)) = [] :=
    List.map_eq_nil_iff.mp ((map_snd_candidates _ _).trans h)
  have hprog : (Dtm.resetRetryBatchAfter afterMillis limit).run =
      @Prog.step effects _ .currentMillis fun now : Nat =>
        @Prog.step effects _ .listTransactions fun listed : List Transaction =>
          (do
            let candidates := (listed.filterMap fun transaction =>
              ((transactionNextRecoveryMillis transaction).filter fun next =>
                satAdd64 now afterMillis < next).map fun next =>
                  (next, transaction.gid)).mergeSort Dtm.candidateLe
            let reset ← Dtm.resetEach ((candidates.take (max limit 1)).map Prod.snd)
            return (reset, decide (max limit 1 < candidates.length)) :
              Act (List Transaction × Bool)).run := rfl
  rw [hprog]
  refine .step (.ofOk true) trivial (.step (.ofOk true) trivial ?_)
  show inMemoryOnward.Hears 0 (do
    let candidates := ((InMemory.listTransactions w).filterMap fun transaction =>
      ((transactionNextRecoveryMillis transaction).filter fun next =>
        satAdd64 w.clock afterMillis < next).map fun next =>
          (next, transaction.gid)).mergeSort Dtm.candidateLe
    let reset ← Dtm.resetEach ((candidates.take (max limit 1)).map Prod.snd)
    return (reset, decide (max limit 1 < candidates.length)) :
      Act (List Transaction × Bool)).run w [] (.ok ([], false)) w
  rw [hnone, List.mergeSort_nil]
  show inMemoryOnward.Hears 0 (do
    let reset ← Dtm.resetEach ((([] : List (Nat × String)).take (max limit 1)).map Prod.snd)
    return (reset, decide (max limit 1 < 0)) : Act (List Transaction × Bool)).run w [] _ w
  rw [List.take_nil, decide_eq_false (Nat.not_lt_zero _)]
  exact .done _ _

/-- A call over a store, computed. -/
theorem ResetCall.exists_call (afterMillis limit : Nat) (w : World) (n : Nat) (hw : w.Keyed)
    (φ : List effects.Answer → World → Bool)
    (h : ((inMemoryOnward.hear? 0 (Dtm.resetRetryBatchAfter afterMillis limit).run w
      (List.replicate n (.ofOk true))).any fun r =>
        (clockReadings r.1).all (fun now => now ≤ u64Max) && φ r.1 r.2.2) = true) :
    ∃ c : ResetCall afterMillis limit, c.before = w ∧ φ c.answers c.after = true := by
  obtain ⟨l, r, w', hruns, hφ⟩ := Machine.exists_hears (φ := fun l _ w' =>
    (clockReadings l).all (fun now => now ≤ u64Max) && φ l w') h
  rw [Bool.and_eq_true, List.all_eq_true] at hφ
  exact ⟨⟨w, l, r, w', hw, hruns, fun now hnow => of_decide_eq_true (hφ.1 now hnow)⟩, rfl, hφ.2⟩

/-- The first call resets the Saga, every other one finds nothing late. -/
theorem reset_batch_progresses_run : ∃ calls : Nat → ResetCall 1000 1,
    (calls 0).before = .initial [backedOffSaga] ∧
    (calls 0).before.beyond (calls 0).cutoff = ["g"] ∧
    (∀ k, (calls k).Progresses) ∧ ∃ k, ¬ (calls k).Remains := by
  obtain ⟨c, hbefore, hφ⟩ := ResetCall.exists_call 1000 1 (.initial [backedOffSaga]) 5
    (World.keyed_initial _) (fun l w' => clockReadings l = [0, 0] ∧ w'.clock = 0 ∧
      w'.beyond 1000 = []) (by decide +kernel)
  obtain ⟨hreadings, hclock, hafter⟩ := of_decide_eq_true hφ
  have hcutoff : c.cutoff = 1000 := by
    unfold ResetCall.cutoff
    rw [hreadings]
    rfl
  have hlater : c.after.beyond (satAdd64 c.after.clock 1000) = [] := by
    rw [hclock]
    exact hafter
  obtain ⟨-, -, -, -, -, -, -, -, -, hkeyed, -⟩ := c.spec
  let idle : ResetCall 1000 1 := ⟨c.after, _, _, c.after, hkeyed, hears_idle hlater, by
    intro now hnow
    obtain rfl : now = c.after.clock := List.mem_singleton.mp hnow
    rw [hclock]
    decide⟩
  have hmeets : c.Meets := by
    refine ⟨fun h => absurd h (by decide), ?_, ?_⟩
    · have hpicked : ∀ gid ∈ resetSelection (.initial [backedOffSaga]) 1000 1,
          ∀ tx ∈ (World.initial [backedOffSaga]).txs[gid]?, ¬ tx.WaitsForDelivery := by
        decide +kernel
      rw [hbefore, hcutoff]
      exact hpicked
    · rw [hreadings, hcutoff]
      decide
  have hidle : idle.Meets := by
    refine ⟨fun h => absurd h (by decide), fun gid hgid => ?_, fun now hnow => ?_⟩
    · have hlate : gid ∈ c.after.beyond (satAdd64 c.after.clock 1000) := mem_resetSelection hgid
      rw [hlater] at hlate
      cases hlate
    · obtain rfl : now = c.after.clock := List.mem_singleton.mp hnow
      show c.after.clock ≤ satAdd64 c.after.clock 1000
      rw [hclock]
      decide
  refine ⟨fun k => if k = 0 then c else idle, hbefore, ?_, ?_⟩
  · show c.before.beyond c.cutoff = _
    rw [hbefore, hcutoff]
    decide +kernel
  · refine (reset_batch_progresses_iff _ fun k => ?_).mpr fun k => ?_
    · rw [if_neg (Nat.succ_ne_zero k)]
      split
      · rfl
      · rfl
    · split
      · exact hmeets
      · exact hidle

/-- A Message that waits for its first delivery stays as late as it was. -/
theorem reset_without_progress : ∃ c : ResetCall 1000 1,
    c.before = .initial [waitingMessage] ∧ clockReadings c.answers = [0, 0] ∧
    ¬ c.Progresses := by
  obtain ⟨c, hbefore, hφ⟩ := ResetCall.exists_call 1000 1 (.initial [waitingMessage]) 5
    (World.keyed_initial _) (fun l _ => clockReadings l = [0, 0]) (by decide +kernel)
  have hreadings := of_decide_eq_true hφ
  refine ⟨c, hbefore, hreadings, fun hprogress => ?_⟩
  have hcutoff : c.cutoff = 1000 := by
    unfold ResetCall.cutoff
    rw [hreadings]
    rfl
  have hpicks := (c.progresses_iff.mp hprogress).picks
  rw [hbefore, hcutoff] at hpicks
  exact hpicks "m" (by decide +kernel) waitingMessage (by decide +kernel) (by decide +kernel)

end RozeDtm
