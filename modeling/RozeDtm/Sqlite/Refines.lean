import RozeDtm.Sqlite.Stored

/-!
# The SQLite store under the calls

Each call of the store takes effect at one of its statements: a read at its SELECT, an upsert
at the INSERT, a change in place at the UPDATE that finds the payload that was read, a lease at
the UPDATE or the INSERT that grants it.  `sqliteRefines` puts the calls together.

A statement is done when its answer is lost too, and then the call fails with its change made.
The clock that a change reads is the one of an earlier step, which above is a drift.
-/

namespace RozeDtm

open Conc

variable {floats : String → Option String} {i : Nat} {s : SqliteState} {w : World}

/-! ### Statements -/

section Statements

variable {α : Type} {o : Effect} {u : SqliteStep}

theorem counted_lossy (u : SqliteStep) : Lossy ((countedSqlite floats).exec i u)
    (fun c s => s.done i c u) fun r => u.lost = some r := SqliteState.exec_lossy i u

/-- A statement with which a call fails when it does. -/
theorem serves_statement {k : u.Reply → SqliteAct o.Reply}
    (hdone : ∀ c s w, StoredIn floats s w → u.Counts floats →
      Answers (countedSqlite floats) sqliteCalls (StoredIn floats) i o w k (s.done i c u))
    (hlost : ∀ r, u.lost = some r → ∃ e, (k r).run = .pure (.error e)) :
    Serves (countedSqlite floats) sqliteCalls (StoredIn floats) i o
      (SqliteStore.ask u >>= k).run :=
  serves_lossy (counted_lossy u) (fun c s w hs ha => hdone c s w hs ha.2) hlost

/-- The same where it is the last one. -/
theorem servesLast_statement {reply : Except Err α → o.Reply} {k : u.Reply → SqliteAct α}
    (hdone : ∀ c s w, StoredIn floats s w → u.Counts floats →
      AnswersLast (countedSqlite floats) sqliteCalls (StoredIn floats) i o reply w k
        (s.done i c u))
    (hlost : ∀ r, u.lost = some r → ∃ e, (k r).run = .pure (.error e)) :
    ServesLast (countedSqlite floats) sqliteCalls (StoredIn floats) i o reply
      (SqliteStore.ask u >>= k).run :=
  servesLast_lossy (counted_lossy u) (fun c s w hs ha => hdone c s w hs ha.2) hlost

theorem reads_result (e : Except Err α) :
    Reads (countedSqlite floats) (StoredIn floats) i (SqliteStore.ofExcept e)
      fun a => e = .ok a :=
  fun _ ha => ha

/-- A statement that leaves the tables as they are. -/
theorem reads_statement (h : ∀ c s, (SqliteState.done i c s u).2 = s) :
    Reads (countedSqlite floats) (StoredIn floats) i (SqliteStore.ask u) fun _ => True := by
  refine Discipline.does_perform.mpr ⟨fun s w c hs _ => ?_, fun _ _ => trivial⟩
  change StoredIn floats (SqliteState.exec i u c s).2 w
  rcases SqliteState.exec_lossy i u c s with he | ⟨-, he | he⟩ <;> rw [he]
  · exact (h c s).symm ▸ hs
  · exact hs
  · exact (h c s).symm ▸ hs

end Statements

/-! ### The calls of the store -/

theorem sqlite_insertTransaction (tx : Transaction) :
    ServesLast (countedSqlite floats) sqliteCalls (StoredIn floats) i (.insertTransaction tx)
      (fun r => r) (SqliteStore.insertTransaction tx).run := by
  refine servesLast_statement (fun c s w hs hread => ?_) fun r hr => ?_
  · by_cases hthere : s.transactions.contains tx.gid = true
    · have hdone : s.done i c (.insertTransaction tx) = ((.ok 0 : Except Err Nat), s) :=
        congrArg SqliteState.affected (if_pos hthere)
      rw [hdone]
      exact Or.inl ⟨hs, _, rfl⟩
    · have hdone : s.done i c (.insertTransaction tx) =
          ((.ok 1 : Except Err Nat), s.put tx.gid tx) :=
        congrArg SqliteState.affected (if_neg hthere)
      rw [hs.contains, Bool.not_eq_true] at hthere
      obtain ⟨w', hexec, hstores⟩ := stores_insert hthere
      rw [hdone]
      exact Or.inr ⟨w, .plain, (), w', .refl, trivial, hexec, hs.put hstores hread, Or.inl rfl⟩
  · cases hr
    exact ⟨_, rfl⟩

/-- `get_transaction`: the record at the moment of the SELECT. -/
theorem sqlite_getTransaction (gid : String) :
    Serves (countedSqlite floats) sqliteCalls (StoredIn floats) i (.getTransaction gid)
      (SqliteStore.getTransaction floats gid).run := by
  refine serves_statement (o := .getTransaction gid) (u := .selectTransaction gid)
    (fun c s w hs _ => ?_) fun r hr => ?_
  · refine answers_after .plain .refl trivial rfl hs ((reads_result _).mono fun _ r hr => ?_)
    change r = w.txs[gid]?
    cases hrow : s.transactions[gid]? with
    | none =>
      rw [hrow] at hr
      cases hr
      exact (hs.absent.mp hrow).symm
    | some row =>
      rw [hrow, Option.map_some, Option.elim_some] at hr
      cases htx : Transaction.ofText floats row.payload with
      | error e =>
        rw [htx] at hr
        cases hr
      | ok tx =>
        rw [htx] at hr
        cases hr
        exact (hs.record hrow htx).symm
  · cases hr
    exact ⟨_, rfl⟩

/-- `update_transaction`, which writes over whatever is there. -/
theorem sqlite_updateTransaction (tx : Transaction) :
    ServesLast (countedSqlite floats) sqliteCalls (StoredIn floats) i (.updateTransaction tx)
      (fun r => r) (SqliteStore.updateTransaction tx).run := by
  refine servesLast_reads_bind (reads_statement fun _ _ => rfl) fun now _ => ?_
  refine servesLast_statement (fun c s w hs hread => ?_) fun r hr => ?_
  · have hstores : World.Stores tx.gid (bumpTransactionRevision now tx) { w with clock := now }
        (({ w with clock := now } : World).put (bumpTransactionRevision now tx)) :=
      ⟨rfl, rfl, rfl, rfl, rfl⟩
    exact Or.inr ⟨_, .plain, (), _, .single ⟨now, rfl⟩, trivial, rfl,
      (hs.clock now).put hstores hread, Or.inl rfl⟩
  · cases hr
    exact ⟨_, rfl⟩

/-- **The loop of the changes in place.**  `f` is the change, and `o` what makes it above. -/
theorem sqlite_mutateLoop {o : Effect} {gid operation : String}
    {f : Nat → Transaction → Except Err Transaction} {reply : Except Err Transaction → o.Reply}
    (hexec : ∀ (w : World) tx tx', w.txs[gid]? = some tx → f w.clock tx = .ok tx' →
      ∃ d w', sqliteCalls.exec i o d w = (reply (.ok tx'), w') ∧ World.Stores gid tx' w w')
    (attempts : Nat) :
    ServesLast (countedSqlite floats) sqliteCalls (StoredIn floats) i o reply
      (SqliteStore.mutateLoop floats gid operation f attempts).run := by
  induction attempts with
  | zero => exact ⟨_, rfl⟩
  | succ attempts ih =>
    refine servesLast_reads_bind (reads_statement fun _ _ => rfl) fun row _ => ?_
    refine servesLast_reads_bind (reads_result _) fun row _ => ?_
    refine servesLast_reads_bind (reads_result _) fun previous _ => ?_
    refine servesLast_reads_bind (reads_result _) fun tx htx => ?_
    refine servesLast_reads_bind (reads_statement fun _ _ => rfl) fun now _ => ?_
    refine servesLast_reads_bind (reads_result _) fun tx' htx' => ?_
    refine servesLast_statement (fun c s w hs hread => ?_) fun r hr => ?_
    · by_cases hsame : ((s.transactions[gid]?).any fun row => row.payload = previous) = true
      · -- the payload that is written over is the one that was read
        have hdone : s.done i c (.swapTransaction gid previous tx') =
            ((.ok 1 : Except Err Nat), s.put gid tx') :=
          congrArg SqliteState.affected (if_pos hsame)
        obtain ⟨row, hrow, hpayload⟩ := (Option.any_eq_true _ _).mp hsame
        rw [decide_eq_true_eq] at hpayload
        have hstored := hs.record hrow (hpayload ▸ htx)
        obtain ⟨d, w', hd, hstores⟩ := hexec { w with clock := now } tx tx' hstored htx'
        rw [hdone]
        exact Or.inr ⟨_, d, tx', w', .single ⟨now, rfl⟩, trivial, hd,
          (hs.clock now).put hstores hread, Or.inl rfl⟩
      · have hdone : s.done i c (.swapTransaction gid previous tx') =
            ((.ok 0 : Except Err Nat), s) :=
          congrArg SqliteState.affected (if_neg hsame)
        rw [hdone]
        exact Or.inl ⟨hs, ih⟩
    · cases hr
      exact ⟨_, rfl⟩

/-- A change in place with whose result its caller goes on. -/
theorem sqlite_required {gid : String} {e : Event} (he : e.isBranchCall = false) {o : Effect}
    {operation : String} {f : Nat → Transaction → Except Err Transaction}
    (reply : Except Err Transaction → o.Reply)
    (hexec : ∀ w : World, sqliteCalls.exec i o .plain w =
      (reply (InMemory.noteOk i e (InMemory.modify w gid (f w.clock))).1,
        (InMemory.noteOk i e (InMemory.modify w gid (f w.clock))).2)) :
    Serves (countedSqlite floats) sqliteCalls (StoredIn floats) i o
      (do return reply (.ok (← SqliteStore.mutateLoop floats gid operation f
        SqliteStore.mutationAttempts)) : SqliteAct o.Reply).run := by
  refine ServesLast.required (sqlite_mutateLoop (fun w tx tx' htx hf => ?_) _)
  obtain ⟨w', hmodify, hstores⟩ := stores_noteOk (i := i) he htx hf
  refine ⟨.plain, w', ?_, hstores⟩
  rw [hexec, hmodify]

/-- A change in place whose caller keeps the error: above, the call may fail, with its change
made or not. -/
theorem sqlite_attempt {gid operation : String}
    {f : Nat → Transaction → Except Err Transaction} {o : Effect}
    {reply : Except Err Transaction → o.Reply}
    (hexec : ∀ (d : SqliteCallOutcome) (w : World),
      let r := InMemory.faulty d.fault (InMemory.modify w gid (f w.clock)) w
      sqliteCalls.exec i o d w = (reply r.1, r.2)) :
    Serves (countedSqlite floats) sqliteCalls (StoredIn floats) i o
      ((SqliteStore.mutateLoop floats gid operation f SqliteStore.mutationAttempts).run.bind
        fun r => (.pure (.ok (reply r)) : Prog sqliteSteps (Except Err o.Reply))) := by
  refine ServesLast.kept (sqlite_mutateLoop (fun w tx tx' htx hf => ?_) _)
    (fun e h => ?_) (fun {s w u} e hs _ => ⟨trivial, ?_⟩) (fun {w d a w'} e h => ?_)
  · obtain ⟨w', hmodify, hstores⟩ := stores_modify htx hf
    refine ⟨.plain, w', ?_, hstores⟩
    rw [hexec, SqliteCallOutcome.plain, InMemory.faulty, hmodify]
  · cases h
  · exact ⟨⟨⟨false, .error "", 0⟩, some (e, false), [], false⟩, hexec _ w⟩
  · rw [hexec] at h
    obtain ⟨-, rfl⟩ := Prod.mk.inj h
    rcases d with ⟨outcome, _ | ⟨e', _ | _⟩, order, refused⟩
    · exact ⟨⟨outcome, some (e, true), order, refused⟩, hexec _ w⟩
    · exact ⟨⟨outcome, some (e, false), order, refused⟩, hexec _ w⟩
    · exact ⟨⟨outcome, some (e, true), order, refused⟩, hexec _ w⟩

/-- `list_transactions`. -/
theorem sqlite_listTransactions :
    Serves (countedSqlite floats) sqliteCalls (StoredIn floats) i .listTransactions
      (SqliteStore.listTransactions floats).run := by
  refine serves_statement (o := .listTransactions) (u := .selectTransactions)
    (fun c s w hs _ => ?_) fun r hr => ?_
  · refine answers_after ⟨c.outcome, none, c.order, false⟩ .refl trivial rfl hs
      ((reads_result _).mono fun _ r hr => ?_)
    exact Except.ok.inj (hr.symm.trans (hs.listed c.order))
  · cases hr
    exact ⟨_, rfl⟩

/-- `get_kv`. -/
theorem sqlite_getKv (category key : String) :
    Serves (countedSqlite floats) sqliteCalls (StoredIn floats) i (.getKv category key)
      (SqliteStore.getKv category key).run := by
  refine serves_statement (o := .getKv category key) (u := .selectKv category key)
    (fun c s w hs _ => ?_) fun r hr => ?_
  · refine answers_after .plain .refl trivial rfl hs ((reads_result _).mono fun _ r hr => ?_)
    change r = w.kv (category, key)
    rw [hs.kv]
    cases hrow : s.kv (category, key) with
    | none =>
      rw [hrow] at hr
      cases hr
      rfl
    | some row =>
      rw [hrow, Option.elim_some] at hr
      rw [Option.bind_some]
      cases hentry : kvEntryFromValues row with
      | error e =>
        rw [hentry] at hr
        cases hr
      | ok entry =>
        rw [hentry] at hr
        cases hr
        rfl
  · cases hr
    exact ⟨_, rfl⟩

/-- `barrier`. -/
theorem sqlite_barrier (b : BranchBarrier) :
    Serves (countedSqlite floats) sqliteCalls (StoredIn floats) i (.barrier b)
      (SqliteStore.barrier b).run := by
  refine serves_statement (o := .barrier b) (u := .barrier b) (fun c s w hs hb => ?_)
    fun r hr => ?_
  · obtain ⟨hdecision, hrows, hplain⟩ := hs.barrier hb
    have hdone : s.done i c (.barrier b) = ((.ok (InMemory.barrier w b).1 : Except Err _),
        { s with barriers := (InMemory.barrier w b).2.barriers }) := by
      rw [SqliteState.done, hdecision, hrows]
      rfl
    have habs := hs.withBarriers (i := i) (e := .decided b (InMemory.barrier w b).1) hplain rfl
    rw [← barrier_world] at habs
    rw [hdone]
    exact answers_after .plain .refl trivial rfl habs
      ((reads_result _).mono fun _ _ hd => (Except.ok.inj hd).symm)
  · cases hr
    exact ⟨_, rfl⟩

/-- `release_barrier`. -/
theorem sqlite_releaseBarrier (b : BranchBarrier) :
    Serves (countedSqlite floats) sqliteCalls (StoredIn floats) i (.releaseBarrier b)
      (SqliteStore.releaseBarrier b).run := by
  refine serves_statement (o := .releaseBarrier b) (u := .deleteBarrier b)
    (fun c s w hs hb => ?_) fun r hr => ?_
  · have hrows : (s.barriers.filter fun row => row.textKey ≠ b.textKey) = w.barriers.erase b := by
      ext row
      rw [Finset.mem_filter, Finset.mem_erase, hs.barriers, and_comm]
      refine and_congr_left fun hrow => not_congr ⟨fun hkey => ?_, fun h => h ▸ rfl⟩
      exact (hs.plain row hrow).textKey_inj hb hkey
    have hplain : ∀ row ∈ w.barriers.erase b, row.Plain := fun row hrow =>
      hs.plain row (hs.barriers ▸ Finset.mem_of_mem_erase hrow)
    have habs := hs.withBarriers (i := i) (e := .released b) hplain rfl
    have hdeleted : StoredIn floats { s with
          barriers := s.barriers.filter fun row => row.textKey ≠ b.textKey }
        ((InMemory.releaseBarrier w b).note i (.released b)) := by
      rw [hrows]
      exact habs
    exact answers_after .plain .refl trivial rfl hdeleted fun _ _ => rfl
  · cases hr
    exact ⟨_, rfl⟩

/-- A rollback, of which nothing is seen. -/
theorem reads_rollback : Reads (countedSqlite floats) (StoredIn floats) i (do
    SqliteStore.ofExcept (← SqliteStore.ask .rollback)
    return false : SqliteAct Bool) fun a => a = false :=
  Discipline.does_bind.mpr ((reads_statement fun _ _ => rfl).mono fun _ r _ =>
    Discipline.does_bind.mpr ((reads_result r).mono fun _ _ _ => Discipline.does_pure.mpr rfl))

theorem deleteSelected_eq {payload : String} {current tx : Transaction}
    (h : Transaction.ofText floats payload = .ok current) :
    SqliteStore.deleteSelected floats tx (some payload) =
      if current ≠ tx then do
        SqliteStore.ofExcept (← SqliteStore.ask .rollback)
        return false
      else do
        let deleted ← SqliteStore.ofExcept
          (← SqliteStore.ask (.deleteTransaction tx.gid payload))
        return deleted = 1 := by
  rw [SqliteStore.deleteSelected, h]
  rfl

/-- The record that was selected is the one to delete: it is deleted at the DELETE. -/
theorem sqlite_deleteSelected {payload : String} {tx : Transaction}
    (htx : Transaction.ofText floats payload = .ok tx) :
    Serves (countedSqlite floats) sqliteCalls (StoredIn floats) i
      (.deleteTransactionIfUnchanged tx)
      (SqliteStore.deleteSelected floats tx (some payload)).run := by
  rw [deleteSelected_eq htx, if_neg (not_not.mpr rfl)]
  refine serves_statement (o := .deleteTransactionIfUnchanged tx)
    (u := .deleteTransaction tx.gid payload) (fun c s w hs _ => ?_) fun r hr => ?_
  · by_cases hsame : ((s.transactions[tx.gid]?).any fun row => row.payload = payload) = true
    · obtain ⟨row, hrow, hpayload⟩ := (Option.any_eq_true _ _).mp hsame
      rw [decide_eq_true_eq] at hpayload
      have hstored := hs.record hrow (hpayload ▸ htx)
      have hdone : s.done i c (.deleteTransaction tx.gid payload) = ((.ok 1 : Except Err Nat),
          { s with
            transactions := s.transactions.erase tx.gid
            barriers := s.barriers.filter fun b => b.gid ≠ tx.gid }) := if_pos hsame
      rw [hdone]
      exact answers_after .plain .refl trivial (if_neg (not_not.mpr hstored))
        (hs.deleted tx.gid) fun _ h => (Except.ok.inj h).symm
    · have hdone : s.done i c (.deleteTransaction tx.gid payload) =
          ((.error "database is locked" : Except Err Nat), s) := if_neg hsame
      rw [hdone]
      exact Or.inl ⟨hs, _, rfl⟩
  · cases hr
    exact ⟨_, rfl⟩

/-- `delete_transaction_if_unchanged`: a record that is another one is left at the SELECT. -/
theorem sqlite_deleteTransactionIfUnchanged (tx : Transaction) :
    Serves (countedSqlite floats) sqliteCalls (StoredIn floats) i
      (.deleteTransactionIfUnchanged tx)
      (SqliteStore.deleteTransactionIfUnchanged floats tx).run := by
  have hother {w : World} (h : w.txs[tx.gid]? ≠ some tx) :
      sqliteCalls.exec i (.deleteTransactionIfUnchanged tx) .plain w = (false, w) := if_pos h
  refine serves_reads_bind (reads_statement fun _ _ => rfl) fun begun _ => ?_
  refine serves_reads_bind (reads_result begun) fun _ _ => ?_
  refine serves_statement (o := .deleteTransactionIfUnchanged tx)
    (u := .selectTransaction tx.gid) (fun c s w hs _ => ?_) fun r hr => ?_
  · change Answers _ _ _ _ _ w _ ((.ok ((s.transactions[tx.gid]?).map (·.payload)) :
      Except Err (Option String)), s)
    cases hrow : s.transactions[tx.gid]? with
    | none =>
      refine answers_after .plain .refl trivial (hother fun h => ?_) hs reads_rollback
      rw [hs.absent.mp hrow] at h
      cases h
    | some row =>
      cases htx : Transaction.ofText floats row.payload with
      | error e =>
        have hfails : (SqliteStore.deleteSelected floats tx (some row.payload)).run =
            .pure (.error e) := by
          rw [SqliteStore.deleteSelected, htx]
          rfl
        have hserves : Serves (countedSqlite floats) sqliteCalls (StoredIn floats) i
            (.deleteTransactionIfUnchanged tx)
            (SqliteStore.deleteSelected floats tx (some row.payload)).run := by
          rw [hfails]
          exact ⟨e, rfl⟩
        exact Or.inl ⟨hs, hserves⟩
      | ok current =>
        by_cases hsame : current = tx
        · exact Or.inl ⟨hs, sqlite_deleteSelected (hsame ▸ htx)⟩
        · have hreads : Reads (countedSqlite floats) (StoredIn floats) i
              (SqliteStore.deleteSelected floats tx (some row.payload)) fun a => a = false := by
            rw [deleteSelected_eq htx, if_pos hsame]
            exact reads_rollback
          refine answers_after .plain .refl trivial (hother fun h => ?_) hs hreads
          rw [hs.record hrow htx] at h
          exact hsame (Option.some.inj h)
  · cases hr
    exact ⟨_, rfl⟩

/-- The fence of a lease that was acquired. -/
def leaseFence (name owner : String) (acquired : Except Err Bool) : Option RecoveryLeaseFence :=
  if acquired.toOption.getD false then some { name, owner, epoch := 1 } else none

/-- `try_acquire_recovery_lease`: a lease is granted at the UPDATE or at the INSERT, and refused
at the INSERT. -/
theorem sqlite_tryAcquireRecoveryLease (name owner : String) (ttlMillis : Nat) :
    ServesLast (countedSqlite floats) sqliteCalls (StoredIn floats) i
      (.acquireRecoveryLease name owner ttlMillis) (leaseFence name owner)
      (SqliteStore.tryAcquireRecoveryLease name owner ttlMillis).run := by
  refine servesLast_reads_bind (reads_statement fun _ _ => rfl) fun now _ => ?_
  refine servesLast_statement (fun c s w hs hbound => ?_) fun r hr => ?_
  · by_cases hrow : ((s.leases[name]?).any fun row =>
        row.owner = owner || row.expiresAtMillis ≤ millisToColumn now) = true
    · have hdone : s.done i c (.renewLease name owner now (satAdd64 now ttlMillis)) =
          ((.ok 1 : Except Err Nat), { s with
            leases := s.leases.insert name
              ⟨owner, millisToColumn (satAdd64 now ttlMillis)⟩ }) :=
        congrArg SqliteState.affected (if_pos hrow)
      obtain ⟨lease, hl, hfree⟩ := hs.renewable hrow
      have hfree' : ∀ lease', w.leases[name]? = some lease' →
          lease'.owner = owner ∨ lease'.expiresAtMillis ≤ now := fun lease' hl' => by
        cases hl.symm.trans hl'
        exact hfree
      obtain ⟨w', hexec, habs⟩ := hs.granted hfree' hbound
      rw [hdone]
      exact Or.inr ⟨_, .plain, true, w', .single ⟨now, rfl⟩, trivial, hexec, habs, Or.inl rfl⟩
    · have hdone : s.done i c (.renewLease name owner now (satAdd64 now ttlMillis)) =
          ((.ok 0 : Except Err Nat), s) :=
        congrArg SqliteState.affected (if_neg hrow)
      rw [hdone]
      refine Or.inl ⟨hs, ?_⟩
      refine servesLast_statement (fun c s w hs hbound => ?_) fun r hr => ?_
      · by_cases hthere : s.leases.contains name = true
        · have hdone : s.done i c (.insertLease name owner (satAdd64 now ttlMillis)) =
              ((.ok 0 : Except Err Nat), s) :=
            congrArg SqliteState.affected (if_pos hthere)
          rw [hdone]
          exact Or.inr ⟨w, ⟨⟨false, .error "", 0⟩, none, [], true⟩, false, w, .refl, trivial, rfl,
            hs, Or.inl rfl⟩
        · have hdone : s.done i c (.insertLease name owner (satAdd64 now ttlMillis)) =
              ((.ok 1 : Except Err Nat), { s with
                leases := s.leases.insert name
                  ⟨owner, millisToColumn (satAdd64 now ttlMillis)⟩ }) :=
            congrArg SqliteState.affected (if_neg hthere)
          have hnone : w.leases[name]? = none := by
            rw [Std.ExtTreeMap.contains_eq_isSome_getElem?, hs.leases, Option.isSome_map,
              Bool.not_eq_true, Option.isSome_eq_false_iff, Option.isNone_iff_eq_none] at hthere
            exact hthere
          have hfree : ∀ lease, w.leases[name]? = some lease →
              lease.owner = owner ∨ lease.expiresAtMillis ≤ now := fun lease hl => by
            rw [hnone] at hl
            cases hl
          obtain ⟨w', hexec, habs⟩ := hs.granted hfree hbound
          rw [hdone]
          exact Or.inr ⟨_, .plain, true, w', .single ⟨now, rfl⟩, trivial, hexec, habs,
            Or.inl rfl⟩
      · cases hr
        exact ⟨_, rfl⟩
  · cases hr
    exact ⟨_, rfl⟩

/-- `acquire_recovery_lease`. -/
theorem sqlite_acquireRecoveryLease (name owner : String) (ttlMillis : Nat) :
    Serves (countedSqlite floats) sqliteCalls (StoredIn floats) i
      (.acquireRecoveryLease name owner ttlMillis)
      (SqliteStore.acquireRecoveryLease name owner ttlMillis).run :=
  (sqlite_tryAcquireRecoveryLease name owner ttlMillis).required

/-- A call that is one step and no statement. -/
theorem sqlite_direct {u : SqliteStep} {o : Effect} {k : u.Reply → o.Reply} (hu : u.lost = none)
    (h : ∀ c s w, StoredIn floats s w → ∃ w₁ d, Relation.ReflTransGen sqliteCalls.drift w w₁ ∧
      StoredIn floats (s.done i c u).2 (sqliteCalls.exec i o d w₁).2 ∧
      k (s.done i c u).1 = (sqliteCalls.exec i o d w₁).1) :
    Serves (countedSqlite floats) sqliteCalls (StoredIn floats) i o
      (.step u fun r => .pure (.ok (k r)) : Prog sqliteSteps (Except Err o.Reply)) := by
  refine serves_step fun c s w hs _ => ?_
  obtain ⟨w₁, d, hdrift, habs, hk⟩ := h c s w hs
  have hdone : (countedSqlite floats).exec i u c s = s.done i c u := by
    rcases SqliteState.exec_lossy i u c s with he | ⟨hr, -⟩
    · exact he
    · rw [hu] at hr
      cases hr
  rw [hdone]
  exact ⟨w₁, d, hdrift, trivial, habs, hk⟩

/-- An event that is recorded below as above. -/
theorem StoredIn.note (hs : StoredIn floats s w) {e : Event} (he : e.isBranchCall = true) :
    StoredIn floats (s.note i e) (w.note i e) where
  txs := hs.txs
  barriers := hs.barriers
  plain := hs.plain
  kv := hs.kv
  leases := hs.leases
  bounded := hs.bounded
  history := by
    rw [World.note_history, List.filter_cons_of_pos (by simpa using he), SqliteState.note,
      hs.history]

/-- The calls of the store. -/
theorem sqlite_call (o : Effect) :
    Serves (countedSqlite floats) sqliteCalls (StoredIn floats) i o
      (SqliteStore.call floats o).run := by
  cases o with
  | insertTransaction tx => exact (sqlite_insertTransaction tx).required
  | getTransaction gid => exact sqlite_getTransaction gid
  | updateTransaction tx => exact (sqlite_updateTransaction tx).required
  | registerBranch gid branch =>
    exact sqlite_required (o := .registerBranch gid branch) (e := .registered gid branch) rfl
      (fun r => r) fun _ => rfl
  | recordWorkflowProgress gid progress =>
    exact sqlite_required (o := .recordWorkflowProgress gid progress)
      (e := .progressed gid progress) rfl (fun r => r) fun _ => rfl
  | finishWorkflow gid status reason result =>
    exact sqlite_attempt (o := .finishWorkflow gid status reason result) fun _ _ => rfl
  | deferWorkflowRecovery gid delay =>
    exact sqlite_attempt (o := .deferWorkflowRecovery gid delay) fun _ _ => rfl
  | listTransactions => exact sqlite_listTransactions
  | deleteTransactionIfUnchanged tx => exact sqlite_deleteTransactionIfUnchanged tx
  | getKv category key => exact sqlite_getKv category key
  | barrier b => exact sqlite_barrier b
  | releaseBarrier b => exact sqlite_releaseBarrier b
  | acquireRecoveryLease name owner ttlMillis =>
    exact sqlite_acquireRecoveryLease name owner ttlMillis
  | currentMillis =>
    refine sqlite_direct (u := .currentMillis) (o := .currentMillis) (k := fun r => r) rfl
      fun c s w hs => ?_
    exact ⟨{ w with clock := s.clock }, .plain, .single ⟨s.clock, rfl⟩, hs.clock s.clock, rfl⟩
  | invokeBegin call =>
    refine sqlite_direct (u := .invokeBegin call) (o := .invokeBegin call) (k := fun r => r) rfl
      fun c s w hs => ?_
    exact ⟨w, .plain, .refl, hs.note rfl, rfl⟩
  | invokeEnd call =>
    refine sqlite_direct (u := .invokeEnd call) (o := .invokeEnd call) (k := fun r => r) rfl
      fun c s w hs => ?_
    exact ⟨w, ⟨c.outcome, none, [], false⟩, .refl, hs.note rfl, rfl⟩
  | queryWorkflowCallback request options =>
    refine sqlite_direct (u := .queryWorkflowCallback request options)
      (o := .queryWorkflowCallback request options) (k := fun r => r) rfl fun c s w hs => ?_
    exact ⟨w, ⟨c.outcome, none, [], false⟩, .refl, hs, rfl⟩
  | joinNext n =>
    refine sqlite_direct (u := .joinNext n) (o := .joinNext n) (k := fun r => r) rfl
      fun c s w hs => ?_
    exact ⟨w, ⟨c.outcome, none, [], false⟩, .refl, hs, rfl⟩

/-- **Operations over the SQLite store do what they can do over its calls**, while every step
counts. -/
def sqliteRefines (floats : String → Option String) :
    Refinement (countedSqlite floats) sqliteCalls (SqliteStore.handler floats) where
  abs := StoredIn floats
  mode := fun _ => True
  mode_next := fun _ _ _ _ _ => trivial
  drift := fun {_ _ w} hs h => by
    obtain ⟨now, rfl⟩ := h
    exact ⟨w, .refl, hs.txs, hs.barriers, hs.plain, hs.kv, hs.leases, hs.bounded, hs.history⟩
  serves := fun _ _ o _ => sqlite_call o

end RozeDtm
