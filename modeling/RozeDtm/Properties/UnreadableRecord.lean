import RozeDtm.Properties.SqliteRuns
import RozeDtm.Sqlite.Spares

/-!
# A record that cannot be read

Serialization has no limit on how deep a payload nests, and reading has one.  So a record can be
stored that no call reads back.  Over the SQLite store its row stays as it is and none of its
branches is called, whatever jobs run (`sqlite_unreadable_stays`), and while it is there no tick
recovers anything, nor does a purge or a batch of resets get anywhere, for the other
transactions either (`sqlite_unreadable_blocks`).
-/

namespace RozeDtm

open Conc

/-- The programs of the jobs in `jobs` over the SQLite store. -/
def Dtm.SqliteJobs (dtm : Dtm) (floats : String → Option String) (jobs : Job → Prop) :
    Prog sqliteSteps (Except Err (List Transaction)) → Prop :=
  (SqliteStore.handler floats).Programs () (dtm.Jobs jobs)

/-- A job over the SQLite store. -/
abbrev Dtm.sqliteJob (dtm : Dtm) (floats : String → Option String) (job : Job) :
    Prog sqliteSteps (Except Err (List Transaction)) :=
  SqliteStore.prog floats (job.prog dtm)

/-- The jobs that begin with a list of all transactions, or with the recovery lease. -/
def Job.Lists : Job → Prop
  | .operation (.resetRetryBatch _) | .operation (.resetRetryBatchAfter _ _)
  | .operation .tickRecoverOnce | .operation (.tickRecoverOnceWithLease _ _) | .purge _ => True
  | _ => False

/-- The jobs that do nothing without the recovery lease. -/
def Job.Leases : Job → Prop
  | .operation (.tickRecoverOnceWithLease _ _) => True
  | _ => False

section Unreadable

variable {dtm : Dtm} {floats : String → Option String} {jobs : Job → Prop} {s : SqliteState}
  {g : String} {row : TransactionRow} {P Q : SqliteSystem}

theorem spares_jobs {p : Prog sqliteSteps (Except Err (List Transaction))}
    (h : dtm.SqliteJobs floats jobs p) : (sparesRow floats g).Follows p () fun _ _ => True := by
  obtain ⟨_, ⟨job, -, rfl⟩, rfl⟩ := h
  -- a program that has read nothing of `g` so far, since what it reads fails
  refine (rereads_job dtm g job).through (fun read _ _ => read = false) ?_ rfl
  rintro _ _ _ o rfl ho
  exact spares_call ho

/-- The row and its branches in every state of a run. -/
theorem spared_of_reaches (hkeyed : s.Keyed floats) (hrow : s.transactions[g]? = some row)
    (hbad : Unreadable floats row.payload)
    (hP : (typedSqlite floats).Reaches (dtm.SqliteJobs floats jobs) s P) :
    (RowSpared.outline (g := g) s.history hbad).Good P :=
  Outline.good_of_reaches _ ⟨hrow, hkeyed, [], rfl, fun _ _ hm => absurd hm List.not_mem_nil⟩
    (fun _ => trivial) (fun _ => spares_jobs) hP

/-- **A record that cannot be read stays**: its row is never changed or deleted and no branch of
it is ever called, whatever jobs run. -/
theorem sqlite_unreadable_stays (dtm : Dtm) (hkeyed : s.Keyed floats)
    (hrow : s.transactions[g]? = some row) (hbad : Unreadable floats row.payload)
    (hP : (typedSqlite floats).Reaches (dtm.SqliteJobs floats jobs) s P) :
    P.world.transactions[g]? = some row ∧ ∃ events, P.world.history = events ++ s.history ∧
      ∀ i c, (i, Event.began c) ∈ events → c.gid ≠ g := by
  have hspared := (spared_of_reaches hkeyed hrow hbad hP).1
  exact ⟨hspared.stored, hspared.uncalled⟩

theorem nestedSaga_unread :
    Transaction.ofText (fun _ => none) (nestedSaga 125).toText = .error "invalid JSON text" := by
  rw [(nestedSaga_typed 125).ofText_eq]
  refine if_neg fun hle => ?_
  have hpayload := (Transaction.nesting_le (n := 124) (nestedSaga_typed 125) (by decide)).mp hle _
    (List.mem_singleton_self _)
  change (nestedArrays 125).nesting ≤ 124 at hpayload
  rw [nesting_nestedArrays] at hpayload
  exact absurd hpayload (by decide)

theorem nestedSaga_unreadable : Unreadable (fun _ => none) (nestedSaga 125).toText := by
  intro tx htx
  rw [nestedSaga_unread] at htx
  cases htx

/-- Tables with the record. -/
def nestedTables : SqliteState := SqliteState.empty.put "g" (nestedSaga 125)

theorem nestedTables_row : nestedTables.transactions["g"]? = some ⟨(nestedSaga 125).toText, 5⟩ :=
  Std.ExtTreeMap.getElem?_insert_self

theorem nestedTables_keyed : nestedTables.Keyed fun _ => none := by
  have hempty : SqliteState.empty.Keyed fun _ => none := fun gid row tx hrow => by
    change (∅ : Std.ExtTreeMap String TransactionRow)[gid]? = some row at hrow
    rw [Std.ExtTreeMap.getElem?_empty] at hrow
    cases hrow
  exact hempty.put rfl (nestedSaga_typed 125)

/-- `start_saga` fails at its SELECT. -/
theorem sqlite_unreadable_stays_saga : ∃ P,
    (typedSqlite fun _ => none).Reaches (Dtm.plain.SqliteJobs (fun _ => none) fun _ => True)
      nestedTables P ∧ P.threads = [some (.pure (.error "invalid JSON text"))] ∧
    P.world.transactions["g"]? = some ⟨(nestedSaga 125).toText, 5⟩ := by
  obtain ⟨k, hfirst, hnext⟩ := sqlite_loads (fun _ => none)
    (p := (Job.operation (.startSaga "g")).prog Dtm.plain) rfl
  have hstart : (typedSqlite fun _ => none).Step
      (Dtm.plain.SqliteJobs (fun _ => none) fun _ => True) ⟨nestedTables, []⟩
      ⟨nestedTables, [some (.step (.selectTransaction "g") k)]⟩ := by
    rw [← hfirst]
    exact .start _ ⟨_, ⟨.operation (.startSaga "g"), trivial, rfl⟩, rfl⟩
  have hselect : (typedSqlite fun _ => none).Step
      (Dtm.plain.SqliteJobs (fun _ => none) fun _ => True)
      ⟨nestedTables, [some (.step (.selectTransaction "g") k)]⟩
      ⟨nestedTables, [some (k (.ok (some (nestedSaga 125).toText)))]⟩ :=
    sqlite_selects (N := typedSqlite fun _ => none) rfl ⟨trivial, trivial⟩ nestedTables_row
  rw [hnext, nestedSaga_unread] at hselect
  have hreaches := Relation.ReflTransGen.head hstart (.single hselect)
  have hstays := sqlite_unreadable_stays .plain nestedTables_keyed nestedTables_row
    nestedSaga_unreadable hreaches
  exact ⟨_, hreaches, rfl, hstays.1⟩

/-! ### Jobs that list -/

/-- What a job does that waits for a list of the transactions, and never gets one. -/
def listing : Discipline effects Unit where
  pre := fun _ o => match o with
    | .listTransactions | .currentMillis | .acquireRecoveryLease _ _ _ => True
    | _ => False
  sees := fun _ o _ => match o with
    | .listTransactions => False
    | _ => True
  next := fun _ _ _ => ()

theorem listing_currentMillis {Q : Unit → Nat → Prop} (hQ : ∀ now, Q () now) :
    listing.Does currentMillis () Q :=
  Discipline.does_perform.mpr ⟨trivial, fun now _ => hQ now⟩

theorem listing_listTransactions {Q : Unit → List Transaction → Prop} :
    listing.Does Store.listTransactions () Q :=
  Discipline.does_perform.mpr ⟨trivial, fun _ h => h.elim⟩

theorem listing_tickRecoverOnce {Q : Unit → List Transaction → Prop} :
    listing.Does dtm.tickRecoverOnce () Q := by
  simp only [Dtm.tickRecoverOnce, Discipline.does_bind]
  exact listing_currentMillis fun _ => listing_listTransactions

/-- Without a list such a job does not return, but for a tick that does not get the lease. -/
theorem listing_job {job : Job} (h : job.Lists) :
    listing.Follows (job.prog dtm) () fun _ r => ∀ txs, r = .ok txs → job.Leases ∧ txs = [] := by
  cases job with
  | purge policy =>
    have hpurge : listing.Does (Dtm.purgeExpiredTransactions policy >>= fun _ =>
        (pure [] : Act (List Transaction))) ()
        fun _ txs => Job.Leases (.purge policy) ∧ txs = [] := by
      simp only [Dtm.purgeExpiredTransactions, Discipline.does_bind, does_ofExcept]
      exact fun _ _ => listing_currentMillis fun _ => listing_listTransactions
    exact hpurge
  | operation op =>
    have hop : listing.Does (op.act dtm) () fun _ txs => Job.Leases (.operation op) ∧ txs = [] := by
      cases op with
      | resetRetryBatch limit =>
        simp only [Operation.act, Dtm.resetRetryBatch, Discipline.does_bind]
        exact listing_listTransactions
      | resetRetryBatchAfter afterMillis limit =>
        simp only [Operation.act, Dtm.resetRetryBatchAfter, Discipline.does_bind]
        exact listing_currentMillis fun _ => listing_listTransactions
      | tickRecoverOnce => exact listing_tickRecoverOnce
      | tickRecoverOnceWithLease owner ttlMillis =>
        simp only [Operation.act, Dtm.tickRecoverOnceWithLease, Discipline.does_bind]
        refine Discipline.does_perform.mpr ⟨trivial, fun lease _ => ?_⟩
        cases lease with
        | none => exact Discipline.does_pure.mpr ⟨trivial, rfl⟩
        | some lease => exact listing_tickRecoverOnce
      | _ => exact h.elim
    exact hop

/-- The calls of such a job. -/
theorem unlisted_call {o : Effect} (ho : listing.pre () o) :
    (unlistedRow floats g).Does (SqliteStore.call floats o) () fun _ r => listing.sees () o r := by
  cases o with
  | listTransactions => exact unlisted_listTransactions
  | acquireRecoveryLease name owner ttlMillis =>
    exact (unlisted_acquireRecoveryLease name owner ttlMillis).mono fun _ _ _ => trivial
  | currentMillis => exact unlisted_ask.mpr ⟨trivial, fun _ _ => trivial⟩
  | _ => exact ho.elim

theorem unlisted_job {job : Job} (h : job.Lists) :
    (unlistedRow floats g).Follows (dtm.sqliteJob floats job) () fun _ r =>
      ∀ txs, r = .ok txs → job.Leases ∧ txs = [] := by
  have hjob : (unlistedRow floats g).Does
      (ExceptT.mk ((job.prog dtm).through (SqliteStore.handler floats) ())) () fun _ txs =>
        ∃ _ : Unit, ∀ txs', (.ok txs : Except Err (List Transaction)) = .ok txs' →
          job.Leases ∧ txs' = [] :=
    (listing_job h).through_returns (fun _ _ _ => True)
      (fun o _ ho => (unlisted_call ho).mono fun _ _ hr => ⟨hr, trivial⟩) trivial
  exact Discipline.Follows.mono hjob fun _ _ hr txs htxs => (hr txs htxs).elim fun _ h => h txs rfl

/-- **A record that cannot be read blocks the jobs that list**: one that is started over its row
takes no step but for the list, the lease and the clock, and does not return `Ok`, unless it is
a tick that did not get the lease. -/
theorem sqlite_unreadable_blocks (dtm : Dtm) {job : Job} (hjob : job.Lists)
    (hkeyed : s.Keyed floats) (hrow : s.transactions[g]? = some row)
    (hbad : Unreadable floats row.payload)
    (hP : (typedSqlite floats).Reaches (dtm.SqliteJobs floats jobs) s P) {i : Nat}
    (hi : P.threads[i]? = some (some (dtm.sqliteJob floats job)))
    (hQ : (typedSqlite floats).Run (dtm.SqliteJobs floats jobs) P Q) :
    (∀ u k, Q.threads[i]? = some (some (.step u k)) → SqliteStep.Unlisted u) ∧
      ∀ txs, Q.threads[i]? = some (some (.pure (.ok txs))) → job.Leases ∧ txs = [] := by
  have hgood := spared_of_reaches hkeyed hrow hbad hP
  have hsees {w : SqliteState} {o : SqliteStep} {u : Unit} (c : SqliteOutcome)
      (hinv : RowSpared floats g row s.history w) :
      (unlistedRow floats g).sees u o ((typedSqlite floats).exec i o c w).1 :=
    hinv.sees hbad c
  have hthread := hgood.thread (fun c hinv _ _ => hsees c hinv) (fun _ => spares_jobs) hi
    (unlisted_job hjob) hQ
  rcases hthread with hcut | ⟨q, u', hq, hfollows⟩
  · refine ⟨fun u k hu => ?_, fun txs htxs => ?_⟩
    · cases hcut.symm.trans hu
    · cases hcut.symm.trans htxs
  · refine ⟨fun u k hu => ?_, fun txs htxs => ?_⟩
    · cases hq.symm.trans hu
      exact hfollows.1
    · cases hq.symm.trans htxs
      exact hfollows txs rfl

/-- A tick that lists one payload that cannot be read. -/
theorem sqlite_tick_unread (dtm : Dtm) (floats : String → Option String) :
    ∃ (k : Nat → Prog sqliteSteps (Except Err (List Transaction)))
      (l : Nat → Except Err (List String) → Prog sqliteSteps (Except Err (List Transaction))),
      dtm.sqliteJob floats (.operation .tickRecoverOnce) = .step .currentMillis k ∧
      (∀ now, k now = .step .selectTransactions (l now)) ∧
      ∀ now payload e, Transaction.ofText floats payload = .error e →
        l now (.ok [payload]) = .pure (.error e) := by
  refine ⟨_, _, rfl, fun now => rfl, fun now payload e he => ?_⟩
  change ((ExceptT.mk (.pure ([payload].mapM (Transaction.ofText floats))) :
    SqliteAct (List Transaction)) >>= fun r => ExceptT.mk
      (((dtm.tickLoop now r).run).through (SqliteStore.handler floats) ())).run = _
  rw [List.mapM_cons, he]
  rfl

theorem nestedTables_select (order : List String) :
    nestedTables.selectTransactions order = [(nestedSaga 125).toText] := by
  have hrows : nestedTables.transactions.toList = [("g", ⟨(nestedSaga 125).toText, 5⟩)] := rfl
  rw [SqliteState.selectTransactions, hrows, List.mergeSort_singleton]
  rfl

/-- A tick reads the clock and fails at the list. -/
theorem sqlite_unreadable_blocks_tick : ∃ P Q,
    (typedSqlite fun _ => none).Reaches (Dtm.plain.SqliteJobs (fun _ => none) fun _ => True)
      nestedTables P ∧
    P.threads = [some (Dtm.plain.sqliteJob (fun _ => none) (.operation .tickRecoverOnce))] ∧
    (typedSqlite fun _ => none).Run (Dtm.plain.SqliteJobs (fun _ => none) fun _ => True) P Q ∧
    Q.threads = [some (.pure (.error "invalid JSON text"))] ∧
    ∀ txs, Q.threads[0]? = some (some (.pure (.ok txs))) → txs = [] := by
  obtain ⟨k, l, hfirst, hclock, hlist⟩ := sqlite_tick_unread .plain fun _ => none
  have hstart : (typedSqlite fun _ => none).Reaches
      (Dtm.plain.SqliteJobs (fun _ => none) fun _ => True) nestedTables
      ⟨nestedTables, [some (Dtm.plain.sqliteJob (fun _ => none) (.operation .tickRecoverOnce))]⟩ :=
    .single (.start _ ⟨_, ⟨.operation .tickRecoverOnce, trivial, rfl⟩, rfl⟩)
  have hnow : (typedSqlite fun _ => none).Step
      (Dtm.plain.SqliteJobs (fun _ => none) fun _ => True)
      ⟨nestedTables, [some (Dtm.plain.sqliteJob (fun _ => none) (.operation .tickRecoverOnce))]⟩
      ⟨nestedTables, [some (k 0)]⟩ := by
    rw [hfirst]
    exact Machine.Step.alone (typedSqlite fun _ => none) SqliteStep.currentMillis k .done
      ⟨trivial, trivial⟩
  have hselect : (typedSqlite fun _ => none).Step
      (Dtm.plain.SqliteJobs (fun _ => none) fun _ => True) ⟨nestedTables, [some (k 0)]⟩
      ⟨nestedTables, [some (l 0 (.ok (nestedTables.selectTransactions [])))]⟩ := by
    rw [hclock]
    exact Machine.Step.alone (typedSqlite fun _ => none) SqliteStep.selectTransactions (l 0) .done
      ⟨trivial, trivial⟩
  rw [nestedTables_select, hlist _ _ _ nestedSaga_unread] at hselect
  have hrun := Relation.ReflTransGen.head hnow (.single hselect)
  have hlists : Job.Lists (.operation .tickRecoverOnce) := trivial
  have hblocks := sqlite_unreadable_blocks (i := 0) .plain hlists nestedTables_keyed
    nestedTables_row nestedSaga_unreadable hstart rfl hrun
  exact ⟨_, _, hstart, rfl, hrun, rfl, fun txs htxs => (hblocks.2 txs htxs).2⟩

end Unreadable

end RozeDtm
