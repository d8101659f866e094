import RozeDtm.InMemory.Stored
import RozeDtm.Properties.RecordText
import RozeDtm.Session.Reread
import RozeDtm.Sqlite.Database

/-!
# A row that cannot be read

A payload that nests too deep is the text of no transaction.  A program that reads before it
writes cannot write over its row: its SELECT fails, and so does every list of the table.  What
that comes to for the statements is `sparesRow`, and `spares_call` says that the calls of the
store keep to it.
-/

namespace RozeDtm

open Conc

variable {floats : String → Option String}

/-- A payload that is the text of no transaction. -/
def Unreadable (floats : String → Option String) (payload : String) : Prop :=
  ∀ tx, Transaction.ofText floats payload ≠ .ok tx

/-- The rows that can be read have records of their gids. -/
def SqliteState.Keyed (floats : String → Option String) (s : SqliteState) : Prop :=
  ∀ (gid : String) row tx, s.transactions[gid]? = some row →
    Transaction.ofText floats row.payload = .ok tx → tx.gid = gid

/-- What the statements of a program do that has not read the row under `g`: it may insert a
record under `g`, and rewrite or delete what it has read. -/
def sparesRow (floats : String → Option String) (g : String) : Discipline sqliteSteps Unit where
  pre := fun _ u => match u with
    | .upsertTransaction tx => tx.gid ≠ g
    | .swapTransaction _ previousPayload tx =>
      ∃ before, Transaction.ofText floats previousPayload = .ok before ∧ tx.gid = before.gid
    | .deleteTransaction _ payload => ¬ Unreadable floats payload
    | .invokeBegin c => c.gid ≠ g
    | _ => True
  sees := fun _ u r => match u with
    | .selectTransaction gid => ∀ found, (r : Except Err (Option String)) = .ok found →
      (gid = g → ∃ payload, found = some payload ∧ Unreadable floats payload) ∧
      ∀ payload tx, found = some payload → Transaction.ofText floats payload = .ok tx →
        tx.gid = gid
    | .selectTransactions => ∀ found, (r : Except Err (List String)) = .ok found →
      ∃ payload ∈ found, Unreadable floats payload
    | _ => True
  next := fun _ _ _ => ()

/-- The statements of a program that has not been listed anything. -/
def SqliteStep.Unlisted : SqliteStep → Prop
  | .selectTransactions | .renewLease _ _ _ _ | .insertLease _ _ _ | .currentMillis => True
  | _ => False

/-- What such a program does. -/
def unlistedRow (floats : String → Option String) (g : String) : Discipline sqliteSteps Unit :=
  { sparesRow floats g with pre := fun _ u => u.Unlisted }

theorem unlistedRow_le (floats : String → Option String) (g : String) :
    Discipline.Le (unlistedRow floats g) (sparesRow floats g) where
  pre := fun {_ u} h => by cases u <;> trivial
  sees := id
  next := rfl

/-! ### The calls -/

section Calls

variable {g : String} {α : Type}

theorem spares_ask {t : Unit} {u : SqliteStep} {Q : Unit → u.Reply → Prop} :
    (sparesRow floats g).Does (SqliteStore.ask u) t Q ↔
      (sparesRow floats g).pre t u ∧ ∀ r, (sparesRow floats g).sees t u r → Q () r :=
  Discipline.does_perform

theorem unlisted_ask {t : Unit} {u : SqliteStep} {Q : Unit → u.Reply → Prop} :
    (unlistedRow floats g).Does (SqliteStore.ask u) t Q ↔
      u.Unlisted ∧ ∀ r, (sparesRow floats g).sees t u r → Q () r :=
  Discipline.does_perform

theorem spares_ofExcept {D : Discipline sqliteSteps Unit} {t : Unit} {e : Except Err α}
    {Q : Unit → α → Prop} :
    D.Does (SqliteStore.ofExcept e) t Q ↔ ∀ a, e = .ok a → Q t a := Iff.rfl

/-- A list with an unreadable payload is not read. -/
theorem mapM_unreadable {rows : List String} {txs : List Transaction}
    (h : ∃ payload ∈ rows, Unreadable floats payload) :
    rows.mapM (Transaction.ofText floats) ≠ .ok txs := by
  induction rows generalizing txs with
  | nil =>
    obtain ⟨_, hm, -⟩ := h
    cases hm
  | cons row rows ih =>
    intro hread
    rw [List.mapM_cons] at hread
    obtain ⟨tx, htx, hread⟩ := bind_eq_ok hread
    obtain ⟨rest, hrest, -⟩ := bind_eq_ok hread
    obtain ⟨payload, hm, hbad⟩ := h
    rcases List.mem_cons.mp hm with rfl | hm
    · exact hbad tx htx
    · exact ih ⟨payload, hm, hbad⟩ hrest

theorem spares_getTransaction (gid : String) :
    (sparesRow floats g).Does (SqliteStore.getTransaction floats gid) () fun _ r =>
      gid ≠ g ∧ ∀ tx, r = some tx → tx.gid = gid := by
  simp only [SqliteStore.getTransaction, Discipline.does_bind, spares_ask, spares_ofExcept]
  refine ⟨trivial, fun row hrow found hfound r hr => ?_⟩
  obtain ⟨hbad, hkeyed⟩ := hrow found hfound
  cases found with
  | none =>
    cases hr
    refine ⟨fun hg => ?_, fun tx h => by cases h⟩
    obtain ⟨payload, h, -⟩ := hbad hg
    cases h
  | some payload =>
    rw [Option.elim_some] at hr
    obtain ⟨tx, htx, rfl⟩ : ∃ tx, Transaction.ofText floats payload = .ok tx ∧ some tx = r := by
      cases htx : Transaction.ofText floats payload with
      | error e =>
        rw [htx] at hr
        cases hr
      | ok tx =>
        rw [htx] at hr
        exact ⟨tx, rfl, Except.ok.inj hr⟩
    refine ⟨fun hg => ?_, fun tx' h => ?_⟩
    · obtain ⟨payload', h, hun⟩ := hbad hg
      cases h
      exact hun tx htx
    · cases h
      exact hkeyed payload tx rfl htx

theorem spares_mutateLoop {gid operation : String}
    {f : Nat → Transaction → Except Err Transaction}
    (hf : ∀ now tx tx', f now tx = .ok tx' → tx'.gid = tx.gid) (attempts : Nat) :
    (sparesRow floats g).Does (SqliteStore.mutateLoop floats gid operation f attempts) ()
      fun _ _ => True := by
  induction attempts with
  | zero => exact Discipline.does_throw
  | succ attempts ih =>
    simp only [SqliteStore.mutateLoop, Discipline.does_bind, spares_ask, spares_ofExcept]
    refine ⟨trivial, fun _ _ row _ payload _ tx htx => ⟨trivial, fun now _ tx' htx' => ?_⟩⟩
    refine ⟨⟨tx, htx, hf now tx tx' htx'⟩, fun _ _ changed _ => ?_⟩
    change (sparesRow floats g).Does (if changed = 1 then pure tx' else _) () _
    split
    · exact Discipline.does_pure.mpr trivial
    · exact ih

/-- What an amended record is kept under. -/
theorem gid_of_amended {s s' : Transaction} (h : s' = s ∨ Amended s s') : s'.gid = s.gid := by
  rcases h with rfl | h
  · rfl
  · exact h.gid

/-- The list cannot be read while the row is there. -/
theorem unlisted_listTransactions :
    (unlistedRow floats g).Does (SqliteStore.listTransactions floats) () fun _ _ => False := by
  simp only [SqliteStore.listTransactions, Discipline.does_bind, unlisted_ask, spares_ofExcept]
  exact ⟨trivial, fun _ hrows rows h txs htxs => mapM_unreadable (hrows rows h) htxs⟩

theorem spares_deleteSelected (tx : Transaction) (found : Option String) :
    (sparesRow floats g).Does (SqliteStore.deleteSelected floats tx found) () fun _ _ => True := by
  have hrollback : (sparesRow floats g).Does (do
      SqliteStore.ofExcept (← SqliteStore.ask .rollback)
      return false : SqliteAct Bool) () fun _ _ => True := by
    simp only [Discipline.does_bind, spares_ask]
    exact ⟨trivial, fun _ _ _ _ => Discipline.does_pure.mpr trivial⟩
  cases found with
  | none => exact hrollback
  | some payload =>
    rw [SqliteStore.deleteSelected, Discipline.does_bind, spares_ofExcept]
    intro current hcurrent
    split
    · exact hrollback
    · simp only [Discipline.does_bind, spares_ask]
      exact ⟨fun hbad => hbad current hcurrent, fun _ _ _ _ => Discipline.does_pure.mpr trivial⟩

theorem spares_deleteTransactionIfUnchanged (tx : Transaction) :
    (sparesRow floats g).Does (SqliteStore.deleteTransactionIfUnchanged floats tx) ()
      fun _ _ => True := by
  simp only [SqliteStore.deleteTransactionIfUnchanged, Discipline.does_bind, spares_ask]
  exact ⟨trivial, fun _ _ _ _ => ⟨trivial, fun _ _ found _ => spares_deleteSelected tx found⟩⟩

theorem spares_updateTransaction {tx : Transaction} (h : tx.gid ≠ g) :
    (sparesRow floats g).Does (SqliteStore.updateTransaction tx) () fun _ _ => True := by
  simp only [SqliteStore.updateTransaction, Discipline.does_bind, spares_ask]
  exact ⟨trivial, fun _ _ => ⟨h, fun _ _ _ _ => Discipline.does_pure.mpr trivial⟩⟩

theorem unlisted_acquireRecoveryLease (name owner : String) (ttlMillis : Nat) :
    (unlistedRow floats g).Does (SqliteStore.acquireRecoveryLease name owner ttlMillis) ()
      fun _ _ => True := by
  have hacquired : (unlistedRow floats g).Does
      (SqliteStore.tryAcquireRecoveryLease name owner ttlMillis) () fun _ _ => True := by
    simp only [SqliteStore.tryAcquireRecoveryLease, Discipline.does_bind, unlisted_ask]
    refine ⟨trivial, fun now _ => ⟨trivial, fun _ _ renewed _ => ?_⟩⟩
    by_cases hrenewed : renewed = 1
    · subst hrenewed
      exact Discipline.does_pure.mpr trivial
    · simp only [if_neg hrenewed, Discipline.does_bind, unlisted_ask]
      exact ⟨trivial, fun _ _ _ _ => Discipline.does_pure.mpr trivial⟩
  rw [SqliteStore.acquireRecoveryLease, Discipline.does_bind]
  exact hacquired.mono fun _ _ _ => Discipline.does_pure.mpr trivial

/-- A call whose caller goes on with what it returns. -/
theorem spares_required {β : Type} {x : SqliteAct α} {f : α → β} {Q : Unit → β → Prop}
    (h : (sparesRow floats g).Does x () fun _ _ => True) (hQ : ∀ b, Q () b) :
    (sparesRow floats g).Does (x >>= fun a => pure (f a)) () Q :=
  Discipline.does_bind.mpr (h.mono fun _ _ _ => Discipline.does_pure.mpr (hQ _))

/-- A call whose caller keeps the error. -/
theorem spares_attempt {x : SqliteAct α} {Q : Unit → Except Err α → Prop}
    (h : (sparesRow floats g).Does x () fun _ _ => True) (hQ : ∀ r, Q () r) :
    (sparesRow floats g).Does (SqliteStore.attempt x) () Q :=
  Discipline.follows_bind.mpr (h.follows.mono fun _ r _ a ha => by
    cases ha
    exact hQ r)

/-- **The calls of the store keep to it**, for a program that has not read `g`. -/
theorem spares_call {o : Effect} (ho : (rereads g).pre false o) :
    (sparesRow floats g).Does (SqliteStore.call floats o) () fun _ r =>
      (rereads g).sees false o r ∧ (rereads g).next false o r = false := by
  have hchange {gid operation : String} {f : Nat → Transaction → Except Err Transaction}
      (hf : ∀ now tx tx', f now tx = .ok tx' → tx' = tx ∨ Amended tx tx') :
      (sparesRow floats g).Does (SqliteStore.mutateLoop floats gid operation f
        SqliteStore.mutationAttempts) () fun _ _ => True :=
    spares_mutateLoop (fun now tx tx' h => gid_of_amended (hf now tx tx' h)) _
  cases o with
  | insertTransaction tx =>
    have hinsert : (sparesRow floats g).Does (SqliteStore.insertTransaction tx) ()
        fun _ _ => True := by
      simp only [SqliteStore.insertTransaction, Discipline.does_bind, spares_ask]
      exact ⟨trivial, fun _ _ _ _ _ _ => trivial⟩
    exact spares_required hinsert fun _ => ⟨trivial, rfl⟩
  | getTransaction gid =>
    refine (spares_getTransaction gid).mono fun _ r hr => ⟨⟨hr.2, fun hg => absurd hg hr.1⟩, ?_⟩
    exact if_neg hr.1
  | updateTransaction tx =>
    have hne : tx.gid ≠ g := fun hg => by cases ho hg
    exact spares_required (spares_updateTransaction hne) fun _ => ⟨trivial, rfl⟩
  | registerBranch gid branch =>
    exact spares_required (hchange fun now tx tx' h =>
      (appendDynamicBranch_ok h).imp And.left And.left) fun _ => ⟨trivial, rfl⟩
  | recordWorkflowProgress gid progress =>
    exact spares_required (hchange fun now tx tx' h =>
      (appendWorkflowProgress_ok h).imp And.left And.left) fun _ => ⟨trivial, rfl⟩
  | finishWorkflow gid status reason result =>
    exact spares_attempt (hchange fun now tx tx' h =>
      (applyWorkflowCompletion_ok h).imp id And.left) fun _ => ⟨trivial, rfl⟩
  | deferWorkflowRecovery gid delay =>
    exact spares_attempt (hchange fun now tx tx' h =>
      Or.inr (deferWorkflowRecovery_ok h).1) fun _ => ⟨trivial, rfl⟩
  | listTransactions =>
    exact (unlisted_listTransactions.le (unlistedRow_le floats g)).mono fun _ _ h => h.elim
  | deleteTransactionIfUnchanged tx =>
    exact (spares_deleteTransactionIfUnchanged tx).mono fun _ _ _ => ⟨trivial, rfl⟩
  | getKv category key =>
    have hget : (sparesRow floats g).Does (SqliteStore.getKv category key) ()
        fun _ _ => True := by
      simp only [SqliteStore.getKv, Discipline.does_bind, spares_ask]
      exact ⟨trivial, fun _ _ _ _ _ _ => trivial⟩
    exact hget.mono fun _ _ _ => ⟨trivial, rfl⟩
  | barrier b =>
    have hbarrier : (sparesRow floats g).Does (SqliteStore.barrier b) () fun _ _ => True := by
      simp only [SqliteStore.barrier, Discipline.does_bind, spares_ask]
      exact ⟨trivial, fun _ _ _ _ => trivial⟩
    exact hbarrier.mono fun _ _ _ => ⟨trivial, rfl⟩
  | releaseBarrier b =>
    have hrelease : (sparesRow floats g).Does (SqliteStore.releaseBarrier b) ()
        fun _ _ => True := by
      simp only [SqliteStore.releaseBarrier, Discipline.does_bind, spares_ask]
      exact ⟨trivial, fun _ _ _ _ => Discipline.does_pure.mpr trivial⟩
    exact hrelease.mono fun _ _ _ => ⟨trivial, rfl⟩
  | acquireRecoveryLease name owner ttlMillis =>
    exact ((unlisted_acquireRecoveryLease name owner ttlMillis).le (unlistedRow_le floats g)).mono
      fun _ _ _ => ⟨trivial, rfl⟩
  | currentMillis => exact spares_ask.mpr ⟨trivial, fun _ _ => ⟨trivial, rfl⟩⟩
  | invokeBegin c =>
    refine spares_ask.mpr ⟨fun hg => ?_, fun _ _ => ⟨trivial, rfl⟩⟩
    cases ho hg
  | invokeEnd c => exact spares_ask.mpr ⟨trivial, fun _ _ => ⟨trivial, rfl⟩⟩
  | queryWorkflowCallback request options =>
    exact spares_ask.mpr ⟨trivial, fun _ _ => ⟨trivial, rfl⟩⟩
  | joinNext n => exact spares_ask.mpr ⟨trivial, fun _ _ => ⟨trivial, rfl⟩⟩

end Calls

/-! ### The row -/

theorem SqliteState.Keyed.put {s : SqliteState} {gid : String} {tx : Transaction}
    (h : s.Keyed floats) (hgid : tx.gid = gid) (htyped : tx.Typed floats) :
    (s.put gid tx).Keyed floats := by
  intro gid' row' tx' hrow htx'
  rw [SqliteState.put, Std.ExtTreeMap.getElem?_insert] at hrow
  split at hrow
  · rename_i heq
    cases hrow
    rw [htyped.of_ofText htx', hgid, Std.compare_eq_iff_eq.mp heq]
  · exact h gid' row' tx' hrow htx'

/-- A step whose record has fields of their types. -/
def SqliteStep.Typed (floats : String → Option String) : SqliteStep → Prop
  | .insertTransaction tx | .upsertTransaction tx | .swapTransaction _ _ tx => tx.Typed floats
  | _ => True

/-- Operations over the SQLite store that write such records. -/
def typedSqlite (floats : String → Option String) :
    Machine sqliteSteps SqliteState SqliteOutcome :=
  sqliteStore.restrict fun o _ => SqliteStep.Typed floats o

/-- The row under `g` is `row`, and no branch of `g` was called since `past`. -/
structure RowSpared (floats : String → Option String) (g : String) (row : TransactionRow)
    (past : List (Nat × Event)) (s : SqliteState) : Prop where
  stored : s.transactions[g]? = some row
  keyed : s.Keyed floats
  uncalled : ∃ events, s.history = events ++ past ∧
    ∀ i c, (i, Event.began c) ∈ events → c.gid ≠ g

namespace RowSpared

variable {g : String} {row : TransactionRow} {past : List (Nat × Event)} {s s' : SqliteState}
  {i : Nat}

theorem congr (h : RowSpared floats g row past s) (htxs : s'.transactions = s.transactions)
    (hhistory : s'.history = s.history) : RowSpared floats g row past s' where
  stored := htxs ▸ h.stored
  keyed := fun gid row' tx hrow => h.keyed gid row' tx (htxs ▸ hrow)
  uncalled := hhistory ▸ h.uncalled

/-- Another record is written. -/
theorem put {gid : String} {tx : Transaction} (h : RowSpared floats g row past s)
    (hgid : tx.gid = gid) (hne : gid ≠ g) (htyped : tx.Typed floats) :
    RowSpared floats g row past (s.put gid tx) where
  stored := by
    rw [SqliteState.put, Std.ExtTreeMap.getElem?_insert,
      if_neg fun heq => hne (Std.compare_eq_iff_eq.mp heq)]
    exact h.stored
  keyed := h.keyed.put hgid htyped
  uncalled := h.uncalled

/-- A record that can be read is another one. -/
theorem ne_of_read (h : RowSpared floats g row past s) (hbad : Unreadable floats row.payload)
    {gid : String} {row' : TransactionRow} {tx : Transaction}
    (hrow : s.transactions[gid]? = some row')
    (htx : Transaction.ofText floats row'.payload = .ok tx) : gid ≠ g := by
  rintro rfl
  cases hrow.symm.trans h.stored
  exact hbad tx htx

theorem note {e : Event} (h : RowSpared floats g row past s) (he : ∀ c, e = .began c → c.gid ≠ g) :
    RowSpared floats g row past (s.note i e) where
  stored := h.stored
  keyed := h.keyed
  uncalled := by
    obtain ⟨events, hevents, hne⟩ := h.uncalled
    refine ⟨(i, e) :: events, congrArg _ hevents, fun j c hm => ?_⟩
    rcases List.mem_cons.mp hm with heq | hm
    · exact he c (Prod.mk.inj heq).2.symm
    · exact hne j c hm

/-- **A permitted statement leaves the row as it is.** -/
theorem done {u : SqliteStep} (h : RowSpared floats g row past s)
    (hbad : Unreadable floats row.payload) (hpre : (sparesRow floats g).pre () u)
    (htyped : u.Typed floats) (c : SqliteOutcome) :
    RowSpared floats g row past (s.done i c u).2 := by
  cases u with
  | insertTransaction tx =>
    change RowSpared floats g row past (s.insertTransaction tx).2
    rw [SqliteState.insertTransaction]
    by_cases hthere : s.transactions.contains tx.gid = true
    · rw [if_pos hthere]
      exact h
    · rw [if_neg hthere]
      refine h.put rfl (fun hg => hthere ?_) htyped
      rw [hg, Std.ExtTreeMap.contains_eq_isSome_getElem?, h.stored]
      rfl
  | upsertTransaction tx => exact h.put rfl hpre htyped
  | swapTransaction gid previous tx =>
    change RowSpared floats g row past (s.swapTransaction gid previous tx).2
    rw [SqliteState.swapTransaction]
    by_cases hsame : ((s.transactions[gid]?).any fun row => row.payload = previous) = true
    · rw [if_pos hsame]
      obtain ⟨row', hrow, hpayload⟩ := (Option.any_eq_true _ _).mp hsame
      rw [decide_eq_true_eq] at hpayload
      obtain ⟨before, hbefore, hgid⟩ := hpre
      rw [← hpayload] at hbefore
      exact h.put (hgid.trans (h.keyed gid row' before hrow hbefore))
        (h.ne_of_read hbad hrow hbefore) htyped
    · rw [if_neg hsame]
      exact h
  | deleteTransaction gid payload =>
    change RowSpared floats g row past (s.deleteTransaction gid payload).2
    rw [SqliteState.deleteTransaction]
    by_cases hsame : ((s.transactions[gid]?).any fun row => row.payload = payload) = true
    · rw [if_pos hsame]
      obtain ⟨row', hrow, hpayload⟩ := (Option.any_eq_true _ _).mp hsame
      rw [decide_eq_true_eq] at hpayload
      have hne : gid ≠ g := by
        rintro rfl
        cases hrow.symm.trans h.stored
        exact hpre (hpayload ▸ hbad)
      refine ⟨?_, fun gid' row' tx hrow' => h.keyed gid' row' tx ?_, h.uncalled⟩
      · rw [Std.ExtTreeMap.getElem?_erase,
          if_neg fun heq => hne (Std.compare_eq_iff_eq.mp heq)]
        exact h.stored
      · rw [Std.ExtTreeMap.getElem?_erase] at hrow'
        split at hrow'
        · cases hrow'
        · exact hrow'
    · rw [if_neg hsame]
      exact h
  | barrier b =>
    change RowSpared floats g row past (s.barrier b).2
    rw [SqliteState.barrier]
    split
    · exact h
    · split
      · exact h.congr rfl rfl
      · split <;> exact h.congr rfl rfl
  | deleteBarrier b => exact h.congr rfl rfl
  | renewLease name owner now expiresAtMillis =>
    change RowSpared floats g row past (s.renewLease name owner now expiresAtMillis).2
    rw [SqliteState.renewLease]
    split
    · exact h.congr rfl rfl
    · exact h
  | insertLease name owner expiresAtMillis =>
    change RowSpared floats g row past (s.insertLease name owner expiresAtMillis).2
    rw [SqliteState.insertLease]
    split
    · exact h
    · exact h.congr rfl rfl
  | invokeBegin c => exact h.note fun c' hc => by cases hc; exact hpre
  | invokeEnd c => exact h.note fun c' hc => by cases hc
  | _ => exact h

theorem exec {u : SqliteStep} (h : RowSpared floats g row past s)
    (hbad : Unreadable floats row.payload) (hpre : (sparesRow floats g).pre () u)
    (htyped : u.Typed floats) (c : SqliteOutcome) :
    RowSpared floats g row past (s.exec i u c).2 := by
  rcases SqliteState.exec_lossy i u c s with he | ⟨-, he | he⟩ <;> rw [he]
  · exact h.done hbad hpre htyped c
  · exact h
  · exact h.done hbad hpre htyped c

/-- The row is among those that are listed. -/
theorem mem_select (h : RowSpared floats g row past s) (order : List String) :
    row.payload ∈ s.selectTransactions order := by
  have hm : (g, row) ∈ s.transactions.toList :=
    Std.ExtTreeMap.mem_toList_iff_getElem?_eq_some.mpr h.stored
  exact List.mem_map.mpr ⟨(g, row), (List.mergeSort_perm _ _).mem_iff.mpr hm, rfl⟩

theorem sees {u : SqliteStep} (h : RowSpared floats g row past s)
    (hbad : Unreadable floats row.payload) (c : SqliteOutcome) :
    (sparesRow floats g).sees () u (s.exec i u c).1 := by
  cases u with
  | selectTransaction gid =>
    intro found hfound
    rcases SqliteState.exec_lossy i (.selectTransaction gid) c s with he | ⟨he, -⟩
    · rw [he] at hfound
      cases hfound
      refine ⟨fun hg => ?_, fun payload tx hpayload htx => ?_⟩
      · subst hg
        rw [h.stored]
        exact ⟨row.payload, rfl, hbad⟩
      · obtain ⟨row', hrow, rfl⟩ := Option.map_eq_some_iff.mp hpayload
        exact h.keyed gid row' tx hrow htx
    · rw [hfound] at he
      cases he
  | selectTransactions =>
    intro found hfound
    rcases SqliteState.exec_lossy i .selectTransactions c s with he | ⟨he, -⟩
    · rw [he] at hfound
      cases hfound
      exact ⟨row.payload, h.mem_select c.order, hbad⟩
    · rw [hfound] at he
      cases he
  | _ => trivial

/-- The row stays while the programs keep to the discipline. -/
def outline (past : List (Nat × Event)) (hbad : Unreadable floats row.payload) :
    Outline (typedSqlite floats) (sparesRow floats g) () where
  inv := RowSpared floats g row past
  own := fun _ _ _ => True
  sees := fun c h _ _ _ => h.sees hbad c
  inv_step := fun c h _ hpre hallow => h.exec hbad hpre hallow.2 c
  own_step := fun _ _ _ _ _ => trivial
  own_other := fun _ _ _ _ _ _ _ _ _ => trivial
  inv_drift := fun h hd => by
    obtain ⟨now, rfl⟩ := hd
    exact h.congr rfl rfl
  own_drift := fun _ _ _ => trivial

end RowSpared

end RozeDtm
