import RozeDtm.Properties.BarrierAgreement
import RozeDtm.Properties.RecordText
import RozeDtm.Sqlite.Calls

/-!
# The world that the SQLite tables hold

`StoredIn` says which world the tables hold: the payloads are texts of its records, the rows of
the leases its leases.  Each statement that writes goes with the call of the in-memory store of
which it is the deciding one: `StoredIn.put`, `StoredIn.barrier`, `StoredIn.deleted` and
`StoredIn.leased`.

The statements of `barrier` are those of `Relational.barrier` (`barrier_statements`).
-/

namespace RozeDtm

open Conc

variable {floats : String → Option String}

/-! ### Runs -/

/-- A step whose record reads back, whose barrier has no colon in its names, and whose time is
one of an `i64`. -/
def SqliteStep.Counts (floats : String → Option String) : SqliteStep → Prop
  | .insertTransaction tx | .upsertTransaction tx | .swapTransaction _ _ tx =>
    Transaction.ofText floats tx.toText = .ok tx
  | .barrier b | .deleteBarrier b => b.Plain
  | .renewLease _ _ _ expiresAtMillis | .insertLease _ _ expiresAtMillis =>
    expiresAtMillis < 2 ^ 63
  | _ => True

/-- Operations over the SQLite store in which every step counts. -/
def countedSqlite (floats : String → Option String) :
    Machine sqliteSteps SqliteState SqliteOutcome :=
  sqliteStore.restrict fun o _ => SqliteStep.Counts floats o

/-! ### The tables -/

/-- The tables hold the world `w`. -/
structure StoredIn (floats : String → Option String) (s : SqliteState) (w : World) : Prop where
  txs : ∀ gid : String, (s.transactions[gid]?).map (fun row =>
      (Transaction.ofText floats row.payload, row.updatedAtMillis)) =
    (w.txs[gid]?).map fun tx => (.ok tx, millisToColumn tx.updatedAtMillis)
  barriers : w.barriers = s.barriers
  plain : ∀ b ∈ s.barriers, b.Plain
  kv : ∀ entry, w.kv entry = (s.kv entry).bind fun row => (kvEntryFromValues row).toOption
  leases : ∀ name : String, s.leases[name]? = (w.leases[name]?).map fun lease =>
    ⟨lease.owner, millisToColumn lease.expiresAtMillis⟩
  bounded : ∀ (name : String) (lease : RecoveryLease), w.leases[name]? = some lease →
    lease.expiresAtMillis < 2 ^ 63
  history : s.history = w.history.filter fun p => p.2.isBranchCall

namespace StoredIn

variable {s : SqliteState} {w : World}

theorem clock (h : StoredIn floats s w) (now : Nat) : StoredIn floats s { w with clock := now } :=
  ⟨h.txs, h.barriers, h.plain, h.kv, h.leases, h.bounded, h.history⟩

/-- The record that a row is of. -/
theorem record {gid : String} {row : TransactionRow} {tx : Transaction} (h : StoredIn floats s w)
    (hrow : s.transactions[gid]? = some row)
    (htx : Transaction.ofText floats row.payload = .ok tx) : w.txs[gid]? = some tx := by
  have htxs := h.txs gid
  rw [hrow, Option.map_some, htx] at htxs
  obtain ⟨tx', htx', heq⟩ := Option.map_eq_some_iff.mp htxs.symm
  cases (Prod.mk.inj heq).1
  exact htx'

theorem absent {gid : String} (h : StoredIn floats s w) :
    s.transactions[gid]? = none ↔ w.txs[gid]? = none := by
  have htxs := h.txs gid
  rw [← Option.map_eq_none_iff (f := fun row : TransactionRow =>
    (Transaction.ofText floats row.payload, row.updatedAtMillis)), htxs, Option.map_eq_none_iff]

theorem contains (h : StoredIn floats s w) (gid : String) :
    s.transactions.contains gid = w.txs.contains gid := by
  rw [Std.ExtTreeMap.contains_eq_isSome_getElem?, Std.ExtTreeMap.contains_eq_isSome_getElem?]
  cases hw : w.txs[gid]? with
  | none =>
    rw [h.absent.mpr hw]
    rfl
  | some tx =>
    cases hs : s.transactions[gid]? with
    | none =>
      rw [h.absent.mp hs] at hw
      cases hw
    | some row => rfl

/-- **A record is written**, below as its text. -/
theorem put {gid : String} {tx : Transaction} {w' : World} (h : StoredIn floats s w)
    (hw : World.Stores gid tx w w') (htx : Transaction.ofText floats tx.toText = .ok tx) :
    StoredIn floats (s.put gid tx) w' where
  txs := fun g => by
    simp only [SqliteState.put, hw.txs, Std.ExtTreeMap.getElem?_insert]
    by_cases hg : compare gid g = .eq
    · rw [if_pos hg, if_pos hg, Option.map_some, Option.map_some, htx]
    · rw [if_neg hg, if_neg hg]
      exact h.txs g
  barriers := hw.barriers.trans h.barriers
  plain := h.plain
  kv := fun entry => by
    rw [hw.kv]
    exact h.kv entry
  leases := fun name => by
    rw [hw.leases]
    exact h.leases name
  bounded := fun name lease hl => h.bounded name lease (hw.leases ▸ hl)
  history := h.history.trans hw.history.symm

/-- A record and its barriers are deleted. -/
theorem deleted (h : StoredIn floats s w) (gid : String) :
    StoredIn floats
      { s with
        transactions := s.transactions.erase gid
        barriers := s.barriers.filter fun b => b.gid ≠ gid }
      { w with
        txs := w.txs.erase gid
        barriers := w.barriers.filter fun b => b.gid ≠ gid } where
  txs := fun g => by
    simp only [Std.ExtTreeMap.getElem?_erase]
    by_cases hg : compare gid g = .eq
    · rw [if_pos hg, if_pos hg]
      rfl
    · rw [if_neg hg, if_neg hg]
      exact h.txs g
  barriers := by rw [h.barriers]
  plain := fun b hb => h.plain b (Finset.mem_filter.mp hb).1
  kv := h.kv
  leases := h.leases
  bounded := h.bounded
  history := h.history

/-- A step on the barriers. -/
theorem withBarriers {i : Nat} {e : Event} (h : StoredIn floats s w)
    {barriers : Finset BranchBarrier} (hplain : ∀ b ∈ barriers, b.Plain)
    (he : e.isBranchCall = false) :
    StoredIn floats { s with barriers := barriers }
      (({ w with barriers := barriers } : World).note i e) where
  txs := h.txs
  barriers := rfl
  plain := hplain
  kv := h.kv
  leases := h.leases
  bounded := h.bounded
  history := by
    rw [World.note_history, List.filter_cons_of_neg (by simp [he])]
    exact h.history

/-- A lease is granted. -/
theorem leased (h : StoredIn floats s w) (name owner : String) {expiresAtMillis : Nat}
    (hbound : expiresAtMillis < 2 ^ 63) :
    StoredIn floats
      { s with leases := s.leases.insert name ⟨owner, millisToColumn expiresAtMillis⟩ }
      { w with leases := w.leases.insert name ⟨owner, expiresAtMillis⟩ } where
  txs := h.txs
  barriers := h.barriers
  plain := h.plain
  kv := h.kv
  leases := fun n => by
    simp only [Std.ExtTreeMap.getElem?_insert]
    split
    · rfl
    · exact h.leases n
  bounded := fun n lease hl => by
    simp only [Std.ExtTreeMap.getElem?_insert] at hl
    split at hl
    · cases hl
      exact hbound
    · exact h.bounded n lease hl
  history := h.history

end StoredIn

/-! ### Leases -/

section Leases

variable {s : SqliteState} {w : World} {name owner : String} {now ttlMillis : Nat}

theorem millisToColumn_of_lt {n : Nat} (h : n < 2 ^ 63) : millisToColumn n = n := if_pos h

/-- A time that is kept as it is, and not after another one as the column has it. -/
theorem le_of_millisToColumn_le {m n : Nat} (hm : m < 2 ^ 63)
    (h : millisToColumn m ≤ millisToColumn n) : m ≤ n := by
  rw [millisToColumn_of_lt hm] at h
  unfold millisToColumn at h
  split at h <;> omega

/-- The lease of a row that the UPDATE renews. -/
theorem StoredIn.renewable (h : StoredIn floats s w)
    (hrow : ((s.leases[name]?).any fun row =>
      row.owner = owner || row.expiresAtMillis ≤ millisToColumn now) = true) :
    ∃ lease, w.leases[name]? = some lease ∧
      (lease.owner = owner ∨ lease.expiresAtMillis ≤ now) := by
  rw [h.leases] at hrow
  cases hl : w.leases[name]? with
  | none =>
    rw [hl] at hrow
    cases hrow
  | some lease =>
    rw [hl, Option.map_some, Option.any_some, Bool.or_eq_true, decide_eq_true_eq,
      decide_eq_true_eq] at hrow
    exact ⟨lease, rfl, hrow.imp id (le_of_millisToColumn_le (h.bounded name lease hl))⟩

/-- **A lease that is free or was the owner's is granted**, on both sides. -/
theorem StoredIn.granted (h : StoredIn floats s w)
    (hfree : ∀ lease, w.leases[name]? = some lease →
      lease.owner = owner ∨ lease.expiresAtMillis ≤ now)
    (hbound : satAdd64 now ttlMillis < 2 ^ 63) :
    ∃ w', InMemory.acquireRecoveryLease { w with clock := now } name owner ttlMillis =
        (some { name, owner, epoch := 1 }, w') ∧
      StoredIn floats
        { s with
          leases := s.leases.insert name ⟨owner, millisToColumn (satAdd64 now ttlMillis)⟩ } w' := by
  have hnot : ¬ ((w.leases[name]?).any fun lease =>
      lease.owner ≠ owner && now < lease.expiresAtMillis) = true := by
    rw [Option.any_eq_true]
    rintro ⟨lease, hl, hheld⟩
    simp only [Bool.and_eq_true, decide_eq_true_eq] at hheld
    rcases hfree lease hl with howner | hexpired
    · exact hheld.1 howner
    · omega
  refine ⟨{ w with clock := now, leases := w.leases.insert name ⟨owner, satAdd64 now ttlMillis⟩ },
    ?_, (h.clock now).leased name owner hbound⟩
  rw [InMemory.acquireRecoveryLease, InMemory.tryAcquireRecoveryLease, if_neg hnot]
  rfl

end Leases

/-! ### Listing -/

theorem mapM_eq_ok {α β : Type} {f : α → Except Err β} {l : List α} {l' : List β}
    (h : l.map f = l'.map .ok) : l.mapM f = .ok l' := by
  induction l generalizing l' with
  | nil =>
    rw [List.map_nil, eq_comm, List.map_eq_nil_iff] at h
    rw [h]
    rfl
  | cons a l ih =>
    cases l' with
    | nil => cases h
    | cons b l' =>
      obtain ⟨ha, hl⟩ := List.cons.inj h
      rw [List.mapM_cons, ha, ih hl]
      rfl

/-- A record as its row shows it. -/
def shown (entry : String × Transaction) : String × Except Err Transaction × Int :=
  (entry.1, .ok entry.2, millisToColumn entry.2.updatedAtMillis)

/-- **The rows are listed as the records are**: by time. -/
theorem StoredIn.listed {s : SqliteState} {w : World} (h : StoredIn floats s w)
    (order : List String) :
    (s.selectTransactions order).mapM (Transaction.ofText floats) =
      .ok (SqliteCalls.listTransactions order w) := by
  have hentries : (s.transactions.toList.map fun e =>
      (e.1, Transaction.ofText floats e.2.payload, e.2.updatedAtMillis)) =
      w.txs.toList.map shown := by
    have hmap : (s.transactions.map fun _ row =>
        (Transaction.ofText floats row.payload, row.updatedAtMillis)) =
        w.txs.map fun _ tx =>
          ((.ok tx : Except Err Transaction), millisToColumn tx.updatedAtMillis) := by
      refine Std.ExtTreeMap.ext_getElem? fun gid => ?_
      rw [Std.ExtTreeMap.getElem?_map, Std.ExtTreeMap.getElem?_map]
      exact h.txs gid
    have hlists := congrArg Std.ExtTreeMap.toList hmap
    rwa [Std.ExtTreeMap.toList_map, Std.ExtTreeMap.toList_map] at hlists
  refine mapM_eq_ok ?_
  -- both are sorted as what they are shown as
  let le (a b : String × Except Err Transaction × Int) : Bool :=
    timeLe order (a.1, a.2.2) (b.1, b.2.2)
  have hsorted : (s.transactions.toList.mergeSort fun a b =>
      timeLe order (a.1, a.2.updatedAtMillis) (b.1, b.2.updatedAtMillis)).map (fun e =>
        (e.1, Transaction.ofText floats e.2.payload, e.2.updatedAtMillis)) =
      (w.txs.toList.mergeSort fun a b => timeLe order (a.1, millisToColumn a.2.updatedAtMillis)
        (b.1, millisToColumn b.2.updatedAtMillis)).map shown := by
    refine (List.map_mergeSort (s := le) fun _ _ _ _ => rfl).trans ?_
    rw [hentries]
    exact (List.map_mergeSort (f := shown) (s := le) fun _ _ _ _ => rfl).symm
  rw [SqliteState.selectTransactions, SqliteCalls.listTransactions, List.map_map, List.map_map]
  have hread := congrArg (List.map fun e => e.2.1) hsorted
  rwa [List.map_map, List.map_map] at hread

/-! ### Barriers -/

section Barriers

variable {s : SqliteState} {w : World} {b : BranchBarrier}

theorem hasBarrier_iff {s : SqliteState} (hs : ∀ b ∈ s.barriers, b.Plain) (hb : b.Plain) :
    s.HasBarrier b.textKey ↔ b ∈ s.barriers := by
  refine ⟨?_, fun h => ⟨b, h, rfl⟩⟩
  rintro ⟨row, hrow, hkey⟩
  rwa [← (hs row hrow).textKey_inj hb hkey]

theorem hasBarrier_iff_mem {s : SqliteState} {key : String} :
    s.HasBarrier key ↔ key ∈ s.barriers.image BranchBarrier.textKey := by
  rw [Finset.mem_image]
  rfl

/-- **The step of `barrier` is what its statements do** while no other transaction writes. -/
theorem barrier_statements (s : SqliteState) (b : BranchBarrier) {db : Db} (hquiet : db.Quiet)
    (hrows : db.rows = s.barriers.image BranchBarrier.textKey) :
    ∃ db', Dialect.sqlite.alone (Relational.barrier b) db = (.ok (s.barrier b).1, db') ∧
      db'.Quiet ∧ db'.rows = (s.barrier b).2.barriers.image BranchBarrier.textKey := by
  obtain ⟨db', halone, hquiet', hrows'⟩ := Dialect.sqlite.alone_barrier hquiet b
  have hinsert : insert b.textKey (s.barriers.image BranchBarrier.textKey) =
      (insert b s.barriers).image BranchBarrier.textKey := (Finset.image_insert ..).symm
  have hdecide : Dialect.sqlite.decideRows db.rows b =
      (.ok (s.barrier b).1, (s.barrier b).2.barriers.image BranchBarrier.textKey) := by
    rw [hrows]
    simp only [Dialect.decideRows, Dialect.sqlite, id, SqliteState.barrier, hasBarrier_iff_mem,
      hinsert]
    by_cases hdup : b.textKey ∈ s.barriers.image BranchBarrier.textKey
    · rw [if_pos hdup, if_pos hdup]
    rw [if_neg hdup, if_neg hdup]
    by_cases ht : b.op = "try"
    · have hne : ¬ b.op = "cancel" := by rw [ht]; decide
      rw [if_pos ht]
      by_cases hc : b.cancelOf.textKey ∈ (insert b s.barriers).image BranchBarrier.textKey
      · rw [if_pos hc, if_pos ⟨ht, hc⟩]
        congr 1
        ext key
        simp only [Finset.mem_erase, Finset.mem_image, Finset.mem_filter]
        constructor
        · rintro ⟨hkey, row, hrow, rfl⟩
          exact ⟨row, ⟨hrow, hkey⟩, rfl⟩
        · rintro ⟨row, ⟨hrow, hkey⟩, rfl⟩
          exact ⟨hkey, row, hrow, rfl⟩
      · rw [if_neg hc, if_neg (mt And.right hc), if_neg (mt And.left hne)]
    rw [if_neg ht, if_neg (mt And.left ht)]
    by_cases hc : b.op = "cancel"
    · rw [if_pos hc]
      by_cases hnone : b.tryOf.textKey ∉ (insert b s.barriers).image BranchBarrier.textKey
      · rw [if_pos hnone, if_pos ⟨hc, hnone⟩]
      · rw [if_neg hnone, if_neg (mt And.right hnone)]
    · rw [if_neg hc, if_neg (mt And.left hc)]
  rw [hdecide] at halone hrows'
  exact ⟨db', halone, hquiet', hrows'⟩

/-- **The barriers of the table decide as those of the in-memory store do**, when no name has a
colon in it. -/
theorem StoredIn.barrier (h : StoredIn floats s w) (hb : b.Plain) :
    (s.barrier b).1 = (InMemory.barrier w b).1 ∧
    (s.barrier b).2 = { s with barriers := (InMemory.barrier w b).2.barriers } ∧
    ∀ row ∈ (InMemory.barrier w b).2.barriers, row.Plain := by
  have hplain := h.plain
  have hinserted : ∀ row ∈ insert b s.barriers, row.Plain := by
    intro row hrow
    rcases Finset.mem_insert.mp hrow with rfl | hrow
    · exact hb
    · exact hplain row hrow
  have hhas : s.HasBarrier b.textKey ↔ b ∈ s.barriers := hasBarrier_iff hplain hb
  rw [SqliteState.barrier, InMemory.barrier_eq, h.barriers]
  by_cases hdup : b ∈ s.barriers
  · rw [if_pos (hhas.mpr hdup), if_pos hdup]
    exact ⟨rfl, by rw [h.barriers], by rw [h.barriers]; exact hplain⟩
  rw [if_neg (mt hhas.mp hdup), if_neg hdup]
  have hother {a : BranchBarrier} (ha : a.Plain) (hne : a ≠ b) :
      ({ s with barriers := insert b s.barriers } : SqliteState).HasBarrier a.textKey ↔
        a ∈ s.barriers := by
    rw [hasBarrier_iff hinserted ha, Finset.mem_insert]
    exact or_iff_right hne
  -- a Try is not its own Cancel, and a Cancel not its own Try
  have htry : b.op = "try" ∧ ({ s with barriers := insert b s.barriers } :
      SqliteState).HasBarrier b.cancelOf.textKey ↔ b.op = "try" ∧ b.cancelOf ∈ s.barriers :=
    and_congr_right fun ht => hother hb fun h => by
      have hop : "cancel" = "try" := (congrArg BranchBarrier.op h).trans ht
      exact absurd hop (by decide)
  have hcancel : b.op = "cancel" ∧ ¬ ({ s with barriers := insert b s.barriers } :
      SqliteState).HasBarrier b.tryOf.textKey ↔ b.op = "cancel" ∧ b.tryOf ∉ s.barriers :=
    and_congr_right fun hc => not_congr (hother hb fun h => by
      have hop : "try" = "cancel" := (congrArg BranchBarrier.op h).trans hc
      exact absurd hop (by decide))
  simp only [htry, hcancel]
  by_cases ht : b.op = "try" ∧ b.cancelOf ∈ s.barriers
  · rw [if_pos ht, if_pos ht]
    refine ⟨rfl, ?_, by rw [h.barriers]; exact hplain⟩
    -- the row that was inserted is the only one with its key
    have hrows : ((insert b s.barriers).filter fun row => row.textKey ≠ b.textKey) =
        s.barriers := by
      ext row
      rw [Finset.mem_filter, Finset.mem_insert]
      constructor
      · rintro ⟨rfl | hrow, hkey⟩
        · exact absurd rfl hkey
        · exact hrow
      · intro hrow
        refine ⟨Or.inr hrow, fun hkey => hdup ?_⟩
        rwa [← (hplain row hrow).textKey_inj hb hkey]
    rw [hrows, h.barriers]
  rw [if_neg ht, if_neg ht]
  by_cases hc : b.op = "cancel" ∧ b.tryOf ∉ s.barriers
  · rw [if_pos hc, if_pos hc]
    have hself : b.cancelOf = b := by rw [BranchBarrier.cancelOf, ← hc.1]
    exact ⟨rfl, by rw [hself], by rw [hself]; exact hinserted⟩
  · rw [if_neg hc, if_neg hc]
    exact ⟨rfl, rfl, hinserted⟩

end Barriers

end RozeDtm
