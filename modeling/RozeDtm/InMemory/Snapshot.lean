import RozeDtm.InMemory.Ledger
import RozeDtm.InMemory.Stored
import RozeDtm.Model.System

/-!
# Snapshots and stale writes

An operation writes back a record that it has made from a snapshot, and the in-memory
store does not look at what it overwrites.  A write is `Fresh` when the record under the
gid still has the revision that the snapshot had.  In the runs in which every write of a
gid is fresh, a snapshot with the stored revision is the stored record (`Current`), so
what the operations do to their snapshots they do to the record: `freshOutline` and
`fresh_update`.
-/

namespace RozeDtm

open Conc

/-- A step that does not write over a record of `g` that is newer than the one its writer
has read; revisions are below the largest `u64`, from where they stop to count. -/
def Fresh (g : String) (o : Effect) (w : World) : Prop :=
  (∀ s ∈ w.txs[g]?, s.revision < u64Max) ∧
    ∀ tx ∈ o.write?, tx.gid = g → ∃ s ∈ w.txs[g]?, s.revision = tx.revision

instance (g : String) (o : Effect) (w : World) : Decidable (Fresh g o w) :=
  inferInstanceAs (Decidable (_ ∧ _))

/-- A snapshot of a record: it is not newer than the stored one, and one of the same age is
the same but for the time of the last update, which the store sets. -/
def Current (base : Transaction) (stored : Option Transaction) : Prop :=
  ∃ s, stored = some s ∧ base.revision ≤ s.revision ∧
    (base.revision = s.revision → s = { base with updatedAtMillis := s.updatedAtMillis })

/-- What a stored record can become while snapshots of it are around. -/
def Evolves (stored stored' : Option Transaction) : Prop :=
  stored' = stored ∨ ∀ s, stored = some s → ∃ s', stored' = some s' ∧ s.revision < s'.revision

theorem Current.evolves {base : Transaction} {stored stored' : Option Transaction}
    (h : Current base stored) (he : Evolves stored stored') : Current base stored' := by
  obtain ⟨s, hs, hle, heq⟩ := h
  rcases he with rfl | he
  · exact ⟨s, hs, hle, heq⟩
  · obtain ⟨s', hs', hlt⟩ := he s hs
    exact ⟨s', hs', Nat.le_of_lt (Nat.lt_of_le_of_lt hle hlt),
      fun h => absurd h (Nat.ne_of_lt (Nat.lt_of_le_of_lt hle hlt))⟩

theorem satAdd64_of_lt {n : Nat} (h : n < u64Max) : satAdd64 n 1 = n + 1 :=
  Nat.min_eq_left h

section Snapshot

variable {g : String} {i : Nat} {σ : Session} {w : World} {o : Effect}

theorem succeeded_exec {c : Outcome} {b : BranchBarrier} (h : Succeeded w.history b) :
    Succeeded (InMemory.exec i o c w).2.history b := by
  rcases history_step i o c w with hh | ⟨e, -, hh⟩ <;> rw [hh]
  · exact h
  · exact h.cons

theorem not_delete (hp : registering.pre σ o) (tx : Transaction) :
    o ≠ .deleteTransactionIfUnchanged tx := by
  rintro rfl
  exact hp

/-- **The record under `g` through a fresh step.** -/
theorem Fresh.evolves (hf : Fresh g o w) (hp : registering.pre σ o) (i : Nat) (c : Outcome) :
    Evolves w.txs[g]? (InMemory.exec i o c w).2.txs[g]? := by
  rcases txs_step i c w g (not_delete hp) with h | ⟨tx, rfl, hg, h⟩ | ⟨tx, rfl, hg, hn, h⟩ |
    ⟨s, s', hs, ha, h⟩
  · exact Or.inl h
  · refine Or.inr fun s hs => ⟨_, h, ?_⟩
    obtain ⟨s₀, hs₀, hr⟩ := hf.2 tx rfl hg
    cases hs.symm.trans hs₀
    have hlt := hf.1 s hs
    simp only [bumpTransactionRevision, ← hr, satAdd64_of_lt hlt]
    exact Nat.lt_succ_self _
  · refine Or.inr fun s hs => ?_
    rw [hn] at hs
    cases hs
  · rcases ha.amended with rfl | ha
    · exact Or.inl (h.trans hs.symm)
    · refine Or.inr fun s₀ hs₀ => ⟨s', h, ?_⟩
      cases hs.symm.trans hs₀
      rw [ha.revision, satAdd64_of_lt (hf.1 s hs)]
      exact Nat.lt_succ_self _

theorem World.Keyed.exec (hw : w.Keyed) (i : Nat) (c : Outcome) :
    (InMemory.exec i o c w).2.Keyed := by
  intro gid tx h'
  by_cases hdelete : ∃ tx', o = .deleteTransactionIfUnchanged tx'
  · obtain ⟨tx', rfl⟩ := hdelete
    rcases delete_txs w gid tx' with h | ⟨-, -, h⟩
    · exact hw gid tx (h.symm.trans h')
    · cases h.symm.trans h'
  have hd : ∀ tx, o ≠ .deleteTransactionIfUnchanged tx := fun tx h => hdelete ⟨tx, h⟩
  rcases txs_step i c w gid hd with h | ⟨tx, rfl, hg, h⟩ | ⟨tx, rfl, hg, hn, h⟩ |
    ⟨s, s', hs, ha, h⟩ <;> rw [h] at h'
  · exact hw gid tx h'
  · cases h'
    exact hg
  · cases h'
    exact hg
  · cases h'
    rcases ha.amended with rfl | ha
    · exact hw gid _ hs
    · rw [ha.gid]
      exact hw gid s hs

/-- The snapshot of a session is one of the record under `g`, if it is about `g`. -/
def SnapshotOf (g : String) (σ : Session) (w : World) : Prop :=
  ∀ base, σ.snap = some base → base.gid = g → Current base w.txs[g]?

/-- Writes are about the record that they write over. -/
theorem Writes.over {base s tx : Transaction} (hw : Writes σ base tx)
    (hs : s = { base with updatedAtMillis := s.updatedAtMillis }) : Writes σ s tx := by
  rw [hs]
  exact ⟨⟨hw.head.1, hw.head.2, hw.head.3, hw.head.4, hw.head.5, hw.head.6, hw.head.7⟩, hw.moves,
    hw.branches.imp fun _ _ h => ⟨h.1, h.2, h.3, h.4, h.5, h.6, h.7, h.8, h.9⟩⟩

/-- **A fresh write is a write over the stored record.** -/
theorem fresh_update {tx : Transaction} (hf : Fresh g (.updateTransaction tx) w)
    (hg : tx.gid = g) (ho : SnapshotOf g σ w) (hp : registering.pre σ (.updateTransaction tx)) :
    ∃ s, w.txs[g]? = some s ∧ Writes σ s tx := by
  obtain ⟨base, hb, hw⟩ := hp
  obtain ⟨s, hs, hr⟩ := hf.2 tx rfl hg
  obtain ⟨s₀, hs₀, -, heq⟩ := ho base hb (hw.head.gid ▸ hg)
  cases hs.symm.trans hs₀
  exact ⟨s, hs, hw.over (heq (by rw [hr, hw.head.revision]))⟩

/-- **What becomes of the record under `g` in a fresh step**: nothing, a write over it, or a
change in place. -/
theorem record_step (hf : Fresh g o w) (ho : SnapshotOf g σ w) (hp : registering.pre σ o)
    (i : Nat) (c : Outcome) {s : Transaction} (hs : w.txs[g]? = some s) :
    ∃ s', (InMemory.exec i o c w).2.txs[g]? = some s' ∧
      (s' = s ∨ (∃ tx, o = .updateTransaction tx ∧ Writes σ s tx ∧
        s' = bumpTransactionRevision w.clock tx) ∨ Amended s s') := by
  rcases txs_step i c w g (not_delete hp) with h | ⟨tx, rfl, hg, h⟩ | ⟨tx, rfl, hg, hn, h⟩ |
    ⟨s₀, s', hs₀, ha, h⟩
  · exact ⟨s, h.trans hs, Or.inl rfl⟩
  · obtain ⟨s₀, hs₀, hw⟩ := fresh_update hf hg ho hp
    cases hs.symm.trans hs₀
    exact ⟨_, h, Or.inr (Or.inl ⟨tx, rfl, hw, rfl⟩)⟩
  · rw [hn] at hs
    cases hs
  · cases hs.symm.trans hs₀
    exact ⟨s', h, ha.amended.imp id Or.inr⟩

theorem SnapshotOf.evolves {w' : World} (h : SnapshotOf g σ w)
    (he : Evolves w.txs[g]? w'.txs[g]?) : SnapshotOf g σ w' :=
  fun base hb hg => (h base hb hg).evolves he

theorem SnapshotOf.next (hw : w.Keyed) (hf : Fresh g o w) (ho : SnapshotOf g σ w)
    (hp : registering.pre σ o) (i : Nat) (c : Outcome) :
    SnapshotOf g (registering.next σ o (InMemory.exec i o c w).1)
      (InMemory.exec i o c w).2 := by
  have same {σ' : Session} (h : σ'.snap = σ.snap) :
      SnapshotOf g σ' (InMemory.exec i o c w).2 :=
    fun base hb hg => (ho base (h ▸ hb) hg).evolves (hf.evolves hp i c)
  cases o with
  | getTransaction gid =>
    intro base hb hg
    have hb : w.txs[gid]? = some base := hb
    have hgid := hw gid base hb
    exact ⟨base, by rw [← hg, hgid]; exact hb, Nat.le_refl _, fun _ => rfl⟩
  | updateTransaction tx =>
    intro base hb hg
    cases hb
    have hg : tx.gid = g := hg
    refine ⟨bumpTransactionRevision w.clock tx, ?_, Nat.le_refl _, fun _ => rfl⟩
    simp only [InMemory.exec, InMemory.updateTransaction, World.put_txs]
    rw [← hg]
    exact Std.ExtTreeMap.getElem?_insert_self
  | barrier b =>
    refine same ?_
    simp only [registering, coordinator, Session.next]
    split <;> rfl
  | invokeEnd call =>
    refine same ?_
    simp only [registering, coordinator, Session.next]
    split <;> rfl
  | _ => exact same rfl

/-- Snapshots of `g` stay snapshots in the runs in which every write of `g` is fresh. -/
def freshLayer (g : String) : (ledgerOutline.restrict (Fresh g)).Layer where
  inv := World.Keyed
  own := fun _ σ w => SnapshotOf g σ w
  inv_step := fun {_ i _ _} c _ _ hw _ hp _ => hw.exec i c
  own_step := fun {_ i _ _} c _ _ hw ho hp ha => ho.next hw ha.2 hp i c
  own_other := fun {_ i _ _} c _ _ _ _ _ _ hp ha _ _ hj => hj.evolves (ha.2.evolves hp i c)
  inv_drift := fun _ hw hd => by
    obtain ⟨now, rfl⟩ := hd
    exact hw
  own_drift := fun _ _ ho hd => by
    obtain ⟨now, rfl⟩ := hd
    exact ho

/-- **The outline of the runs in which every write of `g` is fresh.** -/
def freshOutline (g : String) : Outline (inMemory.restrict (Fresh g)) registering Session.start :=
  (ledgerOutline.restrict (Fresh g)).extend (freshLayer g)

/-- What the outline asks of the world in which a run starts. -/
theorem fresh_start {g : String} {w : World} (hw : w.Keyed) (hh : w.history = []) :
    (freshOutline g).inv w ∧ ∀ i, (freshOutline g).own i Session.start w :=
  ⟨⟨ledgerInv_of_nil hh, hw⟩,
    fun _ => ⟨fun _ _ hk => (nomatch hk), fun _ hb => (nomatch hb)⟩⟩

theorem starts_registering {dtm : Dtm} {ops : Operation → Prop}
    {p : Prog effects (Except Err (List Transaction))} (hp : dtm.Programs ops p) :
    registering.Follows p Session.start (fun _ _ => True) := by
  obtain ⟨op, -, rfl⟩ := hp
  exact follows_prog_registering dtm op _

end Snapshot

end RozeDtm
