import RozeDtm.Properties.Phase2Completeness
import RozeDtm.Properties.RegistrationsKept

/-!
# The second phase of an XA transaction whose branches register

The branches of an XA transaction are registered while its operations are under way.  When no
write is stale and a barrier of the second phase is found taken only after its call has
returned success, every branch of a record that is Succeeded has been committed, and every
branch of one that is Aborted rolled back, those that were registered last included.
-/

namespace RozeDtm

open Conc

/-- What the status of an XA transaction says of the calls of its branches. -/
structure XaComplete (g : String) (h : List (Nat × Event)) (s : Transaction) : Prop where
  kind : s.kind = .xa
  committed : s.status = .succeeded → ∀ b ∈ s.branches, Succeeded h (b.key g "commit")
  rolledBack : s.status = .aborted → ∀ b ∈ s.branches, Succeeded h (b.key g "rollback")

/-- The stored record says so. -/
def World.XaComplete (g : String) (w : World) : Prop :=
  ∃ s, w.txs[g]? = some s ∧ RozeDtm.XaComplete g w.history s

/-- The duplicates that an operation has found in the second phase had a call that returned
success. -/
def XaDuplicates (g : String) (σ : Session) (w : World) : Prop :=
  ∀ b, σ.dup b → b.gid = g → b.op = "commit" ∨ b.op = "rollback" → Succeeded w.history b

/-- The steps that are neither stale nor skip a call. -/
def FreshAndProven (g : String) (o : Effect) (w : World) : Prop :=
  Fresh g o w ∧ DuplicatesProven g o w

instance (g : String) (o : Effect) (w : World) : Decidable (FreshAndProven g o w) :=
  inferInstanceAs (Decidable (_ ∧ _))

section Step

variable {g : String} {i : Nat} {σ : Session} {w : World} {o : Effect}

/-- A settled barrier of the second phase had a call that returned success. -/
theorem XaDuplicates.settled (hd : XaDuplicates g σ w) (hl : LedgerOwn i σ w) {b : BranchBarrier}
    (hb : b.gid = g) (hop : b.op = "commit" ∨ b.op = "rollback") (h : σ.Settled b) :
    Succeeded w.history b :=
  h.elim (fun h => succeeded_of_ledger (hl b _ h)) fun h => hd b h hb hop

/-- A write over the stored record. -/
theorem XaComplete.write {s tx : Transaction} (hs : XaComplete g w.history s) (hg : s.gid = g)
    (hd : XaDuplicates g σ w) (hl : LedgerOwn i σ w) (hw : Writes σ s tx) :
    XaComplete g w.history tx := by
  refine ⟨hw.head.kind.trans hs.kind, fun hst b hb => ?_, fun hst b hb => ?_⟩ <;>
    obtain ⟨a, -, hab⟩ := exists_of_forall₂_left hw.branches.flip hb
  · have h := hd.settled hl hg (Or.inl rfl) (hab.committed hs.kind hst)
    rwa [hg, ← Branch.key_eq hab.definition] at h
  · have h := hd.settled hl hg (Or.inr rfl) (hab.rolledBack hs.kind hst)
    rwa [hg, ← Branch.key_eq hab.definition] at h

theorem XaComplete.exec {s : Transaction} (hs : XaComplete g w.history s) (c : Outcome) :
    XaComplete g (InMemory.exec i o c w).2.history s :=
  ⟨hs.kind, fun hst b hb => succeeded_exec (hs.committed hst b hb),
    fun hst b hb => succeeded_exec (hs.rolledBack hst b hb)⟩

/-- **The stored record through one step.** -/
theorem World.XaComplete.exec (hw : w.XaComplete g) (hk : w.Keyed) (ho : SnapshotOf g σ w)
    (hd : XaDuplicates g σ w) (hl : LedgerOwn i σ w) (hf : Fresh g o w)
    (hp : registering.pre σ o) (c : Outcome) : (InMemory.exec i o c w).2.XaComplete g := by
  obtain ⟨s, hs, hc⟩ := hw
  obtain ⟨s', hs', rfl | ⟨tx, -, hwrites, rfl⟩ | ha⟩ := record_step hf ho hp i c hs
  · exact ⟨s', hs', hc.exec c⟩
  · have hwrite := (hc.write (hk g s hs) hd hl hwrites).exec (o := o) (i := i) c
    exact ⟨_, hs', hwrite.kind, hwrite.committed, hwrite.rolledBack⟩
  · -- a record that is changed in place is not terminal
    have hkind : ¬ s.kind = .workflow := by
      rw [hc.kind]
      decide
    have hlive : s'.status.isTerminal = false := by
      rw [ha.status.resolve_right hkind]
      exact ha.live
    refine ⟨s', hs', ha.kind.trans hc.kind, fun hst => ?_, fun hst => ?_⟩ <;>
    · rw [hst] at hlive
      cases hlive

/-- What an operation has found, through a step of its own. -/
theorem XaDuplicates.next (hd : XaDuplicates g σ w) (hw : w.XaComplete g)
    (hp : DuplicatesProven g o w) (c : Outcome) :
    XaDuplicates g (registering.next σ o (InMemory.exec i o c w).1)
      (InMemory.exec i o c w).2 := by
  have hkeep : XaDuplicates g σ (InMemory.exec i o c w).2 :=
    fun b hb hg hop => succeeded_exec (hd b hb hg hop)
  have same {σ' : Session} (h : ∀ b, σ'.dup b → σ.dup b) :
      XaDuplicates g σ' (InMemory.exec i o c w).2 := fun b hb => hkeep b (h b hb)
  cases o with
  | barrier b =>
    simp only [InMemory.exec] at hkeep ⊢
    rcases barrier_cases w b with ⟨hb, h⟩ | ⟨-, -, h⟩ | ⟨-, -, -, h⟩ | ⟨-, -, h⟩ <;>
      rw [h] at hkeep ⊢
    · rintro b' (rfl | hb') hg hop
      · obtain ⟨s, hs, -⟩ := hw
        have hneeds : needsCall s b' = true := by
          rcases hop with hop | hop <;> simp [needsCall, hop]
        exact ((hp b' rfl hg hb s hs).1 hneeds).cons
      · exact hkeep b' hb' hg hop
    · exact hkeep
    · exact hkeep
    · exact hkeep
  | updateTransaction tx => exact hkeep
  | invokeEnd call =>
    refine same ?_
    simp only [registering, coordinator, Session.next]
    split <;> exact fun _ h => h
  | _ => exact hkeep

end Step

/-- The layer on top of the snapshots. -/
def xaLayer (g : String) : ((freshOutline g).restrict (DuplicatesProven g)).Layer where
  inv := fun w => w.XaComplete g ∧ Kept g w
  own := fun _ σ w => XaDuplicates g σ w
  inv_step := fun c hi ho hw hd hp ha =>
    ⟨hw.1.exec hi.2 ho.2 hd ho.1 ha.1.2 hp c, hw.2.exec ho.2 hp ha.1.2 _ c⟩
  own_step := fun c _ _ hw hd _ ha => hd.next hw.1 ha.2 c
  own_other := fun c _ _ _ _ _ _ _ _ _ _ hj b hb hg hop => succeeded_exec (hj b hb hg hop)
  inv_drift := fun _ hw hd => by
    obtain ⟨now, rfl⟩ := hd
    exact ⟨hw.1, hw.2.1, hw.2.2⟩
  own_drift := fun _ _ ho hd => by
    obtain ⟨now, rfl⟩ := hd
    exact ho

/-- **The outline of an XA transaction** in the runs whose steps are neither stale nor skip a
call. -/
def xaOutline (g : String) : Outline ((inMemory.restrict (Fresh g)).restrict (DuplicatesProven g))
    registering Session.start :=
  ((freshOutline g).restrict (DuplicatesProven g)).extend (xaLayer g)

/-- What the outline asks of the world in which a run starts. -/
theorem xa_start {g : String} {w : World} {s : Transaction} (hw : w.Keyed) (hh : w.history = [])
    (hs : w.txs[g]? = some s) (hk : s.kind = .xa) (hst : s.status = .submitted) :
    (xaOutline g).inv w ∧ ∀ i, (xaOutline g).own i Session.start w := by
  obtain ⟨hinv, hown⟩ := @fresh_start g w hw hh
  refine ⟨⟨hinv, ⟨s, hs, hk, fun h => ?_, fun h => ?_⟩, fun i b h => ?_, fun i p h => ?_⟩,
    fun i => ⟨hown i, fun b hb => hb.elim⟩⟩
  · exact absurd (hst.symm.trans h) (by decide)
  · exact absurd (hst.symm.trans h) (by decide)
  · rw [hh] at h
    cases h
  · rw [hh] at h
    cases h

end RozeDtm
