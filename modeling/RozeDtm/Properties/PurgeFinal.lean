import RozeDtm.InMemory.Snapshot
import RozeDtm.Properties.BarrierUse
import RozeDtm.Properties.DelayedRetention
import RozeDtm.Session.Reread

/-!
# What a purge removes stays removed

A purge deletes a record only if it is still the one that it was listed.  The record does not
come back, except by a new submission, when every job that is under way at the delete reads
the gid again before it writes it (`purged_stays_purged`); a job that does not can write its
snapshot back (`purged_record_returns`).
-/

namespace RozeDtm

open Conc

/-- From where it stands, the program reads `g` again before it writes it or calls one of its
branches. -/
def RereadsFrom (g : String) (p : Prog effects (Except Err (List Transaction))) : Prop :=
  (rereads g).Follows p false (fun _ _ => True)

/-- Every job under way that is not itself about to delete reads `g` again. -/
def SafeToDelete (g : String) (P : System) : Prop :=
  ∀ (i : Nat) p, P.threads[i]? = some (some p) →
    (∃ tx, P.AboutTo i (.deleteTransactionIfUnchanged tx)) ∨ RereadsFrom g p

/-- A move in which `g` is deleted only when that is safe. -/
def SafeStep (dtm : Dtm) (g : String) (P Q : System) : Prop :=
  inMemory.Step (dtm.Jobs fun _ => True) P Q ∧
    ((∃ s, P.world.txs[g]? = some s) → Q.world.txs[g]? = none → SafeToDelete g P)

/-- Any number of them. -/
def SafeRun (dtm : Dtm) (g : String) : System → System → Prop :=
  Relation.ReflTransGen (SafeStep dtm g)

/-- Job `i` was listed `s` in a run from `w` to `P`. -/
def Listed (dtm : Dtm) (g : String) (w : World) (P : System) (i : Nat) (s : Transaction) : Prop :=
  ∃ R : System, SafeRun dtm g (Pool.idle w) R ∧ SafeRun dtm g R P ∧
    R.AboutTo i .listTransactions ∧ R.world.txs[s.gid]? = some s

section Steps

variable {dtm : Dtm} {g : String} {P Q : System}

/-- What is stored is under its own gid, and a job that counts `g` as read finds it there. -/
structure Guarded (g : String) (P : System) : Prop where
  keyed : P.world.Keyed
  thread : ∀ (i : Nat) p, P.threads[i]? = some (some p) → ∃ σ : Bool,
    (σ = true → ∃ s, P.world.txs[g]? = some s) ∧ (rereads g).Follows p σ (fun _ _ => True)

theorem guarded_idle {w : World} (hw : w.Keyed) : Guarded g (Pool.idle w) :=
  ⟨hw, fun i p hp => by simp [Pool.idle] at hp⟩

/-- The session of a job that is about to take a step permits it. -/
theorem Guarded.pre (hP : Guarded g P) {i : Nat} {o : Effect} (hi : P.AboutTo i o) :
    ∃ σ : Bool, (σ = true → ∃ s, P.world.txs[g]? = some s) ∧ (rereads g).pre σ o := by
  obtain ⟨k, hk⟩ := hi
  obtain ⟨σ, hσ, hp, -⟩ := hP.thread i _ hk
  exact ⟨σ, hσ, hp⟩

theorem keyed_drift {w w' : World} (hw : w.Keyed) (hd : inMemory.drift w w') : w'.Keyed := by
  obtain ⟨now, rfl⟩ := hd
  exact hw

theorem Guarded.keyed_step (hP : Guarded g P)
    (hs : inMemory.Step (dtm.Jobs fun _ => True) P Q) : Q.world.Keyed := by
  rcases hs.world with h | hd | ⟨i, o, c, -, -, h⟩
  · exact h ▸ hP.keyed
  · exact keyed_drift hP.keyed hd
  · exact h ▸ hP.keyed.exec i c

/-- A record that is there stays, unless it is deleted. -/
theorem stored_step {w : World} {o : Effect} (i : Nat) (c : Outcome)
    (hd : ∀ tx, o ≠ .deleteTransactionIfUnchanged tx) (h : ∃ s, w.txs[g]? = some s) :
    ∃ s, (InMemory.exec i o c w).2.txs[g]? = some s := by
  obtain ⟨s, hs⟩ := h
  rcases txs_step i c w g hd with h | ⟨tx, -, -, h⟩ | ⟨tx, -, -, hn, -⟩ | ⟨s, s', -, -, h⟩
  · exact ⟨s, h.trans hs⟩
  · exact ⟨_, h⟩
  · cases hn.symm.trans hs
  · exact ⟨s', h⟩

/-- The job that takes a step. -/
theorem rereads_next {w : World} {σ : Bool} {o : Effect} (hσ : σ = true → ∃ s, w.txs[g]? = some s)
    (hp : (rereads g).pre σ o) (i : Nat) (c : Outcome)
    (hnext : (rereads g).next σ o (InMemory.exec i o c w).1 = true) :
    ∃ s, (InMemory.exec i o c w).2.txs[g]? = some s := by
  cases o with
  | getTransaction gid =>
    simp only [rereads] at hnext
    split at hnext
    · rename_i hg
      subst hg
      exact Option.isSome_iff_exists.mp hnext
    · exact hσ hnext
  | deleteTransactionIfUnchanged tx =>
    cases (hp : σ = false)
    cases hnext
  | _ => exact stored_step i c (by rintro _ ⟨⟩) (hσ hnext)

theorem rereads_sees {w : World} (hw : w.Keyed) {σ : Bool} {o : Effect}
    (hσ : σ = true → ∃ s, w.txs[g]? = some s) (i : Nat) (c : Outcome) :
    (rereads g).sees σ o (InMemory.exec i o c w).1 := by
  cases o with
  | getTransaction gid =>
    refine ⟨fun tx htx => hw gid tx htx, ?_⟩
    rintro rfl hread
    exact Option.isSome_iff_exists.mpr (hσ hread)
  | _ => trivial

/-- **One move keeps a pool guarded.** -/
theorem Guarded.step (hP : Guarded g P) (hs : SafeStep dtm g P Q) : Guarded g Q := by
  refine ⟨hP.keyed_step hs.1, fun j q hq => ?_⟩
  rcases hs.1.thread hq with hj | ⟨job, -, rfl⟩ | ⟨o, k, c, hj, -, hw, rfl⟩
  · obtain ⟨σ, hσ, hf⟩ := hP.thread j q hj
    cases hgone : Q.world.txs[g]? with
    | some s => exact ⟨σ, fun _ => ⟨s, rfl⟩, hf⟩
    | none =>
      by_cases hthere : ∃ s, P.world.txs[g]? = some s
      · -- `g` is deleted: this job reads it again, or is about to delete and has not read it
        rcases hs.2 hthere hgone j q hj with ⟨tx, k, hk⟩ | hreread
        · rw [hj] at hk
          cases hk
          cases (hf.1 : σ = false)
          exact ⟨false, fun h => (nomatch h), hf⟩
        · exact ⟨false, fun h => (nomatch h), hreread⟩
      · exact ⟨σ, fun hread => absurd (hσ hread) hthere, hf⟩
  · exact ⟨false, fun h => (nomatch h), rereads_job dtm g job⟩
  · obtain ⟨σ, hσ, hp, hf⟩ := hP.thread j _ hj
    refine ⟨_, fun hread => ?_, hf _ (rereads_sees hP.keyed hσ j c)⟩
    rw [hw]
    exact rereads_next hσ hp j c hread

theorem guarded_run {w : World} (hw : w.Keyed) (h : SafeRun dtm g (Pool.idle w) P) :
    Guarded g P := by
  induction h with
  | refl => exact guarded_idle hw
  | tail _ hs ih => exact ih.step hs

/-- **What every job deletes was listed to it.** -/
theorem listed_run {w : World} (hw : w.Keyed) (h : SafeRun dtm g (Pool.idle w) P) (i : Nat)
    (p : Prog effects (Except Err (List Transaction))) (hi : P.threads[i]? = some (some p)) :
    ∃ listed, purges.Follows p listed (fun _ _ => True) ∧
      ∀ s ∈ listed, Listed dtm g w P i s := by
  induction h generalizing i p with
  | refl => simp [Pool.idle] at hi
  | @tail P Q hrun hs ih =>
    have later {i : Nat} {s : Transaction} (h : Listed dtm g w P i s) : Listed dtm g w Q i s := by
      obtain ⟨R, h0, h1, hl⟩ := h
      exact ⟨R, h0, h1.tail hs, hl⟩
    rcases hs.1.thread hi with hj | ⟨job, -, rfl⟩ | ⟨o, k, c, hj, -, hw', rfl⟩
    · obtain ⟨listed, hf, hl⟩ := ih i p hj
      exact ⟨listed, hf, fun s hs => later (hl s hs)⟩
    · exact ⟨[], purges_job dtm job, fun s hs => absurd hs List.not_mem_nil⟩
    · obtain ⟨listed, ⟨-, hf⟩, hl⟩ := ih i _ hj
      have hkeyed := (guarded_run hw hrun).keyed
      refine ⟨_, hf _ ?_, fun s hsl => ?_⟩
      · cases o with
        | getTransaction gid => exact fun tx htx => hkeyed gid tx htx
        | _ => trivial
      · cases o with
        | listTransactions =>
          obtain ⟨gid, hgid⟩ := InMemory.mem_listTransactions hsl
          rw [← hkeyed gid s hgid] at hgid
          exact ⟨P, hrun, .single hs, ⟨k, hj⟩, hgid⟩
        | _ => exact later (hl s hsl)

end Steps

/-- **What a purge removes stays removed.**  In every run in which `g` is deleted only when that
is safe: a step that takes the record of `g` away is a delete of just that record, which its
job was listed before; a step that brings one back is the insertion of a new submission; and
no branch of `g` is called while there is none. -/
theorem purged_stays_purged (dtm : Dtm) (g : String) {w : World} (hw : w.Keyed) {P : System}
    (hP : SafeRun dtm g (Pool.idle w) P) :
    (∀ Q, inMemory.Step (dtm.Jobs fun _ => True) P Q →
      (∀ s, P.world.txs[g]? = some s → Q.world.txs[g]? = none →
        ∃ i, P.AboutTo i (.deleteTransactionIfUnchanged s) ∧ Listed dtm g w P i s) ∧
      (∀ s, P.world.txs[g]? = none → Q.world.txs[g]? = some s →
        ∃ i, P.AboutTo i (.insertTransaction s))) ∧
    (P.world.txs[g]? = none → ∀ i c, P.AboutTo i (.invokeBegin c) → c.gid ≠ g) := by
  have hguard : Guarded g P := guarded_run hw hP
  refine ⟨fun Q hs => ⟨fun s hthere hgone => ?_, fun s hnone hback => ?_⟩, fun hnone i c hi hc => ?_⟩
  · rcases hs.world with h | ⟨now, h⟩ | ⟨i, o, c, hi, -, h⟩
    · rw [h, hthere] at hgone
      cases hgone
    · rw [h] at hgone
      cases hthere.symm.trans hgone
    · rw [h] at hgone
      by_cases hdelete : ∃ tx, o = .deleteTransactionIfUnchanged tx
      · obtain ⟨tx, rfl⟩ := hdelete
        rcases delete_txs P.world g tx with h | ⟨-, htx, -⟩
        · cases hthere.symm.trans (h.symm.trans hgone)
        · cases hthere.symm.trans htx
          refine ⟨i, hi, ?_⟩
          obtain ⟨k, hk⟩ := hi
          obtain ⟨listed, ⟨hmem, -⟩, hl⟩ := listed_run hw hP i _ hk
          exact hl s hmem
      · obtain ⟨s', hs'⟩ := stored_step i c (fun tx h => hdelete ⟨tx, h⟩) ⟨s, hthere⟩
        cases hgone.symm.trans hs'
  · rcases hs.world with h | ⟨now, h⟩ | ⟨i, o, c, hi, -, h⟩
    · rw [h, hnone] at hback
      cases hback
    · rw [h] at hback
      cases hnone.symm.trans hback
    · rw [h] at hback
      obtain ⟨σ, hσ, hp⟩ := hguard.pre hi
      by_cases hdelete : ∃ tx, o = .deleteTransactionIfUnchanged tx
      · obtain ⟨tx, rfl⟩ := hdelete
        rcases delete_txs P.world g tx with h | ⟨-, -, h⟩
        · cases hnone.symm.trans (h.symm.trans hback)
        · cases h.symm.trans hback
      · rcases txs_step i c P.world g (fun tx h => hdelete ⟨tx, h⟩) with h | ⟨tx, rfl, hg, -⟩ |
          ⟨tx, rfl, -, -, h⟩ | ⟨s', s'', hs', -, -⟩
        · cases hnone.symm.trans (h.symm.trans hback)
        · obtain ⟨s', hs'⟩ := hσ (hp hg)
          cases hnone.symm.trans hs'
        · cases h.symm.trans hback
          exact ⟨i, hi⟩
        · cases hnone.symm.trans hs'
  · obtain ⟨σ, hσ, hp⟩ := hguard.pre hi
    obtain ⟨s, hs⟩ := hσ (hp hc)
    cases hnone.symm.trans hs

/-- A TCC that was last written more than a week ago. -/
def forgottenTcc : Transaction := .new 0 "g" .tcc [.tccTry "b" "try" "confirm" "cancel" .null]

/-- A move after which the record is still there. -/
theorem safeStep_of_stored {dtm : Dtm} {g : String} {P Q : System} {s : Transaction}
    (hs : inMemory.Step (dtm.Jobs fun _ => True) P Q) (hstored : Q.world.txs[g]? = some s) :
    SafeStep dtm g P Q :=
  ⟨hs, fun _ hgone => by cases hstored.symm.trans hgone⟩

/-- A purge that is alone deletes the record, and it stays away. -/
theorem purged_stays_purged_alone : ∃ P : System,
    SafeRun .plain "g" (Pool.idle (.holding forgottenTcc 700000000)) P ∧
    ((∀ Q, inMemory.Step (Dtm.plain.Jobs fun _ => True) P Q →
        (∀ s, P.world.txs["g"]? = some s → Q.world.txs["g"]? = none →
          ∃ i, P.AboutTo i (.deleteTransactionIfUnchanged s) ∧
            Listed .plain "g" (.holding forgottenTcc 700000000) P i s) ∧
        (∀ s, P.world.txs["g"]? = none → Q.world.txs["g"]? = some s →
          ∃ i, P.AboutTo i (.insertTransaction s))) ∧
      (P.world.txs["g"]? = none → ∀ i c, P.AboutTo i (.invokeBegin c) → c.gid ≠ "g")) ∧
    P.world.txs["g"]? = none := by
  let w : World := .holding forgottenTcc 700000000
  have hvalid : weeklyRetention.Valid := ⟨by decide, by decide, by decide, by decide⟩
  have hexpired : transactionExpired forgottenTcc 700000000 weeklyRetention = true := by decide
  obtain ⟨k, k', k'', hprog, htime, hlist⟩ := prog_purge .plain hvalid hexpired
  have hstored : w.txs["g"]? = some forgottenTcc := stored_holding forgottenTcc 700000000
  have hlisted : InMemory.listTransactions w = [forgottenTcc] :=
    listTransactions_single (size_holding _ _) hstored
  -- up to the delete the record is there
  have s1 : inMemory.Step (Dtm.plain.Jobs fun _ => True) (Pool.idle w)
      ⟨w, [some (.step Effect.currentMillis k)]⟩ :=
    .start _ ⟨.purge weeklyRetention, trivial, hprog.symm⟩
  have s2 : inMemory.Step (Dtm.plain.Jobs fun _ => True)
      ⟨w, [some (.step Effect.currentMillis k)]⟩ _ :=
    .exec 0 Effect.currentMillis k (.ofOk true) rfl trivial
  change inMemory.Step _ _ ⟨w, [some (k (700000000 : Nat))]⟩ at s2
  rw [htime] at s2
  have s3 : inMemory.Step (Dtm.plain.Jobs fun _ => True)
      ⟨w, [some (.step Effect.listTransactions k')]⟩ _ :=
    .exec 0 Effect.listTransactions k' (.ofOk true) rfl trivial
  change inMemory.Step _ _ ⟨w, [some (k' (InMemory.listTransactions w))]⟩ at s3
  rw [hlisted, hlist] at s3
  have s4 : inMemory.Step (Dtm.plain.Jobs fun _ => True)
      ⟨w, [some (.step (Effect.deleteTransactionIfUnchanged forgottenTcc) k'')]⟩ _ :=
    .exec 0 (Effect.deleteTransactionIfUnchanged forgottenTcc) k'' (.ofOk true) rfl trivial
  have hsafe : SafeToDelete "g"
      ⟨w, [some (.step (Effect.deleteTransactionIfUnchanged forgottenTcc) k'')]⟩ := by
    rintro (_ | i) p hp
    · exact Or.inl ⟨forgottenTcc, k'', rfl⟩
    · cases hp
  have hrun : SafeRun .plain "g" (Pool.idle w) _ :=
    (((Relation.ReflTransGen.single (safeStep_of_stored s1 hstored)).tail
      (safeStep_of_stored s2 hstored)).tail (safeStep_of_stored s3 hstored)).tail
      ⟨s4, fun _ _ => hsafe⟩
  have hkeyed : w.Keyed := World.keyed_initial [forgottenTcc]
  exact ⟨_, hrun, purged_stays_purged .plain "g" hkeyed hrun, delete_stored hstored⟩

/-- A purge beside two preparations of the same transaction. -/
def Job.PurgeRace (job : Job) : Prop :=
  job = .operation (.prepareTcc "g") ∨ job = .purge weeklyRetention

/-- Both preparations have read the record, and one has called the Try, when the purge deletes
record and barrier: the other calls the Try again and writes its snapshot back. -/
theorem purged_record_returns : ∃ P Q : System,
    inMemory.Reaches (Dtm.plain.Jobs Job.PurgeRace) (.holding forgottenTcc 700000000) P ∧
    inMemory.Run (Dtm.plain.Jobs Job.PurgeRace) P Q ∧
    P.world.txs["g"]? = none ∧ issued P.world.history ⟨"g", "b", "try"⟩ = 1 ∧
    Q.world.HasStatus "g" .prepared ∧ issued Q.world.history ⟨"g", "b", "try"⟩ = 2 := by
  obtain ⟨P, Q, hP, hPQ, hgone, hback⟩ := Dtm.exists_jobs_then inMemory .plain Job.PurgeRace
    (.holding forgottenTcc 700000000)
    ([.start (.operation (.prepareTcc "g")), .start (.operation (.prepareTcc "g")),
      .start (.purge weeklyRetention)] ++ List.replicate 4 (.exec 0 (.ofOk true)) ++
      .exec 1 (.ofOk true) :: List.replicate 3 (.exec 2 (.ofOk true)))
    (List.replicate 4 (.exec 1 (.ofOk true)))
    (fun w => w.statusOf "g" = none ∧ issued w.history ⟨"g", "b", "try"⟩ = 1)
    (fun w => w.statusOf "g" = some .prepared ∧ issued w.history ⟨"g", "b", "try"⟩ = 2) (by
      intro job hjob
      simp at hjob
      exact hjob) (by decide)
  obtain ⟨hnone, hissued⟩ := of_decide_eq_true hgone
  obtain ⟨hprepared, hissued'⟩ := of_decide_eq_true hback
  exact ⟨P, Q, hP, hPQ, Option.map_eq_none_iff.mp hnone, hissued,
    World.hasStatus_iff.mpr hprepared, hissued'⟩

end RozeDtm
