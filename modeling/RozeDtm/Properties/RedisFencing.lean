import RozeDtm.Properties.RedisUpdates
import RozeDtm.Trail.Operations

/-!
# Recovery leases that are fenced

A recovery tick over Redis acquires the recovery lease and writes with the fence that it was
granted.  `ACQUIRE_RECOVERY_LEASE` gives an expired lease a new epoch, so a fence that does not
pass any more never passes again (`redis_lost_fence_lost`), and a tick that has lost its lease
changes nothing, whatever it was about to do and whatever anyone else does
(`redis_lost_tick_inert`).

The numbers of a script are doubles: epochs are counted exactly below `2 ^ 53`.
-/

namespace RozeDtm

open Conc

/-- The lease that a step acquires. -/
def RedisStep.lease? : RedisStep → Option String
  | .acquireRecoveryLease name _ _ => some name
  | _ => none

/-- An epoch that is counted on is counted exactly. -/
def EpochCounts (o : RedisStep) (s : RedisState) : Prop :=
  ∀ name ∈ o.lease?, (s.keys.leases name).epoch + 1 < 2 ^ 53

instance (o : redisSteps.Op) (s : RedisState) : Decidable (EpochCounts o s) :=
  inferInstanceAs (Decidable (∀ name ∈ RedisStep.lease? o, _))

/-- Any clients of the server, while epochs can be counted. -/
def epochRuns : Machine redisSteps RedisState RedisOutcome := redisStore.restrict EpochCounts

instance (o : redisSteps.Op) (s : RedisState) : Decidable (epochRuns.allow o s) :=
  inferInstanceAs (Decidable (True ∧ EpochCounts o s))

/-! ### What was granted -/

/-- The fences that were granted, latest first: none has an epoch that its lease has not come to,
and the epoch of a lease is that of its owner. -/
structure RedisState.Issued (s : RedisState) : Prop where
  current : ∀ f ∈ s.granted, f.epoch ≤ (s.keys.leases f.name).epoch ∧
    (f.epoch = (s.keys.leases f.name).epoch → (s.keys.leases f.name).owner = some f.owner)
  order : s.granted.Pairwise fun later earlier => later.name = earlier.name →
    earlier.epoch ≤ later.epoch ∧ (earlier.epoch = later.epoch → later.owner = earlier.owner)

/-! ### What a step does to the leases -/

namespace RedisWorld

variable (w : RedisWorld)

theorem barrierDecision_leases (gid : String) (field cancelField tryField : BranchBarrier)
    (op : String) :
    (w.barrierDecision gid field cancelField tryField op).2.leases = w.leases ∧
      (w.barrierDecision gid field cancelField tryField op).2.nowMillis = w.nowMillis := by
  rw [barrierDecision]
  split
  · exact ⟨rfl, rfl⟩
  split
  · exact ⟨rfl, rfl⟩
  split <;> exact ⟨rfl, rfl⟩

/-- The commands on the barriers do not touch the leases. -/
theorem done_leases (o : RedisCommand) :
    (w.done o).2.leases = w.leases ∧ (w.done o).2.nowMillis = w.nowMillis := by
  cases o with
  | barrierDecision gid field cancelField tryField op =>
    exact w.barrierDecision_leases gid field cancelField tryField op
  | fencedBarrierDecision gid field cancelField tryField op fence =>
    rw [done]
    split
    · exact w.barrierDecision_leases gid field cancelField tryField op
    · exact ⟨rfl, rfl⟩
  | fencedDelete gid field fence =>
    rw [done]
    split <;> exact ⟨rfl, rfl⟩
  | deleteTransactionIfUnchanged gid payload fields =>
    simp only [done, deleteTransaction]
    split
    · exact ⟨rfl, rfl⟩
    · split <;> exact ⟨rfl, rfl⟩
  | _ => exact ⟨rfl, rfl⟩

theorem hsetnx_leases (gid payload : String) : (w.hsetnx gid payload).2.leases = w.leases ∧
    (w.hsetnx gid payload).2.nowMillis = w.nowMillis := by
  rw [hsetnx]
  split <;> exact ⟨rfl, rfl⟩

theorem casHashField_leases (fence : Option RecoveryLeaseFence) (gid previous payload : String) :
    (w.casHashField fence gid previous payload).2.leases = w.leases ∧
      (w.casHashField fence gid previous payload).2.nowMillis = w.nowMillis := by
  rw [casHashField]
  split
  · exact ⟨rfl, rfl⟩
  split
  · exact ⟨rfl, rfl⟩
  split <;> exact ⟨rfl, rfl⟩

end RedisWorld

/-- **What a step does to the leases**: nothing, or it acquires one. -/
theorem RedisState.exec_leases (i : Nat) (o : RedisStep) (c : RedisOutcome) (s : RedisState) :
    ((s.exec i o c).2.keys.leases = s.keys.leases ∧
      (s.exec i o c).2.keys.nowMillis = s.keys.nowMillis ∧
      (s.exec i o c).2.granted = s.granted) ∨
    ∃ name owner ttlMillis, o = .acquireRecoveryLease name owner ttlMillis ∧
      (s.exec i o c).2 = (s.done i c o).2 := by
  have hdone : ((s.done i c o).2.keys.leases = s.keys.leases ∧
      (s.done i c o).2.keys.nowMillis = s.keys.nowMillis ∧
      (s.done i c o).2.granted = s.granted) ∨
      ∃ name owner ttlMillis, o = .acquireRecoveryLease name owner ttlMillis := by
    cases o with
    | acquireRecoveryLease name owner ttlMillis => exact Or.inr ⟨name, owner, ttlMillis, rfl⟩
    | command o =>
      obtain ⟨hleases, hnow⟩ := s.keys.done_leases o
      exact Or.inl ⟨hleases, hnow, rfl⟩
    | hsetnx gid payload =>
      obtain ⟨hleases, hnow⟩ := s.keys.hsetnx_leases gid payload
      exact Or.inl ⟨hleases, hnow, rfl⟩
    | casHashField fence gid previous payload =>
      obtain ⟨hleases, hnow⟩ := s.keys.casHashField_leases fence gid previous payload
      exact Or.inl ⟨hleases, hnow, rfl⟩
    | _ => exact Or.inl ⟨rfl, rfl, rfl⟩
  have hacquired {s' : RedisState} (hs : s' = (s.done i c o).2) :
      (s'.keys.leases = s.keys.leases ∧ s'.keys.nowMillis = s.keys.nowMillis ∧
        s'.granted = s.granted) ∨
      ∃ name owner ttlMillis, o = .acquireRecoveryLease name owner ttlMillis ∧
        s' = (s.done i c o).2 := by
    subst hs
    rcases hdone with h | ⟨name, owner, ttlMillis, h⟩
    · exact Or.inl h
    · exact Or.inr ⟨name, owner, ttlMillis, h, rfl⟩
  rcases RedisState.exec_cases i o c s with he | ⟨-, -, -, he | he⟩ <;> rw [he]
  · exact hacquired rfl
  · exact Or.inl ⟨rfl, rfl, rfl⟩
  · exact hacquired rfl

/-- **What acquiring a lease comes to**: it is refused, or granted, with the epoch that the lease
has if it is the owner's and has not expired, and with the next one if it has expired. -/
theorem RedisState.done_acquire (i : Nat) (c : RedisOutcome) (s : RedisState) (name owner : String)
    (ttlMillis : Nat) (hcount : (s.keys.leases name).epoch + 1 < 2 ^ 53) :
    (s.done i c (.acquireRecoveryLease name owner ttlMillis)).2 = s ∨
    ∃ epoch expiry,
      (s.done i c (.acquireRecoveryLease name owner ttlMillis)).2 =
        { s with
          keys := { s.keys with
            leases := Function.update s.keys.leases name ⟨some owner, expiry, epoch⟩ }
          granted := ⟨name, owner, epoch⟩ :: s.granted } ∧
      (((s.keys.leases name).owner = some owner ∧ s.keys.nowMillis < (s.keys.leases name).expiry ∧
          epoch = max (s.keys.leases name).epoch 1) ∨
        (¬ ((s.keys.leases name).owner.isSome ∧
            s.keys.nowMillis < (s.keys.leases name).expiry) ∧
          epoch = (s.keys.leases name).epoch + 1)) := by
  simp only [RedisState.done, RedisWorld.acquireRecoveryLease]
  by_cases hlive : (s.keys.leases name).owner.isSome ∧
      s.keys.nowMillis < (s.keys.leases name).expiry
  · rw [if_pos hlive]
    by_cases howner : (s.keys.leases name).owner = some owner
    · rw [if_neg (not_not.mpr howner)]
      refine Or.inr ⟨max (s.keys.leases name).epoch 1, luaSum s.keys.nowMillis ttlMillis, ?_,
        Or.inl ⟨howner, hlive.2, rfl⟩⟩
      simp only [RedisState.grant, if_true, howner, Int.toNat_natCast]
    · rw [if_pos howner]
      exact Or.inl (if_neg (by simp))
  · rw [if_neg hlive]
    have hnext : luaSum (s.keys.leases name).epoch 1 = (s.keys.leases name).epoch + 1 :=
      toDouble_of_le hcount
    refine Or.inr ⟨(s.keys.leases name).epoch + 1, luaSum s.keys.nowMillis ttlMillis, ?_,
      Or.inr ⟨hlive, rfl⟩⟩
    simp only [RedisState.grant, if_true, hnext, Int.toNat_natCast]

/-! ### Epochs -/

section Epochs

variable {s s' : RedisState} {i : Nat} {o : RedisStep} {c : RedisOutcome} {f : RecoveryLeaseFence}

theorem RedisState.Issued.same (h : s.Issued) (hleases : s'.keys.leases = s.keys.leases)
    (hgranted : s'.granted = s.granted) : s'.Issued := by
  refine ⟨fun f hf => ?_, ?_⟩
  · rw [hgranted] at hf
    rw [hleases]
    exact h.current f hf
  · rw [hgranted]
    exact h.order

/-- A lease is granted: its own fences have come to no later epoch, those of other leases are as
they were. -/
theorem RedisState.Issued.granted {name owner : String} {epoch expiry : Nat} (h : s.Issued)
    (hepoch : ((s.keys.leases name).owner = some owner ∧ epoch = max (s.keys.leases name).epoch 1) ∨
      epoch = (s.keys.leases name).epoch + 1) :
    RedisState.Issued { s with
      keys := { s.keys with
        leases := Function.update s.keys.leases name ⟨some owner, expiry, epoch⟩ }
      granted := ⟨name, owner, epoch⟩ :: s.granted } := by
  have hearlier (f : RecoveryLeaseFence) (hf : f ∈ s.granted) (hname : f.name = name) :
      f.epoch ≤ epoch ∧ (f.epoch = epoch → owner = f.owner) := by
    subst hname
    obtain ⟨hle, howner⟩ := h.current f hf
    rcases hepoch with ⟨hown, rfl⟩ | rfl
    · refine ⟨Nat.le_trans hle (Nat.le_max_left ..), fun heq => ?_⟩
      have hsame : f.epoch = (s.keys.leases f.name).epoch := by omega
      rw [howner hsame] at hown
      exact (Option.some.inj hown).symm
    · exact ⟨Nat.le_succ_of_le hle, fun heq => by omega⟩
  refine ⟨fun f hf => ?_, List.pairwise_cons.mpr ⟨fun f hf hname => hearlier f hf hname.symm,
    h.order⟩⟩
  rcases List.mem_cons.mp hf with rfl | hf
  · exact ⟨by simp, fun _ => by simp⟩
  · by_cases hname : f.name = name
    · obtain ⟨hle, howner⟩ := hearlier f hf hname
      simp only [hname, Function.update_self]
      exact ⟨hle, fun heq => congrArg some (howner heq)⟩
    · simp only [Function.update_of_ne hname]
      exact h.current f hf

theorem RedisState.Issued.exec (h : s.Issued) (hcount : EpochCounts o s) :
    (s.exec i o c).2.Issued := by
  rcases RedisState.exec_leases i o c s with ⟨hleases, -, hgranted⟩ |
    ⟨name, owner, ttlMillis, rfl, he⟩
  · exact h.same hleases hgranted
  · rw [he]
    rcases RedisState.done_acquire i c s name owner ttlMillis (hcount name rfl) with he |
      ⟨epoch, expiry, he, hepoch⟩ <;> rw [he]
    · exact h
    · exact h.granted (hepoch.imp (fun h => ⟨h.1, h.2.2⟩) fun h => h.2)

theorem RedisState.mem_granted_exec (hcount : EpochCounts o s) (hf : f ∈ s.granted) :
    f ∈ (s.exec i o c).2.granted := by
  rcases RedisState.exec_leases i o c s with ⟨-, -, hgranted⟩ | ⟨name, owner, ttlMillis, rfl, he⟩
  · rw [hgranted]
    exact hf
  · rw [he]
    rcases RedisState.done_acquire i c s name owner ttlMillis (hcount name rfl) with he |
      ⟨epoch, expiry, he, -⟩ <;> rw [he]
    · exact hf
    · exact List.mem_cons_of_mem _ hf

/-- **A granted fence that does not pass will not pass after a step**: an expired lease is granted
with the next epoch only. -/
theorem RedisState.Issued.lost_exec (h : s.Issued) (hcount : EpochCounts o s)
    (hf : f ∈ s.granted) (hlost : ¬ s.keys.FenceValid f) :
    ¬ (s.exec i o c).2.keys.FenceValid f := by
  rcases RedisState.exec_leases i o c s with ⟨hleases, hnow, -⟩ |
    ⟨name, owner, ttlMillis, rfl, he⟩
  · rw [RedisWorld.FenceValid, hleases, hnow]
    exact hlost
  · rw [he]
    rcases RedisState.done_acquire i c s name owner ttlMillis (hcount name rfl) with he |
      ⟨epoch, expiry, he, hepoch⟩ <;> rw [he]
    · exact hlost
    · rintro ⟨howner, hlive, heq⟩
      by_cases hname : f.name = name
      · obtain ⟨hle, hcurrent⟩ := h.current f hf
        simp only [hname, Function.update_self] at heq howner
        rw [hname] at hle hcurrent
        rcases hepoch with ⟨hown, hbefore, rfl⟩ | ⟨-, rfl⟩
        · -- the lease has not expired, so the fence is of an earlier epoch
          refine hlost ⟨?_, ?_, ?_⟩ <;> rw [hname]
          · rw [hown, howner]
          · exact hbefore
          · omega
        · omega
      · simp only [Function.update_of_ne hname] at howner hlive heq
        exact hlost ⟨howner, hlive, heq⟩

theorem RedisState.Issued.timePasses (h : s.Issued) (ht : s.TimePasses s') : s'.Issued := by
  obtain ⟨clock, now, -, rfl⟩ := ht
  exact h.same rfl rfl

theorem RedisState.lost_timePasses (hlost : ¬ s.keys.FenceValid f) (ht : s.TimePasses s') :
    ¬ s'.keys.FenceValid f := by
  obtain ⟨clock, now, hnow, rfl⟩ := ht
  rintro ⟨howner, hlive, heq⟩
  exact hlost ⟨howner, Nat.lt_of_le_of_lt hnow hlive, heq⟩

end Epochs

/-! ### Over all runs -/

section Runs

variable {β : Type} {starts : Prog redisSteps β → Prop} {s : RedisState}
  {P Q : Pool redisSteps RedisState β}

/-- What steps and time keep, moves keep. -/
theorem epochRuns_step {φ : RedisState → Prop}
    (hexec : ∀ {s i o c}, EpochCounts o s → φ s → φ (s.exec i o c).2)
    (htime : ∀ {s s'}, s.TimePasses s' → φ s → φ s') (hs : epochRuns.Step starts P Q)
    (h : φ P.world) : φ Q.world := by
  rcases hs.world with hworld | ht | ⟨i, o, c, -, hallow, hworld⟩
  · rw [hworld]
    exact h
  · exact htime ht h
  · rw [hworld]
    exact hexec hallow.2 h

theorem issued_run (h : P.world.Issued) (hr : epochRuns.Run starts P Q) : Q.world.Issued := by
  induction hr with
  | refl => exact h
  | tail _ hs ih =>
    exact epochRuns_step (fun hcount h => h.exec hcount) (fun ht h => h.timePasses ht) hs ih

theorem issued_of_reaches (hs : s.granted = []) (hP : epochRuns.Reaches starts s P) :
    P.world.Issued := by
  refine issued_run (P := Pool.idle s) ⟨fun f hf => ?_, ?_⟩ hP
  · have hnil : (Pool.idle s : Pool redisSteps RedisState β).world.granted = [] := hs
    rw [hnil] at hf
    cases hf
  · exact hs ▸ List.Pairwise.nil

/-- **An epoch of a recovery lease belongs to one owner**: the fences of a lease are granted with
epochs that do not go back, those of one epoch to one owner, and only one of the last epoch passes
a fenced script.  The programs that use the server are any. -/
theorem redis_epochs_identify (hs : s.granted = []) (hP : epochRuns.Reaches starts s P) :
    (P.world.granted.Pairwise fun later earlier => later.name = earlier.name →
      earlier.epoch ≤ later.epoch ∧ (earlier.epoch = later.epoch → later.owner = earlier.owner)) ∧
    ∀ f, P.world.keys.FenceValid f → ∀ g ∈ P.world.granted, g.name = f.name →
      g.epoch ≤ f.epoch ∧ (g.epoch = f.epoch → g.owner = f.owner) := by
  have h := issued_of_reaches hs hP
  refine ⟨h.order, ?_⟩
  rintro f ⟨howner, -, hepoch⟩ g hg hname
  obtain ⟨hle, hown⟩ := h.current g hg
  rw [hname, hepoch] at hle hown
  refine ⟨hle, fun heq => ?_⟩
  rw [howner] at hown
  exact (Option.some.inj (hown heq)).symm

/-- Two seconds go by on the server. -/
def RedisState.twoSeconds (s : RedisState) : RedisState :=
  { s with keys := { s.keys with nowMillis := s.keys.nowMillis + 2000 } }

theorem RedisState.timePasses_twoSeconds (s : RedisState) : s.TimePasses s.twoSeconds :=
  ⟨_, _, Nat.le_add_right .., rfl⟩

/-- `acquire_recovery_lease` of an owner, for one second. -/
abbrev acquiring (owner : String) : Prog redisSteps (Except Err (Option RecoveryLeaseFence)) :=
  (RedisStore.acquireRecoveryLease "roze-dtm-recovery" owner 1000).run

/-- The recovery lease is granted to `a` and has expired in `P`, and is granted to `b` in `Q`. -/
theorem epochs_pass : ∃ P Q, epochRuns.Reaches (fun p => ∃ owner, True ∧ p = acquiring owner)
      xaStore P ∧
    epochRuns.Run (fun p => ∃ owner, True ∧ p = acquiring owner) P Q ∧
    P.world.granted = [⟨"roze-dtm-recovery", "a", 1⟩] ∧
    ¬ P.world.keys.FenceValid ⟨"roze-dtm-recovery", "a", 1⟩ ∧
    Q.world.keys.FenceValid ⟨"roze-dtm-recovery", "b", 2⟩ ∧
    Q.world.granted = [⟨"roze-dtm-recovery", "b", 2⟩, ⟨"roze-dtm-recovery", "a", 1⟩] := by
  have h : ((epochRuns.performAll? acquiring (Pool.idle xaStore)
      [.start "a", .exec 0 .done]).any fun P =>
        decide (P.world.granted = [⟨"roze-dtm-recovery", "a", 1⟩] ∧
          ¬ P.world.twoSeconds.keys.FenceValid ⟨"roze-dtm-recovery", "a", 1⟩) &&
        (epochRuns.performAll? acquiring ⟨P.world.twoSeconds, P.threads⟩
          [.start "b", .exec 1 .done]).any fun Q =>
            decide (Q.world.keys.FenceValid ⟨"roze-dtm-recovery", "b", 2⟩ ∧ Q.world.granted =
              [⟨"roze-dtm-recovery", "b", 2⟩, ⟨"roze-dtm-recovery", "a", 1⟩])) = true := by
    decide +kernel
  obtain ⟨P, hP, h⟩ := Option.any_eq_true _ _ |>.mp h
  rw [Bool.and_eq_true, Option.any_eq_true] at h
  obtain ⟨hfirst, Q, hQ, hlast⟩ := h
  obtain ⟨hgranted, hlost⟩ := of_decide_eq_true hfirst
  have hdrift : epochRuns.Step (fun p => ∃ owner, True ∧ p = acquiring owner) P
      ⟨P.world.twoSeconds, P.threads⟩ := .drift P.world.timePasses_twoSeconds
  have hreaches : epochRuns.Reaches (fun p => ∃ owner, True ∧ p = acquiring owner) xaStore P :=
    Machine.run_of_performAll? (fun _ _ => trivial) hP
  exact ⟨_, Q, hreaches.tail hdrift, Machine.run_of_performAll? (fun _ _ => trivial) hQ, hgranted,
    hlost, of_decide_eq_true hlast⟩

/-- The recovery lease of `a` is granted to `b` when it has expired. -/
theorem redis_epochs_identify_two : ∃ P : Pool redisSteps RedisState
    (Except Err (Option RecoveryLeaseFence)),
    P.world.granted = [⟨"roze-dtm-recovery", "b", 2⟩, ⟨"roze-dtm-recovery", "a", 1⟩] ∧
    (P.world.granted.Pairwise fun later earlier => later.name = earlier.name →
      earlier.epoch ≤ later.epoch ∧
        (earlier.epoch = later.epoch → later.owner = earlier.owner)) := by
  obtain ⟨P, Q, hP, hQ, -, -, -, hgranted⟩ := epochs_pass
  exact ⟨Q, hgranted, (redis_epochs_identify rfl (hP.trans hQ)).1⟩

/-- A fence that was granted. -/
structure RedisState.HasGranted (s : RedisState) (f : RecoveryLeaseFence) : Prop where
  issued : s.Issued
  granted : f ∈ s.granted

/-- A fence that was granted and does not pass. -/
structure RedisState.Lost (s : RedisState) (f : RecoveryLeaseFence) : Prop extends
    s.HasGranted f where
  refused : ¬ s.keys.FenceValid f

variable {f : RecoveryLeaseFence} {i : Nat} {o : RedisStep} {c : RedisOutcome} {s' : RedisState}

theorem RedisState.HasGranted.exec (hcount : EpochCounts o s) (h : s.HasGranted f) :
    (s.exec i o c).2.HasGranted f :=
  ⟨h.issued.exec hcount, RedisState.mem_granted_exec hcount h.granted⟩

theorem RedisState.HasGranted.timePasses (ht : s.TimePasses s') (h : s.HasGranted f) :
    s'.HasGranted f := by
  refine ⟨h.issued.timePasses ht, ?_⟩
  obtain ⟨clock, now, -, rfl⟩ := ht
  exact h.granted

theorem RedisState.Lost.exec (hcount : EpochCounts o s) (h : s.Lost f) :
    (s.exec i o c).2.Lost f :=
  ⟨h.toHasGranted.exec hcount, h.issued.lost_exec hcount h.granted h.refused⟩

theorem RedisState.Lost.timePasses (ht : s.TimePasses s') (h : s.Lost f) : s'.Lost f :=
  ⟨h.toHasGranted.timePasses ht, RedisState.lost_timePasses h.refused ht⟩

/-- **A lease that is lost stays lost**: a fence that was granted and does not pass at some moment
never passes again, whatever the owner and the others do. -/
theorem redis_lost_fence_lost (hs : s.granted = []) (hP : epochRuns.Reaches starts s P)
    (hf : f ∈ P.world.granted) (hlost : ¬ P.world.keys.FenceValid f)
    (hQ : epochRuns.Run starts P Q) : ¬ Q.world.keys.FenceValid f := by
  have hlast : Q.world.Lost f := by
    induction hQ with
    | refl => exact ⟨⟨issued_of_reaches hs hP, hf⟩, hlost⟩
    | tail _ hstep ih =>
      exact epochRuns_step RedisState.Lost.exec RedisState.Lost.timePasses hstep ih
  exact hlast.refused

/-- A lease of which a fence is lost is granted with later epochs only. -/
theorem RedisState.Lost.granted_exec (hcount : EpochCounts o s) (h : s.Lost f) :
    (s.exec i o c).2.granted = s.granted ∨
    ∃ g, (s.exec i o c).2.granted = g :: s.granted ∧ (g.name = f.name → f.epoch < g.epoch) := by
  rcases RedisState.exec_leases i o c s with ⟨-, -, hgranted⟩ | ⟨name, owner, ttlMillis, rfl, he⟩
  · exact Or.inl hgranted
  · rw [he]
    rcases RedisState.done_acquire i c s name owner ttlMillis (hcount name rfl) with he |
      ⟨epoch, expiry, he, hepoch⟩ <;> rw [he]
    · exact Or.inl rfl
    · refine Or.inr ⟨_, rfl, ?_⟩
      rintro rfl
      obtain ⟨hle, howner⟩ := h.issued.current f h.granted
      rcases hepoch with ⟨hown, hlive, rfl⟩ | ⟨-, rfl⟩
      · -- a lease that has not expired is at a later epoch, or the fence would pass
        have hne : f.epoch ≠ (s.keys.leases f.name).epoch :=
          fun heq => h.refused ⟨howner heq, hlive, heq.symm⟩
        exact Nat.lt_of_lt_of_le (Nat.lt_of_le_of_ne hle hne) (Nat.le_max_left ..)
      · exact Nat.lt_succ_of_le hle

/-- **An epoch is over for good**: once a fence that was granted does not pass, its lease is
granted with later epochs only, also to the same owner. -/
theorem redis_later_epochs (hs : s.granted = []) (hP : epochRuns.Reaches starts s P)
    (hf : f ∈ P.world.granted) (hlost : ¬ P.world.keys.FenceValid f)
    (hQ : epochRuns.Run starts P Q) :
    ∃ later, Q.world.granted = later ++ P.world.granted ∧
      ∀ g ∈ later, g.name = f.name → f.epoch < g.epoch := by
  suffices h : Q.world.Lost f ∧ ∃ later, Q.world.granted = later ++ P.world.granted ∧
      ∀ g ∈ later, g.name = f.name → f.epoch < g.epoch from h.2
  induction hQ with
  | refl => exact ⟨⟨⟨issued_of_reaches hs hP, hf⟩, hlost⟩, [], rfl, fun g hg => by cases hg⟩
  | @tail Q R _ hstep ih =>
    obtain ⟨hlast, later, hlater, hepochs⟩ := ih
    refine ⟨epochRuns_step RedisState.Lost.exec RedisState.Lost.timePasses hstep hlast, ?_⟩
    rcases hstep.world with hworld | ⟨clock, now, -, hworld⟩ | ⟨i, o, c, -, hallow, hworld⟩
    · exact ⟨later, hworld ▸ hlater, hepochs⟩
    · rw [hworld]
      exact ⟨later, hlater, hepochs⟩
    · rw [hworld]
      rcases hlast.granted_exec (i := i) (c := c) hallow.2 with hgranted | ⟨g, hgranted, hg⟩
      · exact ⟨later, hgranted.trans hlater, hepochs⟩
      · refine ⟨g :: later, hgranted.trans (congrArg (g :: ·) hlater), fun g' hg' => ?_⟩
        rcases List.mem_cons.mp hg' with rfl | hg'
        · exact hg
        · exact hepochs g' hg'

/-- When the lease of `a` has expired, `b` is granted it with the next epoch. -/
theorem redis_later_epochs_two : ∃ P Q : Pool redisSteps RedisState
    (Except Err (Option RecoveryLeaseFence)), Q.world.granted ≠ P.world.granted ∧
    ∃ later, Q.world.granted = later ++ P.world.granted ∧
      ∀ g ∈ later, g.name = "roze-dtm-recovery" → 1 < g.epoch := by
  obtain ⟨P, Q, hP, hQ, hgranted, hlost, -, hlast⟩ := epochs_pass
  refine ⟨P, Q, by rw [hgranted, hlast]; decide, redis_later_epochs rfl hP ?_ hlost hQ⟩
  rw [hgranted]
  exact List.mem_singleton_self _

/-- The fence of `a` does not pass when the lease is granted to `b`. -/
theorem redis_lost_fence_lost_two : ∃ Q : Pool redisSteps RedisState
    (Except Err (Option RecoveryLeaseFence)),
    Q.world.keys.FenceValid ⟨"roze-dtm-recovery", "b", 2⟩ ∧
    ¬ Q.world.keys.FenceValid ⟨"roze-dtm-recovery", "a", 1⟩ := by
  obtain ⟨P, Q, hP, hQ, hgranted, hlost, hvalid, -⟩ := epochs_pass
  refine ⟨Q, hvalid, redis_lost_fence_lost rfl hP ?_ hlost hQ⟩
  rw [hgranted]
  exact List.mem_singleton_self _

end Runs

/-! ### What a tick does with its fence -/

/-- A step that writes only with the fence `f`. -/
def FencedBy (f : RecoveryLeaseFence) : RedisStep → Prop
  | .casHashField fence _ _ _ => fence = some f
  | .command (.fencedBarrierDecision _ _ _ _ _ fence) | .command (.fencedDelete _ _ fence) =>
    fence = f
  | .command (.hgetTransaction _) => True
  | .hsetnx _ _ | .command _ => False
  | _ => True

/-- The records and the barriers are the same in two states. -/
structure RedisState.SameRecords (s s' : RedisState) : Prop where
  transactions : s'.keys.transactions = s.keys.transactions
  barriers : s'.keys.barriers = s.keys.barriers
  index : s'.keys.index = s.keys.index

/-- **A step with a fence that does not pass changes nothing.** -/
theorem FencedBy.sameRecords {f : RecoveryLeaseFence} {o : RedisStep} (h : FencedBy f o) (i : Nat)
    (c : RedisOutcome) {s : RedisState} (hlost : ¬ s.keys.FenceValid f) :
    s.SameRecords (s.exec i o c).2 := by
  have hdone : s.SameRecords (s.done i c o).2 := by
    cases o with
    | command o =>
      cases o with
      | fencedBarrierDecision gid field cancelField tryField op fence =>
        cases h
        rw [RedisState.done, RedisWorld.done, if_neg hlost]
        exact ⟨rfl, rfl, rfl⟩
      | fencedDelete gid field fence =>
        cases h
        rw [RedisState.done, RedisWorld.done, if_neg hlost]
        exact ⟨rfl, rfl, rfl⟩
      | hgetTransaction gid => exact ⟨rfl, rfl, rfl⟩
      | _ => exact h.elim
    | hsetnx gid payload => exact h.elim
    | casHashField fence gid previous payload =>
      cases h
      have hrefused : ¬ s.keys.PassesFence (some f) := fun hpass => hlost (hpass f rfl)
      rw [RedisState.done, RedisWorld.casHashField, if_pos hrefused]
      exact ⟨rfl, rfl, rfl⟩
    | acquireRecoveryLease name owner ttlMillis =>
      simp only [RedisState.done, RedisState.grant, RedisWorld.acquireRecoveryLease]
      split <;> split <;> try split
      all_goals exact ⟨rfl, rfl, rfl⟩
    | _ => exact ⟨rfl, rfl, rfl⟩
  rcases RedisState.exec_cases i o c s with he | ⟨-, -, -, he | he⟩ <;> rw [he]
  · exact hdone
  · exact ⟨rfl, rfl, rfl⟩
  · exact hdone

section Calls

variable {α : Type} {f : RecoveryLeaseFence} {json : RedisJson}

/-- Program `x` writes only with the fence `f`. -/
abbrev WritesFenced (f : RecoveryLeaseFence) (x : RedisAct α) : Prop :=
  (Discipline.permitting (fun _ _ => True) (FencedBy f)).Always x

theorem writesFenced_ask {o : RedisStep} (h : FencedBy f o) : WritesFenced f (RedisStore.ask o) :=
  fun _ => Discipline.does_perform.mpr ⟨h, fun _ _ => trivial⟩

theorem writesFenced_ofExcept (e : Except Err α) : WritesFenced f (RedisStore.ofExcept e) :=
  fun _ _ _ => trivial

theorem writesFenced_attempt {x : RedisAct α} (h : WritesFenced f x) :
    WritesFenced f (RedisStore.attempt x) :=
  fun t => Discipline.follows_bind.mpr (Discipline.Follows.mono (h t) fun _ _ _ _ _ => trivial)

theorem writesFenced_storedPayload (gid : String) :
    WritesFenced f (RedisStore.storedPayload gid) := by
  refine Discipline.Always.bind ?_ fun payload => writesFenced_ofExcept _
  exact Discipline.Always.bind (writesFenced_ask trivial) fun r => writesFenced_ofExcept r

theorem writesFenced_updateTransaction (tx : Transaction) :
    WritesFenced f (RedisStore.updateTransaction json (some f) tx) := by
  refine Discipline.Always.bind (writesFenced_ofExcept _) fun _ => ?_
  refine Discipline.Always.bind (writesFenced_storedPayload tx.gid) fun previous => ?_
  refine Discipline.Always.bind (writesFenced_ofExcept _) fun current => ?_
  refine Discipline.Always.bind (writesFenced_ofExcept _) fun _ => ?_
  refine Discipline.Always.bind (writesFenced_ask trivial) fun now => ?_
  refine Discipline.Always.bind (writesFenced_ofExcept _) fun payload => ?_
  refine Discipline.Always.bind (writesFenced_ask rfl) fun r => ?_
  refine Discipline.Always.bind (writesFenced_ofExcept r) fun changed => ?_
  split
  · exact Discipline.always_pure _
  split <;> exact Discipline.always_throw _

theorem writesFenced_mutateTransaction (gid operation : String)
    (mutate : Nat → Transaction → Except Err Transaction) :
    WritesFenced f (RedisStore.mutateTransaction json (some f) gid operation mutate) := by
  have hloop (attempts : Nat) :
      WritesFenced f (RedisStore.mutateLoop json (some f) gid operation mutate attempts) := by
    induction attempts with
    | zero => exact Discipline.always_throw _
    | succ attempts ih =>
      refine Discipline.Always.bind (writesFenced_storedPayload gid) fun previous => ?_
      refine Discipline.Always.bind (writesFenced_ofExcept _) fun tx => ?_
      refine Discipline.Always.bind (writesFenced_ask trivial) fun now => ?_
      refine Discipline.Always.bind (writesFenced_ofExcept _) fun tx' => ?_
      refine Discipline.Always.bind (writesFenced_ofExcept _) fun payload => ?_
      refine Discipline.Always.bind (writesFenced_ask rfl) fun r => ?_
      refine Discipline.Always.bind (writesFenced_ofExcept r) fun changed => ?_
      split
      · exact Discipline.always_pure _
      split
      · exact ih
      · exact Discipline.always_throw _
  exact Discipline.Always.bind (writesFenced_ofExcept _) fun _ => hloop _

theorem writesFenced_listTransactions (pages : Nat) :
    WritesFenced f (RedisStore.listTransactions json pages) := by
  have hscan (pages cursor : Nat) (values : Std.ExtTreeMap String String) :
      WritesFenced f (RedisStore.hashValues pages cursor values) := by
    induction pages generalizing cursor values with
    | zero => exact Discipline.always_throw _
    | succ pages ih =>
      refine Discipline.Always.bind (writesFenced_ask trivial) fun r => ?_
      refine Discipline.Always.bind (writesFenced_ofExcept r) fun page => ?_
      refine Discipline.Always.bind (writesFenced_ofExcept _) fun _ => ?_
      split
      · exact Discipline.always_pure _
      · exact ih _ _
  refine Discipline.Always.bind (hscan pages 0 ∅) fun payloads => ?_
  exact Discipline.Always.bind (writesFenced_ofExcept _) fun _ => Discipline.always_pure _

/-- A function on the barriers whose commands write only with the fence. -/
theorem writesFenced_barriers {x : RedisProc α}
    (h : (Discipline.permitting (fun _ _ => True) fun o => FencedBy f (.command o)).Follows x.run ()
      fun _ _ => True) : WritesFenced f (RedisStore.barriers x) := by
  intro t
  have hthrough : (Discipline.permitting (fun _ _ => True) (FencedBy f)).Follows
      (x.run.through redisBarriers ()) t fun _ _ => True := by
    refine Discipline.Follows.through (fun _ _ _ => True) (fun {_ _ _} o _ ho => ?_) h trivial
    exact Discipline.does_perform.mpr ⟨ho, fun _ _ => ⟨trivial, trivial⟩⟩
  exact hthrough.mono fun _ _ _ _ _ => trivial

theorem writesFenced_barrierFenced (b : BranchBarrier) :
    WritesFenced f (RedisStore.barriers (RedisProc.barrierFenced b f)) := by
  refine writesFenced_barriers (Discipline.Does.follows (Q := fun _ _ => True) ?_)
  refine Discipline.does_bind.mpr fun _ _ => ?_
  refine Discipline.does_bind.mpr (Discipline.does_perform.mpr ⟨rfl, fun decision _ => ?_⟩)
  refine Discipline.does_bind.mpr fun decision _ => ?_
  dsimp only
  split
  · exact Discipline.does_throw
  · exact fun _ _ => trivial

theorem writesFenced_releaseBarrierFenced (b : BranchBarrier) :
    WritesFenced f (RedisStore.barriers (RedisProc.releaseBarrierFenced b f)) := by
  refine writesFenced_barriers (Discipline.Does.follows (Q := fun _ _ => True) ?_)
  refine Discipline.does_bind.mpr fun _ _ => ?_
  refine Discipline.does_bind.mpr (Discipline.does_perform.mpr ⟨rfl, fun deleted _ => ?_⟩)
  refine Discipline.does_bind.mpr fun deleted _ => ?_
  dsimp only
  split
  · exact Discipline.does_pure.mpr trivial
  split <;> exact Discipline.does_throw

/-- **The calls of a recovery tick write only with its fence.** -/
theorem writesFenced_call (pages : Nat) {C : BranchCall → Prop} {σ : Trail} {o : Effect}
    (ho : (developing C).pre σ o) : WritesFenced f (RedisStore.call json pages (some f) o) := by
  cases o with
  | insertTransaction tx => exact ho.elim
  | registerBranch gid branch => exact ho.elim
  | recordWorkflowProgress gid progress => exact ho.elim
  | deleteTransactionIfUnchanged tx => exact ho.elim
  | getTransaction gid =>
    refine Discipline.Always.bind ?_ fun payload => writesFenced_ofExcept _
    exact Discipline.Always.bind (writesFenced_ask trivial) fun r => writesFenced_ofExcept r
  | updateTransaction tx =>
    exact Discipline.Always.bind (writesFenced_updateTransaction tx) fun _ =>
      Discipline.always_pure _
  | finishWorkflow gid status reason result =>
    exact writesFenced_attempt (writesFenced_mutateTransaction gid _ _)
  | deferWorkflowRecovery gid delay =>
    exact writesFenced_attempt (writesFenced_mutateTransaction gid _ _)
  | listTransactions => exact writesFenced_listTransactions pages
  | getKv category key =>
    refine Discipline.Always.bind (writesFenced_ask trivial) fun r => ?_
    exact Discipline.Always.bind (writesFenced_ofExcept r) fun payload => writesFenced_ofExcept _
  | barrier b => exact writesFenced_barrierFenced b
  | releaseBarrier b => exact writesFenced_releaseBarrierFenced b
  | acquireRecoveryLease name owner ttlMillis =>
    refine Discipline.Always.bind (writesFenced_ofExcept _) fun _ => ?_
    refine Discipline.Always.bind (writesFenced_ask trivial) fun r => ?_
    refine Discipline.Always.bind (writesFenced_ofExcept r) fun answer => ?_
    dsimp only [RedisStore.leaseAnswer]
    split
    · exact Discipline.always_pure _
    split
    · refine Discipline.Always.bind (writesFenced_ofExcept _) fun _ => ?_
      exact Discipline.always_pure _
    · exact Discipline.always_throw _
  | currentMillis => exact writesFenced_ask trivial
  | invokeBegin call => exact writesFenced_ask trivial
  | invokeEnd call => exact writesFenced_ask trivial
  | queryWorkflowCallback request options => exact writesFenced_ask trivial
  | joinNext n => exact writesFenced_ask trivial

end Calls

/-! ### A tick among others -/

instance {β : Type} (starts : Prog redisSteps β → Prop) (o : redisSteps.Op)
    (P : Pool redisSteps RedisState β) : Decidable ((epochRuns.among starts).allow o P) :=
  inferInstanceAs (Decidable (True ∧ EpochCounts o P.world))

/-- What a recovery tick goes on with when it has been granted the fence `f`. -/
def Dtm.tickWith (dtm : Dtm) (json : RedisJson) (pages : Nat) (f : RecoveryLeaseFence) :
    Prog redisSteps (Except Err (List Transaction)) :=
  (dtm.tickRecoverOnce).run.through (RedisStore.handler json pages) (some f)

theorem fencedBy_tickWith {dtm : Dtm} {json : RedisJson} {pages : Nat} {f : RecoveryLeaseFence}
    (o : redisSteps.Op) (h : (dtm.tickWith json pages f).Comes (fun _ _ => True) o) :
    FencedBy f o := by
  have hdoes : (developing fun _ => True).Does dtm.tickRecoverOnce .start fun _ _ => True :=
    developing_tickRecoverOnce fun _ => trivial
  have hdeveloping := hdoes.follows
  refine Discipline.follows_permitting.mp (Discipline.Follows.through
    (fun _ fence _ => fence = some f) (fun {σ fence _} o hfence ho => ?_) hdeveloping rfl) o h
  subst hfence
  refine (writesFenced_call pages ho _).mono fun _ r _ => ⟨trivial, ?_⟩
  cases o with
  | acquireRecoveryLease name owner ttlMillis => cases r <;> rfl
  | _ => rfl

theorem RedisState.mem_granted_of_answer {i : Nat} {c : RedisOutcome} {s : RedisState}
    {name owner : String} {ttlMillis epoch : Nat}
    (h : (s.exec i (.acquireRecoveryLease name owner ttlMillis) c).1 = .ok (1, (epoch : Int))) :
    ⟨name, owner, epoch⟩ ∈ (s.exec i (.acquireRecoveryLease name owner ttlMillis) c).2.granted := by
  rcases RedisState.exec_cases i (.acquireRecoveryLease name owner ttlMillis) c s with he |
    ⟨r, hr, he, -⟩
  · rw [he] at h ⊢
    have hanswer : (s.keys.acquireRecoveryLease name owner ttlMillis).1 = (1, (epoch : Int)) :=
      Except.ok.inj h
    simp only [RedisState.done, RedisState.grant, hanswer]
    exact List.mem_cons_self ..
  · cases hr
    rw [he] at h
    cases h

section Ticks

variable {β : Type} {starts : Prog redisSteps β → Prop} {s : RedisState}
  {P Q R : Pool redisSteps RedisState β} {i : Nat}

/-- What steps and time keep, a program among others keeps. -/
theorem epochRuns_comes {α : Type} {p q : Prog redisSteps α} {φ : RedisState → Prop}
    (hexec : ∀ {s i o c}, EpochCounts o s → φ s → φ (s.exec i o c).2)
    (htime : ∀ {s s'}, s.TimePasses s' → φ s → φ s')
    (hc : (epochRuns.among starts).Comes i p P q Q) (h : φ P.world) : φ Q.world :=
  hc.keeps (φ := fun _ => True) (ψ := fun P : Pool redisSteps RedisState β => φ P.world)
    (fun _ _ => trivial) (fun _ _ ha h => hexec ha.2 h)
    (fun hs h => epochRuns_step hexec htime hs h)
    h

end Ticks

/-- In pool `P` the recovery tick number `i` of `owner` takes its first step and is granted the
fence `f`.  It goes on as `p` in pool `Q`. -/
def Dtm.TickGranted {β : Type} (dtm : Dtm) (json : RedisJson) (pages : Nat) (owner : String)
    (ttlMillis i : Nat) (f : RecoveryLeaseFence) (P Q : Pool redisSteps RedisState β)
    (p : Prog redisSteps (Except Err (List Transaction))) : Prop :=
  ∃ k c, RedisStore.prog json pages
      ((Operation.tickRecoverOnceWithLease owner ttlMillis).prog dtm) =
        .step (.acquireRecoveryLease f.name f.owner ttlMillis) k ∧
    EpochCounts (.acquireRecoveryLease f.name f.owner ttlMillis) P.world ∧
    (P.world.exec i (.acquireRecoveryLease f.name f.owner ttlMillis) c).1 =
      .ok (1, (f.epoch : Int)) ∧
    p = k (.ok (1, (f.epoch : Int))) ∧
    Q = { P with
      world := (P.world.exec i (.acquireRecoveryLease f.name f.owner ttlMillis) c).2 }

section Ticks

variable {β : Type} {starts : Prog redisSteps β → Prop} {s : RedisState}
  {P P' Q R : Pool redisSteps RedisState β} {i : Nat} {dtm : Dtm} {json : RedisJson} {pages : Nat}
  {owner : String} {ttlMillis : Nat} {f : RecoveryLeaseFence}
  {p q : Prog redisSteps (Except Err (List Transaction))}

/-- What a recovery tick goes on with, by what became of its lease. -/
abbrev Dtm.tickAfter (dtm : Dtm) (json : RedisJson) (pages : Nat) :
    Except Err (Option RecoveryLeaseFence) → Prog redisSteps (Except Err (List Transaction))
  | .error e => .pure (.error e)
  | .ok none => .pure (.ok [])
  | .ok (some f) => dtm.tickWith json pages f

theorem redis_tick_eq : RedisStore.prog json pages
    ((Operation.tickRecoverOnceWithLease owner ttlMillis).prog dtm) =
      (RedisStore.acquireRecoveryLease "roze-dtm-recovery" owner ttlMillis).run.bind
        (dtm.tickAfter json pages) := by
  change Prog.bind _ _ = _
  congr 1
  funext r
  rcases r with e | _ | f <;> rfl

theorem leaseAnswer_granted (name owner : String) (epoch : Nat) :
    RedisStore.leaseAnswer name owner 1 epoch = return some { name, owner, epoch } := by
  have hepoch : ensure (decide ((0 : Int) ≤ (epoch : Int)))
      "invalid Redis recovery lease epoch" = .ok () := by simp [ensure]
  rw [RedisStore.leaseAnswer, if_neg (by decide), if_pos rfl, hepoch]
  rfl

theorem Dtm.TickGranted.goesOn (h : dtm.TickGranted json pages owner ttlMillis i f P Q p) :
    p = dtm.tickWith json pages f := by
  obtain ⟨k, c, hprog, -, -, rfl, -⟩ := h
  obtain ⟨name, owner', epoch⟩ := f
  rw [redis_tick_eq, RedisStore.acquireRecoveryLease] at hprog
  cases hvalid : RedisStore.validateRecoveryLeaseInput "roze-dtm-recovery" owner ttlMillis with
  | error e =>
    rw [hvalid] at hprog
    cases hprog
  | ok _ =>
    rw [hvalid] at hprog
    obtain ⟨ho, hk⟩ := Prog.step.inj hprog
    cases ho
    rw [← eq_of_heq hk]
    change (RedisStore.leaseAnswer "roze-dtm-recovery" owner' 1 epoch).run.bind _ = _
    rw [leaseAnswer_granted]
    rfl

/-- **A recovery tick that has lost its lease changes nothing**: it was granted the fence `f`, in
any state of any run, and at some later moment `f` does not pass.  Then none of its steps from
there on changes a record or a barrier, whatever it is answered and whatever the others do. -/
theorem redis_lost_tick_inert (hs : s.granted = []) (hP : epochRuns.Reaches starts s P)
    (hgranted : dtm.TickGranted json pages owner ttlMillis i f P P' p)
    (hq : (epochRuns.among starts).Comes i p P' q Q) (hlost : ¬ Q.world.keys.FenceValid f)
    {o : redisSteps.Op} {k : redisSteps.Reply o → Prog redisSteps (Except Err (List Transaction))}
    (ho : (epochRuns.among starts).Comes i q Q (.step o k) R) (c : RedisOutcome) :
    R.world.SameRecords (R.world.exec i o c).2 := by
  have hgo := hgranted.goesOn
  obtain ⟨k₀, c₀, -, hcount, hanswer, -, rfl⟩ := hgranted
  -- it writes only with the fence
  have hfenced : FencedBy f o :=
    ho.permitted (hq.permitted fun o ho => fencedBy_tickWith o (hgo ▸ ho)) o (.here o k)
  -- the fence was granted, and once it is lost it stays lost
  have hissued := (issued_of_reaches hs hP).exec (i := i) (c := c₀) hcount
  have hQ : Q.world.HasGranted f := epochRuns_comes RedisState.HasGranted.exec
    RedisState.HasGranted.timePasses hq ⟨hissued, RedisState.mem_granted_of_answer hanswer⟩
  have hR : R.world.Lost f := epochRuns_comes RedisState.Lost.exec RedisState.Lost.timePasses ho
    ⟨hQ, hlost⟩
  exact hfenced.sameRecords i c hR.refused

/-- A compare-and-swap with a fence. -/
def RedisStep.isFencedSwap : RedisStep → Bool
  | .casHashField (some _) _ _ _ => true
  | _ => false

/-- The server after `a` has been granted the recovery lease. -/
def xaGranted : RedisState :=
  (xaStore.exec 0 (.acquireRecoveryLease "roze-dtm-recovery" "a" 1000) .done).2

/-- The tick of `a` lists the transactions and prepares one, but its lease has expired. -/
theorem redis_lost_tick_inert_refused : ∃ (R : Pool redisSteps RedisState Unit) (o : redisSteps.Op)
    (k : redisSteps.Reply o → Prog redisSteps (Except Err (List Transaction))),
    (epochRuns.among fun _ => False).Comes 0 (Dtm.plain.tickWith xaJson 1
      ⟨"roze-dtm-recovery", "a", 1⟩) ⟨xaGranted.twoSeconds, []⟩ (.step o k) R ∧
    RedisStep.isFencedSwap o = true ∧ R.world.SameRecords (R.world.exec 0 o .done).2 := by
  have hgranted : Dtm.plain.TickGranted xaJson 1 "a" 1000 0 ⟨"roze-dtm-recovery", "a", 1⟩
      (Pool.idle xaStore : Pool redisSteps RedisState Unit) ⟨xaGranted, []⟩
      (Dtm.plain.tickWith xaJson 1 ⟨"roze-dtm-recovery", "a", 1⟩) :=
    ⟨_, .done, rfl, fun name hname => by cases hname; decide +kernel, rfl, rfl, rfl⟩
  have htime : (epochRuns.among (β := Unit) fun _ => False).drift ⟨xaGranted, []⟩
      ⟨xaGranted.twoSeconds, []⟩ := .drift xaGranted.timePasses_twoSeconds
  have h : (((epochRuns.among (β := Unit) fun _ => False).advance? 0
      (Dtm.plain.tickWith xaJson 1 ⟨"roze-dtm-recovery", "a", 1⟩) ⟨xaGranted.twoSeconds, []⟩
      (List.replicate 5 .done)).any fun p => p.1.next?.any RedisStep.isFencedSwap) = true := by
    decide +kernel
  obtain ⟨⟨q, R⟩, hq, h⟩ := Option.any_eq_true _ _ |>.mp h
  obtain ⟨o, ho, hswap⟩ := Option.any_eq_true _ _ |>.mp h
  obtain ⟨k, rfl⟩ := Prog.next?_eq_some ho
  have hcomes := Machine.comes_of_advance? hq
  exact ⟨R, o, k, hcomes, hswap, redis_lost_tick_inert rfl (Machine.Reaches.refl ..) hgranted
    (.drift htime (.refl _ _)) (by decide +kernel) hcomes .done⟩

end Ticks

end RozeDtm
