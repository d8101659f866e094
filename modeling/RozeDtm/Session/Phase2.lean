import RozeDtm.Conc.Lists
import RozeDtm.Model.Coordinator.Phase2
import RozeDtm.Session.Rules

/-!
# The TCC and XA operations keep the discipline

Each loop is walked once, by induction on the branches ahead.  What it has to carry is
that the branches it has passed are settled: their barrier was used by this operation,
or was found taken.
-/

namespace RozeDtm

open Conc

/-! ### What a step leaves as it was -/

namespace Session

variable {σ : Session} {b k : BranchBarrier} {h : Option Hold}

theorem setHold_hold_of_ne_none (hb : σ.hold b = none) (hk : σ.hold k ≠ none) :
    (σ.setHold b h).hold k = σ.hold k :=
  σ.setHold_ne h fun hkb => hk (hkb ▸ hb)

theorem Done.setHold (hd : σ.Done k) (hb : σ.hold b = none) : (σ.setHold b h).Done k := by
  have hk : σ.hold k ≠ none := by rw [hd]; exact Option.some_ne_none _
  exact (setHold_hold_of_ne_none hb hk).trans hd

theorem Settled.setHold (hs : σ.Settled k) (hb : σ.hold b = none) :
    (σ.setHold b h).Settled k := hs.imp (fun hd => hd.setHold hb) id

theorem Settled.addDup (hs : σ.Settled k) : (σ.addDup b).Settled k := hs.imp id Or.inr

theorem settled_setHold_done : (σ.setHold b (some .done)).Settled b := Or.inl (setHold_self ..)

theorem settled_addDup : (σ.addDup b).Settled b := Or.inr (Or.inl rfl)

end Session

/-- The branches of a list, with new statuses. -/
abbrev SameBranches (as bs : List Branch) : Prop :=
  List.Forall₂ (fun a b => b.definition = a.definition) as bs

theorem SameBranches.refl (as : List Branch) : SameBranches as as :=
  List.forall₂_same.mpr fun _ _ => rfl

section Phase2

variable {dtm : Dtm} {σ : Session} {base : Transaction}

/-! ### Try -/

/-- A write of `prepare_tcc` that does not end the loop. -/
theorem writes_tcc {bs : List Branch} {target : TransactionStatus} (hk : base.kind = .tcc)
    (hm : TransactionStatus.moves .tcc base.status target = true) (h1 : target ≠ .succeeded)
    (h2 : target ≠ .aborted) (hbs : SameBranches base.branches bs) :
    Writes σ base { base with branches := bs, status := target } where
  head := (SameHead.refl base).change _ _ _
  moves := by rw [hk]; exact hm
  branches := hbs.imp fun _ _ hd => .tcc hk hd (fun h => absurd h h1) (fun h => absurd h h2)

theorem does_prepareTccLoop (hσ : σ.snap = some base) (hk : base.kind = .tcc)
    (hs : ∀ target, TransactionStatus.moves .tcc base.status target = true)
    {before passed ahead : List Branch} (hb : base.branches = before ++ ahead)
    (hp : SameBranches before passed) :
    coordinator.Does (dtm.prepareTccLoop { base with status := .trying } passed ahead) σ
      (fun _ _ => True) := by
  induction ahead generalizing σ before passed with
  | nil =>
    rw [List.append_nil] at hb
    exact does_persistTransaction hσ
      (writes_tcc hk (hs _) (by decide) (by decide) (hb ▸ hp)) trivial
  | cons branch ahead ih =>
    have hahead := SameBranches.refl ahead
    have hsnoc : base.branches = (before ++ [branch]) ++ ahead := by simp [hb]
    rw [Dtm.prepareTccLoop]
    split
    · exact ih hσ hsnoc (forall₂_snoc hp rfl)
    · rw [Discipline.does_bind]
      refine does_barrier (fun _ => ?_) ?_ 
        (fun h => absurd h (show "try" ≠ "cancel" by decide)) fun _ => ?_
      · simp only [Discipline.does_bind]
        refine does_invokeBranch (Or.inl (Session.setHold_self ..)) ?_ fun b hd _ => ?_
        · exact ih (by simpa using hσ) hsnoc (forall₂_snoc hp rfl)
        · simp only [Discipline.does_bind, Bool.false_eq_true, if_false]
          refine does_releaseBarrier (Or.inr (Session.setHold_self ..)) ?_
          refine does_persistTransaction (by simpa using hσ) ?_ trivial
          refine writes_tcc hk (hs _) ?_ ?_ (hb ▸ forall₂_middle hp hd hahead)
          all_goals split <;> decide
      · exact ih (by simpa using hσ) hsnoc (forall₂_snoc hp rfl)
      · exact does_persistTransaction hσ (writes_tcc hk (hs _) (by decide) (by decide)
          (hb ▸ forall₂_middle hp rfl hahead)) trivial

theorem does_prepareTcc (gid : String) :
    coordinator.Does (dtm.prepareTcc gid) σ (fun _ _ => True) := by
  simp only [Dtm.prepareTcc, Discipline.does_bind, does_loadTransaction, does_ofExcept,
    ensureKind_eq_ok]
  intro tx _ hk
  split
  · exact Discipline.does_pure.mpr trivial
  · simp only [Discipline.does_bind, does_ofExcept, ensureStatus_eq_ok]
    intro _ hs
    refine does_prepareTccLoop rfl hk (fun target => ?_) rfl .nil
    simp only [List.mem_cons, List.not_mem_nil, or_false] at hs
    rcases hs with hs | hs <;> rw [hs] <;> rfl

/-! ### The second phase -/

theorem does_phase2Loop {op : String} {url : Branch → Except Err String} {onOk : BranchStatus}
    {final mid : TransactionStatus} (hc : op ≠ "cancel") (ht : op ≠ "try")
    (hσ : σ.snap = some base)
    (hfinal : ∀ {σ : Session} {bs : List Branch}, List.Forall₂ (fun a b =>
        b.definition = a.definition ∧ σ.Settled (a.key base.gid op)) base.branches bs →
      Writes σ base { base with branches := bs, status := final })
    (hmid : ∀ {σ : Session} {bs : List Branch}, SameBranches base.branches bs →
      Writes σ base { base with branches := bs, status := mid })
    {before passed ahead : List Branch} (hb : base.branches = before ++ ahead)
    (hp : List.Forall₂ (fun a b =>
      b.definition = a.definition ∧ σ.Settled (a.key base.gid op)) before passed) :
    coordinator.Does
      (dtm.phase2Loop op url onOk final { base with status := mid } passed ahead) σ
      (fun _ _ => True) := by
  induction ahead generalizing σ before passed with
  | nil =>
    rw [List.append_nil] at hb
    exact does_persistTransaction hσ (hfinal (hb ▸ hp)) trivial
  | cons branch ahead ih =>
    have hsnoc : base.branches = (before ++ [branch]) ++ ahead := by simp [hb]
    have skip : coordinator.Does
        (dtm.phase2Loop op url onOk final { base with status := mid } (passed ++ [branch]) ahead)
        (σ.addDup (branch.key base.gid op)) (fun _ _ => True) :=
      ih (by simpa using hσ) hsnoc (forall₂_snoc
        (hp.imp fun _ _ h => ⟨h.1, h.2.addDup⟩) ⟨rfl, Session.settled_addDup⟩)
    rw [Dtm.phase2Loop, Discipline.does_bind]
    refine does_barrier_plain hc ht (fun hfree => ?_) skip
    simp only [if_true, Discipline.does_bind, does_ofExcept]
    intro target _
    refine does_invokeBranch (Or.inl (Session.setHold_self ..)) ?_ fun b hd _ => ?_
    · rw [Session.setHold_setHold]
      exact ih (by simpa using hσ) hsnoc (forall₂_snoc
        (hp.imp fun _ _ h => ⟨h.1, h.2.setHold hfree⟩) ⟨rfl, Session.settled_setHold_done⟩)
    · simp only [Discipline.does_bind, Bool.false_eq_true, if_false]
      refine does_releaseBarrier (Or.inr (Session.setHold_self ..)) ?_
      exact does_persistTransaction (by simpa using hσ) (hmid (hb ▸
        forall₂_middle (hp.imp fun _ _ h => h.1) hd (SameBranches.refl ahead))) trivial

theorem does_confirmTcc (gid : String) :
    coordinator.Does (dtm.confirmTcc gid) σ (fun _ _ => True) := by
  simp only [Dtm.confirmTcc, Discipline.does_bind, does_loadTransaction, does_ofExcept,
    ensureKind_eq_ok]
  intro tx _ hk
  split
  · exact Discipline.does_pure.mpr trivial
  · simp only [Discipline.does_bind, does_ofExcept, ensureStatus_eq_ok]
    intro _ hs
    have hm : ∀ target, target = .succeeding ∨ target = .succeeded →
        TransactionStatus.moves .tcc tx.status target = true := by
      simp only [List.mem_cons, List.not_mem_nil, or_false] at hs
      rcases hs with hs | hs <;> rw [hs] <;> rintro _ (rfl | rfl) <;> rfl
    refine does_phase2Loop (by decide) (by decide) rfl (fun hbs => ?_) (fun hbs => ?_) rfl .nil
    · exact {
        head := (SameHead.refl tx).change _ _ _
        moves := by rw [hk]; exact hm _ (Or.inr rfl)
        branches := hbs.imp fun _ _ h => .tcc hk h.1 (fun _ => h.2) (by simp) }
    · exact writes_tcc hk (hm _ (Or.inl rfl)) (by decide) (by decide) hbs

/-- What a passed branch of `cancel_tcc` has. -/
def Cancelled (σ : Session) (base : Transaction) (a b : Branch) : Prop :=
  b.definition = a.definition ∧ (σ.Settled (a.key base.gid "cancel") ∨
    (σ.hold (a.key base.gid "cancel") = some .nulled ∧ a.action ≠ ""))

theorem Cancelled.setHold {a b : Branch} {k : BranchBarrier} {h : Option Hold}
    (hab : Cancelled σ base a b) (hk : σ.hold k = none) :
    Cancelled (σ.setHold k h) base a b := by
  refine ⟨hab.1, hab.2.imp (fun hs => hs.setHold hk) fun hn => ⟨?_, hn.2⟩⟩
  rw [Session.setHold_hold_of_ne_none hk (by rw [hn.1]; exact Option.some_ne_none _)]
  exact hn.1

theorem Cancelled.addDup {a b : Branch} {k : BranchBarrier} (hab : Cancelled σ base a b) :
    Cancelled (σ.addDup k) base a b :=
  ⟨hab.1, hab.2.imp (fun hs => hs.addDup) id⟩

theorem does_cancelTccLoop (hσ : σ.snap = some base) (hk : base.kind = .tcc)
    (hm : ∀ target, target = .aborting ∨ target = .aborted →
      TransactionStatus.moves .tcc base.status target = true)
    {before passed ahead : List Branch} (hb : base.branches = before ++ ahead)
    (hp : List.Forall₂ (Cancelled σ base) before passed) :
    coordinator.Does (dtm.cancelTccLoop { base with status := .aborting } passed ahead) σ
      (fun _ _ => True) := by
  induction ahead generalizing σ before passed with
  | nil =>
    rw [List.append_nil] at hb
    refine does_persistTransaction hσ ?_ trivial
    exact {
      head := (SameHead.refl base).change _ _ _
      moves := by rw [hk]; exact hm _ (Or.inr rfl)
      branches := by
        rw [hb]
        exact hp.imp fun _ _ h => .tcc hk h.1 (by simp) (fun _ => h.2) }
  | cons branch ahead ih =>
    have hsnoc : base.branches = (before ++ [branch]) ++ ahead := by simp [hb]
    -- the call is made under a barrier just taken, or after a null compensation of a
    -- branch whose Try the coordinator does not make
    have call {h : Hold} (hfree : σ.hold (branch.key base.gid "cancel") = none)
        (hh : h = .taken ∨ (h = .nulled ∧ branch.action = "")) (target : String) :
        coordinator.Does (do
          let called ← dtm.invokeBranch base.options base.gid
            { branch with attempts := satAdd32 branch.attempts 1 } target "cancel"
          if called.2 then
            dtm.cancelTccLoop { base with status := .aborting }
              (passed ++ [{ called.1 with status := .skipped, nextRetryMillis := none }]) ahead
          else
            Store.releaseBarrier (branch.key base.gid "cancel")
            persistTransaction { base with
              status := .aborting
              branches := passed ++ { called.1 with status := .failed } :: ahead })
          (σ.setHold (branch.key base.gid "cancel") (some h)) (fun _ _ => True) := by
      simp only [Discipline.does_bind]
      refine does_invokeBranch ?_ ?_ fun b hd _ => ?_
      · refine hh.imp (fun h => ?_) fun h => ⟨?_, base, hσ, rfl, branch, ?_, rfl, h.2⟩
        · rw [h]; exact Session.setHold_self ..
        · rw [h.1]; exact Session.setHold_self ..
        · simp [hb]
      · rw [show Branch.key _ base.gid "cancel" = branch.key base.gid "cancel" from rfl,
          Session.setHold_setHold]
        exact ih (by simpa using hσ) hsnoc (forall₂_snoc
          (hp.imp fun _ _ h => h.setHold hfree) ⟨rfl, Or.inl Session.settled_setHold_done⟩)
      · simp only [Discipline.does_bind, Bool.false_eq_true, if_false]
        refine does_releaseBarrier (Or.inr (Session.setHold_self ..)) ?_
        exact does_persistTransaction (by simpa using hσ)
          (writes_tcc hk (hm _ (Or.inl rfl)) (by decide) (by decide)
            (hb ▸ forall₂_middle (hp.imp fun _ _ h => h.1) hd (SameBranches.refl ahead))) trivial
    rw [Dtm.cancelTccLoop, Discipline.does_bind]
    refine does_barrier (fun hfree => ?_) ?_ (fun _ hfree => ?_)
      fun h => absurd h (show "cancel" ≠ "try" by decide)
    · simp only [Dtm.shouldInvokeCancel, decide_true, Bool.true_or, if_true,
        Discipline.does_bind, does_ofExcept]
      intro target _
      simpa only [Discipline.does_bind] using call hfree (Or.inl rfl) target
    · simp only [Dtm.shouldInvokeCancel, reduceCtorEq, decide_false, Bool.and_false, Bool.or_self,
        Bool.false_eq_true, if_false]
      exact ih (by simpa using hσ) hsnoc (forall₂_snoc
        (hp.imp fun _ _ h => h.addDup) ⟨rfl, Or.inl Session.settled_addDup⟩)
    · simp only [Dtm.shouldInvokeCancel, reduceCtorEq, decide_false, decide_true, Bool.and_true,
        Bool.false_or]
      split
      · rename_i hempty
        simp only [Discipline.does_bind, does_ofExcept]
        intro target _
        simpa only [Discipline.does_bind] using
          call hfree (Or.inr ⟨rfl, String.isEmpty_iff.mp hempty⟩) target
      · rename_i hempty
        refine ih (by simpa using hσ) hsnoc (forall₂_snoc
          (hp.imp fun _ _ h => h.setHold hfree) ⟨rfl, Or.inr ⟨Session.setHold_self .., ?_⟩⟩)
        exact fun h => hempty (String.isEmpty_iff.mpr h)

theorem does_cancelTcc (gid : String) :
    coordinator.Does (dtm.cancelTcc gid) σ (fun _ _ => True) := by
  simp only [Dtm.cancelTcc, Discipline.does_bind, does_loadTransaction, does_ofExcept,
    ensureKind_eq_ok]
  intro tx _ hk
  split
  · exact Discipline.does_pure.mpr trivial
  · simp only [Discipline.does_bind, does_ofExcept, ensureStatus_eq_ok]
    intro _ hs
    refine does_cancelTccLoop rfl hk ?_ rfl .nil
    simp only [List.mem_cons, List.not_mem_nil, or_false] at hs
    rcases hs with hs | hs | hs | hs <;> rw [hs] <;> rintro _ (rfl | rfl) <;> rfl

/-! ### XA -/

theorem writes_xa {bs : List Branch} {target : TransactionStatus} (hk : base.kind = .xa)
    (hm : TransactionStatus.moves .xa base.status target = true) (h1 : target ≠ .succeeded)
    (h2 : target ≠ .aborted) (hbs : SameBranches base.branches bs) :
    Writes σ base { base with branches := bs, status := target } where
  head := (SameHead.refl base).change _ _ _
  moves := by rw [hk]; exact hm
  branches := hbs.imp fun _ _ hd => .xa hk hd (fun h => absurd h h1) (fun h => absurd h h2)

theorem does_prepareXa (gid : String) :
    coordinator.Does (Dtm.prepareXa gid) σ (fun _ _ => True) := by
  simp only [Dtm.prepareXa, Discipline.does_bind, does_transactionOfKind]
  intro tx hk
  split
  · exact Discipline.does_pure.mpr trivial
  · simp only [Discipline.does_bind, does_ofExcept, ensureStatus_eq_ok]
    intro _ hs
    refine does_persistTransaction rfl (Writes.status ?_ (by decide) (by decide)) trivial
    rw [List.mem_singleton.mp hs]
    rfl

theorem does_commitXa (gid : String) :
    coordinator.Does (dtm.commitXa gid) σ (fun _ _ => True) := by
  simp only [Dtm.commitXa, Discipline.does_bind, does_transactionOfKind]
  intro tx hk
  split
  · exact Discipline.does_pure.mpr trivial
  · simp only [Discipline.does_bind, does_ofExcept, ensureStatus_eq_ok]
    intro _ hs
    have hm : ∀ target, target = .succeeding ∨ target = .succeeded →
        TransactionStatus.moves .xa tx.status target = true := by
      simp only [List.mem_cons, List.not_mem_nil, or_false] at hs
      rcases hs with hs | hs <;> rw [hs] <;> rintro _ (rfl | rfl) <;> rfl
    refine does_phase2Loop (by decide) (by decide) rfl (fun hbs => ?_) (fun hbs => ?_) rfl .nil
    · exact {
        head := (SameHead.refl tx).change _ _ _
        moves := by rw [hk]; exact hm _ (Or.inr rfl)
        branches := hbs.imp fun _ _ h => .xa hk h.1 (fun _ => h.2) (by simp) }
    · exact writes_xa hk (hm _ (Or.inl rfl)) (by decide) (by decide) hbs

theorem does_rollbackXa (gid : String) :
    coordinator.Does (dtm.rollbackXa gid) σ (fun _ _ => True) := by
  simp only [Dtm.rollbackXa, Discipline.does_bind, does_transactionOfKind]
  intro tx hk
  split
  · exact Discipline.does_pure.mpr trivial
  · simp only [Discipline.does_bind, does_ofExcept, ensureStatus_eq_ok]
    intro _ hs
    have hm : ∀ target, target = .aborting ∨ target = .aborted →
        TransactionStatus.moves .xa tx.status target = true := by
      simp only [List.mem_cons, List.not_mem_nil, or_false] at hs
      rcases hs with hs | hs | hs <;> rw [hs] <;> rintro _ (rfl | rfl) <;> rfl
    refine does_phase2Loop (by decide) (by decide) rfl (fun hbs => ?_) (fun hbs => ?_) rfl .nil
    · exact {
        head := (SameHead.refl tx).change _ _ _
        moves := by rw [hk]; exact hm _ (Or.inr rfl)
        branches := hbs.imp fun _ _ h => .xa hk h.1 (by simp) (fun _ => h.2) }
    · exact writes_xa hk (hm _ (Or.inl rfl)) (by decide) (by decide) hbs

end Phase2

end RozeDtm
