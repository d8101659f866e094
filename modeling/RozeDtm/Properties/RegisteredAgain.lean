import RozeDtm.InMemory.Snapshot
import RozeDtm.Session.Opening

/-!
# A branch that is registered again

`register_branch` finds a stored branch by its id and compares it with the one that is
registered: all of it, the status and the attempts included.  So a client that repeats its
registration is answered `Ok` only if the coordinator has not touched the branch since.
`prepare_tcc` tries the branches of a TCC and leaves it Prepared, and from then on the repeated
registration is refused (`registered_again_refused`).  When the branches that were registered are
none that `prepare_tcc` and `reset_retry` touch, registration is idempotent
(`registration_idempotent`).
-/

namespace RozeDtm

open Conc

/-- A transaction that still accepts branches. -/
structure Transaction.Accepts (s : Transaction) : Prop where
  kind : s.kind = .tcc ∨ s.kind = .xa ∨ s.kind = .workflow
  status : s.status = .submitted ∨ s.status = .prepared

/-- What becomes of a second registration of `b`, and of one under its id that is defined
otherwise. -/
structure RegistersAgain (g : String) (b : Branch) (w : World) : Prop where
  same : ∃ s, (InMemory.registerBranch w g b).1 = .ok s ∧
    (InMemory.registerBranch w g b).2.txs[g]? = w.txs[g]?
  other : ∀ b' : Branch, b'.id = b.id → b'.definition ≠ b.definition →
    ∃ e, (InMemory.registerBranch w g b').1 = .error e ∧
      (InMemory.registerBranch w g b').2.txs[g]? = w.txs[g]?

/-- The branches that were registered in `g`, and acknowledged, are registered again. -/
def Idempotent (g : String) (w : World) : Prop :=
  ∀ i b s, (i, .registered g b) ∈ w.history → w.txs[g]? = some s → s.Accepts →
    RegistersAgain g b w

/-! ### One registration -/

section Registration

variable {w : World} {g : String} {s : Transaction} {b b' : Branch}

/-- A record that accepts branches is asked for the branch under that id. -/
theorem Transaction.Accepts.append (h : s.Accepts) (now : Nat)
    (hfind : s.branches.find? (fun existing => existing.id = b.id) = some b') :
    appendDynamicBranch now s b =
      (ensure (b' = b) s!"branch definition conflicts: {b.id}" >>= fun _ => return s) := by
  have hkind : (decide (s.kind = .tcc) || decide (s.kind = .xa) || decide (s.kind = .workflow)) =
      true := by
    simpa [or_assoc] using h.kind
  have hstatus : (decide (s.status = .submitted) || decide (s.status = .prepared)) = true := by
    simpa using h.status
  rw [appendDynamicBranch, hkind, hstatus, hfind]
  rfl

/-- The stored branch, as it is, is what the registration is compared with. -/
theorem registersAgain_iff (hs : w.txs[g]? = some s) (ha : s.Accepts)
    (hfind : s.branches.find? (fun existing => existing.id = b.id) = some b') :
    RegistersAgain g b w ↔ b' = b := by
  -- a branch under that id that is not the stored one is refused
  have hrefused {again : Branch} (hid : again.id = b.id) (hne : b' ≠ again) :
      InMemory.registerBranch w g again = (.error s!"branch definition conflicts: {again.id}", w) := by
    refine modify_error hs ?_
    rw [ha.append w.clock (by rw [hid]; exact hfind), ensure, if_neg (by simpa using hne)]
    rfl
  constructor
  · rintro ⟨⟨tx, htx, -⟩, -⟩
    by_contra hne
    rw [hrefused rfl hne] at htx
    cases htx
  · rintro rfl
    have hok : InMemory.registerBranch w g b' = (.ok s, { w with txs := w.txs.insert g s }) := by
      refine modify_ok hs ?_
      rw [ha.append w.clock hfind, ensure, if_pos (by simp)]
      rfl
    refine ⟨⟨s, ?_, ?_⟩, fun again hid hdef => ⟨s!"branch definition conflicts: {again.id}", ?_, ?_⟩⟩
    · rw [hok]
    · rw [hok, hs]
      exact Std.ExtTreeMap.getElem?_insert_self
    all_goals rw [hrefused hid fun h => hdef (by rw [h])]

/-- A branch that was just registered is the one under its id. -/
theorem find?_appendDynamicBranch {now : Nat} {s' : Transaction}
    (h : appendDynamicBranch now s b = .ok s') :
    s'.branches.find? (fun existing => existing.id = b.id) = some b := by
  rw [appendDynamicBranch] at h
  obtain ⟨_, -, h⟩ := bind_eq_ok h
  obtain ⟨_, -, h⟩ := bind_eq_ok h
  split at h
  · rename_i existing hfind
    obtain ⟨_, he, h⟩ := bind_eq_ok h
    rw [ensure_eq_ok, decide_eq_true_eq] at he
    cases h
    rw [hfind, he]
  · rename_i hnone
    cases h
    show (s.branches ++ [b]).find? _ = some b
    rw [List.find?_append, hnone, Option.none_or]
    simp

end Registration

/-! ### Runs -/

/-- The branches that were registered in `g`, and acknowledged. -/
def World.registered (g : String) (w : World) : List Branch :=
  w.history.filterMap fun e => e.2.registration? g

theorem World.mem_registered {g : String} {w : World} {b : Branch} :
    b ∈ w.registered g ↔ ∃ i, (i, .registered g b) ∈ w.history := by
  unfold World.registered
  rw [List.mem_filterMap]
  constructor
  · rintro ⟨⟨i, e⟩, he, hb⟩
    rw [Event.registration?_eq_some] at hb
    subst hb
    exact ⟨i, he⟩
  · rintro ⟨i, hi⟩
    exact ⟨_, hi, Event.registration?_eq_some.mpr rfl⟩

instance (tx : Transaction) (b : Branch) : Decidable (b.Fixed tx) :=
  decidable_of_iff (b.retryable = false ∧
      (tx.kind = .tcc → tx.status ≠ .prepared → b.status = .succeeded))
    ⟨fun h => ⟨h.1, h.2⟩, fun h => ⟨h.idle, h.tried⟩⟩

/-- A step that does not write `g`, to leave it open, while a branch that was registered there
waits for a retry or, in a TCC that is not prepared yet, for its Try. -/
def SparesRegistered (g : String) (o : Effect) (w : World) : Prop :=
  ∀ tx ∈ o.write?, tx.gid = g → tx.status.isOpen = true →
    ∀ s ∈ w.txs[g]?, ∀ b ∈ w.registered g, b.Fixed s

instance (g : String) (o : Effect) (w : World) : Decidable (SparesRegistered g o w) :=
  inferInstanceAs (Decidable (∀ tx ∈ o.write?, _))

/-- What was registered in `g` is stored as it was registered, while `g` is open. -/
def StoredAsRegistered (g : String) (w : World) : Prop :=
  ∀ b ∈ w.registered g, ∃ s, w.txs[g]? = some s ∧ (s.status.isOpen = true →
    s.branches.find? (fun existing => existing.id = b.id) = some b)

theorem Transaction.Accepts.isOpen {s : Transaction} (h : s.Accepts) : s.status.isOpen = true := by
  rcases h.status with hst | hst <;> rw [hst] <;> rfl

/-- Only an open transaction is left open. -/
theorem TransactionStatus.moves_open {kind : TransactionKind} {status target : TransactionStatus}
    (h : status.moves kind target = true) (hopen : target.isOpen = true) :
    status.isOpen = true := by
  revert h hopen
  cases status <;> cases target <;> simp [moves, isOpen]

theorem StoredAsRegistered.idempotent {g : String} {w : World} (h : StoredAsRegistered g w) :
    Idempotent g w := by
  intro i b s hi hs ha
  obtain ⟨s', hs', hfind⟩ := h b (World.mem_registered.mpr ⟨i, hi⟩)
  cases hs.symm.trans hs'
  exact (registersAgain_iff hs ha (hfind ha.isOpen)).mpr rfl

section Step

variable {g : String} {σ : Session} {w : World} {o : Effect}

/-- A write that leaves a transaction open leaves a branch that it has nothing to do with. -/
theorem OpenWrite.find? {base tx : Transaction} {b : Branch} (h : OpenWrite base tx)
    (hw : Writes σ base tx) (hfixed : b.Fixed base)
    (hb : base.branches.find? (fun existing => existing.id = b.id) = some b) :
    tx.branches.find? (fun existing => existing.id = b.id) = some b := by
  have hboth : List.Forall₂ (fun a b => b.id = a.id ∧ (Branch.Fixed base a → b = a))
      base.branches tx.branches := by
    exact .mp (fun _ _ hb hf => ⟨Branch.id_eq hb.definition, hf⟩) hw.branches h.branches
  obtain ⟨b', hb', -, heq⟩ := find?_of_forall₂ hboth (fun _ _ h => congrArg (fun id => decide (id = b.id)) h.1) hb
  rw [hb', heq hfixed]

/-- **What was registered stays as it is through a fresh step that spares it.** -/
theorem storedAsRegistered_step (ho : SnapshotOf g σ w) (hp : registeringOpen.pre σ o) (hf : Fresh g o w)
    (hspares : SparesRegistered g o w) (i : Nat) (c : Outcome) {s : Transaction} {b : Branch}
    (hb : b ∈ w.registered g) (hs : w.txs[g]? = some s)
    (hfind : s.status.isOpen = true →
      s.branches.find? (fun existing => existing.id = b.id) = some b) :
    ∃ s', (InMemory.exec i o c w).2.txs[g]? = some s' ∧ (s'.status.isOpen = true →
      s'.branches.find? (fun existing => existing.id = b.id) = some b) := by
  rcases txs_step i c w g (not_delete hp.1) with h | ⟨tx, rfl, hg, h⟩ | ⟨tx, rfl, hg, hn, h⟩ |
    ⟨s₀, s', hs₀, ha, h⟩
  · exact ⟨s, h.trans hs, hfind⟩
  · refine ⟨_, h, fun hopen => ?_⟩
    have hopen : tx.status.isOpen = true := hopen
    obtain ⟨base, hsnap, hwrite⟩ := hp.2 hopen
    obtain ⟨base', hsnap', hw⟩ := hp.1
    cases hsnap.symm.trans hsnap'
    -- the snapshot is the stored record, but for the time of its last update
    obtain ⟨s₁, hs₁, hr⟩ := hf.2 tx rfl hg
    obtain ⟨s₂, hs₂, -, heq⟩ := ho base hsnap (hw.head.gid ▸ hg)
    cases hs.symm.trans hs₁
    cases hs.symm.trans hs₂
    have heq := heq (by rw [hr, hw.head.revision])
    have hfixed : b.Fixed s := hspares tx rfl hg hopen s hs b hb
    have hbase : s.status = base.status ∧ s.kind = base.kind ∧ s.branches = base.branches := by
      rw [heq]
      exact ⟨rfl, rfl, rfl⟩
    have hfixed : b.Fixed base :=
      ⟨hfixed.idle, by rw [← hbase.1, ← hbase.2.1]; exact hfixed.tried⟩
    refine hwrite.find? hw hfixed ?_
    rw [← hbase.2.2]
    apply hfind
    rw [hbase.1]
    exact TransactionStatus.moves_open hw.moves hopen
  · rw [hn] at hs
    cases hs
  · cases hs.symm.trans hs₀
    refine ⟨s', h, fun hopen => ?_⟩
    have hopen : s.status.isOpen = true := by
      rcases ha.status with hst | hst | hst <;> rw [hst] at hopen
      · exact hopen
      · cases hopen
      · cases hopen
    rcases ha.amended with rfl | ha
    · exact hfind hopen
    · obtain ⟨new, hnew⟩ := ha.branches
      rw [hnew, List.find?_append, hfind hopen, Option.some_or]

theorem StoredAsRegistered.exec (hw : StoredAsRegistered g w) (ho : SnapshotOf g σ w)
    (hp : registeringOpen.pre σ o) (hf : Fresh g o w) (hspares : SparesRegistered g o w)
    (i : Nat) (c : Outcome) : StoredAsRegistered g (InMemory.exec i o c w).2 := by
  intro b hb
  by_cases hold : b ∈ w.registered g
  · obtain ⟨s, hs, hfind⟩ := hw b hold
    exact storedAsRegistered_step ho hp hf hspares i c hold hs hfind
  · obtain ⟨j, hj⟩ := World.mem_registered.mp hb
    have hnew : (j, .registered g b) ∉ w.history := fun h => hold (World.mem_registered.mpr ⟨j, h⟩)
    have he := (mem_history_step hj).resolve_left hnew
    cases o with
    | registerBranch gid branch =>
      cases he
      rcases noteOk_modify with hh | ⟨s, s', -, hf, hs', -⟩
      · exact absurd (hh ▸ hj) hnew
      · exact ⟨s', hs', fun _ => find?_appendDynamicBranch hf⟩
    | barrier b =>
      obtain ⟨d, hd⟩ := he
      cases hd
    | invokeEnd call =>
      obtain ⟨ok, hok⟩ := he
      cases hok
    | _ => cases he

end Step

/-- **In the runs in which no write of a transaction is stale or made while a registered branch
is still to be tried or waits for a retry, registration is idempotent.** -/
theorem registration_idempotent (dtm : Dtm) {g : String} {w : World} (hw : w.Keyed)
    (hh : w.history = []) {P : System}
    (hP : ((inMemory.restrict (Fresh g)).restrict (SparesRegistered g)).Reaches
      (dtm.Programs fun _ => True) w P) :
    Idempotent g P.world := by
  obtain ⟨hinv, hown⟩ := @fresh_start g w hw hh
  have hgood : (((freshOutline g).strengthen Discipline.also_le).restrict
      (SparesRegistered g) : Outline _ registeringOpen _).Good (Pool.idle w : System) :=
    Outline.good_idle hinv hown
  refine StoredAsRegistered.idempotent (hgood.stays (StoredAsRegistered g) ?_ ?_ ?_ ?_ hP)
  · rintro p ⟨op, -, rfl⟩
    exact follows_registeringOpen dtm op
  · exact fun c _ ho hp ha hφ => hφ.exec ho.2 hp ha.1.2 ha.2 _ c
  · rintro w w' - ⟨now, rfl⟩ hφ
    exact hφ
  · intro b hb
    have hnil : (Pool.idle w : System).world.history = [] := hh
    rw [World.registered, hnil] at hb
    cases hb

/-- A branch of a TCC is registered when its Try is done, and `prepare_tcc` goes through. -/
theorem registration_idempotent_tcc : ∃ (P : System) (b : Branch) (s : Transaction),
    ((inMemory.restrict (Fresh "g")).restrict (SparesRegistered "g")).Reaches
      (Dtm.plain.Programs fun _ => True) (.initial [.new 0 "g" .tcc []]) P ∧
    (0, .registered "g" b) ∈ P.world.history ∧ P.world.txs["g"]? = some s ∧ s.Accepts ∧
    Idempotent "g" P.world := by
  obtain ⟨P, hP, hφ⟩ := Dtm.exists_run
    ((inMemory.restrict (Fresh "g")).restrict (SparesRegistered "g")) .plain (fun _ => True)
    (.initial [.new 0 "g" .tcc []])
    (.start (.registerBranch "g"
        { Branch.tccTry "b" "try" "confirm" "cancel" .null with status := .succeeded }) ::
      .start (.prepareTcc "g") :: steps 0 1 true ++ steps 1 2 true)
    (fun w => ((w.txs["g"]?).any fun s => s.kind = .tcc && s.status = .prepared) &&
      (0, .registered "g"
        { Branch.tccTry "b" "try" "confirm" "cancel" .null with status := .succeeded }) ∈ w.history)
    (fun _ _ => trivial) (by decide)
  rw [Bool.and_eq_true, decide_eq_true_eq, Option.any_eq_true] at hφ
  obtain ⟨⟨s, hs, hst⟩, hb⟩ := hφ
  rw [Bool.and_eq_true, decide_eq_true_eq, decide_eq_true_eq] at hst
  exact ⟨P, _, s, hP, hb, hs, ⟨Or.inl hst.1, Or.inr hst.2⟩,
    registration_idempotent .plain (World.keyed_initial _) rfl hP⟩

/-- `prepare_tcc` tries a registered branch, and from then on the client that registers it
again is refused. -/
theorem registered_again_refused : ∃ P : System,
    inMemory.Reaches (Dtm.plain.Programs fun _ => True) (.initial [.new 0 "g" .tcc []]) P ∧
    P.world.HasStatus "g" .prepared ∧ ¬ Idempotent "g" P.world := by
  obtain ⟨P, hP, hφ⟩ := Dtm.exists_run inMemory .plain (fun _ => True)
    (.initial [.new 0 "g" .tcc []])
    (.start (.registerBranch "g" (.tccTry "b" "try" "confirm" "cancel" .null)) ::
      .start (.prepareTcc "g") :: steps 0 1 true ++ steps 1 5 true)
    (fun w => ((w.txs["g"]?).any fun s => s.kind = .tcc && s.status = .prepared) &&
      (0, .registered "g" (.tccTry "b" "try" "confirm" "cancel" .null)) ∈ w.history &&
      (InMemory.registerBranch w "g" (.tccTry "b" "try" "confirm" "cancel" .null)).1.toOption.isNone)
    (fun _ _ => trivial) (by decide)
  rw [Bool.and_eq_true, Bool.and_eq_true, decide_eq_true_eq, Option.any_eq_true] at hφ
  obtain ⟨⟨⟨s, hs, hst⟩, hb⟩, hrefused⟩ := hφ
  rw [Bool.and_eq_true, decide_eq_true_eq, decide_eq_true_eq] at hst
  refine ⟨P, hP, ⟨s, hs, hst.2⟩, fun h => ?_⟩
  obtain ⟨⟨tx, htx, -⟩, -⟩ := h 0 _ s hb hs ⟨Or.inl hst.1, Or.inr hst.2⟩
  rw [htx] at hrefused
  cases hrefused

end RozeDtm
