import RozeDtm.Properties.NoGuessedCommit
import RozeDtm.Properties.XaComplete
import RozeDtm.Relational.XaBranch
import RozeDtm.Relational.XaSystem

/-!
# XA resources follow the global outcome

`prepare_branch` registers its branch before it prepares it, and `resolve` answers a request
for a resource id that is not prepared with `AlreadyResolved`.  A rollback that is delivered in
between is taken for done, and the branch is prepared after it (`xa_left_prepared`).  When such
an answer is true whenever it is given, no resource of an Aborted transaction is left prepared,
and the work of every branch of a Succeeded one is committed (`xa_resources_follow`).
-/

namespace RozeDtm

open Conc

variable {T : Type}

/-- The resources follow the global outcome. -/
def XaSite.Followed (site : XaSite) (S : XaSystem T) : Prop :=
  (S.pool.world.HasStatus site.gid .aborted →
    (∀ id ∈ site.ids, (S.locals id).call = none ∨ (S.locals id).finished = true) →
      ∀ id ∈ site.ids, (S.locals id).resource.state ≠ .prepared) ∧
  (S.pool.world.HasStatus site.gid .succeeded →
    ∀ id ∈ site.ids, (S.locals id).resource.state = .committed)

/-- A request that finds its resource id not prepared is answered `AlreadyResolved` truly. -/
def XaSystem.AnswersTrue (S : XaSystem T) (c : BranchCall) : Prop :=
  ∀ phase ∈ (XaPhase2.parse c.op).toOption, (S.locals c.branchId).resource.state = .prepared ∨
    (S.locals c.branchId).Resolved phase

instance (S : XaSystem T) (c : BranchCall) : Decidable (S.AnswersTrue c) :=
  inferInstanceAs (Decidable (∀ phase ∈ (XaPhase2.parse c.op).toOption, _ ∨ _))

/-! ### Moves and the coordinator -/

section Pool

variable {site : XaSite} {allow : Effect → World → Prop} {safe : XaSystem T → BranchCall → Prop}
  {S S' : XaSystem T}

/-- The programs that a move can start in the coordinator. -/
def XaSite.Starts (site : XaSite) (S : XaSystem T) :
    Prog effects (Except Err (List Transaction)) → Prop :=
  site.dtm.Programs fun op => site.Asks S op ∨
    ∃ id, op = .registerBranch site.gid (site.registered id)

theorem prog_registerBranch (dtm : Dtm) (gid : String) (branch : Branch) :
    (Operation.registerBranch gid branch).prog dtm =
      .step (.registerBranch gid branch) XaSite.registrationEnd := by
  refine congrArg (Prog.step _) (funext fun r => ?_)
  match (r : Except Err Transaction) with
  | .ok _ => rfl
  | .error _ => rfl

/-- **A move of the system as moves of the coordinator.** -/
theorem XaSite.Step.pool {A : Effect → World → Prop} (hA : ∀ o w, allow o w → A o w)
    (hs : site.Step allow safe S S') :
    ({ inMemory with allow := A } : Machine effects World Outcome).Run (site.Starts S) S.pool
      S'.pool := by
  obtain ⟨m, hm, hs⟩ := hs
  cases m with
  | start op =>
    cases hs
    exact .single (.start _ ⟨op, Or.inl hm, rfl⟩)
  | exec i c =>
    simp only [XaSite.next?] at hs
    split at hs
    · rename_i o k hi
      cases hs
      simp only [XaSite.Allowed, hi] at hm
      exact .single (.exec i o k c hi (hA _ _ hm.1))
    · cases hs
  | cut i =>
    cases hs
    exact .single (.cut i)
  | drift now =>
    cases hs
    exact .single (.drift ⟨now, rfl⟩)
  | call id =>
    simp only [XaSite.next?] at hs
    split at hs
    · cases hs
    · cases hs
      exact .refl
  | statement id fate value =>
    simp only [XaSite.next?] at hs
    split at hs
    · cases hs
      exact .refl
    · cases hs
  | register id answered =>
    simp only [XaSite.next?] at hs
    split at hs
    · cases hs
      refine Machine.Run.startExec _ ⟨_, Or.inr ⟨id, rfl⟩, ?_⟩ (hA _ _ hm)
      exact (prog_registerBranch ..).symm
    · cases hs
  | deliver c fate =>
    simp only [XaSite.next?] at hs
    split at hs
    · cases hs
    · cases hs
      exact .refl

/-- What every kind of program keeps that a move can start, the coordinator keeps. -/
theorem XaSite.Step.good {A : Effect → World → Prop} {U : Type} {D : Discipline effects U} {u₀ : U}
    {O : Outline ({ inMemory with allow := A } : Machine effects World Outcome) D u₀}
    (hA : ∀ o w, allow o w → A o w) (hs : site.Step allow safe S S')
    (hstarts : ∀ p, site.Starts S p → D.Follows p u₀ (fun _ _ => True)) (hS : O.Good S.pool) :
    O.Good S'.pool := hS.run hstarts (hs.pool hA)

end Pool

/-! ### The branches -/

section Branches

variable {site : XaSite} {h h' : List (Nat × Event)} {l : XaLocal T} {id : String}

/-- The coordinator has registered the branch. -/
def XaSite.Registered (site : XaSite) (h : List (Nat × Event)) (id : String) : Prop :=
  ∃ i, (i, .registered site.gid (site.registered id)) ∈ h

/-- The session of a branch: what is left of its `prepare_branch` follows from it, and it knows
of the registration. -/
structure XaLocal.Going (site : XaSite) (h : List (Nat × Event)) (id : String) (t : Bool)
    (l : XaLocal T) : Prop where
  follows : ∀ p, l.call = some p → (registersFirst T).Follows p t
    (fun t r => ∀ v, r = .ok (.prepared v) → t = true)
  registered : t = true → site.Registered h id
  prepared : l.resource.state = .prepared → t = true

theorem XaLocal.Going.mono {t : Bool} (hl : l.Going site h id t) (hh : ∀ e ∈ h, e ∈ h') :
    l.Going site h' id t :=
  ⟨hl.follows, fun ht => (hl.registered ht).imp fun _ => hh _, hl.prepared⟩

/-- A branch that is prepared was registered. -/
theorem XaLocal.Going.isPrepared {t : Bool} (hl : l.Going site h id t)
    (hp : l.isPrepared = true) : site.Registered h id := by
  rw [XaLocal.isPrepared] at hp
  split at hp
  · rename_i v hcall
    exact hl.registered (hl.follows _ hcall v rfl)
  · cases hp

/-- The `prepare_branch` of the branch is called. -/
theorem XaLocal.Going.called {t : Bool} (hl : l.Going site h id t) {lib : UrlLib}
    {branch : XaBranchDescriptor} (d : XaDialect) :
    (⟨l.resource, some (d.prepareBranch lib branch).run⟩ : XaLocal T).Going site h id t where
  follows := by
    rintro _ ⟨⟩
    exact Discipline.Follows.mono (registersFirst_prepareBranch d) fun t r hr v hv => hr _ hv v rfl
  registered := hl.registered
  prepared := hl.prepared

/-- A statement of it, or its request that does not arrive. -/
theorem XaLocal.Going.statement {t : Bool} (hl : l.Going site h id t) {o : XaStatement}
    {k : o.Reply T → Prog (xaStatements T) (Except Err (XaLocalOutcome T))}
    (hcall : l.call = some (.step o k)) (d : XaDialect) (fate : Fate) (value : T) :
    (⟨(d.exec fate value o l.resource).2, some (k (d.exec fate value o l.resource).1)⟩ :
      XaLocal T).Going site h id t := by
  obtain ⟨hpre, hk⟩ := hl.follows _ hcall
  have hnext : (registersFirst T).next t o (d.exec fate value o l.resource).1 = t := by
    cases o <;> rfl
  refine ⟨?_, hl.registered, fun hp => ?_⟩
  · rintro _ ⟨⟩
    have hfollows := hk (d.exec fate value o l.resource).1 trivial
    rwa [hnext] at hfollows
  · rcases @exec_cases T d fate value o l.resource with
      hst | ⟨-, -, hprep⟩
    · exact hl.prepared (hst.symm.trans hp)
    · cases hprep hp
      exact hpre

/-- Its request arrives, and is answered. -/
theorem XaLocal.Going.registers {t : Bool} (hl : l.Going site h id t)
    {k : Except Err Unit → Prog (xaStatements T) (Except Err (XaLocalOutcome T))}
    (hcall : l.call = some (.step .register k)) {reply : Except Err Unit}
    (hok : reply = .ok () → site.Registered h id) :
    ∃ t, (⟨l.resource, some (k reply)⟩ : XaLocal T).Going site h id t := by
  obtain ⟨-, hk⟩ := hl.follows _ hcall
  cases reply with
  | ok u =>
    refine ⟨true, ?_, fun _ => hok rfl, fun _ => rfl⟩
    rintro _ ⟨⟩
    exact hk (.ok u) trivial
  | error e =>
    refine ⟨t, ?_, hl.registered, hl.prepared⟩
    rintro _ ⟨⟩
    exact hk (.error e) trivial

/-- A phase-2 request arrives. -/
theorem XaLocal.Going.resolved {t : Bool} (hl : l.Going site h id t) (d : XaDialect) {lib : UrlLib}
    {branch : XaBranchDescriptor} (phase : XaPhase2) (fate : Fate) :
    (⟨(d.resolve lib branch phase fate l.resource).2, l.call⟩ : XaLocal T).Going site h id t := by
  refine ⟨hl.follows, hl.registered, fun hp => hl.prepared ?_⟩
  rcases @resolve_cases d fate l.resource lib branch phase with ⟨hr, -⟩ | ⟨hst, -⟩
  · exact (congrArg XaResource.state hr).symm.trans hp
  · exact hst

/-- **What was resolved stays resolved** while the `prepare_branch` goes on. -/
theorem XaLocal.Resolved.unfinished {phase : XaPhase2} (hl : l.Resolved phase)
    (hgoing : l.finished = false) {l' : XaLocal T}
    (hstays : ∀ st, st = .committed ∨ st = .rolledBack → l.resource.state = st →
      l'.resource.state = st) : l'.Resolved phase := by
  cases phase with
  | commit => exact hstays _ (Or.inl rfl) hl
  | rollback =>
    rcases hl with h | h | ⟨h, -⟩
    · exact Or.inl (hstays _ (Or.inl rfl) h)
    · exact Or.inr (Or.inl (hstays _ (Or.inr rfl) h))
    · rw [hgoing] at h
      cases h

/-- Through a statement. -/
theorem XaLocal.Resolved.statement {phase : XaPhase2} (hl : l.Resolved phase) {o : XaStatement}
    {k : o.Reply T → Prog (xaStatements T) (Except Err (XaLocalOutcome T))}
    (hcall : l.call = some (.step o k)) {d : XaDialect} {fate : Fate} {value : T}
    {call : Option (Prog (xaStatements T) (Except Err (XaLocalOutcome T)))} :
    (⟨(d.exec fate value o l.resource).2, call⟩ : XaLocal T).Resolved phase := by
  refine hl.unfinished (by rw [XaLocal.finished, hcall]) fun st hst h => ?_
  rcases @exec_cases T d fate value o l.resource with hsame | ⟨h1, h2, -⟩
  · exact hsame.trans h
  · rcases hst with rfl | rfl
    · exact absurd h h1
    · exact absurd h h2

/-- What is resolved is not prepared. -/
theorem XaLocal.Resolved.not_prepared {phase : XaPhase2} (hl : l.Resolved phase) :
    l.resource.state ≠ .prepared := by
  intro hp
  cases phase with
  | commit => exact absurd (hl.symm.trans hp) (by decide)
  | rollback =>
    rcases hl with h | h | ⟨-, h⟩
    · exact absurd (h.symm.trans hp) (by decide)
    · exact absurd (h.symm.trans hp) (by decide)
    · exact h hp

/-- Through another request. -/
theorem XaLocal.Resolved.resolved {phase phase' : XaPhase2} (hl : l.Resolved phase)
    {d : XaDialect} {lib : UrlLib} {branch : XaBranchDescriptor} {fate : Fate} :
    (⟨(d.resolve lib branch phase' fate l.resource).2, l.call⟩ : XaLocal T).Resolved phase := by
  rcases @resolve_cases d fate l.resource lib branch phase' with ⟨hr, -⟩ | ⟨hst, -⟩
  · rw [hr]
    exact hl
  · exact absurd hst hl.not_prepared

/-- **A request that is answered with success is carried out**, when the answer is true. -/
theorem XaLocal.resolved_of_answer {d : XaDialect} {lib : UrlLib} {branch : XaBranchDescriptor}
    {phase : XaPhase2} {fate : Fate} (hsafe : l.resource.state = .prepared ∨ l.Resolved phase)
    (hok : (d.resolve lib branch phase fate l.resource).1.toBool = true) :
    (⟨(d.resolve lib branch phase fate l.resource).2, l.call⟩ : XaLocal T).Resolved phase := by
  rcases @resolve_cases d fate l.resource lib branch phase with ⟨hr, hne⟩ | ⟨-, hr⟩
  · rw [hr]
    exact hsafe.resolve_left (hne hok)
  · rw [hr]
    cases phase with
    | commit => exact rfl
    | rollback => exact Or.inr (Or.inl rfl)

/-- A `prepare_branch` that has returned makes no further step. -/
theorem XaLocal.isPrepared_call (h : l.isPrepared = true) :
    ∃ v, l.call = some (.pure (.ok (.prepared v))) := by
  rw [XaLocal.isPrepared] at h
  split at h
  · rename_i v hcall
    exact ⟨v, hcall⟩
  · cases h

end Branches

/-! ### The system -/

section Invariant

variable {site : XaSite} {allow : Effect → World → Prop} {safe : XaSystem T → BranchCall → Prop}
  {S S' : XaSystem T}

/-- **What a move does to a branch.** -/
inductive XaSite.Acts (site : XaSite) (h' : List (Nat × Event)) (id : String) :
    XaLocal T → XaLocal T → Prop
  | none (l : XaLocal T) : site.Acts h' id l l
  | call (l : XaLocal T) (hcall : l.call = .none) :
    site.Acts h' id l ⟨l.resource,
      some ((site.dialect id).prepareBranch site.dtm.libs.url (site.descriptor id)).run⟩
  | statement (l : XaLocal T) (o : XaStatement)
    (k : o.Reply T → Prog (xaStatements T) (Except Err (XaLocalOutcome T))) (fate : Fate)
    (value : T) (hcall : l.call = some (.step o k)) :
    site.Acts h' id l ⟨((site.dialect id).exec fate value o l.resource).2,
      some (k ((site.dialect id).exec fate value o l.resource).1)⟩
  | register (l : XaLocal T)
    (k : Except Err Unit → Prog (xaStatements T) (Except Err (XaLocalOutcome T)))
    (reply : Except Err Unit) (hcall : l.call = some (.step .register k))
    (hok : reply = .ok () → site.Registered h' id) :
    site.Acts h' id l ⟨l.resource, some (k reply)⟩
  | resolve (l : XaLocal T) (phase : XaPhase2) (fate : Fate) :
    site.Acts h' id l ⟨((site.dialect id).resolve site.dtm.libs.url (site.descriptor id) phase fate
      l.resource).2, l.call⟩

theorem XaSite.Acts.setLocal {h' : List (Nat × Event)} {id' : String} {l : XaLocal T}
    (h : site.Acts h' id' (S.locals id') l) (id : String) :
    site.Acts h' id (S.locals id) ((S.setLocal id' l).locals id) := by
  by_cases hid : id = id'
  · subst hid
    simpa [XaSystem.setLocal] using h
  · simpa [XaSystem.setLocal, hid] using XaSite.Acts.none (S.locals id)

/-- The store records a registration that it acknowledges. -/
theorem registered_of_ok {gid : String} {branch : Branch} {i : Nat} {c : Outcome} {w : World}
    {tx : Transaction} (h : (InMemory.exec i (.registerBranch gid branch) c w).1 = .ok tx) :
    (i, .registered gid branch) ∈
      (InMemory.exec i (.registerBranch gid branch) c w).2.history := by
  simp only [InMemory.exec, InMemory.noteOk] at h ⊢
  split at h <;> rename_i hr
  · exact List.mem_cons_self
  · cases hr.symm.trans h

theorem registered_reply {r : Except Err Transaction}
    (h : (r.map fun _ => ()) = Except.ok ()) : ∃ tx, r = .ok tx := by
  cases r with
  | ok tx => exact ⟨tx, rfl⟩
  | error e => cases h

theorem XaSite.Step.acts (hs : site.Step allow safe S S') (id : String) :
    site.Acts S'.pool.world.history id (S.locals id) (S'.locals id) := by
  obtain ⟨m, hm, hs⟩ := hs
  cases m with
  | start op =>
    cases hs
    exact .none _
  | exec i c =>
    simp only [XaSite.next?] at hs
    split at hs
    · cases hs
      exact .none _
    · cases hs
  | cut i =>
    cases hs
    exact .none _
  | drift now =>
    cases hs
    exact .none _
  | call id' =>
    simp only [XaSite.next?] at hs
    split at hs
    · cases hs
    · rename_i hcall
      cases hs
      exact XaSite.Acts.setLocal (.call _ hcall) id
  | statement id' fate value =>
    simp only [XaSite.next?] at hs
    split at hs
    · rename_i o k hcall
      cases hs
      exact XaSite.Acts.setLocal (.statement _ o k fate value hcall) id
    · cases hs
  | register id' answered =>
    simp only [XaSite.next?] at hs
    split at hs
    · rename_i k hcall
      cases hs
      refine XaSite.Acts.setLocal (.register _ k _ hcall fun hok => ?_) id
      split at hok
      · rename_i hanswered
        obtain ⟨tx, htx⟩ := registered_reply hok
        exact ⟨_, registered_of_ok htx⟩
      · cases hok
    · cases hs
  | deliver c fate =>
    simp only [XaSite.next?] at hs
    split at hs
    · cases hs
    · rename_i phase hphase
      cases hs
      exact XaSite.Acts.setLocal (.resolve _ phase fate) id

theorem XaSite.Step.history (hs : site.Step allow safe S S') {e : Nat × Event}
    (he : e ∈ S.pool.world.history) : e ∈ S'.pool.world.history := by
  obtain ⟨m, hm, hs⟩ := hs
  cases m with
  | exec i c | register id answered =>
    simp only [XaSite.next?] at hs
    split at hs
    · cases hs
      exact mem_history_exec he
    · cases hs
  | call id | statement id fate value | deliver c fate =>
    simp only [XaSite.next?] at hs
    split at hs <;> cases hs
    exact he
  | start op | cut i | drift now =>
    cases hs
    exact he

/-- **The session of a branch through a move.** -/
theorem XaSite.Acts.going {h h' : List (Nat × Event)} {id : String} {l l' : XaLocal T} {t : Bool}
    (ha : site.Acts h' id l l') (hh : ∀ e ∈ h, e ∈ h') (hl : l.Going site h id t) :
    ∃ t, l'.Going site h' id t := by
  have hl := hl.mono hh
  cases ha with
  | none => exact ⟨t, hl⟩
  | call hcall => exact ⟨t, hl.called _⟩
  | statement o k fate value hcall => exact ⟨t, hl.statement hcall _ fate value⟩
  | register k reply hcall hok => exact hl.registers hcall hok
  | resolve phase fate => exact ⟨t, hl.resolved _ phase fate⟩

/-- What was resolved stays resolved through a move. -/
theorem XaSite.Acts.stays {h' : List (Nat × Event)} {id : String} {l l' : XaLocal T}
    {phase : XaPhase2} (ha : site.Acts h' id l l') (hl : l.Resolved phase) :
    l'.Resolved phase := by
  cases ha with
  | none => exact hl
  | call hcall => exact hl.unfinished (by rw [XaLocal.finished, hcall]) fun _ _ h => h
  | statement o k fate value hcall => exact hl.statement hcall
  | register k reply hcall hok =>
    exact hl.unfinished (by rw [XaLocal.finished, hcall]) fun _ _ h => h
  | resolve phase fate => exact hl.resolved

theorem XaSite.Acts.isPrepared {h' : List (Nat × Event)} {id : String} {l l' : XaLocal T}
    (ha : site.Acts h' id l l') (hl : l.isPrepared = true) : l'.isPrepared = true := by
  obtain ⟨v, hv⟩ := XaLocal.isPrepared_call hl
  cases ha with
  | none => exact hl
  | call hcall => cases hcall.symm.trans hv
  | statement o k fate value hcall => cases hcall.symm.trans hv
  | register k reply hcall hok => cases hcall.symm.trans hv
  | resolve phase fate => exact hl

/-- **An answer of success is true**, when it is true whenever the id is not prepared. -/
theorem XaSite.Step.answered {safe : XaSystem T → BranchCall → Prop}
    (hsafe : ∀ S c, safe S c → S.AnswersTrue c) (hs : site.Step allow safe S S')
    (hS : ∀ c ∈ S.answered, ∀ phase ∈ (XaPhase2.parse c.op).toOption,
      (S.locals c.branchId).Resolved phase) :
    ∀ c ∈ S'.answered, ∀ phase ∈ (XaPhase2.parse c.op).toOption,
      (S'.locals c.branchId).Resolved phase := by
  have hacts := hs.acts
  have hold (c : BranchCall) (hc : c ∈ S.answered) :
      ∀ phase ∈ (XaPhase2.parse c.op).toOption, (S'.locals c.branchId).Resolved phase :=
    fun phase hphase => (hacts _).stays (hS c hc phase hphase)
  obtain ⟨m, hm, hs⟩ := hs
  cases m with
  | deliver call fate =>
    simp only [XaSite.next?] at hs
    split at hs
    · cases hs
    · rename_i phase hphase
      cases hs
      intro c hc
      dsimp only at hc
      split at hc
      · rename_i hok
        rcases List.mem_cons.mp hc with rfl | hc
        · intro phase' hphase'
          have hsame : phase' = phase := by simpa [hphase, Except.toOption, eq_comm] using hphase'
          subst hsame
          have h := XaLocal.resolved_of_answer (hsafe _ _ hm.2.2 phase' hphase') hok
          simpa [XaSystem.setLocal] using h
        · exact hold c hc
      · exact hold c hc
  | exec i c | register id answered | call id | statement id fate value =>
    simp only [XaSite.next?] at hs
    split at hs <;> cases hs
    exact hold
  | start op | cut i | drift now =>
    cases hs
    exact hold

/-- A call that came back with success was answered so. -/
theorem XaSite.Step.ended (hs : site.Step allow safe S S')
    (hS : ∀ i c, (i, .ended c true) ∈ S.pool.world.history → c.gid = site.gid → c ∈ S.answered) :
    ∀ i c, (i, .ended c true) ∈ S'.pool.world.history → c.gid = site.gid → c ∈ S'.answered := by
  obtain ⟨m, hm, hs⟩ := hs
  cases m with
  | exec j out =>
    simp only [XaSite.next?] at hs
    split at hs
    · rename_i o k hthread
      cases hs
      simp only [XaSite.Allowed, hthread] at hm
      intro i c hc hg
      by_cases ho : o = .invokeEnd c
      · subst ho
        simp only [InMemory.exec, World.note_history, List.mem_cons, Prod.mk.injEq,
          Event.ended.injEq, true_and] at hc
        rcases hc with ⟨-, hok⟩ | hc
        · exact hm.2 hg hok.symm
        · exact hS i c hc hg
      · exact hS i c ((mem_history_step hc).resolve_right fun he => ho (ended_ofStep he)) hg
    · cases hs
  | register id answered =>
    simp only [XaSite.next?] at hs
    split at hs
    · cases hs
      intro i c hc hg
      refine hS i c ((mem_history_step hc).resolve_right fun he => ?_) hg
      cases he
    · cases hs
  | call id | statement id fate value =>
    simp only [XaSite.next?] at hs
    split at hs <;> cases hs
    exact hS
  | deliver call fate =>
    simp only [XaSite.next?] at hs
    split at hs
    · cases hs
    · cases hs
      intro i c hc hg
      dsimp only
      split
      · exact List.mem_cons_of_mem _ (hS i c hc hg)
      · exact hS i c hc hg
  | start op | cut i | drift now =>
    cases hs
    exact hS

/-! ### The two disjuncts of the decision -/

/-- The programs of a transaction whose branches are not all prepared ask for no commit. -/
theorem XaSite.Starts.follows_undecided (hnot : ¬ ∀ id ∈ site.ids, (S.locals id).isPrepared = true)
    {p : Prog effects (Except Err (List Transaction))} (hp : site.Starts S p) :
    (undecided site.gid).Follows p () (fun _ _ => True) := by
  obtain ⟨op, hop, rfl⟩ := hp
  refine follows_asksNoCommit ?_
  rcases hop with hop | ⟨id, rfl⟩
  · cases op with
    | commitXa gid => exact absurd hop.2 hnot
    | prepareXa gid | rollbackXa gid | scheduleAbort gid | tickRecoverOnce => trivial
    | _ => exact hop.elim
  · trivial

/-- What holds of every state that the moves reach. -/
structure XaSite.Inv (site : XaSite) (S : XaSystem T) : Prop where
  good : (xaOutline site.gid).Good S.pool
  undecided : (∀ id ∈ site.ids, (S.locals id).isPrepared = true) ∨
    (undecidedOutline site.gid).Good S.pool
  going : ∀ id, ∃ t, (S.locals id).Going site S.pool.world.history id t
  answered : ∀ c ∈ S.answered, ∀ phase ∈ (XaPhase2.parse c.op).toOption,
    (S.locals c.branchId).Resolved phase
  ended : ∀ i c, (i, .ended c true) ∈ S.pool.world.history → c.gid = site.gid → c ∈ S.answered

/-- **One move.** -/
theorem XaSite.Inv.step {safe : XaSystem T → BranchCall → Prop} (hS : site.Inv S)
    (hsafe : ∀ S c, safe S c → S.AnswersTrue c)
    (hs : site.Step (FreshAndProven site.gid) safe S S') : site.Inv S' where
  good := by
    refine hs.good (fun o w h => ?_) (fun p hp => starts_registering hp) hS.good
    exact ⟨⟨trivial, h.1⟩, h.2⟩
  undecided := by
    by_cases hall : ∀ id ∈ site.ids, (S.locals id).isPrepared = true
    · exact Or.inl fun id hid => (hs.acts id).isPrepared (hall id hid)
    · refine Or.inr (hs.good (fun _ _ _ => trivial) (fun p hp => ?_)
        (hS.undecided.resolve_left hall))
      exact XaSite.Starts.follows_undecided hall hp
  going := fun id => by
    obtain ⟨t, ht⟩ := hS.going id
    exact (hs.acts id).going (fun _ => hs.history) ht
  answered := hs.answered hsafe hS.answered
  ended := hs.ended hS.ended

/-- A prepared branch has been resolved as the status says. -/
theorem XaSite.Inv.resolved (hS : site.Inv S) {id : String} {op : String}
    (h : Succeeded S.pool.world.history ⟨site.gid, id, op⟩) {phase : XaPhase2}
    (hphase : phase ∈ (XaPhase2.parse op).toOption) : (S.locals id).Resolved phase := by
  obtain ⟨⟨i, e⟩, he, c, hc, hkey⟩ := h
  have hend : e = .ended c true := by
    cases e with
    | ended c' ok =>
      cases ok with
      | true =>
        cases hc
        rfl
      | false => cases hc
    | _ => cases hc
  subst hend
  obtain ⟨hg, rfl, rfl⟩ : c.gid = site.gid ∧ c.branchId = id ∧ c.op = op := by
    simpa [BranchCall.barrier] using hkey
  exact hS.answered c (hS.ended i c he hg) phase hphase

/-- The branch of a resource id that is registered has the calls that the status says. -/
theorem XaSite.Inv.branch (hS : site.Inv S) {id : String}
    (hreg : site.Registered S.pool.world.history id) :
    ∃ s, S.pool.world.txs[site.gid]? = some s ∧ XaComplete site.gid S.pool.world.history s ∧
      ∃ b ∈ s.branches, b.id = id := by
  obtain ⟨-, ⟨s, hs, hcomplete⟩, hkept⟩ := hS.good.1
  obtain ⟨i, hi⟩ := hreg
  obtain ⟨s', hs', hb⟩ := hkept.branches i _ hi
  cases hs.symm.trans hs'
  exact ⟨s, hs, hcomplete, List.mem_map.mp hb⟩

/-- **The resources follow the outcome.** -/
theorem XaSite.Inv.followed (hS : site.Inv S) : site.Followed S := by
  refine ⟨?_, ?_⟩
  · rintro ⟨s, hs, hst⟩ - id - hprep
    obtain ⟨t, hgoing⟩ := hS.going id
    obtain ⟨s', hs', hcomplete, b, hb, hid⟩ := hS.branch (hgoing.registered (hgoing.prepared hprep))
    cases hs.symm.trans hs'
    have hcall := hcomplete.rolledBack hst b hb
    rw [Branch.key, hid] at hcall
    exact (@XaSite.Inv.resolved T site S hS id "rollback" hcall .rollback rfl).not_prepared hprep
  · rintro ⟨s, hs, hst⟩ id hmem
    have hall : ∀ id ∈ site.ids, (S.locals id).isPrepared = true := by
      rcases hS.undecided with hall | hgood
      · exact hall
      · exact absurd hst (hgood.1.record s hs).succeeded
    obtain ⟨t, hgoing⟩ := hS.going id
    obtain ⟨s', hs', hcomplete, b, hb, hid⟩ := hS.branch (hgoing.isPrepared (hall id hmem))
    cases hs.symm.trans hs'
    have hcall := hcomplete.committed hst b hb
    rw [Branch.key, hid] at hcall
    exact @XaSite.Inv.resolved T site S hS id "commit" hcall .commit rfl

end Invariant

/-- **The resources of an XA transaction follow its outcome**, in every run in which no write of
it is stale, a barrier of its second phase is found taken only after its call has returned
success, and a request that finds its resource id not prepared is answered `AlreadyResolved`
truly. -/
theorem xa_resources_follow (site : XaSite) {w : World} (hw : w.Keyed) (hh : w.history = [])
    {s₀ : Transaction} (hs : w.txs[site.gid]? = some s₀) (hk : s₀.kind = .xa)
    (hst : s₀.status = .submitted) {row : String → Bool} {S : XaSystem T}
    (hS : site.Reaches (FreshAndProven site.gid) XaSystem.AnswersTrue (.initial w row) S) :
    site.Followed S := by
  have hstart : site.Inv (.initial w row : XaSystem T) := by
    obtain ⟨hinv, hown⟩ := xa_start hw hh hs hk hst
    refine ⟨Outline.good_idle hinv hown, Or.inr (Outline.good_idle ⟨hw, ?_, ?_⟩ fun _ => trivial),
      fun id => ⟨false, ?_, fun h => (nomatch h), fun h => (nomatch h)⟩, ?_, ?_⟩
    · intro s hs'
      cases hs.symm.trans hs'
      exact ⟨Or.inr (Or.inl hk), by simp [hst], by simp [hst]⟩
    · intro i c hm
      rw [hh] at hm
      cases hm
    · rintro p ⟨⟩
    · rintro c ⟨⟩
    · intro i c hm
      have hnil : (XaSystem.initial w row : XaSystem T).pool.world.history = [] := hh
      rw [hnil] at hm
      cases hm
  have hend : site.Inv S := by
    induction hS with
    | refl => exact hstart
    | tail _ hs ih => exact ih.step (fun _ _ h => h) hs
  exact hend.followed

/-- The branch is prepared, and then the transaction is prepared and committed. -/
theorem xa_resources_follow_committed : ∃ S : XaSystem Unit,
    XaSite.plain.Reaches (FreshAndProven "g") XaSystem.AnswersTrue .submitted S ∧
    S.pool.world.HasStatus "g" .succeeded ∧ (S.locals "b").isPrepared = true ∧
    XaSite.plain.Followed S := by
  obtain ⟨S, hS, hφ⟩ := @XaSite.exists_of_nextAll? Unit .plain (FreshAndProven "g")
    XaSystem.AnswersTrue _ _ .submitted
    (XaSystem.registers ++ XaSystem.statements "b" 2 ++ .start (.prepareXa "g") ::
      XaSystem.execs 1 2 true ++ .start (.commitXa "g") :: XaSystem.execs 2 3 true ++
      .deliver (XaSystem.phase2 "commit") .done :: XaSystem.execs 2 2 true)
    (fun S => S.pool.world.statusOf "g" = some .succeeded && (S.locals "b").isPrepared) (by decide)
  rw [Bool.and_eq_true, decide_eq_true_eq] at hφ
  exact ⟨S, hS, World.hasStatus_iff.mpr hφ.1, hφ.2,
    xa_resources_follow .plain (World.keyed_initial _) rfl rfl rfl rfl hS⟩

/-- The coordinator has registered the branch, and rolls it back before it is prepared; the
resource id is not known yet, and the answer is `AlreadyResolved`.  The transaction is Aborted,
and the `prepare_branch` goes on. -/
theorem xa_left_prepared : ∃ S : XaSystem Unit,
    XaSite.plain.Reaches (fun _ _ => True) (fun _ _ => True) .submitted S ∧
    S.pool.world.HasStatus "g" .aborted ∧ (S.locals "b").isPrepared = true ∧
    (S.locals "b").resource.state = .prepared ∧ ¬ XaSite.plain.Followed S := by
  obtain ⟨S, hS, hφ⟩ := @XaSite.exists_of_nextAll? Unit .plain (fun _ _ => True)
    (fun _ _ => True) (fun _ _ => .isTrue trivial) (fun _ _ => .isTrue trivial) .submitted
    (XaSystem.registers ++ .start (.rollbackXa "g") :: XaSystem.execs 1 3 true ++
      .deliver (XaSystem.phase2 "rollback") .done :: XaSystem.execs 1 2 true ++ XaSystem.statements "b" 2)
    (fun S => (S.pool.world.statusOf "g" = some .aborted && (S.locals "b").isPrepared) &&
      ((S.locals "b").finished && (S.locals "b").resource.state = .prepared)) (by decide)
  simp only [Bool.and_eq_true, decide_eq_true_eq] at hφ
  obtain ⟨⟨hst, hprepared⟩, hfinished, hleft⟩ := hφ
  refine ⟨S, hS, World.hasStatus_iff.mpr hst, hprepared, hleft, fun hfollowed => ?_⟩
  refine hfollowed.1 (World.hasStatus_iff.mpr hst) (fun id hid => ?_) "b" (.head _) hleft
  cases List.mem_singleton.mp hid
  exact Or.inr hfinished

end RozeDtm
