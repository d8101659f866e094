import RozeDtm.Conc.Comes
import RozeDtm.Trail.Service

/-!
# The records that a request inserts

`submit` is the only operation that inserts a record.  `Submitted dtm K tx stored` says what it
inserts for `tx`: the branches of a Message with the topics among them expanded, and the timeout
filled in.  `K` is what is known of the topic store, as the answers to `get_kv`.

* `submitted_of_submit`, `submitted_of_compatApply`: what a program can come to insert.
-/

namespace RozeDtm

open Conc

/-- An answer is one that `K` allows, if it is about the topic store. -/
def Reads (K : String → String → Option KvEntry → Prop) : (o : Effect) → o.Reply → Prop
  | .getKv category key, r => K category key r
  | _, _ => True

/-- The records that a step inserts have `φ`. -/
def Inserts (φ : Transaction → Prop) : Effect → Prop
  | .insertTransaction tx => φ tx
  | _ => True

/-- The topic that an action names. -/
def Branch.topic (branch : Branch) : String := (branch.action.drop "topic://".length).toString

/-- What a branch of a Message is expanded to. -/
inductive Expansion (libs : Libs) (K : String → String → Option KvEntry → Prop) (branch : Branch) :
    List Branch → Prop
  | plain (haction : branch.action.startsWith "topic://" = false) : Expansion libs K branch [branch]
  | topic (haction : branch.action.startsWith "topic://" = true) {entry : KvEntry}
      (hread : K "topics" branch.topic (some entry)) {subscribers : List TopicSubscriber}
      (hparse : libs.parseSubscribers entry.value = .ok subscribers) (hne : subscribers ≠ [])
      (hname : branch.topic ≠ "" ∧ branch.topic.utf8ByteSize ≤ 191) :
      Expansion libs K branch (Dtm.subscriberBranches branch subscribers)

/-- The branches with which a transaction is submitted. -/
structure SubmittedBranches (libs : Libs) (K : String → String → Option KvEntry → Prop)
    (tx : Transaction) (branches : List Branch) : Prop where
  same : tx.kind ≠ .message → branches = tx.branches
  expanded : tx.kind = .message → ∃ groups : List (List Branch),
    List.Forall₂ (Expansion libs K) tx.branches groups ∧ branches = groups.flatten ∧
      (branches.map Branch.id).Nodup

/-- A branch that stands for another in a submitted transaction. -/
structure Branch.StandsFor (a b : Branch) : Prop where
  payload : b.payload = a.payload
  id : b.id = a.id ∨ ∃ n, b.id = s!"{a.id}-{Dtm.twoDigits n}"

/-- The timeout that `submit` fills in. -/
def Dtm.withTimeout (dtm : Dtm) (tx : Transaction) : Transaction :=
  if isCallbackWorkflow tx then tx else
    { tx with timeoutMillis := some (tx.timeoutMillis.getD dtm.options.transactionTimeoutMillis) }

/-- What `submit` inserts for `tx`. -/
structure Submitted (dtm : Dtm) (K : String → String → Option KvEntry → Prop)
    (tx stored : Transaction) : Prop where
  options : tx.options.validate dtm.libs = .ok ()
  dependencies : validateTransactionDependencies tx = .ok ()
  record : ∃ branches, SubmittedBranches dtm.libs K tx branches ∧
    stored = dtm.withTimeout { tx with revision := 1, branches := branches }

/-- The answers that the store gives in a world. -/
def answersIn (w : World) (o : Effect) : o.Reply := (InMemory.exec 0 o (.ofOk true) w).1

/-- A record that a program comes to insert, computed from the answers in a world. -/
theorem exists_insert {α : Type} {K : String → String → Option KvEntry → Prop} (w : World)
    (hK : ∀ category key, K category key (w.kv (category, key))) {p : Prog effects α}
    (φ : Transaction → Bool)
    (h : ((p.asks (answersIn w)).any fun
      | .insertTransaction tx => φ tx
      | _ => false) = true) :
    ∃ stored, p.Comes (Reads K) (.insertTransaction stored) ∧ φ stored = true := by
  have hreads : ∀ o, Reads K o (answersIn w o) := by
    intro o
    cases o with
    | getKv category key => exact hK category key
    | _ => trivial
  obtain ⟨o, hcomes, ho⟩ := Prog.comes_of_asks hreads h
  cases o with
  | insertTransaction tx => exact ⟨tx, hcomes, ho⟩
  | _ => cases ho

section Expansions

variable {libs : Libs} {K : String → String → Option KvEntry → Prop} {tx : Transaction}
  {branches group : List Branch} {a b : Branch}

theorem Expansion.standsFor (h : Expansion libs K a group) (hb : b ∈ group) : a.StandsFor b := by
  cases h with
  | plain haction =>
    cases List.mem_singleton.mp hb
    exact ⟨rfl, .inl rfl⟩
  | topic haction hread hparse hne hname =>
    obtain ⟨index, hindex, rfl⟩ := List.mem_mapIdx.mp hb
    refine ⟨rfl, ?_⟩
    dsimp only
    split
    · exact .inr ⟨index + 1, rfl⟩
    · exact .inl rfl

theorem Expansion.nonempty (h : Expansion libs K a group) : ∃ b, b ∈ group := by
  apply List.exists_mem_of_ne_nil
  cases h with
  | plain haction => exact List.cons_ne_nil a []
  | topic haction hread hparse hne hname => exact fun hnil => hne (List.mapIdx_eq_nil_iff.mp hnil)

/-- Every submitted branch stands for one of the transaction. -/
theorem SubmittedBranches.standsFor (h : SubmittedBranches libs K tx branches) (hb : b ∈ branches) :
    ∃ a ∈ tx.branches, a.StandsFor b := by
  by_cases hkind : tx.kind = .message
  · obtain ⟨groups, hgroups, hflatten, -⟩ := h.expanded hkind
    rw [hflatten] at hb
    obtain ⟨group, hgroup, hb⟩ := List.mem_flatten.mp hb
    obtain ⟨a, ha, hexpansion⟩ := exists_of_forall₂ hgroups hgroup
    exact ⟨a, ha, hexpansion.standsFor hb⟩
  · rw [h.same hkind] at hb
    exact ⟨b, hb, rfl, .inl rfl⟩

/-- Every branch of the transaction has one that stands for it. -/
theorem SubmittedBranches.exists_standsFor (h : SubmittedBranches libs K tx branches)
    (ha : a ∈ tx.branches) : ∃ b ∈ branches, a.StandsFor b := by
  by_cases hkind : tx.kind = .message
  · obtain ⟨groups, hgroups, hflatten, -⟩ := h.expanded hkind
    obtain ⟨group, hgroup, hexpansion⟩ := exists_of_forall₂_left hgroups ha
    obtain ⟨b, hb⟩ := hexpansion.nonempty
    refine ⟨b, ?_, hexpansion.standsFor hb⟩
    rw [hflatten]
    exact List.mem_flatten_of_mem hgroup hb
  · exact ⟨a, by rwa [h.same hkind], rfl, .inl rfl⟩

end Expansions

@[simp] theorem Dtm.withTimeout_branches (dtm : Dtm) (tx : Transaction) :
    (dtm.withTimeout tx).branches = tx.branches := by
  unfold Dtm.withTimeout
  split <;> rfl

section Walk

variable {dtm : Dtm} {K : String → String → Option KvEntry → Prop} {φ : Transaction → Prop}
  {α : Type}

/-- The discipline of inserting only what has `φ`. -/
abbrev inserting (K : String → String → Option KvEntry → Prop) (φ : Transaction → Prop) :
    Discipline effects Unit :=
  Discipline.permitting (Reads K) (Inserts φ)

theorem inserting_call {o : Effect} (ho : Inserts φ o) {Q : Unit → o.Reply → Prop}
    (hQ : ∀ r, Reads K o r → Q () r) : (inserting K φ).Does (Act.call o) () Q :=
  Discipline.does_perform.mpr ⟨ho, hQ⟩

/-- **The branches of a Message are expanded** one by one. -/
theorem inserting_expandBranches (branches : List Branch) :
    (inserting K φ).Does (dtm.expandBranches branches) () fun _ bs => ∃ groups : List (List Branch),
      List.Forall₂ (Expansion dtm.libs K) branches groups ∧ bs = groups.flatten := by
  induction branches with
  | nil => exact Discipline.does_pure.mpr ⟨[], .nil, rfl⟩
  | cons branch rest ih =>
    have hrest {group : List Branch} (hgroup : Expansion dtm.libs K branch group) :
        (inserting K φ).Does (dtm.expandBranches rest) () fun _ bs =>
          ∃ groups : List (List Branch), List.Forall₂ (Expansion dtm.libs K) (branch :: rest) groups ∧
            group ++ bs = groups.flatten := by
      refine ih.mono fun _ bs ⟨groups, hgroups, hbs⟩ => ⟨group :: groups, .cons hgroup hgroups, ?_⟩
      rw [hbs, List.flatten_cons]
    rw [Dtm.expandBranches]
    split
    · rename_i haction
      simp only [Discipline.does_bind, does_ofOption, does_ofExcept, Discipline.does_pure,
        Dtm.getTopic]
      intro _ hname
      rw [ensure_eq_ok, Bool.and_eq_true, Bool.not_eq_true', decide_eq_true_eq] at hname
      refine inserting_call (by exact trivial) fun entry hread => ?_
      cases entry with
      | none => simp
      | some entry =>
        simp only [Discipline.does_bind, does_ofExcept, Discipline.does_pure]
        intro subscribers hparse topic htopic _ hne
        cases htopic
        rw [ensure_eq_ok, Bool.not_eq_true'] at hne
        refine hrest (.topic haction hread hparse ?_ ?_)
        · rintro rfl
          cases hne
        · refine ⟨fun hempty => ?_, hname.2⟩
          have hsize := hname.1
          rw [show (branch.action.drop "topic://".length).toString = "" from hempty] at hsize
          cases hsize
    · rename_i haction
      simp only [Discipline.does_bind, Discipline.does_pure]
      exact hrest (.plain (Bool.eq_false_of_not_eq_true haction))

/-- **What `submit` inserts.** -/
theorem inserting_submit {tx : Transaction} (hφ : ∀ stored, Submitted dtm K tx stored → φ stored) :
    (inserting K φ).Does (dtm.submit tx) () (fun _ _ => True) := by
  -- the last step
  have insert {branches : List Branch} (hoptions : tx.options.validate dtm.libs = .ok ())
      (hvalid : validateTransactionDependencies tx = .ok ())
      (hbranches : SubmittedBranches dtm.libs K tx branches) :
      (inserting K φ).Does
        (Store.insertTransaction (dtm.withTimeout { tx with revision := 1, branches := branches })) ()
        (fun _ _ => True) :=
    ⟨hφ _ ⟨hoptions, hvalid, branches, hbranches, rfl⟩, fun _ _ _ _ => trivial⟩
  simp only [Dtm.submit, Discipline.does_bind, does_ofExcept]
  intro _ hoptions _ _ _ hvalid
  split
  · rename_i hmessage
    simp only [Discipline.does_bind, Dtm.expandMessageTopics, does_ofExcept, Discipline.does_pure]
    refine (inserting_expandBranches _).mono fun _ bs hexpanded _ hnodup => ?_
    obtain ⟨groups, hgroups, hbs⟩ := hexpanded
    rw [ensure_eq_ok, decide_eq_true_eq] at hnodup
    exact insert hoptions hvalid ⟨fun h => absurd hmessage h, fun _ => ⟨groups, hgroups, hbs, hnodup⟩⟩
  · rename_i hmessage
    simp only [Discipline.does_bind, Discipline.does_pure]
    exact insert hoptions hvalid ⟨fun _ => rfl, fun h => absurd h hmessage⟩

/-- The records that `submit` can come to insert. -/
theorem submitted_of_submit {tx stored : Transaction}
    (h : (dtm.submit tx).run.Comes (Reads K) (.insertTransaction stored)) :
    Submitted dtm K tx stored :=
  Discipline.follows_permitting.mp (inserting_submit fun _ h => h).follows _ h

variable {state : ControlState}

/-- What comes after the submission inserts nothing. -/
theorem inserting_compatDispatch (kind : TransactionKind) (operation : CompatOperation)
    (waitResult : Bool) (completion : Option CallbackWorkflowCompletion) (gid : String) :
    (inserting K φ).Follows (state.compatDispatch kind operation waitResult completion gid).run ()
      (fun _ _ => True) := by
  refine Discipline.Follows.permitting (fun _ => trivial) (fun {_ o} hp => ?_)
    (developing_compatDispatch (σ := .start) (fun _ => trivial) kind operation waitResult
      completion).follows
  cases o <;> trivial

theorem inserting_compatApply (request : CompatTransactionRequest) (operation : CompatOperation)
    (hφ : ∀ now kind tx stored, parseKind request.transType = .ok kind →
      state.compatSubmission now kind request = .ok tx → Submitted state.dtm K tx stored → φ stored) :
    (inserting K φ).Does (state.compatApply request operation) () (fun _ _ => True) := by
  have hdispatch (kind : TransactionKind) (gid : String)
      (completion : Option CallbackWorkflowCompletion) : (inserting K φ).Does
        (state.compatDispatch kind operation request.waitResult completion gid) ()
        (fun _ _ => True) :=
    (inserting_compatDispatch kind operation request.waitResult completion gid).mono
      fun _ _ _ _ _ => trivial
  simp only [ControlState.compatApply, Discipline.does_bind, does_ofExcept]
  intro kind hkind completion _ _ _
  refine inserting_call (by exact trivial) fun existing _ _ _ _ _ => ?_
  split
  · rw [Discipline.does_bind]
    refine inserting_call (by exact trivial) fun now _ => ?_
    simp only [Discipline.does_bind, does_ofExcept]
    intro tx htx
    refine (inserting_submit fun stored hstored => hφ now kind tx stored hkind htx hstored).mono ?_
    exact fun _ _ _ => hdispatch kind _ completion
  · exact hdispatch kind _ completion

/-- **The records that a compatibility request can come to insert.** -/
theorem submitted_of_compatApply {request : CompatTransactionRequest} {operation : CompatOperation}
    {stored : Transaction}
    (h : (state.compatApply request operation).run.Comes (Reads K) (.insertTransaction stored)) :
    ∃ now kind tx, parseKind request.transType = .ok kind ∧
      state.compatSubmission now kind request = .ok tx ∧ Submitted state.dtm K tx stored :=
  Discipline.follows_permitting.mp
    (@inserting_compatApply K (fun stored => ∃ now kind tx, parseKind request.transType = .ok kind ∧
      state.compatSubmission now kind request = .ok tx ∧ Submitted state.dtm K tx stored) state
      request operation fun now kind tx _ hkind htx hstored =>
        ⟨now, kind, tx, hkind, htx, hstored⟩).follows _ h

end Walk

end RozeDtm
