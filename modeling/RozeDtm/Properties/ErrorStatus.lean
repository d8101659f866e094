import RozeDtm.Twin.Blamed

/-!
# The HTTP status of a failed operation

`operation_error` takes the status of its answer from the error's text, in which the gid, the ids
of branches and the texts of the store stand.  The status is independent of the gid, 404 for a
missing transaction and 409 for a refusal of the kind or the status, exactly when none of these
makes a text that is misread.
-/

namespace RozeDtm

open Conc ControlOperation

/-- Two stores that agree up to the gid: the same record under each gid or none, and the same
barriers. -/
structure Agree (gid gid' : String) (record : Option Transaction) (w w' : World) : Prop where
  left : w.txs[gid]? = record.map fun tx => tx.named gid
  right : w'.txs[gid']? = record.map fun tx => tx.named gid'
  barriers : ∀ id op, (⟨gid, id, op⟩ : BranchBarrier) ∈ w.barriers ↔
    (⟨gid', id, op⟩ : BranchBarrier) ∈ w'.barriers

/-- The time at the second step, at which `recover` looks at the timeout. -/
def readAt : List (Reading ⊕ (String → Err)) → Nat
  | _ :: .inl reading :: _ => reading.now
  | _ => 0

/-- What the answers to a failure should be: the same status under both gids, 404 for a missing
transaction, and 409 for a refusal of the kind or the status.  A failure of the store is neither. -/
def Answered (op : ControlOperation) (record : Option Transaction)
    (cs : List (Reading ⊕ (String → Err))) (e e' : Err) : Prop :=
  errorStatus e' = errorStatus e ∧
    (errorStatus e = 404 ↔ record = none ∧ cs.any Sum.isRight = false) ∧
    (errorStatus e = 409 ↔
      (∃ tx, record = some tx ∧ op.refuses (readAt cs) tx = true) ∧ cs.any Sum.isRight = false)

/-- **The status of a failed operation is independent of the gid**, in all stores that agree on
the record, with all outcomes of the calls and all failures of the store with a text in `T`. -/
def StatusIndependent (dtm : Dtm) (op : ControlOperation) (record : Option Transaction)
    (gid gid' : String) (T : (String → Err) → Prop) : Prop :=
  ∀ (w w' : World) (cs : List (Reading ⊕ (String → Err))) (e : Err),
    Agree gid gid' record w w' → (∀ f, .inr f ∈ cs → T f) →
    op.run? dtm gid w cs = some (.error e) →
    ∃ e', op.run? dtm gid' w' cs = some (.error e') ∧ Answered op record cs e e'

variable {dtm : Dtm} {op : ControlOperation} {record : Option Transaction} {gid gid' : String}
  {T : (String → Err) → Prop} {tx : Transaction} {w w' : World}
  {cs : List (Reading ⊕ (String → Err))} {e e' : Err}

/-! ### Answers -/

/-- There are three answers. -/
theorem plain_of_status (h404 : errorStatus e ≠ 404) (h409 : errorStatus e ≠ 409) : Plain e := by
  rw [Ne, errorStatus_eq_404_iff] at h404
  rw [Ne, errorStatus_eq_409_iff, not_and] at h409
  exact plain_iff.mpr ⟨h404, h409 h404⟩

/-- After a failure of the store. -/
theorem answered_failure (hfailed : cs.any Sum.isRight = true) (he : BothPlain e e') :
    Answered op record cs e e' := by
  have h502 : errorStatus e = 502 := he.1
  refine ⟨he.2.trans h502.symm, ?_, ?_⟩
  · rw [h502, hfailed]
    simp
  · rw [h502, hfailed]
    simp

/-- An error of an operation that does not refuse the record. -/
theorem answered_plain (he : BothPlain e e') (haccept : op.refuses (readAt cs) tx = false) :
    Answered op (some tx) cs e e' := by
  have h502 : errorStatus e = 502 := he.1
  refine ⟨he.2.trans h502.symm, ?_, ?_⟩
  · rw [h502]
    simp
  · rw [h502]
    simp [haccept]

theorem answered_refusal {now : Nat} (hclean : cs.any Sum.isRight = false)
    (hrefuse : op.refuses (readAt cs) tx = true) (he : op.RefusalsAt now tx gid gid' e e')
    (hlead : op.opens now tx → ¬ Lead gid ∧ ¬ Lead gid')
    (hmarked : op = .forceStop ∨ op = .resetRetry → Marked gid ∧ Marked gid') :
    Answered op (some tx) cs e e' := by
  have h409 : errorStatus e = 409 :=
    he.1.conflict_iff.mpr ⟨fun h => (hlead h.1).1 h.2, fun hop => (hmarked hop).1⟩
  have h409' : errorStatus e' = 409 :=
    he.2.conflict_iff.mpr ⟨fun h => (hlead h.1).2 h.2, fun hop => (hmarked hop).2⟩
  refine ⟨h409'.trans h409.symm, ?_, ?_⟩
  · rw [h409]
    simp
  · rw [h409, hclean]
    simp [hrefuse]

theorem answered_missing (hclean : cs.any Sum.isRight = false) (he : Missing e) (he' : Missing e') :
    Answered op none cs e e' := by
  have h404 : errorStatus e = 404 := errorStatus_eq_404_iff.mpr he
  have h404' : errorStatus e' = 404 := errorStatus_eq_404_iff.mpr he'
  refine ⟨h404'.trans h404.symm, ?_, ?_⟩
  · rw [h404, hclean]
    simp
  · rw [h404]
    simp

/-! ### The operations -/

/-- **Two programs that end alike are answered alike.** -/
theorem answered_of_twin {α : Type} {x x' : Act α} {Q : α → α → World → World → Prop}
    {E : Err → Err → Prop} {cs' : List (Reading ⊕ (String → Err))}
    (h : Twin T gid gid' x x' Q E w w')
    (hT : ∀ f, T f → Plain (f gid) ∧ Plain (f gid')) (hcs : ∀ f, .inr f ∈ cs' → T f)
    (hany : cs'.any Sum.isRight = cs.any Sum.isRight)
    (hE : ∀ e e', cs.any Sum.isRight = false → E e e' → Answered op record cs e e')
    (hr : (controlStore gid).run? x.run w cs' = some (.error e)) :
    ∃ e', (controlStore gid').run? x'.run w' cs' = some (.error e') ∧
      Answered op record cs e e' := by
  obtain ⟨e', hr', hend⟩ := Single.Both.sound h hcs hr
  refine ⟨e', hr', ?_⟩
  rw [hany] at hend
  split at hend
  · rename_i hfailed
    obtain ⟨f, hf, rfl, rfl⟩ := hend
    exact answered_failure hfailed (hT f hf)
  · rename_i hclean
    exact hE e e' (Bool.eq_false_iff.mpr hclean) hend

/-- An operation on a missing transaction. -/
theorem twin_act_absent (hleft : w.txs[gid]? = none) (hright : w'.txs[gid']? = none) :
    Twin T gid gid' (op.act dtm gid) (op.act dtm gid') (fun _ _ _ _ => True)
      (fun e e' => Missing e ∧ Missing e') w w' := by
  have hmissing (g : String) : Missing ("transaction not found: " ++ g) := by
    unfold Missing
    exact ⟨(" " ++ g).toList, by simp [String.toList_append]⟩
  have hload {x x' : Transaction → Act Transaction} :
      Twin T gid gid' (act.found (loadTransaction gid >>= x))
        (act.found (loadTransaction gid' >>= x')) (fun _ _ _ _ => True)
        (fun e e' => Missing e ∧ Missing e') w w' :=
    Twin.bind (Twin.bind (twin_absent hleft hright ⟨hmissing gid, hmissing gid'⟩))
  have hofKind {kind : TransactionKind} {x x' : Transaction → Act Transaction} :
      Twin T gid gid' (act.found (transactionOfKind gid kind >>= x))
        (act.found (transactionOfKind gid' kind >>= x')) (fun _ _ _ _ => True)
        (fun e e' => Missing e ∧ Missing e') w w' :=
    Twin.bind (Twin.bind (Twin.bind (twin_absent hleft hright ⟨hmissing gid, hmissing gid'⟩)))
  cases op with
  | get => exact Single.both_perform (fun _ => trivial) fun _ => Or.inr ⟨rfl, rfl⟩
  | prepareTcc | confirmTcc | cancelTcc | startSaga | abortSaga | recover | forceStop
  | resetRetry => exact hload
  | _ => exact hofKind

/-- What a clear refusal is not. -/
theorem ControlOperation.ClearAt.refusal {now : Nat} (hclear : op.ClearAt now tx gid)
    (hrefuse : op.refuses now tx = true) : (op.opens now tx → ¬ Lead gid) ∧
      (op = .forceStop ∨ op = .resetRetry → Marked gid) := by
  by_cases hop : op = .recover
  · subst hop
    refine ⟨fun hopens => ?_, fun hcase => (by cases hcase <;> contradiction)⟩
    have hall := hrefuse
    unfold refuses at hall
    unfold ClearAt at hclear
    rw [if_neg (not_not_intro rfl)] at hclear hall
    split at hclear
    · rename_i hterminal
      rw [if_pos hterminal] at hall
      cases hall
    · rename_i hopen
      rw [if_neg hopen] at hall
      split at hclear
      · exact hclear hrefuse hopens
      · rename_i hcallback
        rw [if_neg hcallback] at hall
        split at hclear
        · rename_i target hrecovery
          rw [hrecovery] at hall
          exact hclear.lead hall
        · exact hclear
  · unfold refuses at hrefuse
    unfold ClearAt at hclear
    rw [if_pos hop] at hrefuse hclear
    exact ⟨fun _ => hclear.lead hrefuse, hclear.terminal hrefuse⟩

/-- The status of a failed operation on a missing transaction. -/
theorem statusIndependent_none (hT : ∀ f, T f → Plain (f gid) ∧ Plain (f gid')) :
    StatusIndependent dtm op none gid gid' T := by
  intro w w' cs e hagree hcs hr
  refine answered_of_twin (twin_act_absent hagree.left hagree.right) hT hcs rfl ?_ hr
  exact fun e e' hclean he => answered_missing hclean he.1 he.2

/-- The status of a failed operation on a record of which it does not look at the timeout. -/
theorem statusIndependent_act (hop : op ≠ .recover)
    (hT : ∀ f, T f → Plain (f gid) ∧ Plain (f gid')) (hclear : op.ClearAt 0 tx gid)
    (hclear' : op.ClearAt 0 tx gid') : StatusIndependent dtm op (some tx) gid gid' T := by
  intro w w' cs e hagree hcs hr
  have hheld : Held gid gid' tx w w' := ⟨hagree.left, hagree.right, hagree.barriers⟩
  have hrefuses (now : Nat) : op.refuses now tx = op.declines tx := if_pos hop
  by_cases hdecl : op.declines tx = true
  · refine answered_of_twin (twin_declined hheld hdecl) hT hcs rfl ?_ hr
    intro e e' hclean he
    have hrefuse := (hrefuses 0).trans hdecl
    obtain ⟨hlead, hmarked⟩ := hclear.refusal hrefuse
    obtain ⟨hlead', hmarked'⟩ := hclear'.refusal hrefuse
    have hopens : op.opens 0 tx := fun hcase => hop hcase.1
    have hread (g : String) : Lead g ↔ op.opens 0 tx ∧ Lead g := (and_iff_right hopens).symm
    have hat : op.RefusalsAt 0 tx gid gid' e e' :=
      ⟨⟨he.1.1.trans (hread gid), he.1.2⟩, ⟨he.2.1.trans (hread gid'), he.2.2⟩⟩
    exact answered_refusal hclean ((hrefuses _).trans hdecl) hat
      (fun hcase => ⟨hlead hcase, hlead' hcase⟩) fun hcase => ⟨hmarked hcase, hmarked' hcase⟩
  · unfold ClearAt at hclear hclear'
    rw [if_pos hop] at hclear hclear'
    have hacc : op.declines tx = false := Bool.eq_false_iff.mpr hdecl
    refine answered_of_twin (twin_accepted hop hheld hacc hclear hclear') hT hcs rfl ?_ hr
    exact fun e e' _ he => answered_plain he ((hrefuses _).trans hacc)

/-- The status of a failed `recover`. -/
theorem statusIndependent_recover (hT : ∀ f, T f → Plain (f gid) ∧ Plain (f gid'))
    (hclear : ∀ now, ControlOperation.recover.ClearAt now tx gid)
    (hclear' : ∀ now, ControlOperation.recover.ClearAt now tx gid') :
    StatusIndependent dtm .recover (some tx) gid gid' T := by
  intro w w' cs e hagree hcs hr
  have hheld : Held gid gid' tx w w' := ⟨hagree.left, hagree.right, hagree.barriers⟩
  by_cases hterminal : tx.status.isTerminal = true
  · refine answered_of_twin (twin_recover_terminal hheld hterminal) hT hcs rfl ?_ hr
    refine fun e e' _ he => answered_plain he ?_
    unfold refuses
    rw [if_neg (not_not_intro rfl), if_pos hterminal]
  by_cases hmessage : tx.kind = .message ∧ tx.status = .succeeding
  · refine answered_of_twin (twin_recover_message hheld hmessage.1 hmessage.2) hT hcs rfl ?_ hr
    refine fun e e' _ he => answered_plain he ?_
    have hcallback : ¬ isCallbackWorkflow tx = true := by
      rw [isCallbackWorkflow, hmessage.1]
      exact Bool.false_ne_true
    unfold refuses
    rw [if_neg (not_not_intro rfl), if_neg hterminal, if_neg hcallback,
      recovery_message hmessage.1 hmessage.2]
    exact declines_dispatchMessage hmessage.1 hmessage.2
  · have hrun := run_recover dtm hagree.left hterminal hmessage cs
    have hrun' := run_recover dtm hagree.right hterminal hmessage cs
    rw [hrun] at hr
    rw [hrun']
    rcases cs with _ | ⟨c₁ | f, _ | ⟨c₂ | f₂, cs⟩⟩
    · cases hr
    · cases hr
    · -- the rest of the run, from the look at the clock on
      have hrest : Held gid gid' tx { w with clock := c₂.now } { w' with clock := c₂.now } :=
        hheld.of_eq rfl rfl rfl rfl
      have hcs' : ∀ f, .inr f ∈ cs → T f := fun f hf => hcs f (.tail _ (.tail _ hf))
      by_cases hrefuse : ControlOperation.recover.refuses c₂.now tx = true
      · refine answered_of_twin (twin_recoverAt_refused hrest hrefuse) hT hcs' rfl ?_ hr
        intro e e' hclean he
        obtain ⟨hlead, hmarked⟩ := (hclear c₂.now).refusal hrefuse
        obtain ⟨hlead', hmarked'⟩ := (hclear' c₂.now).refusal hrefuse
        exact answered_refusal hclean hrefuse he (fun hcase => ⟨hlead hcase, hlead' hcase⟩)
          fun hcase => ⟨hmarked hcase, hmarked' hcase⟩
      · have hacc := Bool.eq_false_iff.mpr hrefuse
        have hopen := Bool.eq_false_iff.mpr hterminal
        refine answered_of_twin (twin_recoverAt_accepted hrest hopen hacc (hclear c₂.now)
          (hclear' c₂.now)) hT hcs' rfl ?_ hr
        exact fun e e' _ he => answered_plain he hacc
    · cases hr
    · cases hr
      exact ⟨f gid', rfl, answered_failure rfl (hT f (hcs f (.head _)))⟩
    · cases hr
    · cases hr

/-- **What is enough for one record**: no text of the store is misread, and no text of the
operation at any time. -/
theorem statusIndependent_of_clear (hT : ∀ f, T f → Plain (f gid) ∧ Plain (f gid'))
    (hclear : ∀ now, op.ClearAt now tx gid ∧ op.ClearAt now tx gid') :
    StatusIndependent dtm op (some tx) gid gid' T := by
  by_cases hop : op = .recover
  · subst hop
    exact statusIndependent_recover hT (fun now => (hclear now).1) fun now => (hclear now).2
  · exact statusIndependent_act hop hT (hclear 0).1 (hclear 0).2

/-! ### What independence asks for -/

/-- The store with one record under a gid. -/
def lone (gid : String) (tx : Transaction) : World where
  txs := Std.ExtTreeMap.insert ∅ gid (tx.named gid)
  kv := fun _ => none
  barriers := ∅
  leases := ∅
  clock := 0
  history := []

theorem lone_txs (gid : String) (tx : Transaction) :
    (lone gid tx).txs[gid]? = some (tx.named gid) := Std.ExtTreeMap.getElem?_insert_self

theorem agree_lone (gid gid' : String) (tx : Transaction) :
    Agree gid gid' (some tx) (lone gid tx) (lone gid' tx) where
  left := lone_txs gid tx
  right := lone_txs gid' tx
  barriers := fun _ _ => iff_of_false (Finset.notMem_empty _) (Finset.notMem_empty _)

theorem held_lone (gid gid' : String) (tx : Transaction) :
    Held gid gid' tx (lone gid tx) (lone gid' tx) :=
  ⟨lone_txs gid tx, lone_txs gid' tx, (agree_lone gid gid' tx).barriers⟩

/-- A script of one reading only. -/
def OneReading (c : Reading) (cs : List (Reading ⊕ (String → Err))) : Prop := ∀ d ∈ cs, d = .inl c

theorem oneReading_replicate (c : Reading) (n : Nat) : OneReading c (List.replicate n (.inl c)) :=
  fun _ hd => List.eq_of_mem_replicate hd

theorem OneReading.clean {c : Reading} (h : OneReading c cs) : cs.any Sum.isRight = false := by
  rw [List.any_eq_false]
  intro d hd
  rw [h d hd]
  exact Bool.false_ne_true

theorem OneReading.notFailing {c : Reading} (h : OneReading c cs) (f : String → Err) :
    .inr f ∉ cs :=
  fun hf => nomatch h _ hf

/-- The failure of the first step. -/
theorem run_first_failure (op : ControlOperation) (f : String → Err) (gid : String) (w : World) :
    op.run? dtm gid w [.inr f] = some (.error (f gid)) := by
  cases op <;> rfl

/-- **The texts of the store's failures are plain.** -/
theorem plain_of_independent (hind : StatusIndependent dtm op none gid gid' T) {f : String → Err}
    (hf : T f) : Plain (f gid) ∧ Plain (f gid') := by
  have hagree : Agree gid gid' none (World.mk ∅ (fun _ => none) ∅ ∅ 0 [])
      (World.mk ∅ (fun _ => none) ∅ ∅ 0 []) := by
    refine ⟨Std.ExtTreeMap.getElem?_empty, Std.ExtTreeMap.getElem?_empty, fun _ _ => ?_⟩
    exact iff_of_false (Finset.notMem_empty _) (Finset.notMem_empty _)
  obtain ⟨e', hr', hst, h404, h409⟩ := hind _ _ [.inr f] (f gid) hagree
    (fun g hg => by cases List.mem_singleton.mp hg; exact hf) (run_first_failure op f gid _)
  rw [run_first_failure] at hr'
  cases hr'
  have hplain : Plain (f gid) := plain_of_status (mt h404.mp fun h => nomatch h.2)
    (mt h409.mp fun h => nomatch h.2)
  exact ⟨hplain, hst.trans hplain⟩

/-- The operation that does the work: the one that is asked for, or for `recover` the one that it
passes the record to. -/
def ControlOperation.WorksAs (op : ControlOperation) (now : Nat) (tx : Transaction)
    (target : ControlOperation) : Prop :=
  if op ≠ .recover then target = op
  else tx.status.isTerminal = false ∧ ¬ (tx.kind = .message ∧ tx.status = .succeeding) ∧
    isCallbackWorkflow tx = false ∧ recovery now tx = some target

/-- The steps before that. -/
def ControlOperation.leadIn (op : ControlOperation) (c : Reading) :
    List (Reading ⊕ (String → Err)) :=
  if op ≠ .recover then [] else [.inl c, .inl c]

theorem OneReading.leadIn {c : Reading} (h : OneReading c cs) :
    OneReading c (op.leadIn c ++ cs) := by
  intro d hd
  unfold ControlOperation.leadIn at hd
  split at hd
  · exact h d hd
  · simp only [List.cons_append, List.nil_append, List.mem_cons] at hd
    obtain rfl | rfl | hd := hd
    · rfl
    · rfl
    · exact h d hd

variable {target : ControlOperation} {c : Reading}

theorem run_worksAs (dtm : Dtm) (hworks : op.WorksAs c.now tx target)
    (hw : w.txs[gid]? = some (tx.named gid)) :
    ∃ u, u.txs = w.txs ∧ u.barriers = w.barriers ∧ ∀ cs, op.run? dtm gid w (op.leadIn c ++ cs) =
      (controlStore gid).run? (target.act dtm gid).run u cs := by
  unfold ControlOperation.WorksAs at hworks
  unfold ControlOperation.leadIn
  split at hworks
  · rename_i hop
    subst hworks
    rw [if_pos hop]
    exact ⟨w, rfl, rfl, fun _ => rfl⟩
  · rename_i hop
    obtain ⟨hopen, hmessage, hcallback, hrecovery⟩ := hworks
    have hrec : op = .recover := not_not.mp hop
    subst hrec
    rw [if_neg hop]
    refine ⟨{ w with clock := c.now }, rfl, rfl, fun cs => ?_⟩
    rw [run_recover dtm hw (Bool.eq_false_iff.mp hopen) hmessage,
      ← act_recovery hcallback hrecovery gid]
    rfl

theorem refuses_worksAs {now : Nat} (hworks : op.WorksAs now tx target) :
    op.refuses now tx = target.declines tx := by
  unfold ControlOperation.WorksAs at hworks
  by_cases hop : op ≠ .recover
  · rw [if_pos hop] at hworks
    subst hworks
    exact if_pos hop
  · rw [if_neg hop] at hworks
    obtain ⟨hopen, -, hcallback, hrecovery⟩ := hworks
    unfold refuses
    rw [if_neg hop, hopen, hcallback, hrecovery]
    rfl

theorem refuses_leadIn (hworks : op.WorksAs c.now tx target) :
    op.refuses (readAt (op.leadIn c ++ cs)) tx = target.declines tx := by
  rw [← refuses_worksAs hworks]
  by_cases hop : op ≠ .recover
  · unfold refuses
    rw [if_pos hop, if_pos hop]
  · unfold ControlOperation.leadIn
    rw [if_neg hop]
    rfl

/-- **An operation that does not decline the record ends with plain errors**, under both gids. -/
theorem plain_of_fails {e e' : Err} (hind : StatusIndependent dtm op (some tx) gid gid' T)
    (hworks : op.WorksAs c.now tx target) (hdecl : target.declines tx = false)
    (hfail : ∀ w : World, w.txs[gid]? = some (tx.named gid) → w.barriers = ∅ →
      FailsWith gid c (target.act dtm gid) w e)
    (hfail' : ∀ w : World, w.txs[gid']? = some (tx.named gid') → w.barriers = ∅ →
      FailsWith gid' c (target.act dtm gid') w e') : Plain e ∧ Plain e' := by
  obtain ⟨u, htxs, hbarriers, hrun⟩ := run_worksAs dtm hworks (lone_txs gid tx)
  obtain ⟨u', htxs', hbarriers', hrun'⟩ := run_worksAs dtm hworks (lone_txs gid' tx)
  obtain ⟨n, hr⟩ := (hfail u (by rw [htxs]; exact lone_txs gid tx) hbarriers).run
  rw [← hrun] at hr
  have hone : OneReading c (op.leadIn c ++ List.replicate n (.inl c)) :=
    (oneReading_replicate c n).leadIn
  obtain ⟨e'', hr'', hst, h404, h409⟩ := hind _ _ _ e (agree_lone gid gid' tx)
    (fun f hf => absurd hf (hone.notFailing f)) hr
  have hplain : Plain e := by
    refine plain_of_status (mt h404.mp fun h => nomatch h.1) (mt h409.mp fun h => ?_)
    obtain ⟨⟨_, hsome, hrefuse⟩, -⟩ := h
    cases hsome
    rw [refuses_leadIn hworks, hdecl] at hrefuse
    cases hrefuse
  rw [hrun'] at hr''
  have hsame := (hfail' u' (by rw [htxs']; exact lone_txs gid' tx) hbarriers').of_run hr''
  subst hsame
  exact ⟨hplain, hst.trans hplain⟩

/-! ### Refusals -/

/-- A refusal comes about under both gids. -/
theorem exists_refusal (dtm : Dtm) (gid gid' : String) {now : Nat}
    (hrefuse : op.refuses now tx = true) :
    ∃ cs c e e', OneReading c cs ∧ op.refuses (readAt cs) tx = true ∧
      op.run? dtm gid (lone gid tx) cs = some (.error e) ∧
      op.run? dtm gid' (lone gid' tx) cs = some (.error e') ∧
      op.RefusalsAt now tx gid gid' e e' := by
  let c : Reading := ⟨now, ⟨false, .ok .ongoing, 0⟩⟩
  by_cases hop : op = .recover
  · subst hop
    have hopen : ¬ tx.status.isTerminal = true := by
      intro hterminal
      unfold refuses at hrefuse
      rw [if_neg (not_not_intro rfl), if_pos hterminal] at hrefuse
      cases hrefuse
    have hmessage : ¬ (tx.kind = .message ∧ tx.status = .succeeding) := by
      rintro ⟨hk, hs⟩
      have hcallback : ¬ isCallbackWorkflow tx = true := by
        rw [isCallbackWorkflow, hk]
        exact Bool.false_ne_true
      unfold refuses at hrefuse
      rw [if_neg (not_not_intro rfl), if_neg hopen, if_neg hcallback, recovery_message hk hs,
        Option.all_some, declines_dispatchMessage hk hs] at hrefuse
      cases hrefuse
    have hheld : Held gid gid' tx { lone gid tx with clock := now }
        { lone gid' tx with clock := now } := (held_lone gid gid' tx).of_eq rfl rfl rfl rfl
    have htwin : Twin (fun _ => False) gid gid' (act.found (dtm.recoverAt gid now (tx.named gid)))
        (act.found (dtm.recoverAt gid' now (tx.named gid'))) _ _ _ _ :=
      twin_recoverAt_refused hheld hrefuse
    obtain ⟨n, e, e', hr, hr', he⟩ := Single.Both.exists_error c htwin
    refine ⟨.inl c :: .inl c :: List.replicate n (.inl c), c, e, e', ?_, hrefuse, ?_, ?_, he⟩
    · exact oneReading_replicate c (n + 2)
    · rw [run_recover dtm (lone_txs gid tx) hopen hmessage]
      exact hr
    · rw [run_recover dtm (lone_txs gid' tx) hopen hmessage]
      exact hr'
  · have hdecl : op.declines tx = true := (if_pos hop).symm.trans hrefuse
    have htwin : Twin (fun _ => False) gid gid' (op.act dtm gid) (op.act dtm gid') _ _ _ _ :=
      twin_declined (held_lone gid gid' tx) hdecl
    obtain ⟨n, e, e', hr, hr', he⟩ := Single.Both.exists_error c htwin
    have hopens : op.opens now tx := fun hcase => hop hcase.1
    have hread (g : String) : Lead g ↔ op.opens now tx ∧ Lead g := (and_iff_right hopens).symm
    refine ⟨_, c, e, e', oneReading_replicate c n, (if_pos hop).trans hdecl, hr, hr', ?_⟩
    exact ⟨⟨he.1.1.trans (hread gid), he.1.2⟩, ⟨he.2.1.trans (hread gid'), he.2.2⟩⟩

/-- **A refusal is read as one.** -/
theorem clear_of_refused {now : Nat} (hind : StatusIndependent dtm op (some tx) gid gid' T)
    (hrefuse : op.refuses now tx = true) :
    (op.opens now tx → ¬ Lead gid ∧ ¬ Lead gid') ∧
      (op = .forceStop ∨ op = .resetRetry → Marked gid ∧ Marked gid') := by
  obtain ⟨cs, c, e, e', hone, hread, hr, hr', he⟩ :=
    exists_refusal dtm gid gid' hrefuse
  obtain ⟨e'', hr'', hst, -, h409⟩ := hind _ _ cs e (agree_lone gid gid' tx)
    (fun f hf => absurd hf (hone.notFailing f)) hr
  rw [hr'] at hr''
  cases hr''
  have hconflict : errorStatus e = 409 := h409.mpr ⟨⟨tx, rfl, hread⟩, hone.clean⟩
  obtain ⟨hmissing, hmarked⟩ := he.1.conflict_iff.mp hconflict
  obtain ⟨hmissing', hmarked'⟩ := he.2.conflict_iff.mp (hst.trans hconflict)
  exact ⟨fun hopens => ⟨fun hl => hmissing ⟨hopens, hl⟩, fun hl => hmissing' ⟨hopens, hl⟩⟩,
    fun hop => ⟨hmarked hop, hmarked' hop⟩⟩

/-! ### Names -/

/-- A record of a kind, in a status, with all its ids and dependencies from `names`. -/
structure Transaction.NamedFrom (tx : Transaction) (kind : TransactionKind)
    (status : TransactionStatus) (names : Set String) : Prop where
  kind : tx.kind = kind
  status : tx.status = status
  names : ∀ b ∈ tx.branches, b.id ∈ names ∧ ∀ dependency ∈ b.dependencies, dependency ∈ names

theorem declines_of_goesOn (hgo : op.goesOn tx = true) : op.declines tx = false := by
  cases hop : op.expects with
  | none =>
    unfold goesOn at hgo
    rw [hop] at hgo
    cases hgo
  | some expected =>
    obtain ⟨kind, done, allowed⟩ := expected
    obtain ⟨hk, -, hs⟩ := (goesOn_iff hop).mp hgo
    rw [← Bool.not_eq_true, declines_iff hop]
    rintro (hne | ⟨⟨-, hno⟩, -⟩)
    · exact hne hk
    · exact hno hs

/-- What can be blamed is an id or a dependency. -/
theorem mem_of_blames {name : String} (h : name ∈ op.blames tx) :
    ∃ b ∈ tx.branches, name = b.id ∨ name ∈ b.dependencies := by
  have hids {missing : Branch → Bool} (h : name ∈ blames.idsWhere tx missing) :
      ∃ b ∈ tx.branches, name = b.id ∨ name ∈ b.dependencies := by
    obtain ⟨b, hb, rfl⟩ := List.mem_map.mp h
    exact ⟨b, (List.mem_filter.mp hb).1, Or.inl rfl⟩
  have hsaga (h : name ∈ if (!tx.options.concurrent) = true then []
      else if validateTransactionDependencies tx = .ok () then
        blames.idsWhere tx fun branch => branch.compensate.isNone
      else tx.branches.flatMap fun branch => branch.id :: branch.dependencies) :
      ∃ b ∈ tx.branches, name = b.id ∨ name ∈ b.dependencies := by
    split at h
    · cases h
    · split at h
      · exact hids h
      · obtain ⟨b, hb, hname⟩ := List.mem_flatMap.mp h
        exact ⟨b, hb, List.mem_cons.mp hname⟩
  cases op with
  | confirmTcc | commitXa | cancelTcc | rollbackXa | startWorkflow | abortWorkflow => exact hids h
  | startSaga | abortSaga => exact hsaga h
  | get | prepareTcc | prepareMessage | dispatchMessage | abortMessage | prepareXa | recover
  | forceStop | resetRetry => nomatch h

theorem namedFrom_spoiled {kind : TransactionKind} {status : TransactionStatus} {names : Set String}
    {name : String} (h : tx.NamedFrom kind status names) (hname : name ∈ names) :
    (op.spoiled tx name).NamedFrom kind status names := by
  refine ⟨h.kind, h.status, fun b hb => ?_⟩
  have hall : ∀ b ∈ (op.spoiled tx name).branches,
      b.id = name ∧ ∀ dependency ∈ b.dependencies, dependency = name := by
    cases op <;> simp [spoiled, ran, bare]
  obtain ⟨hid, hdeps⟩ := hall b hb
  exact ⟨hid ▸ hname, fun d hd => hdeps d hd ▸ hname⟩

theorem namedFrom_stalled {kind : TransactionKind} {status : TransactionStatus} {names : Set String}
    {b : Branch} (h : tx.NamedFrom kind status names) (hb : b ∈ tx.branches) :
    (tx.stalled b).NamedFrom kind status names := by
  refine ⟨h.kind, h.status, fun b' hb' => ?_⟩
  rw [List.mem_singleton.mp hb']
  exact h.names b hb

/-- `recover` passes a record with the same kind, status and timeout to the same operation. -/
theorem ControlOperation.WorksAs.of_branches {now : Nat} {s : Transaction} {b : Branch}
    {bs : List Branch} (h : op.WorksAs now tx target) (hk : s.kind = tx.kind)
    (hs : s.status = tx.status) (hexpired : isExpired s now = isExpired tx now)
    (hbs : s.branches = b :: bs) : op.WorksAs now s target := by
  have hcallback : isCallbackWorkflow s = false := by
    rw [isCallbackWorkflow, hbs]
    simp
  have hrecovery : recovery now s = recovery now tx := by
    unfold recovery expiry
    rw [hk, hs, hexpired]
  unfold ControlOperation.WorksAs at h ⊢
  by_cases hop : op ≠ .recover
  · rw [if_pos hop] at h ⊢
    exact h
  · rw [if_neg hop] at h ⊢
    rw [hk, hs, hcallback, hrecovery]
    exact ⟨h.1, h.2.1, rfl, h.2.2.2⟩

theorem ControlOperation.WorksAs.opens {now : Nat} (h : op.WorksAs now tx target) :
    op.opens now tx := by
  rintro ⟨hop, hcallback, -⟩
  unfold ControlOperation.WorksAs at h
  rw [if_neg (not_not_intro hop)] at h
  rw [h.2.2.1] at hcallback
  cases hcallback

/-- `recover` passes nothing to `force_stop` and `reset_retry`. -/
theorem ControlOperation.WorksAs.terminal {now : Nat} (h : op.WorksAs now tx target)
    (ht : target = .forceStop ∨ target = .resetRetry) : op = .forceStop ∨ op = .resetRetry := by
  unfold ControlOperation.WorksAs at h
  by_cases hop : op ≠ .recover
  · rw [if_pos hop] at h
    subst h
    exact ht
  · rw [if_neg hop] at h
    obtain ⟨-, hstop, hreset⟩ := recovery_forward h.2.2.2
    exact (ht.elim hstop hreset).elim

section Necessary

variable {kind : TransactionKind} {status : TransactionStatus} {names : Set String} {now : Nat}

/-- **The texts of the operation that does the work are clear.** -/
theorem clear_of_worksAs (hfrom : tx.NamedFrom kind status names)
    (hind : ∀ s : Transaction, s.NamedFrom kind status names →
      StatusIndependent dtm op (some s) gid gid' T) (hworks : op.WorksAs now tx target) :
    target.Clear tx gid ∧ target.Clear tx gid' := by
  let c : Reading := ⟨now, ⟨false, .ok .ongoing, 0⟩⟩
  have hrefused (hdecl : target.declines tx = true) :
      (¬ Lead gid ∧ ¬ Lead gid') ∧
        (target = .forceStop ∨ target = .resetRetry → Marked gid ∧ Marked gid') := by
    obtain ⟨hlead, hmarked⟩ := clear_of_refused (hind tx hfrom)
      ((refuses_worksAs hworks).trans hdecl)
    exact ⟨hlead hworks.opens, fun ht => hmarked (hworks.terminal ht)⟩
  have hblames (hgo : target.goesOn tx = true) : ∀ name ∈ target.blames tx, ¬ Marked name := by
    intro name hname
    obtain ⟨e, hplain, hfails⟩ := fails_spoiled dtm (c := c) hgo hname rfl
    obtain ⟨b, hb, hfound⟩ := mem_of_blames hname
    have hmem : name ∈ names := by
      obtain rfl | hdep := hfound
      · exact (hfrom.names b hb).1
      · exact (hfrom.names b hb).2 name hdep
    have hshape : ∃ b bs, (target.spoiled tx name).branches = b :: bs := by
      cases target <;> exact ⟨_, _, rfl⟩
    obtain ⟨first, rest, hbs⟩ := hshape
    have hworks' : op.WorksAs c.now (target.spoiled tx name) target :=
      hworks.of_branches rfl rfl rfl hbs
    exact hplain (plain_of_fails (hind _ (namedFrom_spoiled hfrom hmem)) hworks'
      (declines_of_goesOn hgo) (hfails gid) (hfails gid')).1
  have hstuck (htarget : target = .startWorkflow) (hgo : target.goesOn tx = true)
      (hne : tx.branches ≠ []) : ¬ Marked gid ∧ ¬ Marked gid' := by
    subst htarget
    obtain ⟨b, hb⟩ := List.exists_mem_of_ne_nil _ hne
    have hworks' : op.WorksAs c.now (tx.stalled b) .startWorkflow :=
      hworks.of_branches rfl rfl rfl rfl
    obtain ⟨hleft, hright⟩ := plain_of_fails (hind _ (namedFrom_stalled hfrom hb)) hworks'
      (declines_of_goesOn hgo) (fun w hw _ => fails_stalled hgo hw)
      fun w hw _ => fails_stalled hgo hw
    exact ⟨(plain_between _ _ (by decide) (by decide) (by decide)).mp hleft,
      (plain_between _ _ (by decide) (by decide) (by decide)).mp hright⟩
  constructor
  · exact ⟨fun hd => (hrefused hd).1.1, fun hd hop => ((hrefused hd).2 hop).1, hblames,
      fun ht hgo _ hne => (hstuck ht hgo hne).1⟩
  · exact ⟨fun hd => (hrefused hd).1.2, fun hd hop => ((hrefused hd).2 hop).2, hblames,
      fun ht hgo _ hne => (hstuck ht hgo hne).2⟩

/-- **The texts of an operation are clear at any time.** -/
theorem clearAt_of_independent (hfrom : tx.NamedFrom kind status names)
    (hind : ∀ s : Transaction, s.NamedFrom kind status names →
      StatusIndependent dtm op (some s) gid gid' T) :
    op.ClearAt now tx gid ∧ op.ClearAt now tx gid' := by
  unfold ClearAt
  by_cases hop : op ≠ .recover
  · rw [if_pos hop, if_pos hop]
    have hworks : op.WorksAs now tx op := by
      unfold ControlOperation.WorksAs
      rw [if_pos hop]
    exact clear_of_worksAs hfrom hind hworks
  rw [if_neg hop, if_neg hop]
  have hrec : op = .recover := not_not.mp hop
  subst hrec
  by_cases hterminal : tx.status.isTerminal = true
  · rw [if_pos hterminal, if_pos hterminal]
    exact ⟨trivial, trivial⟩
  rw [if_neg hterminal, if_neg hterminal]
  by_cases hcallback : isCallbackWorkflow tx = true
  · rw [if_pos hcallback, if_pos hcallback]
    exact ⟨fun hrefuse hopens => ((clear_of_refused (hind tx hfrom) hrefuse).1 hopens).1,
      fun hrefuse hopens => ((clear_of_refused (hind tx hfrom) hrefuse).1 hopens).2⟩
  rw [if_neg hcallback, if_neg hcallback]
  have hcb : isCallbackWorkflow tx = false := Bool.eq_false_iff.mpr hcallback
  cases hrecovery : recovery now tx with
  | some target =>
    by_cases hmessage : tx.kind = .message ∧ tx.status = .succeeding
    · rw [recovery_message hmessage.1 hmessage.2] at hrecovery
      cases hrecovery
      exact ⟨clear_dispatchMessage hmessage.1 hmessage.2 gid,
        clear_dispatchMessage hmessage.1 hmessage.2 gid'⟩
    · have hworks : ControlOperation.recover.WorksAs now tx target :=
        ⟨Bool.eq_false_iff.mpr hterminal, hmessage, hcb, hrecovery⟩
      exact clear_of_worksAs hfrom hind hworks
  | none =>
    have hrefuse : ControlOperation.recover.refuses now tx = true := by
      unfold refuses
      rw [if_neg hop, if_neg hterminal, if_neg hcallback, hrecovery]
      rfl
    have hopens : ControlOperation.recover.opens now tx := fun hcase => hcallback hcase.2.1
    exact (clear_of_refused (hind tx hfrom) hrefuse).1 hopens

/-- **When the status of a failed operation is independent of the gid**: for the records of a kind
in a status with ids and dependencies from `names` and for a missing one, exactly when no text of
a store failure is that of a missing transaction or has a mark, under both gids, and the
operation's own texts are clear under both, for each such record at any time. -/
theorem errorStatus_independent_iff :
    (StatusIndependent dtm op none gid gid' T ∧
      ∀ tx : Transaction, tx.NamedFrom kind status names →
        StatusIndependent dtm op (some tx) gid gid' T) ↔
    (∀ f, T f → (¬ Missing (f gid) ∧ ¬ Marked (f gid)) ∧ ¬ Missing (f gid') ∧ ¬ Marked (f gid')) ∧
      ∀ tx : Transaction, tx.NamedFrom kind status names →
        ∀ now, op.ClearAt now tx gid ∧ op.ClearAt now tx gid' := by
  simp only [← plain_iff]
  constructor
  · rintro ⟨hnone, hsome⟩
    exact ⟨fun f hf => plain_of_independent hnone hf,
      fun tx hfrom now => clearAt_of_independent hfrom hsome⟩
  · rintro ⟨hT, hclear⟩
    exact ⟨statusIndependent_none hT,
      fun tx hfrom => statusIndependent_of_clear hT (hclear tx hfrom)⟩

end Necessary

/-- `force_stop` of a transaction that has succeeded is a refusal of its status, and is answered
with 502 for the gid `order-1` and with 409 for the gid `expected-1`. -/
theorem errorStatus_depends_on_gid :
    ¬ ∀ (dtm : Dtm) (op : ControlOperation) (record : Option Transaction) (gid gid' : String),
      StatusIndependent dtm op record gid gid' fun _ => False := by
  intro h
  let tx : Transaction := { Transaction.new 0 "" .tcc [] with status := .succeeded }
  have hind := h .plain .forceStop (some tx) "order-1" "expected-1"
  have hrefuse : ControlOperation.forceStop.refuses 0 tx = true := rfl
  obtain ⟨hmarked, -⟩ := (clear_of_refused hind hrefuse).2 (Or.inl rfl)
  exact absurd hmarked (by decide)

example : errorStatus "transaction order-1 is already terminal" = 502 ∧
    errorStatus "transaction expected-1 is already terminal" = 409 := by decide

end RozeDtm
