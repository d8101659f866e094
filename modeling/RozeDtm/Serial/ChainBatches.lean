import RozeDtm.Serial.Chain
import RozeDtm.Serial.SagaGraph

/-!
# Concurrent Sagas whose branches run in turn

When each branch depends on the one before it, a batch is one call: on the way forward only the
first branch that has not succeeded is ready, and on the way back only the last one that is
Compensating.
-/

namespace RozeDtm

open Conc Conc.Retries

/-- Each branch depends on the one before it. -/
def InChain (bs : List Branch) : Prop :=
  ∀ before b after, bs = before ++ b :: after →
    b.dependencies = (before.getLast?.map Branch.id).toList

/-- A concurrent Saga whose dependencies form a chain. -/
structure ChainedSaga (s₀ : Transaction) : Prop where
  kind : s₀.kind = .saga
  concurrent : s₀.options.concurrent = true
  ids : (s₀.branches.map Branch.id).Nodup
  valid : validateTransactionDependencies s₀ = .ok ()
  chain : InChain s₀.branches

/-! ### What is ready -/

section Ready

variable {bs before after acted rest left passed : List Branch} {a b : Branch} {tx : Transaction}
  {d : String} {f : Branch → Branch}

theorem exists_split {α : Type} {l : List α} {j : Nat} {a : α} (h : l[j]? = some a) :
    ∃ l₁ l₂, l = l₁ ++ a :: l₂ ∧ l₁.length = j := by
  obtain ⟨hlt, rfl⟩ := List.getElem?_eq_some_iff.mp h
  refine ⟨l.take j, l.drop (j + 1), ?_, List.length_take_of_le hlt.le⟩
  rw [← List.drop_eq_getElem_cons hlt, List.take_append_drop]

theorem eq_singleton_of_nodup {α : Type} {l : List α} {a : α} (hn : l.Nodup)
    (h : ∀ x, x ∈ l ↔ x = a) : l = [a] := by
  refine List.perm_singleton.mp ((List.perm_ext_iff_of_nodup hn (List.nodup_singleton a)).mpr ?_)
  exact fun x => (h x).trans List.mem_singleton.symm

theorem InChain.same (h : InChain bs) {bs' : List Branch} (hs : SameBranches bs bs') :
    InChain bs' := by
  rintro before b after rfl
  have hhead : SameBranches (bs.take before.length) before :=
    List.forall₂_take_append bs before (b :: after) hs
  have htail := List.forall₂_drop_append bs before (b :: after) hs
  obtain ⟨a, rest, hab, -, hdrop⟩ := List.forall₂_cons_right_iff.mp htail
  have hsplit : bs = bs.take before.length ++ a :: rest := by rw [← hdrop, List.take_append_drop]
  rw [Branch.dependencies_eq hab, h _ a rest hsplit]
  have hlast : before.getLast?.map Branch.id = (bs.take before.length).getLast?.map Branch.id := by
    rw [← List.getLast?_map, ← List.getLast?_map, hhead.ids]
  rw [hlast]

theorem InChain.next (h : InChain (before ++ a :: b :: after)) : b.dependencies = [a.id] := by
  have hb := h (before ++ [a]) b after (by simp)
  rw [hb, List.getLast?_concat]
  rfl

theorem InChain.mem (h : InChain (before ++ b :: after)) (hd : d ∈ b.dependencies) :
    d ∈ before.map Branch.id := by
  rw [h before b after rfl, Option.mem_toList] at hd
  obtain ⟨a, ha, rfl⟩ := Option.map_eq_some_iff.mp hd
  exact List.mem_map_of_mem (List.mem_of_getLast? ha)

/-- **The first branch that has not succeeded is ready**, and no other. -/
theorem readyBranches_chain (hbs : tx.branches = acted ++ b :: rest) (hchain : InChain tx.branches)
    (hn : (tx.branches.map Branch.id).Nodup) (hacted : ∀ a ∈ acted, a.status = .succeeded)
    (hrest : ∀ a ∈ b :: rest, a.status = .pending ∨ a.status = .failed) :
    tx.readyBranches = [acted.length] := by
  have hnot {a : Branch} (ha : a ∈ b :: rest) : a.status ≠ .succeeded := by
    rcases hrest a ha with h | h <;> rw [h] <;> decide
  refine eq_singleton_of_nodup (nodup_indices ..) fun j => mem_readyBranches_iff.trans ?_
  constructor
  · rintro ⟨b', hb', hst, hdeps⟩
    obtain ⟨before, after, hsplit, rfl⟩ := exists_split hb'
    rw [hbs] at hsplit
    rcases List.append_eq_append_iff.mp hsplit with ⟨cs, rfl, hcs⟩ | ⟨cs, rfl, hcs⟩
    · cases cs with
      | nil => rw [List.append_nil]
      | cons c cs =>
        -- the one before it has not succeeded
        rw [List.cons_append, List.cons.injEq] at hcs
        obtain ⟨rfl, rfl⟩ := hcs
        obtain ⟨p, hp⟩ : ∃ p, (b :: cs).getLast? = some p := by simp [List.getLast?_cons]
        have hmem : p ∈ b :: (cs ++ b' :: after) := by
          have h := List.mem_of_getLast? hp
          rw [← List.cons_append]
          exact List.mem_append_left _ h
        have hdep : p.id ∈ b'.dependencies := by
          rw [hchain (acted ++ b :: cs) b' after (hbs.trans (by simp)), List.getLast?_append_cons, hp]
          exact List.mem_singleton_self _
        obtain ⟨a, ha, hast, hid⟩ := hdeps p.id hdep
        have hp' : p ∈ tx.branches := by
          rw [hbs]
          exact List.mem_append_right _ hmem
        rw [List.inj_on_of_nodup_map hn ha hp' hid] at hast
        exact absurd hast (hnot hmem)
    · cases cs with
      | nil => rw [List.append_nil]
      | cons c cs =>
        rw [List.cons_append, List.cons.injEq] at hcs
        obtain ⟨rfl, -⟩ := hcs
        rw [hacted b' (by simp)] at hst
        rcases hst with h | h <;> cases h
  · rintro rfl
    refine ⟨b, by simp [hbs], hrest b (.head _), fun d hd => ?_⟩
    rw [hbs] at hchain
    obtain ⟨a, ha, rfl⟩ := List.mem_map.mp (hchain.mem hd)
    exact ⟨a, by rw [hbs]; exact List.mem_append_left _ ha, hacted a ha, rfl⟩

/-- **The last branch that is Compensating is ready**, and no other. -/
theorem readyCompensations_chain (hbs : tx.branches = left ++ b :: passed)
    (hchain : InChain tx.branches) (hn : (tx.branches.map Branch.id).Nodup)
    (hleft : ∀ a ∈ left, a.status = .compensating) (hb : b.status = .compensating)
    (hpassed : ∀ a ∈ passed, a.status ≠ .compensating) : tx.readyCompensations = [left.length] := by
  refine eq_singleton_of_nodup (nodup_indices ..) fun j => mem_readyCompensations_iff.trans ?_
  constructor
  · rintro ⟨b', hb', hst, hnone⟩
    obtain ⟨before, after, hsplit, rfl⟩ := exists_split hb'
    rw [hbs] at hsplit
    rcases List.append_eq_append_iff.mp hsplit with ⟨cs, rfl, hcs⟩ | ⟨cs, rfl, hcs⟩
    · cases cs with
      | nil => rw [List.append_nil]
      | cons c cs =>
        rw [List.cons_append, List.cons.injEq] at hcs
        obtain ⟨-, rfl⟩ := hcs
        exact absurd hst (hpassed b' (by simp))
    · cases cs with
      | nil => rw [List.append_nil]
      | cons c cs =>
        -- the one after it is Compensating
        rw [List.cons_append, List.cons.injEq] at hcs
        obtain ⟨rfl, hafter⟩ := hcs
        obtain ⟨m, ms, hms, hm⟩ : ∃ m ms, cs ++ b :: passed = m :: ms ∧ m.status = .compensating := by
          cases cs with
          | nil => exact ⟨b, passed, rfl, hb⟩
          | cons m cs => exact ⟨m, cs ++ b :: passed, rfl, hleft m (by simp)⟩
        rw [hbs, List.append_assoc, List.cons_append, hms] at hchain
        refine absurd hm (hnone m ?_ ?_)
        · rw [hbs, List.append_assoc, List.cons_append, hms]
          simp
        · rw [hchain.next]
          exact List.mem_singleton_self _
  · rintro rfl
    refine ⟨b, by simp [hbs], hb, fun m hm hdep => ?_⟩
    rw [hbs] at hchain hn hm
    -- what depends on `b` comes after it
    have hnot : ∀ a ∈ left, a.id ≠ b.id := by
      rw [List.map_append, List.map_cons, List.nodup_append] at hn
      exact fun a ha => hn.2.2 a.id (List.mem_map_of_mem ha) b.id (.head _)
    rw [List.mem_append, List.mem_cons] at hm
    rcases hm with hm | rfl | hm
    · obtain ⟨u, v, rfl⟩ := List.mem_iff_append.mp hm
      rw [List.append_assoc, List.cons_append] at hchain
      obtain ⟨a, ha, hid⟩ := List.mem_map.mp (hchain.mem hdep)
      exact absurd hid (hnot a (List.mem_append_left _ ha))
    · obtain ⟨a, ha, hid⟩ := List.mem_map.mp (hchain.mem hdep)
      exact absurd hid (hnot a ha)
    · exact hpassed m hm

theorem mapBranchesAt_one (hbs : tx.branches = before ++ b :: after) :
    tx.mapBranchesAt [before.length] f = { tx with branches := before ++ f b :: after } := by
  have hmap : (tx.mapBranchesAt [before.length] f).branches = before ++ f b :: after := by
    refine List.ext_getElem? fun j => ?_
    rw [getElem?_mapBranchesAt, hbs]
    rcases Nat.lt_trichotomy j before.length with h | rfl | h
    · rw [List.getElem?_append_left h, List.getElem?_append_left h]
      simp [h.ne]
    · simp
    · obtain ⟨m, rfl⟩ : ∃ m, j = before.length + (m + 1) := ⟨j - before.length - 1, by omega⟩
      simp [List.getElem?_append_right]
  rw [← hmap]
  rfl

theorem branchesAt_one (hbs : tx.branches = before ++ b :: after) :
    tx.branchesAt [before.length] = [(before.length, b)] := by
  simp [Transaction.branchesAt, hbs]

theorem set_one {a' : Branch} : (before ++ b :: after).set before.length a' = before ++ a' :: after := by
  simp

end Ready

section OneCall

variable {allow : Effect → World → Prop} {i j : Nat} {w w₀ : World} {dtm : Dtm} {tx : Transaction}
  {E : Err → World → Prop} {options : TransactionOptions} {g op id : String} {d : BarrierDecision}

/-- **A batch of one call**, under a barrier that was free. -/
theorem runs_runOne {onOk onErr : BranchStatus} {task : BatchTask} {before after : List Branch}
    {Q : Transaction × List Branch → World → Prop}
    (hplace : tx.branches = before ++ task.branch :: after) (hindex : task.index = before.length) (hg : task.call.gid = g) (hop : task.call.op = op)
    (hid : task.call.branchId = id)
    (hh : w.history = (j, .decided (barrierOf g op id) d) :: w₀.history)
    (hb : w.barriers = insert (barrierOf g op id) w₀.barriers)
    (ok : ∀ w', Returned g op id true w₀ w' → Q ({ tx with
      branches := before ++ { task.branch with status := onOk, nextRetryMillis := none } :: after },
        []) w')
    (error : ∀ w' b, Returned g op id false w₀ w' → barrierOf g op id ∉ w'.barriers →
      b.definition = task.branch.definition → b.status = onErr →
      b.attempts = task.branch.attempts →
      Q ({ tx with branches := before ++ b :: after }, [b]) w') :
    (alone allow).Runs (fun _ => True) i (dtm.runBatch options onOk onErr [task] tx) Q E w := by
  have hset (b : Branch) : tx.branches.set task.index b = before ++ b :: after := by
    rw [hplace, hindex, set_one]
  have hpick (n : Nat) : Fin.ofNat (0 + 1) n = 0 := Fin.fin_one_eq_zero _
  have hbarrier : task.call.barrier = barrierOf g op id := by
    rw [BranchCall.barrier, hg, hid, hop]
  have hreturned (ok : Bool) (w' : World)
      (hw : w'.history = (i, .ended task.call ok) :: (i, .began task.call) :: w.history)
      (hbar : w'.barriers = w.barriers) : Returned g op id ok w₀ w' :=
    returned_of_call hg hop hid (by rw [hw, hh]) (hbar.trans hb)
  show (alone allow).Runs (fun _ => True) i
    (dtm.joinBatch options onOk onErr 3 [(task, .spawned)] tx []) Q E w
  -- the call is issued, and returns
  rw [Dtm.joinBatch]
  refine Machine.runs_bind.mpr (runs_call (fun _ => trivial) fun _ c _ => ?_)
  dsimp only [InMemory.exec, List.length_nil]
  rw [hpick]
  refine Machine.runs_bind.mpr (Machine.runs_bind.mpr (runs_call (fun _ => trivial) fun _ _ _ => ?_))
  show (alone allow).Runs (fun _ => True) i
    (dtm.joinBatch options onOk onErr 2 [(task, .calling)] tx []) Q E _
  rw [Dtm.joinBatch]
  refine Machine.runs_bind.mpr (runs_call (fun _ => trivial) fun _ c _ => ?_)
  dsimp only [InMemory.exec, List.length_nil]
  rw [hpick]
  refine Machine.runs_bind.mpr (Machine.runs_bind.mpr (runs_invokeEnd (fun _ => trivial)
    fun _ ok => Machine.runs_bind.mpr ?_))
  cases ok with
  | true =>
    show (alone allow).Runs (fun _ => True) i (dtm.joinBatch options onOk onErr 1
      [(task, .returned { task.branch with status := onOk, nextRetryMillis := none } true)] tx []) Q E _
    rw [Dtm.joinBatch]
    refine Machine.runs_bind.mpr (runs_call (fun _ => trivial) fun _ c _ => ?_)
    dsimp only [InMemory.exec, List.length_nil]
    rw [hpick]
    simp only [List.get_cons_zero, hset, if_true]
    exact ok _ (hreturned true _ rfl rfl)
  | false =>
    refine Machine.runs_bind.mpr (runs_currentMillis (fun _ => trivial) fun _ =>
      Machine.runs_pure.mpr ?_)
    generalize hsettled : recordBranchFailure _ _ _ _ _ = settled
    have hdef : settled.definition = task.branch.definition := by rw [← hsettled]; rfl
    have hst : settled.status = onErr := by rw [← hsettled]; rfl
    have hatt : settled.attempts = task.branch.attempts := by rw [← hsettled]; rfl
    show (alone allow).Runs (fun _ => True) i (dtm.joinBatch options onOk onErr 1
      [(task, .returned settled false)] tx []) Q E _
    rw [Dtm.joinBatch]
    refine Machine.runs_bind.mpr (runs_call (fun _ => trivial) fun _ c _ => ?_)
    dsimp only [InMemory.exec, List.length_nil]
    rw [hpick]
    simp only [List.get_cons_zero, hset, Bool.false_eq_true, if_false]
    refine Machine.runs_bind.mpr ?_
    rw [hbarrier]
    refine @runs_releaseChain _ _ w₀ _ _ _ _ _ _ ?_ fun w' hr hfree => ?_
    · exact hreturned false _ (by simp) (by simp)
    · exact error w' settled hr hfree hdef hst hatt

/-- Claiming the barrier of one branch. -/
theorem runs_claimOne {Q : Bool → World → Prop} (ht : op ≠ "try") (hc : op ≠ "cancel")
    (taken : barrierOf g op id ∈ w.barriers → ∀ w', w'.txs = w.txs → w'.ReturnsSame g w →
      w'.barriers = w.barriers → Q false w')
    (free : barrierOf g op id ∉ w.barriers → ∀ now,
      Q true ((w.setClock now).claimed i (barrierOf g op id))) :
    (alone allow).Runs (fun _ => True) i (claimBatch g op [] [id]) Q E w := by
  rw [claimBatch]
  refine Machine.runs_bind.mpr (runs_barrier ht hc (fun _ => trivial) (fun now hb => ?_)
    fun now hb => ?_)
  · exact taken hb _ rfl (returnsSame_of_event (fun _ => rfl) rfl) rfl
  · exact free hb now

end OneCall

/-! ### The way back -/

section Chained

variable {allow : Effect → World → Prop} {i n k fuel : Nat} {s₀ s tx : Transaction} {w : World}
  {dtm : Dtm} {left passed acted rest : List Branch}

theorem aborted_owed (b : Branch) : b.aborted.status.isOwed = b.status.isOwed := by
  rw [aborted_status]
  cases b.status <;> rfl

/-- The last branch that is left is written again. -/
theorem Descending.again {b c : Branch} {bs : List Branch} (hd : Descending k bs (left ++ [b]) passed)
    (hc : c.status = .compensating) : Descending k (left ++ c :: passed) (left ++ [c]) passed where
  split := by rw [List.append_assoc, List.singleton_append]
  length := by
    have h := hd.length
    rwa [List.length_append] at h ⊢
  compensating := List.forall_mem_append.mpr ⟨fun a ha => hd.compensating a (List.mem_append_left _ ha),
    List.forall_mem_singleton.mpr hc⟩
  settled := hd.settled
  called := by
    have h := hd.called
    rwa [List.length_append] at h ⊢

/-- The last branch that is left is compensated. -/
theorem Descending.pass {b c : Branch} {bs : List Branch} (hd : Descending k bs (left ++ [b]) passed)
    (hc : c.status.isOwed = false) (hurl : c.compensate ≠ none) :
    Descending k (left ++ c :: passed) left (c :: passed) where
  split := rfl
  length := by
    have h := hd.length
    rw [List.length_append] at h
    omega
  compensating := fun a ha => hd.compensating a (List.mem_append_left _ ha)
  settled := List.forall_mem_cons.mpr ⟨hc, hd.settled⟩
  called := by
    have hlength := hd.length
    have hcalled := hd.called
    rw [List.length_append, List.length_singleton] at hlength hcalled
    obtain ⟨m, hm⟩ : ∃ m, k - left.length = m + 1 := ⟨k - left.length - 1, by omega⟩
    have hm' : k - (left.length + 1) = m := by omega
    rw [hm, List.take_succ_cons]
    rw [hm'] at hcalled
    exact List.forall_mem_cons.mpr ⟨hurl, hcalled⟩

/-- A branch on the way back that has no compensation URL. -/
theorem Descending.blocked {b : Branch} {bs : List Branch} (hd : Descending k bs (left ++ [b]) passed)
    (hs : SameBranches s₀.branches bs) (hg : GivenUp s₀ k w) (hnone : b.compensate = none) :
    Blocked s₀ w := by
  have hlt : left.length < k := by
    have h := hd.length
    rw [List.length_append, List.length_singleton] at h
    omega
  have hget : bs[left.length]? = some b := by
    rw [hd.split]
    simp
  obtain ⟨hlen, hplaces⟩ := List.forall₂_iff_get.mp hs
  obtain ⟨hbs, rfl⟩ := List.getElem?_eq_some_iff.mp hget
  have hd₀ := hplaces left.length (hlen ▸ hbs) hbs
  refine ⟨k, hg, s₀.branches.get ⟨left.length, hlen ▸ hbs⟩, ?_, ?_⟩
  · exact List.mem_take_iff_getElem.mpr ⟨left.length, by omega, rfl⟩
  · exact (Branch.compensate_eq hd₀).symm.trans hnone

/-- **The loop of `abort_concurrent_saga`.** -/
theorem runs_abortChainRounds (hS : ChainedSaga s₀) (hw : ChainAt s₀ s w) (htx : SagaOf s₀ tx)
    (hst : tx.status = .aborting) (hs : SameBranches s₀.branches tx.branches)
    (hb : OnTheWayBack s₀ k w tx.branches) (hd : Descending k tx.branches left passed)
    (hfuel : left.length < fuel) (hle : n ≤ w.failedReturns s₀.gid) :
    (alone allow).Runs (fun _ => True) i (dtm.abortConcurrentSagaLoop fuel tx)
      (fun _ => ChainDone s₀ n) (fun _ => ChainDone s₀ n) w := by
  have hg : tx.gid = s₀.gid := htx.gid
  induction fuel generalizing s tx w left passed with
  | zero => exact absurd hfuel (Nat.not_lt_zero _)
  | succ fuel ih =>
    rw [Dtm.abortConcurrentSagaLoop]
    have hpassed : ∀ a ∈ passed, a.status ≠ .compensating := fun a ha h => by
      have hsettled := hd.settled a ha
      rw [h] at hsettled
      cases hsettled
    rcases List.eq_nil_or_concat left with rfl | ⟨left, b, rfl⟩
    · -- every branch is compensated
      have hbs : tx.branches = passed := hd.split
      rw [if_pos (by rw [hbs]; simpa using hpassed)]
      have howing : owing tx.branches = [] := by
        rw [hbs]
        exact owing_of_not_owed hd.settled
      exact runs_persistChain ⟨htx.branches, hs, .aborted k rfl hb howing fun _ => ⟨passed, hd⟩⟩
        fun _ _ _ _ hat => ⟨_, hat, Or.inr (Or.inl rfl)⟩
    rw [List.concat_eq_append] at hd hfuel
    have hbs : tx.branches = left ++ b :: passed := by
      rw [hd.split, List.append_assoc, List.singleton_append]
    have hn : (tx.branches.map Branch.id).Nodup := hs.ids ▸ hS.ids
    have hcomp : b.status = .compensating := hd.compensating b (by simp)
    have hready := readyCompensations_chain hbs (hS.chain.same hs) hn
      (fun a ha => hd.compensating a (List.mem_append_left _ ha)) hcomp hpassed
    have howed : b.status.isOwed = true := by rw [hcomp]; rfl
    have howing : owing tx.branches = if b.compensate = none then owing left
        else owing left ++ [b.id] := by
      rw [hbs, owing_append]
      split
      · rename_i hnone
        rw [owing_cons_of_none hnone, owing_of_not_owed hd.settled, List.append_nil]
      · rename_i hsome
        rw [owing_cons howed hsome, owing_of_not_owed hd.settled]
    rw [if_neg (by rw [hbs]; simp [hcomp]), hready]
    dsimp only [List.isEmpty_cons]
    rw [if_neg (by decide), branchesAt_one hbs, hg]
    refine Machine.runs_bind.mpr (runs_claimOne (by decide) (by decide) (fun hbar w' ht hr hb' => ?_)
      fun hbar now => ?_)
    · -- an earlier abort has met a branch without a URL, and has kept its barrier
      rw [if_neg (by decide)]
      have hnone : b.compensate = none := by
        refine Classical.not_not.mp fun h => hb.free b ?_ howed (fun _ => h) hbar
        rw [hbs]
        simp
      refine runs_loadChain (hw.same ht hr hb') fun now' hw' =>
        ⟨s, hw', Or.inr (Or.inr (Or.inr ⟨hS.concurrent, ?_⟩))⟩
      exact hd.blocked hs (hb.givenUp.same (hr _)) hnone
    rw [if_pos rfl, mapBranchesAt_one hbs]
    -- the attempt is counted
    generalize hcounted : ({ b with attempts := satAdd32 b.attempts 1 } : Branch) = c
    have hdef : c.definition = b.definition := by rw [← hcounted]; rfl
    have hcst : c.status = .compensating := by rw [← hcounted]; exact hcomp
    have hid : c.id = b.id := Branch.id_eq hdef
    have hother {b' : Branch} (hnot : ¬ (b'.status.isOwed = true ∧ b'.compensate ≠ none)) :
        ∀ a ∈ left ++ b' :: passed, a.status.isOwed = true → a.compensate ≠ none → a.id ≠ b.id := by
      intro a hmem howed hsome
      refine id_ne_of_nodup (hbs ▸ hn) hmem fun h => hnot ?_
      rw [← h]
      exact ⟨howed, hsome⟩
    have hsame {b' : Branch} (hd : b'.definition = b.definition) :
        SameBranches s₀.branches (left ++ b' :: passed) := (hbs ▸ hs).exchange hd
    have hkept {b' : Branch} (hd : b'.definition = b.definition) :
        BranchesKept tx.branches (left ++ b' :: passed) := by
      rw [hbs]
      exact .exchange hd fun _ => howed
    generalize hwritten : ({ tx with branches := left ++ c :: passed } : Transaction) = tx₁
    have htx₁ : SagaOf s₀ tx₁ := by rw [← hwritten]; exact htx.branches
    have hst₁ : tx₁.status = .aborting := by rw [← hwritten]; exact hst
    have hbs₁ : tx₁.branches = left ++ c :: passed := by rw [← hwritten]
    cases hurl : c.compensate with
    | none =>
      -- the batch ends with an error, and keeps the barrier
      have hnone : b.compensate = none := (Branch.compensate_eq hdef).symm.trans hurl
      have hclaimed : OnTheWayBack s₀ k ((w.setClock now).claimed i
          (barrierOf s₀.gid "compensate" b.id)) (left ++ c :: passed) := by
        refine hb.claimed (returnsSame_of_event (fun _ => rfl) rfl) (fun _ h => h) (hkept hdef) ?_
          fun a ha howed hsome => hother (fun h => h.2 hurl) a ha howed (hsome hS.concurrent)
        rw [howing, if_pos hnone, owing_append, owing_cons_of_none hurl,
          owing_of_not_owed hd.settled, List.append_nil]
      have hd' := hd.again hcst
      refine Machine.runs_bind.mpr (runs_persistChain ⟨htx₁, hbs₁ ▸ hsame hdef, .backward k hst₁
        (hbs₁ ▸ hclaimed) fun _ => ⟨_, _, hbs₁ ▸ hd'⟩⟩ fun _ w₂ hr₂ _ hat => ?_)
      rw [branchesAt_one (by exact hbs₁)]
      simp only [Dtm.compensationTasks, hurl, List.length_nil, Nat.mul_zero, Dtm.abandonBatch]
      refine ⟨_, hat, Or.inr (Or.inr (Or.inr ⟨hS.concurrent, ?_⟩))⟩
      exact hd'.blocked (hsame hdef) (hclaimed.givenUp.same (hr₂ _)) hurl
    | some url =>
      have hsome : b.compensate ≠ none := by
        rw [← Branch.compensate_eq hdef, hurl]
        exact Option.some_ne_none url
      have hmem : b.id ∈ s₀.branches.map Branch.id := by
        rw [← hs.ids, hbs]
        exact List.mem_map_of_mem (by simp)
      rw [if_neg hsome] at howing
      refine Machine.runs_bind.mpr (runs_persistTransaction (fun _ => trivial) fun now₂ _ => ?_)
      rw [branchesAt_one (by exact hbs₁)]
      simp only [Dtm.compensationTasks, hurl]
      refine Machine.runs_bind.mpr (@runs_runOne _ _ i _ w _ _ _ _ s₀.gid "compensate" b.id .execute
        _ _ _ left passed _ hbs₁ rfl htx₁.gid rfl hid rfl rfl (fun w' hr => ?_) fun w' c' hr hfree hdef' hcst' _ => ?_)
      · -- the compensation has succeeded
        generalize hskipped : ({ c with status := .skipped, nextRetryMillis := none } : Branch) = c'
        have hdef' : c'.definition = b.definition := by rw [← hskipped]; exact hdef
        have hnot : c'.status.isOwed = false := by rw [← hskipped]; rfl
        have hback : OnTheWayBack s₀ k w' (left ++ c' :: passed) := by
          refine hb.undo howing ?_ hmem hr (hkept hdef') fun a ha howed => ?_
          · rw [owing_append, owing_cons_of_not_owed hnot, owing_of_not_owed hd.settled,
              List.append_nil]
          · refine id_ne_of_nodup (hbs ▸ hn) ha fun h => ?_
            rw [h, hnot] at howed
            cases howed
        have hd' : Descending k (left ++ c' :: passed) left (c' :: passed) :=
          hd.pass hnot (by rwa [Branch.compensate_eq hdef'])
        refine Machine.runs_bind.mpr (runs_persistChain ⟨htx₁.written.branches, hsame hdef',
          .backward k hst₁ hback fun _ => ⟨_, _, hd'⟩⟩ fun _ w₃ hr₃ hb₃ hat => ?_)
        refine ih hat htx₁.written.branches.written hst₁ (hsame hdef') (hback.same hr₃ hb₃ (.refl _) rfl) hd' ?_ ?_
          htx₁.gid
        · rw [List.length_append, List.length_singleton] at hfuel
          omega
        · rw [hr₃.failedReturns, hr.failedReturns (Or.inr rfl)]
          exact hle
      · -- the compensation has failed
        have hback : OnTheWayBack s₀ k w' (left ++ c' :: passed) := by
          refine hb.missed hmem hr hfree (hkept (hdef'.trans hdef)) ?_
          rw [howing, owing_append, owing_cons (by rw [hcst']; rfl)
            (by rwa [Branch.compensate_eq (hdef'.trans hdef)]), owing_of_not_owed hd.settled,
            Branch.id_eq (hdef'.trans hdef)]
        refine Machine.runs_bind.mpr (runs_persistChain ⟨htx₁.written.branches, hsame (hdef'.trans hdef),
          .backward k hst₁ hback fun _ => ⟨_, _, hd.again hcst'⟩⟩ fun _ w₃ hr₃ _ hat => ?_)
        refine ⟨_, hat, Or.inr (Or.inr (Or.inl ?_))⟩
        rw [hr₃.failedReturns, hr.failedReturns (Or.inr rfl)]
        exact Nat.lt_succ_of_le hle

/-- The graph of the record is accepted. -/
theorem ChainedSaga.accepted (hS : ChainedSaga s₀) (htx : SagaOf s₀ tx)
    (hs : SameBranches s₀.branches tx.branches) : validateTransactionDependencies tx = .ok () := by
  rw [validateTransactionDependencies_congr (htx.kind.trans hS.kind.symm) htx.options hs.sameNode]
  exact hS.valid

/-- `abort_concurrent_saga`. -/
theorem runs_abortChained (hS : ChainedSaga s₀) (htx : SagaOf s₀ tx)
    (hs : SameBranches s₀.branches tx.branches) (hb : OnTheWayBack s₀ k w tx.branches)
    (hd : Descending k tx.branches left passed) (hle : n ≤ w.failedReturns s₀.gid) :
    (alone allow).Runs (fun _ => True) i (dtm.abortConcurrentSaga tx)
      (fun _ => ChainDone s₀ n) (fun _ => ChainDone s₀ n) w := by
  have hback : OnTheWayBack s₀ k w (tx.branches.map Branch.aborted) := by
    refine hb.same (fun _ => rfl) rfl (BranchesKept.map aborted_definition fun b h => ?_)
      (owing_map aborted_definition aborted_owed)
    rwa [aborted_owed] at h
  have hd' : Descending k (tx.branches.map Branch.aborted) (left.map Branch.aborted)
      (passed.map Branch.aborted) := by
    refine ⟨by rw [hd.split, List.map_append], by rw [List.length_map]; exact hd.length, ?_, ?_, ?_⟩
    · intro b hb
      obtain ⟨a, ha, rfl⟩ := List.mem_map.mp hb
      rw [aborted_status, if_pos (Or.inr (hd.compensating a ha))]
    · intro b hb
      obtain ⟨a, ha, rfl⟩ := List.mem_map.mp hb
      rw [aborted_owed]
      exact hd.settled a ha
    · intro b hb
      rw [List.length_map, ← List.map_take] at hb
      obtain ⟨a, ha, rfl⟩ := List.mem_map.mp hb
      rw [Branch.compensate_eq (aborted_definition a)]
      exact hd.called a ha
  have hs' := hs.map aborted_definition
  rw [Dtm.abortConcurrentSaga, hS.accepted htx hs]
  refine Machine.runs_bind.mpr (Machine.runs_pure.mpr (Machine.runs_bind.mpr
    (runs_persistChain ⟨htx.branches, hs', .backward k rfl hback fun _ => ⟨_, _, hd'⟩⟩
      fun _ w' hr hb' hat => ?_)))
  refine runs_abortChainRounds hS hat htx.branches.written rfl hs' (hback.same hr hb' (.refl _) rfl)
    hd' ?_ ?_
  · have hlength : left.length ≤ tx.branches.length := by
      rw [hd.split, List.length_append]
      omega
    rw [List.length_map]
    show left.length < (tx.branches.map Branch.aborted).length + 1
    rw [List.length_map]
    omega
  · rw [hr.failedReturns]
    exact hle

/-! ### The way forward -/

/-- What `start_concurrent_saga` makes of a branch when it turns back. -/
def Branch.givenBack (b : Branch) : Branch :=
  if b.status = .succeeded then { b with status := .compensating }
  else { b with status := .skipped, nextRetryMillis := none }

theorem givenBack_definition (b : Branch) : b.givenBack.definition = b.definition := by
  rw [Branch.givenBack]
  split
  · rfl
  · rfl

theorem givenBack_status (b : Branch) :
    b.givenBack.status = if b.status = .succeeded then .compensating else .skipped := by
  rw [Branch.givenBack]
  split
  · rfl
  · rfl

/-- **The loop of `start_concurrent_saga`.** -/
theorem runs_startChainRounds (hS : ChainedSaga s₀) (htx : SagaOf s₀ tx)
    (hst : tx.status = .succeeding) (hs : SameBranches s₀.branches tx.branches)
    (hbs : tx.branches = acted ++ rest) (hf : OnTheWay s₀ w acted rest)
    (hfuel : rest.length < fuel) (hle : n ≤ w.failedReturns s₀.gid) :
    (alone allow).Runs (fun _ => True) i (dtm.startConcurrentSagaLoop fuel tx)
      (fun _ => ChainDone s₀ n) (fun _ => ChainDone s₀ n) w := by
  have hg : tx.gid = s₀.gid := htx.gid
  induction fuel generalizing tx w acted rest with
  | zero => exact absurd hfuel (Nat.not_lt_zero _)
  | succ fuel ih =>
    rw [Dtm.startConcurrentSagaLoop]
    cases rest with
    | nil =>
      rw [List.append_nil] at hbs
      have hids : acted.map Branch.id = s₀.branches.map Branch.id := by rw [← hs.ids, hbs]
      rw [if_pos (by rw [hbs]; simpa using fun b hb => (hf.won b hb).1)]
      exact runs_persistChain ⟨htx.branches, hs, .succeeded rfl (hf.completed hids)⟩
        fun _ _ _ _ hat => ⟨_, hat, Or.inl rfl⟩
    | cons b rest =>
      have hn : (tx.branches.map Branch.id).Nodup := hs.ids ▸ hS.ids
      have hrest : ((b :: rest).map Branch.id).Nodup := by
        rw [hbs, List.map_append] at hn
        exact (List.nodup_append.mp hn).2.1
      have hbranch := hf.left b (.head _)
      have hready := readyBranches_chain hbs (hS.chain.same hs) hn (fun a ha => (hf.won a ha).1)
        fun a ha => (hf.left a ha).1
      have hnot : ¬ b.status = .succeeded := by rcases hbranch.1 with h | h <;> rw [h] <;> decide
      rw [if_neg (by rw [hbs]; simp [hnot]), hready]
      dsimp only [List.isEmpty_cons]
      rw [if_neg (by decide), branchesAt_one hbs, hg]
      refine Machine.runs_bind.mpr (runs_claimOne (by decide) (by decide) (fun hbar _ _ _ _ => ?_)
        fun hbar now => ?_)
      · exact absurd hbar (hf.free b (.head _))
      rw [if_pos rfl, mapBranchesAt_one hbs]
      -- the branch is written as Running
      generalize hcounted : ({ b with
        status := .running, attempts := satAdd32 b.attempts 1 } : Branch) = c
      have hdef : c.definition = b.definition := by rw [← hcounted]; rfl
      have hatt : c.attempts = b.attempts + 1 := by
        rw [← hcounted]
        exact satAdd32_attempts hbranch.2
      have hid : c.id = b.id := Branch.id_eq hdef
      have hsame {b' : Branch} (hd : b'.definition = b.definition) :
          SameBranches s₀.branches (acted ++ b' :: rest) := (hbs ▸ hs).exchange hd
      generalize hwritten : ({ tx with branches := acted ++ c :: rest } : Transaction) = tx₁
      have htx₁ : SagaOf s₀ tx₁ := by rw [← hwritten]; exact htx.branches
      have hst₁ : tx₁.status = .succeeding := by rw [← hwritten]; exact hst
      have hbs₁ : tx₁.branches = acted ++ c :: rest := by rw [← hwritten]
      refine Machine.runs_bind.mpr (runs_persistTransaction (fun _ => trivial) fun now₂ _ => ?_)
      rw [branchesAt_one (by exact hbs₁)]
      simp only [List.map_cons, List.map_nil]
      refine Machine.runs_bind.mpr (@runs_runOne _ _ i _ w _ _ _ _ s₀.gid "action" b.id .execute
        _ _ _ acted rest _ hbs₁ rfl htx₁.gid rfl hid rfl rfl (fun w' hr => ?_)
        fun w' c' hr hfree hdef' hcst' hatt' => ?_)
      · -- the action has succeeded
        generalize hdone : ({ c with status := .succeeded, nextRetryMillis := none } : Branch) = c'
        have hdef' : c'.definition = b.definition := by rw [← hdone]; exact hdef
        have hf' : OnTheWay s₀ w' (acted ++ [c']) rest :=
          hf.act hrest hr (Branch.id_eq hdef') (by rw [← hdone]) (by rw [← hdone]; exact hatt)
        have hbs' : acted ++ c' :: rest = acted ++ [c'] ++ rest := List.append_cons ..
        simp only [List.any_nil, Bool.false_eq_true, if_false]
        refine Machine.runs_bind.mpr (runs_persistChain ⟨htx₁.written.branches, hsame hdef',
          .forward _ rest (Or.inr hst₁) hbs' hf'⟩ fun _ w₃ hr₃ hb₃ hat => ?_)
        refine ih htx₁.written.branches.written hst₁ (hsame hdef') hbs' (hf'.same hr₃ hb₃)
          (Nat.lt_of_succ_lt_succ hfuel) ?_ htx₁.gid
        rw [hr₃.failedReturns, hr.failedReturns (Or.inl rfl)]
        exact hle
      · have hdef₁ : c'.definition = b.definition := hdef'.trans hdef
        have hatt₁ : c'.attempts = b.attempts + 1 := hatt'.trans hatt
        have hmore : n < w'.failedReturns s₀.gid := by
          rw [hr.failedReturns (Or.inl rfl)]
          exact Nat.lt_succ_of_le hle
        simp only [List.any_cons, List.any_nil, Bool.or_false, decide_eq_true_eq]
        split
        · -- the action has used up its attempts
          rename_i hmax
          have hmax' : sagaMaxAttempts s₀.options ≤ b.attempts + 1 := by
            have hoptions : tx₁.options = s₀.options := htx₁.options
            rw [← hatt₁, ← hoptions]
            exact hmax
          have hids : (acted ++ b :: rest).map Branch.id = s₀.branches.map Branch.id := by
            rw [← hbs, hs.ids]
          have hgiven := hf.giveUp hids hr hmax'
          have hsplit : (acted ++ c' :: rest).map Branch.givenBack =
              acted.map Branch.givenBack ++ (c' :: rest).map Branch.givenBack := List.map_append ..
          have hleft : ∀ a ∈ acted.map Branch.givenBack, a.status = .compensating := by
            intro _ hmem
            obtain ⟨a, ha, rfl⟩ := List.mem_map.mp hmem
            rw [givenBack_status, if_pos (hf.won a ha).1]
          have hright : ∀ a ∈ (c' :: rest).map Branch.givenBack, a.status.isOwed = false := by
            intro _ hmem
            obtain ⟨a, ha, rfl⟩ := List.mem_map.mp hmem
            have hnot : ¬ a.status = .succeeded := by
              rcases List.mem_cons.mp ha with rfl | ha
              · rw [hcst']
                decide
              · rcases (hf.left a (.tail _ ha)).1 with h | h <;> rw [h] <;> decide
            rw [givenBack_status, if_neg hnot]
            rfl
          have hturned : SameBranches s₀.branches ((acted ++ c' :: rest).map Branch.givenBack) :=
            (hsame hdef₁).map givenBack_definition
          have hback : OnTheWayBack s₀ acted.length w' ((acted ++ c' :: rest).map Branch.givenBack) := by
            rw [hsplit] at hturned ⊢
            refine hgiven.turn hturned ?_ (fun a ha => ?_) hright ?_ fun id hm => ?_
            · rw [List.length_map, hS.concurrent, if_pos rfl]
            · rw [hleft a ha]
              rfl
            · exact (hr.other _ (by decide)).trans hf.undone
            · exact hf.freeUndo id ((hr.barriers _ _ fun hop => absurd hop (by decide)).mp hm)
          have hd : Descending acted.length ((acted ++ c' :: rest).map Branch.givenBack)
              (acted.map Branch.givenBack) ((c' :: rest).map Branch.givenBack) := by
            refine ⟨hsplit, (List.length_map _).le, hleft, hright, fun a ha => ?_⟩
            rw [List.length_map, Nat.sub_self, List.take_zero] at ha
            cases ha
          refine Machine.runs_bind.mpr (runs_persistChain ⟨htx₁.written.branches, hturned,
            .backward _ rfl hback fun _ => ⟨_, _, hd⟩⟩ fun _ w₃ hr₃ hb₃ _ => ?_)
          refine runs_abortChained hS htx₁.written.branches.written hturned
            (hback.same hr₃ hb₃ (.refl _) rfl) hd ?_
          rw [hr₃.failedReturns]
          exact hmore.le
        · -- the action has failed and is tried again later
          rename_i hmax
          have hmax' : c'.attempts < sagaMaxAttempts s₀.options := by
            have hoptions : tx₁.options = s₀.options := htx₁.options
            rw [← hoptions]
            exact Nat.not_le.mp hmax
          have hf' : OnTheWay s₀ w' acted (c' :: rest) :=
            hf.miss hrest hr hfree (Branch.id_eq hdef₁) hcst' hatt₁ hmax'
          refine Machine.runs_bind.mpr (runs_persistChain ⟨htx₁.written.branches, hsame hdef₁,
            .forward _ _ (Or.inr hst₁) rfl hf'⟩ fun _ w₃ hr₃ _ hat => ?_)
          refine ⟨_, hat, Or.inr (Or.inr (Or.inl ?_))⟩
          rw [hr₃.failedReturns]
          exact hmore

/-- `start_concurrent_saga`, as `start_saga` calls it. -/
theorem runs_startChained (hS : ChainedSaga s₀) (hw : ChainAt s₀ s w)
    (hst : s.status = .submitted ∨ s.status = .succeeding) (hle : n ≤ w.failedReturns s₀.gid) :
    (alone allow).Runs (fun _ => True) i (dtm.startSaga s₀.gid)
      (fun _ => ChainDone s₀ n) (fun _ => ChainDone s₀ n) w := by
  refine Machine.runs_bind.mpr (runs_loadChain hw fun now hw' => ?_)
  have hr := hw'.record
  have hkind : ensureKind s .saga = .ok () := ensureKind_eq_ok.mpr hr.kind
  have hstatus : ensureStatus s [.submitted, .succeeding] = .ok () :=
    ensureStatus_eq_ok.mpr (by rcases hst with h | h <;> rw [h] <;> decide)
  have hconc : s.options.concurrent = true := by
    rw [hr.options]
    exact hS.concurrent
  rw [hkind, hstatus, hconc, if_neg (by rcases hst with h | h <;> rw [h] <;> decide), if_pos rfl]
  obtain ⟨acted, rest, hbs, hf⟩ := hr.forward hst
  simp only [Machine.runs_bind, runs_ofExcept, Dtm.startConcurrentSaga, hS.accepted hr.toSagaOf hr.same]
  refine runs_persistChain ⟨hr.toSagaOf.branches, hr.same, .forward acted rest (Or.inr rfl) hbs hf⟩
    fun _ w' hr' hb' _ => ?_
  refine runs_startChainRounds hS hr.toSagaOf.branches.written rfl hr.same hbs (hf.same hr' hb') ?_ ?_
  · show rest.length < s.branches.length + 1
    rw [hbs, List.length_append]
    omega
  · rw [hr'.failedReturns]
    exact hle

/-- `abort_concurrent_saga`, as `abort_saga` calls it. -/
theorem runs_abortChainedSaga (hS : ChainedSaga s₀) (hw : ChainAt s₀ s w) (hst : s.status = .aborting)
    (hle : n ≤ w.failedReturns s₀.gid) :
    (alone allow).Runs (fun _ => True) i (dtm.abortSaga s₀.gid)
      (fun _ => ChainDone s₀ n) (fun _ => ChainDone s₀ n) w := by
  refine Machine.runs_bind.mpr (runs_loadChain hw fun now hw' => ?_)
  have hr := hw'.record
  have hkind : ensureKind s .saga = .ok () := ensureKind_eq_ok.mpr hr.kind
  have hstatus : ensureStatus s [.submitted, .succeeding, .aborting] = .ok () :=
    ensureStatus_eq_ok.mpr (by rw [hst]; decide)
  have hconc : s.options.concurrent = true := by
    rw [hr.options]
    exact hS.concurrent
  rw [hkind, hstatus, hconc, if_neg (by rw [hst]; decide), if_pos rfl]
  obtain ⟨k, left, passed, hb, hd⟩ : ∃ k left passed,
      OnTheWayBack s₀ k (w.setClock now) s.branches ∧ Descending k s.branches left passed := by
    cases hr.phase with
    | forward _ _ h => rcases h with h | h <;> exact absurd (h.symm.trans hst) (by decide)
    | succeeded h => exact absurd (h.symm.trans hst) (by decide)
    | backward k _ hb hd =>
      obtain ⟨left, passed, hd⟩ := hd hS.concurrent
      exact ⟨k, left, passed, hb, hd⟩
    | aborted _ h => exact absurd (h.symm.trans hst) (by decide)
  exact runs_abortChained hS hr.toSagaOf hr.same hb hd hle

end Chained

end RozeDtm
