import RozeDtm.Conc.Linear
import RozeDtm.Kv.SubscriberText
import RozeDtm.Kv.TopicEdits

/-!
# Topic updates

A version does not identify a list: a topic that was deleted and created again has the versions
of the old one, and an update that was read from the old list then replaces the new one.  In
every run in which no update meets such a version the calls are linearizable.

* `silent_or_point`: a command leaves a topic as it is, or it is the last of its call.
* `Subscribed.replays`: a URL stays subscribed under the calls that do not remove it.
-/

namespace RozeDtm

open Conc

/-! ### Moves -/

section Moves

variable {libs : TopicLibs} {w : KvWorld} {topic : String}
  {P Q : Pool kvCalls KvWorld (TopicCall × Except Err TopicAnswer)}

/-- A program of `call` that has not changed its topic. -/
def TopicCall.Live (libs : TopicLibs) (call : TopicCall)
    (p : Prog kvCalls (TopicCall × Except Err TopicAnswer)) : Prop :=
  (topicEdits call.topic).Follows p none (fun edit r => r.1 = call ∧ call.Ended libs edit r.2)

/-- **One command of a call**: nothing is changed, or the call returns and has its effect. -/
theorem TopicCall.Live.step {call : TopicCall} {o : kvCalls.Op}
    {k : kvCalls.Reply o → Prog kvCalls (TopicCall × Except Err TopicAnswer)}
    (h : call.Live libs (.step o k)) (hread : ReadsStored o w) (i now : Nat) :
    (call.Live libs (k (kvStore.exec i o now w).1) ∧
      ∀ topic, (kvStore.exec i o now w).2.stored topic = w.stored topic) ∨
    ∃ answer, k (kvStore.exec i o now w).1 = .pure (call, .ok answer) ∧
      call.Effect libs answer (w.stored call.topic)
        ((kvStore.exec i o now w).2.stored call.topic) ∧
      ∀ topic, call.topic ≠ topic → (kvStore.exec i o now w).2.stored topic = w.stored topic := by
  obtain ⟨hpre, hk⟩ := h
  have hk := hk _ (kvStore_sees (w := w) i now)
  have hstep := topic_step i now hpre hread
  cases hnext : (topicEdits call.topic).next none o (kvStore.exec i o now w).1 with
  | none =>
    rw [hnext] at hk hstep
    refine Or.inl ⟨hk, fun topic => ?_⟩
    by_cases htopic : call.topic = topic
    · subst htopic
      exact hstep
    · exact stored_of_ne i now hpre htopic
  | some edit =>
    rw [hnext] at hk hstep
    refine Or.inr ?_
    cases hp : k (kvStore.exec i o now w).1 with
    | step o' k' =>
      -- nothing is sent after the command that has changed the topic
      rw [hp] at hk
      cases hk.1.1
    | pure r =>
      rw [hp] at hk
      obtain ⟨rfl, hended⟩ := hk
      obtain ⟨call, result⟩ := r
      cases result with
      | error err => cases hended
      | ok answer =>
        obtain ⟨e, he, heffect⟩ := hended
        cases he
        exact ⟨answer, rfl, heffect _ _ hstep, fun topic => stored_of_ne i now hpre⟩

/-- **Whatever is under way has not changed its topic.** -/
theorem live_of_reaches (h : (kvStore.restrict ReadsStored).Reaches (TopicCall.Programs libs) w P)
    {i : Nat} {p : Prog kvCalls (TopicCall × Except Err TopicAnswer)}
    (hi : P.threads[i]? = some (some p)) :
    (∃ a, p = .pure a) ∨ ∃ call : TopicCall, call.Live libs p := by
  induction h generalizing i p with
  | refl => cases hi
  | tail _ hs ih =>
    rcases hs.thread hi with hi | ⟨call, -, rfl⟩ | ⟨o, k, now, hbefore, hallow, -, rfl⟩
    · exact ih hi
    · exact Or.inr ⟨call, topicEdits_call call⟩
    · rcases ih hbefore with ⟨a, ha⟩ | ⟨call, hlive⟩
      · cases ha
      rcases hlive.step hallow.2 i now with ⟨hlive, -⟩ | ⟨answer, heq, -⟩
      · exact Or.inr ⟨call, hlive⟩
      · exact Or.inl ⟨_, heq⟩

/-- A call of the topic that has returned `Ok`. -/
def Updated (topic : String) (r : TopicCall × Except Err TopicAnswer) : Prop :=
  r.1.topic = topic ∧ ∃ answer, r.2 = .ok answer

/-- The effect of such a call. -/
def UpdateEffect (libs : TopicLibs) (r : TopicCall × Except Err TopicAnswer)
    (s s' : Option (String × Nat)) : Prop :=
  ∃ answer, r.2 = .ok answer ∧ r.1.Effect libs answer s s'

theorem TopicCall.Live.not_updated {call : TopicCall} {r : TopicCall × Except Err TopicAnswer}
    (h : call.Live libs (.pure r)) : ¬ Updated topic r := by
  rintro ⟨-, answer, hanswer⟩
  obtain ⟨-, hended⟩ := h
  rw [hanswer] at hended
  obtain ⟨e, he, -⟩ := hended
  cases he

/-- **Every move is silent or the last of a call.** -/
theorem silent_or_point
    (h : (kvStore.restrict ReadsStored).Reaches (TopicCall.Programs libs) w P)
    (hs : (kvStore.restrict ReadsStored).Step (TopicCall.Programs libs) P Q) :
    Silent (Updated topic) (fun w => w.stored topic) P Q ∨
      ∃ i r, Point (Updated topic) (UpdateEffect libs) (fun w => w.stored topic) P Q i r := by
  cases hs with
  | @start w' ts p hp =>
    obtain ⟨call, -, rfl⟩ := hp
    refine Or.inl ⟨fun i r hr hi => ?_, rfl⟩
    rcases Nat.lt_or_ge i ts.length with hlt | hge
    · exact (List.getElem?_append_left hlt).symm.trans hi
    · have hlast : [some (call.prog libs)][i - ts.length]? = some (some (.pure r)) :=
        (List.getElem?_append_right hge).symm.trans hi
      have hprog : call.prog libs = .pure r := by
        rw [List.getElem?_singleton] at hlast
        split at hlast
        · exact Option.some.inj (Option.some.inj hlast)
        · cases hlast
      have hlive : call.Live libs (.pure r) := hprog ▸ topicEdits_call call
      exact absurd hr hlive.not_updated
  | @exec w' ts i o k now hi hallow =>
    have hlt : i < ts.length := (List.getElem?_eq_some_iff.mp hi).1
    have hothers : ∀ j r, j ≠ i →
        (Pool.mk (kvStore.exec i o now w').2
          (ts.set i (some (k (kvStore.exec i o now w').1)))).Returned j r →
        (Pool.mk w' ts).Returned j r := fun j r hji hj =>
      (List.getElem?_set_ne (Ne.symm hji)).symm.trans hj
    rcases live_of_reaches h hi with ⟨a, ha⟩ | ⟨call, hlive⟩
    · cases ha
    rcases hlive.step hallow.2 i now with ⟨hlive, hstored⟩ | ⟨answer, hdone, heffect, hstored⟩
    · refine Or.inl ⟨fun j r hr hj => ?_, hstored topic⟩
      by_cases hji : j = i
      · subst hji
        have heq : k (kvStore.exec j o now w').1 = .pure r :=
          Option.some.inj (Option.some.inj ((List.getElem?_set_self hlt).symm.trans hj))
        rw [heq] at hlive
        exact absurd hr hlive.not_updated
      · exact hothers j r hji hj
    · have hreturned : (ts.set i (some (k (kvStore.exec i o now w').1)))[i]? =
          some (some (.pure (call, .ok answer))) := by
        rw [List.getElem?_set_self hlt, hdone]
      by_cases htopic : call.topic = topic
      · subst htopic
        exact Or.inr ⟨i, (call, .ok answer), ⟨rfl, answer, rfl⟩, ⟨o, k, hi⟩, hreturned, hothers,
          answer, rfl, heffect⟩
      · refine Or.inl ⟨fun j r hr hj => ?_, hstored topic htopic⟩
        by_cases hji : j = i
        · subst hji
          cases hreturned.symm.trans hj
          exact absurd hr.1 htopic
        · exact hothers j r hji hj
  | @cut w' ts i =>
    refine Or.inl ⟨fun j r hr hj => ?_, rfl⟩
    by_cases hji : j = i
    · subst hji
      have hnone : (ts.set j none)[j]? = some (some (.pure r)) := hj
      rw [List.getElem?_set, if_pos rfl] at hnone
      split at hnone
      · cases hnone
      · cases hnone
    · exact (List.getElem?_set_ne (Ne.symm hji)).symm.trans hj
  | drift hd => exact hd.elim

end Moves

/-! ### What a topic keeps -/

/-- A URL is subscribed. -/
def Subscribed (libs : TopicLibs) (url : String) (stored : Option (String × Nat)) : Prop :=
  ∃ text version subscribers, stored = some (text, version) ∧
    libs.parseSubscribers text = .ok subscribers ∧ ∃ subscriber ∈ subscribers, subscriber.url = url

/-- A call that takes a URL out of a topic. -/
def TopicCall.Removes (call : TopicCall) (topic url : String) : Prop :=
  call = .unsubscribe topic url ∨ call = .deleteTopic topic

theorem TopicCall.not_removes_subscribe {topic url topic' url' remark : String} :
    ¬ (TopicCall.subscribe topic url remark).Removes topic' url' := by
  rintro (h | h)
  · cases h
  · cases h

section Keeps

variable {libs : TopicLibs} {topic url : String} {answer : TopicAnswer}
  {s s' : Option (String × Nat)}

theorem TopicCall.Effect.subscribed {remark : String}
    (h : (TopicCall.subscribe topic url remark).Effect libs answer s s') :
    Subscribed libs url s' := by
  cases h with
  | create hvalid =>
    exact ⟨_, _, _, rfl, libs.parse_toText _, ⟨url, remark⟩, List.mem_singleton_self _, rfl⟩
  | append hvalid hparse hnew =>
    refine ⟨_, _, _, rfl, libs.parse_toText _, ⟨url, remark⟩, ?_, rfl⟩
    exact List.mem_append_right _ (List.mem_singleton_self _)

/-- **A URL stays subscribed** under every other call. -/
theorem Subscribed.step {call : TopicCall} (hs : Subscribed libs url s)
    (h : call.Effect libs answer s s') (hkeep : ¬ call.Removes call.topic url) :
    Subscribed libs url s' := by
  obtain ⟨text, version, subscribers, rfl, hparse, subscriber, hmem, hurl⟩ := hs
  cases h with
  | append hvalid hparse' hnew =>
    cases hparse.symm.trans hparse'
    exact ⟨_, _, _, rfl, libs.parse_toText _, subscriber, List.mem_append_left _ hmem, hurl⟩
  | @unsubscribe topic url' _ _ _ htopic hurl' hparse' hfound =>
    cases hparse.symm.trans hparse'
    refine ⟨_, _, _, rfl, libs.parse_toText _, subscriber, ?_, hurl⟩
    have hne : subscriber.url ≠ url' := fun heq =>
      hkeep (Or.inl (congrArg (TopicCall.unsubscribe topic) (heq.symm.trans hurl)))
    exact List.mem_filter.mpr ⟨hmem, decide_eq_true hne⟩
  | delete htopic => exact absurd (Or.inr rfl) hkeep

theorem Subscribed.replays {rs : List (TopicCall × Except Err TopicAnswer)}
    (hs : Subscribed libs url s) (h : Replays (UpdateEffect libs) s rs s')
    (hkeep : ∀ r ∈ rs, ¬ r.1.Removes r.1.topic url) : Subscribed libs url s' := by
  induction rs generalizing s with
  | nil =>
    obtain rfl : s = s' := h
    exact hs
  | cons r rs ih =>
    obtain ⟨mid, ⟨answer, -, heffect⟩, h⟩ := h
    have hmid := hs.step heffect (hkeep r List.mem_cons_self)
    exact ih hmid h fun r' hr' => hkeep r' (List.mem_cons_of_mem r hr')

end Keeps

/-! ### The order of the calls -/

/-- The calls of a topic that have returned `Ok` have an order: one after another they lead to
the list that is stored, whatever had returned before another was started comes before it, a URL
is subscribed unless a call that removes it comes after its subscription, and what comes after
a deletion starts from nothing. -/
def TopicsLinear (libs : TopicLibs) (topic : String) (w : KvWorld)
    (ps : List (Pool kvCalls KvWorld (TopicCall × Except Err TopicAnswer)))
    (P : Pool kvCalls KvWorld (TopicCall × Except Err TopicAnswer)) : Prop :=
  ∃ order, Linearizes (Updated topic) (RunsAlone libs) (fun w => w.stored topic) w ps P order ∧
    (∀ i url remark result, (i, (.subscribe topic url remark, result)) ∈ order →
      (∀ j call result, (j, (call, result)) ∈ order → call.Removes topic url →
        [j, i].Sublist (order.map Prod.fst)) → Subscribed libs url (P.world.stored topic)) ∧
    ∀ i result before later, order = before ++ (i, (.deleteTopic topic, result)) :: later →
      Replays (RunsAlone libs) none (later.map Prod.snd) (P.world.stored topic)

theorem UpdateEffect.alone {libs : TopicLibs} {r : TopicCall × Except Err TopicAnswer}
    {s s' : Option (String × Nat)} (h : UpdateEffect libs r s s') : RunsAlone libs r s s' := by
  obtain ⟨call, result⟩ := r
  obtain ⟨answer, rfl, heffect⟩ := h
  exact heffect.alone

section Order

variable {libs : TopicLibs} {topic : String} {w : KvWorld}
  {ps : List (Pool kvCalls KvWorld (TopicCall × Except Err TopicAnswer))}
  {P : Pool kvCalls KvWorld (TopicCall × Except Err TopicAnswer)}
  {order : List (Nat × TopicCall × Except Err TopicAnswer)}

/-- What the calls after one of an order start from. -/
theorem exists_effect_of_order {ret : TopicCall × Except Err TopicAnswer → Prop}
    (h : Linearizes ret (UpdateEffect libs) (fun w => w.stored topic) w ps P order)
    {i : Nat} {call : TopicCall} {result : Except Err TopicAnswer}
    {before later : List (Nat × TopicCall × Except Err TopicAnswer)}
    (horder : order = before ++ (i, (call, result)) :: later) :
    ∃ s s' answer, call.Effect libs answer s s' ∧
      Replays (UpdateEffect libs) s' (later.map Prod.snd) (P.world.stored topic) := by
  have hreplays := h.replays
  rw [horder, List.map_append] at hreplays
  obtain ⟨s, -, s', ⟨answer, -, heffect⟩, hlater⟩ := hreplays.split
  exact ⟨s, s', answer, heffect, hlater⟩

/-- **Topic updates are linearizable** in every run in which no update meets the version that it
has read with another text. -/
theorem topic_updates_linearizable
    (h : (kvStore.restrict ReadsStored).Trace (TopicCall.Programs libs) w ps P) :
    TopicsLinear libs topic w ps P := by
  obtain ⟨order, hlin⟩ : ∃ order, Linearizes (Updated topic) (UpdateEffect libs)
      (fun w => w.stored topic) w ps P order :=
    h.exists_linearizes fun hr hs => silent_or_point hr hs
  have htopic : ∀ {i r}, (i, r) ∈ order → r.1.topic = topic := fun hmem =>
    ((hlin.returned _ _).mp hmem).1.1
  refine ⟨order, hlin.mono fun r s s' => UpdateEffect.alone, ?_, ?_⟩
  · intro i url remark result hmem hbefore
    obtain ⟨before, later, horder⟩ := List.append_of_mem hmem
    obtain ⟨s, s', answer, heffect, hlater⟩ := exists_effect_of_order hlin horder
    refine heffect.subscribed.replays hlater fun r hr hremoves => ?_
    obtain ⟨⟨j, r⟩, hjr, rfl⟩ := List.mem_map.mp hr
    have hjorder : (j, r) ∈ order := by
      rw [horder]
      exact List.mem_append_right _ (List.mem_cons_of_mem _ hjr)
    rw [htopic hjorder] at hremoves
    -- it would stand before the subscription and after it
    have hfst : order.map Prod.fst = before.map Prod.fst ++ i :: later.map Prod.fst := by
      rw [horder, List.map_append, List.map_cons]
    have hjbefore := mem_of_before hfst hlin.unique (hbefore j r.1 r.2 hjorder hremoves)
    have hnodup := hlin.unique
    rw [hfst] at hnodup
    refine (List.nodup_append.mp hnodup).2.2 j hjbefore j ?_ rfl
    exact List.mem_cons_of_mem _ (List.mem_map.mpr ⟨_, hjr, rfl⟩)
  · intro i result before later horder
    obtain ⟨s, s', answer, heffect, hlater⟩ := exists_effect_of_order hlin horder
    cases heffect with
    | delete hvalid => exact hlater.mono fun r s s' => UpdateEffect.alone

end Order

/-- The list of a topic with URLs `http://a` and `http://b`. -/
def twoSubscribers : String := SubscriberText.toText [⟨"http://a", ""⟩, ⟨"http://b", ""⟩]

/-- Two subscriptions, one after the other. -/
theorem topic_updates_linearizable_run :
    ∃ ps P, P.world.stored "t" = some (twoSubscribers, 2) ∧ TopicsLinear .plain "t" .empty ps P := by
  obtain ⟨P, Q, hP, hQ, -, hstored⟩ := TopicCall.exists_run (kvStore.restrict ReadsStored) .plain
    .empty [.start (.subscribe "t" "http://a" ""), .exec 0 0, .exec 0 0, .exec 0 0]
    [.start (.subscribe "t" "http://b" ""), .exec 1 0, .exec 1 0, .exec 1 0]
    (fun _ => true) (fun P => P.world.stored "t" = some (twoSubscribers, 2)) (by decide +kernel)
  obtain ⟨ps, hps⟩ := (hP.run hQ).trace
  exact ⟨ps, Q, of_decide_eq_true hstored, topic_updates_linearizable hps⟩

/-- A topic is deleted and created again between the read of an update and the update: the old
list comes back and the new subscription is lost. -/
theorem topic_updates_lost : ∃ ps P,
    kvStore.Trace (TopicCall.Programs .plain) .empty ps P ∧
    P.world.stored "t" = some (twoSubscribers, 2) ∧ ¬ TopicsLinear .plain "t" .empty ps P := by
  obtain ⟨P, Q, hP, hQ, hlength, hend⟩ := TopicCall.exists_run kvStore .plain .empty
    [.start (.subscribe "t" "http://a" ""), .exec 0 0, .exec 0 0, .exec 0 0,
      .start (.subscribe "t" "http://b" ""), .exec 1 0, .exec 1 0,
      .start (.deleteTopic "t"), .exec 2 0]
    [.start (.subscribe "t" "http://c" ""), .exec 3 0, .exec 3 0, .exec 3 0, .exec 1 0]
    (fun P => P.threads.length = 3 ∧ P.result? 2 = some (.deleteTopic "t", .ok (.deleted true)))
    (fun P => P.world.stored "t" = some (twoSubscribers, 2) ∧
      P.result? 3 = some (.subscribe "t" "http://c" "", .ok (.topic ⟨"t", [⟨"http://c", ""⟩], 1⟩)) ∧
      (List.range P.threads.length).map (fun i => (P.result? i).map Prod.fst) =
        [some (.subscribe "t" "http://a" ""), some (.subscribe "t" "http://b" ""),
          some (.deleteTopic "t"), some (.subscribe "t" "http://c" "")])
    (by decide +kernel)
  obtain ⟨hlength, hdeleted⟩ := of_decide_eq_true hlength
  obtain ⟨hstored, hcreated, hcalls⟩ := of_decide_eq_true hend
  obtain ⟨ps, hps⟩ := hP.trace
  obtain ⟨qs, hqs, hmem⟩ := hps.run hQ
  refine ⟨qs, Q, hqs, hstored, ?_⟩
  rintro ⟨order, hlin, hsubscribed, -⟩
  have hcreated3 := (hlin.returned 3 _).mpr
    ⟨⟨rfl, _, rfl⟩, Q, hqs.mem, Pool.result?_eq_some.mp hcreated⟩
  have hdeleted2 := (hlin.returned 2 _).mpr
    ⟨⟨rfl, _, rfl⟩, P, hmem, Pool.result?_eq_some.mp hdeleted⟩
  -- the new subscription comes after the deletion, so that nothing removes it
  have hbefore : [2, 3].Sublist (order.map Prod.fst) :=
    hlin.realTime P hmem 2 3 _ _ (Pool.result?_eq_some.mp hdeleted) (Nat.le_of_eq hlength)
      hdeleted2 hcreated3
  have hsub : Subscribed .plain "http://c" (Q.world.stored "t") := by
    refine hsubscribed 3 _ _ _ hcreated3 fun j call result hj hremoves => ?_
    obtain ⟨-, R, hR, hj⟩ := (hlin.returned j _).mp hj
    have hlt : j < Q.threads.length :=
      Nat.lt_of_lt_of_le (List.getElem?_eq_some_iff.mp hj).1 (hqs.length_le hR)
    have hcall : ∀ c, (Q.result? j).map Prod.fst = some c → c = call := by
      intro c hc
      rcases hqs.returned hR hj with hj | hnone
      · rw [Pool.result?_eq_some.mpr hj] at hc
        cases hc
        rfl
      · rw [Pool.result?_eq_none hnone] at hc
        cases hc
    have hnth : [some (TopicCall.subscribe "t" "http://a" ""), some (.subscribe "t" "http://b" ""),
        some (.deleteTopic "t"), some (.subscribe "t" "http://c" "")][j]? =
        some ((Q.result? j).map Prod.fst) := by
      rw [← hcalls, List.getElem?_map, List.getElem?_range hlt, Option.map_some]
    match j, hcall, hnth with
    | 0, hcall, hnth =>
      obtain rfl := hcall _ (Option.some.inj hnth).symm
      exact absurd hremoves TopicCall.not_removes_subscribe
    | 1, hcall, hnth =>
      obtain rfl := hcall _ (Option.some.inj hnth).symm
      exact absurd hremoves TopicCall.not_removes_subscribe
    | 2, _, _ => exact hbefore
    | 3, hcall, hnth =>
      obtain rfl := hcall _ (Option.some.inj hnth).symm
      exact absurd hremoves TopicCall.not_removes_subscribe
  have hlist : TopicLibs.plain.parseSubscribers twoSubscribers =
      .ok [⟨"http://a", ""⟩, ⟨"http://b", ""⟩] :=
    SubscriberText.parse_toText [⟨"http://a", ""⟩, ⟨"http://b", ""⟩]
  rw [hstored] at hsub
  obtain ⟨text, version, subscribers, heq, hparse, subscriber, hsubscriber, hurl⟩ := hsub
  cases heq
  cases hlist.symm.trans hparse
  rcases List.mem_cons.mp hsubscriber with rfl | hsubscriber
  · exact absurd hurl (by decide)
  · cases List.mem_singleton.mp hsubscriber
    exact absurd hurl (by decide)

end RozeDtm
