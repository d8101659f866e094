import RozeDtm.Conc.Discipline
import RozeDtm.Kv.Topics

/-!
# What a call makes of its topic

A call that changes a topic does so with the last command that it sends, so that its effect is
one step from the text and version that are stored to others.

* `Effect`: what a call makes of the text and version of its topic, and what it returns.
* `topicEdits`: a call stops right after the command that changes its topic.
* `topic_step`: the store does what that command is taken to do.
* `Effect.alone`: running alone, the function has that effect.
-/

namespace RozeDtm

open Conc

/-- An update comes while the text is the one that it has read, if the version is. -/
def ReadsStored (o : kvCalls.Op) (w : KvWorld) : Prop :=
  match (o : KvCall) with
  | .updateKv entry expectedVersion read =>
    ∀ existing ∈ w.kv (entry.category, entry.key), existing.version = expectedVersion →
      existing.value = read.value
  | _ => True

instance (o : kvCalls.Op) (w : KvWorld) : Decidable (ReadsStored o w) :=
  match (o : KvCall) with
  | .updateKv entry expectedVersion read =>
    inferInstanceAs (Decidable (∀ existing ∈ w.kv (entry.category, entry.key),
      existing.version = expectedVersion → existing.value = read.value))
  | .currentMillis | .getKv _ _ | .createKv _ | .deleteKv _ _ => .isTrue trivial

/-! ### What a call makes of its topic -/

/-- What is checked of a subscription before its topic is read. -/
structure SubscriptionValid (libs : TopicLibs) (topic url remark : String) : Prop where
  topic : validateTopic topic = .ok ()
  url : validateSubscriberUrl libs.url url = .ok ()
  remark : remark.utf8ByteSize ≤ 1024

/-- Call `call` returns `answer` and takes the text and version of its topic from one to the
other. -/
inductive TopicCall.Effect (libs : TopicLibs) :
    TopicCall → TopicAnswer → Option (String × Nat) → Option (String × Nat) → Prop
  | create {topic url remark : String} (h : SubscriptionValid libs topic url remark) :
    Effect libs (.subscribe topic url remark) (.topic ⟨topic, [⟨url, remark⟩], 1⟩) none
      (some (libs.subscribersToText [⟨url, remark⟩], 1))
  | append {topic url remark text : String} {version : Nat} {subscribers : List TopicSubscriber}
    (h : SubscriptionValid libs topic url remark)
    (hparse : libs.parseSubscribers text = .ok subscribers)
    (hnew : ∀ subscriber ∈ subscribers, subscriber.url ≠ url) :
    Effect libs (.subscribe topic url remark)
      (.topic ⟨topic, subscribers ++ [⟨url, remark⟩], satAdd64 version 1⟩) (some (text, version))
      (some (libs.subscribersToText (subscribers ++ [⟨url, remark⟩]), satAdd64 version 1))
  | unsubscribe {topic url text : String} {version : Nat} {subscribers : List TopicSubscriber}
    (htopic : validateTopic topic = .ok ()) (hurl : validateSubscriberUrl libs.url url = .ok ())
    (hparse : libs.parseSubscribers text = .ok subscribers)
    (hfound : ∃ subscriber ∈ subscribers, subscriber.url = url) :
    Effect libs (.unsubscribe topic url)
      (.topic ⟨topic, subscribers.filter fun subscriber => subscriber.url ≠ url,
        satAdd64 version 1⟩) (some (text, version))
      (some (libs.subscribersToText (subscribers.filter fun subscriber => subscriber.url ≠ url),
        satAdd64 version 1))
  | delete {topic : String} {stored : Option (String × Nat)} (h : validateTopic topic = .ok ()) :
    Effect libs (.deleteTopic topic) (.deleted stored.isSome) stored none

/-! ### The command that changes a topic -/

/-- A command that has changed a topic: its text and version before and after, or what
`delete_kv` has answered. -/
inductive TopicEdit
  | set (before : Option (String × Nat)) (after : String × Nat)
  | removed (existed : Bool)

/-- What it makes of the text and version. -/
def TopicEdit.Takes : TopicEdit → Option (String × Nat) → Option (String × Nat) → Prop
  | .set before after, s, s' => s = before ∧ s' = some after
  | .removed existed, s, s' => existed = s.isSome ∧ s' = none

/-- A call sends commands for the entry of `topic` only, and none after the one that has changed
it. -/
def topicEdits (topic : String) : Discipline kvCalls (Option TopicEdit) where
  pre := fun edit (o : KvCall) =>
    edit = none ∧
      match o with
      | .currentMillis => True
      | .getKv category key | .deleteKv category key => category = topicsCategory ∧ key = topic
      | .createKv entry => entry.category = topicsCategory ∧ entry.key = topic
      | .updateKv entry expectedVersion _ =>
        entry.category = topicsCategory ∧ entry.key = topic ∧
          entry.version = satAdd64 expectedVersion 1
  sees := fun _ (o : KvCall) =>
    match o with
    | .getKv category key => fun found : Option KvEntry =>
      ∀ entry ∈ found, entry.category = category ∧ entry.key = key
    | _ => fun _ => True
  next := fun edit (o : KvCall) =>
    match o with
    | .currentMillis | .getKv _ _ => fun _ => edit
    | .createKv entry => fun created : Bool =>
      if created then some (.set none (entry.value, entry.version)) else edit
    | .updateKv entry expectedVersion read => fun updated : Bool =>
      if updated then
        some (.set (some (read.value, expectedVersion)) (entry.value, entry.version))
      else edit
    | .deleteKv _ _ => fun existed : Bool => some (.removed existed)

/-- How a call ends: with the effect of what it has changed, or with an error and nothing
changed. -/
def TopicCall.Ended (libs : TopicLibs) (call : TopicCall) (edit : Option TopicEdit)
    (result : Except Err TopicAnswer) : Prop :=
  match result with
  | .ok answer => ∃ e ∈ edit, ∀ s s', e.Takes s s' → call.Effect libs answer s s'
  | .error _ => edit = none

section Walk

variable {libs : TopicLibs} {topic url remark : String}

theorem topicEdits_ofExcept_bind {α β : Type} {e : Except Err α} {f : α → KvProc β}
    {edit : Option TopicEdit} {Q : Option TopicEdit → Except Err β → Prop}
    (hok : ∀ a, e = .ok a → (topicEdits topic).Ends (f a) edit Q)
    (herr : ∀ err, Q edit (.error err)) :
    (topicEdits topic).Ends (KvProc.ofExcept e >>= f) edit Q := by
  refine Discipline.ends_bind.mpr ?_
  show _ ∧ _
  exact ⟨hok, fun err _ => herr err⟩

/-- **The attempts of `subscribe`.** -/
theorem topicEdits_subscribeLoop (hvalid : SubscriptionValid libs topic url remark) :
    ∀ attempts, (topicEdits topic).Ends (subscribeLoop libs topic url remark attempts) none
      (fun edit result => (TopicCall.subscribe topic url remark).Ended libs edit
        (result.map TopicAnswer.topic)) := by
  intro attempts
  induction attempts with
  | zero => exact rfl
  | succ attempts ih =>
    unfold subscribeLoop
    refine ⟨⟨rfl, rfl, rfl⟩, fun found hfound => ?_⟩
    cases found with
    | none =>
      refine ⟨⟨rfl, trivial⟩, fun now _ => ⟨⟨rfl, rfl, rfl⟩, fun created _ => ?_⟩⟩
      cases created with
      | true =>
        refine ⟨_, rfl, ?_⟩
        rintro s s' ⟨rfl, rfl⟩
        exact .create hvalid
      | false => exact ih
    | some entry =>
      obtain ⟨hcategory, hkey⟩ := hfound entry rfl
      refine topicEdits_ofExcept_bind (fun subscribers hparse => ?_) fun _ => rfl
      refine topicEdits_ofExcept_bind (fun _ hnew => ?_) fun _ => rfl
      refine ⟨⟨rfl, trivial⟩, fun now _ => ⟨⟨rfl, hcategory, hkey, rfl⟩, fun updated _ => ?_⟩⟩
      cases updated with
      | true =>
        refine ⟨_, rfl, ?_⟩
        rintro s s' ⟨rfl, rfl⟩
        refine .append hvalid hparse fun subscriber hmem heq => ?_
        rw [ensure_eq_ok, Bool.not_eq_true', List.any_eq_false] at hnew
        exact hnew subscriber hmem (decide_eq_true heq)
      | false => exact ih

/-- **The attempts of `unsubscribe`.** -/
theorem topicEdits_unsubscribeLoop (htopic : validateTopic topic = .ok ())
    (hurl : validateSubscriberUrl libs.url url = .ok ()) :
    ∀ attempts, (topicEdits topic).Ends (unsubscribeLoop libs topic url attempts) none
      (fun edit result => (TopicCall.unsubscribe topic url).Ended libs edit
        (result.map TopicAnswer.topic)) := by
  intro attempts
  induction attempts with
  | zero => exact rfl
  | succ attempts ih =>
    unfold unsubscribeLoop
    refine ⟨⟨rfl, rfl, rfl⟩, fun found hfound => ?_⟩
    cases found with
    | none => exact rfl
    | some entry =>
      obtain ⟨hcategory, hkey⟩ := hfound entry rfl
      refine topicEdits_ofExcept_bind (fun subscribers hparse => ?_) fun _ => rfl
      refine topicEdits_ofExcept_bind (fun _ hfewer => ?_) fun _ => rfl
      refine ⟨⟨rfl, trivial⟩, fun now _ => ⟨⟨rfl, hcategory, hkey, rfl⟩, fun updated _ => ?_⟩⟩
      cases updated with
      | true =>
        refine ⟨_, rfl, ?_⟩
        rintro s s' ⟨rfl, rfl⟩
        refine .unsubscribe htopic hurl hparse ?_
        rw [ensure_eq_ok, decide_eq_true_eq, Ne, List.length_filter_eq_length_iff] at hfewer
        push Not at hfewer
        obtain ⟨subscriber, hmem, heq⟩ := hfewer
        exact ⟨subscriber, hmem, of_not_not fun hne => heq (decide_eq_true hne)⟩
      | false => exact ih

theorem topicEdits_subscribe :
    (topicEdits topic).Ends (subscribe libs topic url remark) none
      (fun edit result => (TopicCall.subscribe topic url remark).Ended libs edit
        (result.map TopicAnswer.topic)) := by
  unfold subscribe
  refine topicEdits_ofExcept_bind (fun _ htopic => ?_) fun _ => rfl
  refine topicEdits_ofExcept_bind (fun _ hurl => ?_) fun _ => rfl
  refine topicEdits_ofExcept_bind (fun _ hremark => ?_) fun _ => rfl
  exact topicEdits_subscribeLoop ⟨htopic, hurl, of_decide_eq_true (ensure_eq_ok.mp hremark)⟩ 64

theorem topicEdits_unsubscribe :
    (topicEdits topic).Ends (unsubscribe libs topic url) none
      (fun edit result => (TopicCall.unsubscribe topic url).Ended libs edit
        (result.map TopicAnswer.topic)) := by
  unfold unsubscribe
  refine topicEdits_ofExcept_bind (fun _ htopic => ?_) fun _ => rfl
  refine topicEdits_ofExcept_bind (fun _ hurl => ?_) fun _ => rfl
  exact topicEdits_unsubscribeLoop htopic hurl 64

theorem topicEdits_deleteTopic :
    (topicEdits topic).Ends (deleteTopic topic) none
      (fun edit result => (TopicCall.deleteTopic topic).Ended libs edit
        (result.map TopicAnswer.deleted)) := by
  unfold deleteTopic
  refine topicEdits_ofExcept_bind (fun _ htopic => ?_) fun _ => rfl
  refine ⟨⟨rfl, rfl, rfl⟩, fun existed _ => ⟨_, rfl, ?_⟩⟩
  rintro s s' ⟨rfl, rfl⟩
  exact .delete htopic

/-- **Every call stops with the effect of the command that has changed its topic.** -/
theorem topicEdits_call (call : TopicCall) :
    (topicEdits call.topic).Follows (call.prog libs) none
      (fun edit r => r.1 = call ∧ call.Ended libs edit r.2) := by
  have hmap : ∀ {α : Type} {x : KvProc α} {f : α → TopicAnswer},
      (topicEdits call.topic).Ends x none (fun edit result => call.Ended libs edit (result.map f)) →
      (topicEdits call.topic).Follows
        (Prog.bind (do return f (← x) : KvProc TopicAnswer).run fun answer => .pure (call, answer))
        none (fun edit r => r.1 = call ∧ call.Ended libs edit r.2) := by
    intro α x f hx
    refine Discipline.follows_bind.mpr ?_
    refine Discipline.follows_bind.mpr (hx.mono fun edit result h => ?_)
    cases result with
    | ok a => exact ⟨rfl, h⟩
    | error err => exact ⟨rfl, h⟩
  cases call with
  | subscribe topic url remark => exact hmap topicEdits_subscribe
  | unsubscribe topic url => exact hmap topicEdits_unsubscribe
  | deleteTopic topic => exact hmap topicEdits_deleteTopic

end Walk

/-! ### What the store does -/

namespace KvWorld

variable {w : KvWorld} {topic : String}

theorem stored_insert {entry : KvEntry} (hcategory : entry.category = topicsCategory)
    (hkey : entry.key = topic) : (w.insert entry).stored topic = some (entry.value, entry.version) := by
  unfold stored
  rw [insert_kv, hcategory, hkey, Function.update_self, Option.map_some]

theorem stored_insert_of_ne {entry : KvEntry} (h : entry.key ≠ topic) :
    (w.insert entry).stored topic = w.stored topic := by
  have hne : (topicsCategory, topic) ≠ (entry.category, entry.key) := fun heq =>
    h (Prod.ext_iff.mp heq).2.symm
  unfold stored
  rw [insert_kv, Function.update_of_ne hne]

theorem stored_remove : (w.remove (topicsCategory, topic)).stored topic = none := by
  unfold stored
  rw [remove_kv, Function.update_self, Option.map_none]

theorem stored_remove_of_ne {category key : String} (h : key ≠ topic) :
    (w.remove (category, key)).stored topic = w.stored topic := by
  have hne : (topicsCategory, topic) ≠ (category, key) := fun heq => h (Prod.ext_iff.mp heq).2.symm
  unfold stored
  rw [remove_kv, Function.update_of_ne hne]

variable (w)

/-- What `create_kv` does. -/
theorem createKv_cases (entry : KvEntry) :
    w.createKv entry = (false, w) ∨
    w.kv (entry.category, entry.key) = none ∧ w.createKv entry = (true, w.insert entry) := by
  unfold createKv
  split
  · exact Or.inl rfl
  · rename_i h
    exact Or.inr ⟨Option.not_isSome_iff_eq_none.mp h, rfl⟩

/-- What `update_kv` does. -/
theorem updateKv_cases (entry : KvEntry) (expectedVersion : Nat) :
    w.updateKv entry expectedVersion = (false, w) ∨
    ∃ existing, w.kv (entry.category, entry.key) = some existing ∧
      existing.version = expectedVersion ∧
      w.updateKv entry expectedVersion = (true, w.insert entry) := by
  unfold updateKv
  cases hfound : w.kv (entry.category, entry.key) with
  | none => exact Or.inl rfl
  | some existing =>
    dsimp only
    split
    · exact Or.inl rfl
    · rename_i h
      push Not at h
      exact Or.inr ⟨existing, rfl, h.1, rfl⟩

end KvWorld

section Steps

variable {w : KvWorld} {topic other : String} {o : kvCalls.Op}

theorem kvStore_sees (i now : Nat) : (topicEdits topic).sees none o (kvStore.exec i o now w).1 := by
  cases (o : KvCall) with
  | getKv category key =>
    intro entry hentry
    exact Prod.ext_iff.mp (w.keyed _ entry hentry)
  | currentMillis => exact trivial
  | createKv entry => exact trivial
  | updateKv entry expectedVersion read => exact trivial
  | deleteKv category key => exact trivial

/-- A command for one topic leaves the others as they are. -/
theorem stored_of_ne (i now : Nat) (hpre : (topicEdits other).pre none o) (hne : other ≠ topic) :
    (kvStore.exec i o now w).2.stored topic = w.stored topic := by
  obtain ⟨-, hpre⟩ := hpre
  cases (o : KvCall) with
  | currentMillis => rfl
  | getKv category key => rfl
  | createKv entry =>
    show (w.createKv entry).2.stored topic = _
    rcases w.createKv_cases entry with heq | ⟨-, heq⟩
    · rw [heq]
    · rw [heq]
      exact KvWorld.stored_insert_of_ne (hpre.2 ▸ hne)
  | updateKv entry expectedVersion read =>
    show (w.updateKv entry expectedVersion).2.stored topic = _
    rcases w.updateKv_cases entry expectedVersion with heq | ⟨-, -, -, heq⟩
    · rw [heq]
    · rw [heq]
      exact KvWorld.stored_insert_of_ne (hpre.2.1 ▸ hne)
  | deleteKv category key => exact KvWorld.stored_remove_of_ne (hpre.2 ▸ hne)

/-- **What a command makes of its topic** is what the call that has sent it takes it to be. -/
theorem topic_step (i now : Nat) (hpre : (topicEdits topic).pre none o) (hread : ReadsStored o w) :
    match (topicEdits topic).next none o (kvStore.exec i o now w).1 with
    | none => (kvStore.exec i o now w).2.stored topic = w.stored topic
    | some edit => edit.Takes (w.stored topic) ((kvStore.exec i o now w).2.stored topic) := by
  obtain ⟨-, hpre⟩ := hpre
  cases (o : KvCall) with
  | currentMillis => rfl
  | getKv category key => rfl
  | createKv entry =>
    obtain ⟨hcategory, hkey⟩ := hpre
    show match (if (w.createKv entry).1 then some (TopicEdit.set none (entry.value, entry.version))
      else none) with
      | none => (w.createKv entry).2.stored topic = w.stored topic
      | some edit => edit.Takes (w.stored topic) ((w.createKv entry).2.stored topic)
    rcases w.createKv_cases entry with heq | ⟨hfound, heq⟩
    · rw [heq]
      rfl
    · rw [heq]
      refine ⟨?_, KvWorld.stored_insert hcategory hkey⟩
      unfold KvWorld.stored
      rw [← hcategory, ← hkey, hfound, Option.map_none]
  | updateKv entry expectedVersion read =>
    obtain ⟨hcategory, hkey, -⟩ := hpre
    show match (if (w.updateKv entry expectedVersion).1 then
        some (TopicEdit.set (some (read.value, expectedVersion)) (entry.value, entry.version))
      else none) with
      | none => (w.updateKv entry expectedVersion).2.stored topic = w.stored topic
      | some edit => edit.Takes (w.stored topic) ((w.updateKv entry expectedVersion).2.stored topic)
    rcases w.updateKv_cases entry expectedVersion with heq | ⟨existing, hfound, hmet, heq⟩
    · rw [heq]
      rfl
    · rw [heq]
      have hvalue : existing.value = read.value := hread existing hfound hmet
      refine ⟨?_, KvWorld.stored_insert hcategory hkey⟩
      unfold KvWorld.stored
      rw [← hcategory, ← hkey, hfound, Option.map_some, hvalue, hmet]
  | deleteKv category key =>
    obtain ⟨rfl, rfl⟩ := hpre
    refine ⟨?_, KvWorld.stored_remove⟩
    show (w.kv (topicsCategory, key)).isSome = _
    unfold KvWorld.stored
    rw [Option.isSome_map]

end Steps

/-! ### Running alone -/

/-- Running alone, the function of a call returns with what `r` says and takes the text and
version of its topic from one to the other, in every store. -/
def RunsAlone (libs : TopicLibs) (r : TopicCall × Except Err TopicAnswer)
    (s s' : Option (String × Nat)) : Prop :=
  ∀ w : KvWorld, w.stored r.1.topic = s →
    ∃ w', kvStore.Goes 0 (r.1.prog libs) w (some r) w' ∧ w'.stored r.1.topic = s'

section Alone

variable {libs : TopicLibs} {w : KvWorld} {topic : String}

theorem goes_step {o : kvCalls.Op} {w' w'' : KvWorld} {reply : kvCalls.Reply o}
    {k : kvCalls.Reply o → Prog kvCalls (TopicCall × Except Err TopicAnswer)}
    {a : Option (TopicCall × Except Err TopicAnswer)}
    (h : kvStore.exec 0 o 0 w = (reply, w')) (hk : kvStore.Goes 0 (k reply) w' a w'') :
    kvStore.Goes 0 (.step o k) w a w'' := by
  refine .step 0 trivial ?_
  rw [h]
  exact hk

theorem KvWorld.stored_eq_none (h : w.stored topic = none) : w.kv (topicsCategory, topic) = none :=
  Option.map_eq_none_iff.mp h

theorem KvWorld.exists_of_stored {text : String} {version : Nat}
    (h : w.stored topic = some (text, version)) :
    ∃ entry, w.kv (topicsCategory, topic) = some entry ∧ entry.value = text ∧
      entry.version = version ∧ entry.category = topicsCategory ∧ entry.key = topic := by
  obtain ⟨entry, hentry, heq⟩ := Option.map_eq_some_iff.mp h
  obtain ⟨hvalue, hversion⟩ := Prod.ext_iff.mp heq
  obtain ⟨hcategory, hkey⟩ := Prod.ext_iff.mp (w.keyed _ entry hentry)
  exact ⟨entry, hentry, hvalue, hversion, hcategory, hkey⟩

/-- An update of the entry that is stored. -/
theorem KvWorld.updateKv_stored {entry existing : KvEntry}
    (h : w.kv (entry.category, entry.key) = some existing)
    (hversion : entry.version = satAdd64 existing.version 1) :
    w.updateKv entry existing.version = (true, w.insert entry) := by
  unfold KvWorld.updateKv
  rw [h]
  exact if_neg fun hne => hne.elim (fun hne => hne rfl) fun hne => hne hversion

theorem subscribe_of_valid {url remark : String} (h : SubscriptionValid libs topic url remark) :
    subscribe libs topic url remark = subscribeLoop libs topic url remark 64 := by
  unfold subscribe
  rw [h.topic, h.url, (ensure_eq_ok (u := ())).mpr (decide_eq_true h.remark)]
  rfl

theorem unsubscribe_of_valid {url : String} (htopic : validateTopic topic = .ok ())
    (hurl : validateSubscriberUrl libs.url url = .ok ()) :
    unsubscribe libs topic url = unsubscribeLoop libs topic url 64 := by
  unfold unsubscribe
  rw [htopic, hurl]
  rfl

theorem deleteTopic_of_valid (htopic : validateTopic topic = .ok ()) :
    deleteTopic topic = KvProc.ask (.deleteKv topicsCategory topic) := by
  unfold deleteTopic
  rw [htopic]
  rfl

/-- **Running alone, the function of a call has its effect.** -/
theorem TopicCall.Effect.alone {call : TopicCall} {answer : TopicAnswer}
    {s s' : Option (String × Nat)} (h : call.Effect libs answer s s') :
    RunsAlone libs (call, .ok answer) s s' := by
  intro w hw
  cases h with
  | @create topic url remark hvalid =>
    have hentry : w.kv (topicsCategory, topic) = none := KvWorld.stored_eq_none hw
    let entry : KvEntry := ⟨topicsCategory, topic, libs.subscribersToText [⟨url, remark⟩], 1, 0, 0⟩
    have hcreate : w.createKv entry = (true, w.insert entry) := by
      unfold KvWorld.createKv
      rw [hentry]
      rfl
    unfold TopicCall.prog TopicCall.proc
    dsimp only
    rw [subscribe_of_valid hvalid]
    refine ⟨w.insert entry, ?_, KvWorld.stored_insert rfl rfl⟩
    exact goes_step (Prod.ext hentry rfl) (goes_step rfl (goes_step hcreate (.done _ _)))
  | @append topic url remark text version subscribers hvalid hparse hnew =>
    obtain ⟨existing, hexisting, rfl, rfl, hcategory, hkey⟩ := KvWorld.exists_of_stored hw
    let entry : KvEntry := { existing with
      version := satAdd64 existing.version 1
      updatedAtMillis := 0
      value := libs.subscribersToText (subscribers ++ [⟨url, remark⟩]) }
    have hupdate : w.updateKv entry existing.version = (true, w.insert entry) :=
      KvWorld.updateKv_stored (by rw [← hexisting, ← hcategory, ← hkey]) rfl
    unfold TopicCall.prog TopicCall.proc
    dsimp only
    rw [subscribe_of_valid hvalid]
    refine ⟨w.insert entry, goes_step (Prod.ext hexisting rfl) ?_,
      KvWorld.stored_insert hcategory hkey⟩
    have hany : (!subscribers.any fun subscriber => subscriber.url = url) = true := by
      rw [Bool.not_eq_true', List.any_eq_false]
      exact fun subscriber hmem => by simpa using hnew subscriber hmem
    show kvStore.Goes 0 (Prog.bind (ExceptT.run ((KvProc.ofExcept
      (libs.parseSubscribers existing.value) >>= _) >>= _)) _) w _ _
    rw [hparse]
    show kvStore.Goes 0 (Prog.bind (ExceptT.run ((KvProc.ofExcept (ensure
      (!subscribers.any fun subscriber => subscriber.url = url) _) >>= _) >>= _)) _) w _ _
    rw [(ensure_eq_ok (u := ())).mpr hany]
    exact goes_step rfl (goes_step hupdate (.done _ _))
  | @unsubscribe topic url text version subscribers htopic hurl hparse hfound =>
    obtain ⟨existing, hexisting, rfl, rfl, hcategory, hkey⟩ := KvWorld.exists_of_stored hw
    let kept := subscribers.filter fun subscriber => subscriber.url ≠ url
    let entry : KvEntry := { existing with
      version := satAdd64 existing.version 1
      updatedAtMillis := 0
      value := libs.subscribersToText kept }
    have hupdate : w.updateKv entry existing.version = (true, w.insert entry) :=
      KvWorld.updateKv_stored (by rw [← hexisting, ← hcategory, ← hkey]) rfl
    have hfewer : decide (kept.length ≠ subscribers.length) = true := by
      rw [decide_eq_true_eq, Ne, List.length_filter_eq_length_iff]
      obtain ⟨subscriber, hmem, heq⟩ := hfound
      exact fun hall => absurd heq (of_decide_eq_true (hall subscriber hmem))
    unfold TopicCall.prog TopicCall.proc
    dsimp only
    rw [unsubscribe_of_valid htopic hurl]
    refine ⟨w.insert entry, goes_step (Prod.ext hexisting rfl) ?_,
      KvWorld.stored_insert hcategory hkey⟩
    show kvStore.Goes 0 (Prog.bind (ExceptT.run ((KvProc.ofExcept
      (libs.parseSubscribers existing.value) >>= _) >>= _)) _) w _ _
    rw [hparse]
    show kvStore.Goes 0 (Prog.bind (ExceptT.run ((KvProc.ofExcept (ensure
      (decide (kept.length ≠ subscribers.length)) _) >>= _) >>= _)) _) w _ _
    rw [(ensure_eq_ok (u := ())).mpr hfewer]
    exact goes_step rfl (goes_step hupdate (.done _ _))
  | @delete topic stored htopic =>
    unfold TopicCall.prog TopicCall.proc
    dsimp only
    rw [deleteTopic_of_valid htopic]
    have hexisted : (w.kv (topicsCategory, topic)).isSome = s.isSome := by
      rw [← hw]
      exact Option.isSome_map.symm
    refine ⟨_, goes_step (Prod.ext hexisted rfl) (.done _ _), KvWorld.stored_remove⟩

end Alone

end RozeDtm
