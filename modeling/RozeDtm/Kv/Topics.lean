import Mathlib.Logic.Function.Basic
import RozeDtm.Conc.Pool
import RozeDtm.Model.System

/-!
# Topics

`subscribe`, `unsubscribe` and `delete_topic`, as programs of calls of a store's KV methods,
and these methods as `InMemoryTransactionStore` has them.  `KvCall.updateKv` carries the entry
that the call has read along with the one that it writes: the store is not sent it.
-/

namespace RozeDtm

open Conc

/-- `TOPICS_CATEGORY`. -/
def topicsCategory : String := "topics"

/-- The library functions that topics need. -/
structure TopicLibs where
  url : UrlLib
  /-- `serde_json::to_string` at `Vec<TopicSubscriber>`. -/
  subscribersToText : List TopicSubscriber → String
  /-- `serde_json::from_str` at `Vec<TopicSubscriber>`. -/
  parseSubscribers : String → Except Err (List TopicSubscriber)
  parse_toText : ∀ subscribers, parseSubscribers (subscribersToText subscribers) = .ok subscribers

/-! ### Calls of the store -/

inductive KvCall
  | currentMillis
  | getKv (category key : String)
  | createKv (entry : KvEntry)
  | updateKv (entry : KvEntry) (expectedVersion : Nat) (read : KvEntry)
  | deleteKv (category key : String)

def KvCall.Reply : KvCall → Type
  | .currentMillis => Nat
  | .getKv _ _ => Option KvEntry
  | .createKv _ | .updateKv _ _ _ | .deleteKv _ _ => Bool

def kvCalls : Sig := ⟨KvCall, KvCall.Reply⟩

/-- An `async fn` about topics. -/
abbrev KvProc (α : Type) := Proc kvCalls Err α

namespace KvProc

variable {α : Type}

def ask (o : KvCall) : KvProc o.Reply := @Proc.perform kvCalls Err o

/-- `create_kv`: whether the entry is there now. -/
def createKv (entry : KvEntry) : KvProc Bool := ask (.createKv entry)

/-- `update_kv`, with the entry that the call has read. -/
def updateKv (entry : KvEntry) (expectedVersion : Nat) (read : KvEntry) : KvProc Bool :=
  ask (.updateKv entry expectedVersion read)

/-- `?` on a result that is already there. -/
def ofExcept (e : Except Err α) : KvProc α := ExceptT.mk (.pure e)

end KvProc

/-! ### `subscribe`, `unsubscribe` and `delete_topic` -/

/-- `validate_topic`. -/
def validateTopic (topic : String) : Except Err Unit :=
  ensure (!topic.isEmpty && topic.utf8ByteSize ≤ 191) "invalid topic name"

/-- `validate_subscriber_url`. -/
def validateSubscriberUrl (lib : UrlLib) (value : String) : Except Err Unit :=
  match lib.parse value with
  | none => .error "invalid subscriber URL"
  | some url =>
    ensure (value.utf8ByteSize ≤ 2048 &&
        (lib.scheme url = "http" || lib.scheme url = "https") && lib.hasHost url &&
        (lib.username url).isEmpty && (lib.password url).isNone && (lib.fragment url).isNone)
      "invalid subscriber URL"

section Functions

variable (libs : TopicLibs)

/-- The attempts of `subscribe`. -/
def subscribeLoop (topic url remark : String) : Nat → KvProc Topic
  | 0 => throw s!"topic {topic} subscription update is contended"
  | attempts + 1 => do
    match ← KvProc.ask (.getKv topicsCategory topic) with
    | none => do
      let subscribers : List TopicSubscriber := [⟨url, remark⟩]
      let now ← KvProc.ask .currentMillis
      if ← KvProc.createKv {
          category := topicsCategory
          key := topic
          value := libs.subscribersToText subscribers
          version := 1
          createdAtMillis := now
          updatedAtMillis := now } then
        return ⟨topic, subscribers, 1⟩
      subscribeLoop topic url remark attempts
    | some entry => do
      let subscribers ← KvProc.ofExcept (libs.parseSubscribers entry.value)
      KvProc.ofExcept (ensure (!subscribers.any fun subscriber => subscriber.url = url)
        "this url exists")
      let subscribers := subscribers ++ [⟨url, remark⟩]
      let now ← KvProc.ask .currentMillis
      let written := { entry with
        version := satAdd64 entry.version 1
        updatedAtMillis := now
        value := libs.subscribersToText subscribers }
      if ← KvProc.updateKv written entry.version entry then
        return ⟨topic, subscribers, satAdd64 entry.version 1⟩
      subscribeLoop topic url remark attempts

/-- `subscribe`. -/
def subscribe (topic url remark : String) : KvProc Topic := do
  KvProc.ofExcept (validateTopic topic)
  KvProc.ofExcept (validateSubscriberUrl libs.url url)
  KvProc.ofExcept (ensure (remark.utf8ByteSize ≤ 1024) "topic subscriber remark is too long")
  subscribeLoop libs topic url remark 64

/-- The attempts of `unsubscribe`. -/
def unsubscribeLoop (topic url : String) : Nat → KvProc Topic
  | 0 => throw s!"topic {topic} subscription update is contended"
  | attempts + 1 => do
    match ← KvProc.ask (.getKv topicsCategory topic) with
    | none => throw "no such a topic"
    | some entry => do
      let subscribers ← KvProc.ofExcept (libs.parseSubscribers entry.value)
      let kept := subscribers.filter fun subscriber => subscriber.url ≠ url
      KvProc.ofExcept (ensure (kept.length ≠ subscribers.length) "no such an url")
      let now ← KvProc.ask .currentMillis
      let written := { entry with
        version := satAdd64 entry.version 1
        updatedAtMillis := now
        value := libs.subscribersToText kept }
      if ← KvProc.updateKv written entry.version entry then
        return ⟨topic, kept, satAdd64 entry.version 1⟩
      unsubscribeLoop topic url attempts

/-- `unsubscribe`. -/
def unsubscribe (topic url : String) : KvProc Topic := do
  KvProc.ofExcept (validateTopic topic)
  KvProc.ofExcept (validateSubscriberUrl libs.url url)
  unsubscribeLoop libs topic url 64

/-- `delete_topic`. -/
def deleteTopic (topic : String) : KvProc Bool := do
  KvProc.ofExcept (validateTopic topic)
  KvProc.ask (.deleteKv topicsCategory topic)

end Functions

/-- The calls of `subscribe_topic`, `unsubscribe_topic` and `delete_topic`. -/
inductive TopicCall
  | subscribe (topic url remark : String)
  | unsubscribe (topic url : String)
  | deleteTopic (topic : String)
  deriving DecidableEq

/-- What they return. -/
inductive TopicAnswer
  | topic (topic : Topic)
  | deleted (existed : Bool)
  deriving DecidableEq

namespace TopicCall

def topic : TopicCall → String
  | .subscribe topic _ _ | .unsubscribe topic _ | .deleteTopic topic => topic

/-- Their functions. -/
def proc (libs : TopicLibs) : TopicCall → KvProc TopicAnswer
  | .subscribe topic url remark => do return .topic (← RozeDtm.subscribe libs topic url remark)
  | .unsubscribe topic url => do return .topic (← RozeDtm.unsubscribe libs topic url)
  | .deleteTopic topic => do return .deleted (← RozeDtm.deleteTopic topic)

/-- A call as a program, which returns with what it was. -/
def prog (libs : TopicLibs) (call : TopicCall) :
    Prog kvCalls (TopicCall × Except Err TopicAnswer) :=
  (call.proc libs).run.bind fun answer => .pure (call, answer)

end TopicCall

/-! ### The store -/

/-- The entries of a store, each under its category and key. -/
structure KvWorld where
  kv : String × String → Option KvEntry
  keyed : ∀ key entry, kv key = some entry → (entry.category, entry.key) = key

namespace KvWorld

/-- Write an entry under its key. -/
def insert (w : KvWorld) (entry : KvEntry) : KvWorld where
  kv := Function.update w.kv (entry.category, entry.key) (some entry)
  keyed := fun key entry' h => by
    by_cases hkey : key = (entry.category, entry.key)
    · subst hkey
      rw [Function.update_self] at h
      cases h
      rfl
    · rw [Function.update_of_ne hkey] at h
      exact w.keyed key entry' h

/-- Remove the entry under a key. -/
def remove (w : KvWorld) (key : String × String) : KvWorld where
  kv := Function.update w.kv key none
  keyed := fun key' entry h => by
    by_cases hkey : key' = key
    · subst hkey
      rw [Function.update_self] at h
      cases h
    · rw [Function.update_of_ne hkey] at h
      exact w.keyed key' entry h

@[simp] theorem insert_kv (w : KvWorld) (entry : KvEntry) :
    (w.insert entry).kv = Function.update w.kv (entry.category, entry.key) (some entry) := rfl

@[simp] theorem remove_kv (w : KvWorld) (key : String × String) :
    (w.remove key).kv = Function.update w.kv key none := rfl

/-- A store without entries. -/
def empty : KvWorld := ⟨fun _ => none, fun _ _ h => nomatch h⟩

/-- The text and the version that are stored for a topic. -/
def stored (w : KvWorld) (topic : String) : Option (String × Nat) :=
  (w.kv (topicsCategory, topic)).map fun entry => (entry.value, entry.version)

/-- `create_kv`. -/
def createKv (w : KvWorld) (entry : KvEntry) : Bool × KvWorld :=
  if (w.kv (entry.category, entry.key)).isSome then (false, w) else (true, w.insert entry)

/-- `update_kv`. -/
def updateKv (w : KvWorld) (entry : KvEntry) (expectedVersion : Nat) : Bool × KvWorld :=
  match w.kv (entry.category, entry.key) with
  | none => (false, w)
  | some existing =>
    if existing.version ≠ expectedVersion ∨ entry.version ≠ satAdd64 expectedVersion 1 then
      (false, w)
    else (true, w.insert entry)

/-- `delete_kv`. -/
def deleteKv (w : KvWorld) (category key : String) : Bool × KvWorld :=
  ((w.kv (category, key)).isSome, w.remove (category, key))

end KvWorld

/-- The store under the calls of any number of clients; the outside decides the time. -/
def kvStore : Machine kvCalls KvWorld Nat where
  exec := fun _ (o : KvCall) now w =>
    match o with
    | .currentMillis => (now, w)
    | .getKv category key => (w.kv (category, key), w)
    | .createKv entry => w.createKv entry
    | .updateKv entry expectedVersion _ => w.updateKv entry expectedVersion
    | .deleteKv category key => w.deleteKv category key
  drift := fun _ _ => False
  allow := fun _ _ => True

instance (o : kvCalls.Op) (w : KvWorld) : Decidable (kvStore.allow o w) :=
  inferInstanceAs (Decidable True)

/-- The programs of the calls. -/
def TopicCall.Programs (libs : TopicLibs)
    (p : Prog kvCalls (TopicCall × Except Err TopicAnswer)) : Prop :=
  ∃ call : TopicCall, True ∧ p = call.prog libs

/-- A run of calls, computed from its moves. -/
theorem TopicCall.exists_run (M : Machine kvCalls KvWorld Nat)
    [∀ o w, Decidable (M.allow o w)] (libs : TopicLibs) (w : KvWorld)
    (moves moves' : List (Move TopicCall Nat))
    (φ ψ : Pool kvCalls KvWorld (TopicCall × Except Err TopicAnswer) → Bool)
    (h : ((M.performAll? (TopicCall.prog libs) (Pool.idle w) moves).any fun P => φ P &&
      (M.performAll? (TopicCall.prog libs) P moves').any ψ) = true) :
    ∃ P Q, M.Reaches (TopicCall.Programs libs) w P ∧ M.Run (TopicCall.Programs libs) P Q ∧
      φ P = true ∧ ψ Q = true := by
  rw [Option.any_eq_true] at h
  obtain ⟨P, hP, h⟩ := h
  rw [Bool.and_eq_true, Option.any_eq_true] at h
  obtain ⟨hφ, Q, hQ, hψ⟩ := h
  exact ⟨P, Q, Machine.run_of_performAll? (fun _ _ => trivial) hP,
    Machine.run_of_performAll? (fun _ _ => trivial) hQ, hφ, hψ⟩

end RozeDtm
