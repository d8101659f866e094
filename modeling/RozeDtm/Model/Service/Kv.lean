import RozeDtm.Model.Service.Compat

/-!
# KV answers

`compat_query_kv` of the service and `DtmHttpClient::query_kv` of the client library: the one
builds its answer from a `CompatKvEntry`, the other reads it as a `KvEntry`.  A body is the
`serde_json::Value` that it is printed from and read back to.
-/

namespace RozeDtm

/-! ### The service -/

structure CompatKvEntry where
  id : Nat
  createTime : String
  updateTime : String
  cat : String
  k : String
  v : String
  version : Nat
  deriving DecidableEq

/-- `compat_kv_entry`. -/
def compatKvEntry (entry : KvEntry) : CompatKvEntry where
  id := 0
  createTime := compatRfc3339 entry.createdAtMillis
  updateTime := compatRfc3339 entry.updatedAtMillis
  cat := entry.category
  k := entry.key
  v := entry.value
  version := entry.version

/-- The derived `Serialize`; an object keeps its entries in key order. -/
def CompatKvEntry.toValue (entry : CompatKvEntry) : Json :=
  .obj [("cat", .str entry.cat), ("create_time", .str entry.createTime),
    ("id", .num (toString entry.id)), ("k", .str entry.k),
    ("update_time", .str entry.updateTime), ("v", .str entry.v),
    ("version", .num (toString entry.version))]

/-- An HTTP response with a JSON body. -/
structure JsonResponse where
  status : Nat
  body : Json

/-- `compat_query_kv`, once `list_kv` has answered with `entries`. -/
def compatQueryKv (entries : Except Err (List KvEntry)) : JsonResponse :=
  match entries with
  | .ok entries =>
    ⟨200, .obj [("dtm_result", .str "SUCCESS"),
      ("kv", .arr (entries.map fun entry => (compatKvEntry entry).toValue))]⟩
  | .error _ =>
    ⟨400, .obj [("dtm_result", .str "FAILURE"), ("message", .str "KV query failed")]⟩

/-! ### The client -/

namespace KvEntry

/-- What is known of a `KvEntry` while its object is read. -/
structure Fields where
  category : Option String
  key : Option String
  value : Option String
  version : Option Nat
  createdAtMillis : Option Nat
  updatedAtMillis : Option Nat

/-- A field of an object, which must not come twice. -/
def once {α : Type} (name : String) (old : Option α) (read : Except Err α) :
    Except Err (Option α) :=
  if old.isSome then .error s!"duplicate field `{name}`" else read.map some

/-- A `String` of `serde`. -/
def readText (value : Json) : Except Err String :=
  value.asStr?.elim (.error "invalid type, expected a string") .ok

/-- A `u64` of `serde`. -/
def readNumber (value : Json) : Except Err Nat :=
  value.asU64?.elim (.error "invalid type, expected u64") .ok

/-- One entry of the object: each field under its name or its alias, others ignored. -/
def Fields.read (fields : Fields) (entry : String × Json) : Except Err Fields :=
  if entry.1 = "cat" ∨ entry.1 = "category" then do
    return { fields with category := ← once "cat" fields.category (readText entry.2) }
  else if entry.1 = "k" ∨ entry.1 = "key" then do
    return { fields with key := ← once "k" fields.key (readText entry.2) }
  else if entry.1 = "v" ∨ entry.1 = "value" then do
    return { fields with value := ← once "v" fields.value (readText entry.2) }
  else if entry.1 = "version" then do
    return { fields with version := ← once "version" fields.version (readNumber entry.2) }
  else if entry.1 = "created_at_millis" then do
    return { fields with
      createdAtMillis := ← once "created_at_millis" fields.createdAtMillis (readNumber entry.2) }
  else if entry.1 = "updated_at_millis" then do
    return { fields with
      updatedAtMillis := ← once "updated_at_millis" fields.updatedAtMillis (readNumber entry.2) }
  else .ok fields

/-- A field that must have come. -/
def needed {α : Type} (name : String) (field : Option α) : Except Err α :=
  field.elim (.error s!"missing field `{name}`") .ok

/-- The derived `Deserialize`: from an object by name, from an array by position. -/
def fromValue : Json → Except Err KvEntry
  | .obj entries => do
    let fields ← entries.foldlM Fields.read ⟨none, none, none, none, none, none⟩
    return {
      category := ← needed "cat" fields.category
      key := ← needed "k" fields.key
      value := ← needed "v" fields.value
      version := ← needed "version" fields.version
      createdAtMillis := ← needed "created_at_millis" fields.createdAtMillis
      updatedAtMillis := ← needed "updated_at_millis" fields.updatedAtMillis }
  | .arr [category, key, value, version, created, updated] => do
    return {
      category := ← readText category
      key := ← readText key
      value := ← readText value
      version := ← readNumber version
      createdAtMillis := ← readNumber created
      updatedAtMillis := ← readNumber updated }
  | .arr _ => .error "invalid length, expected struct KvEntry with 6 elements"
  | _ => .error "invalid type, expected struct KvEntry"

/-- `serde_json::from_value` at `Vec<KvEntry>`. -/
def listFromValue : Json → Except Err (List KvEntry)
  | .arr items => items.mapM fromValue
  | _ => .error "invalid type, expected a sequence"

end KvEntry

/-- `DtmHttpClient::query_kv`, once the response is there. -/
def queryKv (response : JsonResponse) : Except Err (List KvEntry) := do
  ensure (200 ≤ response.status && response.status ≤ 299)
    s!"DTM KV query failed with status {response.status}"
  let kv ← match response.body with
    | .obj entries => (entries.lookup "kv").elim (.error "KV response did not contain kv") .ok
    | _ => .error "KV response did not contain kv"
  KvEntry.listFromValue kv

end RozeDtm
