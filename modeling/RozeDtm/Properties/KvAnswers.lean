import RozeDtm.Model.Service.Kv

/-!
# KV answers at the client

What `compat_query_kv` answers with and `DtmHttpClient::query_kv` reads.  The entries of the
answer have `create_time` and `update_time` where the client's `KvEntry` asks for
`created_at_millis` and `updated_at_millis`, so only the empty answer can be read.
-/

namespace RozeDtm

/-- What a client asks of an entry. -/
def KvEntry.content (entry : KvEntry) : String × String × String × Nat :=
  (entry.category, entry.key, entry.value, entry.version)

/-- The answer with these entries comes through to the client. -/
def KvSurvives (entries : List KvEntry) : Prop :=
  ∃ decoded, queryKv (compatQueryKv (.ok entries)) = .ok decoded ∧
    decoded.map KvEntry.content = entries.map KvEntry.content

/-- Only an entry of that name sets the time of creation. -/
theorem KvEntry.Fields.read_created {fields fields' : KvEntry.Fields} {entry : String × Json}
    (hname : entry.1 ≠ "created_at_millis") (h : fields.read entry = .ok fields') :
    fields'.createdAtMillis = fields.createdAtMillis := by
  unfold KvEntry.Fields.read at h
  split at h
  · obtain ⟨_, -, h⟩ := bind_eq_ok h
    cases h
    rfl
  split at h
  · obtain ⟨_, -, h⟩ := bind_eq_ok h
    cases h
    rfl
  split at h
  · obtain ⟨_, -, h⟩ := bind_eq_ok h
    cases h
    rfl
  split at h
  · obtain ⟨_, -, h⟩ := bind_eq_ok h
    cases h
    rfl
  split at h
  · obtain ⟨_, -, h⟩ := bind_eq_ok h
    cases h
    rfl
  · cases h
    rfl

theorem KvEntry.Fields.foldlM_read_created {entries : List (String × Json)}
    {fields fields' : KvEntry.Fields} (hnames : ∀ entry ∈ entries, entry.1 ≠ "created_at_millis")
    (h : entries.foldlM KvEntry.Fields.read fields = .ok fields') :
    fields'.createdAtMillis = fields.createdAtMillis := by
  induction entries generalizing fields with
  | nil =>
    cases h
    rfl
  | cons entry entries ih =>
    obtain ⟨hname, hnames⟩ := List.forall_mem_cons.mp hnames
    obtain ⟨mid, hmid, h⟩ := bind_eq_ok h
    rw [ih hnames h, read_created hname hmid]

/-- An object without a time of creation is not a `KvEntry`. -/
theorem KvEntry.fromValue_ne_ok {entries : List (String × Json)} {entry : KvEntry}
    (hnames : ∀ entry ∈ entries, entry.1 ≠ "created_at_millis") :
    KvEntry.fromValue (.obj entries) ≠ .ok entry := by
  intro h
  obtain ⟨fields, hfields, h⟩ := bind_eq_ok h
  have hcreated : fields.createdAtMillis = none :=
    KvEntry.Fields.foldlM_read_created hnames hfields
  obtain ⟨_, -, h⟩ := bind_eq_ok h
  obtain ⟨_, -, h⟩ := bind_eq_ok h
  obtain ⟨_, -, h⟩ := bind_eq_ok h
  obtain ⟨_, -, h⟩ := bind_eq_ok h
  obtain ⟨_, hneeded, -⟩ := bind_eq_ok h
  rw [hcreated] at hneeded
  cases hneeded

/-- No entry of an answer can be read. -/
theorem fromValue_compatKvEntry (sent entry : KvEntry) :
    KvEntry.fromValue (compatKvEntry sent).toValue ≠ .ok entry := by
  apply KvEntry.fromValue_ne_ok
  simp

/-- An answer with an entry cannot be read. -/
theorem not_kvSurvives_cons {sent : KvEntry} {entries : List KvEntry} :
    ¬ KvSurvives (sent :: entries) := by
  rintro ⟨decoded, h, -⟩
  obtain ⟨_, -, h⟩ := bind_eq_ok h
  obtain ⟨kv, hkv, h⟩ := bind_eq_ok h
  cases hkv
  change List.mapM KvEntry.fromValue _ = _ at h
  rw [List.map_cons, List.mapM_cons] at h
  obtain ⟨entry, hentry, -⟩ := bind_eq_ok h
  exact fromValue_compatKvEntry sent entry hentry

/-- **A KV answer survives the way to the client exactly when it is empty.** -/
theorem kv_answer_survives_iff (entries : List KvEntry) : KvSurvives entries ↔ entries = [] := by
  constructor
  · intro h
    cases entries with
    | nil => rfl
    | cons sent entries => exact absurd h not_kvSurvives_cons
  · rintro rfl
    exact ⟨[], rfl, rfl⟩

/-- An answer with one entry that cannot be read. -/
theorem kv_answer_lost : ¬ ∀ entries, KvSurvives entries := fun h =>
  not_kvSurvives_cons (h [⟨"topics", "orders", "[]", 1, 0, 0⟩])

end RozeDtm
