import RozeDtm.Redis.Fields

/-!
# The Redis fields are unambiguous

A field of `kv_field` says in front how long its category is, so where the key begins is known
whatever characters the two have.  A field of `lease_fields` has its first colon between the name
and the role.
-/

namespace RozeDtm

open Codec

/-! ### Where a text is parted -/

/-- Texts that go up to a first colon, and what follows it. -/
theorem parted_inj {cs ds s t : List Char} (hcs : ':' ∉ cs) (hds : ':' ∉ ds)
    (h : cs ++ ':' :: s = ds ++ ':' :: t) : cs = ds ∧ s = t := by
  induction cs generalizing ds with
  | nil =>
    cases ds with
    | nil => exact ⟨rfl, (List.cons.inj h).2⟩
    | cons d ds => exact absurd (List.cons.inj h).1 (List.ne_of_not_mem_cons hds)
  | cons c cs ih =>
    cases ds with
    | nil => exact absurd (List.cons.inj h).1.symm (List.ne_of_not_mem_cons hcs)
    | cons d ds =>
      obtain ⟨rfl, hrest⟩ := List.cons.inj h
      obtain ⟨rfl, hst⟩ := ih (List.not_mem_of_not_mem_cons hcs)
        (List.not_mem_of_not_mem_cons hds) hrest
      exact ⟨rfl, hst⟩

/-- Beginnings of one text that are equally long in bytes are equal. -/
theorem eq_of_append_eq_of_utf8Size {cs ds s t : List Char} (h : cs ++ s = ds ++ t)
    (hsize : JsonText.utf8Size cs = JsonText.utf8Size ds) : cs = ds := by
  induction cs generalizing ds with
  | nil =>
    cases ds with
    | nil => rfl
    | cons d ds =>
      have hpos := d.utf8Size_pos
      rw [JsonText.utf8Size_cons] at hsize
      exact absurd hsize (by show 0 ≠ _; omega)
  | cons c cs ih =>
    cases ds with
    | nil =>
      have hpos := c.utf8Size_pos
      rw [JsonText.utf8Size_cons] at hsize
      exact absurd hsize (by show _ ≠ 0; omega)
    | cons d ds =>
      obtain ⟨rfl, hrest⟩ := List.cons.inj h
      rw [JsonText.utf8Size_cons, JsonText.utf8Size_cons] at hsize
      rw [ih hrest (Nat.add_left_cancel hsize)]

/-! ### Entries of the key-value store -/

theorem toList_kvField (category key : String) :
    (kvField category key).toList = Nat.toDigits 10 (JsonText.utf8Size category.toList) ++
      ':' :: (category.toList ++ key.toList) := by
  rw [JsonText.utf8Size_toList]
  show (toString category.utf8ByteSize ++ ":" ++ category ++ key).toList = _
  simp only [String.toList_append, Nat.toString_eq_repr, Nat.toList_repr, List.append_assoc]
  rfl

theorem kvField_inj {category key category' key' : String}
    (h : kvField category key = kvField category' key') : category = category' ∧ key = key' := by
  have hcolon (n : Nat) : ':' ∉ Nat.toDigits 10 n := Digits.not_mem_toDigits rfl n
  have hlists := congrArg String.toList h
  rw [toList_kvField, toList_kvField] at hlists
  obtain ⟨hdigits, hrest⟩ := parted_inj (hcolon _) (hcolon _) hlists
  have hsize := Digits.toDigits_injective (by decide) (by decide) hdigits
  have hcategory := eq_of_append_eq_of_utf8Size hrest hsize
  rw [hcategory] at hrest
  exact ⟨String.toList_inj.mp hcategory, String.toList_inj.mp (List.append_cancel_left hrest)⟩

/-! ### Barriers -/

theorem RedisLibs.barrierField_inj {libs : RedisLibs} {gid branchId op gid' branchId' op' : String}
    {field : String}
    (hjson : ∀ texts texts' text, libs.jsonOfTexts texts = .ok text →
      libs.jsonOfTexts texts' = .ok text → texts = texts')
    (h : libs.barrierField gid branchId op = .ok field)
    (h' : libs.barrierField gid' branchId' op' = .ok field) :
    gid = gid' ∧ branchId = branchId' ∧ op = op' := by
  have htext {texts : List String} (h : (libs.jsonOfTexts texts).mapError
      (fun _ => "encode Redis barrier field") = .ok field) : libs.jsonOfTexts texts = .ok field := by
    cases ht : libs.jsonOfTexts texts with
    | ok text =>
      rw [ht] at h
      exact h
    | error e =>
      rw [ht] at h
      cases h
  have hlist := hjson _ _ _ (htext h) (htext h')
  simp only [List.cons.injEq, and_true] at hlist
  exact hlist

/-! ### Leases -/

/-- The three fields of a lease. -/
inductive LeaseRole
  | owner
  | expiry
  | epoch
  deriving DecidableEq

/-- The field for a role among those of `lease_fields`. -/
def LeaseRole.field : LeaseRole → String × String × String → String
  | .owner, fields => fields.1
  | .expiry, fields => fields.2.1
  | .epoch, fields => fields.2.2

/-- What stands behind the colon. -/
def LeaseRole.chars : LeaseRole → List Char
  | .owner => ['o', 'w', 'n', 'e', 'r']
  | .expiry => ['e', 'x', 'p', 'i', 'r', 'y']
  | .epoch => ['e', 'p', 'o', 'c', 'h']

theorem LeaseRole.chars_injective : Function.Injective LeaseRole.chars := by
  intro role role' h
  cases role <;> cases role' <;> first | rfl | cases h

theorem RedisLibs.toList_leaseFields (libs : RedisLibs) (role : LeaseRole) (name : String) :
    (role.field (libs.leaseFields name)).toList =
      (libs.encodeBase64Url name.toUTF8.data.toList).toList ++ ':' :: role.chars := by
  cases role <;> exact String.toList_append

/-- Texts with the same bytes are equal. -/
theorem eq_of_utf8_eq {name name' : String}
    (h : name.toUTF8.data.toList = name'.toUTF8.data.toList) : name = name' :=
  String.toByteArray_inj.mp (ByteArray.ext (Array.toList_inj.mp h))

theorem RedisLibs.leaseFields_inj {libs : RedisLibs} {name name' : String} {role role' : LeaseRole}
    (hbase64 : Function.Injective libs.encodeBase64Url)
    (hcolon : ∀ bytes, ':' ∉ (libs.encodeBase64Url bytes).toList)
    (h : role.field (libs.leaseFields name) = role'.field (libs.leaseFields name')) :
    name = name' ∧ role = role' := by
  have hlists := congrArg String.toList h
  rw [libs.toList_leaseFields, libs.toList_leaseFields] at hlists
  obtain ⟨hname, hrole⟩ := parted_inj (hcolon _) (hcolon _) hlists
  exact ⟨eq_of_utf8_eq (hbase64 (String.toList_inj.mp hname)),
    LeaseRole.chars_injective hrole⟩

/-! ### All of them -/

/-- **Fields of the Redis hashes are unambiguous**, for all texts, where base64 and JSON are. -/
theorem redis_fields_unambiguous (libs : RedisLibs)
    (hbase64 : Function.Injective libs.encodeBase64Url)
    (hcolon : ∀ bytes, ':' ∉ (libs.encodeBase64Url bytes).toList)
    (hjson : ∀ texts texts' text, libs.jsonOfTexts texts = .ok text →
      libs.jsonOfTexts texts' = .ok text → texts = texts') :
    (∀ category key category' key', kvField category key = kvField category' key' →
      category = category' ∧ key = key') ∧
    (∀ gid branchId op gid' branchId' op' field, libs.barrierField gid branchId op = .ok field →
      libs.barrierField gid' branchId' op' = .ok field →
      gid = gid' ∧ branchId = branchId' ∧ op = op') ∧
    ∀ name name' (role role' : LeaseRole),
      role.field (libs.leaseFields name) = role'.field (libs.leaseFields name') →
      name = name' ∧ role = role' :=
  ⟨fun _ _ _ _ h => kvField_inj h, fun _ _ _ _ _ _ _ h h' => RedisLibs.barrierField_inj hjson h h',
    fun _ _ _ _ h => RedisLibs.leaseFields_inj hbase64 hcolon h⟩

/-! ### The packages as they are -/

theorem RedisLibs.standard_base64_injective :
    Function.Injective RedisLibs.standard.encodeBase64Url := by
  intro xs ys h
  exact Base64.encodeUrlChars_injective (String.ofList_injective h)

theorem RedisLibs.standard_base64_colon (bytes : List UInt8) :
    ':' ∉ (RedisLibs.standard.encodeBase64Url bytes).toList := by
  have hletters : ∀ n < 64, Base64.urlLetter n ≠ ':' := by decide
  have hchars := Base64.forall_encodeUrlChars (P := fun c => c ≠ ':') hletters bytes
  show ':' ∉ (String.ofList _).toList
  rw [String.toList_ofList]
  exact fun hmem => hchars _ hmem rfl

theorem RedisLibs.standard_json_injective (texts texts' : List String) (text : String)
    (h : RedisLibs.standard.jsonOfTexts texts = .ok text)
    (h' : RedisLibs.standard.jsonOfTexts texts' = .ok text) : texts = texts' := by
  have htext := Except.ok.inj (h.trans h'.symm)
  have hchars := JsonText.arrayChars_injective (String.ofList_injective htext)
  exact List.map_injective_iff.mpr (fun _ _ => String.toList_inj.mp) hchars

/-- Fields whose parts put together would be equal. -/
theorem redis_fields_unambiguous_standard :
    kvField "ab" "c" ≠ kvField "a" "bc" ∧
    (∀ field, RedisLibs.standard.barrierField "a:b" "c" "try" = .ok field →
      RedisLibs.standard.barrierField "a" "b:c" "try" ≠ .ok field) ∧
    (RedisLibs.standard.leaseFields "ab").1 ≠ (RedisLibs.standard.leaseFields "a").1 := by
  obtain ⟨hkv, hbarrier, hlease⟩ := redis_fields_unambiguous .standard
    RedisLibs.standard_base64_injective RedisLibs.standard_base64_colon
    RedisLibs.standard_json_injective
  refine ⟨?_, ?_, ?_⟩
  · intro h
    exact absurd (hkv _ _ _ _ h).1 (by decide)
  · intro field h h'
    exact absurd (hbarrier _ _ _ _ _ _ _ h h').1 (by decide)
  · intro h
    exact absurd (hlease _ _ .owner .owner h).1 (by decide)

end RozeDtm
