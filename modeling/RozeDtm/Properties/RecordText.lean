import RozeDtm.Model.Serde
import RozeDtm.Properties.NextRecovery

/-!
# The text of a stored transaction

`Transaction.ofText_toText`: a transaction is read back from its text as it was, unless the
payload of a branch nests deeper than 124, which with the three levels of the record around it is
beyond the recursion limit; then it is not read back at all.

A number of a payload has to be read as it is printed, which for a float `serde_json` does not
promise.
-/

namespace RozeDtm

open Codec.JsonText Serde

/-! ### Trees -/

/-- Induction with what is said of each item and each value. -/
theorem Json.induction {P : Json → Prop} (null : P .null) (bool : ∀ b, P (.bool b))
    (num : ∀ l, P (.num l)) (str : ∀ s, P (.str s))
    (arr : ∀ items, (∀ v ∈ items, P v) → P (.arr items))
    (obj : ∀ entries, (∀ e ∈ entries, P e.2) → P (.obj entries)) (v : Json) : P v :=
  @Json.rec P (fun items => ∀ v ∈ items, P v) (fun entries => ∀ e ∈ entries, P e.2)
    (fun e => P e.2) null bool num str arr obj (fun _ h => absurd h List.not_mem_nil)
    (fun _ _ hd hds => List.forall_mem_cons.mpr ⟨hd, hds⟩)
    (fun _ h => absurd h List.not_mem_nil)
    (fun _ _ he hes => List.forall_mem_cons.mpr ⟨he, hes⟩) (fun _ _ h => h) v

/-- The tree of what a value is printed as is the value. -/
theorem Json.ofDoc_toDoc (v : Json) : Json.ofDoc v.toDoc = v := by
  induction v using Json.induction with
  | null => rfl
  | bool b => rfl
  | num l => rw [Json.toDoc, Json.ofDoc, String.ofList_toList]
  | str s => rw [Json.toDoc, Json.ofDoc, String.ofList_toList]
  | arr items ih =>
    have hitems : Json.ofDocs (Json.toDocs items) = items := by
      induction items with
      | nil => rfl
      | cons v vs ihs =>
        rw [List.forall_mem_cons] at ih
        rw [Json.toDocs, Json.ofDocs, ih.1, ihs ih.2]
    rw [Json.toDoc, Json.ofDoc, hitems]
  | obj entries ih =>
    have hentries : Json.ofDocEntries (Json.toDocEntries entries) = entries := by
      induction entries with
      | nil => rfl
      | cons e es ihs =>
        obtain ⟨key, v⟩ := e
        rw [List.forall_mem_cons] at ih
        rw [Json.toDocEntries, Json.ofDocEntries, ih.1, ihs ih.2, String.ofList_toList]
    rw [Json.toDoc, Json.ofDoc, hentries]

/-! ### Nesting and numbers -/

/-- Every number of the value is one. -/
def Json.Numbers (v : Json) : Prop := ∀ l ∈ v.toDoc.literals, IsNumber l

theorem Json.numbers_arr {items : List Json} :
    (Json.arr items).Numbers ↔ ∀ v ∈ items, v.Numbers := by
  simp only [Json.Numbers, Json.toDoc, Doc.literals]
  induction items with
  | nil =>
    exact ⟨fun _ _ hv => absurd hv List.not_mem_nil, fun _ _ hl => absurd hl List.not_mem_nil⟩
  | cons v vs ih =>
    rw [Json.toDocs, Doc.itemsLiterals, List.forall_mem_append, List.forall_mem_cons, ih]

theorem Json.numbers_obj {entries : List (String × Json)} :
    (Json.obj entries).Numbers ↔ ∀ e ∈ entries, e.2.Numbers := by
  simp only [Json.Numbers, Json.toDoc, Doc.literals]
  induction entries with
  | nil =>
    exact ⟨fun _ _ hv => absurd hv List.not_mem_nil, fun _ _ hl => absurd hl List.not_mem_nil⟩
  | cons e es ih =>
    rw [Json.toDocEntries, Doc.entriesLiterals, List.forall_mem_append, List.forall_mem_cons, ih]

theorem Json.numbers_str (s : String) : (Json.str s).Numbers := fun _ hl => by cases hl

theorem Json.nesting_arr_le {items : List Json} {n : Nat} :
    (Json.arr items).nesting ≤ n + 1 ↔ ∀ v ∈ items, v.nesting ≤ n := by
  have hitems : Doc.itemsNesting (Json.toDocs items) ≤ n ↔ ∀ v ∈ items, v.nesting ≤ n := by
    induction items with
    | nil => exact ⟨fun _ _ hv => absurd hv List.not_mem_nil, fun _ => Nat.zero_le n⟩
    | cons v vs ih =>
      rw [Json.toDocs, Doc.itemsNesting, Nat.max_le, List.forall_mem_cons, ih]
      rfl
  rw [← hitems]
  exact Nat.succ_le_succ_iff

theorem Json.nesting_obj_le {entries : List (String × Json)} {n : Nat} :
    (Json.obj entries).nesting ≤ n + 1 ↔ ∀ e ∈ entries, e.2.nesting ≤ n := by
  have hentries : Doc.entriesNesting (Json.toDocEntries entries) ≤ n ↔
      ∀ e ∈ entries, e.2.nesting ≤ n := by
    induction entries with
    | nil => exact ⟨fun _ _ hv => absurd hv List.not_mem_nil, fun _ => Nat.zero_le n⟩
    | cons e es ih =>
      rw [Json.toDocEntries, Doc.entriesNesting, Nat.max_le, List.forall_mem_cons, ih]
      rfl
  rw [← hentries]
  exact Nat.succ_le_succ_iff

/-- **A value that is printed is read**, up to the recursion limit. -/
theorem Json.tree_text {v : Json} (hv : v.Numbers) :
    Json.tree v.text = if v.nesting ≤ nestingLimit then .ok v else .error "invalid JSON text" := by
  rw [Json.tree, Json.text, String.toList_ofList, parse_chars hv]
  by_cases hnest : v.toDoc.nesting ≤ nestingLimit
  · rw [if_pos hnest, Option.elim_some, Json.ofDoc_toDoc]
    exact (if_pos hnest).symm
  · rw [if_neg hnest]
    exact (if_neg hnest).symm

/-! ### Values -/

/-- A value as `serde_json` holds it: keys in order, and numbers that are read as they are
printed. -/
inductive Json.Held (floats : String → Option String) : Json → Prop
  | null : Held floats .null
  | bool (b : Bool) : Held floats (.bool b)
  | num {literal : String} (hnum : IsNumber literal.toList)
      (hread : Json.readLiteral floats literal = some literal) : Held floats (.num literal)
  | str (s : String) : Held floats (.str s)
  | arr {items : List Json} (h : ∀ v ∈ items, Held floats v) : Held floats (.arr items)
  | obj {entries : List (String × Json)}
      (hkeys : entries.Pairwise fun a b => compare a.1 b.1 = .lt)
      (h : ∀ e ∈ entries, Held floats e.2) : Held floats (.obj entries)

variable {floats : String → Option String}

theorem Json.Held.numbers {v : Json} (hv : v.Held floats) : v.Numbers := by
  induction hv with
  | null => exact fun _ hl => by cases hl
  | bool b => exact fun _ hl => by cases hl
  | num hnum => exact fun _ hl => by rw [List.mem_singleton.mp hl]; exact hnum
  | str s => exact Json.numbers_str s
  | arr _ ih => exact Json.numbers_arr.mpr ih
  | obj _ _ ih => exact Json.numbers_obj.mpr ih

/-- The entries of a map that is made of entries in order. -/
theorem toList_ofList {α : Type} {entries : List (String × α)}
    (h : entries.Pairwise fun a b => compare a.1 b.1 = .lt) :
    (Std.ExtTreeMap.ofList entries).toList = entries := by
  have hdistinct : entries.Pairwise fun a b => ¬ compare a.1 b.1 = .eq :=
    h.imp fun hab => by rw [hab]; decide
  have hmem (key : String) (v : α) :
      (key, v) ∈ (Std.ExtTreeMap.ofList entries).toList ↔ (key, v) ∈ entries := by
    rw [Std.ExtTreeMap.mem_toList_iff_getElem?_eq_some]
    have hget {v' : α} (hv : (key, v') ∈ entries) :
        (Std.ExtTreeMap.ofList entries)[key]? = some v' :=
      Std.ExtTreeMap.getElem?_ofList_of_mem Std.ReflCmp.compare_self hdistinct hv
    refine ⟨fun hv => ?_, hget⟩
    by_cases hkey : ∃ v', (key, v') ∈ entries
    · obtain ⟨v', hv'⟩ := hkey
      rw [hget hv'] at hv
      cases hv
      exact hv'
    · have hnone : (entries.map Prod.fst).contains key = false := by
        rw [List.contains_eq_mem, decide_eq_false_iff_not, List.mem_map]
        rintro ⟨⟨key', v'⟩, hv', rfl⟩
        exact hkey ⟨v', hv'⟩
      rw [Std.ExtTreeMap.getElem?_ofList_of_contains_eq_false hnone] at hv
      cases hv
  have hnodup {l : List (String × α)} (hl : l.Pairwise fun a b => compare a.1 b.1 = .lt) :
      l.Nodup := hl.imp fun {a b} hab heq => by
    have hself : compare b.1 b.1 = .eq := Std.ReflCmp.compare_self
    rw [heq, hself] at hab
    cases hab
  have hordered := (Std.ExtTreeMap.ofList entries).ordered_keys_toList
  refine List.Perm.eq_of_pairwise ?_ hordered h ((List.perm_ext_iff_of_nodup (hnodup hordered)
    (hnodup h)).mpr fun e => hmem e.1 e.2)
  intro a b _ _ hab hba
  have hswap : compare a.1 b.1 = (compare b.1 a.1).swap := Std.OrientedCmp.eq_swap
  rw [hswap, hba] at hab
  cases hab

theorem ofList_toList {α : Type} (m : Std.ExtTreeMap String α) :
    Std.ExtTreeMap.ofList m.toList = m :=
  Std.ExtTreeMap.toList_inj.mp (toList_ofList m.ordered_keys_toList)

/-- A value that is held is read as it is. -/
theorem Json.Held.value_eq {v : Json} (hv : v.Held floats) : v.value floats = .ok v := by
  induction hv with
  | null => rfl
  | bool b => rfl
  | num _ hread => rw [Json.value, hread]; rfl
  | str s => rfl
  | @arr items hheld ih =>
    have hitems : Json.values floats items = .ok items := by
      clear hheld
      induction items with
      | nil => rfl
      | cons v vs ihs =>
        rw [List.forall_mem_cons] at ih
        rw [Json.values, ih.1, ihs ih.2]
        rfl
    rw [Json.value, hitems]
    rfl
  | @obj entries hkeys hheld ih =>
    have hentries : Json.valueEntries floats entries = .ok entries := by
      clear hkeys hheld
      induction entries with
      | nil => rfl
      | cons e es ihs =>
        obtain ⟨key, v⟩ := e
        rw [List.forall_mem_cons] at ih
        rw [Json.valueEntries, ih.1, ihs ih.2]
        rfl
    have hmap := toList_ofList hkeys
    rw [Json.value, hentries]
    show Except.ok (Json.obj (Std.ExtTreeMap.ofList entries).toList) = _
    rw [hmap]

/-! ### Fields -/

section Fields

variable {α : Type} {entries : List (String × Json)} {name : String}

/-- The field of a name that comes once. -/
theorem structField_of_mem (h : (entries.map Prod.fst).Nodup) {value : Json}
    (hmem : (name, value) ∈ entries) : structField entries name = .ok (some value) := by
  have hfilter : (entries.filter fun entry => entry.1 = name) = [(name, value)] := by
    induction entries with
    | nil => cases hmem
    | cons e es ih =>
      rw [List.map_cons, List.nodup_cons] at h
      rcases List.mem_cons.mp hmem with rfl | hmem
      · have hnone : (es.filter fun entry => entry.1 = name) = [] := by
          rw [List.filter_eq_nil_iff]
          intro entry he hname
          rw [decide_eq_true_eq] at hname
          exact h.1 (List.mem_map.mpr ⟨entry, he, hname⟩)
        rw [List.filter_cons_of_pos (by simp), hnone]
      · have hne : e.1 ≠ name := by
          intro heq
          exact h.1 (heq ▸ List.mem_map_of_mem hmem)
        rw [List.filter_cons_of_neg (by simpa using hne)]
        exact ih h.2 hmem
  rw [structField, hfilter]

theorem structField_of_not_mem (h : name ∉ entries.map Prod.fst) :
    structField entries name = .ok none := by
  have hfilter : (entries.filter fun entry => entry.1 = name) = [] := by
    rw [List.filter_eq_nil_iff]
    intro entry he hname
    rw [decide_eq_true_eq] at hname
    exact h (List.mem_map.mpr ⟨entry, he, hname⟩)
  rw [structField, hfilter]

variable (h : (entries.map Prod.fst).Nodup) {read : Json → Except Err α} {value : Json} {a : α}

include h

theorem required_of_mem (hmem : (name, value) ∈ entries) (hread : read value = .ok a) :
    required read entries name = .ok a := by
  rw [required, structField_of_mem h hmem]
  exact hread

theorem defaulted_of_mem (hmem : (name, value) ∈ entries) (hread : read value = .ok a)
    (default : α) : defaulted default read entries name = .ok a := by
  rw [defaulted, structField_of_mem h hmem]
  exact hread

end Fields

/-- What is written of an `Option` is read. -/
theorem readOption_writeOption {α : Type} {read : Json → Except Err α} {write : α → Json}
    {option : Option α} (h : ∀ a ∈ option, read (write a) = .ok a ∧ write a ≠ .null) :
    readOption read (writeOption write option) = .ok option := by
  cases option with
  | none => rfl
  | some a =>
    obtain ⟨hread, hnull⟩ := h a rfl
    have hvalue : readOption read (write a) = (read (write a)).map some := by
      rw [readOption.eq_def]
      split
      · rename_i hwrite
        exact absurd hwrite hnull
      · rfl
    rw [writeOption, hvalue, hread]
    rfl

theorem readNumber_writeNumber {n : Nat} (h : n ≤ u64Max) :
    KvEntry.readNumber (writeNumber n) = .ok n := by
  rw [KvEntry.readNumber, writeNumber, Json.asU64?, parseUnsigned_toString h]
  rfl

theorem readU32_writeNumber {n : Nat} (h : n ≤ u32Max) : readU32 (writeNumber n) = .ok n := by
  have h64 : n ≤ u64Max := Nat.le_trans h (by decide)
  rw [readU32, readNumber_writeNumber h64]
  show (ensure (n ≤ u32Max) _ >>= fun _ => pure n) = _
  rw [ensure, if_pos (by simpa using h)]
  rfl

theorem readVariant_name {α : Type} {name : α → String} {variants : List α} {v : α}
    (hmem : v ∈ variants) (hname : ∀ w ∈ variants, name w = name v → w = v) :
    readVariant name variants (.str (name v)) = .ok v := by
  have hfind : (variants.find? fun w => name w = name v) = some v := by
    cases hf : variants.find? fun w => decide (name w = name v) with
    | none =>
      have hnone := List.find?_eq_none.mp hf v hmem
      simp at hnone
    | some w =>
      have hw := hname w (List.mem_of_find?_eq_some hf) (by simpa using List.find?_some hf)
      rw [hw]
  show (variants.find? fun w => name w = name v).elim _ Except.ok = _
  rw [hfind]
  rfl

theorem readVec_map {α : Type} {read : Json → Except Err α} {write : α → Json} {items : List α}
    (h : ∀ a ∈ items, read (write a) = .ok a) :
    readVec read (.arr (items.map write)) = .ok items := by
  show (items.map write).mapM read = _
  induction items with
  | nil => rfl
  | cons a items ih =>
    rw [List.forall_mem_cons] at h
    rw [List.map_cons, List.mapM_cons, h.1, ih h.2]
    rfl

theorem mapM_readTextEntry (entries : List (String × String)) :
    (entries.map fun entry => (entry.1, Json.str entry.2)).mapM readTextEntry = .ok entries := by
  induction entries with
  | nil => rfl
  | cons e es ih =>
    rw [List.map_cons, List.mapM_cons, ih]
    rfl

theorem readMap_writeMap (m : Std.ExtTreeMap String String) : readMap (writeMap m) = .ok m := by
  rw [writeMap, readMap, mapM_readTextEntry]
  show Except.ok (Std.ExtTreeMap.ofList m.toList) = _
  rw [ofList_toList]

/-! ### Records -/

/-- What the types of the fields promise, and the numbers of the payload. -/
structure Branch.Typed (floats : String → Option String) (branch : Branch) : Prop where
  attempts : branch.attempts ≤ u32Max
  nextRetryMillis : ∀ n ∈ branch.nextRetryMillis, n ≤ u64Max
  payload : branch.payload.Held floats

/-- What the types of the fields promise. -/
structure TransactionOptions.Typed (options : TransactionOptions) : Prop where
  delayMillis : ∀ n ∈ options.delayMillis, n ≤ u64Max
  retryIntervalMillis : ∀ n ∈ options.retryIntervalMillis, n ≤ u64Max
  requestTimeoutMillis : ∀ n ∈ options.requestTimeoutMillis, n ≤ u64Max
  retryLimit : ∀ n ∈ options.retryLimit, n ≤ u32Max

/-- What the types of the fields promise, and the numbers of the payloads. -/
structure Transaction.Typed (floats : String → Option String) (tx : Transaction) : Prop where
  branches : ∀ b ∈ tx.branches, b.Typed floats
  createdAtMillis : tx.createdAtMillis ≤ u64Max
  updatedAtMillis : tx.updatedAtMillis ≤ u64Max
  revision : tx.revision ≤ u64Max
  timeoutMillis : ∀ n ∈ tx.timeoutMillis, n ≤ u64Max
  options : tx.options.Typed

theorem readBool_bool (b : Bool) : readBool (.bool b) = .ok b := rfl

theorem readOption_text (text : Option String) :
    readOption KvEntry.readText (writeOption .str text) = .ok text :=
  readOption_writeOption fun _ _ => ⟨rfl, fun h => by cases h⟩

theorem readOption_number {n : Option Nat} (h : ∀ m ∈ n, m ≤ u64Max) :
    readOption KvEntry.readNumber (writeOption writeNumber n) = .ok n :=
  readOption_writeOption fun m hm => ⟨readNumber_writeNumber (h m hm), fun h => by cases h⟩

theorem readOption_u32 {n : Option Nat} (h : ∀ m ∈ n, m ≤ u32Max) :
    readOption readU32 (writeOption writeNumber n) = .ok n :=
  readOption_writeOption fun m hm => ⟨readU32_writeNumber (h m hm), fun h => by cases h⟩

theorem Branch.fromValue_entries {b : Branch} (hb : b.Typed floats) :
    Branch.fromValue floats (.obj b.entries) = .ok b := by
  have hnodup : (b.entries.map Prod.fst).Nodup := by
    change Branch.fields.Nodup
    decide
  have hid : required KvEntry.readText b.entries "id" = .ok b.id :=
    required_of_mem hnodup (List.mem_of_getElem? (i := 0) rfl) rfl
  have hkind : required (readVariant BranchKind.name BranchKind.variants) b.entries "kind" =
      .ok b.kind :=
    required_of_mem hnodup (List.mem_of_getElem? (i := 1) rfl)
      (readVariant_name (by cases b.kind <;> decide) (by cases b.kind <;> decide))
  have haction : required KvEntry.readText b.entries "action" = .ok b.action :=
    required_of_mem hnodup (List.mem_of_getElem? (i := 2) rfl) rfl
  have hcompensate : optional KvEntry.readText b.entries "compensate" = .ok b.compensate :=
    defaulted_of_mem hnodup (List.mem_of_getElem? (i := 3) rfl) (readOption_text _) none
  have hconfirm : optional KvEntry.readText b.entries "confirm" = .ok b.confirm :=
    defaulted_of_mem hnodup (List.mem_of_getElem? (i := 4) rfl) (readOption_text _) none
  have hcancel : optional KvEntry.readText b.entries "cancel" = .ok b.cancel :=
    defaulted_of_mem hnodup (List.mem_of_getElem? (i := 5) rfl) (readOption_text _) none
  have hpayload : required (Json.value floats) b.entries "payload" = .ok b.payload :=
    required_of_mem hnodup (List.mem_of_getElem? (i := 6) rfl) hb.payload.value_eq
  have hstatus : required (readVariant BranchStatus.name BranchStatus.variants) b.entries
      "status" = .ok b.status :=
    required_of_mem hnodup (List.mem_of_getElem? (i := 7) rfl)
      (readVariant_name (by cases b.status <;> decide) (by cases b.status <;> decide))
  have hattempts : required readU32 b.entries "attempts" = .ok b.attempts :=
    required_of_mem hnodup (List.mem_of_getElem? (i := 8) rfl) (readU32_writeNumber hb.attempts)
  have hlastError : optional KvEntry.readText b.entries "last_error" = .ok b.lastError :=
    defaulted_of_mem hnodup (List.mem_of_getElem? (i := 9) rfl) (readOption_text _) none
  have hnext : optional KvEntry.readNumber b.entries "next_retry_millis" =
      .ok b.nextRetryMillis :=
    defaulted_of_mem hnodup (List.mem_of_getElem? (i := 10) rfl)
      (readOption_number hb.nextRetryMillis) none
  have hdependencies : defaulted [] (readVec KvEntry.readText) b.entries "dependencies" =
      .ok b.dependencies :=
    defaulted_of_mem hnodup (List.mem_of_getElem? (i := 11) rfl) (readVec_map fun _ _ => rfl) []
  simp only [Branch.fromValue, structEntries, hid, hkind, haction, hcompensate, hconfirm, hcancel,
    hpayload, hstatus, hattempts, hlastError, hnext, hdependencies, bind, Except.bind]
  rfl

theorem WorkflowProgress.fromValue_entries (p : WorkflowProgress) :
    WorkflowProgress.fromValue (.obj p.entries) = .ok p := by
  have hnodup : (p.entries.map Prod.fst).Nodup := by
    change WorkflowProgress.fields.Nodup
    decide
  have hbranchId : required KvEntry.readText p.entries "branch_id" = .ok p.branchId :=
    required_of_mem hnodup (List.mem_of_getElem? (i := 0) rfl) rfl
  have hoperation : required KvEntry.readText p.entries "operation" = .ok p.operation :=
    required_of_mem hnodup (List.mem_of_getElem? (i := 1) rfl) rfl
  have hstatus : required
      (readVariant WorkflowProgressStatus.name WorkflowProgressStatus.variants) p.entries
      "status" = .ok p.status :=
    required_of_mem hnodup (List.mem_of_getElem? (i := 2) rfl)
      (readVariant_name (by cases p.status <;> decide) (by cases p.status <;> decide))
  have hdata : required readBytes p.entries "data" = .ok p.data := by
    refine required_of_mem hnodup (List.mem_of_getElem? (i := 3) rfl) ?_
    show (Codec.Base64.decode (Codec.Base64.encode p.data)).elim _ Except.ok = _
    rw [Codec.Base64.decode_encode]
    rfl
  simp only [WorkflowProgress.fromValue, structEntries, hbranchId, hoperation, hstatus, hdata,
    bind, Except.bind]
  rfl

theorem TransactionOptions.fromValue_entries {o : TransactionOptions} (ho : o.Typed) :
    TransactionOptions.fromValue (.obj o.entries) = .ok o := by
  have hnodup : (o.entries.map Prod.fst).Nodup := by
    change TransactionOptions.fields.Nodup
    decide
  have hwait : defaulted false readBool o.entries "wait_result" = .ok o.waitResult :=
    defaulted_of_mem hnodup (List.mem_of_getElem? (i := 0) rfl) (readBool_bool _) false
  have hconcurrent : defaulted false readBool o.entries "concurrent" = .ok o.concurrent :=
    defaulted_of_mem hnodup (List.mem_of_getElem? (i := 1) rfl) (readBool_bool _) false
  have hdelay : optional KvEntry.readNumber o.entries "delay_millis" = .ok o.delayMillis :=
    defaulted_of_mem hnodup (List.mem_of_getElem? (i := 2) rfl)
      (readOption_number ho.delayMillis) none
  have hinterval : optional KvEntry.readNumber o.entries "retry_interval_millis" =
      .ok o.retryIntervalMillis :=
    defaulted_of_mem hnodup (List.mem_of_getElem? (i := 3) rfl)
      (readOption_number ho.retryIntervalMillis) none
  have htimeout : optional KvEntry.readNumber o.entries "request_timeout_millis" =
      .ok o.requestTimeoutMillis :=
    defaulted_of_mem hnodup (List.mem_of_getElem? (i := 4) rfl)
      (readOption_number ho.requestTimeoutMillis) none
  have hlimit : optional readU32 o.entries "retry_limit" = .ok o.retryLimit :=
    defaulted_of_mem hnodup (List.mem_of_getElem? (i := 5) rfl) (readOption_u32 ho.retryLimit) none
  have hheaders : defaulted ∅ readMap o.entries "branch_headers" = .ok o.branchHeaders :=
    defaulted_of_mem hnodup (List.mem_of_getElem? (i := 6) rfl) (readMap_writeMap _) ∅
  simp only [TransactionOptions.fromValue, structEntries, hwait, hconcurrent, hdelay, hinterval,
    htimeout, hlimit, hheaders, bind, Except.bind]
  rfl

/-- The names of the fields that are written. -/
theorem Transaction.map_entries (tx : Transaction) :
    (tx.entries.map Prod.fst) =
      if tx.workflowProgresses.isEmpty then Transaction.fields.filter (· ≠ "workflow_progresses")
      else Transaction.fields := by
  rw [Transaction.entries, Transaction.progressEntries]
  by_cases h : tx.workflowProgresses.isEmpty = true
  · rw [if_pos h, if_pos h]
    rfl
  · rw [if_neg h, if_neg h]
    rfl

/-- The progresses are read, whether they are written or left out. -/
theorem readProgresses (tx : Transaction) :
    defaulted [] (readVec WorkflowProgress.fromValue) tx.entries "workflow_progresses" =
      .ok tx.workflowProgresses := by
  have hmap := tx.map_entries
  by_cases h : tx.workflowProgresses.isEmpty = true
  · rw [if_pos h] at hmap
    have hnone : "workflow_progresses" ∉ tx.entries.map Prod.fst := by
      rw [hmap]
      decide
    rw [defaulted, structField_of_not_mem hnone, List.isEmpty_iff.mp h]
    rfl
  · rw [if_neg h] at hmap
    have hnodup : (tx.entries.map Prod.fst).Nodup := by
      rw [hmap]
      decide
    have hmem : ("workflow_progresses",
        Json.arr (tx.workflowProgresses.map fun p => .obj p.entries)) ∈ tx.entries := by
      rw [Transaction.entries, Transaction.progressEntries, if_neg h]
      exact List.mem_append_left _ (List.mem_append_right _ List.mem_cons_self)
    exact defaulted_of_mem hnodup hmem (readVec_map fun p _ => p.fromValue_entries) []

theorem Transaction.fromValue_entries {tx : Transaction} (h : tx.Typed floats) :
    Transaction.fromValue floats (.obj tx.entries) = .ok tx := by
  have hnodup : (tx.entries.map Prod.fst).Nodup := by
    rw [tx.map_entries]
    split
    · decide
    · decide
  have hgid : required KvEntry.readText tx.entries "gid" = .ok tx.gid :=
    required_of_mem hnodup (List.mem_of_getElem? (i := 0) rfl) rfl
  have hkind : required (readVariant TransactionKind.debug TransactionKind.variants) tx.entries
      "kind" = .ok tx.kind :=
    required_of_mem hnodup (List.mem_of_getElem? (i := 1) rfl)
      (readVariant_name (by cases tx.kind <;> decide) (by cases tx.kind <;> decide))
  have hstatus : required (readVariant TransactionStatus.debug TransactionStatus.variants)
      tx.entries "status" = .ok tx.status :=
    required_of_mem hnodup (List.mem_of_getElem? (i := 2) rfl)
      (readVariant_name (by cases tx.status <;> decide) (by cases tx.status <;> decide))
  have hbranches : required (readVec (Branch.fromValue floats)) tx.entries "branches" =
      .ok tx.branches :=
    required_of_mem hnodup (List.mem_of_getElem? (i := 3) rfl)
      (readVec_map fun b hb => Branch.fromValue_entries (h.branches b hb))
  have hcreated : required KvEntry.readNumber tx.entries "created_at_millis" =
      .ok tx.createdAtMillis :=
    required_of_mem hnodup (List.mem_of_getElem? (i := 4) rfl)
      (readNumber_writeNumber h.createdAtMillis)
  have hupdated : required KvEntry.readNumber tx.entries "updated_at_millis" =
      .ok tx.updatedAtMillis :=
    required_of_mem hnodup (List.mem_of_getElem? (i := 5) rfl)
      (readNumber_writeNumber h.updatedAtMillis)
  have hrevision : defaulted 0 KvEntry.readNumber tx.entries "revision" = .ok tx.revision :=
    defaulted_of_mem hnodup (List.mem_of_getElem? (i := 6) rfl)
      (readNumber_writeNumber h.revision) 0
  have htimeout : optional KvEntry.readNumber tx.entries "timeout_millis" =
      .ok tx.timeoutMillis :=
    defaulted_of_mem hnodup (List.mem_of_getElem? (i := 7) rfl)
      (readOption_number h.timeoutMillis) none
  have hoptions : defaulted .default TransactionOptions.fromValue tx.entries "options" =
      .ok tx.options :=
    defaulted_of_mem hnodup (List.mem_of_getElem? (i := 8) rfl)
      (TransactionOptions.fromValue_entries h.options) .default
  have hmetadata : required readMap tx.entries "metadata" = .ok tx.metadata :=
    required_of_mem hnodup (List.mem_append_right _ List.mem_cons_self) (readMap_writeMap _)
  simp only [Transaction.fromValue, structEntries, hgid, hkind, hstatus, hbranches, hcreated,
    hupdated, hrevision, htimeout, hoptions, readProgresses, hmetadata, bind, Except.bind]
  rfl

/-! ### The text of a record -/

/-- A value without numbers that are none, which nests at most `n` deep. -/
structure Json.Within (n : Nat) (v : Json) : Prop where
  numbers : v.Numbers
  nesting : v.nesting ≤ n

theorem Json.within_arr {items : List Json} {n : Nat} (h : ∀ v ∈ items, v.Within n) :
    (Json.arr items).Within (n + 1) :=
  ⟨Json.numbers_arr.mpr fun v hv => (h v hv).numbers,
    Json.nesting_arr_le.mpr fun v hv => (h v hv).nesting⟩

theorem Json.within_obj {entries : List (String × Json)} {n : Nat}
    (h : ∀ e ∈ entries, e.2.Within n) : (Json.obj entries).Within (n + 1) :=
  ⟨Json.numbers_obj.mpr fun e he => (h e he).numbers,
    Json.nesting_obj_le.mpr fun e he => (h e he).nesting⟩

theorem Json.Within.mono {v : Json} {m n : Nat} (h : v.Within m) (hmn : m ≤ n) : v.Within n :=
  ⟨h.numbers, Nat.le_trans h.nesting hmn⟩

variable {n : Nat}

theorem within_str (s : String) : (Json.str s).Within n := ⟨Json.numbers_str s, Nat.zero_le n⟩

theorem within_bool (b : Bool) : (Json.bool b).Within n :=
  ⟨fun _ hl => absurd hl List.not_mem_nil, Nat.zero_le n⟩

theorem within_writeNumber (m : Nat) : (writeNumber m).Within n := by
  refine ⟨fun l hl => ?_, Nat.zero_le n⟩
  have htext : (toString m).toList = Nat.toDigits 10 m := Nat.toList_repr
  rw [List.mem_singleton.mp hl, htext]
  exact isNumber_toDigits m

theorem within_writeOption {α : Type} {write : α → Json} (option : Option α)
    (h : ∀ a, (write a).Within n) : (writeOption write option).Within n := by
  cases option with
  | none => exact ⟨fun _ hl => absurd hl List.not_mem_nil, Nat.zero_le n⟩
  | some a => exact h a

theorem within_writeMap (m : Std.ExtTreeMap String String) : (writeMap m).Within (n + 1) := by
  refine Json.within_obj fun e he => ?_
  obtain ⟨entry, -, rfl⟩ := List.mem_map.mp he
  exact within_str _

theorem within_branch {b : Branch} (hb : b.payload.Within n) (hn : 0 < n) :
    (Json.obj b.entries).Within (n + 1) := by
  have hdependencies : (Json.arr (b.dependencies.map .str)).Within n := by
    refine (Json.within_arr (n := 0) fun v hv => ?_).mono hn
    obtain ⟨s, -, rfl⟩ := List.mem_map.mp hv
    exact within_str s
  refine Json.within_obj ?_
  simp only [Branch.entries, List.forall_mem_cons]
  exact ⟨within_str _, within_str _, within_str _, within_writeOption _ within_str,
    within_writeOption _ within_str, within_writeOption _ within_str, hb, within_str _,
    within_writeNumber _, within_writeOption _ within_str,
    within_writeOption _ within_writeNumber, hdependencies, fun _ h => absurd h List.not_mem_nil⟩

theorem within_options (o : TransactionOptions) : (Json.obj o.entries).Within (n + 2) := by
  refine Json.within_obj ?_
  simp only [TransactionOptions.entries, List.forall_mem_cons]
  exact ⟨within_bool _, within_bool _, within_writeOption _ within_writeNumber,
    within_writeOption _ within_writeNumber, within_writeOption _ within_writeNumber,
    within_writeOption _ within_writeNumber, within_writeMap _,
    fun _ h => absurd h List.not_mem_nil⟩

theorem within_progress (p : WorkflowProgress) : (Json.obj p.entries).Within (n + 1) := by
  refine Json.within_obj ?_
  simp only [WorkflowProgress.entries, List.forall_mem_cons]
  exact ⟨within_str _, within_str _, within_str _, within_str _,
    fun _ h => absurd h List.not_mem_nil⟩

/-- The entries of a record but for the branches. -/
theorem within_entries {tx : Transaction}
    (hbranches : (Json.arr (tx.branches.map fun b => .obj b.entries)).Within (n + 2)) :
    ∀ e ∈ tx.entries, e.2.Within (n + 2) := by
  have hprogress : ∀ e ∈ tx.progressEntries, e.2.Within (n + 2) := by
    rw [Transaction.progressEntries]
    split
    · exact fun _ h => absurd h List.not_mem_nil
    · intro e he
      rw [List.mem_singleton.mp he]
      refine Json.within_arr fun v hv => ?_
      obtain ⟨p, -, rfl⟩ := List.mem_map.mp hv
      exact within_progress p
  rw [Transaction.entries]
  simp only [List.forall_mem_append, List.forall_mem_cons]
  exact ⟨⟨⟨within_str _, within_str _, within_str _, hbranches, within_writeNumber _,
    within_writeNumber _, within_writeNumber _, within_writeOption _ within_writeNumber,
    within_options _, fun _ h => absurd h List.not_mem_nil⟩, hprogress⟩, within_writeMap _,
    fun _ h => absurd h List.not_mem_nil⟩

/-- The numbers of a record are numbers. -/
theorem Transaction.Typed.numbers {tx : Transaction} (h : tx.Typed floats) :
    (Json.obj tx.entries).Numbers := by
  -- there is some depth within which each payload nests
  have hbranch : ∀ b ∈ tx.branches, (Json.obj b.entries).Numbers := fun b hb =>
    (within_branch (n := b.payload.nesting + 1)
      ⟨(h.branches b hb).payload.numbers, Nat.le_succ _⟩ (Nat.succ_pos _)).numbers
  have hbranches : (Json.arr (tx.branches.map fun b => .obj b.entries)).Numbers := by
    refine Json.numbers_arr.mpr fun v hv => ?_
    obtain ⟨b, hb, rfl⟩ := List.mem_map.mp hv
    exact hbranch b hb
  exact Json.numbers_obj.mpr fun e he => (within_entries (n := (Json.arr
    (tx.branches.map fun b => .obj b.entries)).nesting) ⟨hbranches, Nat.le_add_right _ 2⟩ e
    he).numbers

/-- Three levels of a record are around a payload. -/
theorem Transaction.nesting_le {tx : Transaction} (h : tx.Typed floats) (hn : 0 < n) :
    (Json.obj tx.entries).nesting ≤ n + 3 ↔ ∀ b ∈ tx.branches, b.payload.nesting ≤ n := by
  have hbranches : ("branches", Json.arr (tx.branches.map fun b => .obj b.entries)) ∈ tx.entries :=
    List.mem_of_getElem? (i := 3) rfl
  refine ⟨fun hnest b hb => ?_, fun hpayloads => ?_⟩
  · have hrecord := Json.nesting_obj_le.mp hnest _ hbranches
    have hbranch := Json.nesting_arr_le.mp hrecord _ (List.mem_map_of_mem hb)
    exact Json.nesting_obj_le.mp hbranch ("payload", b.payload) (List.mem_of_getElem? (i := 6) rfl)
  · have hall : (Json.arr (tx.branches.map fun b => .obj b.entries)).Within (n + 2) := by
      refine Json.within_arr fun v hv => ?_
      obtain ⟨b, hb, rfl⟩ := List.mem_map.mp hv
      exact within_branch ⟨(h.branches b hb).payload.numbers, hpayloads b hb⟩ hn
    exact (Json.within_obj (within_entries hall)).nesting

/-- What the text of a record is read as, by how deep the record nests. -/
theorem Transaction.Typed.ofText_eq {tx : Transaction} (h : tx.Typed floats) :
    Transaction.ofText floats tx.toText =
      if (Json.obj tx.entries).nesting ≤ nestingLimit then .ok tx
      else .error "invalid JSON text" := by
  rw [Transaction.ofText, Transaction.toText, Json.tree_text h.numbers]
  by_cases hnest : (Json.obj tx.entries).nesting ≤ nestingLimit
  · rw [if_pos hnest, if_pos hnest]
    exact Transaction.fromValue_entries h
  · rw [if_neg hnest, if_neg hnest]
    rfl

/-- What is read from the text of a record is that record. -/
theorem Transaction.Typed.of_ofText {tx tx' : Transaction} (h : tx.Typed floats)
    (h' : Transaction.ofText floats tx.toText = .ok tx') : tx' = tx := by
  rw [h.ofText_eq] at h'
  split at h'
  · exact (Except.ok.inj h').symm
  · cases h'

/-- Arrays inside of each other. -/
def nestedArrays : Nat → Json
  | 0 => .num "40"
  | n + 1 => .arr [nestedArrays n]

/-- A Saga with a nested payload. -/
def nestedSaga (n : Nat) : Transaction := .new 5 "g" .saga [.saga "01" "do" "undo" (nestedArrays n)]

theorem nestedArrays_held (n : Nat) : (nestedArrays n).Held fun _ => none := by
  induction n with
  | zero => exact .num (by decide) (by decide)
  | succ n ih => exact .arr (List.forall_mem_singleton.mpr ih)

theorem nesting_nestedArrays (n : Nat) : (nestedArrays n).nesting = n := by
  induction n with
  | zero => rfl
  | succ n ih =>
    change max (nestedArrays n).nesting 0 + 1 = n + 1
    rw [ih, Nat.max_zero]

theorem nestedSaga_typed (n : Nat) : (nestedSaga n).Typed fun _ => none where
  branches := by
    refine List.forall_mem_singleton.mpr ⟨Nat.zero_le _, ?_, nestedArrays_held n⟩
    intro m hm
    cases hm
  createdAtMillis := by change 5 ≤ u64Max; decide
  updatedAtMillis := by change 5 ≤ u64Max; decide
  revision := by change 1 ≤ u64Max; decide
  timeoutMillis := by
    intro m hm
    cases hm
  options := by refine ⟨?_, ?_, ?_, ?_⟩ <;> (intro m hm; cases hm)

end RozeDtm
