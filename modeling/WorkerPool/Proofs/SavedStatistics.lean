import WorkerPool.Proofs.JsonFormats
import WorkerPool.Json.Order
import Mathlib.Data.List.Nodup

/-!
Statistics as JSON text.

The counters of a pool and of a worker are written as objects of their fields. Whatever is written
is read back, and so is every other text of the same fields, since a visitor is given the same
counters however they are arranged. All this holds for every lawful format and for every schema that
takes each field once.
-/
namespace WorkerPool.Json

variable {α : Type} {names : List String} {name : String} {cs v : List Char}
  {values : List UInt64} {counters : α → List UInt64} {fields given : List (String × UInt64)}
  {members : List (String × List Char)} {json : Format} {schema : Schema α}

/-! ### Schemas -/

/-- The schema of records with these names of fields and these counters, in their order. Each field
is taken once, and no other member is. -/
structure Schema.Lawful (schema : Schema α) (names : List String) (counters : α → List UInt64) :
    Prop where
  fields : ∀ a, schema.fields a = names.zip (counters a)
  /-- A member that is no field is passed over. -/
  other : ∀ given name, name ∉ names → schema.visitor.wants given name = .ok false
  first : ∀ given name, name ∈ names → name ∉ given.map Prod.fst →
    schema.visitor.wants given name = .ok true
  /-- A field that is repeated is refused. -/
  second : ∀ given name, name ∈ names → name ∈ given.map Prod.fst →
    schema.visitor.wants given name = .error .mismatch
  /-- Each field once, in any order, makes a record. -/
  complete : ∀ given a, given.Perm (names.zip (counters a)) →
    schema.visitor.ofMembers given = .ok a
  missing : ∀ given name, name ∈ names → name ∉ given.map Prod.fst →
    schema.visitor.ofMembers given = .error .mismatch
  size : schema.visitor.size = names.length
  items : ∀ a, schema.visitor.ofItems (counters a) = .ok a

theorem lookup_eq_none : given.lookup name = none ↔ name ∉ given.map Prod.fst := by
  simp only [List.lookup_eq_none_iff, bne_iff_ne, List.mem_map, not_exists, not_and]
  exact ⟨fun h f hf he => h f hf he.symm, fun h f hf he => h f hf he.symm⟩

theorem lookup_of_mem {β : Type} {pairs : List (String × β)} {b : β}
    (distinct : (pairs.map Prod.fst).Nodup) (h : (name, b) ∈ pairs) :
    pairs.lookup name = some b := by
  induction pairs with
  | nil => cases h
  | cons pair pairs ih =>
    obtain ⟨c, d⟩ := pair
    obtain ⟨fresh, distinct⟩ := List.nodup_cons.mp distinct
    obtain here | later := List.mem_cons.mp h
    · obtain ⟨rfl, rfl⟩ := Prod.mk.inj here
      exact List.lookup_cons_self
    · have found : name ∈ pairs.map Prod.fst := List.mem_map_of_mem later
      have hne : name ≠ c := fun he => fresh (he ▸ found)
      rw [List.lookup_cons, beq_false_of_ne hne]
      exact ih distinct later

theorem mapM_lookup (hlen : values.length = names.length)
    (h : ∀ f ∈ names.zip values, given.lookup f.1 = some f.2) :
    (names.mapM fun name => given.lookup name) = some values := by
  induction names generalizing values with
  | nil => rw [List.length_eq_zero_iff.mp hlen, List.mapM_nil]; rfl
  | cons name names ih =>
    cases values with
    | nil => cases hlen
    | cons n values =>
      rw [List.zip_cons_cons] at h
      obtain ⟨first, later⟩ := List.forall_mem_cons.mp h
      rw [List.mapM_cons, ih (Nat.succ.inj hlen) later, first]
      rfl

theorem mapM_lookup_none (hname : name ∈ names) (h : given.lookup name = none) :
    (names.mapM fun name => given.lookup name) = none := by
  induction names with
  | nil => cases hname
  | cons c names ih =>
    rw [List.mapM_cons]
    obtain rfl | hname := List.mem_cons.mp hname
    · rw [h]
      rfl
    · rw [ih hname]
      cases given.lookup c <;> rfl

theorem map_fst_zip (hlen : values.length = names.length) :
    (names.zip values).map Prod.fst = names :=
  List.map_fst_zip hlen.ge

/-- The schema that the program uses for its records. -/
theorem ofFields_lawful {ofList? : List UInt64 → Option α} (distinct : names.Nodup)
    (hlen : ∀ a, (counters a).length = names.length)
    (inverse : ∀ a, ofList? (counters a) = some a) :
    (Schema.ofFields names counters ofList?).Lawful names counters where
  fields _ := rfl
  other _ _ hname := if_pos hname
  first _ _ hname fresh := (if_neg (not_not.mpr hname)).trans (if_neg fresh)
  second _ _ hname found := (if_neg (not_not.mpr hname)).trans (if_pos found)
  complete given a perm := by
    have keys : (given.map Prod.fst).Perm names := by
      simpa only [map_fst_zip (hlen a)] using perm.map Prod.fst
    have each : ∀ f ∈ names.zip (counters a), given.lookup f.1 = some f.2 := fun f hf =>
      lookup_of_mem (keys.nodup_iff.mpr distinct) (perm.mem_iff.mpr hf)
    have found := mapM_lookup (hlen a) each
    simp only [Schema.ofFields, found, Option.bind_some, inverse]
  missing given name hname fresh := by
    have absent := mapM_lookup_none hname (lookup_eq_none.mpr fresh)
    simp only [Schema.ofFields, absent, Option.bind_none]
  size := rfl
  items a := by simp only [Schema.ofFields, inverse]

/-! ### Members -/

/-- Members with each of the names once, and with these counters. -/
def Holds (names : List String) (values : List UInt64) (members : List (String × List Char)) :
    Prop :=
  ∀ f ∈ names.zip values, (f.1, decimal f.2) ∈ members ∧ (members.map Prod.fst).count f.1 = 1

instance (names : List String) (values : List UInt64) (members : List (String × List Char)) :
    Decidable (Holds names values members) :=
  inferInstanceAs (Decidable (∀ f ∈ names.zip values, _ ∧ _))

/-- The counter that digits write. -/
def counterOf (ds : List Char) : UInt64 := .ofNat (Nat.ofDigitChars 10 ds 0)

theorem counterOf_decimal (n : UInt64) : counterOf (decimal n) = n := by
  rw [counterOf, decimal, Nat.ofDigitChars_ten_toDigits, UInt64.ofNat_toNat]

/-- The members that are fields, with their counters. -/
def taken (names : List String) (members : List (String × List Char)) : List (String × UInt64) :=
  (members.filter (·.1 ∈ names)).map fun m => (m.1, counterOf m.2)

theorem taken_keys : (taken names members).map Prod.fst =
    (members.map Prod.fst).filter (· ∈ names) := by
  simp [taken, List.filter_map, Function.comp_def]

theorem count_taken (hname : name ∈ names) :
    ((taken names members).map Prod.fst).count name = (members.map Prod.fst).count name := by
  rw [taken_keys, List.count_filter (by simpa using hname)]

/-- A visitor is given the fields among the members, and refuses an object that repeats one. -/
theorem Schema.Lawful.visits (lawful : schema.Lawful names counters)
    (decimals : ∀ m ∈ members, m.1 ∈ names → ∃ n, m.2 = decimal n)
    (clean : (given.map Prod.fst).Nodup) :
    schema.visitor.Visits given members
      (if ((given ++ taken names members).map Prod.fst).Nodup
        then schema.visitor.ofMembers (given ++ taken names members)
        else .error .mismatch) := by
  induction members generalizing given with
  | nil =>
    rw [show taken names [] = [] from rfl, List.append_nil, if_pos clean]
    exact .done
  | cons m members ih =>
    obtain ⟨decimal?, others⟩ := List.forall_mem_cons.mp decimals
    by_cases hm : m.1 ∈ names
    · obtain ⟨name, v⟩ := m
      obtain ⟨n, rfl⟩ := decimal? hm
      have split : taken names ((name, decimal n) :: members) =
          [(name, n)] ++ taken names members := by
        simp [taken, List.filter_cons_of_pos, hm, counterOf_decimal]
      rw [split, ← List.append_assoc]
      by_cases found : name ∈ given.map Prod.fst
      · have repeated : ¬ ((given ++ [(name, n)] ++ taken names members).map Prod.fst).Nodup := by
          intro nodup
          rw [List.map_append, List.map_append] at nodup
          have disjoint := List.disjoint_of_nodup_append (List.Nodup.of_append_left nodup)
          exact disjoint found (by simp)
        rw [if_neg repeated]
        exact .refused (lawful.second _ _ hm found)
      · refine .taken (lawful.first _ _ hm found) (ih others ?_)
        rw [List.map_append]
        exact clean.append (by simp) (by simpa using found)
    · have passed : taken names (m :: members) = taken names members := by
        simp [taken, List.filter_cons_of_neg, hm]
      rw [passed]
      exact .passed (lawful.other _ _ hm) (ih others clean)

/-- An object whose fields are counters leads the visitor to a record, or is refused. -/
theorem Schema.Lawful.visits_object (lawful : schema.Lawful names counters)
    (decimals : ∀ m ∈ members, m.1 ∈ names → ∃ n, m.2 = decimal n) :
    schema.visitor.Visits [] members
      (if ((taken names members).map Prod.fst).Nodup
        then schema.visitor.ofMembers (taken names members)
        else .error .mismatch) :=
  lawful.visits decimals List.nodup_nil

theorem exists_mem_zip (hlen : values.length = names.length) (h : name ∈ names) :
    ∃ n, (name, n) ∈ names.zip values := by
  obtain ⟨k, hk, rfl⟩ := List.mem_iff_getElem.mp h
  have hk' : k < values.length := hlen ▸ hk
  exact ⟨values[k], List.mem_iff_getElem.mpr ⟨k, by simp [hk, hk'], by simp⟩⟩

/-- There is one value for a name that stands once. -/
theorem eq_of_count_one {w : List Char} (once : (members.map Prod.fst).count name = 1)
    (hv : (name, v) ∈ members) (hw : (name, w) ∈ members) : v = w := by
  have only : (members.filter (·.1 = name)).length = 1 := by
    rw [← List.countP_eq_length_filter, ← once, List.count, List.countP_map]
    exact List.countP_congr fun m _ => by simp
  obtain ⟨m, hm⟩ := List.length_eq_one_iff.mp only
  have here {u : List Char} (hu : (name, u) ∈ members) : (name, u) = m := by
    have : (name, u) ∈ members.filter (·.1 = name) := List.mem_filter.mpr ⟨hu, by simp⟩
    simpa [hm] using this
  exact (Prod.mk.inj ((here hv).trans (here hw).symm)).2

section holds

variable (distinct : names.Nodup) (hlen : values.length = names.length)
  (holds : Holds names values members)

include hlen holds

/-- The members that are fields hold counters. -/
theorem Holds.decimals : ∀ m ∈ members, m.1 ∈ names → ∃ n, m.2 = decimal n := by
  intro m hm hname
  obtain ⟨n, hn⟩ := exists_mem_zip hlen hname
  obtain ⟨hin, once⟩ := holds _ hn
  exact ⟨n, eq_of_count_one once hm hin⟩

theorem Holds.nodup : ((taken names members).map Prod.fst).Nodup := by
  refine List.nodup_iff_count_le_one.mpr fun name => ?_
  by_cases hname : name ∈ names
  · obtain ⟨n, hn⟩ := exists_mem_zip hlen hname
    rw [count_taken hname, (holds _ hn).2]
  · have absent : name ∉ (taken names members).map Prod.fst := by
      simp [taken_keys, hname]
    rw [List.count_eq_zero_of_not_mem absent]
    exact Nat.zero_le 1

include distinct

/-- What a visitor is given is the fields, in the order in which they stand. -/
theorem Holds.perm : (taken names members).Perm (names.zip values) := by
  have zipped : (names.zip values).Nodup :=
    List.Nodup.of_map Prod.fst (by rwa [map_fst_zip hlen])
  refine (List.perm_ext_iff_of_nodup (.of_map Prod.fst (holds.nodup hlen)) zipped).mpr fun f => ?_
  constructor
  · intro hf
    obtain ⟨m, hm, rfl⟩ := List.mem_map.mp hf
    obtain ⟨hm, hname⟩ := List.mem_filter.mp hm
    obtain ⟨n, hn⟩ := exists_mem_zip hlen (of_decide_eq_true hname)
    obtain ⟨hin, once⟩ := holds _ hn
    rw [eq_of_count_one once hm hin, counterOf_decimal]
    exact hn
  · intro hf
    obtain ⟨hin, -⟩ := holds f hf
    refine List.mem_map.mpr ⟨_, List.mem_filter.mpr ⟨hin, ?_⟩, by rw [counterOf_decimal]⟩
    exact decide_eq_true (List.of_mem_zip hf).1

end holds

/-! ### Writing -/

theorem spells_plain (h : ∀ c ∈ cs, IsPlain c) : Spells cs cs := by
  induction cs with
  | nil => exact .nil
  | cons c cs ih =>
    obtain ⟨hc, hcs⟩ := List.forall_mem_cons.mp h
    exact .cons (.plain hc) (ih hcs)

/-- The members of a record. -/
def recordMembers (names : List String) (values : List UInt64) : List (String × List Char) :=
  (names.zip values).map fun f => (f.1, decimal f.2)

theorem blanks_nil : Blanks [] := by simp [Blanks]

theorem padded_self (t : List Char) : Padded t t := by
  have padded : Padded t ([] ++ (t ++ [])) := .mk blanks_nil blanks_nil
  simpa using padded

theorem namedMember_spelled {raw v b b' : List Char} (hname : Spells name.toList raw)
    (hv : IsValue v) (hb : Blanks b) (hb' : Blanks b') :
    NamedMember (name, v) ('"' :: (raw ++ '"' :: (b ++ ':' :: (b' ++ v)))) :=
  .mk hname hv (.mk hb hb' (padded_self _))

theorem namedMember_written (plain : PlainName name) (n : UInt64) :
    NamedMember (name, decimal n) ("\"" ++ name ++ "\":" ++ toString n.toNat).toList := by
  have member := namedMember_spelled (spells_plain plain) (isValue_decimal n) blanks_nil blanks_nil
  simpa [decimal] using member

theorem separated_intercalate {fs : List α} {text : α → String} {member : α → String × List Char}
    (hne : fs ≠ []) (h : ∀ f ∈ fs, NamedMember (member f) (text f).toList) :
    Separated NamedMember (fs.map member) (",".intercalate (fs.map text)).toList := by
  induction fs with
  | nil => exact absurd rfl hne
  | cons f fs ih =>
    obtain ⟨hf, hfs⟩ := List.forall_mem_cons.mp h
    cases fs with
    | nil =>
      rw [List.map_singleton, List.map_singleton, String.intercalate_singleton]
      exact .one hf
    | cons g gs =>
      have later := ih (by simp) hfs
      rw [List.map_cons, List.map_cons] at later ⊢
      rw [List.map_cons, List.map_cons, String.intercalate_cons_cons, String.toList_append,
        String.toList_append, List.append_assoc]
      exact .more hf later

theorem objectText_intercalate {fs : List α} {text : α → String}
    {member : α → String × List Char} (h : ∀ f ∈ fs, NamedMember (member f) (text f).toList) :
    ObjectText (fs.map member) ("\x7b" ++ ",".intercalate (fs.map text) ++ "\x7d") := by
  refine ⟨_, ?_, padded_self _⟩
  rcases eq_or_ne fs [] with rfl | hne
  · have object : Bracketed NamedMember '\x7b' '\x7d' [] _ := .empty blanks_nil
    simpa using object
  · have object : Bracketed NamedMember '\x7b' '\x7d' _ _ := .full (separated_intercalate hne h)
    simpa using object

/-- What is written is an object of the record's members. -/
theorem Format.Lawful.objectText (lawful : json.Lawful)
    (plain : ∀ f ∈ fields, PlainName f.1) :
    ObjectText (fields.map fun f => (f.1, decimal f.2)) (json.writeRecord fields) := by
  rw [lawful.written fields plain]
  exact objectText_intercalate fun f hf => namedMember_written (plain f hf) f.2

theorem holds_recordMembers (distinct : names.Nodup) (hlen : values.length = names.length) :
    Holds names values (recordMembers names values) := by
  intro f hf
  have firsts : (recordMembers names values).map Prod.fst = names := by
    rw [recordMembers, List.map_map]
    exact map_fst_zip hlen
  refine ⟨List.mem_map_of_mem hf, ?_⟩
  rw [firsts]
  exact List.count_eq_one_of_mem distinct (List.of_mem_zip hf).1

/-! ### Statistics -/

/-- Records with these fields survive being written and read, in every form that their text may
take. -/
structure SurvivesJson (names : List String) (counters : α → List UInt64) (write : α → String)
    (read : String → Except Fault α) : Prop where
  /-- What is written is an object of the fields in their order. -/
  written (a : α) : ObjectText (recordMembers names (counters a)) (write a)
  /-- What is written is read back. -/
  restored (a : α) : read (write a) = .ok a
  /-- So is every object with each of the fields once, whatever other members it has. -/
  object (a : α) (members : List (String × List Char)) (text : String) :
    ObjectText members text → Holds names (counters a) members → read text = .ok a
  /-- So is every array of the counters. -/
  array (a : α) (text : String) : ArrayText (counters a) text → read text = .ok a
  /-- Without one of the fields, or with one of them repeated, an object is refused. -/
  incomplete (members : List (String × List Char)) (text : String) : ObjectText members text →
    (∀ m ∈ members, m.1 ∈ names → ∃ n, m.2 = decimal n) →
    (∃ name ∈ names, (members.map Prod.fst).count name ≠ 1) → read text = .error .mismatch
  /-- Two records are not written alike. -/
  distinct : Function.Injective write

/-- Records survive in every lawful format, by every lawful schema. -/
theorem Format.Lawful.survives (lawful : json.Lawful) (hschema : schema.Lawful names counters)
    (distinct : names.Nodup) (plain : ∀ name ∈ names, PlainName name)
    (hlen : ∀ a, (counters a).length = names.length) :
    SurvivesJson names counters (json.save schema) (json.load schema) := by
  have written (a : α) : ObjectText (recordMembers names (counters a)) (json.save schema a) := by
    rw [Format.save, hschema.fields]
    exact lawful.objectText fun f hf => plain f.1 (List.of_mem_zip hf).1
  have object (a : α) (members : List (String × List Char)) (text : String)
      (ht : ObjectText members text) (holds : Holds names (counters a) members) :
      json.load schema text = .ok a := by
    have visits := hschema.visits_object (holds.decimals (hlen a))
    rw [if_pos (holds.nodup (hlen a)),
      hschema.complete _ a (holds.perm distinct (hlen a))] at visits
    exact lawful.object ht visits
  have restored (a : α) : json.load schema (json.save schema a) = .ok a :=
    object a _ _ (written a) (holds_recordMembers distinct (hlen a))
  refine ⟨written, restored, object, ?array, ?incomplete, ?distinct⟩
  case array =>
    intro a text ht
    exact (lawful.array ((hlen a).trans hschema.size.symm) ht).trans (hschema.items a)
  case incomplete =>
    rintro members text ht decimals ⟨name, hname, hcount⟩
    have visits := hschema.visits_object decimals
    refine lawful.object ht ?_
    split at visits
    · next nodup =>
      have most := List.nodup_iff_count_le_one.mp nodup name
      rw [count_taken hname] at most
      have absent : name ∉ (taken names members).map Prod.fst := by
        rw [← List.count_eq_zero, count_taken hname]
        omega
      rwa [hschema.missing _ name hname absent] at visits
    · exact visits
  case distinct =>
    intro a b h
    have same := congrArg (json.load schema) h
    rw [restored, restored] at same
    exact Except.ok.inj same

end WorkerPool.Json

namespace WorkerPool

open Json

section statistics

variable {json : Format} {pools : Schema PoolStats} {workers : Schema WorkerSnapshot}

/-- The counters of a pool and of a worker survive being saved as text. -/
theorem statistics_survive_json (lawful : json.Lawful)
    (hpools : pools.Lawful PoolStats.fieldNames PoolStats.toList)
    (hworkers : workers.Lawful WorkerSnapshot.fieldNames WorkerSnapshot.toList) :
    SurvivesJson PoolStats.fieldNames PoolStats.toList (json.save pools) (json.load pools) ∧
      SurvivesJson WorkerSnapshot.fieldNames WorkerSnapshot.toList (json.save workers)
        (json.load workers) :=
  ⟨lawful.survives hpools (by decide) (by decide) fun _ => rfl,
    lawful.survives hworkers (by decide) (by decide) fun _ => rfl⟩

/-- So do the orders of a queue, whose names are written as strings. -/
theorem QueueOrder.survives_json (lawful : json.Lawful) (o : QueueOrder) :
    QueueOrder.ofJson (o.toJson json) json = .ok o := by
  have plain : PlainName o.inspect := by cases o <;> decide
  have text : NameText o.inspect (o.toJson json) := by
    refine ⟨_, spells_plain plain, ?_⟩
    rw [QueueOrder.toJson, lawful.nameWritten _ plain]
    simpa using padded_self _
  rw [QueueOrder.ofJson, lawful.name text]
  cases o <;> rfl

end statistics

theorem PoolStats.schema_lawful : PoolStats.schema.Lawful fieldNames toList :=
  ofFields_lawful (by decide) (fun _ => rfl) fun _ => rfl

theorem WorkerSnapshot.schema_lawful : WorkerSnapshot.schema.Lawful fieldNames toList :=
  ofFields_lawful (by decide) (fun _ => rfl) fun _ => rfl

/-- A snapshot with its fields out of order, one of them spelled with an escape, and a member that
is none of them. -/
def rearrangedSnapshot : List ((String × List Char) × String) :=
  [(("tasks_panicked", decimal 2), "\"\\u0074asks_panicked\" : 2"),
    (("x", "[\x7b\x7d,-1.5e+3]".toList), "\"x\":[\x7b\x7d,-1.5e+3]"),
    (("total_processing_time_us", decimal 0xffffffffffffffff),
      "\"total_processing_time_us\":18446744073709551615"),
    (("tasks_completed", decimal 1), "\"tasks_completed\":1")]

theorem isValue_nested : IsValue "[\x7b\x7d,-1.5e+3]".toList := by
  have numeral : Numeral (['-'] ++ (['1'] ++ ('.' :: ['5'] ++ 'e' :: (['+'] ++ ['3'])))) := by
    refine .mk (by simp) (.digits rfl (by decide) ?_) (.present (by simp) ?_)
      (.present (by simp) (by simp) (by simp) ?_)
    all_goals simp [Digits]
  have nothing : Bracketed (fun m : List Char × List Char => Member m.1 m.2) '\x7b' '\x7d' []
      "\x7b\x7d".toList :=
    .empty blanks_nil
  have items : ∀ v ∈ ["\x7b\x7d".toList, "-1.5e+3".toList], IsValue v :=
    List.forall_mem_cons.mpr
      ⟨.object (by simp) (by simp) nothing, List.forall_mem_singleton.mpr (.number numeral)⟩
  exact .array items (.full (.more (padded_self _) (.one (padded_self _))))

theorem spells_escaped : Spells "tasks_panicked".toList "\\u0074asks_panicked".toList := by
  have escaped : Spelling 't' "\\u0074".toList :=
    .unit (.mk (k := 0) (l := 0) (m := 7) (n := 4) (.lower (by decide)) (.lower (by decide))
      (.lower (by decide)) (.lower (by decide)))
  have later : PlainName "asks_panicked" := by decide
  exact .cons escaped (spells_plain later)

theorem rearrangedSnapshot_spelled :
    ∀ f ∈ rearrangedSnapshot, NamedMember f.1 f.2.toList := by
  have blank : Blanks [' '] := by simp [Blanks]
  have plain : PlainName "x" := by decide
  refine List.forall_mem_cons.mpr ⟨?escaped, List.forall_mem_cons.mpr ⟨?other,
    List.forall_mem_cons.mpr ⟨?large, List.forall_mem_singleton.mpr ?small⟩⟩⟩
  case escaped => exact namedMember_spelled spells_escaped (isValue_decimal 2) blank blank
  case other => exact namedMember_spelled (spells_plain plain) isValue_nested blanks_nil blanks_nil
  case large => exact namedMember_written (by decide) _
  case small => exact namedMember_written (by decide) _

theorem snapshot_texts :
    WorkerSnapshot.ofJson
        ("\x7b" ++ ",".intercalate (rearrangedSnapshot.map Prod.snd) ++ "\x7d") =
      .ok ⟨1, 2, 0xffffffffffffffff⟩ ∧
    WorkerSnapshot.ofJson "[1,2,3]" = .ok ⟨1, 2, 3⟩ ∧
    WorkerSnapshot.ofJson "\x7b\x7d" = .error .mismatch := by
  have survives :=
    (statistics_survive_json compact_lawful PoolStats.schema_lawful WorkerSnapshot.schema_lawful).2
  refine ⟨?rearranged, ?listed, ?empty⟩
  case rearranged =>
    exact survives.object _ _ _ (objectText_intercalate rearrangedSnapshot_spelled) (by decide)
  case listed =>
    have items : Separated (fun n => Padded (decimal n)) [1, 2, 3]
        (decimal 1 ++ ',' :: (decimal 2 ++ ',' :: decimal 3)) :=
      .more (padded_self _) (.more (padded_self _) (.one (padded_self _)))
    exact survives.array ⟨1, 2, 3⟩ _ ⟨_, .full items, padded_self _⟩
  case empty =>
    exact survives.incomplete [] _ ⟨_, .empty blanks_nil, padded_self _⟩ (by simp) (by decide)

end WorkerPool
