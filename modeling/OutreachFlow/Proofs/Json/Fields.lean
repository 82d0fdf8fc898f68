import OutreachFlow.Json.Basic

/-! Looking up fields of objects that are put together from parts. Optional parts that are not
there are never found. -/
namespace OutreachFlow.Fields

@[simp]
theorem get?_nil (key : String) : get? [] key = none := rfl

@[simp]
theorem get?_cons (field : String × Json) (fields : Fields) (key : String) :
    get? (field :: fields) key = if field.1 = key then some field.2 else get? fields key := by
  unfold get?
  rw [List.find?_cons]
  split <;> simp_all

@[simp]
theorem get?_append (front back : Fields) (key : String) :
    get? (front ++ back) key = (get? front key).or (get? back key) := by
  induction front with
  | nil => rfl
  | cons field rest ih =>
    rw [List.cons_append, get?_cons, get?_cons, ih]
    split <;> rfl

@[simp]
theorem get?_optional (name : String) (value : Option Json) (key : String) :
    get? (Json.optional name value) key = if name = key then value else none := by
  cases value <;> simp [Json.optional]

theorem get?_replace (fields : Fields) (key : String) (value : Json) (other : String) :
    get? (fields.map fun field => if field.1 = key then (key, value) else field) other =
      if other = key then (get? fields key).map fun _ => value else get? fields other := by
  induction fields with
  | nil => simp
  | cons field rest ih =>
    rw [List.map_cons, get?_cons, get?_cons, get?_cons, ih]
    by_cases here : field.1 = key <;> grind

/-- Writing a field changes what is found under its key and nothing else. -/
theorem get?_set (fields : Fields) (key : String) (value : Json) (other : String) :
    get? (fields.set key value) other = if other = key then some value else get? fields other := by
  unfold set has
  split
  · rename_i known
    obtain ⟨old, found⟩ := Option.isSome_iff_exists.mp known
    rw [get?_replace, found, Option.map_some]
  · rename_i unknown
    rw [Option.not_isSome_iff_eq_none] at unknown
    by_cases asked : other = key
    · simp [asked, unknown]
    · simp [asked, Ne.symm asked]

theorem get?_eq_none {fields : Fields} {key : String} :
    fields.get? key = none ↔ key ∉ fields.map Prod.fst := by
  rw [get?, Option.map_eq_none_iff, List.find?_eq_none]
  constructor
  · intro other member
    obtain ⟨field, inside, same⟩ := List.mem_map.mp member
    exact other field inside (by simpa using same)
  · intro new field inside same
    exact new (List.mem_map.mpr ⟨field, inside, by simpa using same⟩)

/-- In an object without repeated keys every field is found under its key. -/
theorem get?_of_mem {fields : Fields} (distinct : (fields.map Prod.fst).Nodup)
    {field : String × Json} (member : field ∈ fields) : get? fields field.1 = some field.2 := by
  induction fields with
  | nil => contradiction
  | cons first rest ih =>
    rw [List.map_cons, List.nodup_cons] at distinct
    rw [get?_cons]
    rcases List.mem_cons.mp member with rfl | later
    · simp
    · have apart : first.1 ≠ field.1 := fun same =>
        distinct.1 (same ▸ List.mem_map_of_mem later)
      rw [if_neg apart]
      exact ih distinct.2 later

/-! Keys stay distinct -/

theorem mem_set {fields : Fields} {key : String} {value : Json} {field : String × Json}
    (member : field ∈ fields.set key value) : field ∈ fields ∨ field = (key, value) := by
  unfold set at member
  split at member
  · obtain ⟨old, inside, rfl⟩ := List.mem_map.mp member
    by_cases same : old.1 = key
    · exact .inr (if_pos same)
    · exact .inl (by rwa [if_neg same])
  · simpa using member

theorem set_of_new {fields : Fields} {key : String} (new : key ∉ fields.map Prod.fst) (value : Json) :
    fields.set key value = fields ++ [(key, value)] := by
  rw [set, has, get?_eq_none.mpr new]
  rfl

theorem keys_set_of_known {fields : Fields} {key : String} (known : key ∈ fields.map Prod.fst) (value : Json) :
    (fields.set key value).map Prod.fst = fields.map Prod.fst := by
  have has : fields.has key = true := by
    rw [has, Option.isSome_iff_ne_none, Ne, get?_eq_none, Classical.not_not]
    exact known
  rw [set, if_pos has, List.map_map]
  refine List.map_congr_left fun field _ => ?_
  by_cases same : field.1 = key <;> simp [same]

theorem distinct_concat {fields : Fields} {field : String × Json} :
    ((fields ++ [field]).map Prod.fst).Nodup ↔
      field.1 ∉ fields.map Prod.fst ∧ (fields.map Prod.fst).Nodup := by
  rw [List.map_append, List.map_cons, List.map_nil, (List.perm_append_singleton _ _).nodup_iff,
    List.nodup_cons]

theorem distinct_set {fields : Fields} (distinct : (fields.map Prod.fst).Nodup) (key : String) (value : Json) :
    ((fields.set key value).map Prod.fst).Nodup := by
  by_cases known : key ∈ fields.map Prod.fst
  · rw [keys_set_of_known known]
    exact distinct
  · rw [set_of_new known, distinct_concat]
    exact ⟨known, distinct⟩

/-- Writes entries one after the other. -/
def setAll (fields entries : Fields) : Fields :=
  entries.foldl (fun fields entry => fields.set entry.1 entry.2) fields

theorem distinct_setAll {fields : Fields} (distinct : (fields.map Prod.fst).Nodup) (entries : Fields) :
    ((fields.setAll entries).map Prod.fst).Nodup := by
  induction entries generalizing fields with
  | nil => exact distinct
  | cons entry rest ih => exact ih (distinct_set distinct entry.1 entry.2)

theorem mem_setAll {fields entries : Fields} {field : String × Json} (member : field ∈ fields.setAll entries) :
    field ∈ fields ∨ field ∈ entries := by
  induction entries generalizing fields with
  | nil => exact .inl member
  | cons entry rest ih =>
    rcases ih member with before | later
    · rcases mem_set before with known | rfl
      · exact .inl known
      · exact .inr List.mem_cons_self
    · exact .inr (List.mem_cons_of_mem _ later)

theorem setAll_of_distinct {fields entries : Fields} (distinct : ((fields ++ entries).map Prod.fst).Nodup) :
    fields.setAll entries = fields ++ entries := by
  induction entries generalizing fields with
  | nil => rw [List.append_nil]; rfl
  | cons entry rest ih =>
    have regrouped : fields ++ entry :: rest = fields ++ [entry] ++ rest := by simp
    rw [regrouped] at distinct ⊢
    have front : ((fields ++ [entry]).map Prod.fst).Nodup := by
      rw [List.map_append] at distinct
      exact (List.nodup_append.mp distinct).1
    have behind := set_of_new (distinct_concat.mp front).1 entry.2
    rw [← ih distinct, ← behind]
    rfl

/-- The fields of a written object have distinct keys, and each was written. -/
theorem distinct_ofEntries (entries : Fields) : ((ofEntries entries).map Prod.fst).Nodup :=
  @distinct_setAll [] List.nodup_nil entries

theorem mem_ofEntries {entries : Fields} {field : String × Json} (member : field ∈ ofEntries entries) :
    field ∈ entries := by
  rcases mem_setAll member with none | written
  · contradiction
  · exact written

theorem ofEntries_of_distinct {entries : Fields} (distinct : (entries.map Prod.fst).Nodup) :
    ofEntries entries = entries := @setAll_of_distinct [] entries distinct

end OutreachFlow.Fields

namespace OutreachFlow.Json

/-- What an object holds under a key. -/
def field? (value : Json) (key : String) : Option Json :=
  value.asFields?.bind fun fields => Fields.get? fields key

@[simp]
theorem field?_obj (fields : Fields) (key : String) : (Json.obj fields).field? key = fields.get? key := rfl

end OutreachFlow.Json
