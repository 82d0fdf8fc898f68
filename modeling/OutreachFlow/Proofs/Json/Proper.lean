import OutreachFlow.Json.Finite
import OutreachFlow.Proofs.Json.Parts
import OutreachFlow.Proofs.Json.Storable

/-! Documents that are stored and sent as they are. Their doubles are finite, no text has a stand-in, and they are
not nested too deep. -/
namespace OutreachFlow.Json

/-- A document of at most `limit` levels that nothing can happen to on the way: it is stored, read and sent as it
is. -/
structure IsProper (limit : Nat) (value : Json) : Prop where
  finite : value.hasNonFinite = false
  whole : value.hasStandIn = false
  flat : value.depth ≤ limit

instance (limit : Nat) (value : Json) : Decidable (value.IsProper limit) :=
  decidable_of_iff (value.hasNonFinite = false ∧ value.hasStandIn = false ∧ value.depth ≤ limit)
    ⟨fun ⟨finite, whole, flat⟩ => ⟨finite, whole, flat⟩, fun ⟨finite, whole, flat⟩ => ⟨finite, whole, flat⟩⟩

/-! Parts -/

theorem itemsHaveNonFinite_eq_false {items : List Json} :
    itemsHaveNonFinite items = false ↔ ∀ item ∈ items, item.hasNonFinite = false := by
  induction items with
  | nil => simp [itemsHaveNonFinite]
  | cons item rest ih => rw [itemsHaveNonFinite, Bool.or_eq_false_iff, ih, List.forall_mem_cons]

theorem fieldsHaveNonFinite_eq_false {fields : Fields} :
    fieldsHaveNonFinite fields = false ↔ ∀ field ∈ fields, field.2.hasNonFinite = false := by
  induction fields with
  | nil => simp [fieldsHaveNonFinite]
  | cons field rest ih => rw [fieldsHaveNonFinite, Bool.or_eq_false_iff, ih, List.forall_mem_cons]

theorem itemsHaveStandIn_eq_false {items : List Json} :
    itemsHaveStandIn items = false ↔ ∀ item ∈ items, item.hasStandIn = false := by
  induction items with
  | nil => simp [itemsHaveStandIn]
  | cons item rest ih => rw [itemsHaveStandIn, Bool.or_eq_false_iff, ih, List.forall_mem_cons]

theorem fieldsHaveStandIn_eq_false {fields : Fields} :
    fieldsHaveStandIn fields = false ↔
      ∀ field ∈ fields, Text.hasStandIn field.1 = false ∧ field.2.hasStandIn = false := by
  induction fields with
  | nil => simp [fieldsHaveStandIn]
  | cons field rest ih =>
    rw [fieldsHaveStandIn, Bool.or_eq_false_iff, Bool.or_eq_false_iff, ih, List.forall_mem_cons]

variable {limit : Nat}

theorem isProper_arr {items : List Json} : (arr items).IsProper (limit + 1) ↔ ∀ item ∈ items, item.IsProper limit := by
  have parts : (arr items).IsProper (limit + 1) ↔ (∀ item ∈ items, item.hasNonFinite = false) ∧
      (∀ item ∈ items, item.hasStandIn = false) ∧ ∀ item ∈ items, item.depth ≤ limit := by
    rw [← itemsHaveNonFinite_eq_false, ← itemsHaveStandIn_eq_false, ← itemsDepth_le]
    constructor
    · rintro ⟨finite, whole, flat⟩
      exact ⟨finite, whole, Nat.le_of_succ_le_succ flat⟩
    · rintro ⟨finite, whole, flat⟩
      exact ⟨finite, whole, Nat.succ_le_succ flat⟩
  rw [parts]
  constructor
  · rintro ⟨finite, whole, flat⟩ item member
    exact ⟨finite item member, whole item member, flat item member⟩
  · intro all
    exact ⟨fun item member => (all item member).finite, fun item member => (all item member).whole,
      fun item member => (all item member).flat⟩

theorem isProper_obj {fields : Fields} : (obj fields).IsProper (limit + 1) ↔
    ∀ field ∈ fields, Text.hasStandIn field.1 = false ∧ field.2.IsProper limit := by
  have parts : (obj fields).IsProper (limit + 1) ↔ (∀ field ∈ fields, field.2.hasNonFinite = false) ∧
      (∀ field ∈ fields, Text.hasStandIn field.1 = false ∧ field.2.hasStandIn = false) ∧
        ∀ field ∈ fields, field.2.depth ≤ limit := by
    rw [← fieldsHaveNonFinite_eq_false, ← fieldsHaveStandIn_eq_false, ← fieldsDepth_le]
    constructor
    · rintro ⟨finite, whole, flat⟩
      exact ⟨finite, whole, Nat.le_of_succ_le_succ flat⟩
    · rintro ⟨finite, whole, flat⟩
      exact ⟨finite, whole, Nat.succ_le_succ flat⟩
  rw [parts]
  constructor
  · rintro ⟨finite, whole, flat⟩ field member
    exact ⟨(whole field member).1, finite field member, (whole field member).2, flat field member⟩
  · intro all
    exact ⟨fun field member => (all field member).2.finite,
      fun field member => ⟨(all field member).1, (all field member).2.whole⟩,
      fun field member => (all field member).2.flat⟩

theorem isProper_str {text : String} : (str text).IsProper limit ↔ Text.hasStandIn text = false :=
  ⟨fun proper => proper.whole, fun whole => ⟨rfl, whole, Nat.zero_le _⟩⟩

theorem isProper_null : null.IsProper limit := ⟨rfl, rfl, Nat.zero_le _⟩

theorem IsProper.mono {value : Json} {other : Nat} (proper : value.IsProper limit) (more : limit ≤ other) :
    value.IsProper other := { proper with flat := Nat.le_trans proper.flat more }

theorem passesDown_proper : PassesDown fun limit value => value.IsProper limit where
  items := isProper_arr.mp
  fields proper field member := (isProper_obj.mp proper field member).2

theorem isHereditary_proper (limit : Nat) : IsHereditary fun value => value.IsProper limit where
  null := isProper_null
  items proper item member := (isProper_arr.mp (proper.mono (Nat.le_succ _)) item member)
  fields proper field member := ((isProper_obj.mp (proper.mono (Nat.le_succ _)) field member).2)

theorem passesDown_storable : PassesDown fun _ value => value.Storable where
  items
  | .arr all => all
  fields
  | .obj _ all => all

end OutreachFlow.Json
