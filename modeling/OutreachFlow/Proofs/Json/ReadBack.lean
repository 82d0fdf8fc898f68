import OutreachFlow.Proofs.Json.Depth
import OutreachFlow.Proofs.Json.Layout
import OutreachFlow.Store.Basic

/-! Written documents are read back as themselves, if they are not nested too deep. -/
namespace OutreachFlow

namespace Json

/-! Blanks -/

theorem skipBlanks_margin (level : Nat) {c : Char} (plain : isBlankChar c = false) (rest : List Char) :
    skipBlanks ((margin level).toList ++ c :: rest) = c :: rest := by
  have blank : ∀ d ∈ (margin level).toList, isBlankChar d = true := by
    intro d member
    rw [margin, String.toList_ofList, List.mem_cons] at member
    rcases member with rfl | space
    · rfl
    · rw [List.eq_of_mem_replicate space]
      rfl
  rw [skipBlanks, List.dropWhile_append_of_pos blank, List.dropWhile_cons_of_neg (by simp [plain])]

theorem endsNumber_margin (level : Nat) (text : List Char) : EndsNumber ((margin level).toList ++ text) := by
  intro c same
  rw [margin, String.toList_ofList] at same
  obtain rfl := Option.mem_some.mp same
  decide

theorem endsNumber_comma (text : List Char) : EndsNumber (',' :: text) := by
  intro c same
  obtain rfl := Option.mem_some.mp same
  decide

/-- What is read as a value begins neither with a blank nor with a bracket that closes a list. -/
theorem begins_of_value {limit fuel : Nat} {text : List Char} {found : Json × List Char}
    (read : value limit fuel text = .ok found) : ∃ c rest, text = c :: rest ∧ isBlankChar c = false ∧ c ≠ ']' := by
  cases fuel with
  | zero => contradiction
  | succ fuel =>
    cases text with
    | nil => contradiction
    | cons c rest =>
      refine ⟨c, rest, rfl, ?_, ?_⟩
      · cases blank : isBlankChar c with
        | false => rfl
        | true =>
          simp only [isBlankChar, Bool.or_eq_true, decide_eq_true_eq] at blank
          rcases blank with ((rfl | rfl) | rfl) | rfl <;> contradiction
      · rintro rfl
        contradiction

/-! Steps of the reader -/

variable {limit fuel : Nat} {text after next rest : List Char} {found : Json} {key : String}

theorem items_last (read : value limit fuel text = .ok (found, after)) (closes : skipBlanks after = ']' :: rest) :
    items limit (fuel + 1) text = .ok ([found], rest) := by
  simp [items, read, closes, bind, Except.bind, pure, Except.pure]

theorem items_more {others : List Json} (read : value limit fuel text = .ok (found, after))
    (goesOn : skipBlanks after = ',' :: next) (more : items limit fuel (skipBlanks next) = .ok (others, rest)) :
    items limit (fuel + 1) text = .ok (found :: others, rest) := by
  simp [items, read, goesOn, more, bind, Except.bind, pure, Except.pure]

theorem entries_last (named : stringRest (text.length + 1) [] text = .ok (key, ':' :: ' ' :: next))
    (read : value limit fuel (skipBlanks next) = .ok (found, after)) (closes : skipBlanks after = '\x7d' :: rest) :
    entries limit (fuel + 1) ('"' :: text) = .ok ([(key, found)], rest) := by
  have colon : skipBlanks (':' :: ' ' :: next) = ':' :: ' ' :: next := rfl
  have blank : skipBlanks (' ' :: next) = skipBlanks next := rfl
  simp [entries, named, colon, blank, read, closes, bind, Except.bind, pure, Except.pure]

theorem entries_more {others : List (String × Json)}
    (named : stringRest (text.length + 1) [] text = .ok (key, ':' :: ' ' :: next))
    (read : value limit fuel (skipBlanks next) = .ok (found, after)) {behind : List Char}
    (goesOn : skipBlanks after = ',' :: behind) (more : entries limit fuel (skipBlanks behind) = .ok (others, rest)) :
    entries limit (fuel + 1) ('"' :: text) = .ok ((key, found) :: others, rest) := by
  have colon : skipBlanks (':' :: ' ' :: next) = ':' :: ' ' :: next := rfl
  have blank : skipBlanks (' ' :: next) = skipBlanks next := rfl
  simp [entries, named, colon, blank, read, goesOn, more, bind, Except.bind, pure, Except.pure]

/-! Reading -/

/-- A value is read wherever it is written, provided that there is fuel for its text. -/
def ReadsBack (limit : Nat) (item : Json) : Prop :=
  ∀ level fuel rest, (indented level item).toList.length ≤ fuel + 1 → EndsNumber rest →
    value limit (fuel + 1) ((indented level item).toList ++ rest) = .ok (item, rest)

theorem begins_indented {item : Json} (reads : ReadsBack limit item) (level : Nat) (rest : List Char) :
    ∃ c others, (indented level item).toList ++ rest = c :: others ∧ isBlankChar c = false ∧ c ≠ ']' := by
  have read := reads level (indented level item).toList.length [] (Nat.le_succ _) (by simp [EndsNumber])
  obtain ⟨c, others, shape, plain⟩ := begins_of_value read
  rw [List.append_nil] at shape
  exact ⟨c, others ++ rest, by rw [shape, List.cons_append], plain⟩

/-- The text of the items of a list. -/
abbrev itemsText (level : Nat) (parts : List Json) : List Char := joined level (parts.map (indented level))

theorem begins_itemsText {first : Json} (reads : ReadsBack limit first) (level : Nat) (others : List Json)
    (rest : List Char) : ∃ c behind, itemsText level (first :: others) ++ rest = c :: behind ∧
      isBlankChar c = false ∧ c ≠ ']' := by
  obtain ⟨tail, shape⟩ := joined_leads level (indented level first) (others.map (indented level))
  rw [itemsText, List.map_cons, shape, List.append_assoc]
  exact begins_indented reads level (tail ++ rest)

theorem items_itemsText (level : Nat) {parts : List Json} (all : ∀ item ∈ parts, ReadsBack limit item)
    (some : parts ≠ []) (enough : (itemsText (level + 1) parts).length + 1 < fuel) :
    items limit fuel (itemsText (level + 1) parts ++ ((margin level).toList ++ ']' :: rest)) =
      .ok (parts, rest) := by
  induction parts generalizing fuel with
  | nil => contradiction
  | cons first others ih =>
    obtain ⟨firstReads, othersRead⟩ := List.forall_mem_cons.mp all
    obtain ⟨fuel, rfl⟩ : ∃ more, fuel = more + 2 := ⟨fuel - 2, by omega⟩
    cases others with
    | nil =>
      have shape : itemsText (level + 1) [first] = (indented (level + 1) first).toList := by simp [joined]
      rw [shape] at enough ⊢
      exact items_last (firstReads _ _ _ (by omega) (endsNumber_margin _ _)) (skipBlanks_margin _ rfl _)
    | cons second others =>
      have shape : itemsText (level + 1) (first :: second :: others) = (indented (level + 1) first).toList ++
          (',' :: ((margin (level + 1)).toList ++ itemsText (level + 1) (second :: others))) :=
        joined_cons_cons ..
      rw [shape] at enough ⊢
      have new := length_margin (level + 1)
      simp only [List.length_append, List.length_cons] at enough
      have later := @ih (fuel + 1) othersRead (List.cons_ne_nil _ _) (by omega)
      obtain ⟨c, behind, begins, plain, _⟩ := begins_itemsText (othersRead second List.mem_cons_self)
        (level + 1) others ((margin level).toList ++ ']' :: rest)
      rw [begins] at later
      simp only [List.append_assoc, List.cons_append, begins]
      refine items_more (firstReads _ _ _ (by omega) (endsNumber_comma _)) rfl ?_
      rw [skipBlanks_margin _ plain]
      exact later

/-- The text of the fields of an object. -/
abbrev fieldsText (level : Nat) (fields : Fields) : List Char := joined level (fields.map (indentedField level))

/-- A field begins with its key, behind which its value is read. -/
theorem begins_indentedField {field : String × Json} (reads : ReadsBack limit field.2) (level : Nat)
    (rest : List Char) : ∃ text next, (indentedField level field).toList ++ rest = '"' :: text ∧
      (∀ opening, stringRest opening [] text = .ok (field.1, ':' :: ' ' :: next)) ∧
      skipBlanks next = (indented level field.2).toList ++ rest := by
  obtain ⟨text, shape, named⟩ := stringRest_jsonQuoted field.1
    (':' :: ' ' :: ((indented level field.2).toList ++ rest))
  refine ⟨text, _, ?_, named, ?_⟩
  · rw [← shape]
    simp [indentedField]
  · obtain ⟨c, others, begins, plain, _⟩ := begins_indented reads level rest
    rw [begins, skipBlanks, List.dropWhile_cons_of_neg (by simp [plain])]

theorem length_indentedField (level : Nat) (field : String × Json) :
    (indented level field.2).toList.length ≤ (indentedField level field).toList.length := by
  simp only [indentedField, String.toList_append, List.length_append]
  omega

theorem begins_fieldsText {first : String × Json} (reads : ReadsBack limit first.2) (level : Nat) (others : Fields)
    (rest : List Char) : ∃ text, fieldsText level (first :: others) ++ rest = '"' :: text := by
  obtain ⟨tail, shape⟩ := joined_leads level (indentedField level first) (others.map (indentedField level))
  obtain ⟨text, _, begins, _⟩ := begins_indentedField reads level (tail ++ rest)
  rw [fieldsText, List.map_cons, shape, List.append_assoc]
  exact ⟨text, begins⟩

theorem entries_field_last {field : String × Json} (reads : ReadsBack limit field.2) (level : Nat)
    (enough : (indentedField (level + 1) field).toList.length ≤ fuel + 1) :
    entries limit (fuel + 2) ((indentedField (level + 1) field).toList ++ ((margin level).toList ++ '\x7d' :: rest)) =
      .ok ([field], rest) := by
  have shorter := length_indentedField (level + 1) field
  obtain ⟨text, next, begins, named, read⟩ := begins_indentedField reads (level + 1)
    ((margin level).toList ++ '\x7d' :: rest)
  rw [begins]
  refine entries_last (named _) ?_ (skipBlanks_margin level rfl rest)
  rw [read]
  exact reads _ _ _ (by omega) (endsNumber_margin _ _)

theorem entries_field_more {field : String × Json} {others : Fields} {behind : List Char}
    (reads : ReadsBack limit field.2) (level : Nat)
    (enough : (indentedField level field).toList.length ≤ fuel + 1)
    (more : entries limit (fuel + 1) ('"' :: behind) = .ok (others, rest)) :
    entries limit (fuel + 2) ((indentedField level field).toList ++ ',' :: ((margin level).toList ++ '"' :: behind)) =
      .ok (field :: others, rest) := by
  have shorter := length_indentedField level field
  obtain ⟨text, next, begins, named, read⟩ := begins_indentedField reads level
    (',' :: ((margin level).toList ++ '"' :: behind))
  rw [begins]
  have comma : skipBlanks (',' :: ((margin level).toList ++ '"' :: behind)) =
      ',' :: ((margin level).toList ++ '"' :: behind) := rfl
  refine entries_more (named _) ?_ comma ?_
  · rw [read]
    exact reads _ _ _ (by omega) (endsNumber_comma _)
  · rw [skipBlanks_margin _ rfl]
    exact more

theorem entries_fieldsText (level : Nat) {fields : Fields} (all : ∀ field ∈ fields, ReadsBack limit field.2)
    (some : fields ≠ []) (enough : (fieldsText (level + 1) fields).length + 1 < fuel) :
    entries limit fuel (fieldsText (level + 1) fields ++ ((margin level).toList ++ '\x7d' :: rest)) =
      .ok (fields, rest) := by
  induction fields generalizing fuel with
  | nil => contradiction
  | cons first others ih =>
    obtain ⟨firstReads, othersRead⟩ := List.forall_mem_cons.mp all
    obtain ⟨fuel, rfl⟩ : ∃ more, fuel = more + 2 := ⟨fuel - 2, by omega⟩
    cases others with
    | nil =>
      have shape : fieldsText (level + 1) [first] = (indentedField (level + 1) first).toList := by simp [joined]
      rw [shape] at enough ⊢
      exact entries_field_last firstReads level (by omega)
    | cons second others =>
      have shape : fieldsText (level + 1) (first :: second :: others) =
          (indentedField (level + 1) first).toList ++
            (',' :: ((margin (level + 1)).toList ++ fieldsText (level + 1) (second :: others))) :=
        joined_cons_cons ..
      rw [shape] at enough ⊢
      have new := length_margin (level + 1)
      simp only [List.length_append, List.length_cons] at enough
      have later := @ih (fuel + 1) othersRead (List.cons_ne_nil _ _) (by omega)
      obtain ⟨behind, opens⟩ := begins_fieldsText (othersRead second List.mem_cons_self) (level + 1) others
        ((margin level).toList ++ '\x7d' :: rest)
      rw [opens] at later
      simp only [List.append_assoc, List.cons_append, opens]
      exact entries_field_more firstReads _ (by omega) later

/-! Whole documents -/

theorem value_list {parts : List Json} {c : Char} (opens : skipBlanks text = c :: next) (more : c ≠ ']')
    (read : items limit fuel (c :: next) = .ok (parts, rest)) :
    value (limit + 1) (fuel + 1) ('[' :: text) = .ok (.arr parts, rest) := by
  simp [value, inside, opens, more, read, bind, Except.bind, pure, Except.pure]

theorem value_object {fields : Fields} (opens : skipBlanks text = '"' :: next)
    (read : entries limit fuel ('"' :: next) = .ok (fields, rest)) :
    value (limit + 1) (fuel + 1) ('\x7b' :: text) = .ok (.obj (Fields.ofEntries fields), rest) := by
  simp [value, inside, opens, read, bind, Except.bind, pure, Except.pure]

theorem readsBack_arr {parts : List Json} (all : ∀ item ∈ parts, ReadsBack limit item) :
    ReadsBack (limit + 1) (.arr parts) := by
  intro level fuel rest enough _
  rw [indented, indentedItems_eq] at enough ⊢
  cases parts with
  | nil =>
    rw [List.map_nil, block]
    rfl
  | cons first others =>
    have some : (first :: others).map (indented (level + 1)) ≠ [] := List.cons_ne_nil _ _
    have inner : (itemsText (level + 1) (first :: others)).length + 2 + 1 + 1 ≤ _ :=
      length_block "[" "]" level some
    have read := @items_itemsText limit fuel rest level (first :: others) all (List.cons_ne_nil _ _) (by omega)
    obtain ⟨c, behind, begins, plain, more⟩ := begins_itemsText (all first List.mem_cons_self)
      (level + 1) others ((margin level).toList ++ ']' :: rest)
    have opens : skipBlanks ((margin (level + 1)).toList ++ (itemsText (level + 1) (first :: others) ++
        ((margin level).toList ++ ']' :: rest))) = c :: behind := by
      rw [begins]
      exact skipBlanks_margin _ plain _
    rw [begins] at read
    rw [toList_block _ _ _ some]
    simp only [List.append_assoc]
    exact value_list opens more read

theorem readsBack_obj {fields : Fields} (distinct : (fields.map Prod.fst).Nodup)
    (all : ∀ field ∈ fields, ReadsBack limit field.2) : ReadsBack (limit + 1) (.obj fields) := by
  intro level fuel rest enough _
  rw [indented, indentedFields_eq] at enough ⊢
  cases fields with
  | nil =>
    rw [List.map_nil, block]
    rfl
  | cons first others =>
    have some : (first :: others).map (indentedField (level + 1)) ≠ [] := List.cons_ne_nil _ _
    have inner : (fieldsText (level + 1) (first :: others)).length + 2 + 1 + 1 ≤ _ :=
      length_block "\x7b" "\x7d" level some
    have read := @entries_fieldsText limit fuel rest level (first :: others) all (List.cons_ne_nil _ _) (by omega)
    obtain ⟨behind, begins⟩ := begins_fieldsText (all first List.mem_cons_self) (level + 1) others
      ((margin level).toList ++ '\x7d' :: rest)
    have opens : skipBlanks ((margin (level + 1)).toList ++ (fieldsText (level + 1) (first :: others) ++
        ((margin level).toList ++ '\x7d' :: rest))) = '"' :: behind := by
      rw [begins]
      exact skipBlanks_margin _ rfl _
    have kept : Fields.ofEntries (first :: others) = first :: others := Fields.ofEntries_of_distinct distinct
    rw [begins] at read
    have found := value_object opens read
    rw [kept] at found
    rw [toList_block _ _ _ some]
    simp only [List.append_assoc]
    exact found

theorem readsBack_of_storable {item : Json} (storable : item.Storable) (flat : item.depth ≤ limit) :
    ReadsBack limit item := by
  induction storable generalizing limit with
  | null =>
    intro level fuel rest _ _
    rw [indented]
    rfl
  | bool value =>
    intro level fuel rest _ _
    rw [indented]
    cases value <;> rfl
  | @num value short =>
    intro level fuel rest _ ends
    rw [indented]
    exact Number.value_write short limit fuel ends
  | str value =>
    intro level fuel rest _ _
    obtain ⟨text, shape, reads⟩ := stringRest_jsonQuoted value rest
    rw [indented, shape]
    simp [Json.value, reads, bind, Except.bind, pure, Except.pure]
  | arr _ ih =>
    obtain ⟨limit, rfl⟩ := Nat.exists_eq_add_one_of_ne_zero (Nat.ne_zero_of_lt flat)
    exact readsBack_arr fun item member => ih item member (depth_arr_le.mp flat item member)
  | obj distinct _ ih =>
    obtain ⟨limit, rfl⟩ := Nat.exists_eq_add_one_of_ne_zero (Nat.ne_zero_of_lt flat)
    exact readsBack_obj distinct fun field member => ih field member (depth_obj_le.mp flat field member)

end Json

/-! Files -/

namespace Directory

theorem unifyLines_of_free {text : List Char} (free : '\r' ∉ text) : unifyLines text = text := by
  induction text with
  | nil => rfl
  | cons c rest ih =>
    rw [List.mem_cons, not_or] at free
    have other : c ≠ '\r' := Ne.symm free.1
    rw [unifyLines, ih free.2] <;> simp [other]

theorem readable_of_allWritten {text : String} (written : Json.AllWritten text.toList) : readable text = text := by
  have free : '\r' ∉ text.toList := by
    intro member
    rcases written _ member with same | printable
    · exact absurd same (by decide)
    · exact absurd printable (by decide)
  rw [readable, unifyLines_of_free free, String.ofList_toList]

end Directory

namespace Json

theorem ofChars_pretty {limit : Nat} {item : Json} (storable : item.Storable) (flat : item.depth ≤ limit) :
    ofChars limit item.pretty.toList = .ok item := by
  have reads := readsBack_of_storable storable flat
  obtain ⟨c, rest, begins, plain, _⟩ := begins_indented reads 0 []
  have started : skipBlanks item.pretty.toList = item.pretty.toList := by
    rw [List.append_nil] at begins
    rw [pretty, begins, skipBlanks, List.dropWhile_cons_of_neg (by simp [plain])]
  have whole : value limit (2 * item.pretty.toList.length + 2) item.pretty.toList = .ok (item, []) := by
    have read := reads 0 (2 * item.pretty.toList.length + 1) [] (by rw [pretty]; omega) (by simp [EndsNumber])
    rwa [List.append_nil] at read
  have read : document limit item.pretty.toList = .ok item := by
    rw [document, started, whole]
    rfl
  rw [ofChars, read]

end Json

/-- What is written of a storable document is read back. -/
theorem Store.readText_pretty {limit : Nat} {item : Json} (storable : item.Storable) (flat : item.depth ≤ limit) :
    readText limit item.pretty = .ok item := by
  have written : Json.AllWritten item.pretty.toList := Json.allWritten_indented storable 0
  rw [readText, Directory.readable_of_allWritten written, Json.ofText]
  split
  · rename_i rest marked
    have mark : Json.IsWritten '\ufeff' := written _ (marked ▸ List.mem_cons_self)
    rcases mark with same | printable
    · exact absurd same (by decide)
    · exact absurd printable (by decide)
  · exact Json.ofChars_pretty storable flat

end OutreachFlow
