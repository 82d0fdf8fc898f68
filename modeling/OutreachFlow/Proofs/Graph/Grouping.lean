import Mathlib.Data.List.Nodup
import Mathlib.Data.List.Perm.Basic

/-! Lists with keys: finding an item by its key, taking a list apart by key, and picking one group
out of a list that is put together from groups. Nodes are found in this way by their id, and edges
are grouped by the node that they start from. -/
namespace OutreachFlow

variable {α β κ : Type}

/-- Where keys are not shared, an item is what its key finds. -/
theorem find?_key_eq_some [DecidableEq κ] {items : List α} {key : α → κ} {k : κ} {item : α}
    (distinct : (items.map key).Nodup) :
    (items.find? fun other => key other = k) = some item ↔ item ∈ items ∧ key item = k := by
  constructor
  · intro found
    exact ⟨List.mem_of_find?_eq_some found, by simpa using List.find?_some found⟩
  · rintro ⟨member, rfl⟩
    cases found : items.find? fun other => key other = key item with
    | none => simpa using List.find?_eq_none.mp found item member
    | some other =>
      have same : key other = key item := by simpa using List.find?_some found
      rw [List.inj_on_of_nodup_map distinct (List.mem_of_find?_eq_some found) member same]

/-- A condition that only one group meets picks out of the whole what it picks out of that
group. -/
theorem filter_flatMap_of_unique {items : List α} {group : α → List β} {pick : β → Bool} {item : α}
    (distinct : items.Nodup) (member : item ∈ items)
    (others : ∀ other ∈ items, other ≠ item → ∀ value ∈ group other, pick value = false) :
    (items.flatMap group).filter pick = (group item).filter pick := by
  obtain ⟨front, back, rfl⟩ := List.append_of_mem member
  have apart : item ∉ front ∧ item ∉ back := by
    have parts := List.nodup_append'.mp distinct
    exact ⟨fun inside => parts.2.2 inside List.mem_cons_self, (List.nodup_cons.mp parts.2.1).1⟩
  have silent (list : List α) (part : ∀ other ∈ list, other ∈ front ++ item :: back)
      (free : item ∉ list) : (list.flatMap group).filter pick = [] := by
    rw [List.filter_eq_nil_iff]
    intro value found
    obtain ⟨other, inside, found⟩ := List.mem_flatMap.mp found
    have distinct : other ≠ item := fun same => free (same ▸ inside)
    simp [others other (part other inside) distinct value found]
  rw [List.flatMap_append, List.flatMap_cons, List.filter_append, List.filter_append,
    silent front (fun _ inside => List.mem_append_left _ inside) apart.1,
    silent back (fun _ inside => List.mem_append_right _ (List.mem_cons_of_mem _ inside)) apart.2,
    List.nil_append, List.append_nil]

/-- Grouping by keys that cover all items keeps every item as often as it comes. -/
theorem flatMap_filter_perm [DecidableEq κ] {keys : List κ} {items : List α} {key : α → κ}
    (distinct : keys.Nodup) (covered : ∀ item ∈ items, key item ∈ keys) :
    (keys.flatMap fun k => items.filter fun item => key item = k).Perm items := by
  induction keys generalizing items with
  | nil =>
    rw [List.eq_nil_iff_forall_not_mem.mpr fun item member => List.not_mem_nil (covered item member)]
    exact .refl _
  | cons k rest ih =>
    rw [List.nodup_cons] at distinct
    let others := items.filter fun item => !decide (key item = k)
    have outside : (rest.flatMap fun k' => others.filter fun item => key item = k').Perm others := by
      apply ih distinct.2
      intro item member
      obtain ⟨member, apart⟩ := List.mem_filter.mp member
      have different : key item ≠ k := by simpa using apart
      exact (List.mem_cons.mp (covered item member)).resolve_left different
    have same : (rest.flatMap fun k' => items.filter fun item => key item = k') =
        rest.flatMap fun k' => others.filter fun item => key item = k' := by
      apply List.flatMap_congr
      intro k' later
      rw [List.filter_filter]
      apply List.filter_congr
      intro item _
      have different : k' ≠ k := fun same => distinct.1 (same ▸ later)
      by_cases found : key item = k' <;> simp [found, different]
    rw [List.flatMap_cons, same]
    exact (outside.append_left _).trans (List.filter_append_perm _ items)

end OutreachFlow
