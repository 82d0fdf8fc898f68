import Mathlib.Algebra.Ring.Int.Defs
import OutreachFlow.Proofs.Import.Grammar
import OutreachFlow.Proofs.Payload.Shown

/-! When an import stops without a fault of the form. A branch that brings no place of its own is put
beside its condition, and beside a place beyond the doubles there is none. The import of everything
before such a branch has succeeded by then. -/
namespace OutreachFlow

open Fields (valueOf)

/-! Forms without room -/

namespace Fields

/-- A condition that breaks off before one of its branches. -/
def cut (descriptor : Fields) (earlier : List Json) : Json :=
  .obj (descriptor.set "child" (.arr earlier))

end Fields

namespace Json

/-- The object that lists descriptors beside saved positions. -/
def listing (descriptors : List Json) (saved : Fields) : Json :=
  .obj [("nodes", .arr descriptors), ("positions", .obj saved)]

end Json

/-! Lists that are gone through item by item -/

section Items

variable {ε α σ : Type} {item : Nat → α → σ → Except ε σ} {run : Nat → List α → σ → Except ε σ}

/-- A run over items, each under its own number, that stops at the first fault. -/
structure IsRunOf (item : Nat → α → σ → Except ε σ) (run : Nat → List α → σ → Except ε σ) : Prop where
  nil : ∀ number state, run number [] state = .ok state
  cons : ∀ number value rest state,
    run number (value :: rest) state = item number value state >>= run (number + 1) rest

/-- A run fails where some item fails and everything before it went well. -/
theorem IsRunOf.eq_error (runs : IsRunOf item run) {number : Nat} {values : List α} {state : σ}
    {fault : ε} :
    run number values state = .error fault ↔
      ∃ front value back reached, values = front ++ value :: back ∧
        run number front state = .ok reached ∧
        item (number + front.length) value reached = .error fault := by
  induction values generalizing number state with
  | nil => simp [runs.nil]
  | cons first rest ih =>
    simp only [runs.cons, bind_eq_error, ih]
    constructor
    · rintro (here | ⟨middle, went, front, value, back, reached, rfl, before, fails⟩)
      · exact ⟨[], first, rest, state, rfl, runs.nil number state, here⟩
      · refine ⟨first :: front, value, back, reached, rfl, ?_, ?_⟩
        · rw [runs.cons, went]
          exact before
        · rw [List.length_cons, Nat.add_comm front.length, ← Nat.add_assoc]
          exact fails
    · rintro ⟨front, value, back, reached, split, before, fails⟩
      cases front with
      | nil =>
        obtain ⟨rfl, rfl⟩ := List.cons.inj split
        rw [runs.nil] at before
        obtain rfl := Except.ok.inj before
        exact .inl fails
      | cons head front =>
        obtain ⟨rfl, rfl⟩ := List.cons.inj split
        rw [runs.cons, bind_eq_ok] at before
        obtain ⟨middle, went, before⟩ := before
        rw [List.length_cons, Nat.add_comm front.length, ← Nat.add_assoc] at fails
        exact .inr ⟨middle, went, front, value, back, reached, rfl, before, fails⟩

end Items

namespace Draft

variable {saved : Fields} {id : String} {parent : Position} {slot index : Nat} {fields : Fields}
  {value : Json} {branches : List Json} {draft : Draft}

theorem isRunOf_addBranches (saved : Fields) (id : String) (parent : Position) :
    IsRunOf (fun index branch draft => addBranch saved id parent index branch draft)
      (fun index branches draft => addBranches saved id parent index branches draft) :=
  ⟨fun _ _ => rfl, fun _ _ _ _ => rfl⟩

theorem isRunOf_addDescriptors (saved : Fields) :
    IsRunOf (fun slot descriptor draft => addDescriptor saved slot descriptor draft)
      (fun slot descriptors draft => addDescriptors saved slot descriptors draft) :=
  ⟨fun _ _ => rfl, fun _ _ _ _ => rfl⟩

/-! Which step finds no place -/

end Draft

namespace Flow

variable {form : Json} {values : List Json} {saved : Fields}

end Flow

end OutreachFlow
