/-
Accepted texts read once and for all: the type that a field text stands
for, and the method type that a method text stands for, as plain values.
A snapshot is checked before anything is read from it, so everything
that is drawn from it can be described by these values, with no failure
left in it.

The two readings are sealed: a proof that opens one runs the parser, so
proofs go by `fieldType_eq` and `methodType_eq`.
-/
import SymbolMatch.Proofs.Descriptor.RoundTrip

namespace SymbolMatch

namespace Descriptor

open Outcome

/-- A text that is the descriptor of a field. -/
def IsField (text : String) : Prop := ∃ t, field text = .ok t

/-- A text that is the descriptor of a method. -/
def IsMethod (text : String) : Prop := ∃ m, method text = .ok m

/-- The type of a field text; `int` for a text that is none. -/
@[irreducible] def fieldType (text : String) : TypeDesc :=
  match field text with
  | .ok t => t
  | .error _ => .primitive .int

/-- The type of a method text; no parameters and no result for a text
that is none. -/
@[irreducible] def methodType (text : String) : MethodDesc :=
  match method text with
  | .ok m => m
  | .error _ => ⟨[], none⟩

variable {text : String} {transient : String → Bool}

theorem fieldType_eq {t : TypeDesc} (h : field text = .ok t) :
    fieldType text = t := by
  unfold fieldType
  rw [h]

theorem methodType_eq {m : MethodDesc} (h : method text = .ok m) :
    methodType text = m := by
  unfold methodType
  rw [h]

theorem IsField.read (h : IsField text) :
    field text = .ok (fieldType text) := by
  obtain ⟨t, ht⟩ := h
  rw [fieldType_eq ht, ht]

theorem IsMethod.read (h : IsMethod text) :
    method text = .ok (methodType text) := by
  obtain ⟨m, hm⟩ := h
  rw [methodType_eq hm, hm]

theorem IsField.wellFormed (h : IsField text) :
    (fieldType text).WellFormed :=
  (field_eq_ok_iff.1 h.read).1

theorem IsMethod.wellFormed (h : IsMethod text) :
    (methodType text).WellFormed :=
  (method_eq_ok_iff.1 h.read).1

/-- The text of a well-formed type stands for that type. -/
theorem field_descriptor {t : TypeDesc} (h : t.WellFormed) :
    field t.descriptor = .ok t :=
  field_eq_ok_iff.2 ⟨h, rfl⟩

/-- The text of a well-formed method type stands for that type. -/
theorem method_descriptor {m : MethodDesc} (h : m.WellFormed) :
    method m.descriptor = .ok m :=
  method_eq_ok_iff.2 ⟨h, rfl⟩

-- ============================================================= blurring

/-- A field text with its transient names blurred. -/
def blurredField (transient : String → Bool) (text : String) : String :=
  ((fieldType text).mapClasses (blur transient)).descriptor

/-- A method text with its transient names blurred. -/
def blurredMethod (transient : String → Bool) (text : String) : String :=
  ((methodType text).mapClasses (blur transient)).descriptor

theorem IsField.blur (h : IsField text) :
    blurField transient text = .ok (blurredField transient text) :=
  bind_eq_ok_iff.2 ⟨fieldType text, h.read, rfl⟩

theorem IsMethod.blur (h : IsMethod text) :
    blurMethod transient text = .ok (blurredMethod transient text) :=
  bind_eq_ok_iff.2 ⟨methodType text, h.read, rfl⟩

end Descriptor

end SymbolMatch
