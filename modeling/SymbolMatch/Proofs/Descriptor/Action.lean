/-
Renaming acts on descriptors. What a partial renaming does to a text is
what it does to the type that the text stands for: the classes that the
type names change and nothing else of it does, a renaming of nothing
changes nothing, and one renaming after another is one renaming.

A text is told to be a method's by its opening parenthesis. No field
text begins with one and no renaming touches it, so each of the two
kinds is renamed as what it is.
-/
import Mathlib.Data.List.Forall2
import SymbolMatch.Proofs.Descriptor.Renaming

namespace SymbolMatch

-- ============================================================= the types

/-- A type that another becomes when the class it names is renamed. -/
structure TypeDesc.Follows (g : String → String) (t t' : TypeDesc) :
    Prop where
  dimensions : t'.dimensions = t.dimensions
  className? : t'.className? = t.className?.map g
  primitive : ∀ p, t'.element = .primitive p ↔ t.element = .primitive p

/-- A method type that another becomes: as many parameters, each in its
place, and a result if and only if there was one. -/
structure MethodDesc.Follows (g : String → String) (m m' : MethodDesc) :
    Prop where
  params : List.Forall₂ (TypeDesc.Follows g) m.params m'.params
  result : Option.Rel (TypeDesc.Follows g) m.result m'.result

namespace TypeDesc

@[simp] theorem element_mapClasses (g : String → String) (t : TypeDesc) :
    (t.mapClasses g).element = t.element.mapClasses g := by
  induction t with
  | primitive p => rfl
  | object name => rfl
  | array item ih => exact ih

theorem mapClasses_eq_primitive_iff {g : String → String} {t : TypeDesc}
    {p : Primitive} :
    t.mapClasses g = .primitive p ↔ t = .primitive p := by
  cases t <;> simp [mapClasses]

@[simp] theorem mapClasses_id (t : TypeDesc) : t.mapClasses id = t := by
  induction t with
  | primitive p => rfl
  | object name => rfl
  | array item ih => exact congrArg array ih

theorem follows_mapClasses (g : String → String) (t : TypeDesc) :
    t.Follows g (t.mapClasses g) where
  dimensions := t.dimensions_mapClasses g
  className? := t.className?_mapClasses g
  primitive := fun p => by
    rw [element_mapClasses, mapClasses_eq_primitive_iff]

end TypeDesc

namespace MethodDesc

@[simp] theorem mapClasses_id (m : MethodDesc) : m.mapClasses id = m := by
  have htypes : TypeDesc.mapClasses id = id := funext TypeDesc.mapClasses_id
  unfold mapClasses
  rw [htypes, List.map_id, Option.map_id, id]

theorem follows_mapClasses (g : String → String) (m : MethodDesc) :
    m.Follows g (m.mapClasses g) where
  params := by
    unfold mapClasses
    rw [List.forall₂_map_right_iff, List.forall₂_same]
    exact fun t _ => t.follows_mapClasses g
  result := by
    unfold mapClasses
    cases m.result with
    | none => exact .none
    | some t => exact .some (t.follows_mapClasses g)

end MethodDesc

-- ============================================================= the texts

namespace Descriptor

variable {text : String} {f g : String → Option String}
  {r s : String → String}

theorem IsField.toList_ne_open (ht : IsField text) (rest : List Char) :
    text.toList ≠ '(' :: rest := by
  obtain ⟨t, ht⟩ := ht
  rw [← (field_eq_ok_iff.1 ht).2]
  unfold TypeDesc.descriptor
  rw [String.toList_ofList]
  cases t with
  | primitive p => cases p <;> simp [TypeDesc.chars, Primitive.letter]
  | object name => simp [TypeDesc.chars]
  | array item => simp [TypeDesc.chars]

theorem IsMethod.exists_toList_eq_open (ht : IsMethod text) :
    ∃ rest, text.toList = '(' :: rest := by
  obtain ⟨m, hm⟩ := ht
  rw [← (method_eq_ok_iff.1 hm).2]
  unfold MethodDesc.descriptor
  rw [String.toList_ofList]
  exact ⟨_, rfl⟩

/-- No text is a field's and a method's. -/
theorem IsField.not_isMethod (ht : IsField text) : ¬IsMethod text := by
  intro hm
  obtain ⟨rest, hopen⟩ := hm.exists_toList_eq_open
  exact ht.toList_ne_open rest hopen

theorem IsField.rename (ht : IsField text) :
    rename f text = .ok (renamedField (renamed f) text) := by
  unfold Descriptor.rename
  split
  · next rest hopen => exact absurd hopen (ht.toList_ne_open rest)
  · exact Outcome.bind_eq_ok_iff.2 ⟨_, ht.read, rfl⟩

theorem IsMethod.rename (ht : IsMethod text) :
    rename f text = .ok (renamedMethod (renamed f) text) := by
  obtain ⟨rest, hopen⟩ := ht.exists_toList_eq_open
  unfold Descriptor.rename
  rw [hopen]
  exact Outcome.bind_eq_ok_iff.2 ⟨_, ht.read, rfl⟩

theorem IsField.renamed_id (ht : IsField text) :
    renamedField id text = text := by
  unfold renamedField
  rw [TypeDesc.mapClasses_id]
  exact (field_eq_ok_iff.1 ht.read).2

theorem IsMethod.renamed_id (ht : IsMethod text) :
    renamedMethod id text = text := by
  unfold renamedMethod
  rw [MethodDesc.mapClasses_id]
  exact (method_eq_ok_iff.1 ht.read).2

theorem IsField.renamed_renamed (ht : IsField text)
    (hnames : ∀ n ∈ fieldNames text, IsName (r n)) :
    renamedField s (renamedField r text) = renamedField (s ∘ r) text := by
  change ((fieldType (renamedField r text)).mapClasses s).descriptor = _
  rw [fieldType_eq (ht.read_renamed hnames), TypeDesc.mapClasses_mapClasses]
  rfl

theorem IsMethod.renamed_renamed (ht : IsMethod text)
    (hnames : ∀ n ∈ methodNames text, IsName (r n)) :
    renamedMethod s (renamedMethod r text) = renamedMethod (s ∘ r) text := by
  change ((methodType (renamedMethod r text)).mapClasses s).descriptor = _
  rw [methodType_eq (ht.read_renamed hnames), MethodDesc.mapClasses_mapClasses]
  rfl

-- =========================================================== the theorem

/-- A partial renaming whose values can stand in a descriptor. -/
def GivesNames (f : String → Option String) : Prop :=
  ∀ n m, f n = some m → IsName m

/-- What can stand in a descriptor still can under a renaming. -/
theorem GivesNames.isName_renamed (hf : GivesNames f) {n : String}
    (hn : IsName n) : IsName (renamed f n) := by
  unfold renamed
  cases hm : f n with
  | none => exact hn
  | some m => exact hf n m hm

theorem renamed_none : renamed (fun _ => none) = id := rfl

/-- Every descriptor can be renamed. The renamed text is a descriptor of
the same kind and stands for the renamed type; a renaming of nothing
gives the text back; and to rename by `f` and then by `g` is to rename
once, by any `h` that takes each name where the two together take it. -/
theorem rename_acts (hf : GivesNames f) (ht : IsField text ∨ IsMethod text) :
    ∃ text' text'', rename f text = .ok text'
      ∧ (∀ t, field text = .ok t →
        field text' = .ok (t.mapClasses (renamed f))
          ∧ t.Follows (renamed f) (t.mapClasses (renamed f)))
      ∧ (∀ m, method text = .ok m →
        method text' = .ok (m.mapClasses (renamed f))
          ∧ m.Follows (renamed f) (m.mapClasses (renamed f)))
      ∧ rename (fun _ => none) text = .ok text
      ∧ rename g text' = .ok text''
      ∧ ∀ h : String → Option String,
        (∀ n, renamed h n = renamed g (renamed f n)) →
          rename h text = .ok text'' := by
  rcases ht with ht | ht
  · have hnames : ∀ n ∈ fieldNames text, IsName (renamed f n) :=
      fun n hn => hf.isName_renamed (ht.isName hn)
    have ht' : IsField (renamedField (renamed f) text) :=
      ⟨_, ht.read_renamed hnames⟩
    refine ⟨_, _, ht.rename, fun t hread => ?_,
      fun m hread => absurd ⟨m, hread⟩ ht.not_isMethod, ?_, ht'.rename,
      fun h hh => ?_⟩
    · rw [← fieldType_eq hread]
      exact ⟨ht.read_renamed hnames, TypeDesc.follows_mapClasses _ _⟩
    · rw [ht.rename, renamed_none, ht.renamed_id]
    · rw [ht.rename, ht.renamed_renamed hnames,
        show renamed h = renamed g ∘ renamed f from funext hh]
  · have hnames : ∀ n ∈ methodNames text, IsName (renamed f n) :=
      fun n hn => hf.isName_renamed (ht.isName hn)
    have ht' : IsMethod (renamedMethod (renamed f) text) :=
      ⟨_, ht.read_renamed hnames⟩
    refine ⟨_, _, ht.rename,
      fun t hread => absurd ht (IsField.not_isMethod ⟨t, hread⟩),
      fun m hread => ?_, ?_, ht'.rename, fun h hh => ?_⟩
    · rw [← methodType_eq hread]
      exact ⟨ht.read_renamed hnames, MethodDesc.follows_mapClasses _ _⟩
    · rw [ht.rename, renamed_none, ht.renamed_id]
    · rw [ht.rename, ht.renamed_renamed hnames,
        show renamed h = renamed g ∘ renamed f from funext hh]

end Descriptor

namespace Sample

/-- Two classes that take each other's name. -/
def exchange : String → Option String
  | "a" => some "b"
  | "b" => some "a"
  | _ => none

theorem givesNames_exchange : Descriptor.GivesNames exchange := by
  intro n m h
  unfold exchange at h
  split at h <;> cases h <;> decide

theorem exchange_exchange (n : String) :
    Descriptor.renamed exchange (Descriptor.renamed exchange n) = n := by
  by_cases ha : n = "a"
  · rw [ha]
    rfl
  · by_cases hb : n = "b"
    · rw [hb]
      rfl
    · have hn : Descriptor.renamed exchange n = n := by
        simp [Descriptor.renamed, exchange]
      rw [hn, hn]

end Sample

namespace Descriptor

/-- An exchange of names is no confusion of them: done twice, it gives the
text back. -/
theorem rename_acts_exchange :
    rename Sample.exchange "([La;Lb;I)La;" = .ok "([Lb;La;I)Lb;"
      ∧ rename Sample.exchange "([Lb;La;I)Lb;" = .ok "([La;Lb;I)La;" := by
  have hread : IsMethod "([La;Lb;I)La;" := ⟨_, rfl⟩
  have hvalue :
      rename Sample.exchange "([La;Lb;I)La;" = .ok "([Lb;La;I)Lb;" := rfl
  obtain ⟨text', text'', hfirst, -, -, hnone, hsecond, hboth⟩ :=
    rename_acts (g := Sample.exchange) Sample.givesNames_exchange (.inr hread)
  rw [hvalue] at hfirst
  cases hfirst
  have hback := hboth (fun _ => none) fun n => (Sample.exchange_exchange n).symm
  rw [hnone] at hback
  cases hback
  exact ⟨hvalue, hsecond⟩

end Descriptor

end SymbolMatch
