/-
Descriptors under a renaming of classes. A renaming acts on the types
that texts stand for; if it gives every class a name that can stand in a
descriptor, the renamed text stands for the renamed type.
-/
import Mathlib.Data.Set.Function
import SymbolMatch.Proofs.Descriptor.Reading

namespace SymbolMatch

variable {g h : String → String} {s : Set String}

-- ================================================================ types

namespace TypeDesc

variable {t t' : TypeDesc}

@[simp] theorem className?_mapClasses (g : String → String) (t : TypeDesc) :
    (t.mapClasses g).className? = t.className?.map g := by
  induction t with
  | primitive p => rfl
  | object name => rfl
  | array item ih => exact ih

@[simp] theorem dimensions_mapClasses (g : String → String) (t : TypeDesc) :
    (t.mapClasses g).dimensions = t.dimensions := by
  induction t with
  | primitive p => rfl
  | object name => rfl
  | array item ih => exact congrArg (· + 1) ih

theorem mapClasses_mapClasses (g h : String → String) (t : TypeDesc) :
    (t.mapClasses g).mapClasses h = t.mapClasses (h ∘ g) := by
  induction t with
  | primitive p => rfl
  | object name => rfl
  | array item ih => exact congrArg array ih

/-- Only what happens to the class of a type matters. -/
theorem mapClasses_congr (heq : ∀ n, t.className? = some n → g n = h n) :
    t.mapClasses g = t.mapClasses h := by
  induction t with
  | primitive p => rfl
  | object name => exact congrArg object (heq name rfl)
  | array item ih => exact congrArg array (ih heq)

/-- A renaming that keeps names apart keeps types apart. -/
theorem eq_of_mapClasses_eq (hinj : Set.InjOn g s)
    (ht : ∀ n, t.className? = some n → n ∈ s)
    (ht' : ∀ n, t'.className? = some n → n ∈ s)
    (heq : t.mapClasses g = t'.mapClasses g) : t = t' := by
  induction t generalizing t' with
  | primitive p =>
    cases t' with
    | primitive q => exact heq
    | object name => cases heq
    | array item => cases heq
  | object name =>
    cases t' with
    | primitive q => cases heq
    | object name' =>
      injection heq with heq
      rw [hinj (ht name rfl) (ht' name' rfl) heq]
    | array item => cases heq
  | array item ih =>
    cases t' with
    | primitive q => cases heq
    | object name => cases heq
    | array item' =>
      injection heq with heq
      exact congrArg array (ih ht ht' heq)

theorem WellFormed.mapClasses (hwf : t.WellFormed)
    (hnames : ∀ n, t.className? = some n → Descriptor.IsName (g n)) :
    (t.mapClasses g).WellFormed := by
  refine ⟨(dimensions_mapClasses g t).symm ▸ hwf.1, fun n hn => ?_⟩
  rw [className?_mapClasses] at hn
  obtain ⟨m, hm, rfl⟩ := Option.map_eq_some_iff.1 hn
  exact hnames m hm

end TypeDesc

namespace MethodDesc

variable {m : MethodDesc}

/-- The classes that the types of a method name. -/
def classNames (m : MethodDesc) : List String :=
  m.params.filterMap TypeDesc.className?
    ++ (m.result.bind TypeDesc.className?).toList

theorem mem_classNames_of_param {t : TypeDesc} {n : String}
    (ht : t ∈ m.params) (hn : t.className? = some n) : n ∈ m.classNames :=
  List.mem_append.2 (.inl (List.mem_filterMap.2 ⟨t, ht, hn⟩))

theorem mem_classNames_of_result {t : TypeDesc} {n : String}
    (ht : m.result = some t) (hn : t.className? = some n) :
    n ∈ m.classNames := by
  refine List.mem_append.2 (.inr ?_)
  rw [ht, Option.bind_some, hn]
  exact List.mem_singleton.2 rfl

theorem mapClasses_mapClasses (g h : String → String) (m : MethodDesc) :
    (m.mapClasses g).mapClasses h = m.mapClasses (h ∘ g) := by
  have htypes : TypeDesc.mapClasses h ∘ TypeDesc.mapClasses g
      = TypeDesc.mapClasses (h ∘ g) :=
    funext (TypeDesc.mapClasses_mapClasses g h)
  unfold mapClasses
  rw [List.map_map, Option.map_map, htypes]

theorem mapClasses_congr (heq : ∀ n ∈ m.classNames, g n = h n) :
    m.mapClasses g = m.mapClasses h := by
  have hparams : m.params.map (TypeDesc.mapClasses g)
      = m.params.map (TypeDesc.mapClasses h) :=
    List.map_congr_left fun t ht => TypeDesc.mapClasses_congr fun n hn =>
      heq n (mem_classNames_of_param ht hn)
  have hresult : m.result.map (TypeDesc.mapClasses g)
      = m.result.map (TypeDesc.mapClasses h) :=
    Option.map_congr fun t ht => TypeDesc.mapClasses_congr fun n hn =>
      heq n (mem_classNames_of_result ht hn)
  unfold mapClasses
  rw [hparams, hresult]

theorem WellFormed.mapClasses (hwf : m.WellFormed)
    (hnames : ∀ n ∈ m.classNames, Descriptor.IsName (g n)) :
    (m.mapClasses g).WellFormed := by
  refine ⟨fun t ht => ?_, fun t ht => ?_⟩
  · obtain ⟨param, hparam, rfl⟩ := List.mem_map.1 ht
    exact (hwf.1 param hparam).mapClasses fun n hn =>
      hnames n (mem_classNames_of_param hparam hn)
  · obtain ⟨result, hresult, rfl⟩ := Option.map_eq_some_iff.1 ht
    exact (hwf.2 result hresult).mapClasses fun n hn =>
      hnames n (mem_classNames_of_result hresult hn)

end MethodDesc

-- ================================================================ texts

namespace Descriptor

variable {text : String} {transient : String → Bool}

/-- A field text with its classes renamed. -/
def renamedField (g : String → String) (text : String) : String :=
  ((fieldType text).mapClasses g).descriptor

/-- A method text with its classes renamed. -/
def renamedMethod (g : String → String) (text : String) : String :=
  ((methodType text).mapClasses g).descriptor

/-- The class that a field text names. -/
def fieldNames (text : String) : List String :=
  (fieldType text).className?.toList

/-- The classes that a method text names. -/
def methodNames (text : String) : List String := (methodType text).classNames

theorem mem_fieldNames {n : String} :
    n ∈ fieldNames text ↔ (fieldType text).className? = some n := by
  unfold fieldNames
  rw [Option.mem_toList]

theorem IsField.isName (ht : IsField text) {n : String}
    (hn : n ∈ fieldNames text) : IsName n :=
  ht.wellFormed.2 n (mem_fieldNames.1 hn)

theorem IsMethod.isName (ht : IsMethod text) {n : String}
    (hn : n ∈ methodNames text) : IsName n := by
  rcases List.mem_append.1 hn with hn | hn
  · obtain ⟨t, hparam, hn⟩ := List.mem_filterMap.1 hn
    exact (ht.wellFormed.1 t hparam).2 n hn
  · obtain ⟨t, hresult, hn⟩ := Option.bind_eq_some_iff.1
      (Option.mem_toList.1 hn)
    exact (ht.wellFormed.2 t hresult).2 n hn

theorem IsField.read_renamed (ht : IsField text)
    (hnames : ∀ n ∈ fieldNames text, IsName (g n)) :
    field (renamedField g text) = .ok ((fieldType text).mapClasses g) :=
  field_descriptor (ht.wellFormed.mapClasses fun n hn =>
    hnames n (mem_fieldNames.2 hn))

theorem IsMethod.read_renamed (ht : IsMethod text)
    (hnames : ∀ n ∈ methodNames text, IsName (g n)) :
    method (renamedMethod g text) = .ok ((methodType text).mapClasses g) :=
  method_descriptor (ht.wellFormed.mapClasses hnames)

/-- Blurring does not see a renaming that blurring undoes. -/
theorem IsField.blurred_renamed (ht : IsField text)
    (hnames : ∀ n ∈ fieldNames text, IsName (g n))
    (hblur : ∀ n ∈ fieldNames text,
      Descriptor.blur transient (g n) = Descriptor.blur transient n) :
    blurredField transient (renamedField g text)
      = blurredField transient text := by
  unfold blurredField
  rw [fieldType_eq (ht.read_renamed hnames), TypeDesc.mapClasses_mapClasses]
  exact congrArg TypeDesc.descriptor (TypeDesc.mapClasses_congr fun n hn =>
    hblur n (mem_fieldNames.2 hn))

theorem IsMethod.blurred_renamed (ht : IsMethod text)
    (hnames : ∀ n ∈ methodNames text, IsName (g n))
    (hblur : ∀ n ∈ methodNames text,
      Descriptor.blur transient (g n) = Descriptor.blur transient n) :
    blurredMethod transient (renamedMethod g text)
      = blurredMethod transient text := by
  unfold blurredMethod
  rw [methodType_eq (ht.read_renamed hnames), MethodDesc.mapClasses_mapClasses]
  exact congrArg MethodDesc.descriptor (MethodDesc.mapClasses_congr hblur)

/-- Texts of different types stay different. -/
theorem renamedField_injOn {text' : String} (hinj : Set.InjOn g s)
    (ht : IsField text) (ht' : IsField text')
    (hs : ∀ n ∈ fieldNames text, n ∈ s)
    (hs' : ∀ n ∈ fieldNames text', n ∈ s)
    (hnames : ∀ n ∈ fieldNames text, IsName (g n))
    (hnames' : ∀ n ∈ fieldNames text', IsName (g n))
    (heq : renamedField g text = renamedField g text') : text = text' := by
  have hread := ht.read_renamed hnames
  rw [heq, ht'.read_renamed hnames'] at hread
  injection hread with htypes
  have htype : fieldType text = fieldType text' :=
    TypeDesc.eq_of_mapClasses_eq hinj
      (fun n hn => hs n (mem_fieldNames.2 hn))
      (fun n hn => hs' n (mem_fieldNames.2 hn)) htypes.symm
  rw [← (field_eq_ok_iff.1 ht.read).2, htype, (field_eq_ok_iff.1 ht'.read).2]

end Descriptor

end SymbolMatch
