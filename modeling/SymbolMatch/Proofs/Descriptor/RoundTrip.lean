/-
Descriptors and their texts. A type is well-formed if it has a text at
all: its class name can be told from what follows it, and it has no more
dimensions than the format allows. Reading accepts exactly the texts of
well-formed types, and gives back the type that was written.

Every reader is treated in the same way: what it accepts at the head of
a text is a well-formed value followed by the rest (`…_sound`), and a
well-formed value followed by anything is accepted (`…_chars`).
-/
import SymbolMatch.Descriptor.Rename
import SymbolMatch.Proofs.Outcome

namespace SymbolMatch

-- ======================================================= well-formedness

/-- Whether a name can stand in a descriptor: a semicolon would end it. -/
def Descriptor.IsName (name : String) : Prop :=
  name ≠ "" ∧ ';' ∉ name.toList

instance (name : String) : Decidable (Descriptor.IsName name) :=
  inferInstanceAs (Decidable (_ ∧ _))

namespace TypeDesc

/-- Whether a type has a text. -/
def WellFormed (t : TypeDesc) : Prop :=
  t.dimensions ≤ Descriptor.maxDimensions
    ∧ ∀ name, t.className? = some name → Descriptor.IsName name

/-- A type without dimensions. -/
def IsElement : TypeDesc → Prop
  | array _ => False
  | _ => True

theorem isElement_element (t : TypeDesc) : t.element.IsElement := by
  induction t with
  | primitive p => trivial
  | object name => trivial
  | array item ih => exact ih

theorem nest_element (t : TypeDesc) : t.element.nest t.dimensions = t := by
  induction t with
  | primitive p => rfl
  | object name => rfl
  | array item ih => exact congrArg array ih

theorem className?_nest (d : Nat) (t : TypeDesc) :
    (t.nest d).className? = t.className? := by
  induction d with
  | zero => rfl
  | succ d ih => exact ih

theorem className?_element (t : TypeDesc) :
    t.element.className? = t.className? := by
  induction t with
  | primitive p => rfl
  | object name => rfl
  | array item ih => exact ih

theorem dimensions_nest (d : Nat) {t : TypeDesc} (h : t.IsElement) :
    (t.nest d).dimensions = d := by
  induction d with
  | zero =>
    cases t with
    | primitive p => rfl
    | object name => rfl
    | array item => exact h.elim
  | succ d ih => exact congrArg (· + 1) ih

theorem chars_nest (d : Nat) (t : TypeDesc) :
    (t.nest d).chars = List.replicate d '[' ++ t.chars := by
  induction d with
  | zero => rfl
  | succ d ih =>
    rw [List.replicate_succ, List.cons_append, ← ih]
    rfl

end TypeDesc

namespace Descriptor

open Outcome

variable {size : Nat} {cs rest : List Char} {t : TypeDesc}

-- ============================================================= elements

/-- No element's text starts with a bracket or a parenthesis. -/
theorem chars_element_head (h : t.IsElement) :
    ∃ c tail, t.chars = c :: tail ∧ c ≠ '[' ∧ c ≠ ')' := by
  cases t with
  | primitive p =>
    exact ⟨p.letter, [], rfl, by cases p <;> decide, by cases p <;> decide⟩
  | object name => exact ⟨'L', name.toList ++ [';'], rfl, by decide, by decide⟩
  | array item => exact h.elim

private theorem takeWhile_name {name : List Char} (rest : List Char)
    (h : ';' ∉ name) :
    (name ++ ';' :: rest).takeWhile (· ≠ ';') = name
      ∧ (name ++ ';' :: rest).dropWhile (· ≠ ';') = ';' :: rest := by
  induction name with
  | nil => simp
  | cons c name ih =>
    rw [List.mem_cons, not_or] at h
    have hc : c ≠ ';' := fun heq => h.1 heq.symm
    simpa [hc] using ih h.2

theorem element_chars (helem : t.IsElement) (h : t.WellFormed) :
    element size (t.chars ++ rest) = .ok (t, rest) := by
  cases t with
  | primitive p => cases p <;> rfl
  | object name =>
    obtain ⟨hne, hsemi⟩ := h.2 name rfl
    have hnil : name.toList ≠ [] := fun hnil =>
      hne (String.toList_inj.1 hnil)
    obtain ⟨htake, hdrop⟩ := takeWhile_name rest hsemi
    have hchars : (TypeDesc.object name).chars ++ rest
        = 'L' :: (name.toList ++ ';' :: rest) := by
      simp [TypeDesc.chars]
    rw [hchars]
    unfold element
    simp only [hdrop, htake, hnil, if_false, String.ofList_toList]
  | array item => exact helem.elim

/-- What stands before the first semicolon, that semicolon, and the
rest. -/
private theorem split_name {c : Char}
    (h : cs.dropWhile (· ≠ ';') = c :: rest) :
    cs = cs.takeWhile (· ≠ ';') ++ ';' :: rest
      ∧ ';' ∉ cs.takeWhile (· ≠ ';') := by
  induction cs with
  | nil => cases h
  | cons d cs ih =>
    by_cases hd : d = ';'
    · subst hd
      simp only [ne_eq, not_true_eq_false, decide_false, Bool.false_eq_true,
        not_false_eq_true, List.dropWhile_cons_of_neg, List.cons.injEq] at h
      simp [h.2]
    · simp only [ne_eq, hd, not_false_eq_true, decide_true,
        List.dropWhile_cons_of_pos] at h
      obtain ⟨hcs, hnot⟩ := ih h
      simp only [ne_eq, hd, not_false_eq_true, decide_true,
        List.takeWhile_cons_of_pos, List.cons_append]
      refine ⟨congrArg (d :: ·) hcs, ?_⟩
      rw [List.mem_cons, not_or]
      exact ⟨fun heq => hd heq.symm, hnot⟩

theorem letter_of_ofLetter? {c : Char} {p : Primitive}
    (h : Primitive.ofLetter? c = some p) : c = p.letter := by
  unfold Primitive.ofLetter? at h
  split at h <;> cases h <;> rfl

theorem element_sound (h : element size cs = .ok (t, rest)) :
    t.IsElement ∧ t.WellFormed ∧ cs = t.chars ++ rest := by
  unfold element at h
  split at h
  · cases h
  · next cs =>
    split at h
    · cases h
    · next c rest' hdrop =>
      dsimp only at h
      split at h
      · cases h
      · next hne =>
        injection h with h
        injection h with ht hrest
        subst ht hrest
        obtain ⟨hcs, hnot⟩ := split_name hdrop
        refine ⟨trivial, ⟨Nat.zero_le _, ?_⟩, ?_⟩
        · intro name hname
          injection hname with hname
          subst hname
          refine ⟨fun hempty => hne ?_, ?_⟩
          · rw [← String.toList_inj, String.toList_ofList] at hempty
            exact hempty
          · rw [String.toList_ofList]
            exact hnot
        · simp only [TypeDesc.chars, String.toList_ofList, List.cons_append,
            List.append_assoc, List.nil_append]
          exact congrArg ('L' :: ·) hcs
  · next c cs _ =>
    split at h
    · next p hp =>
      injection h with h
      injection h with ht hrest
      subst ht hrest
      refine ⟨trivial, ⟨Nat.zero_le _, fun name hname => ?_⟩, ?_⟩
      · cases hname
      · rw [letter_of_ofLetter? hp]
        rfl
    · cases h

-- ================================================================ types

private theorem brackets_append {tail : List Char} (d : Nat)
    (h : ∃ c cs, tail = c :: cs ∧ c ≠ '[') :
    (List.replicate d '[' ++ tail).takeWhile (· = '[')
        = List.replicate d '['
      ∧ (List.replicate d '[' ++ tail).dropWhile (· = '[') = tail := by
  obtain ⟨c, cs, rfl, hc⟩ := h
  induction d with
  | zero => simp [hc]
  | succ d ih =>
    rw [List.replicate_succ, List.cons_append]
    simpa using ih

/-- A well-formed type is read back, whatever follows it. -/
theorem type_chars (h : t.WellFormed) (rest : List Char) :
    type size (t.chars ++ rest) = .ok (t, rest) := by
  have helem := t.isElement_element
  obtain ⟨c, tail, hchars, hc, -⟩ := chars_element_head helem
  have htext : t.chars ++ rest
      = List.replicate t.dimensions '[' ++ (t.element.chars ++ rest) := by
    rw [← List.append_assoc, ← TypeDesc.chars_nest, TypeDesc.nest_element]
  have hhead : ∃ c cs, t.element.chars ++ rest = c :: cs ∧ c ≠ '[' :=
    ⟨c, tail ++ rest, by rw [hchars]; rfl, hc⟩
  obtain ⟨htake, hdrop⟩ := brackets_append t.dimensions hhead
  have hwf : t.element.WellFormed := by
    refine ⟨?_, fun name hname => h.2 name ?_⟩
    · have hdim := TypeDesc.dimensions_nest 0 helem
      change t.element.dimensions = 0 at hdim
      rw [hdim]
      exact Nat.zero_le _
    · rw [← TypeDesc.className?_element]
      exact hname
  unfold type
  rw [htext, htake, hdrop, element_chars helem hwf, List.length_replicate]
  simp only [Nat.not_lt.2 h.1, if_false]
  change Except.ok (t.element.nest t.dimensions, rest) = _
  rw [TypeDesc.nest_element]

private theorem replicate_takeWhile (cs : List Char) :
    cs.takeWhile (· = '[')
      = List.replicate (cs.takeWhile (· = '[')).length '[' := by
  refine List.eq_replicate_of_mem fun c hc => ?_
  simpa using List.all_eq_true.1 List.all_takeWhile c hc

/-- What is read is a well-formed type, and its text stands there. -/
theorem type_sound (h : type size cs = .ok (t, rest)) :
    t.WellFormed ∧ cs = t.chars ++ rest := by
  unfold type at h
  dsimp only at h
  split at h
  · cases h
  · next hdepth =>
    obtain ⟨⟨e, rest'⟩, he, heq⟩ := bind_eq_ok_iff.1 h
    injection heq with heq
    injection heq with ht hrest
    subst ht hrest
    obtain ⟨helem, hwf, hcs⟩ := element_sound he
    refine ⟨⟨?_, ?_⟩, ?_⟩
    · rw [TypeDesc.dimensions_nest _ helem]
      exact Nat.not_lt.1 hdepth
    · intro name hname
      rw [TypeDesc.className?_nest] at hname
      exact hwf.2 name hname
    · rw [TypeDesc.chars_nest, List.append_assoc, ← hcs,
        ← replicate_takeWhile, List.takeWhile_append_dropWhile]

-- ============================================================== methods

/-- A type's text is not empty and does not start with a closing
parenthesis. -/
theorem chars_head (t : TypeDesc) :
    ∃ c tail, t.chars = c :: tail ∧ c ≠ ')' := by
  cases t with
  | primitive p => exact ⟨p.letter, [], rfl, by cases p <;> decide⟩
  | object name => exact ⟨'L', name.toList ++ [';'], rfl, by decide⟩
  | array item => exact ⟨'[', item.chars, rfl, by decide⟩

/-- Well-formed parameters are read back, as far as the fuel goes. -/
theorem params_chars {ts : List TypeDesc} (h : ∀ t ∈ ts, t.WellFormed)
    {fuel : Nat} (hfuel : ts.length ≤ fuel) (rest : List Char) :
    params size fuel (ts.flatMap TypeDesc.chars ++ ')' :: rest)
      = .ok (ts, rest) := by
  induction ts generalizing fuel with
  | nil => cases fuel <;> rfl
  | cons t ts ih =>
    obtain ⟨fuel, rfl⟩ : ∃ n, fuel = n + 1 := by
      cases fuel with
      | zero => cases hfuel
      | succ n => exact ⟨n, rfl⟩
    rw [List.flatMap_cons, List.append_assoc]
    obtain ⟨c, tail, hchars, hc⟩ := chars_head t
    have hread : type size (t.chars
          ++ (ts.flatMap TypeDesc.chars ++ ')' :: rest))
        = .ok (t, ts.flatMap TypeDesc.chars ++ ')' :: rest) :=
      type_chars (h t List.mem_cons_self) _
    have hrest := ih (fun t' ht' => h t' (List.mem_cons_of_mem _ ht'))
      (Nat.le_of_succ_le_succ hfuel)
    rw [hchars, List.cons_append] at hread ⊢
    rw [params.eq_4 _ _ _ (by simp) (by simpa using hc), hread, ok_bind]
    dsimp only
    rw [hrest]
    rfl

/-- Parameters that are read are well-formed, and their texts stand
there, closed by a parenthesis. -/
theorem params_sound {fuel : Nat} {ts : List TypeDesc}
    (h : params size fuel cs = .ok (ts, rest)) :
    (∀ t ∈ ts, t.WellFormed)
      ∧ cs = ts.flatMap TypeDesc.chars ++ ')' :: rest := by
  induction fuel, cs using params.induct generalizing ts rest with
  | case1 => simp [params] at h
  | case2 fuel r =>
    simp only [params, Except.ok.injEq, Prod.mk.injEq] at h
    obtain ⟨rfl, rfl⟩ := h
    simp
  | case3 => simp [params] at h
  | case4 fuel cs hnil hclose ih =>
    rw [params.eq_4 _ _ _ hnil hclose] at h
    obtain ⟨⟨t, r⟩, ht, h⟩ := bind_eq_ok_iff.1 h
    obtain ⟨⟨ts', r'⟩, hts, heq⟩ := bind_eq_ok_iff.1 h
    injection heq with heq
    injection heq with h1 h2
    subst h1 h2
    obtain ⟨hwf, hcs⟩ := type_sound ht
    obtain ⟨hwfs, hr⟩ := ih _ hts
    refine ⟨?_, ?_⟩
    · intro t' ht'
      rcases List.mem_cons.1 ht' with rfl | ht'
      · exact hwf
      · exact hwfs t' ht'
    · rw [hcs, hr, List.flatMap_cons, List.append_assoc]

/-- The characters of a result. -/
private def resultChars : Option TypeDesc → List Char
  | some t => t.chars
  | none => ['V']

private theorem result_chars {r : Option TypeDesc}
    (h : ∀ t, r = some t → t.WellFormed) :
    result size (resultChars r) = .ok (r, []) := by
  cases r with
  | none => rfl
  | some t =>
    have hread : type size (t.chars ++ []) = .ok (t, []) :=
      type_chars (h t rfl) []
    rw [List.append_nil] at hread
    have hnot : ∀ rest, t.chars = 'V' :: rest → False := by
      intro rest heq
      cases t with
      | primitive p => cases p <;> cases heq
      | object name => cases heq
      | array item => cases heq
    change result size t.chars = _
    rw [result.eq_2 _ _ hnot, hread]
    rfl

private theorem result_sound {r : Option TypeDesc}
    (h : result size cs = .ok (r, [])) :
    (∀ t, r = some t → t.WellFormed) ∧ cs = resultChars r := by
  unfold result at h
  split at h
  · cases h
    exact ⟨fun t ht => (nomatch ht), rfl⟩
  · obtain ⟨⟨t, rest⟩, ht, heq⟩ := bind_eq_ok_iff.1 h
    cases heq
    obtain ⟨hwf, hcs⟩ := type_sound ht
    refine ⟨fun t' ht' => ?_, ?_⟩
    · cases ht'
      exact hwf
    · rw [hcs, List.append_nil]
      rfl

-- ================================================================ texts

/-- A field descriptor is the text of one well-formed type. -/
theorem field_eq_ok_iff {text : String} :
    field text = .ok t ↔ t.WellFormed ∧ t.descriptor = text := by
  unfold field
  rw [mapError_eq_ok_iff]
  unfold fieldChars TypeDesc.descriptor
  rw [bind_eq_ok_iff]
  constructor
  · rintro ⟨⟨t', rest⟩, ht, h⟩
    dsimp only at h
    split at h
    · next hnil =>
      cases h
      subst hnil
      obtain ⟨hwf, hcs⟩ := type_sound ht
      rw [List.append_nil] at hcs
      exact ⟨hwf, by rw [← hcs, String.ofList_toList]⟩
    · cases h
  · rintro ⟨hwf, rfl⟩
    rw [String.toList_ofList]
    have hread : type (Text.byteLength t.chars) (t.chars ++ []) = .ok (t, []) :=
      type_chars hwf []
    rw [List.append_nil] at hread
    exact ⟨(t, []), hread, rfl⟩

end Descriptor

namespace MethodDesc

/-- Whether a method type has a text. -/
def WellFormed (m : MethodDesc) : Prop :=
  (∀ t ∈ m.params, t.WellFormed) ∧ ∀ t, m.result = some t → t.WellFormed

end MethodDesc

namespace Descriptor

open Outcome

/-- Every type takes at least one character. -/
private theorem length_le_flatMap_chars (ts : List TypeDesc) :
    ts.length ≤ (ts.flatMap TypeDesc.chars).length := by
  induction ts with
  | nil => exact Nat.le_refl _
  | cons t ts ih =>
    obtain ⟨c, tail, hchars, -⟩ := chars_head t
    rw [List.flatMap_cons, List.length_append, hchars, List.length_cons,
      List.length_cons]
    omega

private theorem methodChars_chars {m : MethodDesc} (h : m.WellFormed) :
    methodChars m.chars = .ok m := by
  obtain ⟨ps, r⟩ := m
  have hchars : (MethodDesc.mk ps r).chars
      = '(' :: (ps.flatMap TypeDesc.chars ++ ')' :: resultChars r) := by
    cases r <;> rfl
  have hfuel : ps.length
      ≤ (ps.flatMap TypeDesc.chars ++ ')' :: resultChars r).length := by
    rw [List.length_append]
    exact Nat.le_trans (length_le_flatMap_chars ps) (Nat.le_add_right _ _)
  rw [hchars]
  exact bind_eq_ok_iff.2 ⟨(ps, resultChars r), params_chars h.1 hfuel _,
    bind_eq_ok_iff.2 ⟨(r, []), result_chars h.2, rfl⟩⟩

/-- A method descriptor is the text of one well-formed method type. -/
theorem method_eq_ok_iff {text : String} {m : MethodDesc} :
    method text = .ok m ↔ m.WellFormed ∧ m.descriptor = text := by
  unfold method
  rw [mapError_eq_ok_iff]
  unfold MethodDesc.descriptor
  constructor
  · intro h
    unfold methodChars at h
    split at h
    · next inner hinner =>
      obtain ⟨⟨ps, rest⟩, hps, h⟩ := bind_eq_ok_iff.1 h
      obtain ⟨⟨r, rest'⟩, hr, h⟩ := bind_eq_ok_iff.1 h
      dsimp only at hr h
      split at h
      · next hnil =>
        cases h
        subst hnil
        obtain ⟨hwf, hcs⟩ := params_sound hps
        obtain ⟨hwfr, hrest⟩ := result_sound hr
        refine ⟨⟨hwf, hwfr⟩, ?_⟩
        rw [← String.toList_inj, String.toList_ofList, hinner, hcs, hrest]
        cases r <;> rfl
      · cases h
    · cases h
  · rintro ⟨hwf, rfl⟩
    rw [String.toList_ofList]
    exact methodChars_chars hwf

end Descriptor

end SymbolMatch
