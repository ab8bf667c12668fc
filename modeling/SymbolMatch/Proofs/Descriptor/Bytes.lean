/-
Descriptors read by byte positions. A text is stored as UTF-8, and a
reader that works on the bytes looks them up by number and cuts class
names out of the text between two numbers. It could look behind the end,
cut through a character, or never come to an end. Here it is written out
with each of these as an outcome of its own (`Stop.broken`), and shown
to agree with the reader that goes by characters: it accepts the same
texts with the same types, refuses the others in the same words, and
never breaks.

# Why the two agree

Every mark of the format is an ASCII character, and the bytes of any
other character are 128 or more (`encode_cons`). So a byte that reads as
a mark is that mark, the first semicolon among the bytes is the first
semicolon of the text (`findIdx?_encode`), and the positions where the
reader stops are starts of characters (`At`).
-/
import Mathlib.Data.List.TakeWhile
import SymbolMatch.Proofs.Descriptor.RoundTrip

namespace SymbolMatch.Descriptor.Bytes

-- ============================================================== the reader

/-- How reading by positions ends without a value. -/
inductive Stop
  /-- The text is no descriptor, in the words of a reason. -/
  | refused (message : String)
  /-- A position behind the end or inside a character, or a loop that
  outlasts the text. -/
  | broken
deriving DecidableEq

/-- The UTF-8 form of a list of characters. -/
def encode (cs : List Char) : List UInt8 := cs.flatMap String.utf8EncodeChar

/-- A byte read as a character by its number alone. -/
def letter (b : UInt8) : Char := Char.ofNat b.toNat

/-- The bytes from a position on. -/
def bytesFrom (bytes : List UInt8) (pos : Nat) : Except Stop (List UInt8) :=
  if pos ≤ bytes.length then .ok (bytes.drop pos) else .error .broken

/-- The first characters, as many as take `n` bytes, and the others. There
are none if `n` lies behind the end or inside a character. -/
def splitBytes? : List Char → (n : Nat) → Option (List Char × List Char)
  | cs, 0 => some ([], cs)
  | [], _ + 1 => none
  | c :: cs, n + 1 =>
    if c.utf8Size ≤ n + 1 then
      (splitBytes? cs (n + 1 - c.utf8Size)).map fun p => (c :: p.1, p.2)
    else none

/-- The characters in `length` bytes from a position on. -/
def slice (cs : List Char) (pos length : Nat) : Except Stop (List Char) :=
  match splitBytes? cs pos with
  | some (_, rest) =>
    match splitBytes? rest length with
    | some (name, _) => .ok name
    | none => .error .broken
  | none => .error .broken

/-- The position behind the opening brackets at a position. -/
def skipBrackets (bytes : List UInt8) (pos : Nat) : Nat :=
  if h : bytes[pos]?.map letter = some '[' then skipBrackets bytes (pos + 1)
  else pos
termination_by bytes.length - pos
decreasing_by
  obtain ⟨b, hb, -⟩ := Option.map_eq_some_iff.1 h
  obtain ⟨hpos, -⟩ := List.getElem?_eq_some_iff.1 hb
  omega

/-- The element type at a position, and the position behind it. -/
def element (cs : List Char) (pos : Nat) : Except Stop (TypeDesc × Nat) :=
  match (encode cs)[pos]? with
  | none => .error (.refused Reason.unexpectedEnd.message)
  | some tag =>
    match Primitive.ofLetter? (letter tag) with
    | some p => .ok (.primitive p, pos + 1)
    | none =>
      if letter tag = 'L' then do
        let rest ← bytesFrom (encode cs) (pos + 1)
        match rest.findIdx? (letter · = ';') with
        | none => .error (.refused Reason.unterminatedName.message)
        | some 0 => .error (.refused Reason.emptyName.message)
        | some (offset + 1) =>
          let name ← slice cs (pos + 1) (offset + 1)
          return (.object (String.ofList name), pos + 1 + (offset + 1) + 1)
      else
        .error (.refused
          ("unexpected " ++ Text.quotedChar (letter tag) ++ " at " ++ pos.repr))

/-- The type at a position, and the position behind it. -/
def type (cs : List Char) (pos : Nat) : Except Stop (TypeDesc × Nat) :=
  let start := skipBrackets (encode cs) pos
  if maxDimensions < start - pos then
    .error (.refused Reason.tooManyDimensions.message)
  else do
    let (t, stop) ← element cs start
    return (t.nest (start - pos), stop)

/-- Types up to a closing parenthesis, and the position behind it. -/
def params (cs : List Char) :
    (fuel pos : Nat) → Except Stop (List TypeDesc × Nat)
  | 0, _ => .error .broken
  | fuel + 1, pos =>
    match (encode cs)[pos]? with
    | none => .error (.refused Reason.missingClose.message)
    | some b =>
      if letter b = ')' then .ok ([], pos + 1)
      else do
        let (t, stop) ← type cs pos
        let (ts, stop) ← params cs fuel stop
        return (t :: ts, stop)

/-- The type of a result at a position, and the position behind it. -/
def result (cs : List Char) (pos : Nat) :
    Except Stop (Option TypeDesc × Nat) :=
  if (encode cs)[pos]?.map letter = some 'V' then .ok (none, pos + 1)
  else do
    let (t, stop) ← type cs pos
    return (some t, stop)

/-- The type that a field descriptor stands for. -/
def field (text : String) : Except Stop TypeDesc := do
  let cs := text.toList
  let (t, stop) ← type cs 0
  if stop = (encode cs).length then return t
  else throw (.refused Reason.trailing.message)

/-- The types that a method descriptor stands for. No loop over the
parameters takes more turns than there are bytes. -/
def method (text : String) : Except Stop MethodDesc :=
  let cs := text.toList
  if (encode cs)[0]?.map letter = some '(' then do
    let (ps, stop) ← params cs (encode cs).length 1
    let (r, stop) ← result cs stop
    if stop = (encode cs).length then return ⟨ps, r⟩
    else throw (.refused Reason.trailing.message)
  else .error (.refused Reason.missingOpen.message)

-- =================================================================== bytes

private theorem toNat_ofNat {n : Nat} (h : n < 256) :
    (Char.ofNat n).toNat = n := by
  unfold Char.ofNat
  rw [dif_pos (Or.inl (by omega))]
  rfl

private theorem letter_ofNat {n : Nat} (h : n < 256) :
    letter (UInt8.ofNat n) = Char.ofNat n := by
  unfold letter
  rw [UInt8.toNat_ofNat_of_lt' h]

private theorem toNat_lt (c : Char) : c.toNat < 0x110000 := by
  have h := c.valid
  simp only [UInt32.isValidChar, Nat.isValidChar] at h
  show c.val.toNat < _
  omega

/-- The bytes of a character: one that stands for it, and then only bytes
that stand for no ASCII character. -/
theorem encode_cons (c : Char) (cs : List Char) :
    ∃ b tail, encode (c :: cs) = b :: (tail ++ encode cs)
      ∧ letter b = Text.leadByte c ∧ tail.length + 1 = c.utf8Size
      ∧ ∀ d ∈ tail, 128 ≤ (letter d).toNat := by
  have hsize := String.length_utf8EncodeChar c
  have hc := toNat_lt c
  have hbyte (n : Nat) : 128 ≤ (letter (UInt8.ofNat (n % 64 + 128))).toNat := by
    rw [letter_ofNat (by omega), toNat_ofNat (by omega)]
    omega
  unfold encode
  rw [List.flatMap_cons]
  -- one case for each number of bytes
  unfold String.utf8EncodeChar at hsize ⊢
  unfold Text.leadByte
  unfold Char.toNat at hc ⊢
  dsimp only at hsize ⊢
  split
  · next h1 =>
    rw [if_pos h1] at hsize
    refine ⟨_, [], rfl, ?_, hsize, by simp⟩
    rw [letter_ofNat (by omega), if_pos (by omega)]
  · next h1 =>
    rw [if_neg h1] at hsize
    split
    · next h2 =>
      rw [if_pos h2] at hsize
      refine ⟨_, [_], rfl, ?_, hsize, ?_⟩
      · rw [letter_ofNat (by omega), if_neg (by omega), if_pos (by omega)]
        congr 1
        omega
      · intro d hd
        rw [List.mem_singleton.1 hd]
        exact hbyte _
    · next h2 =>
      rw [if_neg h2] at hsize
      split
      · next h3 =>
        rw [if_pos h3] at hsize
        refine ⟨_, [_, _], rfl, ?_, hsize, ?_⟩
        · rw [letter_ofNat (by omega), if_neg (by omega), if_neg (by omega),
            if_pos (by omega)]
          congr 1
          omega
        · intro d hd
          simp only [List.mem_cons, List.not_mem_nil, or_false] at hd
          rcases hd with rfl | rfl <;> exact hbyte _
      · next h3 =>
        rw [if_neg h3] at hsize
        refine ⟨_, [_, _, _], rfl, ?_, hsize, ?_⟩
        · rw [letter_ofNat (by omega), if_neg (by omega), if_neg (by omega),
            if_neg (by omega)]
          congr 1
          omega
        · intro d hd
          simp only [List.mem_cons, List.not_mem_nil, or_false] at hd
          rcases hd with rfl | rfl | rfl <;> exact hbyte _

/-- The first byte of a character stands for an ASCII character only if
it is all of that character. -/
theorem leadByte_eq_iff {c mark : Char} (hmark : mark.toNat < 128) :
    Text.leadByte c = mark ↔ c = mark := by
  have hc := toNat_lt c
  rw [← Char.toNat_inj, ← Char.toNat_inj]
  unfold Text.leadByte
  dsimp only
  by_cases h1 : c.toNat < 0x80
  · rw [if_pos h1, toNat_ofNat (by omega)]
  · rw [if_neg h1]
    by_cases h2 : c.toNat < 0x800
    · rw [if_pos h2, toNat_ofNat (by omega)]
      omega
    · rw [if_neg h2]
      by_cases h3 : c.toNat < 0x10000
      · rw [if_pos h3, toNat_ofNat (by omega)]
        omega
      · rw [if_neg h3, toNat_ofNat (by omega)]
        omega

theorem length_encode (cs : List Char) :
    (encode cs).length = Text.byteLength cs := by
  induction cs with
  | nil => rfl
  | cons c cs ih =>
    obtain ⟨b, tail, heq, -, hlength, -⟩ := encode_cons c cs
    rw [heq, List.length_cons, List.length_append, ih]
    show _ = c.utf8Size + Text.byteLength cs
    omega

theorem encode_append (cs ds : List Char) :
    encode (cs ++ ds) = encode cs ++ encode ds :=
  List.flatMap_append

theorem byteLength_append (cs ds : List Char) :
    Text.byteLength (cs ++ ds) = Text.byteLength cs + Text.byteLength ds := by
  rw [← length_encode, encode_append, List.length_append, length_encode,
    length_encode]

theorem length_le_byteLength (cs : List Char) :
    cs.length ≤ Text.byteLength cs := by
  induction cs with
  | nil => exact Nat.le_refl _
  | cons c cs ih =>
    have hpos := c.utf8Size_pos
    rw [List.length_cons]
    show _ ≤ c.utf8Size + Text.byteLength cs
    omega

-- ------------------------------------------------------------- semicolons

private theorem findIdx?_tail {tail : List UInt8}
    (h : ∀ d ∈ tail, 128 ≤ (letter d).toNat) :
    tail.findIdx? (letter · = ';') = none := by
  rw [List.findIdx?_eq_none_iff]
  intro d hd
  have hd' := h d hd
  rw [decide_eq_false_iff_not]
  intro heq
  rw [heq] at hd'
  revert hd'
  decide

/-- No semicolon, no byte that reads as one. -/
theorem findIdx?_encode_of_not_mem {cs : List Char} (h : ';' ∉ cs) :
    (encode cs).findIdx? (letter · = ';') = none := by
  induction cs with
  | nil => rfl
  | cons c cs ih =>
    rw [List.mem_cons, not_or] at h
    obtain ⟨b, tail, heq, hb, -, htail⟩ := encode_cons c cs
    have hne : letter b ≠ ';' := fun hsemi =>
      h.1 ((leadByte_eq_iff (by decide)).1 (hb ▸ hsemi)).symm
    rw [heq, List.findIdx?_cons, List.findIdx?_append, findIdx?_tail htail,
      ih h.2]
    simp [hne]

/-- The first byte that reads as a semicolon is the first semicolon. -/
theorem findIdx?_encode {name : List Char} (rest : List Char)
    (h : ';' ∉ name) :
    (encode (name ++ ';' :: rest)).findIdx? (letter · = ';')
      = some (Text.byteLength name) := by
  rw [encode_append, List.findIdx?_append, findIdx?_encode_of_not_mem h,
    length_encode]
  obtain ⟨b, tail, heq, hb, -⟩ := encode_cons ';' rest
  have hsemi : letter b = ';' := hb
  rw [heq, List.findIdx?_cons]
  simp [hsemi]

-- =============================================================== positions

/-- `rest` starts at the byte position `pos` of the text `cs`. -/
def At (cs : List Char) (pos : Nat) (rest : List Char) : Prop :=
  ∃ pre, cs = pre ++ rest ∧ pos = Text.byteLength pre

namespace At

variable {cs rest taken : List Char} {pos : Nat}

theorem start (cs : List Char) : At cs 0 cs := ⟨[], rfl, rfl⟩

theorem pos_eq (h : At cs pos rest) :
    pos = Text.byteLength cs - Text.byteLength rest := by
  obtain ⟨pre, rfl, rfl⟩ := h
  rw [byteLength_append]
  omega

theorem advance (h : At cs pos (taken ++ rest)) :
    At cs (pos + Text.byteLength taken) rest := by
  obtain ⟨pre, rfl, rfl⟩ := h
  exact ⟨pre ++ taken, by simp, by rw [byteLength_append]⟩

/-- Behind an ASCII character. -/
theorem step {mark : Char} (hmark : mark.utf8Size = 1)
    (h : At cs pos (mark :: rest)) : At cs (pos + 1) rest := by
  have hnext : At cs (pos + Text.byteLength [mark]) rest := advance h
  have hone : Text.byteLength [mark] = 1 := by
    show mark.utf8Size + 0 = 1
    omega
  rwa [hone] at hnext

/-- The position of what is left of a text. -/
theorem behind {tail : List Char} (h : At cs pos rest)
    (hrest : rest = taken ++ tail) :
    At cs (Text.byteLength cs - Text.byteLength tail) tail := by
  rw [hrest] at h
  have hnext := h.advance
  rwa [hnext.pos_eq] at hnext

theorem byte (h : At cs pos rest) :
    (encode cs)[pos]? = (encode rest).head? := by
  obtain ⟨pre, rfl, rfl⟩ := h
  rw [encode_append, ← length_encode,
    List.getElem?_append_right (Nat.le_refl _), Nat.sub_self]
  exact List.head?_eq_getElem?.symm

theorem byte_nil (h : At cs pos []) : (encode cs)[pos]? = none := h.byte

theorem byte_cons {c : Char} (h : At cs pos (c :: rest)) :
    ∃ b, (encode cs)[pos]? = some b ∧ letter b = Text.leadByte c := by
  obtain ⟨b, tail, heq, hb, -⟩ := encode_cons c rest
  exact ⟨b, by rw [h.byte, heq]; rfl, hb⟩

/-- A byte that reads as an ASCII character is that character. -/
theorem byte_eq_iff (h : At cs pos rest) (mark : Char)
    (hmark : mark.toNat < 128) :
    (encode cs)[pos]?.map letter = some mark ↔ rest.head? = some mark := by
  cases rest with
  | nil =>
    rw [h.byte_nil]
    simp
  | cons c rest =>
    obtain ⟨b, hb, hletter⟩ := h.byte_cons
    rw [hb, Option.map_some, hletter, List.head?_cons, Option.some.injEq,
      Option.some.injEq]
    exact leadByte_eq_iff hmark

theorem bytesFrom_eq (h : At cs pos rest) :
    bytesFrom (encode cs) pos = .ok (encode rest) := by
  obtain ⟨pre, rfl, rfl⟩ := h
  unfold bytesFrom
  rw [encode_append, ← length_encode, if_pos (by simp), List.drop_left]

theorem splitBytes?_append (taken rest : List Char) :
    splitBytes? (taken ++ rest) (Text.byteLength taken)
      = some (taken, rest) := by
  induction taken with
  | nil => rw [List.nil_append, Text.byteLength, splitBytes?]
  | cons c taken ih =>
    obtain ⟨n, hn⟩ : ∃ n, c.utf8Size + Text.byteLength taken = n + 1 :=
      ⟨c.utf8Size + Text.byteLength taken - 1, by
        have := c.utf8Size_pos
        omega⟩
    have hleft : n + 1 - c.utf8Size = Text.byteLength taken := by omega
    rw [Text.byteLength, hn, List.cons_append, splitBytes?,
      if_pos (by omega), hleft, ih]
    rfl

/-- A cut between two characters gives what stands there. -/
theorem slice_eq (h : At cs pos (taken ++ rest)) :
    slice cs pos (Text.byteLength taken) = .ok taken := by
  obtain ⟨pre, rfl, rfl⟩ := h
  unfold slice
  rw [splitBytes?_append]
  dsimp only
  rw [splitBytes?_append]

end At

-- =============================================================== agreement

/-- What reading by characters amounts to by positions: what is left of
the text is told by where it starts, and a reason by its words. -/
def byPosition {α : Type} (cs : List Char) :
    Except Reason (α × List Char) → Except Stop (α × Nat)
  | .ok (a, rest) => .ok (a, Text.byteLength cs - Text.byteLength rest)
  | .error reason => .error (.refused reason.message)

variable {cs rest : List Char} {pos : Nat}

/-- A byte names the primitive type that its character names. -/
theorem ofLetter?_leadByte (c : Char) :
    Primitive.ofLetter? (Text.leadByte c) = Primitive.ofLetter? c := by
  have hascii (p : Primitive) : p.letter.toNat < 128 := by
    cases p <;> decide
  have hread (p : Primitive) : Primitive.ofLetter? p.letter = some p := by
    cases p <;> rfl
  refine Option.ext fun p => ⟨fun h => ?_, fun h => ?_⟩
  · have hc : c = p.letter :=
      (leadByte_eq_iff (hascii p)).1 (letter_of_ofLetter? h)
    rw [hc, hread]
  · have hc : Text.leadByte c = p.letter :=
      (leadByte_eq_iff (hascii p)).2 (letter_of_ofLetter? h)
    rw [hc, hread]

/-- A name that no semicolon ends. -/
private theorem element_unterminated {size : Nat} (h : ';' ∉ rest) :
    Descriptor.element size ('L' :: rest) = .error .unterminatedName := by
  have hdrop : rest.dropWhile (· ≠ ';') = [] := by
    rw [List.dropWhile_eq_nil_iff]
    intro c hc
    have hne : c ≠ ';' := fun heq => h (heq ▸ hc)
    simpa using hne
  rw [Descriptor.element.eq_2, hdrop]

/-- A name that a semicolon ends. -/
private theorem element_terminated {size : Nat} {name : List Char}
    (hne : name ≠ []) (h : ';' ∉ name) :
    Descriptor.element size ('L' :: (name ++ ';' :: rest))
      = .ok (.object (String.ofList name), rest) := by
  have hname : IsName (String.ofList name) := by
    constructor
    · intro heq
      apply hne
      rw [← String.toList_ofList (l := name), heq]
      rfl
    · rw [String.toList_ofList]
      exact h
  have hread : Descriptor.element size
        ((TypeDesc.object (String.ofList name)).chars ++ rest)
      = .ok (.object (String.ofList name), rest) :=
    element_chars trivial
      ⟨Nat.zero_le _, fun n hn => Option.some.inj hn ▸ hname⟩
  simpa [TypeDesc.chars] using hread

/-- A class name, from its first letter on. -/
private theorem element_object (h : At cs pos ('L' :: rest)) :
    element cs pos
      = byPosition cs
        (Descriptor.element (Text.byteLength cs) ('L' :: rest)) := by
  obtain ⟨b, hb, hletter⟩ := h.byte_cons
  have hL : letter b = 'L' := hletter
  have hname : At cs (pos + 1) rest := h.step rfl
  unfold element
  rw [hb]
  dsimp only
  rw [hL, show Primitive.ofLetter? 'L' = none from rfl]
  dsimp only
  rw [if_pos rfl, hname.bytesFrom_eq, Outcome.ok_bind]
  by_cases hmem : ';' ∈ rest
  · obtain ⟨name, tail, rfl, hnot⟩ := List.eq_append_cons_of_mem hmem
    rw [findIdx?_encode tail hnot]
    cases hsize : Text.byteLength name with
    | zero =>
      have hnil : name = [] := by
        have := length_le_byteLength name
        exact List.eq_nil_of_length_eq_zero (by omega)
      subst hnil
      rfl
    | succ n =>
      have hne : name ≠ [] := by
        intro hnil
        subst hnil
        cases hsize
      have hend : At cs (pos + 1 + Text.byteLength name + 1) tail :=
        hname.advance.step rfl
      dsimp only
      rw [element_terminated hne hnot, ← hsize, hname.slice_eq,
        Outcome.ok_bind, hend.pos_eq]
      rfl
  · rw [findIdx?_encode_of_not_mem hmem, element_unterminated hmem]
    rfl

/-- The element at a position is the element that starts there. -/
theorem element_eq (h : At cs pos rest) :
    element cs pos
      = byPosition cs (Descriptor.element (Text.byteLength cs) rest) := by
  cases rest with
  | nil =>
    unfold element
    rw [h.byte_nil]
    rfl
  | cons c rest =>
    by_cases hL : c = 'L'
    · subst hL
      exact element_object h
    · obtain ⟨b, hb, hletter⟩ := h.byte_cons
      unfold element
      rw [hb, Descriptor.element.eq_3 _ _ _ (by simpa using hL)]
      dsimp only
      rw [hletter, ofLetter?_leadByte]
      cases hp : Primitive.ofLetter? c with
      | some p =>
        -- the letter of a primitive type takes one byte
        have hone : c.utf8Size = 1 := by
          rw [letter_of_ofLetter? hp]
          cases p <;> rfl
        rw [(h.step hone).pos_eq]
        rfl
      | none =>
        have hne : Text.leadByte c ≠ 'L' := fun heq =>
          hL ((leadByte_eq_iff (by decide)).1 heq)
        dsimp only
        rw [if_neg hne, h.pos_eq]
        rfl

-- ------------------------------------------------------------------- types

/-- The opening brackets at a position are those that start there. -/
theorem skipBrackets_eq (h : At cs pos rest) :
    skipBrackets (encode cs) pos
        = pos + (rest.takeWhile (· = '[')).length
      ∧ At cs (skipBrackets (encode cs) pos) (rest.dropWhile (· = '[')) := by
  induction rest generalizing pos with
  | nil =>
    unfold skipBrackets
    rw [h.byte_nil]
    exact ⟨rfl, h⟩
  | cons c rest ih =>
    have hmark := h.byte_eq_iff '[' (by decide)
    unfold skipBrackets
    by_cases hc : c = '['
    · subst hc
      obtain ⟨hskip, hat⟩ := ih (h.step rfl)
      rw [dif_pos (hmark.2 rfl)]
      refine ⟨?_, by simpa using hat⟩
      rw [hskip]
      simp only [decide_true, List.takeWhile_cons_of_pos, List.length_cons]
      omega
    · rw [dif_neg fun heq => hc (by simpa using hmark.1 heq)]
      simpa [hc] using h

/-- The type at a position is the type that starts there. -/
theorem type_eq (h : At cs pos rest) :
    type cs pos
      = byPosition cs (Descriptor.type (Text.byteLength cs) rest) := by
  obtain ⟨hskip, hat⟩ := skipBrackets_eq h
  have hdepth : skipBrackets (encode cs) pos - pos
      = (rest.takeWhile (· = '[')).length := by omega
  unfold type Descriptor.type
  dsimp only
  rw [hdepth, element_eq hat]
  split
  · rfl
  · cases Descriptor.element (Text.byteLength cs)
      (rest.dropWhile (· = '[')) <;> rfl

/-- Behind a type that was read. -/
theorem At.of_type {t : TypeDesc} {tail : List Char} (h : At cs pos rest)
    (ht : Descriptor.type (Text.byteLength cs) rest = .ok (t, tail)) :
    At cs (Text.byteLength cs - Text.byteLength tail) tail :=
  h.behind (type_sound ht).2

-- ----------------------------------------------------------------- methods

/-- With more turns than there are characters left, the parameters at a
position are those that start there. -/
theorem params_eq {turns fuel : Nat} (h : At cs pos rest)
    (hturns : rest.length < turns) (hfuel : rest.length ≤ fuel) :
    params cs turns pos
      = byPosition cs (Descriptor.params (Text.byteLength cs) fuel rest) := by
  induction turns generalizing fuel pos rest with
  | zero => omega
  | succ turns ih =>
    unfold params
    cases rest with
    | nil =>
      rw [h.byte_nil]
      cases fuel <;> rfl
    | cons c rest =>
      obtain ⟨b, hb, hletter⟩ := h.byte_cons
      rw [hb]
      dsimp only
      rw [hletter]
      by_cases hc : c = ')'
      · subst hc
        rw [if_pos ((leadByte_eq_iff (by decide)).2 rfl), (h.step rfl).pos_eq]
        cases fuel <;> rfl
      · rw [if_neg fun heq => hc ((leadByte_eq_iff (by decide)).1 heq)]
        obtain ⟨fuel, rfl⟩ : ∃ n, fuel = n + 1 := by
          cases fuel with
          | zero => cases hfuel
          | succ n => exact ⟨n, rfl⟩
        rw [Descriptor.params.eq_4 _ _ _ (by simp) (by simpa using hc),
          type_eq h]
        cases ht : Descriptor.type (Text.byteLength cs) (c :: rest) with
        | error reason => rfl
        | ok p =>
          obtain ⟨t, tail⟩ := p
          -- a type takes at least one character
          have hshort : tail.length < (c :: rest).length := by
            obtain ⟨d, ds, hchars, -⟩ := chars_head t
            rw [(type_sound ht).2, hchars]
            simp only [List.cons_append, List.length_cons, List.length_append]
            omega
          have hrest : params cs turns _ = byPosition cs
              (Descriptor.params (Text.byteLength cs) fuel tail) :=
            ih (h.of_type ht) (by omega) (by omega)
          rw [Outcome.ok_bind]
          dsimp only [byPosition]
          rw [Outcome.ok_bind]
          dsimp only
          rw [hrest]
          cases Descriptor.params (Text.byteLength cs) fuel tail <;> rfl

theorem result_eq (h : At cs pos rest) :
    result cs pos
      = byPosition cs (Descriptor.result (Text.byteLength cs) rest) := by
  have hmark := h.byte_eq_iff 'V' (by decide)
  unfold result
  by_cases hV : rest.head? = some 'V'
  · obtain ⟨tail, rfl⟩ : ∃ tail, rest = 'V' :: tail := by
      cases rest with
      | nil => cases hV
      | cons c tail => exact ⟨tail, by rw [Option.some.inj hV]⟩
    rw [if_pos (hmark.2 rfl), (h.step rfl).pos_eq]
    rfl
  · have hnot : ∀ tail, rest = 'V' :: tail → False := by
      intro tail heq
      rw [heq] at hV
      exact hV rfl
    rw [if_neg fun heq => hV (hmark.1 heq), Descriptor.result.eq_2 _ _ hnot,
      type_eq h]
    cases Descriptor.type (Text.byteLength cs) rest <;> rfl

/-- Behind a result that was read. -/
theorem At.of_result {r : Option TypeDesc} {tail : List Char}
    (h : At cs pos rest)
    (hr : Descriptor.result (Text.byteLength cs) rest = .ok (r, tail)) :
    At cs (Text.byteLength cs - Text.byteLength tail) tail := by
  unfold Descriptor.result at hr
  split at hr
  · next tail' =>
    cases hr
    exact h.behind (show _ = ['V'] ++ tail from rfl)
  · obtain ⟨⟨t, tail'⟩, ht, heq⟩ := Outcome.bind_eq_ok_iff.1 hr
    cases heq
    exact h.of_type ht

-- ============================================================ descriptors

/-- The position behind the last byte is that of nothing. -/
private theorem used_up_iff {tail : List Char} (h : At cs pos tail) :
    Text.byteLength cs - Text.byteLength tail = (encode cs).length
      ↔ tail = [] := by
  obtain ⟨pre, rfl, -⟩ := h
  rw [length_encode, byteLength_append]
  constructor
  · intro heq
    have hle := length_le_byteLength tail
    exact List.eq_nil_of_length_eq_zero (by omega)
  · intro hnil
    subst hnil
    rfl

/-- By positions or by characters, a field descriptor reads the same. -/
theorem field_eq (text : String) :
    field text
      = (Descriptor.field text).mapError (.refused ·.reason.message) := by
  have hstart := At.start text.toList
  unfold field Descriptor.field fieldChars
  dsimp only
  rw [type_eq hstart]
  cases ht : Descriptor.type (Text.byteLength text.toList) text.toList with
  | error reason => rfl
  | ok p =>
    obtain ⟨t, tail⟩ := p
    have hused := used_up_iff (hstart.of_type ht)
    dsimp only [byPosition]
    rw [Outcome.ok_bind, Outcome.ok_bind]
    dsimp only
    by_cases hnil : tail = []
    · rw [if_pos (hused.2 hnil), if_pos hnil]
      rfl
    · rw [if_neg (mt hused.1 hnil), if_neg hnil]
      rfl

/-- By positions or by characters, a method descriptor reads the same. -/
theorem method_eq (text : String) :
    method text
      = (Descriptor.method text).mapError (.refused ·.reason.message) := by
  have hstart := At.start text.toList
  have hmark := hstart.byte_eq_iff '(' (by decide)
  unfold method Descriptor.method
  dsimp only
  generalize htext : text.toList = cs at hstart hmark ⊢
  by_cases hopen : cs.head? = some '('
  · obtain ⟨inner, rfl⟩ : ∃ inner, cs = '(' :: inner := by
      cases cs with
      | nil => cases hopen
      | cons c inner => exact ⟨inner, by rw [Option.some.inj hopen]⟩
    have hinner := hstart.step rfl
    have hturns : inner.length < (encode ('(' :: inner)).length := by
      have hle := length_le_byteLength ('(' :: inner)
      rw [length_encode]
      rw [List.length_cons] at hle
      omega
    rw [if_pos (hmark.2 rfl), params_eq hinner hturns (Nat.le_refl _),
      methodChars.eq_1]
    dsimp only
    cases hps : Descriptor.params (Text.byteLength ('(' :: inner))
        inner.length inner with
    | error reason => rfl
    | ok p =>
      obtain ⟨ps, behind⟩ := p
      have hbehind := hinner.behind
        ((params_sound hps).2.trans (List.append_cons _ _ _))
      dsimp only [byPosition]
      rw [Outcome.ok_bind, Outcome.ok_bind]
      dsimp only
      rw [result_eq hbehind]
      cases hr : Descriptor.result (Text.byteLength ('(' :: inner))
          behind with
      | error reason => rfl
      | ok q =>
        obtain ⟨r, tail⟩ := q
        have hused := used_up_iff (hbehind.of_result hr)
        dsimp only [byPosition]
        rw [Outcome.ok_bind, Outcome.ok_bind]
        dsimp only
        by_cases hnil : tail = []
        · rw [if_pos (hused.2 hnil), if_pos hnil]
          rfl
        · rw [if_neg (mt hused.1 hnil), if_neg hnil]
          rfl
  · have hnot : ∀ inner, cs = '(' :: inner → False := by
      intro inner heq
      rw [heq] at hopen
      exact hopen rfl
    rw [if_neg fun heq => hopen (hmark.1 heq), methodChars.eq_2 _ hnot]
    rfl

end SymbolMatch.Descriptor.Bytes

namespace SymbolMatch.Descriptor

-- ============================================================ the theorem

/-- A reading that names its text in every fault fails if and only if it
gives no value. -/
private theorem refused_iff {α : Type} {text : String}
    {read : Except Reason α} :
    (∃ reason, read.mapError (Fault.mk text) = .error ⟨text, reason⟩)
      ↔ ¬∃ a, read.mapError (Fault.mk text) = .ok a := by
  cases read with
  | error reason =>
    constructor
    · intro _ h
      obtain ⟨a, ha⟩ := h
      cases ha
    · intro _
      exact ⟨reason, rfl⟩
  | ok a =>
    constructor
    · intro h
      obtain ⟨reason, hreason⟩ := h
      cases hreason
    · intro h
      exact absurd ⟨a, rfl⟩ h

/-- Reading accepts exactly the descriptors of well-formed types and gives
back the type that was written. Any other text is refused with a reason,
and no reading by positions looks or cuts where it must not. -/
theorem reading_inverts_writing (text : String) :
    (∀ t, field text = .ok t ↔ t.WellFormed ∧ t.descriptor = text)
      ∧ (∀ m, method text = .ok m ↔ m.WellFormed ∧ m.descriptor = text)
      ∧ ((∃ reason, field text = .error ⟨text, reason⟩)
        ↔ ¬∃ t : TypeDesc, t.WellFormed ∧ t.descriptor = text)
      ∧ ((∃ reason, method text = .error ⟨text, reason⟩)
        ↔ ¬∃ m : MethodDesc, m.WellFormed ∧ m.descriptor = text)
      ∧ Bytes.field text = (field text).mapError (.refused ·.reason.message)
      ∧ Bytes.method text
        = (method text).mapError (.refused ·.reason.message) := by
  refine ⟨fun t => field_eq_ok_iff, fun m => method_eq_ok_iff, ?_, ?_,
    Bytes.field_eq text, Bytes.method_eq text⟩
  · simp only [← field_eq_ok_iff]
    exact refused_iff
  · simp only [← method_eq_ok_iff]
    exact refused_iff

end SymbolMatch.Descriptor
