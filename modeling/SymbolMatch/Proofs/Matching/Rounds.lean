/-
Sweeps and rounds, whatever is attempted in them.

A stage makes one attempt after another (`sweep`), and most stages make
rounds of such sweeps until one of them changes nothing (`rounds`). What
is said here holds for every kind of attempt: what the attempts keep is
kept, and a table that no attempt changes is handed back.

# Move by move

`sweep` and `rounds` hand on a table and a count. To speak of each move
there is a log beside them: the attempts that changed the table, each
with the table as it stood just before (`sweepLog`, `roundsLog`). That
the log is the run, no move missing and none made up, is `Made`.

# Enough rounds

The number of rounds is limited, so a run may stop while there is still
something to change. If every change costs at least one unit of some
measure of the table, there are no more changes than units, and a run
that is allowed as many rounds comes to rest (`rounds_at_rest`).
-/
import SymbolMatch.Matching.Context

namespace SymbolMatch.Table

variable {α : Type} {attempt : Table → α → Bool × Table}
  {round : Table → Nat × Table} {t t₁ t₂ : Table}

-- ============================================================ invariants

/-- What every attempt keeps, a sweep keeps. -/
theorem sweep_induction {P : Table → Prop} {xs : List α}
    (hstep : ∀ t, ∀ a ∈ xs, P t → P (attempt t a).2) (h : P t) :
    P (t.sweep attempt xs).2 := by
  induction xs generalizing t with
  | nil => exact h
  | cons a rest ih =>
    exact ih (fun t b hb => hstep t b (List.mem_cons_of_mem _ hb))
      (hstep t a List.mem_cons_self h)

/-- What every round keeps, rounds keep. -/
theorem rounds_induction {P : Table → Prop}
    (hround : ∀ t, P t → P (round t).2) (h : P t) (limit : Nat) :
    P (t.rounds round limit).2 := by
  induction limit generalizing t with
  | zero => exact h
  | succ limit ih =>
    have hnext := hround t h
    unfold rounds
    split
    · next t₁ heq =>
      rw [heq] at hnext
      exact hnext
    · next count t₁ _ heq =>
      rw [heq] at hnext
      exact ih hnext

theorem sweep_cons (t : Table) (a : α) (rest : List α) :
    t.sweep attempt (a :: rest)
      = ((attempt t a).1.toNat + ((attempt t a).2.sweep attempt rest).1,
        ((attempt t a).2.sweep attempt rest).2) := rfl

/-- A sweep over two lists is one sweep after the other. -/
theorem sweep_append (t : Table) (xs ys : List α) :
    t.sweep attempt (xs ++ ys)
      = ((t.sweep attempt xs).1 + ((t.sweep attempt xs).2.sweep attempt ys).1,
        ((t.sweep attempt xs).2.sweep attempt ys).2) := by
  induction xs generalizing t with
  | nil => exact Prod.ext (Nat.zero_add _).symm rfl
  | cons a rest ih =>
    rw [List.cons_append, sweep_cons, sweep_cons, ih, Nat.add_assoc]

-- ============================================================ standstill

/-- A sweep of attempts that all fail. -/
theorem sweep_eq_self {xs : List α} (h : ∀ a ∈ xs, attempt t a = (false, t)) :
    t.sweep attempt xs = (0, t) := by
  induction xs with
  | nil => rfl
  | cons a rest ih =>
    have hrest := ih fun b hb => h b (List.mem_cons_of_mem _ hb)
    unfold sweep
    rw [h a List.mem_cons_self]
    dsimp only
    rw [hrest]
    rfl

/-- A first round that changes nothing is the last. -/
theorem rounds_eq_self (h : round t = (0, t))
    (limit : Nat) : t.rounds round limit = (0, t) := by
  cases limit with
  | zero => rfl
  | succ limit =>
    unfold rounds
    rw [h]
    rfl

-- ================================================================== logs

/-- The attempts of a sweep that changed the table, each with the table
it was made on. -/
def sweepLog (attempt : Table → α → Bool × Table) :
    Table → List α → List (Table × α)
  | _, [] => []
  | t, a :: rest =>
    let later := sweepLog attempt (attempt t a).2 rest
    if (attempt t a).1 then (t, a) :: later else later

/-- The logs of the rounds that are made, one behind the other. -/
def roundsLog (round : Table → Nat × Table)
    (log : Table → List (Table × α)) :
    (limit : Nat) → Table → List (Table × α)
  | 0, _ => []
  | limit + 1, t =>
    if (round t).1 = 0 then log t
    else log t ++ roundsLog round log limit (round t).2

/-- The attempts of a log, one after the other and each of them a
success, lead from one table to another. -/
inductive Made (attempt : Table → α → Bool × Table) :
    Table → List (Table × α) → Table → Prop
  | nil {t : Table} : Made attempt t [] t
  | cons {t t' : Table} {a : α} {log : List (Table × α)}
      (success : (attempt t a).1 = true)
      (later : Made attempt (attempt t a).2 log t') :
      Made attempt t ((t, a) :: log) t'

namespace Made

theorem of_nil (h : Made attempt t [] t₁) : t₁ = t := by
  cases h
  rfl

theorem append {log log' : List (Table × α)} (h : Made attempt t log t₁)
    (h' : Made attempt t₁ log' t₂) : Made attempt t (log ++ log') t₂ := by
  induction h with
  | nil => exact h'
  | cons success _ ih => exact .cons success (ih h')

/-- Every attempt of a log succeeds on the table that stands there. -/
theorem success {log : List (Table × α)} (h : Made attempt t log t₁)
    {p : Table × α} (hp : p ∈ log) : (attempt p.1 p.2).1 = true := by
  induction h with
  | nil => cases hp
  | cons success _ ih =>
    rcases List.mem_cons.1 hp with heq | hp
    · rw [heq]
      exact success
    · exact ih hp

/-- The part of a log that comes after one of its moves. -/
theorem after {before after : List (Table × α)} {p : Table × α}
    (h : Made attempt t (before ++ p :: after) t₁) :
    Made attempt (attempt p.1 p.2).2 after t₁ := by
  induction before generalizing t with
  | nil =>
    cases h with
    | cons _ later => exact later
  | cons _ rest ih =>
    cases h with
    | cons _ later => exact ih later

/-- What every success keeps holds after each move of a log. -/
theorem induction {P : Table → Prop} {log : List (Table × α)}
    (h : Made attempt t log t₁)
    (hstep : ∀ t a, (attempt t a).1 = true → P t → P (attempt t a).2)
    (ht : P t) : ∀ p ∈ log, P (attempt p.1 p.2).2 := by
  induction h with
  | nil =>
    intro p hp
    cases hp
  | cons success _ ih =>
    intro p hp
    have hnext := hstep _ _ success ht
    rcases List.mem_cons.1 hp with heq | hp
    · rw [heq]
      exact hnext
    · exact ih hnext p hp

end Made

/-- A log of a sweep leaves out only attempts that changed nothing. -/
theorem made_sweepLog
    (hrefused : ∀ t a, (attempt t a).1 = false → (attempt t a).2 = t)
    (t : Table) (xs : List α) :
    Made attempt t (sweepLog attempt t xs) (t.sweep attempt xs).2
      ∧ (sweepLog attempt t xs).length = (t.sweep attempt xs).1 := by
  induction xs generalizing t with
  | nil => exact ⟨.nil, rfl⟩
  | cons a rest ih =>
    obtain ⟨hmade, hlength⟩ := ih (attempt t a).2
    unfold sweepLog sweep
    dsimp only
    cases hflag : (attempt t a).1 with
    | false =>
      rw [hrefused t a hflag] at hmade hlength ⊢
      rw [if_neg Bool.false_ne_true, hlength]
      exact ⟨hmade, (Nat.zero_add _).symm⟩
    | true =>
      rw [if_pos rfl, List.length_cons, hlength]
      exact ⟨.cons hflag hmade, Nat.add_comm _ _⟩

theorem made_roundsLog {log : Table → List (Table × α)}
    (hround : ∀ t, Made attempt t (log t) (round t).2
      ∧ (log t).length = (round t).1) (limit : Nat) (t : Table) :
    Made attempt t (roundsLog round log limit t) (t.rounds round limit).2
      ∧ (roundsLog round log limit t).length = (t.rounds round limit).1 := by
  induction limit generalizing t with
  | zero => exact ⟨.nil, rfl⟩
  | succ limit ih =>
    obtain ⟨hmade, hlength⟩ := hround t
    unfold roundsLog rounds
    split
    · next heq =>
      split
      · next t₁ hround₁ =>
        rw [hround₁] at hmade hlength
        exact ⟨hmade, hlength⟩
      · next count t₁ hne hround₁ =>
        rw [hround₁] at heq
        exact absurd heq hne
    · next hne =>
      split
      · next t₁ hround₁ =>
        rw [hround₁] at hne
        exact absurd rfl hne
      · next count t₁ _ hround₁ =>
        rw [hround₁] at hmade hlength ⊢
        obtain ⟨hmade', hlength'⟩ := ih t₁
        rw [List.length_append, hlength, hlength']
        exact ⟨hmade.append hmade', rfl⟩

/-- A sweep without success leaves the table as it is. -/
theorem sweep_idle
    (hrefused : ∀ t a, (attempt t a).1 = false → (attempt t a).2 = t)
    {xs : List α} (h : (t.sweep attempt xs).1 = 0) :
    (t.sweep attempt xs).2 = t := by
  obtain ⟨hmade, hlength⟩ := made_sweepLog hrefused t xs
  rw [h, List.length_eq_zero_iff] at hlength
  rw [hlength] at hmade
  exact hmade.of_nil

-- ============================================================== measures

/-- If every success costs a unit of a measure, so does every change that
a sweep counts. -/
theorem sweep_spends {cost : Table → Nat} {xs : List α}
    (h : ∀ t, ∀ a ∈ xs,
      (attempt t a).1.toNat + cost (attempt t a).2 ≤ cost t) (t : Table) :
    (t.sweep attempt xs).1 + cost (t.sweep attempt xs).2 ≤ cost t := by
  induction xs generalizing t with
  | nil => exact Nat.le_of_eq (Nat.zero_add _)
  | cons a rest ih =>
    have hfirst := h t a List.mem_cons_self
    have hrest := ih (fun t b hb => h t b (List.mem_cons_of_mem _ hb))
      (attempt t a).2
    unfold sweep
    dsimp only
    omega

/-- Rounds that cost at least what they change end with one that changes
nothing, if there are as many of them as units to spend. -/
theorem rounds_at_rest (cost : Table → Nat) {P : Table → Prop}
    (hkeeps : ∀ t, P t → P (round t).2)
    (hspends : ∀ t, P t → (round t).1 + cost (round t).2 ≤ cost t)
    (hidle : ∀ t, (round t).1 = 0 → (round t).2 = t) {limit : Nat}
    (ht : P t) (hlimit : cost t ≤ limit) :
    round (t.rounds round limit).2 = (0, (t.rounds round limit).2) := by
  induction limit generalizing t with
  | zero =>
    -- nothing is left to spend
    have hspent := hspends t ht
    have hcount : (round t).1 = 0 := by omega
    exact Prod.ext hcount (hidle t hcount)
  | succ limit ih =>
    have hnext := hkeeps t ht
    have hspent := hspends t ht
    unfold rounds
    split
    · next t₁ heq =>
      have hsame := hidle t
      rw [heq] at hsame
      rw [← hsame rfl] at heq
      exact heq
    · next count t₁ hne heq =>
      rw [heq] at hnext hspent
      dsimp only at hnext hspent
      have hpos : count ≠ 0 := hne
      apply ih hnext
      omega

end SymbolMatch.Table
