import Mathlib.Data.List.Basic

/-! Regular expressions as a backtracking matcher reads them. A pattern gives,
at a position of a text, the positions it can end at in the order in which they
are tried; an atomic group keeps the first of them only, and a look-ahead gives
the position back. Nothing in this file is about one program. -/
namespace WorkerInformer.Backtracking

universe u
variable {α : Type u}

/-- A position in a text: the character before it and the text behind it. -/
structure Position (α : Type u) where
  behind : Option α
  rest : List α

inductive Pattern (α : Type u)
  | empty
  /-- One character of a class. -/
  | one (accepts : α → Bool)
  /-- A test of the characters on both sides, such as a word boundary. -/
  | edge (holds : Option α → Option α → Bool)
  | seq (first second : Pattern α)
  | alt (first second : Pattern α)
  /-- As many repetitions as possible first. -/
  | star (body : Pattern α)
  | atomic (body : Pattern α)
  | ahead (body : Pattern α)
  | notAhead (body : Pattern α)

/-- The ends of repetitions that each read something, the longest first. -/
def iterate (step : Position α → List (Position α)) : Nat → Position α → List (Position α)
  | 0, p => [p]
  | fuel + 1, p =>
    ((step p).filter fun e => e.rest.length < p.rest.length).flatMap (iterate step fuel) ++ [p]

/-- The ends of a pattern, in the order in which they are tried. -/
def ends : Pattern α → Position α → List (Position α)
  | .empty, p => [p]
  | .one accepts, p =>
    match p.rest with
    | [] => []
    | c :: rest => if accepts c then [⟨some c, rest⟩] else []
  | .edge holds, p => if holds p.behind p.rest.head? then [p] else []
  | .seq first second, p => (ends first p).flatMap (ends second)
  | .alt first second, p => ends first p ++ ends second p
  | .star body, p => iterate (ends body) p.rest.length p
  | .atomic body, p => (ends body p).take 1
  | .ahead body, p => if (ends body p).isEmpty then [] else [p]
  | .notAhead body, p => if (ends body p).isEmpty then [p] else []

namespace Pattern

/-- `body*+`. -/
def possessive (body : Pattern α) : Pattern α := atomic (star body)

/-- `body?`. -/
def optional (body : Pattern α) : Pattern α := alt body empty

/-- One character of each class in turn. -/
def word : List (α → Bool) → Pattern α
  | [] => empty
  | accepts :: rest => seq (one accepts) (word rest)

end Pattern

/-- Deleting every match, from the left. -/
def eraseFrom (pattern : Pattern α) : Nat → Position α → List α
  | 0, p => p.rest
  | fuel + 1, p =>
    match p.rest with
    | [] => []
    | c :: rest =>
      match ends pattern p with
      | e :: _ =>
        if e.rest.length < p.rest.length then eraseFrom pattern fuel e else c :: eraseFrom pattern fuel ⟨some c, rest⟩
      | [] => c :: eraseFrom pattern fuel ⟨some c, rest⟩

/-- What is left of the text behind a position; as many steps as characters are
enough. -/
def erase (pattern : Pattern α) (p : Position α) : List α := eraseFrom pattern p.rest.length p

/-- `regex_replace(text, pattern, "")`. -/
def eraseAll (pattern : Pattern α) (text : List α) : List α := erase pattern ⟨none, text⟩

/-! ## Ends -/

@[simp] theorem ends_empty (p : Position α) : ends .empty p = [p] := rfl

@[simp] theorem ends_one_nil (accepts : α → Bool) (behind : Option α) : ends (.one accepts) ⟨behind, []⟩ = [] := rfl

@[simp] theorem ends_one_cons (accepts : α → Bool) (behind : Option α) (c : α) (rest : List α) :
    ends (.one accepts) ⟨behind, c :: rest⟩ = if accepts c then [⟨some c, rest⟩] else [] := rfl

@[simp] theorem ends_edge (holds : Option α → Option α → Bool) (p : Position α) :
    ends (.edge holds) p = if holds p.behind p.rest.head? then [p] else [] := rfl

@[simp] theorem ends_seq (first second : Pattern α) (p : Position α) :
    ends (.seq first second) p = (ends first p).flatMap (ends second) := rfl

@[simp] theorem ends_alt (first second : Pattern α) (p : Position α) :
    ends (.alt first second) p = ends first p ++ ends second p := rfl

@[simp] theorem ends_atomic (body : Pattern α) (p : Position α) : ends (.atomic body) p = (ends body p).take 1 := rfl

@[simp] theorem ends_ahead (body : Pattern α) (p : Position α) :
    ends (.ahead body) p = if (ends body p).isEmpty then [] else [p] := rfl

@[simp] theorem ends_notAhead (body : Pattern α) (p : Position α) :
    ends (.notAhead body) p = if (ends body p).isEmpty then [p] else [] := rfl

@[simp] theorem ends_optional (body : Pattern α) (p : Position α) :
    ends body.optional p = ends body p ++ [p] := rfl

/-- An atomic choice takes the second pattern where the first does not match. -/
theorem ends_atomic_alt (first second : Pattern α) (p : Position α) :
    ends (.atomic (.alt first second)) p =
      if ends first p = [] then ends (.atomic second) p else ends (.atomic first) p := by
  simp only [ends_atomic, ends_alt]
  cases ends first p <;> simp

theorem ends_atomic_seq_one (accepts : α → Bool) (body : Pattern α) (behind : Option α) (c : α) (rest : List α) :
    ends (.atomic (.seq (.one accepts) body)) ⟨behind, c :: rest⟩ =
      if accepts c then ends (.atomic body) ⟨some c, rest⟩ else [] := by
  by_cases accepted : accepts c <;> simp [accepted]

/-! ## Possessive repetition -/

theorem iterate_ne_nil (step : Position α → List (Position α)) (fuel : Nat) (p : Position α) :
    iterate step fuel p ≠ [] := by
  cases fuel <;> simp [iterate]

/-- A repetition goes on with its first iteration that reads something. -/
theorem head?_iterate_succ (step : Position α → List (Position α)) (fuel : Nat) (p : Position α) :
    (iterate step (fuel + 1) p).head? =
      match (step p).filter fun e => e.rest.length < p.rest.length with
      | [] => some p
      | e :: _ => (iterate step fuel e).head? := by
  rw [iterate]
  cases (step p).filter fun e => e.rest.length < p.rest.length with
  | nil => rfl
  | cons e more =>
    obtain ⟨first, others, is_first⟩ := List.exists_cons_of_ne_nil (iterate_ne_nil step fuel e)
    simp [is_first]

/-- As many iterations as characters are enough. -/
theorem head?_iterate_fuel {step : Position α → List (Position α)} {fuel more : Nat} {p : Position α}
    (enough : p.rest.length ≤ fuel) (more_fuel : fuel ≤ more) :
    (iterate step more p).head? = (iterate step fuel p).head? := by
  induction fuel generalizing more p with
  | zero =>
    cases more with
    | zero => rfl
    | succ more =>
      have none_reads : ((step p).filter fun e => e.rest.length < p.rest.length) = [] := by
        rw [List.filter_eq_nil_iff]
        intro e _ reads
        have := of_decide_eq_true reads
        omega
      rw [head?_iterate_succ, none_reads]
      rfl
  | succ fuel ih =>
    obtain ⟨more, rfl⟩ := Nat.exists_eq_succ_of_ne_zero (show more ≠ 0 by omega)
    rw [head?_iterate_succ, head?_iterate_succ]
    cases reading : (step p).filter fun e => e.rest.length < p.rest.length with
    | nil => rfl
    | cons e others =>
      have reads : e.rest.length < p.rest.length := by
        have member : e ∈ (step p).filter fun e => e.rest.length < p.rest.length := by simp [reading]
        exact of_decide_eq_true (List.mem_filter.mp member).2
      exact ih (by omega) (by omega)

theorem ends_possessive (body : Pattern α) (p : Position α) :
    ends body.possessive p = (iterate (ends body) p.rest.length p).head?.toList := List.take_one

/-- Where the body does not match, a possessive repetition ends. -/
theorem ends_possessive_stuck {body : Pattern α} {p : Position α} (stuck : ends body p = []) :
    ends body.possessive p = [p] := by
  rw [ends_possessive]
  cases p.rest.length with
  | zero => rfl
  | succ fuel => rw [head?_iterate_succ, stuck]; rfl

/-- Where it does, the repetition goes on behind the first end of the body. -/
theorem ends_possessive_step {body : Pattern α} {p e : Position α} {more : List (Position α)}
    (steps : ends body p = e :: more) (reads : e.rest.length < p.rest.length) :
    ends body.possessive p = ends body.possessive e := by
  rw [ends_possessive, ends_possessive]
  obtain ⟨fuel, is_fuel⟩ := Nat.exists_eq_succ_of_ne_zero (show p.rest.length ≠ 0 by omega)
  have first : ((ends body p).filter fun q => q.rest.length < p.rest.length) =
      e :: more.filter fun q => q.rest.length < p.rest.length := by
    simp [steps, reads]
  rw [is_fuel, head?_iterate_succ, first]
  simp only
  rw [head?_iterate_fuel (Nat.le_refl _) (show e.rest.length ≤ fuel by omega)]

/-- The characters of a class, as far as they go. -/
theorem ends_possessive_one (accepts : α → Bool) (p : Position α) :
    ∃ behind, ends (Pattern.one accepts).possessive p = [⟨behind, p.rest.dropWhile accepts⟩] := by
  obtain ⟨behind, rest⟩ := p
  induction rest generalizing behind with
  | nil => exact ⟨behind, ends_possessive_stuck rfl⟩
  | cons c rest ih =>
    by_cases accepted : accepts c
    · obtain ⟨last, is_last⟩ := ih (some c)
      refine ⟨last, ?_⟩
      have first : ends (.one accepts) ⟨behind, c :: rest⟩ = [⟨some c, rest⟩] := by simp [accepted]
      rw [ends_possessive_step first (by simp), is_last, List.dropWhile_cons_of_pos accepted]
    · refine ⟨behind, ?_⟩
      rw [ends_possessive_stuck (by simp [accepted]), List.dropWhile_cons_of_neg accepted]

/-! ## Deleting -/

theorem eraseFrom_fuel {pattern : Pattern α} {fuel more : Nat} {p : Position α} (enough : p.rest.length ≤ fuel)
    (more_fuel : fuel ≤ more) : eraseFrom pattern more p = eraseFrom pattern fuel p := by
  induction fuel generalizing more p with
  | zero =>
    have nothing : p.rest = [] := List.eq_nil_of_length_eq_zero (by omega)
    cases more with
    | zero => rfl
    | succ more => rw [eraseFrom, eraseFrom, nothing]
  | succ fuel ih =>
    obtain ⟨more, rfl⟩ := Nat.exists_eq_succ_of_ne_zero (show more ≠ 0 by omega)
    obtain ⟨behind, rest⟩ := p
    cases rest with
    | nil => rfl
    | cons c rest =>
      rw [List.length_cons] at enough
      have skipped : eraseFrom pattern more ⟨some c, rest⟩ = eraseFrom pattern fuel ⟨some c, rest⟩ :=
        ih (by simpa using enough) (by omega)
      simp only [eraseFrom]
      cases ends pattern ⟨behind, c :: rest⟩ with
      | nil => rw [skipped]
      | cons e others =>
        simp only [List.length_cons]
        split
        · exact ih (by omega) (by omega)
        · rw [skipped]

/-- Where nothing matches, the character stays. -/
theorem erase_skip {pattern : Pattern α} {behind : Option α} {c : α} {rest : List α}
    (stuck : ends pattern ⟨behind, c :: rest⟩ = []) :
    erase pattern ⟨behind, c :: rest⟩ = c :: erase pattern ⟨some c, rest⟩ := by
  simp [erase, eraseFrom, stuck]

/-- What the first end leaves out is gone. -/
theorem erase_match {pattern : Pattern α} {p e : Position α} {more : List (Position α)}
    (matched : ends pattern p = e :: more) (reads : e.rest.length < p.rest.length) :
    erase pattern p = erase pattern e := by
  obtain ⟨behind, rest⟩ := p
  cases rest with
  | nil => exact absurd reads (Nat.not_lt_zero _)
  | cons c rest =>
    rw [erase, erase, List.length_cons, eraseFrom]
    simp only [matched]
    rw [if_pos reads]
    exact eraseFrom_fuel (Nat.le_refl _) (by simp only [List.length_cons] at reads; omega)

end WorkerInformer.Backtracking
