import WorkerInformer.UrlParser

/-! The loop of `UrlParser::parse` (`src/UrlParser.cpp`) on the cursor it keeps:
`std::string::size_type` has 64 bits, -1 converts to its largest value `npos`,
and `++pos` wraps from there to 0. A pass looks for the next equals sign and the
ampersand behind it and cuts two pieces with `substr`, which throws for a start
behind the end. Run so, the loop never throws, ends by itself, and gives the
parameters that the parse of the text gives. -/
namespace WorkerInformer.UrlParser
open Bytes

/-- `std::string::npos`. -/
def npos : Nat := 2 ^ 64 - 1

/-- `url_`; no `std::string` has `npos` bytes. -/
structure Url where
  bytes : Bytes
  size_lt_npos : bytes.length < npos

namespace Url

def size (url : Url) : Nat := url.bytes.length

/-- `find_first_of` for one byte. -/
def findFirstOf (url : Url) (b : UInt8) (pos : Nat) : Nat :=
  match (url.bytes.drop pos).findIdx? (· = b) with
  | some count => pos + count
  | none => npos

/-- `substr`; nothing stands for `std::out_of_range`. -/
def substr? (url : Url) (pos count : Nat) : Option Bytes :=
  if url.size < pos then none else some ((url.bytes.drop pos).take count)

end Url

/-- `++pos`. -/
def increment (pos : Nat) : Nat := (pos + 1) % 2 ^ 64

/-- `stop - start` of two `size_type`s. -/
def distance (stop start : Nat) : Nat := (stop + 2 ^ 64 - start) % 2 ^ 64

/-- How a pass of the loop leaves its body. -/
inductive Leaves
  | returned
  | outOfRange
  | passed (pos : Nat) (params : KeyMap Bytes Bytes)

/-- One pass: the values it gives the cursor, the starts of its `substr` calls
and how it ended. -/
structure Pass where
  cursors : List Nat
  starts : List Nat
  leaves : Leaves

/-- The body of the loop. -/
def pass (url : Url) (pos : Nat) (params : KeyMap Bytes Bytes) : Pass :=
  let nameStart := increment pos
  let equals := url.findFirstOf 61 nameStart
  if equals = npos then ⟨[nameStart], [], .returned⟩
  else match url.substr? nameStart (distance equals nameStart) with
    | none => ⟨[nameStart], [nameStart], .outOfRange⟩
    | some paramName =>
      let valueStart := increment equals
      let found := url.findFirstOf 38 valueStart
      let stop := if found = npos then url.size else found
      match url.substr? valueStart (distance stop valueStart) with
      | none => ⟨[nameStart, equals, valueStart], [nameStart, valueStart], .outOfRange⟩
      | some paramValue =>
        ⟨[nameStart, equals, valueStart, stop], [nameStart, valueStart],
          .passed stop (params.set paramName (percentDecode paramValue))⟩

/-- The condition of the loop. -/
def Continues (url : Url) (pos : Nat) : Prop := pos < url.size ∨ pos = npos

instance (url : Url) (pos : Nat) : Decidable (Continues url pos) := inferInstanceAs (Decidable (_ ∨ _))

/-- What became of the call: it returned, it threw, or the fuel of the model ran
out in the middle of it. -/
inductive Result
  | returned (params : KeyMap Bytes Bytes)
  | outOfRange
  | running

def loop (url : Url) : Nat → Nat → KeyMap Bytes Bytes → Result
  | 0, _, _ => .running
  | fuel + 1, pos, params =>
    if Continues url pos then
      match (pass url pos params).leaves with
      | .returned => .returned params
      | .outOfRange => .outOfRange
      | .passed pos params => loop url fuel pos params
    else .returned params

/-- The cursor before the loop: `npos` when there is no question mark is the -1
that the source assigns. -/
def firstPos (url : Url) : Nat := url.findFirstOf 63 0

/-- The cursors and parameters that passes of the loop begin with. -/
inductive Begins (url : Url) : Nat → KeyMap Bytes Bytes → Prop
  | first : Continues url (firstPos url) → Begins url (firstPos url) KeyMap.empty
  | next {pos stop : Nat} {params more : KeyMap Bytes Bytes} : Begins url pos params →
    (pass url pos params).leaves = .passed stop more → Continues url stop → Begins url stop more

/-- Searching by index and searching by what is left meet at the same byte. -/
theorem after?_eq_findIdx (b : UInt8) (text : Bytes) :
    after? b text = (text.findIdx? (· = b)).map fun count => text.drop (count + 1) := by
  induction text with
  | nil => rfl
  | cons c rest ih =>
    rw [after?, List.findIdx?_cons]
    by_cases here : c = b
    · simp [here]
    · simp only [here, ↓reduceIte, decide_false, Bool.false_eq_true, ih, Option.map_map]
      rfl

theorem after?_eq_none_iff {b : UInt8} {text : Bytes} : after? b text = none ↔ b ∉ text := by
  rw [after?_eq_findIdx, Option.map_eq_none_iff, List.findIdx?_eq_none_iff]
  constructor
  · intro misses member
    simpa using misses b member
  · intro absent c member
    exact decide_eq_false (ne_of_mem_of_not_mem member absent)

theorem takeWhile_eq_take {b : UInt8} {text : Bytes} {count : Nat}
    (found : text.findIdx? (· = b) = some count) : text.takeWhile (· ≠ b) = text.take count := by
  induction text generalizing count with
  | nil => cases found
  | cons c rest ih =>
    rw [List.findIdx?_cons] at found
    by_cases here : c = b
    · simp only [here, decide_true, ↓reduceIte, Option.some.injEq] at found
      subst found
      simp [here]
    · simp only [here, decide_false, Bool.false_eq_true, ↓reduceIte, Option.map_eq_some_iff] at found
      obtain ⟨before, found, rfl⟩ := found
      simp [here, ← ih found]

/-- What a search behind a cursor inside the text comes back with. -/
theorem findFirstOf_cases (url : Url) (b : UInt8) (pos : Nat) :
    url.findFirstOf b pos = npos ∧ after? b (url.bytes.drop pos) = none ∨
      ∃ count, url.findFirstOf b pos = pos + count ∧ pos + count < url.size ∧
        (url.bytes.drop pos).takeWhile (· ≠ b) = (url.bytes.drop pos).take count ∧
        after? b (url.bytes.drop pos) = some (url.bytes.drop (pos + count + 1)) := by
  cases found : (url.bytes.drop pos).findIdx? (· = b) with
  | none => exact .inl ⟨by rw [Url.findFirstOf, found], by rw [after?_eq_findIdx, found]; rfl⟩
  | some count =>
    refine .inr ⟨count, by rw [Url.findFirstOf, found], ?_, takeWhile_eq_take found, ?_⟩
    · have inside := (List.findIdx?_eq_some_iff_getElem.mp found).1
      rw [List.length_drop] at inside
      exact Nat.add_lt_of_lt_sub' inside
    · rw [after?_eq_findIdx, found, Option.map_some, List.drop_drop]
      rfl

/-- Behind the cursor of a pass the text begins inside the url. -/
theorem increment_le {url : Url} {pos : Nat} (continues : Continues url pos) :
    increment pos ≤ url.size ∧ (pos ≠ npos → increment pos = pos + 1) := by
  have short := url.size_lt_npos
  rcases continues with inside | rfl
  · have whole : increment pos = pos + 1 := by
      simp only [increment, Url.size, npos] at *
      omega
    exact ⟨whole ▸ inside, fun _ => whole⟩
  · exact ⟨Nat.zero_le _, fun moved => absurd rfl moved⟩

/-- A difference of two cursors inside the url does not wrap. -/
theorem distance_eq {url : Url} {stop start : Nat} (ordered : start ≤ stop) (inside : stop ≤ url.size) :
    distance stop start = stop - start := by
  have short := url.size_lt_npos
  simp only [distance, Url.size, npos] at *
  omega

theorem substr?_inside (url : Url) {stop start : Nat} (ordered : start ≤ stop) (inside : stop ≤ url.size) :
    url.substr? start (distance stop start) = some ((url.bytes.drop start).take (stop - start)) := by
  rw [Url.substr?, if_neg (by omega), distance_eq ordered inside]

/-- What a pass does: it finds no equals sign and the call returns, or it cuts a
name before one and a value that reaches to `stop`, an ampersand or the end. -/
theorem pass_cases (url : Url) (pos : Nat) (params : KeyMap Bytes Bytes) :
    pass url pos params = ⟨[increment pos], [], .returned⟩ ∧ after? 61 (url.bytes.drop (increment pos)) = none ∨
      ∃ equals stop, increment pos ≤ equals ∧ equals < stop ∧ stop ≤ url.size ∧
        after? 61 (url.bytes.drop (increment pos)) = some (url.bytes.drop (equals + 1)) ∧
        (after? 38 (url.bytes.drop (equals + 1)) = none ∧ stop = url.size ∨
          after? 38 (url.bytes.drop (equals + 1)) = some (url.bytes.drop (stop + 1)) ∧ stop < url.size) ∧
        pass url pos params = ⟨[increment pos, equals, equals + 1, stop], [increment pos, equals + 1], .passed stop
          (params.set ((url.bytes.drop (increment pos)).takeWhile (· ≠ 61))
            (percentDecode ((url.bytes.drop (equals + 1)).takeWhile (· ≠ 38))))⟩ := by
  have short := url.size_lt_npos
  change url.size < npos at short
  rcases findFirstOf_cases url 61 (increment pos) with ⟨missing, none_left⟩ | ⟨before, found, inside, name, behind⟩
  · exact .inl ⟨by simp only [pass, missing, ↓reduceIte], none_left⟩
  right
  have not_npos : increment pos + before ≠ npos := by omega
  have next : increment (increment pos + before) = increment pos + before + 1 :=
    (increment_le (.inl inside)).2 not_npos
  have cut_name := substr?_inside url (Nat.le_add_right (increment pos) before) (Nat.le_of_lt inside)
  rw [Nat.add_sub_cancel_left, ← name] at cut_name
  rcases findFirstOf_cases url 38 (increment pos + before + 1) with
    ⟨missing, none_left⟩ | ⟨count, ampersand, stop_inside, value, rest⟩
  · refine ⟨increment pos + before, url.size, Nat.le_add_right _ _, inside, Nat.le_refl _, behind,
      .inl ⟨none_left, rfl⟩, ?_⟩
    have whole : (url.bytes.drop (increment pos + before + 1)).takeWhile (· ≠ 38) =
        (url.bytes.drop (increment pos + before + 1)).take (url.size - (increment pos + before + 1)) := by
      rw [List.take_of_length_le (by rw [List.length_drop]; exact Nat.le_refl _)]
      exact takeWhile_of_absent (after?_eq_none_iff.mp none_left)
    rw [whole]
    simp only [pass, found, not_npos, ↓reduceIte, next, cut_name, missing,
      substr?_inside url inside (Nat.le_refl _)]
  · have not_npos' : increment pos + before + 1 + count ≠ npos := by omega
    refine ⟨increment pos + before, increment pos + before + 1 + count, Nat.le_add_right _ _, by omega,
      Nat.le_of_lt stop_inside, behind, .inr ⟨rest, stop_inside⟩, ?_⟩
    simp only [pass, found, not_npos, ↓reduceIte, next, cut_name, ampersand, not_npos',
      substr?_inside url (Nat.le_add_right _ count) (Nat.le_of_lt stop_inside), value,
      Nat.add_sub_cancel_left]

/-- The loop on the cursor computes what the parse of the text behind the cursor
computes, given fuel for the rest of the text. -/
theorem loop_eq_parseFrom {url : Url} {fuel pos : Nat} {params : KeyMap Bytes Bytes}
    (continues : Continues url pos) (enough : url.size < increment pos + fuel) :
    loop url (fuel + 1) pos params =
      .returned (parseFrom (fuel + 1) (url.bytes.drop (increment pos)) params) := by
  induction fuel generalizing pos params with
  | zero =>
    have := (increment_le continues).1
    omega
  | succ fuel ih =>
    rw [loop, if_pos continues, parseFrom]
    rcases pass_cases url pos params with
      ⟨ended, missing⟩ | ⟨equals, stop, start_le, advanced, inside, name, value, passed⟩
    · rw [ended, missing]
    rw [passed, name]
    simp only
    rcases value with ⟨missing, rfl⟩ | ⟨rest, stop_inside⟩
    · have ends : ¬ Continues url url.size := by
        have short := url.size_lt_npos
        simp only [Continues, Url.size] at *
        omega
      rw [missing, loop, if_neg ends]
    · have moved : increment stop = stop + 1 :=
        (increment_le (.inl stop_inside)).2 (Nat.ne_of_lt (Nat.lt_trans stop_inside url.size_lt_npos))
      rw [rest, ih (.inl stop_inside) (by omega), moved]

/-- A cursor that a pass begins with lies inside the url, or is the -1 of a url
without a question mark. -/
theorem begins_continues {url : Url} {pos : Nat} {params : KeyMap Bytes Bytes} (begins : Begins url pos params) :
    Continues url pos := by
  cases begins with
  | first continues => exact continues
  | next _ _ continues => exact continues

/-- **The loop of the source, from its first cursor, returns the parameters of
the text.** -/
theorem loop_eq_parse (url : Url) :
    loop url (url.size + 2) (firstPos url) KeyMap.empty = .returned (parse url.bytes) := by
  rcases findFirstOf_cases url 63 0 with ⟨missing, none_left⟩ | ⟨count, mark, inside, -, behind⟩
  · have continues : Continues url (firstPos url) := .inr missing
    have wrapped : increment (firstPos url) = 0 := by rw [firstPos, missing]; rfl
    rw [loop_eq_parseFrom continues (by omega), wrapped, List.drop_zero, parse]
    rw [List.drop_zero] at none_left
    rw [none_left, Option.getD_none]
    exact congrArg _ (parseFrom_fuel (Nat.lt_succ_self _) (Nat.le_succ _) _)
  · have continues : Continues url (firstPos url) := .inl (by rw [firstPos, mark]; exact inside)
    have moved : increment (firstPos url) = 0 + count + 1 := by
      rw [firstPos, mark]
      exact (increment_le (.inl inside)).2 (Nat.ne_of_lt (Nat.lt_trans inside url.size_lt_npos))
    rw [loop_eq_parseFrom continues (by omega), moved, parse]
    rw [List.drop_zero] at behind
    rw [behind, Option.getD_some]
    apply congrArg
    apply parseFrom_fuel _ (Nat.le_succ _)
    rw [List.length_drop]
    exact Nat.lt_succ_of_le (Nat.sub_le _ _)

/-- What no pass may do otherwise: a cursor or the start of a `substr` never
stands behind the end, nothing is thrown, and a pass that goes on leaves the
cursor strictly behind where its `++pos` put it, so behind where it began unless
that was the wrap, to which no pass returns. -/
structure StaysInside (url : Url) (pos : Nat) (pass : Pass) : Prop where
  cursors : ∀ cursor ∈ pass.cursors, cursor ≤ url.size
  starts : ∀ start ∈ pass.starts, start ≤ url.size
  no_throw : pass.leaves ≠ .outOfRange
  advances : ∀ {stop more}, pass.leaves = .passed stop more →
    (pos ≠ npos → pos < stop) ∧ increment pos < stop ∧ stop < npos

theorem pass_staysInside {url : Url} {pos : Nat} (continues : Continues url pos) (params : KeyMap Bytes Bytes) :
    StaysInside url pos (pass url pos params) := by
  obtain ⟨start_inside, moved⟩ := increment_le continues
  rcases pass_cases url pos params with
    ⟨ended, -⟩ | ⟨equals, stop, start_le, advanced, inside, -, -, passed⟩
  · rw [ended]
    exact ⟨by simpa using start_inside, by simp, nofun, nofun⟩
  rw [passed]
  have short := url.size_lt_npos
  change url.size < npos at short
  constructor
  · simp only [List.forall_mem_cons, List.not_mem_nil, false_implies, implies_true, and_true]
    omega
  · simp only [List.forall_mem_cons, List.not_mem_nil, false_implies, implies_true, and_true]
    omega
  · nofun
  · rintro _ _ ⟨rfl, rfl⟩
    refine ⟨?_, by omega, by omega⟩
    intro unwrapped
    rw [moved unwrapped] at start_le
    omega

/-- **Parsing ends, inside the url.** For every url the call returns the
parameters of the text and no pass of its loop leaves the text. -/
theorem parse_stays_inside (url : Url) :
    loop url (url.size + 2) (firstPos url) KeyMap.empty = .returned (parse url.bytes) ∧
      ∀ {pos params}, Begins url pos params → StaysInside url pos (pass url pos params) := by
  constructor
  · exact loop_eq_parse url
  · intro pos params begins
    exact pass_staysInside (begins_continues begins) params

/-- The value of a name that ends the text starts at its end. -/
example : (pass ⟨bytes "a=", by decide +kernel⟩ npos KeyMap.empty).starts = [0, 2] := by decide +kernel

end WorkerInformer.UrlParser
