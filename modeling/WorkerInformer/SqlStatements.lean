import WorkerInformer.SqlText

/-! A whole UPDATE or INSERT as a format writes it, and what is left of it when
the buffer is too short. What remains of an UPDATE is a statement again when it
ends after a complete value, and then it may lack the condition that comes
last; what remains of an INSERT never is. Nothing in this file is about one
program. -/
namespace WorkerInformer.Sql
open Bytes SqlLexer Printf

/-- The bytes that end a value in the statements. -/
def delimiters : Bytes := [44, 32, 59, 41, 10]

/-- After the pending token, which any delimiter ends, the parser is at `p`. -/
structure Ready (r : Reader) (p : Parser) : Prop where
  settled : r.settle = p
  flushes : ∀ b ∈ delimiters, SqlLexer.step r.lexer b = flush r.lexer b

theorem Ready.finish {r : Reader} {p : Parser} (ready : Ready r p) : r.finish = p.finish := by
  rw [Reader.finish_eq, ready.settled]

theorem Ready.feed {r : Reader} {p : Parser} (ready : Ready r p) {b : UInt8} (delimiter : b ∈ delimiters)
    (rest : Bytes) : r.feed (b :: rest) = Reader.feed ⟨.start, p⟩ (b :: rest) := by
  rw [Reader.feed_settled (ready.flushes b delimiter), ready.settled]

theorem ready_start (p : Parser) : Ready ⟨.start, p⟩ p := ⟨rfl, fun _ _ => rfl⟩

theorem ready_text (w : Written) {before : Parser} {p : Parser}
    (settled : (Reader.feed ⟨.start, before⟩ w.text).settle = p) :
    Ready (Reader.feed ⟨.start, before⟩ w.text) p :=
  ⟨settled, fun b delimiter => by
    rw [feed_lexer]
    exact state_flushes w delimiter⟩

def spaces (n : Nat) : Bytes := List.replicate n 32

theorem feed_start_spaces (p : Parser) (n : Nat) : Reader.feed ⟨.start, p⟩ (spaces n) = ⟨.start, p⟩ := by
  have all : ∀ b ∈ spaces n, isSpace b = true := by
    intro b member
    rw [List.eq_of_mem_replicate member]
    rfl
  simp only [Reader.feed, feed_spaces all, Parser.steps_nil]

/-- Spaces after a value end it. -/
theorem Ready.spaces {r : Reader} {p : Parser} (ready : Ready r p) (n : Nat) :
    Ready (r.feed (spaces n)) p := by
  cases n with
  | zero => exact ready
  | succ n =>
    have same : r.feed (Sql.spaces (n + 1)) = ⟨.start, p⟩ :=
      (ready.feed (by decide) _).trans (feed_start_spaces p (n + 1))
    rw [same]
    exact ready_start p

theorem spaces_take (n k : Nat) : (spaces n).take k = spaces (min k n) := by
  simp [spaces, List.take_replicate]

theorem finish_fail (text : Bytes) : (Reader.feed ⟨.start, .fail⟩ text).finish = none :=
  Reader.finish_of_fail rfl text

/-! ## UPDATE -/

/-- `column=value` in an UPDATE, behind some spaces. -/
structure Assignment where
  gap : Nat
  column : Bytes
  letters : column ≠ [] ∧ ∀ b ∈ column, isLetter b = true
  written : Written

namespace Assignment

/-- What stands before the value. -/
def head (a : Assignment) : Bytes := spaces a.gap ++ (a.column ++ [61])

def text (a : Assignment) : Bytes := a.head ++ a.written.text

/-- The column as SQL knows it. -/
def name (a : Assignment) : Bytes := lower a.column

theorem feed_column (a : Assignment) (p : Parser) :
    Reader.feed ⟨.start, p⟩ a.column = ⟨.word a.column, p⟩ := by
  simp only [Reader.feed, feed_letters a.letters, Parser.steps_nil]

theorem feed_head (a : Assignment) (table : Bytes) (assignments : List (Bytes × Value)) :
    Reader.feed ⟨.start, .set table assignments⟩ a.head = ⟨.start, .setValue table assignments a.name⟩ := by
  rw [head, Reader.feed_append, feed_start_spaces, Reader.feed_append, feed_column]
  have equals : SqlLexer.step (.word a.column) 61 = ([.word (lower a.column), .punct 61], .start) := rfl
  simp only [Reader.feed, SqlLexer.feed, equals, List.append_nil, Parser.steps_cons, Parser.steps_nil]
  rfl

/-- Nothing can end before the value. -/
theorem finish_take_head (a : Assignment) (table : Bytes) (assignments : List (Bytes × Value)) (k : Nat) :
    (Reader.feed ⟨.start, .set table assignments⟩ (a.head.take k)).finish = none := by
  by_cases whole : a.head.length ≤ k
  · rw [List.take_of_length_le whole, feed_head]
    rfl
  · have length : a.head.length = a.gap + (a.column.length + 1) := by simp [head, spaces]
    have column_part : (a.column ++ [61]).take (k - a.gap) = a.column.take (k - a.gap) :=
      List.take_append_of_le_length (by omega)
    rw [head, List.take_append, Reader.feed_append, spaces_take, feed_start_spaces]
    simp only [spaces, List.length_replicate]
    rw [column_part]
    by_cases none_kept : a.column.take (k - a.gap) = []
    · rw [none_kept]
      rfl
    · have letters : ∀ b ∈ a.column.take (k - a.gap), isLetter b = true :=
        fun b member => a.letters.2 b (List.mem_of_mem_take member)
      simp only [Reader.feed, feed_letters ⟨none_kept, letters⟩, Parser.steps_nil]
      rfl

/-- A whole assignment is read. -/
theorem ready (a : Assignment) {value : Value} (read : a.written.value? = some value) (table : Bytes)
    (assignments : List (Bytes × Value)) :
    Ready (Reader.feed ⟨.start, .set table assignments⟩ a.text)
      (.clause (.update table (assignments ++ [(a.name, value)]))) := by
  rw [text, Reader.feed_append, feed_head]
  exact ready_text _ ((setPlace table assignments a.name).settle_text read)

/-- An assignment of what is no literal is rejected. -/
theorem ready_fail (a : Assignment) (unread : a.written.value? = none) (table : Bytes)
    (assignments : List (Bytes × Value)) :
    Ready (Reader.feed ⟨.start, .set table assignments⟩ a.text) .fail := by
  rw [text, Reader.feed_append, feed_head]
  exact ready_text _ ((setPlace table assignments a.name).settle_word unread)

end Assignment

/-- The assignments after the first. -/
def moreAssignments (more : List Assignment) : Bytes := more.flatMap fun a => 44 :: a.text

/-- ` WHERE id=key;` behind some spaces. -/
def keyTail (gap : Nat) (key : Int) : Bytes :=
  spaces gap ++ (bytes "WHERE id=" ++ ((Written.ofInt key).text ++ [59]))

/-- The condition `id=key`. -/
def keyCondition (key : Int) : Condition :=
  [[⟨.column ⟨none, bytes "id"⟩, some (.literal (.integer key))⟩]]

/-- The values of the assignments, each of them a literal. -/
def readAll (assignments : List Assignment) : Option (List (Bytes × Value)) :=
  assignments.mapM fun a => a.written.value?.map (a.name, ·)

theorem feed_comma (table : Bytes) (assignments : List (Bytes × Value)) (rest : Bytes) :
    Reader.feed ⟨.start, .clause (.update table assignments)⟩ (44 :: rest) =
      Reader.feed ⟨.start, .set table assignments⟩ rest := rfl

/-- The whole list of assignments is read. -/
theorem ready_more {table : Bytes} {more : List Assignment} {values : List (Bytes × Value)}
    (read : readAll more = some values) {r : Reader} {assignments : List (Bytes × Value)}
    (before : Ready r (.clause (.update table assignments))) :
    Ready (r.feed (moreAssignments more)) (.clause (.update table (assignments ++ values))) := by
  induction more generalizing r assignments values with
  | nil =>
    obtain rfl : [] = values := Option.some.inj read
    rw [List.append_nil]
    exact before
  | cons a more ih =>
    simp only [readAll, List.mapM_cons] at read
    cases value : a.written.value? with
    | none => simp [value] at read
    | some v =>
      cases later : readAll more with
      | none =>
        simp only [readAll] at later
        simp [value, later] at read
      | some vs =>
        have same : values = (a.name, v) :: vs := by
          simp only [readAll] at later
          simpa [value, later, eq_comm] using read
        have text : moreAssignments (a :: more) = (44 :: a.text) ++ moreAssignments more := rfl
        rw [text, Reader.feed_append, before.feed (by decide), feed_comma, same]
        simpa using ih later (a.ready value table assignments)

theorem feed_where (head : Head) :
    Reader.feed ⟨.start, .clause head⟩ (bytes "WHERE id=") =
      ⟨.start, .operand ⟨head, [], [], some (.column ⟨none, bytes "id"⟩)⟩⟩ := rfl

/-- A key and the end of the statement. -/
theorem finish_key (ctx : Context) (key : Int) :
    (Reader.feed ⟨.start, .operand ctx⟩ ((Written.ofInt key).text ++ [59])).finish =
      some (.conditional ctx.head (some (ctx.condition (.literal (.integer key)))) none) := by
  have read := ready_text _ ((operandPlace ctx).settle_text (Written.ofInt_value key))
  rw [Reader.feed_append, read.feed (by decide)]
  rfl

/-- The key of the condition is read as itself. -/
theorem finish_keyTail {r : Reader} {head : Head} (before : Ready r (.clause head)) (gap : Nat)
    (some_gap : 0 < gap) (key : Int) :
    (r.feed (keyTail gap key)).finish = some (.conditional head (some (keyCondition key)) none) := by
  obtain ⟨n, rfl⟩ := Nat.exists_eq_succ_of_ne_zero (Nat.pos_iff_ne_zero.mp some_gap)
  have gap_read : r.feed (spaces (n + 1)) = ⟨.start, .clause head⟩ :=
    (before.feed (by decide) _).trans (feed_start_spaces _ (n + 1))
  rw [keyTail, Reader.feed_append, gap_read, Reader.feed_append, feed_where, finish_key]
  rfl

/-! ## A cut off UPDATE -/

/-- What the kept part of an UPDATE asks for: nothing, because it is rejected;
a change of all rows; a change of the rows where a column is true; a change of
the rows with one key. -/
inductive Scope
  | rejected
  | all
  | named (column : Bytes)
  | keyed (key : Int)

/-- The number the first `k` bytes of a key denote. -/
def keyValue (key : Int) (k : Nat) : Int :=
  if key < 0 then -value ((decimal key.natAbs).take (k - 1)) else value ((decimal key.natAbs).take k)

theorem ofInt_length (key : Int) :
    (Written.ofInt key).text.length = (sign (decide (key < 0))).length + (decimal key.natAbs).length := by
  simp [Written.ofInt, Written.text, Numeral.text, Numeral.ofNat]

theorem keyValue_whole (key : Int) {k : Nat} (whole : (Written.ofInt key).text.length ≤ k) :
    keyValue key k = key := by
  rw [ofInt_length] at whole
  unfold keyValue
  by_cases negative : key < 0
  · simp only [negative, decide_true, sign, ↓reduceIte, List.length_cons, List.length_nil] at whole ⊢
    rw [List.take_of_length_le (by omega), value_decimal]
    omega
  · simp only [negative, decide_false, sign, Bool.false_eq_true, ↓reduceIte, List.length_nil] at whole ⊢
    rw [List.take_of_length_le (by omega), value_decimal]
    omega

/-- When `k` bytes are kept after the last assignment: within the spaces, right
after `WHERE i` or `WHERE id`, or behind `WHERE id=` with a digit of the key. -/
def scopeAfter (gap : Nat) (key : Int) (k : Nat) : Scope :=
  if k ≤ gap then .all
  else if k = gap + 7 then .named (bytes "i")
  else if k = gap + 8 then .named (bytes "id")
  else if (Written.ofInt key).closedAt (k - (gap + 9)) then .keyed (keyValue key (k - (gap + 9)))
  else .rejected

/-- When `k` bytes are kept from the beginning of an assignment on. -/
def scopeFrom (a : Assignment) (next : Nat → Scope) (k : Nat) : Scope :=
  if k ≤ a.head.length then .rejected
  else if k < a.text.length then if a.written.closedAt (k - a.head.length) then .all else .rejected
  else if a.written.isWord then .rejected
  else next (k - a.text.length)

/-- When `k` bytes are kept after an assignment with these still to come. -/
def scopeMore (gap : Nat) (key : Int) : List Assignment → Nat → Scope
  | [], k => scopeAfter gap key k
  | _ :: _, 0 => .all
  | a :: more, k + 1 => scopeFrom a (scopeMore gap key more) k

theorem scopeFrom_whole {a : Assignment} {next : Nat → Scope} {k : Nat} (long : a.text.length < k) :
    scopeFrom a next k = if a.written.isWord then .rejected else next (k - a.text.length) := by
  have length : a.text.length = a.head.length + a.written.text.length := by simp [Assignment.text]
  rw [scopeFrom, if_neg (by omega), if_neg (by omega)]

/-- An UPDATE that is kept whole is about its key, unless it assigns what is no
literal. -/
theorem scopeMore_whole {gap : Nat} {key : Int} (more : List Assignment) {k : Nat}
    (long : (moreAssignments more ++ keyTail gap key).length ≤ k) :
    scopeMore gap key more k = if more.any (·.written.isWord) then .rejected else .keyed key := by
  induction more generalizing k with
  | nil =>
    have tail : (moreAssignments [] ++ keyTail gap key).length = gap + 9 + (Written.ofInt key).text.length + 1 := by
      simp [moreAssignments, keyTail, spaces, show (bytes "WHERE id=").length = 9 from rfl]
      omega
    have sign_length := ofInt_length key
    have closed : (Written.ofInt key).closedAt (k - (gap + 9)) = true := decide_eq_true (by omega)
    rw [scopeMore, scopeAfter, if_neg (by omega), if_neg (by omega), if_neg (by omega), if_pos closed,
      keyValue_whole key (by omega)]
    rfl
  | cons a more ih =>
    have text : (moreAssignments (a :: more) ++ keyTail gap key).length =
        1 + a.text.length + (moreAssignments more ++ keyTail gap key).length := by
      simp [moreAssignments]
      omega
    have tail : 0 < (moreAssignments more ++ keyTail gap key).length := by
      simp [keyTail, show (bytes "WHERE id=").length = 9 from rfl]
    obtain ⟨k, rfl⟩ : ∃ j, k = j + 1 := ⟨k - 1, by omega⟩
    rw [scopeMore, scopeFrom_whole (by omega), ih (by omega), List.any_cons]
    cases a.written.isWord <;> rfl

theorem scopeFrom_named {a : Assignment} {next : Nat → Scope} {column : Bytes} {kind : Prop}
    (later : ∀ k, next k = .named column → kind) {k : Nat} (named : scopeFrom a next k = .named column) :
    kind := by
  unfold scopeFrom at named
  split at named
  · cases named
  · split at named
    · split at named <;> cases named
    · split at named
      · cases named
      · exact later _ named

/-- Only the column of the condition, whole or cut, can be a condition alone. -/
theorem scopeMore_named {gap : Nat} {key : Int} {column : Bytes} (more : List Assignment) (k : Nat)
    (named : scopeMore gap key more k = .named column) : column = bytes "i" ∨ column = bytes "id" := by
  induction more generalizing k with
  | nil =>
    unfold scopeMore scopeAfter at named
    split at named
    · cases named
    · split at named
      · exact Or.inl (Scope.named.inj named).symm
      · split at named
        · exact Or.inr (Scope.named.inj named).symm
        · split at named <;> cases named
  | cons a more ih =>
    cases k with
    | zero => cases named
    | succ k => exact scopeFrom_named (fun k => ih k) named

/-- The scope is that of the statement, after `assignments` and with columns
among `names` still to come. -/
def Scope.Describes (table : Bytes) (assignments : List (Bytes × Value)) (names : List Bytes) :
    Scope → Option Statement → Prop
  | rejected, read => read = none
  | all, read => ∃ values : List (Bytes × Value), values.map Prod.fst <+: names ∧
      assignments ++ values ≠ [] ∧
      read = some (.conditional (.update table (assignments ++ values)) none none)
  | named column, read => ∃ values : List (Bytes × Value), values.map Prod.fst = names ∧
      read = some (.conditional (.update table (assignments ++ values))
        (some [[⟨.column ⟨none, column⟩, none⟩]]) none)
  | keyed key, read => ∃ values : List (Bytes × Value), values.map Prod.fst = names ∧
      read = some (.conditional (.update table (assignments ++ values)) (some (keyCondition key)) none)

theorem Scope.Describes.cons {table : Bytes} {assignments : List (Bytes × Value)} {names : List Bytes}
    {e : Bytes × Value} {scope : Scope} {read : Option Statement}
    (later : scope.Describes table (assignments ++ [e]) names read) :
    scope.Describes table assignments (e.1 :: names) read := by
  cases scope with
  | rejected => exact later
  | all =>
    obtain ⟨values, part, -, rfl⟩ := later
    exact ⟨e :: values, by simpa using part, by simp, by simp⟩
  | named column =>
    obtain ⟨values, rfl, rfl⟩ := later
    exact ⟨e :: values, by simp, by simp⟩
  | keyed key =>
    obtain ⟨values, rfl, rfl⟩ := later
    exact ⟨e :: values, by simp, by simp⟩

/-- A key that is cut behind a digit is read as the number that is left. -/
theorem settle_take_key (ctx : Context) (key : Int) {k : Nat}
    (closed : (Written.ofInt key).closedAt k = true) :
    (Reader.feed ⟨.start, .operand ctx⟩ ((Written.ofInt key).text.take k)).settle =
      .compared ctx (.literal (.integer (keyValue key k))) := by
  have kept : (sign (decide (key < 0))).length < k := of_decide_eq_true closed
  obtain ⟨cut, text, whole, read⟩ := (operandPlace ctx).settle_take_numeral (decide (key < 0))
    (Numeral.ofNat key.natAbs) kept
  have no_fraction := whole rfl
  have digits : cut.digits = (decimal key.natAbs).take (k - (sign (decide (key < 0))).length) := by
    simpa [Numeral.text, Numeral.ofNat, no_fraction] using text
  apply read _
  by_cases negative : key < 0
  · simp [Written.value?, Written.token, no_fraction, Written.isNegative, literal?, negative, digits, sign,
      keyValue]
  · simp [Written.value?, Written.token, no_fraction, Written.isNegative, literal?, negative, digits, sign,
      keyValue]

private theorem finish_take_where (table : Bytes) (assignments : List (Bytes × Value)) {k : Nat}
    (some_kept : 0 < k) (part : k < 9) :
    (Reader.feed ⟨.start, .clause (.update table assignments)⟩ ((bytes "WHERE id=").take k)).finish =
      if k = 7 then some (.conditional (.update table assignments)
        (some [[⟨.column ⟨none, bytes "i"⟩, none⟩]]) none)
      else if k = 8 then some (.conditional (.update table assignments)
        (some [[⟨.column ⟨none, bytes "id"⟩, none⟩]]) none)
      else none := by
  interval_cases k <;> rfl

private theorem finish_take_key (ctx : Context) (key : Int) (k : Nat) :
    (Reader.feed ⟨.start, .operand ctx⟩ (((Written.ofInt key).text ++ [59]).take k)).finish =
      if (Written.ofInt key).closedAt k then
        some (.conditional ctx.head (some (ctx.condition (.literal (.integer (keyValue key k))))) none)
      else none := by
  by_cases part : k ≤ (Written.ofInt key).text.length
  · rw [List.take_append_of_le_length part]
    split
    · rename_i closed
      rw [Reader.finish_eq, settle_take_key ctx key closed]
      rfl
    · rename_i notClosed
      exact (operandPlace ctx).finish_take_open rfl (by simpa using notClosed)
  · have whole : ((Written.ofInt key).text ++ [59]).take k = (Written.ofInt key).text ++ [59] :=
      List.take_of_length_le (by simp; omega)
    have closed : (Written.ofInt key).closedAt k = true := by
      have length := ofInt_length key
      exact decide_eq_true (by omega)
    rw [whole, if_pos closed, keyValue_whole key (by omega), finish_key]

private theorem where_length : (bytes "WHERE id=").length = 9 := rfl

/-- A cut inside `WHERE id=`. -/
private theorem take_where_part (value : Bytes) {k : Nat} (part : k < 9) :
    (bytes "WHERE id=" ++ value).take k = (bytes "WHERE id=").take k :=
  List.take_append_of_le_length (by rw [where_length]; omega)

/-- A cut behind it. -/
private theorem take_where_whole (value : Bytes) {k : Nat} (whole : 9 ≤ k) :
    (bytes "WHERE id=" ++ value).take k = bytes "WHERE id=" ++ value.take (k - 9) := by
  rw [List.take_append, where_length, List.take_of_length_le (by rw [where_length]; exact whole)]

private theorem describes_after {table : Bytes} {assignments : List (Bytes × Value)} {r : Reader}
    (before : Ready r (.clause (.update table assignments))) (nonempty : assignments ≠ []) {gap : Nat}
    (some_gap : 0 < gap) (key : Int) (k : Nat) :
    (scopeAfter gap key k).Describes table assignments [] (r.feed ((keyTail gap key).take k)).finish := by
  obtain ⟨n, rfl⟩ := Nat.exists_eq_succ_of_ne_zero (Nat.pos_iff_ne_zero.mp some_gap)
  have gap_read : r.feed (spaces (n + 1)) = ⟨.start, .clause (.update table assignments)⟩ :=
    (before.feed (by decide) _).trans (feed_start_spaces _ (n + 1))
  by_cases within : k ≤ n + 1
  · have kept : (keyTail (n + 1) key).take k = spaces k := by
      rw [keyTail, List.take_append_of_le_length (by simpa [spaces] using within), spaces_take,
        Nat.min_eq_left within]
    rw [kept, (before.spaces k).finish]
    simp only [scopeAfter, Nat.succ_eq_add_one, within, ↓reduceIte]
    exact ⟨[], List.prefix_refl _, by simpa using nonempty, by simp [Parser.finish]⟩
  · have kept : (keyTail (n + 1) key).take k =
        spaces (n + 1) ++ (bytes "WHERE id=" ++ ((Written.ofInt key).text ++ [59])).take (k - (n + 1)) := by
      rw [keyTail, List.take_append, spaces_take, Nat.min_eq_right (by omega)]
      simp [spaces]
    rw [kept, Reader.feed_append, gap_read]
    by_cases part : k - (n + 1) < 9
    · have not_closed : (Written.ofInt key).closedAt (k - (n + 1 + 9)) = false := by
        rw [show k - (n + 1 + 9) = 0 by omega]
        rfl
      rw [take_where_part _ part, finish_take_where table assignments (by omega) part]
      simp only [scopeAfter, Nat.succ_eq_add_one, within, ↓reduceIte, not_closed, Bool.false_eq_true]
      by_cases seven : k = n + 1 + 7
      · have : k - (n + 1) = 7 := by omega
        simp only [seven, ↓reduceIte]
        exact ⟨[], rfl, by simp⟩
      · by_cases eight : k = n + 1 + 8
        · have seven' : ¬ k - (n + 1) = 7 := by omega
          have eight' : k - (n + 1) = 8 := by omega
          rw [if_neg seven, if_pos eight, if_neg seven', if_pos eight']
          exact ⟨[], rfl, by simp⟩
        · have seven' : ¬ k - (n + 1) = 7 := by omega
          have eight' : ¬ k - (n + 1) = 8 := by omega
          simp only [seven, seven', eight, eight', ↓reduceIte]
          rfl
    · have seven : ¬ k = n + 1 + 7 := by omega
      have eight : ¬ k = n + 1 + 8 := by omega
      rw [take_where_whole _ (Nat.le_of_not_lt part), Nat.sub_sub, Reader.feed_append, feed_where, finish_take_key]
      simp only [scopeAfter, Nat.succ_eq_add_one, within, seven, eight, ↓reduceIte]
      split
      · exact ⟨[], rfl, by simp [Context.condition, Context.compare, keyCondition]⟩
      · rfl

/-- One more assignment, cut or whole, and what `next` says of the rest. -/
private theorem describes_from {table : Bytes} {assignments : List (Bytes × Value)} (a : Assignment)
    {rest : Bytes} (delimited : ∃ b later, rest = b :: later ∧ b ∈ delimiters) {names : List Bytes}
    {next : Nat → Scope}
    (described : ∀ {value}, a.written.value? = some value → ∀ k {r : Reader},
      Ready r (.clause (.update table (assignments ++ [(a.name, value)]))) →
      (next k).Describes table (assignments ++ [(a.name, value)]) names (r.feed (rest.take k)).finish)
    (k : Nat) :
    (scopeFrom a next k).Describes table assignments (a.name :: names)
      (Reader.feed ⟨.start, .set table assignments⟩ ((a.text ++ rest).take k)).finish := by
  have length : a.text.length = a.head.length + a.written.text.length := by simp [Assignment.text]
  have place := setPlace table assignments a.name
  unfold scopeFrom
  by_cases in_head : k ≤ a.head.length
  · rw [if_pos in_head, List.take_append_of_le_length (by omega), Assignment.text,
      List.take_append_of_le_length in_head]
    exact a.finish_take_head table assignments k
  · rw [if_neg in_head]
    by_cases in_value : k < a.text.length
    · have kept : (a.text ++ rest).take k = a.head ++ a.written.text.take (k - a.head.length) := by
        rw [List.take_append_of_le_length (by omega), Assignment.text, List.take_append,
          List.take_of_length_le (by omega)]
      rw [if_pos in_value, kept, Reader.feed_append, a.feed_head]
      by_cases closed : a.written.closedAt (k - a.head.length) = true
      · obtain ⟨value, settled⟩ := place.settle_take_closed closed
        rw [if_pos closed, Reader.finish_eq, settled]
        exact ⟨[(a.name, value)], by simp, by simp, rfl⟩
      · rw [if_neg closed]
        exact place.finish_take_open (by simpa using closed)
    · have kept : (a.text ++ rest).take k = a.text ++ rest.take (k - a.text.length) := by
        rw [List.take_append, List.take_of_length_le (by omega)]
      rw [if_neg in_value, kept, Reader.feed_append]
      have literal := a.written.value?_isSome
      cases value : a.written.value? with
      | none =>
        have word : a.written.isWord = true := by simpa [value] using literal
        have failed := a.ready_fail value table assignments
        rw [if_pos word]
        obtain ⟨b, later, rfl, delimiter⟩ := delimited
        cases k - a.text.length with
        | zero => exact failed.finish
        | succ j =>
          rw [List.take_succ_cons, failed.feed delimiter]
          exact finish_fail _
      | some v =>
        have word : ¬ a.written.isWord = true := by simpa [value] using literal
        rw [if_neg word]
        exact (described value _ (a.ready value table assignments)).cons

theorem delimited_rest {gap : Nat} (some_gap : 0 < gap) (key : Int) (more : List Assignment) :
    ∃ b later, moreAssignments more ++ keyTail gap key = b :: later ∧ b ∈ delimiters := by
  cases more with
  | nil =>
    obtain ⟨n, rfl⟩ := Nat.exists_eq_succ_of_ne_zero (Nat.pos_iff_ne_zero.mp some_gap)
    exact ⟨32, _, rfl, by decide⟩
  | cons a more => exact ⟨44, _, rfl, by decide⟩

/-- The scope of a cut after some assignments is that of the statement kept. -/
theorem describes_more {table : Bytes} {assignments : List (Bytes × Value)} {r : Reader}
    (before : Ready r (.clause (.update table assignments))) (nonempty : assignments ≠ []) {gap : Nat}
    (some_gap : 0 < gap) (key : Int) (more : List Assignment) (k : Nat) :
    (scopeMore gap key more k).Describes table assignments (more.map Assignment.name)
      (r.feed ((moreAssignments more ++ keyTail gap key).take k)).finish := by
  induction more generalizing r assignments k with
  | nil => exact describes_after before nonempty some_gap key k
  | cons a more ih =>
    cases k with
    | zero => exact ⟨[], List.nil_prefix, by simpa using nonempty, by rw [List.append_nil]; exact before.finish⟩
    | succ k =>
      have text : moreAssignments (a :: more) ++ keyTail gap key =
          44 :: (a.text ++ (moreAssignments more ++ keyTail gap key)) := by
        simp [moreAssignments]
      rw [text, List.take_succ_cons, before.feed (by decide), feed_comma]
      exact describes_from a (delimited_rest some_gap key more)
        (fun _ k _ ready => ih ready (by simp) k) k

/-- The scope of an UPDATE of which `k` bytes are kept behind SET. -/
theorem describes_update (table : Bytes) {gap : Nat} (some_gap : 0 < gap) (key : Int) (first : Assignment)
    (more : List Assignment) (k : Nat) :
    (scopeFrom first (scopeMore gap key more) k).Describes table [] (first.name :: more.map Assignment.name)
      (Reader.feed ⟨.start, .set table []⟩
        ((first.text ++ (moreAssignments more ++ keyTail gap key)).take k)).finish :=
  describes_from first (delimited_rest some_gap key more)
    (fun _ k _ ready => describes_more ready (by simp) some_gap key more k) k

/-! ## INSERT -/

/-- A value of a list of values, behind some spaces. -/
structure ListedValue where
  gap : Nat
  written : Written

def ListedValue.text (v : ListedValue) : Bytes := spaces v.gap ++ v.written.text

/-- The values after the first. -/
def moreValues (more : List ListedValue) : Bytes := more.flatMap fun v => 44 :: v.text

theorem ListedValue.ready (v : ListedValue) {value : Value} (read : v.written.value? = some value)
    (table : Bytes) (columns : List Bytes) (values : List Value) :
    Ready (Reader.feed ⟨.start, .value table columns values⟩ v.text)
      (.valueEnd table columns (values ++ [value])) := by
  rw [text, Reader.feed_append, feed_start_spaces]
  exact ready_text _ ((valuePlace table columns values).settle_text read)

theorem ListedValue.ready_fail (v : ListedValue) (unread : v.written.value? = none)
    (table : Bytes) (columns : List Bytes) (values : List Value) :
    Ready (Reader.feed ⟨.start, .value table columns values⟩ v.text) .fail := by
  rw [text, Reader.feed_append, feed_start_spaces]
  exact ready_text _ ((valuePlace table columns values).settle_word unread)

/-- Nothing can end within a list of values. -/
theorem ListedValue.finish_take (v : ListedValue) (table : Bytes) (columns : List Bytes) (values : List Value)
    (k : Nat) :
    (Reader.feed ⟨.start, .value table columns values⟩ (v.text.take k)).finish = none := by
  have place := valuePlace table columns values
  by_cases in_gap : k ≤ v.gap
  · rw [text, List.take_append_of_le_length (by simpa [spaces] using in_gap), spaces_take, feed_start_spaces]
    rfl
  · have kept : v.text.take k = spaces v.gap ++ v.written.text.take (k - v.gap) := by
      rw [text, List.take_append, spaces_take, Nat.min_eq_right (by omega)]
      simp [spaces]
    rw [kept, Reader.feed_append, feed_start_spaces]
    by_cases closed : v.written.closedAt (k - v.gap) = true
    · obtain ⟨value, settled⟩ := place.settle_take_closed closed
      rw [Reader.finish_eq, settled]
      rfl
    · exact place.finish_take_open (by simpa using closed)

def readValues (values : List ListedValue) : Option (List Value) := values.mapM fun v => v.written.value?

theorem readValues_cons {v : ListedValue} {more : List ListedValue} {read : List Value}
    (all : readValues (v :: more) = some read) :
    ∃ value rest, v.written.value? = some value ∧ readValues more = some rest ∧ read = value :: rest := by
  rw [readValues, List.mapM_cons] at all
  obtain ⟨value, first, others⟩ := Option.bind_eq_some_iff.mp all
  obtain ⟨rest, later, same⟩ := Option.bind_eq_some_iff.mp others
  exact ⟨value, rest, first, later, (Option.some.inj same).symm⟩

theorem feed_value_comma (table : Bytes) (columns : List Bytes) (values : List Value) (rest : Bytes) :
    Reader.feed ⟨.start, .valueEnd table columns values⟩ (44 :: rest) =
      Reader.feed ⟨.start, .value table columns values⟩ rest := rfl

/-- The end of the statement. -/
def insertTail : Bytes := [41, 59]

theorem delimited_values (more : List ListedValue) :
    ∃ b later, moreValues more ++ insertTail = b :: later ∧ b ∈ delimiters := by
  cases more with
  | nil => exact ⟨41, _, rfl, by decide⟩
  | cons v more => exact ⟨44, _, rfl, by decide⟩

/-- The whole list of values is read. -/
theorem ready_moreValues {table : Bytes} {columns : List Bytes} {more : List ListedValue} {read : List Value}
    (all : readValues more = some read) {r : Reader} {values : List Value}
    (before : Ready r (.valueEnd table columns values)) :
    Ready (r.feed (moreValues more)) (.valueEnd table columns (values ++ read)) := by
  induction more generalizing r values read with
  | nil =>
    obtain rfl : [] = read := Option.some.inj all
    rw [List.append_nil]
    exact before
  | cons v more ih =>
    simp only [readValues, List.mapM_cons] at all
    cases value : v.written.value? with
    | none => simp [value] at all
    | some first =>
      cases later : readValues more with
      | none =>
        simp only [readValues] at later
        simp [value, later] at all
      | some vs =>
        have same : read = first :: vs := by
          simp only [readValues] at later
          simpa [value, later, eq_comm] using all
        have text : moreValues (v :: more) = (44 :: v.text) ++ moreValues more := rfl
        rw [text, Reader.feed_append, before.feed (by decide), feed_value_comma, same]
        simpa using ih later (v.ready value table columns values)

/-- A whole INSERT is read with all its values. -/
theorem finish_insert {table : Bytes} {columns : List Bytes} {first : ListedValue} {more : List ListedValue}
    {read : List Value} (all : readValues (first :: more) = some read) :
    (Reader.feed ⟨.start, .value table columns []⟩ (first.text ++ (moreValues more ++ insertTail))).finish =
      some (.insertOrIgnore table columns read) := by
  have ready : Ready (Reader.feed ⟨.start, .valueEnd table columns []⟩ (moreValues (first :: more)))
      (.valueEnd table columns ([] ++ read)) := ready_moreValues all (ready_start _)
  have text : moreValues (first :: more) = 44 :: (first.text ++ moreValues more) := rfl
  rw [text, feed_value_comma] at ready
  rw [← List.append_assoc, Reader.feed_append, insertTail, ready.feed (by decide)]
  rfl

private theorem insert_from {table : Bytes} {columns : List Bytes} {values : List Value} (v : ListedValue)
    {rest : Bytes} (delimited : ∃ b later, rest = b :: later ∧ b ∈ delimiters) {more : List ListedValue}
    (later : ∀ {value}, v.written.value? = some value → ∀ k {r : Reader},
      Ready r (.valueEnd table columns (values ++ [value])) →
      (r.feed (rest.take k)).finish = none ∨ ∃ read, readValues more = some read ∧
        (r.feed (rest.take k)).finish = some (.insertOrIgnore table columns (values ++ [value] ++ read)))
    (k : Nat) :
    let kept := Reader.feed ⟨.start, .value table columns values⟩ ((v.text ++ rest).take k)
    kept.finish = none ∨ ∃ read, readValues (v :: more) = some read ∧
      kept.finish = some (.insertOrIgnore table columns (values ++ read)) := by
  by_cases part : k ≤ v.text.length
  · rw [List.take_append_of_le_length part]
    exact Or.inl (v.finish_take table columns values k)
  · have kept : (v.text ++ rest).take k = v.text ++ rest.take (k - v.text.length) := by
      rw [List.take_append, List.take_of_length_le (by omega)]
    rw [kept, Reader.feed_append]
    cases value : v.written.value? with
    | none =>
      have failed := v.ready_fail value table columns values
      obtain ⟨b, after, rfl, delimiter⟩ := delimited
      cases k - v.text.length with
      | zero => exact Or.inl failed.finish
      | succ j =>
        rw [List.take_succ_cons, failed.feed delimiter]
        exact Or.inl (finish_fail _)
    | some read =>
      rcases later value (k - v.text.length) (v.ready value table columns values) with none_read | ⟨vs, all, same⟩
      · exact Or.inl none_read
      · refine Or.inr ⟨read :: vs, ?_, by simpa using same⟩
        simp only [readValues] at all
        simp [readValues, List.mapM_cons, value, all]

private theorem insert_more {table : Bytes} {columns : List Bytes} {values : List Value} {r : Reader}
    (before : Ready r (.valueEnd table columns values)) (more : List ListedValue) (k : Nat) :
    let kept := r.feed ((moreValues more ++ insertTail).take k)
    kept.finish = none ∨ ∃ read, readValues more = some read ∧
      kept.finish = some (.insertOrIgnore table columns (values ++ read)) := by
  induction more generalizing r values k with
  | nil =>
    cases k with
    | zero => exact Or.inl before.finish
    | succ k =>
      refine Or.inr ⟨[], rfl, ?_⟩
      rw [show moreValues [] ++ insertTail = 41 :: [59] from rfl, List.take_succ_cons, before.feed (by decide),
        List.append_nil]
      cases k with
      | zero => rfl
      | succ k => rw [List.take_of_length_le (by simp)]; rfl
  | cons v more ih =>
    cases k with
    | zero => exact Or.inl before.finish
    | succ k =>
      have text : moreValues (v :: more) ++ insertTail = 44 :: (v.text ++ (moreValues more ++ insertTail)) := by
        simp [moreValues]
      rw [text, List.take_succ_cons, before.feed (by decide), feed_value_comma]
      exact insert_from v (delimited_values more) (fun _ k _ ready => ih ready k) k

/-- What is kept of an INSERT is rejected, or it is the whole. -/
theorem insert_cut (table : Bytes) (columns : List Bytes) (first : ListedValue) (more : List ListedValue)
    (k : Nat) :
    let kept := Reader.feed ⟨.start, .value table columns []⟩
      ((first.text ++ (moreValues more ++ insertTail)).take k)
    kept.finish = none ∨ ∃ read, readValues (first :: more) = some read ∧
      kept.finish = some (.insertOrIgnore table columns read) :=
  insert_from first (delimited_values more) (fun _ k _ ready => insert_more ready more k) k

end WorkerInformer.Sql
