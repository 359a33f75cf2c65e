import WorkerInformer.Printf
import WorkerInformer.SqlParser

/-! How SQL reads the values a format writes, whole or cut off. A value stands
where the grammar wants a literal; after it comes a delimiter, and until then
the tokenizer keeps the literal pending. Nothing in this file is about one
program. -/
namespace WorkerInformer.Printf
open Bytes SqlLexer Sql

namespace Written

def isNegative : Written → Bool
  | quoted _ => false
  | numeral negative _ => negative
  | word negative _ _ => negative

/-- The token the written value ends with. -/
def token : Written → Token
  | quoted text => .string text
  | numeral _ n =>
    match n.fraction with
    | none => .integer n.digits
    | some part => .real (n.digits ++ 46 :: part)
  | word _ text _ => .word (lower text)

/-- The value SQL reads, if what is written is a literal. -/
def value? (w : Written) : Option Value := literal? w.isNegative w.token

/-- Where the tokenizer stands after the written value. -/
def state : Written → State
  | quoted text => .closed 39 text
  | numeral _ n =>
    match n.fraction with
    | none => .integer n.digits
    | some part => .real (n.digits ++ 46 :: part)
  | word _ text _ => .word text

def isWord : Written → Bool
  | word _ _ _ => true
  | quoted _ | numeral _ _ => false

/-- The first `k` bytes of the written value are a literal already: a closed
string, where the first quote of a doubled one closes it, or a number with at
least one digit. -/
def closedAt (w : Written) (k : Nat) : Bool :=
  match w with
  | quoted _ => 0 < k && (w.text.take k).count 39 % 2 = 0
  | numeral negative _ => (sign negative).length < k
  | word _ _ _ => false

theorem pending_state (w : Written) : pending w.state = [w.token] := by
  cases w with
  | quoted text => rfl
  | numeral negative n => cases part : n.fraction <;> simp [state, token, part, pending]
  | word negative text letters => rfl

/-- Only what is no literal has no value. -/
theorem value?_isSome (w : Written) : w.value?.isSome = !w.isWord := by
  cases w with
  | quoted text => rfl
  | numeral negative n => cases part : n.fraction <;> simp [value?, token, isWord, part, literal?]
  | word negative text letters => rfl

theorem ofInt_value (i : Int) : (ofInt i).value? = some (.integer i) := by
  by_cases negative : i < 0
  · have abs : -(i.natAbs : Int) = i := by omega
    simp only [ofInt, value?, token, Numeral.ofNat, isNegative, literal?, negative, decide_true, ↓reduceIte,
      value_decimal, abs]
  · have abs : (i.natAbs : Int) = i := by omega
    simp only [ofInt, value?, token, Numeral.ofNat, isNegative, literal?, negative, decide_false,
      Bool.false_eq_true, ↓reduceIte, value_decimal, abs]

end Written

/-- A byte that does not belong to the pending token starts a new one. -/
theorem feed_flush {s : State} {b : UInt8} (flushes : step s b = flush s b) (rest : Bytes) :
    feed s (b :: rest) = (pending s ++ (feed .start (b :: rest)).1, (feed .start (b :: rest)).2) := by
  have start : SqlLexer.step .start b = begin b := rfl
  simp only [feed, flushes, start, flush, List.append_assoc]

/-- The digits of a numeral that are kept when it is cut. -/
theorem feed_digits {digits : Bytes} (nonempty : digits ≠ []) (all : ∀ b ∈ digits, isDigit b = true) :
    feed .start digits = ([], .integer digits) := by
  cases digits with
  | nil => exact absurd rfl nonempty
  | cons d rest =>
    have rest_digits := feed_integer (fun b member => all b (List.mem_cons_of_mem d member)) [d]
    simp [feed, SqlLexer.step, begin_digit (all d (by simp)), rest_digits]

theorem feed_fraction {digits part : Bytes} (nonempty : digits ≠ [])
    (all : ∀ b ∈ digits, isDigit b = true) (digits_part : ∀ b ∈ part, isDigit b = true) :
    feed .start (digits ++ 46 :: part) = ([], .real (digits ++ 46 :: part)) := by
  have point : SqlLexer.step (.integer digits) 46 = ([], .real (digits ++ [46])) := rfl
  rw [feed_append, feed_digits nonempty all]
  simp [feed, point, feed_real digits_part]

theorem feed_letters {text : Bytes} (letters : text ≠ [] ∧ ∀ b ∈ text, isLetter b = true) :
    feed .start text = ([], .word text) := by
  obtain ⟨nonempty, all⟩ := letters
  cases text with
  | nil => exact absurd rfl nonempty
  | cons b rest =>
    have word_rest : ∀ c ∈ rest, isWordByte c = true := by
      intro c member
      simp [isWordByte, all c (List.mem_cons_of_mem b member)]
    simp [feed, SqlLexer.step, begin_letter (all b (by simp)), feed_word word_rest]

/-- A minus in front of anything but another minus is a token of its own. -/
theorem feed_minus {text : Bytes} (nonempty : text ≠ []) (other : text.head? ≠ some 45) :
    feed .start (45 :: text) = (.punct 45 :: (feed .start text).1, (feed .start text).2) := by
  cases text with
  | nil => exact absurd rfl nonempty
  | cons b rest =>
    have different : b ≠ 45 := fun same => other (by rw [same]; rfl)
    have flushes : SqlLexer.step .dash b = flush .dash b := by simp [SqlLexer.step, different]
    have minus : SqlLexer.step .start 45 = ([], .dash) := by decide
    have after := feed_flush flushes rest
    rw [show feed .start (45 :: b :: rest) =
      ((SqlLexer.step .start 45).1 ++ (feed (SqlLexer.step .start 45).2 (b :: rest)).1,
        (feed (SqlLexer.step .start 45).2 (b :: rest)).2) from rfl, minus]
    simp [after, pending]

theorem digit_ne_minus : ∀ b, isDigit b = true → b ≠ 45 := forall_byte (by decide +kernel)

theorem letter_ne_minus : ∀ b, isLetter b = true → b ≠ 45 := forall_byte (by decide +kernel)

theorem head_ne_minus {text : Bytes} {kind : UInt8 → Bool} (ne_minus : ∀ b, kind b = true → b ≠ 45)
    (all : ∀ b ∈ text, kind b = true) (rest : Bytes) (nonempty : text ≠ []) :
    (text ++ rest).head? ≠ some 45 := by
  cases text with
  | nil => exact absurd rfl nonempty
  | cons b text => simpa using ne_minus b (all b (by simp))

/-- The tokenizer over a number with its sign. -/
theorem feed_signed {text : Bytes} {s : State} (negative : Bool) (nonempty : text ≠ [])
    (other : text.head? ≠ some 45) (unsigned : feed .start text = ([], s)) :
    feed .start (sign negative ++ text) = (if negative then [.punct 45] else [], s) := by
  cases negative with
  | false => exact unsigned
  | true =>
    rw [show sign true ++ text = 45 :: text from rfl, feed_minus nonempty other, unsigned]
    rfl

theorem Numeral.feed_text (n : Numeral) (negative : Bool) :
    feed .start n.text = ([], (Written.numeral negative n).state) := by
  obtain ⟨digits, fraction, nonempty, all, parts⟩ := n
  cases fraction with
  | none => exact feed_digits nonempty all
  | some part => exact feed_fraction nonempty all (parts part rfl)

theorem Numeral.text_ne_nil (n : Numeral) : n.text ≠ [] := by
  unfold Numeral.text
  cases n.fraction <;> simp [n.digits_ne_nil]

theorem Numeral.text_head (n : Numeral) : n.text.head? ≠ some 45 := by
  unfold Numeral.text
  cases n.fraction with
  | none => simpa using head_ne_minus digit_ne_minus n.digits_isDigit [] n.digits_ne_nil
  | some part => exact head_ne_minus digit_ne_minus n.digits_isDigit (46 :: part) n.digits_ne_nil

/-- The tokenizer over a written value: at most a minus is completed. -/
theorem Written.feed_text (w : Written) :
    feed .start w.text = (if w.isNegative then [.punct 45] else [], w.state) := by
  cases w with
  | quoted text => exact feed_literal text
  | numeral negative n => exact feed_signed negative n.text_ne_nil n.text_head (n.feed_text negative)
  | word negative text letters =>
    refine feed_signed negative letters.1 ?_ (feed_letters letters)
    simpa using head_ne_minus letter_ne_minus letters.2 [] letters.1

/-! ## Cut off values -/

/-- A cut literal is closed when the quotes after the first are odd in number. -/
theorem feed_take_literal (text read : Bytes) (k : Nat) :
    ∃ value, feed (.quoted 39 read) ((doubleQuotes text ++ [39]).take k) =
      ([], if ((doubleQuotes text ++ [39]).take k).count 39 % 2 = 1 then .closed 39 value
        else .quoted 39 value) := by
  induction text generalizing read k with
  | nil =>
    cases k with
    | zero => exact ⟨read, rfl⟩
    | succ k => exact ⟨read, by simp [feed, SqlLexer.step]⟩
  | cons b rest ih =>
    cases k with
    | zero => exact ⟨read, rfl⟩
    | succ k =>
      rw [doubleQuotes_cons]
      by_cases quote : b = 39
      · subst quote
        cases k with
        | zero => exact ⟨read, by simp [feed, SqlLexer.step]⟩
        | succ k =>
          obtain ⟨value, later⟩ := ih (read ++ [39]) k
          refine ⟨value, ?_⟩
          have parity : ∀ n, (n + 1 + 1) % 2 = 1 ↔ n % 2 = 1 := by omega
          simp [feed, SqlLexer.step, later, parity]
      · obtain ⟨value, later⟩ := ih (read ++ [b]) k
        exact ⟨value, by simp [feed, SqlLexer.step, quote, later]⟩

/-- A cut numeral that keeps a digit is a numeral. -/
theorem feed_take_numeral (n : Numeral) {k : Nat} (some_kept : 0 < k) (negative : Bool) :
    ∃ cut : Numeral, cut.text = n.text.take k ∧
      feed .start (n.text.take k) = ([], (Written.numeral negative cut).state) ∧
      (n.fraction = none → cut.fraction = none) := by
  have digits : n.digits.take k ≠ [] := by simp [n.digits_ne_nil, Nat.pos_iff_ne_zero.mp some_kept]
  have cut : ∃ cut : Numeral, cut.text = n.text.take k ∧ (n.fraction = none → cut.fraction = none) := by
    have kept : ∀ b ∈ n.digits.take k, isDigit b = true :=
      fun b member => n.digits_isDigit b (List.mem_of_mem_take member)
    cases part : n.fraction with
    | none => exact ⟨⟨n.digits.take k, none, digits, kept, fun _ absurd => by cases absurd⟩,
        by simp [Numeral.text, part], fun _ => rfl⟩
    | some fraction =>
      by_cases long : n.digits.length < k
      · obtain ⟨more, rfl⟩ := Nat.exists_eq_add_of_lt long
        refine ⟨⟨n.digits, some (fraction.take more), n.digits_ne_nil, n.digits_isDigit, ?_⟩, ?_,
          fun none_is_some => by cases none_is_some⟩
        · rintro part' ⟨⟩ b member
          exact n.fraction_isDigit fraction part b (List.mem_of_mem_take member)
        · have whole : n.digits.take (n.digits.length + (more + 1)) = n.digits :=
            List.take_of_length_le (by omega)
          simp [Numeral.text, part, List.take_append, Nat.add_assoc, whole]
      · refine ⟨⟨n.digits.take k, none, digits, kept, fun _ absurd => by cases absurd⟩, ?_, fun _ => rfl⟩
        rw [Numeral.text, Numeral.text, part]
        exact (List.take_append_of_le_length (by omega)).symm
  obtain ⟨cut, text, fraction⟩ := cut
  exact ⟨cut, text, by rw [← text]; exact cut.feed_text negative, fraction⟩

end WorkerInformer.Printf

namespace WorkerInformer.Sql
open Bytes SqlLexer Printf

/-- The position of a reader after the token it has pending. -/
def Reader.settle (r : Reader) : Parser := r.parser.steps (pending r.lexer)

theorem Reader.finish_eq (r : Reader) : r.finish = r.settle.finish := rfl

/-- A byte that does not belong to the pending token is read after it. -/
theorem Reader.feed_settled {r : Reader} {b : UInt8} (flushes : SqlLexer.step r.lexer b = flush r.lexer b)
    (rest : Bytes) : r.feed (b :: rest) = Reader.feed ⟨.start, r.settle⟩ (b :: rest) := by
  simp only [Reader.feed, feed_flush flushes, Parser.steps_append, Reader.settle]

/-- A place where the grammar wants a literal. -/
structure LiteralPlace (before minus : Parser) (after : Value → Parser) : Prop where
  minus_step : before.step (.punct 45) = minus
  literal : ∀ token value, literal? false token = some value → before.step token = after value
  negative : ∀ token value, literal? true token = some value → minus.step token = after value
  illegal : before.step .illegal = .fail
  before_open : before.finish = none
  minus_open : minus.finish = none

/-- A place where it wants nothing else. -/
structure ValuePlace (before minus : Parser) (after : Value → Parser) : Prop
    extends LiteralPlace before minus after where
  word : ∀ text, before.step (.word text) = .fail
  minus_word : ∀ text, minus.step (.word text) = .fail

theorem literal?_cases {negative : Bool} {token : Token} {value : Value}
    (read : literal? negative token = some value) :
    (∃ text, token = .string text) ∨ (∃ digits, token = .integer digits) ∨ ∃ digits, token = .real digits := by
  cases token <;> simp_all [literal?]

/-- The parser's places for values step by `literal?` alone. -/
theorem ValuePlace.of_step {before minus : Parser} {after : Value → Parser}
    (before_step : ∀ token, before.step token = if token = .punct 45 then minus
      else match literal? false token with
        | some value => after value
        | none => .fail)
    (minus_step : ∀ token, minus.step token = match literal? true token with
      | some value => after value
      | none => .fail)
    (before_open : before.finish = none) (minus_open : minus.finish = none) : ValuePlace before minus after where
  minus_step := by rw [before_step, if_pos rfl]
  literal := by
    intro token value read
    have no_minus : token ≠ .punct 45 := by
      rintro rfl
      cases read
    rw [before_step, if_neg no_minus, read]
  negative := by
    intro token value read
    rw [minus_step, read]
  illegal := by
    rw [before_step]
    rfl
  before_open := before_open
  minus_open := minus_open
  word text := by
    rw [before_step]
    rfl
  minus_word text := by
    rw [minus_step]
    rfl

theorem setPlace (table : Bytes) (assignments : List (Bytes × Value)) (name : Bytes) :
    ValuePlace (.setValue table assignments name) (.setMinus table assignments name)
      (fun value => .clause (.update table (assignments ++ [(name, value)]))) :=
  .of_step (fun _ => rfl) (fun _ => rfl) rfl rfl

theorem valuePlace (table : Bytes) (columns : List Bytes) (values : List Value) :
    ValuePlace (.value table columns values) (.valueMinus table columns values)
      (fun value => .valueEnd table columns (values ++ [value])) :=
  .of_step (fun _ => rfl) (fun _ => rfl) rfl rfl

theorem operandPlace (ctx : Context) :
    LiteralPlace (.operand ctx) (.operandMinus ctx) (fun value => .compared ctx (.literal value)) where
  minus_step := rfl
  literal := by
    intro token value read
    rcases literal?_cases read with ⟨text, rfl⟩ | ⟨digits, rfl⟩ | ⟨digits, rfl⟩ <;> cases read <;> rfl
  negative := by
    intro token value read
    simp [Parser.step, read]
  illegal := rfl
  before_open := rfl
  minus_open := rfl

section Values
variable {before minus : Parser} {after : Value → Parser}

theorem LiteralPlace.steps_signed (place : LiteralPlace before minus after) (negative : Bool) :
    before.steps (if negative then [.punct 45] else []) = if negative then minus else before := by
  cases negative with
  | false => rfl
  | true => exact place.minus_step

theorem LiteralPlace.reads (place : LiteralPlace before minus after) {negative : Bool} {token : Token}
    {value : Value} (read : literal? negative token = some value) :
    (if negative then minus else before).step token = after value := by
  cases negative with
  | false => exact place.literal token value read
  | true => exact place.negative token value read

/-- A written literal is read as its value. -/
theorem LiteralPlace.settle_text (place : LiteralPlace before minus after) {w : Written} {value : Value}
    (read : w.value? = some value) : (Reader.feed ⟨.start, before⟩ w.text).settle = after value := by
  simp only [Reader.feed, w.feed_text, Reader.settle, w.pending_state, place.steps_signed]
  exact place.reads read

/-- What is no literal is rejected. -/
theorem ValuePlace.settle_word (place : ValuePlace before minus after) {w : Written}
    (unread : w.value? = none) : (Reader.feed ⟨.start, before⟩ w.text).settle = .fail := by
  simp only [Reader.feed, w.feed_text, Reader.settle, w.pending_state, place.steps_signed]
  cases w with
  | word negative text letters =>
    cases negative with
    | false => exact place.word _
    | true => exact place.minus_word _
  | quoted text => cases unread
  | numeral negative n =>
    have := Written.value?_isSome (.numeral negative n)
    simp [unread, Written.isWord] at this

theorem feed_lexer (w : Written) (p : Parser) : (Reader.feed ⟨.start, p⟩ w.text).lexer = w.state := by
  simp only [Reader.feed, w.feed_text]

theorem delimiter_kinds : ∀ b, b ∈ [44, 32, 59, 41, 10] →
    isDigit b = false ∧ isWordByte b = false ∧ b ≠ 39 ∧ b ≠ 46 :=
  forall_byte (by decide +kernel)

/-- A delimiter ends a written value. -/
theorem state_flushes (w : Written) {b : UInt8} (delimiter : b ∈ [44, 32, 59, 41, 10]) :
    SqlLexer.step w.state b = flush w.state b := by
  obtain ⟨digit, wordByte, quote, point⟩ := delimiter_kinds b delimiter
  cases w with
  | quoted text => simp [Written.state, SqlLexer.step, quote]
  | numeral negative n =>
    cases part : n.fraction <;> simp [Written.state, SqlLexer.step, part, digit, wordByte, point]
  | word negative text letters => simp [Written.state, SqlLexer.step, wordByte, quote]

private theorem take_sign (negative : Bool) (text : Bytes) {k : Nat} (kept : (sign negative).length < k) :
    (sign negative ++ text).take k = sign negative ++ text.take (k - (sign negative).length) := by
  rw [List.take_append, List.take_of_length_le (by omega)]

/-- A number that keeps a digit is read as a number. -/
theorem LiteralPlace.settle_take_numeral (place : LiteralPlace before minus after) (negative : Bool)
    (n : Numeral) {k : Nat} (kept : (sign negative).length < k) :
    ∃ cut : Numeral, cut.text = n.text.take (k - (sign negative).length) ∧
      (n.fraction = none → cut.fraction = none) ∧
      ∀ value, (Written.numeral negative cut).value? = some value →
        (Reader.feed ⟨.start, before⟩ ((Written.numeral negative n).text.take k)).settle = after value := by
  obtain ⟨cut, text, -, fraction⟩ := feed_take_numeral n (k := k - (sign negative).length) (by omega) negative
  refine ⟨cut, text, fraction, fun value read => ?_⟩
  have whole : (Written.numeral negative n).text.take k = (Written.numeral negative cut).text := by
    rw [Written.text, Written.text, take_sign negative n.text kept, text]
  rw [whole]
  exact place.settle_text read

/-- A closed value is read as some value. -/
theorem LiteralPlace.settle_take_closed (place : LiteralPlace before minus after) {w : Written} {k : Nat}
    (closed : w.closedAt k = true) :
    ∃ value, (Reader.feed ⟨.start, before⟩ (w.text.take k)).settle = after value := by
  cases w with
  | quoted text =>
    simp only [Written.closedAt, Bool.and_eq_true, decide_eq_true_eq] at closed
    obtain ⟨k, rfl⟩ := Nat.exists_eq_succ_of_ne_zero (Nat.pos_iff_ne_zero.mp closed.1)
    obtain ⟨value, read⟩ := feed_take_literal text [] k
    have odd : ((doubleQuotes text ++ [39]).take k).count 39 % 2 = 1 := by
      have even := closed.2
      simp only [Written.text, List.cons_append, Nat.succ_eq_add_one, List.take_succ_cons,
        List.count_cons_self] at even
      omega
    rw [if_pos odd] at read
    have opened : feed .start (39 :: (doubleQuotes text ++ [39]).take k) = ([], .closed 39 value) := by
      simp [feed, SqlLexer.step, show begin 39 = ([], .quoted 39 []) by decide, read]
    refine ⟨.text value, ?_⟩
    simp only [Written.text, List.cons_append, Nat.succ_eq_add_one, List.take_succ_cons, Reader.feed, opened,
      Reader.settle]
    exact place.literal _ _ rfl
  | numeral negative n =>
    obtain ⟨cut, -, -, read⟩ := place.settle_take_numeral negative n (of_decide_eq_true closed)
    obtain ⟨value, is_value⟩ := Option.isSome_iff_exists.mp (Written.value?_isSome (.numeral negative cut))
    exact ⟨value, read value is_value⟩
  | word negative text letters => cases closed

/-- Nothing can end in an open value. -/
theorem LiteralPlace.finish_take_open (place : LiteralPlace before minus after) {w : Written} {k : Nat}
    (literal : w.isWord = false) (notClosed : w.closedAt k = false) :
    (Reader.feed ⟨.start, before⟩ (w.text.take k)).finish = none := by
  cases w with
  | quoted text =>
    cases k with
    | zero => exact place.before_open
    | succ k =>
      obtain ⟨value, read⟩ := feed_take_literal text [] k
      have even : ¬ ((doubleQuotes text ++ [39]).take k).count 39 % 2 = 1 := by
        simp only [Written.closedAt, Written.text, List.cons_append, List.take_succ_cons,
          List.count_cons_self, Bool.and_eq_false_iff, decide_eq_false_iff_not] at notClosed
        omega
      rw [if_neg even] at read
      have opened : feed .start (39 :: (doubleQuotes text ++ [39]).take k) = ([], .quoted 39 value) := by
        simp [feed, SqlLexer.step, show begin 39 = ([], .quoted 39 []) by decide, read]
      simp only [Written.text, List.cons_append, List.take_succ_cons, Reader.feed, opened, Reader.finish,
        pending, Parser.steps_nil, Parser.steps_cons, place.illegal]
      rfl
  | numeral negative n =>
    have short : k ≤ (sign negative).length := by simpa [Written.closedAt] using notClosed
    cases negative with
    | false =>
      obtain rfl : k = 0 := by simpa [sign] using short
      exact place.before_open
    | true =>
      have one : k ≤ 1 := by simpa [sign] using short
      rcases Nat.le_one_iff_eq_zero_or_eq_one.mp one with rfl | rfl
      · exact place.before_open
      · have minus_only : (Written.numeral true n).text.take 1 = [45] := by simp [Written.text, sign]
        have read : feed .start [45] = ([], .dash) := by decide
        rw [minus_only]
        simp only [Reader.feed, read, Reader.finish, pending, Parser.steps_nil, Parser.steps_cons,
          place.minus_step]
        exact place.minus_open
  | word negative text letters => cases literal

/-- Nothing can end in a value that is not closed, where only literals stand. -/
theorem ValuePlace.finish_take_open (place : ValuePlace before minus after) {w : Written} {k : Nat}
    (notClosed : w.closedAt k = false) :
    (Reader.feed ⟨.start, before⟩ (w.text.take k)).finish = none := by
  cases w with
  | quoted text => exact place.toLiteralPlace.finish_take_open rfl notClosed
  | numeral negative n => exact place.toLiteralPlace.finish_take_open rfl notClosed
  | word negative text letters =>
    by_cases kept : (sign negative).length < k
    · have cut_letters : text.take (k - (sign negative).length) ≠ [] ∧
          ∀ b ∈ text.take (k - (sign negative).length), isLetter b = true := by
        refine ⟨?_, fun b member => letters.2 b (List.mem_of_mem_take member)⟩
        simp only [ne_eq, List.take_eq_nil_iff, letters.1, or_false]
        omega
      have whole : (Written.word negative text letters).text.take k =
          (Written.word negative _ cut_letters).text := take_sign negative text kept
      rw [whole, Reader.finish_eq, place.settle_word rfl]
      rfl
    · have same : (Written.word negative text letters).text.take k =
          (Written.numeral negative (Numeral.ofNat 0)).text.take k := by
        rw [Written.text, Written.text, List.take_append_of_le_length (by omega),
          List.take_append_of_le_length (by omega)]
      rw [same]
      exact place.toLiteralPlace.finish_take_open rfl (by simpa [Written.closedAt] using kept)

end Values

end WorkerInformer.Sql
