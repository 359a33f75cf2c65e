import Mathlib.Tactic.Linarith
import WorkerInformer.Bytes

/-! SQLite's tokenizer as a state machine over bytes, so that a text that is cut
off can be followed to its last byte. Words are folded to lower case, `''` in a
string literal is a quote, and a literal that is never closed is an illegal
token. Exponents and hexadecimal integers count as illegal: `%d`, `%u`, `%lld`
and `%f` do not write them. Nothing in this file is about one program. -/
namespace WorkerInformer.SqlLexer
open Bytes

inductive Token
  | word (text : Bytes)
  | quotedWord (text : Bytes)
  | string (value : Bytes)
  | blob (digits : Bytes)
  | integer (digits : Bytes)
  | real (digits : Bytes)
  | punct (byte : UInt8)
  | illegal
  deriving DecidableEq

/-- Where the tokenizer stands within a token, with what it has read of it. -/
inductive State
  | start
  | word (text : Bytes)
  | integer (digits : Bytes)
  | real (digits : Bytes)
  | badNumber
  | quoted (close : UInt8) (value : Bytes)
  | closed (close : UInt8) (value : Bytes)
  | bracket (text : Bytes)
  | blob (digits : Bytes)
  | dash
  | lineComment
  | slash
  | blockComment
  | blockStar
  deriving DecidableEq

def isSpace (b : UInt8) : Bool := b = 32 || b = 9 || b = 10 || b = 12 || b = 13

/-- A byte a word can begin with. -/
def isLetter (b : UInt8) : Bool := (65 ≤ b && b ≤ 90) || (97 ≤ b && b ≤ 122) || b = 95 || 128 ≤ b

/-- A byte a word can go on with. -/
def isWordByte (b : UInt8) : Bool := isLetter b || isDigit b || b = 36

/-- The token the text would have if it ended here. -/
def pending : State → List Token
  | .start | .lineComment | .blockComment | .blockStar => []
  | .word text => [.word (lower text)]
  | .integer digits => [.integer digits]
  | .real digits => [.real digits]
  | .badNumber | .quoted _ _ | .bracket _ | .blob _ => [.illegal]
  | .closed close value => if close = 39 then [.string value] else [.quotedWord value]
  | .dash => [.punct 45]
  | .slash => [.punct 47]

/-- The first byte of a token. -/
def begin (b : UInt8) : List Token × State :=
  if isSpace b then ([], .start)
  else if isLetter b then ([], .word [b])
  else if isDigit b then ([], .integer [b])
  else if b = 39 || b = 34 || b = 96 then ([], .quoted b [])
  else if b = 91 then ([], .bracket [])
  else if b = 45 then ([], .dash)
  else if b = 47 then ([], .slash)
  else ([.punct b], .start)

/-- The byte does not belong to the token read so far. -/
def flush (s : State) (b : UInt8) : List Token × State := (pending s ++ (begin b).1, (begin b).2)

/-- The tokens one more byte completes, and where the tokenizer stands then. -/
def step (s : State) (b : UInt8) : List Token × State :=
  match s with
  | .start => begin b
  | .word text =>
    if isWordByte b then ([], .word (text ++ [b]))
    else if b = 39 ∧ lower text = [120] then ([], .blob [])
    else flush s b
  | .integer digits =>
    if isDigit b then ([], .integer (digits ++ [b]))
    else if b = 46 then ([], .real (digits ++ [b]))
    else if isWordByte b then ([], .badNumber)
    else flush s b
  | .real digits =>
    if isDigit b then ([], .real (digits ++ [b]))
    else if isWordByte b then ([], .badNumber)
    else flush s b
  | .badNumber => if isWordByte b then ([], .badNumber) else flush s b
  | .quoted close value => if b = close then ([], .closed close value) else ([], .quoted close (value ++ [b]))
  | .closed close value => if b = close then ([], .quoted close (value ++ [b])) else flush s b
  | .bracket text => if b = 93 then ([.quotedWord text], .start) else ([], .bracket (text ++ [b]))
  | .blob digits => if b = 39 then ([.blob digits], .start) else ([], .blob (digits ++ [b]))
  | .dash => if b = 45 then ([], .lineComment) else flush s b
  | .lineComment => if b = 10 then ([], .start) else ([], .lineComment)
  | .slash => if b = 42 then ([], .blockComment) else flush s b
  | .blockComment => if b = 42 then ([], .blockStar) else ([], .blockComment)
  | .blockStar =>
    if b = 47 then ([], .start) else if b = 42 then ([], .blockStar) else ([], .blockComment)

def feed : State → Bytes → List Token × State
  | s, [] => ([], s)
  | s, b :: rest => ((step s b).1 ++ (feed (step s b).2 rest).1, (feed (step s b).2 rest).2)

/-- The tokens of a text read from this state on. -/
def lexFrom (s : State) (text : Bytes) : List Token := (feed s text).1 ++ pending (feed s text).2

/-- The tokens of a text. -/
def lex (text : Bytes) : List Token := lexFrom .start text

theorem feed_append (s : State) (first second : Bytes) :
    feed s (first ++ second) =
      ((feed s first).1 ++ (feed (feed s first).2 second).1, (feed (feed s first).2 second).2) := by
  induction first generalizing s with
  | nil => rfl
  | cons b rest ih => simp only [List.cons_append, feed, ih, List.append_assoc]

theorem lexFrom_append (s : State) (first second : Bytes) :
    lexFrom s (first ++ second) = (feed s first).1 ++ lexFrom (feed s first).2 second := by
  simp only [lexFrom, feed_append, List.append_assoc]

/-! ## Runs of one kind of byte -/

/-- States that collect a text byte by byte collect it whole. -/
theorem feed_collecting {state : Bytes → State} {text : Bytes}
    (collects : ∀ b ∈ text, ∀ read, step (state read) b = ([], state (read ++ [b]))) (read : Bytes) :
    feed (state read) text = ([], state (read ++ text)) := by
  induction text generalizing read with
  | nil => simp [feed]
  | cons b rest ih =>
    rw [feed, collects b List.mem_cons_self, ih fun c member => collects c (List.mem_cons_of_mem _ member)]
    simp

theorem feed_word {text : Bytes} (wordBytes : ∀ b ∈ text, isWordByte b = true) (read : Bytes) :
    feed (.word read) text = ([], .word (read ++ text)) := by
  apply feed_collecting
  intro b member read
  simp only [step, wordBytes b member, ↓reduceIte]

theorem feed_integer {text : Bytes} (digits : ∀ b ∈ text, isDigit b = true) (read : Bytes) :
    feed (.integer read) text = ([], .integer (read ++ text)) := by
  apply feed_collecting
  intro b member read
  simp only [step, digits b member, ↓reduceIte]

theorem feed_real {text : Bytes} (digits : ∀ b ∈ text, isDigit b = true) (read : Bytes) :
    feed (.real read) text = ([], .real (read ++ text)) := by
  apply feed_collecting
  intro b member read
  simp only [step, digits b member, ↓reduceIte]

theorem feed_spaces {text : Bytes} (spaces : ∀ b ∈ text, isSpace b = true) :
    feed .start text = ([], .start) := by
  induction text with
  | nil => rfl
  | cons b rest ih =>
    have here : isSpace b = true := spaces b (by simp)
    simp only [feed, step, begin, here, ↓reduceIte, List.nil_append]
    rw [ih fun c member => spaces c (by simp [member])]

/-- Checked by evaluation for a name that is written down. -/
theorem letters_of_all {text : Bytes} (all : (text.all isLetter && ! text.isEmpty) = true) :
    text ≠ [] ∧ ∀ b ∈ text, isLetter b = true := by
  obtain ⟨letters, nonempty⟩ := Bool.and_eq_true_iff.mp all
  exact ⟨by simpa using nonempty, List.all_eq_true.mp letters⟩

theorem isLetter_not_space : ∀ b, isLetter b = true → isSpace b = false :=
  forall_byte (by decide +kernel)

theorem isDigit_not_letter : ∀ b, isDigit b = true → isSpace b = false ∧ isLetter b = false :=
  forall_byte (by decide +kernel)

theorem begin_letter {b : UInt8} (letter : isLetter b = true) : begin b = ([], .word [b]) := by
  simp [begin, isLetter_not_space b letter, letter]

theorem begin_digit {b : UInt8} (digit : isDigit b = true) : begin b = ([], .integer [b]) := by
  simp [begin, isDigit_not_letter b digit, digit]

/-! ## String literals -/

/-- `%q`: every single quote twice. -/
def doubleQuotes (text : Bytes) : Bytes := text.flatMap fun b => if b = 39 then [39, 39] else [b]

@[simp] theorem doubleQuotes_nil : doubleQuotes [] = [] := rfl

theorem doubleQuotes_cons (b : UInt8) (rest : Bytes) :
    doubleQuotes (b :: rest) = (if b = 39 then [39, 39] else [b]) ++ doubleQuotes rest := by
  simp [doubleQuotes]

theorem doubleQuotes_eq_self {text : Bytes} (free : 39 ∉ text) : doubleQuotes text = text := by
  induction text with
  | nil => rfl
  | cons b rest ih =>
    rw [List.mem_cons, not_or] at free
    rw [doubleQuotes_cons, if_neg (Ne.symm free.1), ih free.2]
    rfl

/-- SQL's quoting rules read a doubled text back. -/
theorem feed_doubleQuotes (text read : Bytes) :
    feed (.quoted 39 read) (doubleQuotes text) = ([], .quoted 39 (read ++ text)) := by
  induction text generalizing read with
  | nil => simp [feed]
  | cons b rest ih =>
    rw [doubleQuotes_cons]
    by_cases quote : b = 39
    · subst quote
      simp [feed, step, ih]
    · simp [feed, step, quote, ih]

/-- What a literal `'…'` reads as. -/
theorem feed_literal (text : Bytes) :
    feed .start (39 :: doubleQuotes text ++ [39]) = ([], .closed 39 text) := by
  have opened : feed .start [39] = ([], .quoted 39 []) := by decide
  rw [show 39 :: doubleQuotes text ++ [39] = [39] ++ (doubleQuotes text ++ [39]) from rfl, feed_append, opened,
    feed_append, feed_doubleQuotes]
  simp [feed, step]

/-- The quotes a token is written with, if it is a string literal. -/
def Token.quotes : Token → Nat
  | string value => 2 * value.count 39 + 2
  | _ => 0

/-- The quotes already read of an unfinished string literal. -/
def State.quotes : State → Nat
  | quoted close value => if close = 39 then 2 * value.count 39 + 1 else 0
  | closed close value => if close = 39 then 2 * value.count 39 + 2 else 0
  | _ => 0

def totalQuotes (tokens : List Token) : Nat := (tokens.map Token.quotes).sum

theorem totalQuotes_append (first second : List Token) :
    totalQuotes (first ++ second) = totalQuotes first + totalQuotes second := by
  simp [totalQuotes]

theorem pending_quotes (s : State) : totalQuotes (pending s) ≤ s.quotes := by
  cases s with
  | closed close value =>
    by_cases single : close = 39 <;> simp [pending, totalQuotes, Token.quotes, State.quotes, single]
  | _ => simp [pending, totalQuotes, Token.quotes, State.quotes]

private theorem begin_quotes (b : UInt8) :
    totalQuotes (begin b).1 + (begin b).2.quotes ≤ if b = 39 then 1 else 0 := by
  revert b
  exact forall_byte (by decide +kernel)

private theorem flush_quotes (s : State) (b : UInt8) :
    totalQuotes (flush s b).1 + (flush s b).2.quotes ≤ s.quotes + if b = 39 then 1 else 0 := by
  have rest := begin_quotes b
  have before := pending_quotes s
  simp only [flush, totalQuotes_append]
  omega

/-- One byte pays for at most one quote of the string literals read. -/
theorem step_quotes (s : State) (b : UInt8) :
    totalQuotes (step s b).1 + (step s b).2.quotes ≤ s.quotes + if b = 39 then 1 else 0 := by
  have other := flush_quotes s b
  cases s with
  | start => exact (begin_quotes b).trans (Nat.le_add_left _ _)
  | quoted close value =>
    simp only [step]
    by_cases single : close = 39 <;> by_cases here : b = close
    · subst single; subst here
      simp [totalQuotes, State.quotes]
    · subst single
      simp [totalQuotes, State.quotes, here]
    · simp [totalQuotes, State.quotes, single, here]
    · simp [totalQuotes, State.quotes, single, here]
  | closed close value =>
    simp only [step]
    by_cases here : b = close
    · by_cases single : close = 39
      · subst single; subst here
        simp [totalQuotes, State.quotes]
        omega
      · simp [totalQuotes, State.quotes, single, here]
    · simpa [here] using other
  | word text | integer digits | real digits | badNumber | dash | slash =>
    generalize (if b = 39 then 1 else 0) = paid at other ⊢
    simp only [step]
    split_ifs <;> first | exact other | simp [totalQuotes, State.quotes]
  | bracket text | blob digits | lineComment | blockComment | blockStar =>
    generalize (if b = 39 then 1 else 0) = paid
    simp only [step]
    split_ifs <;> simp [totalQuotes, State.quotes, Token.quotes]

theorem feed_quotes (s : State) (text : Bytes) :
    totalQuotes (feed s text).1 + (feed s text).2.quotes ≤ s.quotes + text.count 39 := by
  induction text generalizing s with
  | nil => simp [feed, totalQuotes]
  | cons b rest ih =>
    have first := step_quotes s b
    have later := ih (step s b).2
    simp only [feed, totalQuotes_append, List.count_cons, beq_iff_eq]
    omega

/-- A text has at least the quotes its string literals are written with. -/
theorem lex_quotes (text : Bytes) : totalQuotes (lex text) ≤ text.count 39 := by
  have read := feed_quotes .start text
  have last := pending_quotes (feed .start text).2
  have nothing : State.start.quotes = 0 := rfl
  simp only [lex, lexFrom, totalQuotes_append]
  omega

end WorkerInformer.SqlLexer
