import WorkerInformer.SqlLexer

/-! `DataBase::runSqlFile`. `SqlStatement` runs the first statement of a text, so
the file is given to it once as a whole and then again from behind each
semicolon, unless that is one of the last 30 bytes of the file. -/
namespace WorkerInformer.SchemaFile
open SqlLexer (isSpace)

/-- The loop over the file: the texts given to `SqlStatement` from here on. -/
def callsFrom : Bytes → List Bytes
  | [] => []
  | c :: rest => if c = 59 ∧ 30 < rest.length + 1 then rest :: callsFrom rest else callsFrom rest

/-- The texts given to `SqlStatement`. -/
def runSqlFile (buf : Bytes) : List Bytes := buf :: callsFrom buf

/-- What SQLite compiles of a text without semicolons in literals, identifiers
and comments: everything up to the first semicolon, and nothing of white space. -/
def firstStatement (text : Bytes) : Option Bytes :=
  if text.all isSpace then none else some (text.take ((text.takeWhile (· ≠ 59)).length + 1))

/-- The statements that are run, in their order. -/
def executed (buf : Bytes) : List Bytes := (runSqlFile buf).filterMap firstStatement

/-! ## Schema files -/

/-- A statement as it stands in a file, with the white space before it. -/
structure Statement where
  body : Bytes
  no_semicolon : 59 ∉ body
  not_blank : body.all isSpace = false

namespace Statement

def text (s : Statement) : Bytes := s.body ++ [59]

end Statement

/-- The statements with what follows the last of them. -/
def fileOf (statements : List Statement) (trailing : Bytes) : Bytes :=
  statements.flatMap Statement.text ++ trailing

theorem fileOf_cons (s : Statement) (rest : List Statement) (trailing : Bytes) :
    fileOf (s :: rest) trailing = s.body ++ 59 :: fileOf rest trailing := by
  simp [fileOf, Statement.text]

theorem firstStatement_cons (s : Statement) (rest : List Statement) (trailing : Bytes) :
    firstStatement (fileOf (s :: rest) trailing) = some s.text := by
  have words : (fileOf (s :: rest) trailing).all isSpace = false := by
    rw [fileOf_cons, List.all_append, s.not_blank, Bool.false_and]
  have body : (fileOf (s :: rest) trailing).takeWhile (· ≠ 59) = s.body := by
    have others : ∀ b ∈ s.body, decide (b ≠ 59) = true :=
      fun b member => decide_eq_true (ne_of_mem_of_not_mem member s.no_semicolon)
    rw [fileOf_cons, Bytes.takeWhile_refused others (decide_eq_false (not_not.mpr rfl))]
  rw [firstStatement, words, if_neg (by decide), body, fileOf_cons, Statement.text]
  simp [List.take_append, List.take_of_length_le]

theorem firstStatement_blank {text : Bytes} (blank : text.all isSpace = true) : firstStatement text = none :=
  if_pos blank

/-- A text without semicolons is passed over. -/
theorem callsFrom_append {text : Bytes} (free : 59 ∉ text) (rest : Bytes) :
    callsFrom (text ++ rest) = callsFrom rest := by
  induction text with
  | nil => rfl
  | cons c text ih =>
    obtain ⟨differs, later⟩ := List.ne_and_not_mem_of_not_mem_cons free
    rw [List.cons_append, callsFrom, if_neg fun semicolon => differs semicolon.1.symm, ih later]

theorem callsFrom_blank {text : Bytes} (blank : text.all isSpace = true) : callsFrom text = [] := by
  have free : 59 ∉ text := fun member => absurd (List.all_eq_true.mp blank 59 member) (by decide)
  have skipped := callsFrom_append free []
  rwa [List.append_nil, callsFrom] at skipped

/-- The end of a statement leads to a call when 30 bytes follow it. -/
theorem callsFrom_cons (s : Statement) (rest : List Statement) (trailing : Bytes) :
    callsFrom (fileOf (s :: rest) trailing) =
      if 30 ≤ (fileOf rest trailing).length then fileOf rest trailing :: callsFrom (fileOf rest trailing)
      else callsFrom (fileOf rest trailing) := by
  rw [fileOf_cons, callsFrom_append s.no_semicolon, callsFrom]
  simp only [true_and, Nat.lt_succ_iff]

/-- No call is made where fewer than 30 bytes are left. -/
theorem callsFrom_short {text : Bytes} (short : text.length ≤ 30) : callsFrom text = [] := by
  induction text with
  | nil => rfl
  | cons c rest ih =>
    rw [List.length_cons] at short
    rw [callsFrom, if_neg (by omega), ih (by omega)]

/-- The last statement, unless it is the first as well, and what follows it have
30 bytes. -/
def LongEnough (statements : List Statement) (trailing : Bytes) : Prop :=
  ∀ last, statements.tail.getLast? = some last → 30 ≤ (last.text ++ trailing).length

theorem last_length_le {statements : List Statement} {last : Statement} (is_last : statements.getLast? = some last)
    (trailing : Bytes) : (last.text ++ trailing).length ≤ (fileOf statements trailing).length := by
  obtain ⟨front, rfl⟩ := List.getLast?_eq_some_iff.mp is_last
  simp [fileOf]

/-- What is run behind the first statement is the other statements exactly when
they are long enough. -/
theorem later_executed_iff (s : Statement) (rest : List Statement) {trailing : Bytes}
    (blank : trailing.all isSpace = true) :
    (callsFrom (fileOf (s :: rest) trailing)).filterMap firstStatement = rest.map Statement.text ↔
      LongEnough (s :: rest) trailing := by
  induction rest generalizing s with
  | nil =>
    have nothing : fileOf [] trailing = trailing := rfl
    rw [callsFrom_cons, nothing, callsFrom_blank blank]
    refine iff_of_true ?_ fun last is_last => by cases is_last
    split
    · rw [List.filterMap_cons_none (firstStatement_blank blank)]
      rfl
    · rfl
  | cons next rest ih =>
    rw [callsFrom_cons]
    by_cases reached : 30 ≤ (fileOf (next :: rest) trailing).length
    · rw [if_pos reached, List.filterMap_cons_some (firstStatement_cons next rest trailing), List.map_cons,
        List.cons_inj_right, ih next]
      cases rest with
      | nil =>
        apply iff_of_true (fun last is_last => by cases is_last)
        intro last is_last
        obtain rfl : next = last := Option.some.inj is_last
        simpa [fileOf] using reached
      | cons third others =>
        simp only [LongEnough, List.tail_cons, List.getLast?_cons_cons]
    · rw [if_neg reached, callsFrom_short (by omega)]
      refine iff_of_false (fun none => by cases none) fun long => reached ?_
      have is_last := List.getLast?_eq_some_getLast (List.cons_ne_nil next rest)
      exact (long _ is_last).trans (last_length_le is_last trailing)

/-- **When a schema file is run whole.** For every list of statements and every
white space behind them, each statement is run once and in its place exactly
when the last one is the first as well or is 30 bytes long with what follows
it. -/
theorem executed_iff (statements : List Statement) {trailing : Bytes} (blank : trailing.all isSpace = true) :
    executed (fileOf statements trailing) = statements.map Statement.text ↔ LongEnough statements trailing := by
  cases statements with
  | nil =>
    refine iff_of_true ?_ fun last is_last => by cases is_last
    have nothing : fileOf [] trailing = trailing := rfl
    rw [executed, runSqlFile, nothing, callsFrom_blank blank, List.filterMap_cons_none (firstStatement_blank blank)]
    rfl
  | cons s rest =>
    rw [executed, runSqlFile, List.filterMap_cons_some (firstStatement_cons s rest trailing), List.map_cons,
      List.cons_inj_right, later_executed_iff s rest blank]

/-- `CREATE TABLE a(x);` and `CREATE INDEX i ON a(x)` with a line end before it. -/
def tableAndIndex : List Statement :=
  [⟨bytes "CREATE TABLE a(x)", by decide +kernel, by decide +kernel⟩,
    ⟨bytes "\nCREATE INDEX i ON a(x)", by decide +kernel, by decide +kernel⟩]

theorem executed_with_blank_lines :
    executed (fileOf tableAndIndex (bytes "\n\n\n\n\n\n\n\n")) = tableAndIndex.map Statement.text := by
  apply (executed_iff tableAndIndex (by decide +kernel)).mpr
  intro last is_last
  obtain rfl := Option.some.inj is_last
  decide +kernel

/-- With one line end at its end, the file's index is never created. -/
theorem short_last_statement_skipped :
    executed (fileOf tableAndIndex (bytes "\n")) ≠ tableAndIndex.map Statement.text := by
  decide +kernel

end WorkerInformer.SchemaFile
