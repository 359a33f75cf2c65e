import WorkerInformer.MinifiedText
import WorkerInformer.PageData

/-! `Config::Load` and `Core::resultHtml`: a template from its file to the page.
The file is minified once, and `boost::format` reads its directives at every
request. No white space stands inside a directive, so minifying takes none away
and moves none, and the page carries its data where the file says so. -/
namespace WorkerInformer.TemplateFile
open Bytes Json MinifyHtml PageData

/-! ## Directives -/

/-- Where `boost::format` stands: in the text, behind a percent sign, or behind a number. -/
inductive Reading
  | text
  | percent
  | digits (n : Nat)

/-- A character in front of the pieces. -/
def pushText (b : UInt8) : List TemplatePiece → List TemplatePiece
  | .text literal :: rest => .text (b :: literal) :: rest
  | pieces => .text [b] :: pieces

/-- The pieces of a text whose directives are `%N%` and `%%`; `none` if it has
others. A number does not begin with a zero, which would be a flag. -/
def readFrom : Reading → Bytes → Option (List TemplatePiece)
  | .text, [] => some []
  | .percent, [] | .digits _, [] => none
  | .text, b :: rest => if b = 37 then readFrom .percent rest else (readFrom .text rest).map (pushText b)
  | .percent, b :: rest =>
    if b = 37 then (readFrom .text rest).map (pushText 37)
    else if isDigit b && b != 48 then readFrom (.digits (digitValue b)) rest
    else none
  | .digits n, b :: rest =>
    if isDigit b then readFrom (.digits (10 * n + digitValue b)) rest
    else if b = 37 then (readFrom .text rest).map (.argument n :: ·)
    else none

/-- `boost::format(file)`. -/
def readFormat (file : Bytes) : Option (List TemplatePiece) := readFrom .text file

/-- The pieces take three arguments, neither fewer nor more: otherwise the
arguments of `resultHtml` make `boost::format` throw. -/
def TakesThree (pieces : List TemplatePiece) : Prop :=
  .argument 3 ∈ pieces ∧ ∀ n, .argument n ∈ pieces → n ≤ 3

/-- `template_`, as `Config::Load` leaves it and `boost::format` reads it. -/
def loaded (file : Bytes) : Option (List TemplatePiece) := readFormat (minifyhtml file)

/-! ## What minifying keeps -/

/-- A character of a text that is no white space, or an argument. -/
inductive Mark
  | letter (b : UInt8)
  | argument (n : Nat)

def marksOf : TemplatePiece → List Mark
  | .text literal => (letters literal).map .letter
  | .argument n => [.argument n]

def marks (pieces : List TemplatePiece) : List Mark := pieces.flatMap marksOf

theorem marks_cons (piece : TemplatePiece) (rest : List TemplatePiece) :
    marks (piece :: rest) = marksOf piece ++ marks rest := List.flatMap_cons ..

theorem marks_pushText (b : UInt8) (pieces : List TemplatePiece) :
    marks (pushText b pieces) = (letters [b]).map .letter ++ marks pieces := by
  have other : marks (.text [b] :: pieces) = (letters [b]).map .letter ++ marks pieces := marks_cons ..
  cases pieces with
  | nil => exact other
  | cons piece rest =>
    cases piece with
    | argument n => exact other
    | text literal =>
      have split : letters (b :: literal) = letters [b] ++ letters literal := letters_append [b] literal
      rw [pushText, marks_cons, marks_cons, marksOf, marksOf, split, List.map_append, List.append_assoc]

/-- White space in a text is text. -/
theorem readFrom_gap {gap : Bytes} (blank : gap.all isspace = true) (after : Bytes) :
    readFrom .text (gap ++ after) = (readFrom .text after).map fun pieces => gap.foldr pushText pieces := by
  induction gap with
  | nil => simp
  | cons c gap ih =>
    obtain ⟨first, later⟩ := Bool.and_eq_true_iff.mp blank
    have no_percent : c ≠ 37 := by
      rintro rfl
      exact absurd first (by decide)
    rw [List.cons_append, readFrom, if_neg no_percent, ih later, Option.map_map]
    rfl

theorem marks_gap {gap : Bytes} (blank : gap.all isspace = true) (pieces : List TemplatePiece) :
    marks (gap.foldr pushText pieces) = marks pieces := by
  induction gap with
  | nil => rfl
  | cons c gap ih =>
    obtain ⟨first, later⟩ := Bool.and_eq_true_iff.mp blank
    have nothing : letters [c] = [] := letters_gap (by simpa using first)
    rw [List.foldr_cons, marks_pushText, nothing, ih later]
    rfl

/-- No white space stands inside a directive. -/
theorem readFrom_blank {state : Reading} (inside : state ≠ .text) {c : UInt8} (space : isspace c = true)
    (rest : Bytes) : readFrom state (c :: rest) = none := by
  have neither : ∀ c, isspace c = true → c ≠ 37 ∧ isDigit c = false := forall_byte (by decide +kernel)
  obtain ⟨not_percent, not_digit⟩ := neither c space
  cases state with
  | text => exact absurd rfl inside
  | percent => simp [readFrom, not_percent, not_digit]
  | digits n => simp [readFrom, not_percent, not_digit]

/-- What is read of a text is read of it when it is minified, up to white space. -/
theorem readFrom_minified (text : Bytes) {state : Reading} {pieces : List TemplatePiece}
    (read : readFrom state text = some pieces) :
    ∃ minified, readFrom state (minifyhtml text) = some minified ∧ marks minified = marks pieces := by
  induction text using byRuns generalizing state pieces with
  | nil => exact ⟨pieces, read, rfl⟩
  | letter c rest letter ih =>
    -- one more character or argument in front of both
    have before {push : List TemplatePiece → List TemplatePiece} {front : List Mark}
        (pushed : ∀ pieces, marks (push pieces) = front ++ marks pieces)
        (later : (readFrom .text rest).map push = some pieces) :
        ∃ minified, (readFrom .text (minifyhtml rest)).map push = some minified ∧ marks minified = marks pieces := by
      obtain ⟨others, is_others, rfl⟩ := Option.map_eq_some_iff.mp later
      obtain ⟨minified, is_minified, same⟩ := ih is_others
      exact ⟨push minified, by rw [is_minified, Option.map_some], by rw [pushed, pushed, same]⟩
    rw [minifyhtml_letter letter]
    cases state with
    | text =>
      rw [readFrom] at read ⊢
      split
      · rename_i percent
        rw [if_pos percent] at read
        exact ih read
      · rename_i other
        rw [if_neg other] at read
        exact before (marks_pushText c) read
    | percent =>
      rw [readFrom] at read ⊢
      split
      · rename_i percent
        rw [if_pos percent] at read
        exact before (marks_pushText 37) read
      · rename_i other
        rw [if_neg other] at read
        split
        · rename_i digit
          rw [if_pos digit] at read
          exact ih read
        · rename_i no_digit
          rw [if_neg no_digit] at read
          cases read
    | digits n =>
      rw [readFrom] at read ⊢
      split
      · rename_i digit
        rw [if_pos digit] at read
        exact ih read
      · rename_i no_digit
        rw [if_neg no_digit] at read
        split
        · rename_i percent
          rw [if_pos percent] at read
          exact before (fun pieces => marks_cons (.argument n) pieces) read
        · rename_i other
          rw [if_neg other] at read
          cases read
  | gap gap after blank letter ih =>
    rw [minifyhtml_gap blank letter]
    by_cases outside : state = .text
    · subst outside
      rw [readFrom_gap blank] at read
      obtain ⟨others, is_others, rfl⟩ := Option.map_eq_some_iff.mp read
      obtain ⟨minified, is_minified, same⟩ := ih is_others
      refine ⟨_, by rw [readFrom_gap (leftOf_blank blank after), is_minified, Option.map_some], ?_⟩
      rw [marks_gap (leftOf_blank blank after), marks_gap blank, same]
    · cases gap with
      | nil =>
        have nothing : leftOf [] after = [] := by
          unfold leftOf
          split <;> rfl
        rw [nothing]
        exact ih read
      | cons c gap =>
        have space : isspace c = true := (Bool.and_eq_true_iff.mp blank).1
        rw [List.cons_append, readFrom_blank outside space] at read
        cases read

/-! ## Places -/

theorem argument_mem_marks {n : Nat} {pieces : List TemplatePiece} :
    .argument n ∈ marks pieces ↔ .argument n ∈ pieces := by
  have here (piece : TemplatePiece) : .argument n ∈ marksOf piece ↔ piece = .argument n := by
    cases piece with
    | text literal => simp [marksOf]
    | argument k => simp [marksOf, eq_comm]
  simp only [marks, List.mem_flatMap, here]
  exact ⟨fun ⟨_, member, is_argument⟩ => is_argument ▸ member, fun member => ⟨_, member, rfl⟩⟩

theorem takesThree_of_marks {first second : List TemplatePiece} (same : marks first = marks second) :
    TakesThree first ↔ TakesThree second := by
  simp only [TakesThree, ← argument_mem_marks, same]

/-- An argument among the marks is a piece, with the marks of the pieces on both sides. -/
theorem cut_at_argument {pieces : List TemplatePiece} {before after : List Mark} {n : Nat}
    (cut : marks pieces = before ++ .argument n :: after) :
    ∃ front back, pieces = front ++ .argument n :: back ∧ marks front = before ∧ marks back = after := by
  induction pieces generalizing before with
  | nil => simp [marks] at cut
  | cons piece rest ih =>
    rw [marks_cons] at cut
    have later {more : List Mark} (is_before : before = marksOf piece ++ more)
        (is_rest : marks rest = more ++ .argument n :: after) :
        ∃ front back, piece :: rest = front ++ .argument n :: back ∧ marks front = before ∧ marks back = after := by
      obtain ⟨front, back, rfl, same_front, same_back⟩ := ih is_rest
      exact ⟨piece :: front, back, rfl, by rw [marks_cons, same_front, is_before], same_back⟩
    rcases List.append_eq_append_iff.mp cut with ⟨more, is_before, is_rest⟩ | ⟨more, is_piece, is_after⟩
    · exact later is_before is_rest
    · cases more with
      | nil =>
        have is_rest : marks rest = [] ++ .argument n :: after := is_after.symm
        exact later (by rw [is_piece, List.append_nil, List.append_nil]) is_rest
      | cons mark more =>
        obtain ⟨rfl, behind⟩ := List.cons.inj is_after
        cases piece with
        | text literal =>
          have member : Mark.argument n ∈ marksOf (.text literal) := by simp [is_piece]
          simp [marksOf] at member
        | argument k =>
          -- the argument is the piece itself
          have alone : [Mark.argument k] = before ++ .argument n :: more := is_piece
          obtain ⟨rfl, is_single⟩ : before = [] ∧ [Mark.argument k] = .argument n :: more := by
            cases before with
            | nil => exact ⟨rfl, alone⟩
            | cons first before => simp at alone
          obtain ⟨is_argument, rfl⟩ := List.cons.inj is_single
          cases is_argument
          exact ⟨[], rest, rfl, rfl, behind.symm⟩

/-- What of a page comes from a mark, white space apart. -/
def Mark.written (informer : Informer) (params : Params) : Mark → Bytes
  | .letter b => [b]
  | .argument n => letters (substituted informer params n)

theorem letters_filled (informer : Informer) (params : Params) (pieces : List TemplatePiece) :
    letters (filled informer params pieces) = (marks pieces).flatMap (Mark.written informer params) := by
  induction pieces with
  | nil => rfl
  | cons piece rest ih =>
    have first : letters (filled informer params [piece]) = (marksOf piece).flatMap (Mark.written informer params) := by
      cases piece with
      | text literal => simp [filled, marksOf, List.flatMap_map, Mark.written]
      | argument n => simp [filled, marksOf, Mark.written]
    have parts : filled informer params (piece :: rest) =
        filled informer params [piece] ++ filled informer params rest := by
      simp only [filled, List.flatMap_cons, List.flatMap_nil, List.append_nil]
    rw [parts, letters_append, marks_cons, List.flatMap_append, first, ih]

/-- **Minifying moves no argument.** Of every template file that `boost::format`
can read, it reads the minified file, too: the same arguments stand between the
same characters, white space apart. -/
theorem loaded_of_readFormat {file : Bytes} {pieces : List TemplatePiece} (read : readFormat file = some pieces) :
    ∃ minified, loaded file = some minified ∧ marks minified = marks pieces := readFrom_minified file read

/-- **The page carries its data where the file says so.** For every template file
that `boost::format` reads and takes the three arguments for, and each `%1%` or
`%2%` in it, the minified file is read and takes them, too. For every informer and
every parameters, what a JSON reader reads of the page from that argument on has
exactly the members of `toJson`, each with its value; and before it and behind it
stands what the file has there, white space apart. -/
theorem file_carries {file : Bytes} {front back : List TemplatePiece} {n : Nat}
    (read : readFormat file = some (front ++ .argument n :: back)) (takes : TakesThree (front ++ .argument n :: back)) :
    ∃ before after, loaded file = some (before ++ .argument n :: after) ∧ TakesThree (before ++ .argument n :: after) ∧
      ∀ informer params, letters (filled informer params before) = letters (filled informer params front) ∧
        letters (filled informer params after) = letters (filled informer params back) ∧
        ∀ members, membersOf informer params n = some members →
          ∃ j, JsonReader.read ((resultHtml (before ++ .argument n :: after) informer params).drop
              (filled informer params before).length) = some (j, filled informer params after ++ testMark params) ∧
            ∀ key, j.lookup key = members.lookup key := by
  obtain ⟨minified, is_loaded, same⟩ := loaded_of_readFormat read
  have cut : marks minified = marks front ++ .argument n :: marks back := by
    rw [same, marks, List.flatMap_append, List.flatMap_cons]
    rfl
  obtain ⟨before, after, rfl, same_before, same_after⟩ := cut_at_argument cut
  refine ⟨before, after, is_loaded, (takesThree_of_marks same).mpr takes, fun informer params => ⟨?_, ?_, ?_⟩⟩
  · rw [letters_filled, letters_filled, same_before]
  · rw [letters_filled, letters_filled, same_after]
  · intro members is_json
    simpa using read_piece before after informer params is_json []

/-- A file with a script on three lines. -/
def scriptFile : Bytes := bytes "<script>\n  informer = %1%;\n  params = %2%;\n</script>100%%%3%"

theorem scriptFile_read : readFormat scriptFile =
    some ([.text (bytes "<script>\n  informer = ")] ++ .argument 1 ::
      [.text (bytes ";\n  params = "), .argument 2, .text (bytes ";\n</script>100%"), .argument 3]) := rfl

/-- The informer stands in the minified file behind `informer = `. -/
theorem file_carries_script :
    ∃ before after, loaded scriptFile = some (before ++ .argument 1 :: after) ∧
      letters (filled plainInformer quotingParams before) = bytes "<script>informer=" ∧
      ∃ j, JsonReader.read ((resultHtml (before ++ .argument 1 :: after) plainInformer quotingParams).drop
          (filled plainInformer quotingParams before).length) =
            some (j, filled plainInformer quotingParams after ++ testMark quotingParams) ∧
        ∀ key, j.lookup key = plainInformer.members.lookup key := by
  have takes : TakesThree ([.text (bytes "<script>\n  informer = ")] ++ .argument 1 ::
      [.text (bytes ";\n  params = "), .argument 2, .text (bytes ";\n</script>100%"), .argument 3]) := by
    refine ⟨by simp, fun n member => ?_⟩
    have one_of_them : n = 1 ∨ n = 2 ∨ n = 3 := by simpa using member
    omega
  obtain ⟨before, after, is_loaded, -, carries⟩ := file_carries scriptFile_read takes
  obtain ⟨same_before, -, reads⟩ := carries plainInformer quotingParams
  exact ⟨before, after, is_loaded, same_before.trans (by decide +kernel), reads _ rfl⟩

end WorkerInformer.TemplateFile
