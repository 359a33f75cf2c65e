import WorkerInformer.SqlLexer

/-! The statements the worker writes, parsed token by token: SELECT with an
alias, INDEXED BY and LIMIT, UPDATE, INSERT OR IGNORE and DELETE. A condition is
a disjunction of conjunctions of comparisons. A parser state per grammar
position lets a cut-off statement be followed to its last token. What this
fragment does not have is rejected, also where SQLite has it, such as LIKE, `<>`
and COLLATE; the statement ends at the first semicolon. Nothing in this file is
about one program. -/
namespace WorkerInformer.Sql
open Bytes SqlLexer

/-- A value of a column; a real keeps its numeral. -/
inductive Value
  | null
  | integer (value : Int)
  | real (numeral : Bytes)
  | text (value : Bytes)
  deriving DecidableEq

/-- A column, with the table name or alias before the dot. -/
structure Ref where
  qualifier : Option Bytes
  name : Bytes
  deriving DecidableEq

inductive Operand
  | column (ref : Ref)
  | literal (value : Value)
  deriving DecidableEq

/-- `left = right`, or `left` alone. -/
structure Comparison where
  left : Operand
  right : Option Operand
  deriving DecidableEq

/-- OR of ANDs. -/
abbrev Condition := List (List Comparison)

/-- What stands before the condition. -/
inductive Head
  | select (columns : List Ref) (table : Bytes) (name : Bytes)
  | update (table : Bytes) (assignments : List (Bytes × Value))
  | delete (table : Bytes)
  deriving DecidableEq

inductive Statement
  | conditional (head : Head) (condition : Option Condition) (limit : Option Nat)
  | insertOrIgnore (table : Bytes) (columns : List Bytes) (values : List Value)
  deriving DecidableEq

/-- A condition being read: `left` is there once its `=` was read. -/
structure Context where
  head : Head
  ors : Condition
  ands : List Comparison
  left : Option Operand
  deriving DecidableEq

def Context.compare (ctx : Context) (operand : Operand) : Comparison :=
  match ctx.left with
  | none => ⟨operand, none⟩
  | some left => ⟨left, some operand⟩

/-- The condition that ends with this operand. -/
def Context.condition (ctx : Context) (operand : Operand) : Condition :=
  ctx.ors ++ [ctx.ands ++ [ctx.compare operand]]

/-- The positions of the grammar. -/
inductive Parser
  | fail
  | done (statement : Statement)
  | start
  | select (columns : List Ref)
  | selectName (columns : List Ref) (first : Bytes)
  | selectDot (columns : List Ref) (qualifier : Bytes)
  | selected (columns : List Ref)
  | from (columns : List Ref)
  | source (columns : List Ref) (table : Bytes)
  | as (columns : List Ref) (table : Bytes)
  | indexed (head : Head)
  | indexedBy (head : Head)
  | update
  | updateTable (table : Bytes)
  | set (table : Bytes) (assignments : List (Bytes × Value))
  | setName (table : Bytes) (assignments : List (Bytes × Value)) (column : Bytes)
  | setValue (table : Bytes) (assignments : List (Bytes × Value)) (column : Bytes)
  | setMinus (table : Bytes) (assignments : List (Bytes × Value)) (column : Bytes)
  | delete
  | deleteFrom
  | clause (head : Head)
  | operand (ctx : Context)
  | operandMinus (ctx : Context)
  | operandName (ctx : Context) (first : Bytes)
  | operandDot (ctx : Context) (qualifier : Bytes)
  | compared (ctx : Context) (operand : Operand)
  | limit (head : Head) (condition : Option Condition)
  | limited (head : Head) (condition : Option Condition) (limit : Nat)
  | insert
  | insertOr
  | insertOrIgnore
  | insertInto
  | insertTable (table : Bytes)
  | column (table : Bytes) (columns : List Bytes)
  | columnEnd (table : Bytes) (columns : List Bytes)
  | values (table : Bytes) (columns : List Bytes)
  | valuesOpen (table : Bytes) (columns : List Bytes)
  | value (table : Bytes) (columns : List Bytes) (values : List Value)
  | valueMinus (table : Bytes) (columns : List Bytes) (values : List Value)
  | valueEnd (table : Bytes) (columns : List Bytes) (values : List Value)
  | inserted (table : Bytes) (columns : List Bytes) (values : List Value)
  deriving DecidableEq

/-- The token is this keyword. -/
def isWord (token : Token) (keyword : String) : Bool := token = .word (bytes keyword)

/-- The value of a literal token, negated after a minus. -/
def literal? (negative : Bool) : Token → Option Value
  | .string value => if negative then none else some (.text value)
  | .integer digits => some (.integer (if negative then -value digits else value digits))
  | .real digits => some (.real (if negative then 45 :: digits else digits))
  | _ => none

/-- After a table or the last assignment. -/
def clauseStep (head : Head) (token : Token) : Parser :=
  if token = .punct 59 then .done (.conditional head none none)
  else if isWord token "where" then .operand ⟨head, [], [], none⟩
  else match head with
    | .select _ _ _ =>
      if isWord token "limit" then .limit head none
      else if isWord token "indexed" then .indexed head
      else .fail
    | .update table assignments => if token = .punct 44 then .set table assignments else .fail
    | .delete _ => .fail

/-- After an operand. -/
def comparedStep (ctx : Context) (operand : Operand) (token : Token) : Parser :=
  if token = .punct 59 then .done (.conditional ctx.head (some (ctx.condition operand)) none)
  else if token = .punct 61 then
    match ctx.left with
    | none => .operand { ctx with left := some operand }
    | some _ => .fail
  else if isWord token "and" then
    .operand { ctx with ands := ctx.ands ++ [ctx.compare operand], left := none }
  else if isWord token "or" then
    .operand { ctx with ors := ctx.condition operand, ands := [], left := none }
  else match ctx.head with
    | .select _ _ _ => if isWord token "limit" then .limit ctx.head (some (ctx.condition operand)) else .fail
    | _ => .fail

namespace Parser

def step : Parser → Token → Parser
  | fail, _ => fail
  | done read, _ => done read
  | start, token =>
    if isWord token "select" then select []
    else if isWord token "update" then update
    else if isWord token "insert" then insert
    else if isWord token "delete" then delete
    else fail
  | select columns, token =>
    match token with
    | .word first => selectName columns first
    | _ => fail
  | selectName columns first, token =>
    if token = .punct 46 then selectDot columns first
    else if token = .punct 44 then select (columns ++ [⟨none, first⟩])
    else if isWord token "from" then Parser.from (columns ++ [⟨none, first⟩])
    else fail
  | selectDot columns qualifier, token =>
    match token with
    | .word name => selected (columns ++ [⟨some qualifier, name⟩])
    | _ => fail
  | selected columns, token =>
    if token = .punct 44 then select columns else if isWord token "from" then Parser.from columns else fail
  | Parser.from columns, token =>
    match token with
    | .word table => source columns table
    | _ => fail
  | source columns table, token =>
    if isWord token "as" then as columns table else clauseStep (.select columns table table) token
  | as columns table, token =>
    match token with
    | .word name => clause (.select columns table name)
    | _ => fail
  | indexed head, token => if isWord token "by" then indexedBy head else fail
  | indexedBy head, token =>
    match token with
    | .word _ => clause head
    | _ => fail
  | update, token =>
    match token with
    | .word table => updateTable table
    | _ => fail
  | updateTable table, token => if isWord token "set" then set table [] else fail
  | set table assignments, token =>
    match token with
    | .word name => setName table assignments name
    | _ => fail
  | setName table assignments name, token =>
    if token = .punct 61 then setValue table assignments name else fail
  | setValue table assignments name, token =>
    if token = .punct 45 then setMinus table assignments name
    else match literal? false token with
      | some read => clause (.update table (assignments ++ [(name, read)]))
      | none => fail
  | setMinus table assignments name, token =>
    match literal? true token with
    | some read => clause (.update table (assignments ++ [(name, read)]))
    | none => fail
  | delete, token => if isWord token "from" then deleteFrom else fail
  | deleteFrom, token =>
    match token with
    | .word table => clause (.delete table)
    | _ => fail
  | clause head, token => clauseStep head token
  | operand ctx, token =>
    if token = .punct 45 then operandMinus ctx
    else match token with
      | .word first => operandName ctx first
      | _ =>
        match literal? false token with
        | some read => compared ctx (.literal read)
        | none => fail
  | operandMinus ctx, token =>
    match literal? true token with
    | some read => compared ctx (.literal read)
    | none => fail
  | operandName ctx first, token =>
    if token = .punct 46 then operandDot ctx first else comparedStep ctx (.column ⟨none, first⟩) token
  | operandDot ctx qualifier, token =>
    match token with
    | .word name => compared ctx (.column ⟨some qualifier, name⟩)
    | _ => fail
  | compared ctx last, token => comparedStep ctx last token
  | limit head condition, token =>
    match token with
    | .integer digits => limited head condition (Bytes.value digits)
    | _ => fail
  | limited head condition count, token =>
    if token = .punct 59 then done (.conditional head condition (some count)) else fail
  | insert, token => if isWord token "or" then insertOr else fail
  | insertOr, token => if isWord token "ignore" then insertOrIgnore else fail
  | insertOrIgnore, token => if isWord token "into" then insertInto else fail
  | insertInto, token =>
    match token with
    | .word table => insertTable table
    | _ => fail
  | insertTable table, token => if token = .punct 40 then column table [] else fail
  | column table columns, token =>
    match token with
    | .word name => columnEnd table (columns ++ [name])
    | _ => fail
  | columnEnd table columns, token =>
    if token = .punct 44 then column table columns else if token = .punct 41 then values table columns else fail
  | values table columns, token => if isWord token "values" then valuesOpen table columns else fail
  | valuesOpen table columns, token => if token = .punct 40 then value table columns [] else fail
  | value table columns given, token =>
    if token = .punct 45 then valueMinus table columns given
    else match literal? false token with
      | some read => valueEnd table columns (given ++ [read])
      | none => fail
  | valueMinus table columns given, token =>
    match literal? true token with
    | some read => valueEnd table columns (given ++ [read])
    | none => fail
  | valueEnd table columns given, token =>
    if token = .punct 44 then value table columns given
    else if token = .punct 41 then inserted table columns given
    else fail
  | inserted table columns given, token =>
    if token = .punct 59 then done (.insertOrIgnore table columns given) else fail

/-- The statement, if the text may end here. -/
def finish : Parser → Option Statement
  | done read => some read
  | source columns table => some (.conditional (.select columns table table) none none)
  | clause head => some (.conditional head none none)
  | operandName ctx first => some (.conditional ctx.head (some (ctx.condition (.column ⟨none, first⟩))) none)
  | compared ctx last => some (.conditional ctx.head (some (ctx.condition last)) none)
  | limited head condition count => some (.conditional head condition (some count))
  | inserted table columns given => some (.insertOrIgnore table columns given)
  | _ => none

/-- The position after some more tokens. -/
def steps (p : Parser) (tokens : List Token) : Parser := tokens.foldl step p

theorem steps_append (p : Parser) (first second : List Token) :
    p.steps (first ++ second) = (p.steps first).steps second :=
  List.foldl_append

@[simp] theorem steps_nil (p : Parser) : p.steps [] = p := rfl

@[simp] theorem steps_cons (p : Parser) (token : Token) (rest : List Token) :
    p.steps (token :: rest) = (p.step token).steps rest := rfl

@[simp] theorem steps_fail (tokens : List Token) : fail.steps tokens = fail := by
  induction tokens with
  | nil => rfl
  | cons token rest ih => exact (steps_cons fail token rest).trans ih

@[simp] theorem steps_done (statement : Statement) (tokens : List Token) :
    (done statement).steps tokens = done statement := by
  induction tokens with
  | nil => rfl
  | cons token rest ih => exact (steps_cons (done statement) token rest).trans ih

end Parser

/-- The first statement of a list of tokens. -/
def parse (tokens : List Token) : Option Statement := (Parser.start.steps tokens).finish

/-- The statement SQLite prepares from a text: it reads up to the first NUL. -/
def prepare (text : Bytes) : Option Statement := parse (lex (cString text))

/-! ## Reading on from a position in the text -/

/-- A position in the text: where the tokenizer and the parser stand. -/
structure Reader where
  lexer : State
  parser : Parser
  deriving DecidableEq

def Reader.feed (r : Reader) (text : Bytes) : Reader :=
  ⟨(SqlLexer.feed r.lexer text).2, r.parser.steps (SqlLexer.feed r.lexer text).1⟩

/-- The statement, if the text ends here. -/
def Reader.finish (r : Reader) : Option Statement := (r.parser.steps (pending r.lexer)).finish

def Reader.start : Reader := ⟨.start, .start⟩

theorem Reader.feed_append (r : Reader) (first second : Bytes) :
    r.feed (first ++ second) = (r.feed first).feed second := by
  simp only [Reader.feed, SqlLexer.feed_append, Parser.steps_append]

theorem prepare_eq_reader {text : Bytes} (free : NulFree text) :
    prepare text = (Reader.start.feed text).finish := by
  rw [prepare, cString_of_nulFree free, parse, lex, lexFrom, Parser.steps_append]
  rfl

/-- Once the parser has failed nothing is prepared. -/
theorem Reader.finish_of_fail {r : Reader} (failed : r.parser = .fail) (text : Bytes) :
    (r.feed text).finish = none := by
  simp [Reader.feed, Reader.finish, failed, Parser.finish]

end WorkerInformer.Sql
