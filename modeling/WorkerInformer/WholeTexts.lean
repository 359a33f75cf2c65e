import WorkerInformer.InformerTable
import WorkerInformer.SqlFormats

/-! No text of the table holds a NUL. SQLite reads a statement up to its first
NUL, a literal is made of bytes of the statement, and a table holds what the
literals of its statements wrote, so this is so whatever the statements say. -/
namespace WorkerInformer.WholeTexts
open Bytes SqlLexer Sql InformerTable

/-! ## Literals are made of bytes of the text -/

/-- The bytes of a literal that goes into a value as they are. -/
def literalBytes : Token → Bytes
  | .string value => value
  | .real digits => digits
  | _ => []

/-- The bytes a state has collected for such a literal. -/
def collected : State → Bytes
  | .integer digits | .real digits => digits
  | .quoted _ value | .closed _ value => value
  | _ => []

theorem begin_collected (b : UInt8) :
    (∀ token ∈ (begin b).1, literalBytes token = []) ∧ ∀ c ∈ collected (begin b).2, c = b := by
  unfold begin
  repeat' split
  all_goals simp [literalBytes, collected]

theorem pending_collected (s : State) : ∀ token ∈ pending s, ∀ c ∈ literalBytes token, c ∈ collected s := by
  cases s with
  | closed close value =>
    by_cases quote : close = 39 <;> simp [pending, literalBytes, collected, quote]
  | _ => simp [pending, literalBytes, collected]

theorem flush_collected (s : State) (b : UInt8) :
    (∀ token ∈ (flush s b).1, ∀ c ∈ literalBytes token, c ∈ collected s) ∧ ∀ c ∈ collected (flush s b).2, c = b := by
  refine ⟨fun token member c inside => ?_, (begin_collected b).2⟩
  rcases List.mem_append.mp member with old | new
  · exact pending_collected s token old c inside
  · rw [(begin_collected b).1 token new] at inside
    cases inside

/-- One more byte adds at most itself. -/
theorem step_collected (s : State) (b : UInt8) :
    (∀ token ∈ (step s b).1, ∀ c ∈ literalBytes token, c ∈ collected s) ∧
      ∀ c ∈ collected (step s b).2, c ∈ collected s ∨ c = b := by
  have flushed : (∀ token ∈ (flush s b).1, ∀ c ∈ literalBytes token, c ∈ collected s) ∧
      ∀ c ∈ collected (flush s b).2, c ∈ collected s ∨ c = b :=
    ⟨(flush_collected s b).1, fun c member => Or.inr ((flush_collected s b).2 c member)⟩
  cases s with
  | start =>
    refine ⟨fun token member c inside => ?_, fun c member => Or.inr ((begin_collected b).2 c member)⟩
    rw [(begin_collected b).1 token member] at inside
    cases inside
  | _ =>
    simp only [step]
    repeat' split
    all_goals first | exact flushed | simp +contextual [literalBytes, collected]

/-- What holds of the bytes of a text holds of the bytes of its literals. -/
theorem feed_collected {holds : UInt8 → Prop} {s : State} (before : ∀ c ∈ collected s, holds c) {text : Bytes}
    (all : ∀ b ∈ text, holds b) :
    (∀ token ∈ (feed s text).1, ∀ c ∈ literalBytes token, holds c) ∧ ∀ c ∈ collected (feed s text).2, holds c := by
  induction text generalizing s with
  | nil => exact ⟨fun token member => absurd member List.not_mem_nil, before⟩
  | cons b rest ih =>
    obtain ⟨tokens, state⟩ := step_collected s b
    have next : ∀ c ∈ collected (step s b).2, holds c := by
      intro c member
      rcases state c member with old | rfl
      · exact before c old
      · exact all c List.mem_cons_self
    obtain ⟨later, last⟩ := ih next fun c member => all c (List.mem_cons_of_mem b member)
    refine ⟨fun token member => ?_, last⟩
    rcases List.mem_append.mp member with here | there
    · exact fun c inside => before c (tokens token here c inside)
    · exact later token there

theorem lex_literals {holds : UInt8 → Prop} {text : Bytes} (all : ∀ b ∈ text, holds b) :
    ∀ token ∈ lex text, ∀ c ∈ literalBytes token, holds c := by
  have nothing : ∀ c ∈ collected .start, holds c := fun c member => absurd member List.not_mem_nil
  obtain ⟨tokens, state⟩ := feed_collected nothing all
  intro token member c inside
  rcases List.mem_append.mp member with complete | last
  · exact tokens token complete c inside
  · exact state c (pending_collected _ token last c inside)

/-! ## Statements write what their literals say -/

def headValues : Head → List Value
  | .update _ assignments => assignments.map Prod.snd
  | .select _ _ _ | .delete _ => []

/-- The values a statement writes. -/
def written : Statement → List Value
  | .conditional head _ _ => headValues head
  | .insertOrIgnore _ _ values => values

/-- The values read so far that a statement may write. -/
def parsed : Parser → List Value
  | .done statement => written statement
  | .set _ assignments | .setName _ assignments _ | .setValue _ assignments _ | .setMinus _ assignments _ =>
    assignments.map Prod.snd
  | .indexed head | .indexedBy head | .clause head | .limit head _ | .limited head _ _ => headValues head
  | .operand ctx | .operandMinus ctx | .operandName ctx _ | .operandDot ctx _ | .compared ctx _ => headValues ctx.head
  | .value _ _ values | .valueMinus _ _ values | .valueEnd _ _ values | .inserted _ _ values => values
  | _ => []

section Parsing
variable {holds : Value → Prop} {token : Token}

theorem clauseStep_parsed (head : Head) : ∀ v ∈ parsed (clauseStep head token), v ∈ headValues head := by
  unfold clauseStep
  repeat' split
  all_goals simp [parsed, written, headValues]

theorem comparedStep_parsed (ctx : Context) (last : Operand) :
    ∀ v ∈ parsed (comparedStep ctx last token), v ∈ headValues ctx.head := by
  unfold comparedStep
  repeat' split
  all_goals simp [parsed, written]

/-- A token adds at most its own value. -/
theorem step_parsed (literals : ∀ negative v, literal? negative token = some v → holds v) {p : Parser}
    (before : ∀ v ∈ parsed p, holds v) : ∀ v ∈ parsed (p.step token), holds v := by
  have added {values : List Value} {negative : Bool} {v : Value} (read : literal? negative token = some v)
      (given : ∀ w ∈ values, holds w) : ∀ w ∈ values ++ [v], holds w := by
    intro w member
    rcases List.mem_append.mp member with old | new
    · exact given w old
    · rw [List.mem_singleton.mp new]
      exact literals negative v read
  cases p with
  | setValue table assignments name =>
    simp only [Parser.step]
    repeat' split
    · exact before
    · rename_i read value
      simpa [parsed, headValues] using added value before
    · simp [parsed]
  | setMinus table assignments name =>
    simp only [Parser.step]
    split
    · rename_i read value
      simpa [parsed, headValues] using added value before
    · simp [parsed]
  | value table columns values =>
    simp only [Parser.step]
    repeat' split
    · exact before
    · rename_i read value
      exact added value before
    · simp [parsed]
  | valueMinus table columns values =>
    simp only [Parser.step]
    split
    · rename_i read value
      exact added value before
    · simp [parsed]
  | source columns table =>
    simp only [Parser.step]
    split
    · simp [parsed]
    · exact fun v member => absurd (clauseStep_parsed _ v member) List.not_mem_nil
  | clause head => exact fun v member => before v (clauseStep_parsed head v member)
  | operandName ctx first =>
    simp only [Parser.step]
    split
    · exact before
    · exact fun v member => before v (comparedStep_parsed ctx _ v member)
  | compared ctx last => exact fun v member => before v (comparedStep_parsed ctx last v member)
  | _ =>
    simp only [Parser.step]
    repeat' split
    all_goals first | exact before | simp [parsed]

theorem steps_parsed {tokens : List Token}
    (literals : ∀ token ∈ tokens, ∀ negative v, literal? negative token = some v → holds v) {p : Parser}
    (before : ∀ v ∈ parsed p, holds v) : ∀ v ∈ parsed (p.steps tokens), holds v := by
  induction tokens generalizing p with
  | nil => exact before
  | cons token rest ih =>
    apply ih fun other member => literals other (List.mem_cons_of_mem token member)
    exact step_parsed (literals token List.mem_cons_self) before

theorem finish_written {p : Parser} {statement : Statement} (finished : p.finish = some statement) :
    ∀ v ∈ written statement, v ∈ parsed p := by
  cases p <;> simp only [Parser.finish, Option.some.injEq, reduceCtorEq] at finished
  all_goals
    subst finished
    simp [written, parsed, headValues]

theorem prepare_written {text : Bytes}
    (literals : ∀ token ∈ lex (cString text), ∀ negative v, literal? negative token = some v → holds v)
    {statement : Statement} (prepared : prepare text = some statement) : ∀ v ∈ written statement, holds v := by
  intro v member
  exact steps_parsed literals (fun v member => absurd member List.not_mem_nil) v (finish_written prepared v member)

end Parsing

/-! ## Tables -/

/-- A value without a NUL. -/
def Whole : Value → Prop
  | .text text | .real text => NulFree text
  | .null | .integer _ => True

/-- No text of the table holds a NUL. -/
def WholeTable (t : Table) : Prop := ∀ row ∈ t.rows, NulFree row.guid ∧ ∀ c, Whole (row.values c)

theorem literal?_whole {token : Token} (free : ∀ c ∈ literalBytes token, c ≠ 0) (negative : Bool) (v : Value)
    (read : literal? negative token = some v) : Whole v := by
  have whole : NulFree (literalBytes token) := fun zero => free 0 zero rfl
  cases token with
  | string value =>
    cases negative with
    | true => cases read
    | false =>
      obtain rfl := Option.some.inj read
      exact whole
  | integer digits =>
    obtain rfl := Option.some.inj read
    trivial
  | real digits =>
    obtain rfl := Option.some.inj read
    cases negative with
    | true => exact fun zero => whole ((List.mem_cons.mp zero).resolve_left (by decide))
    | false => exact whole
  | _ => cases read

theorem prepare_whole {text : Bytes} {statement : Statement} (prepared : prepare text = some statement) :
    ∀ v ∈ written statement, Whole v := by
  have free : ∀ b ∈ cString text, b ≠ 0 := fun b inside zero => Printf.cString_nulFree text (zero ▸ inside)
  exact prepare_written (fun token member => literal?_whole (lex_literals free token member)) prepared

theorem store_whole (c : Column) {v : Value} (whole : Whole v) : Whole (c.store v) := by
  unfold Column.store
  split <;> first | exact Printf.signed_nulFree _ | exact whole

theorem default_whole (c : Column) : Whole (Column.default c) := by
  cases c <;> first | trivial | exact List.not_mem_nil

theorem assign_whole {assignments : List (Column × Value)} (given : ∀ a ∈ assignments, Whole a.2)
    {values : Column → Value} (whole : ∀ c, Whole (values c)) (c : Column) : Whole (assign assignments values c) := by
  induction assignments generalizing values with
  | nil => exact whole c
  | cons a rest ih =>
    apply ih (fun other member => given other (List.mem_cons_of_mem a member))
    intro asked
    by_cases here : asked = a.1
    · subst here
      simpa using store_whole a.1 (given a List.mem_cons_self)
    · simpa [here] using whole asked

theorem assignments?_whole {written : List (Bytes × Value)} (whole : ∀ a ∈ written, Whole a.2)
    {assignments : List (Column × Value)} (resolved : assignments? written = some assignments) :
    ∀ a ∈ assignments, Whole a.2 := by
  induction written generalizing assignments with
  | nil =>
    obtain rfl := Option.some.inj resolved
    simp
  | cons a rest ih =>
    simp only [assignments?, List.mapM_cons, Option.bind_eq_bind, Option.bind_eq_some_iff, Option.pure_def,
      Option.some.injEq] at resolved
    obtain ⟨first, named, others, later, rfl⟩ := resolved
    intro assigned member
    rcases List.mem_cons.mp member with rfl | member
    · split at named
      · obtain rfl := Option.some.inj named
        exact whole a List.mem_cons_self
      · cases named
    · exact ih (fun other given => whole other (List.mem_cons_of_mem a given)) later assigned member

theorem row?_whole {columns : List Bytes} {values : List Value} (whole : ∀ v ∈ values, Whole v) {row : Row}
    (described : row? columns values = some row) : NulFree row.guid ∧ ∀ c, Whole (row.values c) := by
  unfold row? at described
  split at described
  · obtain ⟨fields, -, described⟩ := Option.bind_eq_some_iff.mp described
    split at described
    · rename_i id guid _ is_guid
      obtain rfl := Option.some.inj described
      have given {field : Field} {v : Value} (member : (field, v) ∈ fields.zip values) : Whole v :=
        whole v (List.of_mem_zip member).2
      refine ⟨?_, assign_whole (fun a member => ?_) default_whole⟩
      · obtain ⟨front, rest, is_zip, -⟩ := List.lookup_eq_some_iff.mp is_guid
        have member : (Field.guid, Value.text guid) ∈ fields.zip values := by simp [is_zip]
        exact given member
      · obtain ⟨e, e_member, is_a⟩ := List.mem_filterMap.mp member
        split at is_a
        · obtain rfl := Option.some.inj is_a
          exact given e_member
        · cases is_a
    · cases described
  · cases described

/-- A statement leaves no NUL. -/
theorem exec?_whole {t after : Table} (texts : WholeTable t) {statement : Statement}
    (whole : ∀ v ∈ written statement, Whole v) (executed : exec? t statement = some after) : WholeTable after := by
  unfold exec? at executed
  split at executed
  · rename_i table assignments condition
    split at executed
    · obtain ⟨resolved, is_resolved, rfl⟩ := Option.map_eq_some_iff.mp executed
      have given : ∀ a ∈ assignments, Whole a.2 := fun a member => whole a.2 (List.mem_map_of_mem member)
      intro row member
      obtain ⟨old, old_member, rfl⟩ := List.mem_map.mp member
      refine ⟨(texts old old_member).1, fun c => ?_⟩
      simp only
      split
      · exact assign_whole (assignments?_whole given is_resolved) (texts old old_member).2 c
      · exact (texts old old_member).2 c
    · cases executed
  · split at executed
    · obtain rfl := Option.some.inj executed
      exact fun row member => texts row (List.mem_of_mem_filter member)
    · cases executed
  · split at executed
    · obtain ⟨row, described, rfl⟩ := Option.map_eq_some_iff.mp executed
      intro other member
      unfold Table.insertOrIgnore at member
      split at member
      · rcases List.mem_append.mp member with old | new
        · exact texts other old
        · rw [List.mem_singleton.mp new]
          exact row?_whole whole described
      · exact texts other member
    · cases executed
  · cases executed

theorem sqlStatement_whole {t : Table} (texts : WholeTable t) (text : Bytes) : WholeTable (sqlStatement t text) := by
  unfold sqlStatement
  cases executed : (prepare text).bind (exec? t) with
  | none => exact texts
  | some after =>
    obtain ⟨statement, prepared, done⟩ := Option.bind_eq_some_iff.mp executed
    exact exec?_whole texts (prepare_whole prepared) done

/-- The table statements made, one after the other, of an empty one. -/
def MadeByStatements (t : Table) : Prop := ∃ statements : List Bytes, t = statements.foldl sqlStatement Table.empty

/-- **No text of a table holds a NUL**, whatever statements made it. -/
theorem whole_of_made {t : Table} (made : MadeByStatements t) : WholeTable t := by
  obtain ⟨statements, rfl⟩ := made
  have from_whole (start : Table) (texts : WholeTable start) : WholeTable (statements.foldl sqlStatement start) := by
    induction statements generalizing start with
    | nil => exact texts
    | cons text rest ih => exact ih _ (sqlStatement_whole texts text)
  exact from_whole Table.empty fun row member => absurd member List.not_mem_nil

end WorkerInformer.WholeTexts
