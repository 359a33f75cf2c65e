import Mathlib.Data.List.Nodup
import Mathlib.Logic.Function.Basic
import WorkerInformer.SqlParser

/-! `db_dump/tables/16_Informer.sql`: the Informer table, whose ids and whose
guids are unique, and what the statements of the worker do to it. A statement
that names another table or an unknown column is an error and changes nothing.
The conditions the worker writes compare the id with an integer and the guid with
a text, so values compare within one type; what the columns' affinities convert in
a condition that a text with quotes of its own spells is not said here. -/
namespace WorkerInformer.InformerTable
open Bytes Sql

/-- The columns besides the two unique ones. -/
inductive Column
  | title
  | account
  | domain
  | teasersCss
  | headerHtml
  | footerHtml
  | nonrelevant
  | userCode
  | autoReload
  | blinking
  | shake
  | blinkingReload
  | shakeReload
  | shakeMouse
  | capacity
  | valid
  | htmlNotification
  | placeBranch
  | retargetingBranch
  | socialBranch
  | height
  | width
  | heightBanner
  | widthBanner
  | rangeShortTerm
  | rangeLongTerm
  | rangeContext
  | rangeSearch
  | retargetingCapacity
  | ratingDivision
  deriving DecidableEq

inductive Field
  | id
  | guid
  | other (column : Column)
  deriving DecidableEq

/-- The columns of the table under their names, which SQL folds to lower case. -/
def fieldNames : List (Bytes × Field) :=
  [(bytes "id", .id), (bytes "guid", .guid), (bytes "title", .other .title),
    (bytes "account", .other .account), (bytes "domain", .other .domain),
    (bytes "teaserscss", .other .teasersCss), (bytes "headerhtml", .other .headerHtml),
    (bytes "footerhtml", .other .footerHtml), (bytes "nonrelevant", .other .nonrelevant),
    (bytes "user_code", .other .userCode), (bytes "auto_reload", .other .autoReload),
    (bytes "blinking", .other .blinking), (bytes "shake", .other .shake),
    (bytes "blinking_reload", .other .blinkingReload), (bytes "shake_reload", .other .shakeReload),
    (bytes "shake_mouse", .other .shakeMouse), (bytes "capacity", .other .capacity),
    (bytes "valid", .other .valid), (bytes "html_notification", .other .htmlNotification),
    (bytes "place_branch", .other .placeBranch), (bytes "retargeting_branch", .other .retargetingBranch),
    (bytes "social_branch", .other .socialBranch), (bytes "height", .other .height),
    (bytes "width", .other .width), (bytes "height_banner", .other .heightBanner),
    (bytes "width_banner", .other .widthBanner), (bytes "range_short_term", .other .rangeShortTerm),
    (bytes "range_long_term", .other .rangeLongTerm), (bytes "range_context", .other .rangeContext),
    (bytes "range_search", .other .rangeSearch), (bytes "retargeting_capacity", .other .retargetingCapacity),
    (bytes "rating_division", .other .ratingDivision)]

def field? (name : Bytes) : Option Field := fieldNames.lookup name

structure Row where
  id : Int
  guid : Bytes
  values : Column → Value

def Row.get (row : Row) : Field → Value
  | .id => .integer row.id
  | .guid => .text row.guid
  | .other c => row.values c

/-- What a column holds that an INSERT does not mention. -/
def Column.default : Column → Value
  | headerHtml | footerHtml => .text []
  | ratingDivision => .integer 1000
  | _ => .null

/-- A REAL column turns an integer into a real; the other values are stored as
they are written. -/
def Column.store (c : Column) (value : Value) : Value :=
  match c, value with
  | rangeShortTerm, .integer i | rangeLongTerm, .integer i | rangeContext, .integer i
  | rangeSearch, .integer i => .real (signed i)
  | _, value => value

/-- Storing values in columns, one after the other. -/
def assign (assignments : List (Column × Value)) (values : Column → Value) : Column → Value :=
  assignments.foldl (fun values a => Function.update values a.1 (a.1.store a.2)) values

/-! ## Conditions -/

/-- Whether a value counts as true; SQL's unknown is `none`. -/
def truth : Value → Option Bool
  | .null => none
  | .integer i => some (i ≠ 0)
  | .real numeral => some (numeral.any fun b => isDigit b && b ≠ 48)
  | .text text => some ((text.takeWhile fun b => isDigit b || b = 46 || b = 45).any fun b => isDigit b && b ≠ 48)

def equal (left right : Value) : Option Bool :=
  match left, right with
  | .null, _ | _, .null => none
  | _, _ => some (left = right)

def and3 : Option Bool → Option Bool → Option Bool
  | some false, _ | _, some false => some false
  | some true, some true => some true
  | _, _ => none

def or3 : Option Bool → Option Bool → Option Bool
  | some true, _ | _, some true => some true
  | some false, some false => some false
  | _, _ => none

/-- The column a reference means when the table goes by `name`. -/
def ref? (name : Bytes) (ref : Ref) : Option Field :=
  if ref.qualifier.getD name = name then field? ref.name else none

def operand? (name : Bytes) (row : Row) : Operand → Option Value
  | .column ref => (ref? name ref).map row.get
  | .literal value => some value

def comparison? (name : Bytes) (row : Row) (c : Comparison) : Option (Option Bool) :=
  match c.right with
  | none => (operand? name row c.left).map truth
  | some right => (operand? name row c.left).bind fun left => (operand? name row right).map (equal left)

/-- The outer option is there when every name is known. -/
def condition? (name : Bytes) (row : Row) (condition : Condition) : Option (Option Bool) :=
  (condition.mapM fun (ands : List Comparison) => (ands.mapM (comparison? name row)).map (·.foldl and3 (some true))).map
    (·.foldl or3 (some false))

/-- The row is one the statement is about. -/
def selects (name : Bytes) (condition : Option Condition) (row : Row) : Bool :=
  match condition with
  | none => true
  | some condition => condition? name row condition = some (some true)

/-- One comparison alone selects the rows it is true of. -/
theorem selects_comparison {name : Bytes} {condition : Condition} {row : Row} {P : Prop} [Decidable P]
    (evaluated : condition? name row condition =
      some (or3 (some false) (and3 (some true) (some (decide P))))) :
    selects name (some condition) row = decide P := by
  by_cases holds : P <;> simp [selects, evaluated, holds, and3, or3]

/-- All names of the condition are known; the row only lends its shape. -/
def known (name : Bytes) (condition : Option Condition) : Bool :=
  match condition with
  | none => true
  | some condition => (condition? name ⟨0, [], Column.default⟩ condition).isSome

/-! ## Statements -/

/-- The table: each id and each guid once. -/
@[ext] structure Table where
  rows : List Row
  ids : (rows.map Row.id).Nodup
  guids : (rows.map Row.guid).Nodup

def Table.empty : Table := ⟨[], List.nodup_nil, List.nodup_nil⟩

def Table.mapValues (t : Table) (change : Row → Column → Value) : Table where
  rows := t.rows.map fun row => { row with values := change row }
  ids := by
    rw [List.map_map]
    exact t.ids
  guids := by
    rw [List.map_map]
    exact t.guids

def Table.filter (t : Table) (keep : Row → Bool) : Table where
  rows := t.rows.filter keep
  ids := t.ids.sublist (List.filter_sublist.map Row.id)
  guids := t.guids.sublist (List.filter_sublist.map Row.guid)

/-- INSERT OR IGNORE of one row. -/
def Table.insertOrIgnore (t : Table) (row : Row) : Table :=
  if free : row.id ∉ t.rows.map Row.id ∧ row.guid ∉ t.rows.map Row.guid then
    { rows := t.rows ++ [row]
      ids := by
        rw [List.map_append]
        exact (List.perm_append_singleton _ _).nodup_iff.mpr (List.nodup_cons.mpr ⟨free.1, t.ids⟩)
      guids := by
        rw [List.map_append]
        exact (List.perm_append_singleton _ _).nodup_iff.mpr (List.nodup_cons.mpr ⟨free.2, t.guids⟩) }
  else t

/-- The assignments of an UPDATE, none of them to a unique column. -/
def assignments? (assignments : List (Bytes × Value)) : Option (List (Column × Value)) :=
  assignments.mapM fun a =>
    match field? a.1 with
    | some (.other c) => some (c, a.2)
    | _ => none

/-- The row an INSERT describes: it has an integer id and a text guid. -/
def row? (columns : List Bytes) (values : List Value) : Option Row :=
  if columns.length = values.length then
    (columns.mapM field?).bind fun fields =>
      match (fields.zip values).lookup .id, (fields.zip values).lookup .guid with
      | some (.integer id), some (.text guid) =>
        some ⟨id, guid, assign ((fields.zip values).filterMap fun e =>
          match e.1 with
          | .other c => some (c, e.2)
          | _ => none) Column.default⟩
      | _, _ => none
  else none

/-- Executing a statement that writes; an error is `none`. -/
def exec? (t : Table) : Statement → Option Table
  | .conditional (.update table assignments) condition none =>
    if table = bytes "informer" ∧ known table condition then
      (assignments? assignments).map fun assignments =>
        t.mapValues fun row =>
          if selects table condition row then assign assignments row.values else row.values
    else none
  | .conditional (.delete table) condition none =>
    if table = bytes "informer" ∧ known table condition then
      some (t.filter fun row => !selects table condition row)
    else none
  | .insertOrIgnore table columns values =>
    if table = bytes "informer" then (row? columns values).map t.insertOrIgnore else none
  | .conditional _ _ _ => none

/-- The rows a SELECT yields; an error is `none`. -/
def select? (t : Table) : Statement → Option (List (List Value))
  | .conditional (.select columns table name) condition limit =>
    if table = bytes "informer" ∧ known name condition then
      (columns.mapM (ref? name)).map fun fields =>
        let found := (t.rows.filter (selects name condition)).map fun row => fields.map row.get
        match limit with
        | none => found
        | some limit => found.take limit
    else none
  | _ => none

/-! ## What statements do to rows -/

theorem assign_of_not_mem {assignments : List (Column × Value)} {c : Column}
    (absent : c ∉ assignments.map Prod.fst) (values : Column → Value) :
    assign assignments values c = values c := by
  induction assignments generalizing values with
  | nil => rfl
  | cons a rest ih =>
    simp only [List.map_cons, List.mem_cons, not_or] at absent
    have kept : Function.update values a.1 (a.1.store a.2) c = values c := Function.update_of_ne absent.1 _ _
    exact (ih absent.2 _).trans kept

/-- A column that is assigned once holds what it is assigned. -/
theorem assign_first {c : Column} {value : Value} {rest : List (Column × Value)}
    (absent : c ∉ rest.map Prod.fst) (values : Column → Value) :
    assign ((c, value) :: rest) values c = c.store value := by
  have assigned : Function.update values c (c.store value) c = c.store value := Function.update_self _ _ _
  exact (assign_of_not_mem absent _).trans assigned

theorem assignments?_eq {values : List (Bytes × Value)} {columns : List Column}
    (resolved : values.map (fun a => field? a.1) = columns.map fun c => some (.other c)) :
    assignments? values = some (columns.zip (values.map Prod.snd)) := by
  induction values generalizing columns with
  | nil =>
    obtain rfl : columns = [] := by simpa using resolved.symm
    rfl
  | cons a values ih =>
    cases columns with
    | nil => simp at resolved
    | cons c columns =>
      simp only [List.map_cons, List.cons.injEq] at resolved
      have rest := ih resolved.2
      simp only [assignments?] at rest
      simp [assignments?, List.mapM_cons, resolved.1, rest]

namespace Table

theorem eq_of_id (t : Table) {row other : Row} (row_mem : row ∈ t.rows) (other_mem : other ∈ t.rows)
    (same : row.id = other.id) : row = other :=
  List.inj_on_of_nodup_map t.ids row_mem other_mem same

/-- A change that leaves the row with this id alone. -/
theorem mem_mapValues_of_unchanged (t : Table) {change : Row → Column → Value} {row : Row}
    (unchanged : ∀ old ∈ t.rows, old.id = row.id → change old = old.values) :
    row ∈ (t.mapValues change).rows ↔ row ∈ t.rows := by
  simp only [mapValues, List.mem_map]
  constructor
  · rintro ⟨old, member, rfl⟩
    rwa [unchanged old member rfl]
  · intro member
    exact ⟨row, member, by rw [unchanged row member rfl]⟩

/-- A row whose values change is gone. -/
theorem not_mem_mapValues (t : Table) {change : Row → Column → Value} {row : Row} (member : row ∈ t.rows)
    (changed : change row ≠ row.values) : row ∉ (t.mapValues change).rows := by
  simp only [mapValues, List.mem_map]
  rintro ⟨old, old_member, same⟩
  have same_id : old.id = row.id := by rw [← same]
  obtain rfl : old = row := t.eq_of_id old_member member same_id
  exact changed (congrArg Row.values same)

/-- The row with a guid, if there is one. -/
theorem find?_guid (t : Table) {row : Row} (member : row ∈ t.rows) :
    (t.rows.find? fun other => other.guid = row.guid) = some row := by
  cases found : t.rows.find? fun other => other.guid = row.guid with
  | none => simpa using List.find?_eq_none.mp found row member
  | some other =>
    have same : other.guid = row.guid := by simpa using List.find?_some found
    rw [List.inj_on_of_nodup_map t.guids (List.mem_of_find?_eq_some found) member same]

theorem mem_insertOrIgnore_of_ne (t : Table) {new row : Row} (other : row.id ≠ new.id) :
    row ∈ (t.insertOrIgnore new).rows ↔ row ∈ t.rows := by
  unfold insertOrIgnore
  split
  · have different : row ≠ new := fun same => other (congrArg Row.id same)
    simp [different]
  · rfl

end Table

theorem exec?_update (t : Table) {values : List (Bytes × Value)} {assignments : List (Column × Value)}
    {condition : Option Condition} (names : known (bytes "informer") condition = true)
    (resolved : assignments? values = some assignments) :
    exec? t (.conditional (.update (bytes "informer") values) condition none) =
      some (t.mapValues fun row =>
        if selects (bytes "informer") condition row then assign assignments row.values else row.values) := by
  simp [exec?, names, resolved]

/-- An INSERT whose first column is the id. -/
theorem row?_id {columns : List Bytes} {fields : List Field} {i : Int} {rest : List Value} {new : Row}
    (resolved : columns.mapM field? = some (.id :: fields))
    (described : row? columns (.integer i :: rest) = some new) : new.id = i := by
  unfold row? at described
  split at described
  · rw [resolved, Option.bind_some] at described
    simp only [List.zip_cons_cons, List.lookup_cons_self] at described
    split at described
    · rename_i id_lookup _
      obtain rfl := Value.integer.inj (Option.some.inj id_lookup)
      rw [← Option.some.inj described]
    · cases described
  · cases described

/-- An INSERT whose second column is the guid. -/
theorem row?_guid {columns : List Bytes} {fields : List Field} {i : Int} {guid : Bytes} {rest : List Value} {new : Row}
    (resolved : columns.mapM field? = some (.id :: .guid :: fields))
    (described : row? columns (.integer i :: .text guid :: rest) = some new) : new.guid = guid := by
  have different : (Field.guid == Field.id) = false := rfl
  unfold row? at described
  split at described
  · rw [resolved, Option.bind_some] at described
    simp only [List.zip_cons_cons, List.lookup_cons_self, List.lookup_cons, different] at described
    exact (congrArg Row.guid (Option.some.inj described)).symm
  · cases described

/-- An INSERT of an id, a guid and other columns. -/
theorem row?_eq {columns : List Bytes} {others : List Column} {i : Int} {guid : Bytes} {values : List Value}
    (resolved : columns.mapM field? = some (.id :: .guid :: others.map .other))
    (length : columns.length = values.length + 2) :
    row? columns (.integer i :: .text guid :: values) =
      some ⟨i, guid, assign (others.zip values) Column.default⟩ := by
  have named : (others.zip values).map (fun e => (Field.other e.1, e.2)) = (others.map Field.other).zip values := by
    rw [List.zip_map_left]
    rfl
  have lookups : (((others.map Field.other).zip values).filterMap fun e =>
      match e.1 with
      | .other c => some (c, e.2)
      | _ => none) = others.zip values := by
    rw [← named, List.filterMap_map]
    exact List.filterMap_some
  have different : (Field.guid == Field.id) = false := rfl
  simp [row?, length, resolved, List.lookup_cons, lookups, different]

theorem select?_limited (t : Table) {columns : List Ref} {name : Bytes} {condition : Option Condition}
    {fields : List Field} (names : known name condition = true)
    (resolved : columns.mapM (ref? name) = some fields) (limit : Nat) :
    select? t (.conditional (.select columns (bytes "informer") name) condition (some limit)) =
      some (((t.rows.filter (selects name condition)).map fun row => fields.map row.get).take limit) := by
  simp [select?, names, resolved]

/-- `SqlStatement(text)`: an error is logged and changes nothing. -/
def sqlStatement (t : Table) (text : Bytes) : Table := ((prepare text).bind (exec? t)).getD t

/-- `Sql(text)` and the rows `FetchRow` gives then; an error is logged. -/
def sqlRows (t : Table) (text : Bytes) : List (List Value) := ((prepare text).bind (select? t)).getD []

end WorkerInformer.InformerTable
