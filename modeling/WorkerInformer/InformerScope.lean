import WorkerInformer.InformerStatements

/-! Which rows one document changes. The statement is cut to the size of `buf`,
and the condition of the UPDATE comes last: what is kept can be a statement
about all rows, about the rows with any id, or about the row of another key. An
INSERT that is cut is rejected. -/
namespace WorkerInformer.InformerUpdate
open Bytes Sql Printf InformerTable

/-- The columns the UPDATE assigns, in its order. -/
def updateColumns : List Column :=
  [.title, .account, .domain, .teasersCss, .headerHtml, .footerHtml, .socialBranch, .valid, .height, .width,
    .heightBanner, .widthBanner, .capacity, .autoReload, .blinking, .shake, .blinkingReload, .shakeReload,
    .shakeMouse, .rangeShortTerm, .rangeLongTerm, .rangeContext, .rangeSearch, .retargetingCapacity,
    .userCode, .htmlNotification, .placeBranch, .retargetingBranch, .ratingDivision]

/-- The names the UPDATE assigns, as SQL folds them. -/
def updateNames : List Bytes := lower updateFirst.column :: updateMore.map fun t => lower t.column

theorem field?_updateNames : updateNames.map field? = updateColumns.map fun c => some (.other c) := by
  decide +kernel

theorem names_eq {env : Env} (p : Parsed env) :
    p.firstAssignment.name :: p.assignments.map Assignment.name = updateNames := rfl

/-- Assignments to the first of the columns are known, and the title is one of them. -/
theorem assignments?_updateNames {values : List (Bytes × Value)} (part : values.map Prod.fst <+: updateNames)
    (nonempty : values ≠ []) :
    ∃ value rest, assignments? values = some ((.title, value) :: rest) ∧ .title ∉ rest.map Prod.fst := by
  obtain ⟨after, names⟩ := part
  have resolved : values.map (fun a => field? a.1) =
      (updateColumns.take values.length).map fun c => some (.other c) := by
    have split := congrArg (List.take values.length) field?_updateNames
    rw [← names, List.map_append, List.take_append_of_le_length (by simp)] at split
    rw [List.take_of_length_le (by simp), List.map_map] at split
    rw [List.map_take, ← split]
    rfl
  obtain ⟨a, values, rfl⟩ := List.exists_cons_of_ne_nil nonempty
  refine ⟨a.2, (updateColumns.tail.take values.length).zip (values.map Prod.snd), ?_, ?_⟩
  · exact assignments?_eq resolved
  · intro again
    have assigned : Column.title ∈ updateColumns.tail := by
      obtain ⟨⟨c, value⟩, member, rfl⟩ := List.mem_map.mp again
      exact List.mem_of_mem_take (List.of_mem_zip member).1
    revert assigned
    decide

/-- What is kept of the UPDATE asks for no change outside the row with this id. -/
def Spares (key : Int) : Scope → Prop
  | .rejected => True
  | .all => False
  | .named column => field? column = none
  | .keyed other => other = key

section Scopes
variable {scope : Scope} {text : Bytes}

/-- A scope that spares the other rows leaves them as they are. -/
theorem others_kept_of_spares {key : Int}
    (described : scope.Describes (bytes "informer") [] updateNames (prepare text)) (spares : Spares key scope)
    (t : Table) {row : Row} (other : row.id ≠ key) : row ∈ (sqlStatement t text).rows ↔ row ∈ t.rows := by
  cases scope with
  | rejected =>
    have rejected : prepare text = none := described
    simp [sqlStatement, rejected]
  | all => cases spares
  | named column =>
    obtain ⟨values, -, read⟩ := described
    have unknown : known (bytes "informer") (some [[⟨.column ⟨none, column⟩, none⟩]]) = false := by
      have absent : field? column = none := spares
      simp [known, condition?, comparison?, operand?, ref?, absent]
    simp [sqlStatement, read, exec?, unknown]
  | keyed other_key =>
    obtain ⟨values, names, read⟩ := described
    obtain rfl : other_key = key := spares
    have nonempty : values ≠ [] := by
      rintro rfl
      cases names
    obtain ⟨value, rest, resolved, -⟩ := assignments?_updateNames (names ▸ List.prefix_rfl) nonempty
    have executed : sqlStatement t text = t.mapValues fun row =>
        if selects (bytes "informer") (some (keyCondition other_key)) row then
          assign ((.title, value) :: rest) row.values else row.values := by
      rw [sqlStatement, read, Option.bind_some, exec?_update t rfl (by simpa using resolved), Option.getD_some]
    rw [executed]
    apply t.mem_mapValues_of_unchanged
    intro old _ same
    rw [selects_key, if_neg (by simpa [same] using other)]

/-- Of the other scopes each is about some other id. -/
private theorem changes_of_not_spares {key : Int} (named : ∀ column, scope = .named column →
      field? column = none ∨ column = bytes "id")
    (described : scope.Describes (bytes "informer") [] updateNames (prepare text))
    (not_spares : ¬ Spares key scope) :
    ∃ other ≠ key, ∃ values condition,
      prepare text = some (.conditional (.update (bytes "informer") values) condition none) ∧
      values.map Prod.fst <+: updateNames ∧ values ≠ [] ∧ known (bytes "informer") condition = true ∧
      ∀ row : Row, row.id = other → selects (bytes "informer") condition row = true := by
  have nonempty {values : List (Bytes × Value)} (names : values.map Prod.fst = updateNames) : values ≠ [] := by
    rintro rfl
    cases names
  cases scope with
  | rejected => exact absurd trivial not_spares
  | all =>
    obtain ⟨values, part, some_value, read⟩ := described
    exact ⟨key + 1, by omega, values, none, read, part, some_value, rfl, fun _ _ => rfl⟩
  | named column =>
    obtain ⟨values, names, read⟩ := described
    obtain rfl : column = bytes "id" := (named column rfl).resolve_left not_spares
    refine ⟨if key = 1 then 2 else 1, by split <;> omega, values, _, read, names ▸ List.prefix_rfl, nonempty names, rfl, ?_⟩
    intro row id
    have evaluated : condition? (bytes "informer") row [[⟨.column ⟨none, bytes "id"⟩, none⟩]] =
        some (or3 (some false) (and3 (some true) (some (decide (row.id ≠ 0))))) := rfl
    have some_id : row.id ≠ 0 := by
      rw [id]
      split <;> omega
    simp [selects, evaluated, some_id, and3, or3]
  | keyed other =>
    obtain ⟨values, names, read⟩ := described
    refine ⟨other, not_spares, values, _, read, names ▸ List.prefix_rfl, nonempty names, rfl, ?_⟩
    intro row id
    rw [selects_key]
    exact decide_eq_true id

/-- A table with two rows. -/
def twoRows (first second : Row) (ids : first.id ≠ second.id) (guids : first.guid ≠ second.guid) : Table where
  rows := [first, second]
  ids := by simpa using ids
  guids := by simpa using guids

/-- A scope that does not spare them changes another row of some table. -/
theorem other_changed_of_not_spares {key : Int} (named : ∀ column, scope = .named column →
      field? column = none ∨ column = bytes "id")
    (described : scope.Describes (bytes "informer") [] updateNames (prepare text))
    (not_spares : ¬ Spares key scope) :
    ∃ t : Table, (∃ row ∈ t.rows, row.id = key) ∧
      ∃ row ∈ t.rows, row.id ≠ key ∧ row ∉ (sqlStatement t text).rows := by
  obtain ⟨other, different, values, condition, read, part, nonempty, names, selected⟩ :=
    changes_of_not_spares named described not_spares
  obtain ⟨value, rest, resolved, once⟩ := assignments?_updateNames part nonempty
  let title : Value := if value = .null then .integer 0 else .null
  let changed : Row := ⟨other, bytes "b", fun _ => title⟩
  refine ⟨twoRows ⟨key, bytes "a", Column.default⟩ changed (Ne.symm different)
      (show bytes "a" ≠ bytes "b" by decide),
    ⟨_, List.mem_cons_self, rfl⟩, changed, by simp [twoRows], different, ?_⟩
  rw [sqlStatement, read, Option.bind_some, exec?_update _ names resolved, Option.getD_some]
  apply Table.not_mem_mapValues _ (by simp [twoRows])
  rw [if_pos (selected changed rfl)]
  intro same
  have title_same := congrFun same .title
  rw [assign_first once] at title_same
  change value = title at title_same
  by_cases null : value = .null
  · simp [title, null] at title_same
  · simp [title, null] at title_same

end Scopes

/-! ## One document -/

section Documents
variable {env : Env}

/-- What the kept part of the UPDATE asks for. -/
def Parsed.scope (p : Parsed env) (above : Nat → Int) : Scope :=
  scopeFrom p.firstAssignment (scopeMore 30 (toInt64 (above 0)) p.assignments)
    (sizeofBuf - 1 - updateHeader.length)

theorem scope_named (p : Parsed env) (above : Nat → Int) (column : Bytes)
    (named : p.scope above = .named column) : field? column = none ∨ column = bytes "id" := by
  have kinds : column = bytes "i" ∨ column = bytes "id" := scopeFrom_named (fun k => scopeMore_named _ k) named
  rcases kinds with rfl | rfl
  · exact Or.inl (by decide)
  · exact Or.inr rfl

/-- What is kept of the UPDATE is read behind its header, which is kept whole. -/
theorem prepare_update (p : Parsed env) (above : Nat → Int) :
    prepare (p.statement above true) =
      (Reader.feed ⟨.start, .set (bytes "informer") []⟩ ((p.firstAssignment.text ++
        (moreAssignments p.assignments ++ keyTail 30 (toInt64 (above 0)))).take
          (sizeofBuf - 1 - updateHeader.length))).finish := by
  have text := updateText_eq p above
  have kept : p.statement above true = (updateHeader ++ (p.firstAssignment.text ++
      (moreAssignments p.assignments ++ keyTail 30 (toInt64 (above 0))))).take (sizeofBuf - 1) := by
    rw [Parsed.statement, if_pos rfl, text, Option.map_some, Option.getD_some]
  have long : updateHeader.length ≤ sizeofBuf - 1 := by
    rw [updateHeader_length]
    simp [sizeofBuf]
  rw [kept, prepare_take (updateText_nulFree text) feed_updateHeader long]

/-- The scope is that of the statement in `buf`. -/
theorem scope_describes (p : Parsed env) (above : Nat → Int) :
    (p.scope above).Describes (bytes "informer") [] updateNames (prepare (p.statement above true)) := by
  rw [prepare_update, ← names_eq p]
  exact describes_update (bytes "informer") (by decide) _ p.firstAssignment p.assignments _

/-- What is kept of the INSERT is rejected, or it is the whole. -/
theorem prepare_insert (p : Parsed env) (above : Nat → Int) :
    prepare (p.statement above false) = none ∨
      ∃ read, readValues (p.firstListed :: p.listed above) = some read ∧
        prepare (p.statement above false) = some (.insertOrIgnore (bytes "informer") insertColumns read) := by
  have text := insertText_eq p above
  have kept : p.statement above false = (insertHeader ++ (p.firstListed.text ++
      (moreValues (p.listed above) ++ insertTail))).take (sizeofBuf - 1) := by
    rw [Parsed.statement, if_neg Bool.false_ne_true, text, Option.map_some, Option.getD_some]
  have long : insertHeader.length ≤ sizeofBuf - 1 := by
    rw [insertHeader_length]
    simp [sizeofBuf]
  rw [kept, prepare_take (insertText_nulFree text) feed_insertHeader long]
  exact insert_cut (bytes "informer") insertColumns p.firstListed (p.listed above) _

theorem insertColumns_fields : insertColumns.mapM field? = some (.id :: .guid :: updateColumns.map Field.other) := by
  decide +kernel

theorem firstListed_value (p : Parsed env) : p.firstListed.written.value? = some (.integer p.longId.toInt) := by
  rw [← toInt64_toInt p.longId]
  exact Written.ofInt_value _

/-- An INSERT, whole or cut, changes no other row. -/
theorem others_kept_of_insert (p : Parsed env) (above : Nat → Int) (t : Table) {row : Row}
    (other : row.id ≠ p.longId.toInt) :
    row ∈ (sqlStatement t (p.statement above false)).rows ↔ row ∈ t.rows := by
  rcases prepare_insert p above with rejected | ⟨values, all, accepted⟩
  · rw [sqlStatement, rejected]
    rfl
  · rw [sqlStatement, accepted, Option.bind_some]
    obtain ⟨value, rest, is_id, -, rfl⟩ := readValues_cons all
    obtain rfl : value = .integer p.longId.toInt := Option.some.inj (is_id.symm.trans (firstListed_value p))
    cases new : row? insertColumns (.integer p.longId.toInt :: rest) with
    | none => simp [exec?, new]
    | some inserted =>
      have id := row?_id insertColumns_fields new
      simp only [exec?, new, ↓reduceIte, Option.map_some, Option.getD_some]
      exact t.mem_insertOrIgnore_of_ne (by rwa [id])

theorem parse?_guidInt {x : Document} {p : Parsed env} (parsed : parse? env x = some (some p)) :
    guidInt? x = some p.longId := by
  obtain ⟨guid, -, rest⟩ := Option.bind_eq_some_iff.mp parsed
  split at rest
  · cases rest
  · obtain ⟨longId, is_longId, fields⟩ := Option.bind_eq_some_iff.mp rest
    obtain ⟨read, -, same⟩ := Option.map_eq_some_iff.mp fields
    rw [is_longId, ← Option.some.inj same]

/-- One pass of the loop. -/
theorem informerUpdate_one {x : Document} {p : Parsed env} (parsed : parse? env x = some (some p))
    (above : Nat → Nat → Int) (t : Table) : informerUpdate env above t [x] = p.store (above 0) t := by
  simp [informerUpdate, parsed]

/-- **One document changes no other row of any table exactly when the kept part
of its UPDATE spares them.** The kept part does when it is rejected, asks for an
unknown column, or still has its own key in the condition. -/
theorem others_kept_iff (env : Env) (x : Document) (above : Nat → Nat → Int) :
    (∀ (t : Table) (row : Row), (∀ longId, guidInt? x = some longId → row.id ≠ longId.toInt) →
      (row ∈ (informerUpdate env above t [x]).rows ↔ row ∈ t.rows)) ↔
    ∀ p, parse? env x = some (some p) → Spares p.longId.toInt (p.scope (above 0)) := by
  constructor
  · intro kept p parsed
    by_contra not_spares
    obtain ⟨t, has_row, row, member, other, gone⟩ :=
      other_changed_of_not_spares (scope_named p (above 0)) (scope_describes p (above 0)) not_spares
    have same := kept t row (by
      intro longId is_longId
      rw [parse?_guidInt parsed] at is_longId
      rwa [← Option.some.inj is_longId])
    rw [informerUpdate_one parsed, Parsed.store, (find_iff t p.longId).mpr has_row] at same
    exact gone (same.mpr member)
  · intro spares t row other
    cases parsed : parse? env x with
    | none => simp [informerUpdate, parsed]
    | some read =>
      cases read with
      | none => simp [informerUpdate, parsed]
      | some p =>
        have other_id := other p.longId (parse?_guidInt parsed)
        rw [informerUpdate_one parsed, Parsed.store]
        cases find t p.longId with
        | true => exact others_kept_of_spares (scope_describes p (above 0)) (spares p parsed) t other_id
        | false => exact others_kept_of_insert p (above 0) t other_id

end Documents

/-! ## A title that ends with the buffer -/

/-- Exact numbers, written with six digits after the point. -/
def exactFloats : Floats where
  Double := ℚ
  ofNumber := id
  fixed x :=
    let millionths := (x.num.natAbs * 10 ^ 6) / x.den
    .finite (decide (x < 0)) ⟨decimal (millionths / 10 ^ 6),
      some (digitsFrom 6 (millionths % 10 ^ 6 + 10 ^ 6)), decimal_ne_nil _, decimal_isDigit _,
      fun _ same => Option.some.inj same ▸ digitsFrom_isDigit _ _⟩
  scaled capacity x := UInt32.ofNat (Document.truncate (capacity.toInt * x)).toNat

def exactEnv : Env where
  floats := exactFloats
  rangeShortTerm := (100 : ℚ)
  rangeLongTerm := (50 : ℚ)
  rangeContext := (40 : ℚ)
  rangeSearch := (30 : ℚ)
  retargetingPercentage := 50
  minifyhtml := id

/-- A document of the main database with this title. -/
def document (title : Bytes) : Document :=
  .object [(bytes "guid", .string (bytes "A1B2")), (bytes "guid_int", .number 17),
    (bytes "title", .string title), (bytes "user", .string (bytes "user")),
    (bytes "domain", .string (bytes "example.com")), (bytes "css", .string (bytes "a{}")),
    (bytes "admaker", .object [(bytes "Main", .object [(bytes "itemsNumber", .number 2)]),
      (bytes "MainHeader", .object [(bytes "html", .string (bytes "<b>"))]),
      (bytes "MainFooter", .object [(bytes "html", .string (bytes "</b>"))])]),
    (bytes "nonRelevant", .object [(bytes "action", .string (bytes "social")),
      (bytes "userCode", .string (bytes ""))]),
    (bytes "height", .number 250), (bytes "width", .number 300), (bytes "height_banner", .number 100),
    (bytes "width_banner", .number 90), (bytes "blinking_reload", .boolean false),
    (bytes "shake_reload", .boolean false), (bytes "shake_mouse", .boolean true),
    (bytes "html_notification", .boolean true), (bytes "plase_branch", .boolean true),
    (bytes "retargeting_branch", .boolean false)]

/-- The document as the loop reads it. -/
def parsedDocument (title : Bytes) : Parsed exactEnv where
  id := bytes "a1b2"
  longId := 17
  fields := {
    title := title
    account := bytes "user"
    domain := bytes "example.com"
    css := bytes "a{}"
    headerHtml := bytes "<b>"
    footerHtml := bytes "</b>"
    socialBranch := 1
    height := 250
    width := 300
    heightBanner := 100
    widthBanner := 90
    capacity := 2
    autoReload := 0
    blinking := 0
    shake := 0
    blinkingReload := false
    shakeReload := false
    shakeMouse := true
    rangeShortTerm := (100 : ℚ)
    rangeLongTerm := (50 : ℚ)
    rangeContext := (40 : ℚ)
    rangeSearch := (30 : ℚ)
    retargetingCapacity := 1
    userCode := []
    htmlNotification := true
    plaseBranch := true
    retargetingBranch := false
    ratingDivision := none }

theorem parse?_document (title : Bytes) : parse? exactEnv (document title) = some (some (parsedDocument title)) := by
  rfl

/-- When the title's literal ends with the buffer, what is kept changes all rows. -/
theorem prepare_title {env : Env} (p : Parsed env) (above : Nat → Int)
    (length : p.firstAssignment.text.length = sizeofBuf - 1 - updateHeader.length) :
    prepare (p.statement above true) =
      some (.conditional (.update (bytes "informer") [(bytes "title", .text (cString p.fields.title))]) none none) := by
  have read : (p.firstAssignment.written).value? = some (.text (cString p.fields.title)) := rfl
  rw [prepare_update, ← length, List.take_left, (p.firstAssignment.ready read (bytes "informer") []).finish]
  rfl

/-- Two informers without a title. -/
def twoInformers : Table :=
  twoRows ⟨17, bytes "a1b2", Column.default⟩ ⟨18, bytes "c3d4", Column.default⟩ (by decide) (by decide)

private theorem title_changes_others {title : Bytes} (letters : ∀ b ∈ title, b = 97)
    (size : title.length = 262115) :
    ¬ ∀ row : Row, (∀ longId, guidInt? (document title) = some longId → row.id ≠ longId.toInt) →
      (row ∈ (informerUpdate exactEnv (fun _ _ => 17) twoInformers [document title]).rows ↔
        row ∈ twoInformers.rows) := by
  intro kept
  have whole : cString title = title := cString_of_nulFree fun zero => absurd (letters 0 zero) (by decide)
  have length : (parsedDocument title).firstAssignment.text.length = sizeofBuf - 1 - updateHeader.length := by
    have no_quote : 39 ∉ title := fun quote => absurd (letters 39 quote) (by decide)
    have text : (parsedDocument title).firstAssignment.text =
        bytes "title=" ++ (39 :: SqlLexer.doubleQuotes (cString title) ++ [39]) := rfl
    rw [text, whole, SqlLexer.doubleQuotes_eq_self no_quote, updateHeader_length]
    simp [size, sizeofBuf, show (bytes "title=").length = 6 from rfl]
  have found : find twoInformers 17 = true := (find_iff _ _).mpr ⟨_, List.mem_cons_self, rfl⟩
  have member : ⟨18, bytes "c3d4", Column.default⟩ ∈ twoInformers.rows := by simp [twoInformers, twoRows]
  have same := kept ⟨18, bytes "c3d4", Column.default⟩ (by
    intro longId is_longId
    rw [parse?_guidInt (parse?_document title)] at is_longId
    rw [← Option.some.inj is_longId]
    exact (by decide : (18 : Int) ≠ (17 : Int64).toInt))
  rw [informerUpdate_one (parse?_document title), Parsed.store,
    show find twoInformers (parsedDocument title).longId = true from found, sqlStatement,
    prepare_title _ _ length, Option.bind_some, exec?_update _ rfl rfl, Option.getD_some] at same
  refine Table.not_mem_mapValues _ member ?_ (same.mpr member)
  intro stored
  have title_stored := congrFun stored .title
  cases title_stored

/-- A title of 262115 letters is stored in the rows of all informers. -/
theorem long_title_changes_others :
    ¬ ∀ row : Row, (∀ longId, guidInt? (document (List.replicate 262115 97)) = some longId →
        row.id ≠ longId.toInt) →
      (row ∈ (informerUpdate exactEnv (fun _ _ => 17) twoInformers [document (List.replicate 262115 97)]).rows ↔
        row ∈ twoInformers.rows) :=
  title_changes_others (fun _ => List.eq_of_mem_replicate) List.length_replicate

end WorkerInformer.InformerUpdate
