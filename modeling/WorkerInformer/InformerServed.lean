import WorkerInformer.CoreDataBase
import WorkerInformer.InformerScope

/-! From a document of the main database to what a worker serves of it: the
statement, the row it leaves, and the informer `getInformer` builds from that
row. `rating_division` is written from a wrong argument slot, and in the UPDATE
the key as well, so the row is the document's only if those slots happen to
hold the right numbers. -/
namespace WorkerInformer.InformerUpdate
open Bytes Sql Printf InformerTable CoreDataBase

/-! ## The row a statement leaves -/

/-- The literal a written value is read as. -/
def literal (w : Written) : Value := w.value?.getD .null

theorem value?_eq_literal {w : Written} (number : w.isWord = false) : w.value? = some (literal w) := by
  have is_some := w.value?_isSome
  rw [number] at is_some
  obtain ⟨value, read⟩ := Option.isSome_iff_exists.mp is_some
  rw [literal, read, Option.getD_some]

theorem literal_ofInt (i : Int) : literal (.ofInt i) = .integer i := by
  rw [literal, Written.ofInt_value, Option.getD_some]

theorem readAll_eq {assignments : List Assignment} (literals : ∀ a ∈ assignments, a.written.isWord = false) :
    readAll assignments = some (assignments.map fun a => (a.name, literal a.written)) := by
  induction assignments with
  | nil => rfl
  | cons a rest ih =>
    have first := value?_eq_literal (literals a List.mem_cons_self)
    have later := ih fun b member => literals b (List.mem_cons_of_mem a member)
    simp only [readAll] at later
    simp [readAll, List.mapM_cons, first, later]

theorem readValues_eq {values : List ListedValue} (literals : ∀ v ∈ values, v.written.isWord = false) :
    readValues values = some (values.map fun v => literal v.written) := by
  induction values with
  | nil => rfl
  | cons v rest ih =>
    have first := value?_eq_literal (literals v List.mem_cons_self)
    have later := ih fun w member => literals w (List.mem_cons_of_mem v member)
    simp only [readValues] at later
    simp [readValues, List.mapM_cons, first, later]

theorem value?_of_readValues {values : List ListedValue} {read : List Value} (all : readValues values = some read)
    {v : ListedValue} (member : v ∈ values) : ∃ value, v.written.value? = some value := by
  induction values generalizing read with
  | nil => cases member
  | cons w rest ih =>
    obtain ⟨first, later, is_first, is_later, rfl⟩ := readValues_cons all
    rcases List.mem_cons.mp member with rfl | in_rest
    · exact ⟨first, is_first⟩
    · exact ih is_later in_rest

section Rows
variable {env : Env} (p : Parsed env)

/-- The column values of the document's row, with this `rating_division`; the
UPDATE and the INSERT leave `nonrelevant` alone. -/
def Parsed.stored (rating : Int) (before : Column → Value) : Column → Value
  | .title => .text (cString p.fields.title)
  | .account => .text (cString p.fields.account)
  | .domain => .text (cString p.fields.domain)
  | .teasersCss => .text (cString p.fields.css)
  | .headerHtml => .text (cString p.fields.headerHtml)
  | .footerHtml => .text (cString p.fields.footerHtml)
  | .nonrelevant => before .nonrelevant
  | .userCode => .text (cString p.fields.userCode)
  | .autoReload => .integer p.fields.autoReload.toInt
  | .blinking => .integer p.fields.blinking.toInt
  | .shake => .integer p.fields.shake.toInt
  | .blinkingReload => .integer (if p.fields.blinkingReload then 1 else 0)
  | .shakeReload => .integer (if p.fields.shakeReload then 1 else 0)
  | .shakeMouse => .integer (if p.fields.shakeMouse then 1 else 0)
  | .capacity => .integer p.fields.capacity.toInt
  | .valid => .integer 1
  | .htmlNotification => .integer (if p.fields.htmlNotification then 1 else 0)
  | .placeBranch => .integer (if p.fields.plaseBranch then 1 else 0)
  | .retargetingBranch => .integer (if p.fields.retargetingBranch then 1 else 0)
  | .socialBranch => .integer p.fields.socialBranch.toInt
  | .height => .integer p.fields.height.toInt
  | .width => .integer p.fields.width.toInt
  | .heightBanner => .integer p.fields.heightBanner.toInt
  | .widthBanner => .integer p.fields.widthBanner.toInt
  | .rangeShortTerm => Column.store .rangeShortTerm (literal (.ofFixed (env.floats.fixed p.fields.rangeShortTerm)))
  | .rangeLongTerm => Column.store .rangeLongTerm (literal (.ofFixed (env.floats.fixed p.fields.rangeLongTerm)))
  | .rangeContext => Column.store .rangeContext (literal (.ofFixed (env.floats.fixed p.fields.rangeContext)))
  | .rangeSearch => Column.store .rangeSearch (literal (.ofFixed (env.floats.fixed p.fields.rangeSearch)))
  | .retargetingCapacity => .integer p.fields.retargetingCapacity.toNat
  | .ratingDivision => .integer rating

/-- Assigning the written values to their columns. -/
theorem assign_written (rating : Int) (before : Column → Value) :
    assign (updateColumns.zip (literal (.quoted (cString p.fields.title)) ::
      (p.written ++ [Written.ofInt rating]).map literal)) before = p.stored rating before := by
  simp only [Parsed.written, List.map_cons, List.map_append, List.map_nil, literal_ofInt, toInt32_toInt,
    toInt32_bool, toUInt32_toNat]
  funext c
  cases c <;> rfl

/-- The ranges are written as numbers. -/
def Parsed.RangesFinite : Prop :=
  ∀ x ∈ [p.fields.rangeShortTerm, p.fields.rangeLongTerm, p.fields.rangeContext, p.fields.rangeSearch],
    (Written.ofFixed (env.floats.fixed x)).isWord = false

/-- Only a range can be written as a word. -/
theorem any_isWord_iff (rating : Int) :
    (p.written ++ [Written.ofInt rating]).any Written.isWord = true ↔ ¬ p.RangesFinite := by
  have number (i : Int) : (Written.ofInt i).isWord = false := rfl
  have text (t : Bytes) : (Written.quoted t).isWord = false := rfl
  simp [Parsed.written, Parsed.RangesFinite, number, text]
  grind

theorem assignments_written :
    p.assignments.map Assignment.written = p.written ++ [.ofInt (toInt32 p.longId.toInt)] := rfl

theorem listed_written (above : Nat → Int) : (p.listed above).map ListedValue.written =
    .quoted (cString p.id) :: .quoted (cString p.fields.title) :: (p.written ++ [.ofInt (toInt32 (above 0))]) := rfl

/-- Neither statement is cut to the size of `buf`. -/
def Parsed.Fits (above : Nat → Int) : Prop :=
  ∀ text, p.updateText above = some text ∨ p.insertText above = some text → text.length < sizeofBuf

variable {p} {above : Nat → Int}

theorem updateStatement_of_fits (fits : p.Fits above) : p.statement above true = updateHeader ++
    (p.firstAssignment.text ++ (moreAssignments p.assignments ++ keyTail 30 (toInt64 (above 0)))) := by
  have text := updateText_eq p above
  rw [Parsed.statement, if_pos rfl, text, Option.map_some, Option.getD_some,
    List.take_of_length_le (Nat.le_sub_one_of_lt (fits _ (Or.inl text)))]

theorem insertStatement_of_fits (fits : p.Fits above) : p.statement above false = insertHeader ++
    (p.firstListed.text ++ (moreValues (p.listed above) ++ insertTail)) := by
  have text := insertText_eq p above
  rw [Parsed.statement, if_neg Bool.false_ne_true, text, Option.map_some, Option.getD_some,
    List.take_of_length_le (Nat.le_sub_one_of_lt (fits _ (Or.inr text)))]

/-- The whole UPDATE changes the row whose id is the key it was given. -/
theorem update_of_fits (fits : p.Fits above) (finite : p.RangesFinite) (t : Table) :
    sqlStatement t (p.statement above true) = t.mapValues fun row =>
      if row.id = toInt64 (above 0) then p.stored (toInt32 p.longId.toInt) row.values else row.values := by
  have literals : ∀ a ∈ p.assignments, a.written.isWord = false := by
    intro a member
    have no_word := mt (any_isWord_iff p (toInt32 p.longId.toInt)).mp (not_not.mpr finite)
    rw [← assignments_written] at no_word
    simpa using mt (fun word => List.any_eq_true.mpr ⟨a.written, List.mem_map_of_mem member, word⟩) no_word
  have ready := ready_more (readAll_eq literals) (p.firstAssignment.ready (show _ = some _ from rfl)
    (bytes "informer") [])
  have read : prepare (p.statement above true) = some (.conditional (.update (bytes "informer")
      ((p.firstAssignment.name, literal p.firstAssignment.written) ::
        p.assignments.map fun a => (a.name, literal a.written))) (some (keyCondition (toInt64 (above 0)))) none) := by
    rw [updateStatement_of_fits fits, prepare_eq_reader (updateText_nulFree (updateText_eq p above)),
      Reader.feed_append, feed_updateHeader, Reader.feed_append, Reader.feed_append]
    exact finish_keyTail ready 30 (by decide) _
  have resolved : assignments? ((p.firstAssignment.name, literal p.firstAssignment.written) ::
      p.assignments.map fun a => (a.name, literal a.written)) = some (updateColumns.zip
        (literal (.quoted (cString p.fields.title)) ::
          (p.written ++ [Written.ofInt (toInt32 p.longId.toInt)]).map literal)) := assignments?_eq rfl
  rw [sqlStatement, read, Option.bind_some, exec?_update t rfl resolved, Option.getD_some]
  refine congrArg t.mapValues (funext fun row => ?_)
  rw [selects_key, assign_written]
  by_cases same : row.id = toInt64 (above 0)
  · rw [if_pos (decide_eq_true same), if_pos same]
  · rw [if_neg (by simpa using same), if_neg same]

/-- An UPDATE with a range that is no number is rejected. -/
theorem update_of_word (fits : p.Fits above) (word : ¬ p.RangesFinite) (t : Table) :
    sqlStatement t (p.statement above true) = t := by
  have rejected : p.scope above = .rejected := by
    have length := fits _ (Or.inl (updateText_eq p above))
    simp only [List.length_append] at length
    have tail : 0 < (keyTail 30 (toInt64 (above 0))).length := by simp [keyTail, spaces]
    have words := (any_isWord_iff p (toInt32 p.longId.toInt)).mpr word
    rw [← assignments_written, List.any_map] at words
    rw [Parsed.scope, scopeFrom_whole (by omega), scopeMore_whole _ (by rw [List.length_append]; omega)]
    exact if_pos words
  have described := scope_describes p above
  rw [rejected] at described
  rw [sqlStatement, show prepare (p.statement above true) = none from described]
  rfl

/-- The row the whole INSERT describes. -/
def Parsed.row (p : Parsed env) (above : Nat → Int) : Row :=
  ⟨p.longId.toInt, cString p.id, p.stored (toInt32 (above 0)) Column.default⟩

theorem insert_of_fits (fits : p.Fits above) (finite : p.RangesFinite) (t : Table) :
    sqlStatement t (p.statement above false) = t.insertOrIgnore (p.row above) := by
  have literals : ∀ v ∈ p.firstListed :: p.listed above, v.written.isWord = false := by
    have no_word := mt (any_isWord_iff p (toInt32 (above 0))).mp (not_not.mpr finite)
    intro v member
    rcases List.mem_cons.mp member with rfl | later
    · rfl
    · have written := List.mem_map_of_mem (f := ListedValue.written) later
      rw [listed_written] at written
      rcases List.mem_cons.mp written with quoted | written
      · rw [quoted]
        rfl
      · rcases List.mem_cons.mp written with quoted | written
        · rw [quoted]
          rfl
        · simpa using mt (fun word => List.any_eq_true.mpr ⟨v.written, written, word⟩) no_word
  have read : prepare (p.statement above false) = some (.insertOrIgnore (bytes "informer") insertColumns
      ((p.firstListed :: p.listed above).map fun v => literal v.written)) := by
    rw [insertStatement_of_fits fits, prepare_eq_reader (insertText_nulFree (insertText_eq p above)),
      Reader.feed_append, feed_insertHeader]
    exact finish_insert (readValues_eq literals)
  have described : row? insertColumns ((p.firstListed :: p.listed above).map fun v => literal v.written) =
      some (p.row above) := by
    have values : (p.firstListed :: p.listed above).map (fun v => literal v.written) =
        .integer p.longId.toInt :: .text (cString p.id) :: literal (.quoted (cString p.fields.title)) ::
          (p.written ++ [Written.ofInt (toInt32 (above 0))]).map literal := by
      rw [← toInt64_toInt p.longId, ← literal_ofInt]
      rfl
    rw [values, row?_eq insertColumns_fields rfl, assign_written]
    rfl
  rw [sqlStatement, read, Option.bind_some, exec?, if_pos rfl, described, Option.map_some, Option.getD_some]

/-- An INSERT with a range that is no number is rejected. -/
theorem insert_of_word (word : ¬ p.RangesFinite) (t : Table) :
    sqlStatement t (p.statement above false) = t := by
  rcases prepare_insert p above with rejected | ⟨values, all, -⟩
  · rw [sqlStatement, rejected]
    rfl
  · obtain ⟨w, written, is_word⟩ := List.any_eq_true.mp ((any_isWord_iff p (toInt32 (above 0))).mpr word)
    have listed : w ∈ (p.listed above).map ListedValue.written := by
      rw [listed_written]
      exact List.mem_cons_of_mem _ (List.mem_cons_of_mem _ written)
    obtain ⟨v, member, rfl⟩ := List.mem_map.mp listed
    obtain ⟨value, read⟩ := value?_of_readValues all (List.mem_cons_of_mem _ member)
    have is_some := v.written.value?_isSome
    simp [read, is_word] at is_some

end Rows

/-! ## What is served -/

/-- The informer shows what the document says, as the loop reads it. -/
structure Serves {env : Env} (p : Parsed env) (informer : Informer) : Prop where
  id : informer.id = p.longId.toInt
  guid : informer.guid = p.id
  title : informer.title = p.fields.title
  account : informer.account = p.fields.account
  domain : informer.domain = p.fields.domain
  capacity : informer.capacity = p.fields.capacity.toInt
  autoReload : informer.autoReload = p.fields.autoReload.toInt
  blinking : informer.blinking = p.fields.blinking.toInt
  shake : informer.shake = p.fields.shake.toInt
  blinkingReload : informer.blinkingReload = p.fields.blinkingReload
  shakeReload : informer.shakeReload = p.fields.shakeReload
  shakeMouse : informer.shakeMouse = p.fields.shakeMouse
  teasersCss : informer.teasersCss = p.fields.css
  headerHtml : informer.headerHtml = p.fields.headerHtml
  footerHtml : informer.footerHtml = p.fields.footerHtml
  retargetingCapacity : informer.retargetingCapacity = p.fields.retargetingCapacity.toNat
  socialBranch : informer.socialBranch = decide (p.fields.socialBranch ≠ 0)
  userCode : informer.userCode = p.fields.userCode
  htmlNotification : informer.htmlNotification = p.fields.htmlNotification
  plaseBranch : informer.plaseBranch = p.fields.plaseBranch
  retargetingBranch : informer.retargetingBranch = p.fields.retargetingBranch
  ratingDivision : informer.ratingDivision = Document.truncate (p.fields.ratingDivision.getD 1000)

/-- What the main database keeps to: no NUL in a text, no quote in the guid, no
negative number. -/
structure WellFormed {env : Env} (p : Parsed env) : Prop where
  nulFree : ∀ s ∈ [p.id, p.fields.title, p.fields.account, p.fields.domain, p.fields.css, p.fields.headerHtml,
    p.fields.footerHtml, p.fields.userCode], NulFree s
  no_quote : 39 ∉ p.id
  nonneg : ∀ i ∈ [p.fields.capacity, p.fields.autoReload, p.fields.blinking, p.fields.shake], 0 ≤ i.toInt

/-- The number read from a wrong slot is the document's `rating_division`. -/
def RatingKept {env : Env} (p : Parsed env) (slot : Int) : Prop :=
  toInt32 slot = Document.truncate (p.fields.ratingDivision.getD 1000)

theorem toInt32_toInt32 (i : Int) : toInt32 (toInt32 i) = toInt32 i := by
  simp only [toInt32]
  exact Int.bmod_bmod

theorem getColumnUnsigned_integer {i : Int32} (nonneg : 0 ≤ i.toInt) :
    (getColumnUnsigned (.integer i.toInt) : Int) = i.toInt := by
  have small := i.toInt_lt
  simp only [getColumnUnsigned, getColumnInt, getColumnInt64, toInt32_toInt, toUInt32]
  omega

theorem getColumnBool_integer (b : Bool) : getColumnBool (.integer (if b then 1 else 0)) = b := by
  cases b <;> rfl

theorem getColumnBool_toInt (i : Int32) : getColumnBool (.integer i.toInt) = decide (i ≠ 0) := by
  have zero : i.toInt = 0 ↔ i = 0 := Int32.toInt_inj (y := 0)
  simp [getColumnBool, getColumnInt, getColumnInt64, toInt32_toInt, zero]

/-- An `unsigned int` comes back whole from the `int` it is read as. -/
theorem getColumnUnsigned_toNat (n : UInt32) : getColumnUnsigned (.integer n.toNat) = n.toNat := by
  have small := n.toNat_lt
  simp only [getColumnUnsigned, getColumnInt, getColumnInt64, toInt32, toUInt32, Int.bmod_def]
  omega

section Served
variable {env : Env} {p : Parsed env}

/-- The document's row serves the document exactly when its rating is kept. -/
theorem serves_stored_iff (wellFormed : WellFormed p) (rangeCategory : Value) (slot : Int)
    (before : Column → Value) :
    Serves p (Informer.ofRow rangeCategory ⟨p.longId.toInt, p.id, p.stored (toInt32 slot) before⟩) ↔
      RatingKept p slot := by
  obtain ⟨nulFree, -, nonneg⟩ := wellFormed
  have text {s : Bytes} (member : s ∈ [p.id, p.fields.title, p.fields.account, p.fields.domain, p.fields.css,
      p.fields.headerHtml, p.fields.footerHtml, p.fields.userCode]) : cString s = s :=
    cString_of_nulFree (nulFree s member)
  have served_capacity : (Informer.ofRow rangeCategory
      ⟨p.longId.toInt, p.id, p.stored (toInt32 slot) before⟩).retargetingCapacity =
        getColumnUnsigned (.integer p.fields.retargetingCapacity.toNat) := by
    simp only [Informer.ofRow, Parsed.stored]
  have served_rating : getColumnInt (.integer (toInt32 slot)) = toInt32 slot := toInt32_toInt32 slot
  constructor
  · intro serves
    exact served_rating.symm.trans serves.ratingDivision
  · intro rating
    exact {
      id := rfl
      guid := rfl
      title := text (by simp)
      account := text (by simp)
      domain := text (by simp)
      capacity := getColumnUnsigned_integer (nonneg _ (by simp))
      autoReload := getColumnUnsigned_integer (nonneg _ (by simp))
      blinking := getColumnUnsigned_integer (nonneg _ (by simp))
      shake := getColumnUnsigned_integer (nonneg _ (by simp))
      blinkingReload := getColumnBool_integer _
      shakeReload := getColumnBool_integer _
      shakeMouse := getColumnBool_integer _
      teasersCss := text (by simp)
      headerHtml := text (by simp)
      footerHtml := text (by simp)
      retargetingCapacity := served_capacity.trans (getColumnUnsigned_toNat _)
      socialBranch := getColumnBool_toInt _
      userCode := text (by simp)
      htmlNotification := getColumnBool_integer _
      plaseBranch := getColumnBool_integer _
      retargetingBranch := getColumnBool_integer _
      ratingDivision := served_rating.trans rating }

/-- The guid of a document that fits `buf` fits the SELECT of `getInformer`. -/
theorem getInformer_of_fits {above : Nat → Int} (wellFormed : WellFormed p) (fits : p.Fits above)
    (rangeCategory : Value) (t : Table) : getInformer rangeCategory t p.id =
      (t.rows.find? fun row => row.guid = p.id).map (Informer.ofRow rangeCategory) := by
  have nulFree : NulFree p.id := wellFormed.nulFree _ (by simp)
  have length := fits _ (Or.inr (insertText_eq p above))
  have short : p.id.length ≤ (moreValues (p.listed above)).length := by
    obtain ⟨rest, listed⟩ : ∃ rest, p.listed above = ⟨0, .quoted (cString p.id)⟩ :: rest := ⟨_, rfl⟩
    rw [listed, cString_of_nulFree nulFree]
    simp [moreValues, ListedValue.text, Written.text, SqlLexer.doubleQuotes_eq_self wellFormed.no_quote]
    omega
  have fits_cmd : (formatted p.id).length < CMD_SIZE := by
    rw [formatted_length, cString_of_nulFree nulFree]
    simp only [List.length_append, sizeofBuf, CMD_SIZE] at length ⊢
    omega
  exact getInformer_of_prepare fits_cmd (prepare_formatted nulFree wellFormed.no_quote) rangeCategory t

/-- When the INSERT leaves the document's row. -/
def InsertKeeps (p : Parsed env) (above : Nat → Int) : Prop :=
  p.RangesFinite ∧ RatingKept p (above 0)

/-- When the UPDATE leaves the document's row: it is accepted, its key happens to
be the document's and the rating is kept, or it changes another row or none and
the row was the document's already. -/
def UpdateKeeps (p : Parsed env) (above : Nat → Int) (t : Table) (rangeCategory : Value) : Prop :=
  (p.RangesFinite ∧ toInt64 (above 0) = p.longId.toInt ∧ RatingKept p p.longId.toInt) ∨
    (¬ (p.RangesFinite ∧ toInt64 (above 0) = p.longId.toInt) ∧
      ∃ row ∈ t.rows, row.guid = p.id ∧ Serves p (Informer.ofRow rangeCategory row))

variable {above : Nat → Int} {t : Table}

private theorem served_of_insert (wellFormed : WellFormed p) (fits : p.Fits above)
    (absent : ∀ row ∈ t.rows, row.id ≠ p.longId.toInt ∧ row.guid ≠ p.id) (rangeCategory : Value) :
    (∃ row ∈ (sqlStatement t (p.statement above false)).rows, row.guid = p.id ∧
      Serves p (Informer.ofRow rangeCategory row)) ↔ InsertKeeps p above := by
  have id : cString p.id = p.id := cString_of_nulFree (wellFormed.nulFree _ (by simp))
  by_cases finite : p.RangesFinite
  · have inserted : (t.insertOrIgnore (p.row above)).rows = t.rows ++ [p.row above] := by
      have free : (p.row above).id ∉ t.rows.map Row.id ∧ (p.row above).guid ∉ t.rows.map Row.guid := by
        simp only [List.mem_map, not_exists, not_and, Parsed.row, id]
        exact ⟨fun row member => (absent row member).1, fun row member => (absent row member).2⟩
      rw [Table.insertOrIgnore, dif_pos free]
    have new := serves_stored_iff wellFormed rangeCategory (above 0) Column.default
    rw [insert_of_fits fits finite, inserted, InsertKeeps, ← new]
    simp only [List.mem_append, List.mem_singleton]
    constructor
    · rintro ⟨row, member | rfl, guid, serves⟩
      · exact absurd guid (absent row member).2
      · rw [Parsed.row, id] at serves
        exact ⟨finite, serves⟩
    · rintro ⟨-, serves⟩
      refine ⟨p.row above, Or.inr rfl, id, ?_⟩
      rw [Parsed.row, id]
      exact serves
  · rw [insert_of_word finite]
    constructor
    · rintro ⟨row, member, guid, -⟩
      exact absurd guid (absent row member).2
    · rintro ⟨is_finite, -⟩
      exact absurd is_finite finite

private theorem served_of_update (wellFormed : WellFormed p) (fits : p.Fits above) {row : Row}
    (member : row ∈ t.rows) (id : row.id = p.longId.toInt) (guid : row.guid = p.id) (rangeCategory : Value) :
    (∃ row ∈ (sqlStatement t (p.statement above true)).rows, row.guid = p.id ∧
      Serves p (Informer.ofRow rangeCategory row)) ↔ UpdateKeeps p above t rangeCategory := by
  have only {other : Row} (other_member : other ∈ t.rows) (other_guid : other.guid = p.id) : other = row :=
    List.inj_on_of_nodup_map t.guids other_member member (other_guid.trans guid.symm)
  by_cases finite : p.RangesFinite
  · rw [update_of_fits fits finite]
    by_cases key : toInt64 (above 0) = p.longId.toInt
    · have new := serves_stored_iff wellFormed rangeCategory p.longId.toInt row.values
      simp only [UpdateKeeps, finite, key, true_and, not_true_eq_false, false_and, or_false, ← new,
        Table.mapValues, List.mem_map]
      constructor
      · rintro ⟨_, ⟨old, old_member, rfl⟩, old_guid, serves⟩
        obtain rfl := only old_member old_guid
        rwa [if_pos id, id, guid] at serves
      · intro serves
        refine ⟨_, ⟨row, member, rfl⟩, guid, ?_⟩
        rwa [if_pos id, id, guid]
    · have other_key : row.id ≠ toInt64 (above 0) := fun same => key (same.symm.trans id)
      simp only [UpdateKeeps, finite, key, true_and, false_and, not_false_eq_true, false_or]
      constructor
      · rintro ⟨_, changed, changed_guid, serves⟩
        obtain ⟨old, old_member, rfl⟩ := List.mem_map.mp changed
        obtain rfl := only old_member changed_guid
        simp only [if_neg other_key] at serves
        exact ⟨old, member, guid, serves⟩
      · rintro ⟨old, old_member, old_guid, serves⟩
        obtain rfl := only old_member old_guid
        refine ⟨_, List.mem_map.mpr ⟨old, member, rfl⟩, guid, ?_⟩
        simpa only [if_neg other_key] using serves
  · rw [update_of_word fits finite]
    simp [UpdateKeeps, finite]

/-- `getInformer` serves the document exactly when the table has a row that does. -/
theorem getInformer_serves_iff (wellFormed : WellFormed p) (fits : p.Fits above) (rangeCategory : Value)
    (t : Table) : (∃ informer, getInformer rangeCategory t p.id = some informer ∧ Serves p informer) ↔
      ∃ row ∈ t.rows, row.guid = p.id ∧ Serves p (Informer.ofRow rangeCategory row) := by
  rw [getInformer_of_fits wellFormed fits]
  constructor
  · rintro ⟨informer, found, serves⟩
    obtain ⟨row, first, rfl⟩ := Option.map_eq_some_iff.mp found
    exact ⟨row, List.mem_of_find?_eq_some first, by simpa using List.find?_some first, serves⟩
  · rintro ⟨row, member, guid, serves⟩
    refine ⟨_, ?_, serves⟩
    rw [← guid, t.find?_guid member, Option.map_some]

theorem parse?_id {x : Document} (parsed : parse? env x = some (some p)) : lower p.id = p.id := by
  obtain ⟨guid, -, rest⟩ := Option.bind_eq_some_iff.mp parsed
  split at rest
  · cases rest
  · obtain ⟨longId, -, fields⟩ := Option.bind_eq_some_iff.mp rest
    obtain ⟨read, -, same⟩ := Option.map_eq_some_iff.mp fields
    rw [← Option.some.inj same]
    exact lower_lower guid

/-- **A document is served as it is exactly when the wrong argument slots hold
the right numbers.** For every document that is read, has no NUL in its texts,
no quote in its guid and no negative number, whose statements fit `buf`, and
every table that pairs its guid and its `guid_int` with nothing else, after
`InformerUpdate` every spelling of the guid finds an informer with the
document's fields if and only if the UPDATE, or the INSERT, keeps them. -/
theorem document_served_iff {x : Document} (parsed : parse? env x = some (some p)) (wellFormed : WellFormed p)
    (above : Nat → Nat → Int) (fits : p.Fits (above 0))
    (paired : ∀ row ∈ t.rows, row.id = p.longId.toInt ↔ row.guid = p.id) (rangeCategory : Value) :
    (∀ scr, lower scr = p.id → ∃ informer,
      getInformer rangeCategory (informerUpdate env above t [x]) (lower scr) = some informer ∧
        Serves p informer) ↔
    if find t p.longId then UpdateKeeps p (above 0) t rangeCategory else InsertKeeps p (above 0) := by
  have spelled : (∀ scr, lower scr = p.id → ∃ informer,
      getInformer rangeCategory (informerUpdate env above t [x]) (lower scr) = some informer ∧
        Serves p informer) ↔
      ∃ row ∈ (p.store (above 0) t).rows, row.guid = p.id ∧ Serves p (Informer.ofRow rangeCategory row) := by
    rw [← getInformer_serves_iff wellFormed fits, informerUpdate_one parsed]
    constructor
    · intro every
      simpa [parse?_id parsed] using every p.id (parse?_id parsed)
    · intro served scr spelling
      rwa [spelling]
  rw [spelled, Parsed.store]
  cases found : find t p.longId with
  | true =>
    obtain ⟨row, member, id⟩ := (find_iff t p.longId).mp found
    rw [if_pos rfl]
    exact served_of_update wellFormed fits member id ((paired row member).mp id) rangeCategory
  | false =>
    have absent : ∀ row ∈ t.rows, row.id ≠ p.longId.toInt ∧ row.guid ≠ p.id := by
      intro row member
      have other : row.id ≠ p.longId.toInt := by
        intro same
        rw [(find_iff t p.longId).mpr ⟨row, member, same⟩] at found
        cases found
      exact ⟨other, mt (paired row member).mpr other⟩
    rw [if_neg Bool.false_ne_true]
    exact served_of_insert wellFormed fits absent rangeCategory

end Served

theorem wellFormed_document : WellFormed (parsedDocument (bytes "shop")) where
  nulFree := by decide +kernel
  no_quote := by decide +kernel
  nonneg i member := by
    simp only [List.mem_cons, List.not_mem_nil, or_false] at member
    rcases member with rfl | rfl | rfl | rfl <;> decide +kernel

theorem fits_document (slot : Int) (small : slot = 0 ∨ slot = 1000) :
    (parsedDocument (bytes "shop")).Fits fun _ => slot := by
  rintro text (update | insert)
  · rw [updateText_eq] at update
    rw [← Option.some.inj update]
    rcases small with rfl | rfl <;> decide +kernel
  · rw [insertText_eq] at insert
    rw [← Option.some.inj insert]
    rcases small with rfl | rfl <;> decide +kernel

/-- A first INSERT serves the document if the slot holds the default of 1000. -/
theorem document_served_inserted : ∃ informer,
    getInformer .null (informerUpdate exactEnv (fun _ _ => 1000) Table.empty [document (bytes "shop")])
      (lower (bytes "A1B2")) = some informer ∧ Serves (parsedDocument (bytes "shop")) informer := by
  have served := document_served_iff (t := Table.empty) (parse?_document (bytes "shop")) wellFormed_document
    (fun _ _ => 1000) (fits_document 1000 (Or.inr rfl)) (fun row member => absurd member List.not_mem_nil) .null
  have absent : ¬ find Table.empty (parsedDocument (bytes "shop")).longId = true := by
    simp [find_iff, Table.empty]
  rw [if_neg absent] at served
  have kept : RatingKept (parsedDocument (bytes "shop")) 1000 := by
    unfold RatingKept
    decide +kernel
  exact served.mpr ⟨fun _ _ => rfl, kept⟩ (bytes "A1B2") (by decide +kernel)

/-- A slot that holds 0 sends the UPDATE to another row: the title stays empty. -/
theorem update_misses_document :
    WellFormed (parsedDocument (bytes "shop")) ∧ (parsedDocument (bytes "shop")).Fits (fun _ => 0) ∧
      (∀ row ∈ twoInformers.rows, row.id = (17 : Int) ↔ row.guid = bytes "a1b2") ∧
      ¬ ∃ informer, getInformer .null
          (informerUpdate exactEnv (fun _ _ => 0) twoInformers [document (bytes "shop")])
          (lower (bytes "A1B2")) = some informer ∧ Serves (parsedDocument (bytes "shop")) informer := by
  refine ⟨wellFormed_document, fits_document 0 (Or.inl rfl), by decide +kernel, ?_⟩
  rintro ⟨informer, found, serves⟩
  have title : (getInformer .null (informerUpdate exactEnv (fun _ _ => 0) twoInformers [document (bytes "shop")])
      (lower (bytes "A1B2"))).map Informer.title = some [] := by decide +kernel
  rw [found, Option.map_some, serves.title] at title
  cases title

end WorkerInformer.InformerUpdate
