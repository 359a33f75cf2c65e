import WorkerInformer.IntendedEffects

/-! `ParentDB::InformerRemove` and the rows that `InformerUpdate` has stored. The
one folds a guid to lower case and doubles its quotes, the other copies it as it
is into the literal of its DELETE. A guid with a capital letter so finds no row,
and what a guid with a quote finds is for the text behind the quote to say: the
statement is then any expression that SQLite has. -/
namespace WorkerInformer.InformerRemove
open Bytes SqlLexer Sql Printf InformerTable InformerUpdate IntendedEffects

/-- The tables the worker's calls build. -/
inductive Built (sqlite : Sqlite) : Table → Prop
  | empty : Built sqlite Table.empty
  | update {t : Table} (env : Env) (above : Nat → Nat → Int) (items : List Document) :
    Built sqlite t → Built sqlite (informerUpdate env above t items)
  | remove {t : Table} (id : Bytes) : Built sqlite t → Built sqlite (informerRemove sqlite t id)

/-- The guid `InformerUpdate` stores for a document with the guid `g`, if it
stores one: `%q` writes what stands before the first NUL. -/
def storedGuid? (g : Bytes) : Option Bytes := if lower g = [] then none else some (cString (lower g))

/-- The table without the row of the document with the guid `g`. -/
def withoutDocument (t : Table) (g : Bytes) : Table := t.filter fun row => some row.guid ≠ storedGuid? g

/-! ## The guids in the table -/

theorem guids_mapValues {t : Table} {change : Row → Column → Value} {row : Row}
    (member : row ∈ (t.mapValues change).rows) : ∃ old ∈ t.rows, old.guid = row.guid := by
  obtain ⟨old, old_member, rfl⟩ := List.mem_map.mp member
  exact ⟨old, old_member, rfl⟩

/-- An UPDATE, whole or cut, brings no new guid. -/
theorem guid_of_update {env : Env} (p : Parsed env) (above : Nat → Int) {t : Table} {row : Row}
    (member : row ∈ (sqlStatement t (p.statement above true)).rows) : ∃ old ∈ t.rows, old.guid = row.guid := by
  have described := scope_describes p above
  have read : prepare (p.statement above true) = none ∨ ∃ values condition,
      prepare (p.statement above true) = some (.conditional (.update (bytes "informer") values) condition none) := by
    cases scope : p.scope above with
    | rejected =>
      rw [scope] at described
      exact Or.inl described
    | all =>
      rw [scope] at described
      obtain ⟨values, -, -, read⟩ := described
      exact Or.inr ⟨_, _, read⟩
    | named column =>
      rw [scope] at described
      obtain ⟨values, -, read⟩ := described
      exact Or.inr ⟨_, _, read⟩
    | keyed key =>
      rw [scope] at described
      obtain ⟨values, -, read⟩ := described
      exact Or.inr ⟨_, _, read⟩
  rw [sqlStatement] at member
  rcases read with rejected | ⟨values, condition, read⟩
  · rw [rejected] at member
    exact ⟨row, member, rfl⟩
  · rw [read, Option.bind_some, exec?] at member
    split at member
    · cases resolved : assignments? values with
      | none =>
        rw [resolved] at member
        exact ⟨row, member, rfl⟩
      | some assignments =>
        rw [resolved] at member
        exact guids_mapValues member
    · exact ⟨row, member, rfl⟩

/-- An INSERT, whole or cut, brings the guid of its document. -/
theorem guid_of_insert {env : Env} (p : Parsed env) (above : Nat → Int) {t : Table} {row : Row}
    (member : row ∈ (sqlStatement t (p.statement above false)).rows) :
    (∃ old ∈ t.rows, old.guid = row.guid) ∨ row.guid = cString p.id := by
  rw [sqlStatement] at member
  rcases prepare_insert p above with rejected | ⟨values, all, accepted⟩
  · rw [rejected] at member
    exact Or.inl ⟨row, member, rfl⟩
  · rw [accepted, Option.bind_some, exec?, if_pos rfl] at member
    obtain ⟨id, values, is_id, later, rfl⟩ := readValues_cons all
    obtain rfl : id = .integer p.longId.toInt := Option.some.inj (is_id.symm.trans (firstListed_value p))
    obtain ⟨guid, rest, is_guid, -, rfl⟩ := readValues_cons later
    obtain rfl : Value.text (cString p.id) = guid := Option.some.inj is_guid
    cases new : row? insertColumns (.integer p.longId.toInt :: .text (cString p.id) :: rest) with
    | none =>
      rw [new] at member
      exact Or.inl ⟨row, member, rfl⟩
    | some inserted =>
      have guid : inserted.guid = cString p.id := row?_guid insertColumns_fields new
      rw [new, Option.map_some, Option.getD_some, Table.insertOrIgnore] at member
      split at member
      · rcases List.mem_append.mp member with old | added
        · exact Or.inl ⟨row, old, rfl⟩
        · exact Or.inr (by rw [List.mem_singleton.mp added, guid])
      · exact Or.inl ⟨row, member, rfl⟩

/-- A table whose guids have no capital letter. -/
def LowerCase (t : Table) : Prop := ∀ row ∈ t.rows, lower row.guid = row.guid

theorem lower_cString (text : Bytes) : lower (cString text) = cString (lower text) := by
  unfold cString lower
  rw [List.takeWhile_map]
  have kept : (· != 0) ∘ toLower = (· != 0) := by
    funext b
    rw [Function.comp, Bool.eq_iff_iff, bne_iff_ne, bne_iff_ne, ne_eq, ne_eq, toLower_eq_zero]
  rw [kept]

theorem store_lowerCase {env : Env} {p : Parsed env} (folded : lower p.id = p.id) (above : Nat → Int) {t : Table}
    (before : LowerCase t) : LowerCase (p.store above t) := by
  intro row member
  have kept : (∃ old ∈ t.rows, old.guid = row.guid) → lower row.guid = row.guid := by
    rintro ⟨old, old_member, same⟩
    rw [← same]
    exact before old old_member
  rw [Parsed.store] at member
  cases found : find t p.longId with
  | true =>
    rw [found] at member
    exact kept (guid_of_update p above member)
  | false =>
    rw [found] at member
    rcases guid_of_insert p above member with old | new
    · exact kept old
    · rw [new, lower_cString, folded]

theorem informerUpdate_lowerCase (env : Env) (above : Nat → Nat → Int) {t : Table} (before : LowerCase t)
    (items : List Document) : LowerCase (informerUpdate env above t items) := by
  induction items generalizing above t with
  | nil => exact before
  | cons x items ih =>
    rw [informerUpdate]
    cases parsed : parse? env x with
    | none => exact before
    | some read =>
      cases read with
      | none => exact ih _ before
      | some p => exact ih _ (store_lowerCase (parse?_id parsed) (above 0) before)

theorem Built.lowerCase {sqlite : Sqlite} {t : Table} (built : Built sqlite t) : LowerCase t := by
  induction built with
  | empty => exact fun row member => absurd member List.not_mem_nil
  | update env above items _ ih => exact informerUpdate_lowerCase env above ih items
  | @remove t id _ ih =>
    by_cases given : id = []
    · rwa [informerRemove, if_pos given]
    · rw [informerRemove_eq sqlite t given]
      exact fun row member => ih row (List.mem_of_mem_filter member)

/-! ## Which row is deleted -/

/-- Two filters of a table agree when they agree on its rows. -/
theorem filter_eq_iff (t : Table) (keep other : Row → Bool) :
    t.filter keep = t.filter other ↔ ∀ row ∈ t.rows, keep row = other row := by
  constructor
  · intro same row member
    have rows : t.rows.filter keep = t.rows.filter other := congrArg Table.rows same
    have kept : row ∈ t.rows.filter keep ↔ row ∈ t.rows.filter other := by rw [rows]
    rw [List.mem_filter, List.mem_filter, and_iff_right member, and_iff_right member] at kept
    exact Bool.eq_iff_iff.mpr kept
  · exact fun same => Table.ext (List.filter_congr same)

theorem withoutDocument_eq {g : Bytes} (some_guid : g ≠ []) (t : Table) :
    withoutDocument t g = t.filter fun row => row.guid ≠ lower (cString g) := by
  have stored : storedGuid? g = some (lower (cString g)) := by
    have some_lower : lower g ≠ [] := by simpa [lower] using some_guid
    rw [storedGuid?, if_neg some_lower, lower_cString]
  rw [withoutDocument, stored]
  simp only [ne_eq, Option.some.injEq]

theorem filter_eq_self {t : Table} {keep : Row → Bool} (all : ∀ row ∈ t.rows, keep row = true) : t.filter keep = t :=
  Table.ext (List.filter_eq_self.mpr all)

theorem filter_eq_nil {t : Table} {keep : Row → Bool} (none_kept : ∀ row ∈ t.rows, keep row = false) :
    (t.filter keep).rows = [] :=
  List.filter_eq_nil_iff.mpr fun row member => Bool.not_eq_true _ ▸ none_kept row member

/-- `g` has no quote before its first NUL and is spelled as its row is, or has no row. -/
def Plain (t : Table) (g : Bytes) : Prop :=
  39 ∉ cString g ∧ ((lower (cString g) = cString g ∧ (cString g).length + 34 < sizeofBuf) ∨
    ∀ row ∈ t.rows, row.guid ≠ lower (cString g))

/-- **`InformerRemove` deletes exactly the row of the document when its guid has
neither a quote nor a capital letter.** For every table the worker's calls have
built and every `g`, what is left is the table without the row stored for `g` if
`g` has no quote before its first NUL and either this much of it is in lower case
and its literal fits `buf`, or there is no such row. Of every `g` without a quote
this is the exact condition. -/
theorem informerRemove_eq_withoutDocument (sqlite : Sqlite) {t : Table} (built : Built sqlite t) (g : Bytes) :
    (Plain t g → informerRemove sqlite t g = withoutDocument t g) ∧
      (39 ∉ cString g → informerRemove sqlite t g = withoutDocument t g → Plain t g) := by
  by_cases given : g = []
  · subst given
    have nothing : informerRemove sqlite t [] = withoutDocument t [] := (filter_eq_self fun _ _ => rfl).symm
    have plain : Plain t [] := ⟨by decide, .inl ⟨rfl, by decide⟩⟩
    exact ⟨fun _ => nothing, fun _ _ => plain⟩
  suffices exactly : 39 ∉ cString g → (informerRemove sqlite t g = withoutDocument t g ↔ Plain t g) from
    ⟨fun plain => (exactly plain.1).mpr plain, fun free => (exactly free).mp⟩
  intro free
  rw [informerRemove_eq sqlite t given, withoutDocument_eq given, filter_eq_iff]
  simp only [ne_eq, decide_not, Bool.not_inj_iff, takes_removeText sqlite t free]
  rw [Plain, and_iff_right free]
  by_cases plain : lower (cString g) = cString g ∧ (cString g).length + 34 < sizeofBuf
  · refine iff_of_true (fun row _ => ?_) (.inl plain)
    rw [plain.1, decide_eq_true plain.2, Bool.true_and]
  · -- no row has a capital letter, so the DELETE is about none
    have about_none : ∀ row ∈ t.rows,
        (decide ((cString g).length + 34 < sizeofBuf) && decide (row.guid = cString g)) = false := by
      intro row member
      rw [Bool.and_eq_false_iff, decide_eq_false_iff_not, decide_eq_false_iff_not]
      by_contra both
      push Not at both
      have folded := built.lowerCase row member
      rw [both.2] at folded
      exact plain ⟨folded, both.1⟩
    rw [or_iff_right plain]
    apply forall₂_congr
    intro row member
    rw [about_none row member, eq_comm, decide_eq_false_iff_not]

/-- A literal that is never closed is no statement. -/
theorem prepare_unclosed {text : Bytes} (open_ : 39 ∉ text) : prepare (removeHeader ++ 39 :: text) = none := by
  have header : NulFree removeHeader := removeHeader_facts.2
  have whole : cString (removeHeader ++ 39 :: text) = removeHeader ++ 39 :: cString text := by
    have passed : ∀ b ∈ removeHeader, (b != 0) = true := fun b member => bne_iff_ne.mpr (ne_of_mem_of_not_mem member header)
    rw [cString, List.takeWhile_append_of_pos passed]
    rfl
  have free : NulFree (removeHeader ++ 39 :: cString text) := whole ▸ cString_nulFree _
  have reads : prepare (removeHeader ++ 39 :: text) = prepare (removeHeader ++ 39 :: cString text) := by
    rw [prepare, prepare, whole, cString_of_nulFree free]
  have kept : 39 ∉ cString text := fun quote => open_ ((List.takeWhile_sublist _).subset quote)
  have opened : SqlLexer.feed .start (39 :: cString text) = ([], .quoted 39 (cString text)) := by
    have collected := feed_doubleQuotes (cString text) []
    rw [doubleQuotes_eq_self kept] at collected
    simp [SqlLexer.feed, SqlLexer.step, show begin 39 = ([], .quoted 39 []) by decide, collected]
  rw [reads, prepare_eq_reader free, Reader.feed_append, feed_removeHeader, Reader.feed, opened]
  rfl

/-- The DELETEs that this development has a grammar for. -/
def grammarOnly : Sqlite where
  takes _ text row :=
    match prepare text with
    | some (.conditional (.delete table) condition none) =>
      decide (table = bytes "informer") && selects table condition row
    | _ => false
  unclosed _ _ open_ _ := by rw [prepare_unclosed open_]
  compares _ _ _ read _ _ := by
    rw [read]
    exact Bool.true_and _

/-- The table after the first document, whose guid is `A1B2`. -/
def builtTable : Table := informerUpdate exactEnv (fun _ _ => 1000) Table.empty [document (bytes "shop")]

/-- In lower case the guid finds its row. -/
theorem lower_case_removed :
    informerRemove grammarOnly builtTable (bytes "a1b2") = withoutDocument builtTable (bytes "a1b2") :=
  (informerRemove_eq_withoutDocument grammarOnly (.update _ _ _ .empty) (bytes "a1b2")).1
    ⟨by decide, .inl (by decide)⟩

theorem guid_of_builtTable {row : Row} (member : row ∈ builtTable.rows) : row.guid = bytes "a1b2" := by
  have guids : builtTable.rows.map Row.guid = [bytes "a1b2"] := by decide +kernel
  have here : row.guid ∈ builtTable.rows.map Row.guid := List.mem_map.mpr ⟨row, member, rfl⟩
  rw [guids] at here
  exact List.mem_singleton.mp here

/-- `guid='x' OR '1'='1'`. -/
def anything : Condition :=
  [[⟨guidColumn, some (.literal (.text (bytes "x")))⟩],
    [⟨.literal (.text (bytes "1")), some (.literal (.text (bytes "1")))⟩]]

theorem selects_anything (row : Row) : selects (bytes "informer") (some anything) row = true := by
  have evaluated : condition? (bytes "informer") row anything =
      some (or3 (or3 (some false) (and3 (some true) (some (decide (Value.text row.guid = .text (bytes "x"))))))
        (some true)) := rfl
  by_cases named : Value.text row.guid = .text (bytes "x") <;> simp [selects, evaluated, named, and3, or3]

/-- As the main database has it the guid finds nothing, and a guid that is not in
the table can take the row with it. -/
theorem document_not_removed :
    (∀ sqlite : Sqlite, informerRemove sqlite builtTable (bytes "A1B2") ≠ withoutDocument builtTable (bytes "A1B2")) ∧
      ∀ sqlite : Sqlite, informerRemove sqlite builtTable (bytes "x' OR '1'='1") ≠
        withoutDocument builtTable (bytes "x' OR '1'='1") := by
  have one_row : builtTable.rows.length = 1 := by decide +kernel
  constructor
  · intro sqlite same
    have kept : informerRemove sqlite builtTable (bytes "A1B2") = builtTable := by
      rw [informerRemove_eq sqlite _ (by decide)]
      refine filter_eq_self fun row member => ?_
      rw [takes_removeText sqlite _ (by decide), guid_of_builtTable member]
      rfl
    have removed : (withoutDocument builtTable (bytes "A1B2")).rows.length = 0 := by decide +kernel
    rw [← same, kept, one_row] at removed
    cases removed
  · intro sqlite same
    have read : prepare (removeText (bytes "x' OR '1'='1")) =
        some (.conditional (.delete (bytes "informer")) (some anything) none) := by decide +kernel
    have removed : (informerRemove sqlite builtTable (bytes "x' OR '1'='1")).rows = [] := by
      rw [informerRemove_eq sqlite _ (by decide)]
      refine filter_eq_nil fun row _ => ?_
      rw [sqlite.compares _ read (by decide), selects_anything]
      rfl
    have kept : (withoutDocument builtTable (bytes "x' OR '1'='1")).rows.length = 1 := by decide +kernel
    rw [← same, removed] at kept
    cases kept

end WorkerInformer.InformerRemove
