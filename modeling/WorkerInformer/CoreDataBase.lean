import WorkerInformer.Informer
import WorkerInformer.SqlText

/-! `Core_DataBase::getInformer`: the visitor's `scr` goes through `%s` into the
string literal of `getInformer.sql`. Unlike the statements of `InformerUpdate`,
which use `%q`, nothing doubles the quotes of it. -/
namespace WorkerInformer.CoreDataBase
open Bytes SqlLexer Sql Printf InformerTable

def CMD_SIZE : Nat := 2621440

/-- `db_dump/requests/getInformer.sql` before the literal's first quote. -/
def sqlBefore : Bytes :=
  bytes "SELECT \tinf.id,\n    inf.guid,\n    inf.title,\n    inf.account,\n" ++
  bytes "    inf.domain,\n\tinf.capacity,\n\tinf.auto_reload,\n    inf.blinking,\n" ++
  bytes "    inf.shake,\n    inf.blinking_reload,\n    inf.shake_reload,\n" ++
  bytes "    inf.shake_mouse,\n\tinf.teasersCss,\n    inf.headerHtml,\n" ++
  bytes "    inf.footerHtml,\n    inf.range_short_term,\n\tinf.range_long_term,\n" ++
  bytes "\tinf.range_context,\n\tinf.range_search,\n\tinf.retargeting_capacity,\n" ++
  bytes "    inf.valid,\n    inf.social_branch,\n    inf.user_code,\n" ++
  bytes "    inf.html_notification,\n    inf.place_branch,\n" ++
  bytes "    inf.retargeting_branch,\n    inf.rating_division\n" ++
  bytes "FROM Informer AS inf INDEXED BY idx_Informer_guid\nWHERE inf.guid="

/-- The rest of the file after the literal's last quote. -/
def sqlAfter : Bytes := bytes "\nLIMIT 1;\n"

/-- `cfg->informerSqlStr`: the whole file. -/
def informerSqlStr : Bytes := sqlBefore ++ bytes "'%s'" ++ sqlAfter

/-- The call's arguments; nothing lies above them that the format reads. -/
def arguments (informer_id : Bytes) : VaList Empty := ⟨[.pointer informer_id], [], fun _ => 0⟩

/-- The text `getInformer` formats into `cmd`, before it is cut to `CMD_SIZE`. -/
def formatted (informer_id : Bytes) : Bytes :=
  (render Empty.elim (pieces informerSqlStr) (arguments informer_id)).getD []

/-- `Core_DataBase::getInformer`: the informer it builds, if it returns true. -/
def getInformer (rangeCategory : Value) (t : Table) (informer_id : Bytes) : Option Informer :=
  match snprintf Empty.elim CMD_SIZE informerSqlStr (arguments informer_id) with
  | some cmd => (sqlRows t cmd).head?.map (Informer.ofColumns rangeCategory)
  | none => none

/-- The tokens of the file's statement, with a literal of this value. -/
def statementTokens (guid : Bytes) : List Token :=
  (feed .start sqlBefore).1 ++ [.string guid] ++ lex sqlAfter

theorem pieces_informerSqlStr :
    pieces informerSqlStr = [.text (sqlBefore ++ [39]), .conversion .s, .text (39 :: sqlAfter)] := by
  decide +kernel

theorem formatted_eq (informer_id : Bytes) :
    formatted informer_id = sqlBefore ++ (39 :: cString informer_id ++ [39]) ++ sqlAfter := by
  simp [formatted, pieces_informerSqlStr, render, arguments, VaList.convert, VaList.pointer?]

/-! ## A text without quotes stays one literal -/

/-- The columns the statement selects, in its order. -/
def selected : List Bytes :=
  [bytes "id", bytes "guid", bytes "title", bytes "account", bytes "domain", bytes "capacity",
    bytes "auto_reload", bytes "blinking", bytes "shake", bytes "blinking_reload", bytes "shake_reload",
    bytes "shake_mouse", bytes "teaserscss", bytes "headerhtml", bytes "footerhtml",
    bytes "range_short_term", bytes "range_long_term", bytes "range_context", bytes "range_search",
    bytes "retargeting_capacity", bytes "valid", bytes "social_branch", bytes "user_code",
    bytes "html_notification", bytes "place_branch", bytes "retargeting_branch", bytes "rating_division"]

/-- What stands before the condition. -/
def selectHead : Head :=
  .select (selected.map fun name => ⟨some (bytes "inf"), name⟩) (bytes "informer") (bytes "inf")

def guidColumn : Operand := .column ⟨some (bytes "inf"), bytes "guid"⟩

/-- The statement of the file for one guid. -/
def statement (guid : Bytes) : Statement :=
  .conditional selectHead (some [[⟨guidColumn, some (.literal (.text guid))⟩]]) (some 1)

/-- What evaluating the text shows. -/
theorem sqlBefore_facts :
    Reader.start.feed sqlBefore = ⟨.start, .operand ⟨selectHead, [], [], some guidColumn⟩⟩ ∧
      (feed .start sqlBefore).2 = .start ∧ sqlBefore.length = 606 ∧ NulFree sqlBefore ∧ sqlBefore.count 39 = 0 := by
  decide +kernel

theorem formatted_length (informer_id : Bytes) : (formatted informer_id).length = (cString informer_id).length + 618 := by
  have after : sqlAfter.length = 10 := rfl
  simp only [formatted_eq, List.length_append, List.length_cons, List.length_nil, sqlBefore_facts.2.2.1, after]
  omega

theorem feed_sqlAfter (guid : Bytes) :
    (Reader.feed ⟨.start, .compared ⟨selectHead, [], [], some guidColumn⟩ (.literal (.text guid))⟩
      sqlAfter).finish = some (statement guid) := rfl

theorem literal_text {text : Bytes} (free : 39 ∉ text) : 39 :: text ++ [39] = (Written.quoted text).text := by
  rw [Written.text, doubleQuotes_eq_self free]

theorem sqlAfter_eq : sqlAfter = 10 :: bytes "LIMIT 1;\n" := rfl

theorem sqlAfter_flushes (w : Written) :
    SqlLexer.step w.state 10 = flush w.state 10 := state_flushes w (by decide)

/-- SQLite prepares the file's statement with the guid as its literal. -/
theorem prepare_formatted {guid : Bytes} (nulFree : NulFree guid) (free : 39 ∉ guid) :
    prepare (formatted guid) = some (statement guid) := by
  have text : formatted guid = sqlBefore ++ ((Written.quoted guid).text ++ sqlAfter) := by
    rw [formatted_eq, cString_of_nulFree nulFree, literal_text free, List.append_assoc]
  have nulFree_text : NulFree (formatted guid) := by
    have before : NulFree sqlBefore := sqlBefore_facts.2.2.2.1
    have after : NulFree sqlAfter := by decide
    rw [formatted_eq, cString_of_nulFree nulFree]
    simp only [NulFree, List.mem_append, List.mem_cons, List.not_mem_nil, or_false, not_or] at *
    exact ⟨⟨before, ⟨by decide, nulFree⟩, by decide⟩, after⟩
  rw [prepare_eq_reader nulFree_text, text, Reader.feed_append, sqlBefore_facts.1, Reader.feed_append]
  have settled := (operandPlace ⟨selectHead, [], [], some guidColumn⟩).settle_text
    (show (Written.quoted guid).value? = some (.text guid) from rfl)
  rw [sqlAfter_eq, Reader.feed_settled, settled]
  · exact feed_sqlAfter guid
  · rw [feed_lexer]
    exact sqlAfter_flushes _

theorem selected_fields :
    ∃ fields, (selected.map fun name => (⟨some (bytes "inf"), name⟩ : Ref)).mapM (ref? (bytes "inf")) =
        some fields ∧
      ∀ row rangeCategory,
        Informer.ofColumns rangeCategory (fields.map (Row.get row)) = Informer.ofRow rangeCategory row :=
  ⟨_, rfl, fun _ _ => rfl⟩

theorem selects_guid (guid : Bytes) (row : Row) :
    selects (bytes "inf") (some [[⟨guidColumn, some (.literal (.text guid))⟩]]) row =
      decide (row.guid = guid) := by
  have selected : selects (bytes "inf") (some [[⟨guidColumn, some (.literal (.text guid))⟩]]) row =
      decide (Value.text row.guid = .text guid) := selects_comparison rfl
  simpa using selected

/-- The statement for one guid yields the row with that guid. -/
theorem select_statement (t : Table) (guid : Bytes) (rangeCategory : Value) :
    ∃ found, select? t (statement guid) = some found ∧
      found.head?.map (Informer.ofColumns rangeCategory) =
        (t.rows.find? fun row => row.guid = guid).map (Informer.ofRow rangeCategory) := by
  obtain ⟨fields, resolved, columns⟩ := selected_fields
  refine ⟨_, select?_limited t (show known (bytes "inf")
    (some [[⟨guidColumn, some (.literal (.text guid))⟩]]) = true from rfl) resolved 1, ?_⟩
  rw [← List.head?_filter, funext (selects_guid guid)]
  cases t.rows.filter fun row => row.guid = guid with
  | nil => rfl
  | cons first rest => simp [columns]

theorem snprintf_eq (guid : Bytes) :
    snprintf Empty.elim CMD_SIZE informerSqlStr (arguments guid) = some ((formatted guid).take (CMD_SIZE - 1)) := by
  have rendered : render Empty.elim (pieces informerSqlStr) (arguments guid) = some (formatted guid) := by
    rw [formatted_eq, pieces_informerSqlStr]
    simp [render, arguments, VaList.convert, VaList.pointer?]
  rw [snprintf, rendered, Option.map_some]

theorem snprintf_fits {guid : Bytes} (fits : (formatted guid).length < CMD_SIZE) :
    snprintf Empty.elim CMD_SIZE informerSqlStr (arguments guid) = some (formatted guid) := by
  rw [snprintf_eq, List.take_of_length_le (Nat.le_sub_one_of_lt fits)]

theorem sqlRows_of_prepare {t : Table} {text : Bytes} {read : Statement} {found : List (List Value)}
    (prepared : prepare text = some read) (rows : select? t read = some found) : sqlRows t text = found := by
  simp only [sqlRows, prepared, Option.bind_some, rows, Option.getD_some]

theorem getInformer_of_snprintf {guid cmd : Bytes}
    (written : snprintf Empty.elim CMD_SIZE informerSqlStr (arguments guid) = some cmd) (rangeCategory : Value)
    (t : Table) : getInformer rangeCategory t guid = (sqlRows t cmd).head?.map (Informer.ofColumns rangeCategory) := by
  -- the function is unfolded before it is applied: nothing of the text is evaluated
  conv =>
    lhs
    fun
    fun
    fun
    delta getInformer
  generalize snprintf Empty.elim CMD_SIZE informerSqlStr (arguments guid) = text at written
  subst written
  rfl

theorem getInformer_of_prepare {guid : Bytes} (fits : (formatted guid).length < CMD_SIZE)
    (prepared : prepare (formatted guid) = some (statement guid)) (rangeCategory : Value) (t : Table) :
    getInformer rangeCategory t guid =
      (t.rows.find? fun row => row.guid = guid).map (Informer.ofRow rangeCategory) := by
  obtain ⟨found, rows, first⟩ := select_statement t guid rangeCategory
  rw [getInformer_of_snprintf (snprintf_fits fits), sqlRows_of_prepare prepared rows, first]

/-! ## Quotes -/

theorem lex_formatted {guid : Bytes} (nulFree : NulFree guid) (free : 39 ∉ guid) :
    lex (formatted guid) = statementTokens guid := by
  have before := sqlBefore_facts.2.1
  rw [formatted_eq, cString_of_nulFree nulFree, List.append_assoc, lex, lexFrom_append, before, literal_text free,
    lexFrom_append, Written.feed_text]
  have flushed := feed_flush (sqlAfter_flushes (.quoted guid)) (bytes "LIMIT 1;\n")
  rw [← sqlAfter_eq, Written.pending_state] at flushed
  rw [lexFrom, flushed]
  simp [statementTokens, Written.isNegative, Written.token, lex, lexFrom]

/-- Two quotes cannot write a literal that holds one: it takes four. -/
theorem no_quote_of_tokens {guid : Bytes} (nulFree : NulFree guid)
    (tokens : lex (formatted guid) = statementTokens guid) : 39 ∉ guid := by
  have written := lex_quotes (formatted guid)
  have fixed : sqlBefore.count 39 = 0 ∧ sqlAfter.count 39 = 0 := ⟨sqlBefore_facts.2.2.2.2, by decide⟩
  rw [tokens, statementTokens, totalQuotes_append, totalQuotes_append, formatted_eq,
    cString_of_nulFree nulFree] at written
  simp only [totalQuotes, List.map_cons, List.map_nil, List.sum_cons, List.sum_nil, Token.quotes,
    List.count_append, List.count_cons_self, List.count_nil, fixed] at written
  exact List.count_eq_zero.mp (by omega)

/-- **The visitor's text stays one literal exactly when it has no quote.** For
every `scr` whose statement fits `cmd` and every table, the formatted text is
the file's statement with `scr` in lower case as its literal, and the informer
found is the row with that guid, if and only if `scr` has no single quote. -/
theorem getInformer_faithful_iff {scr : Bytes} (nulFree : NulFree scr)
    (fits : (formatted (lower scr)).length < CMD_SIZE) (rangeCategory : Value) (t : Table) :
    (lex (formatted (lower scr)) = statementTokens (lower scr) ∧
      getInformer rangeCategory t (lower scr) =
        (t.rows.find? fun row => row.guid = lower scr).map (Informer.ofRow rangeCategory)) ↔
      39 ∉ scr := by
  have nulFree_lower : NulFree (lower scr) := lower_nulFree.mpr nulFree
  rw [← quote_mem_lower]
  constructor
  · rintro ⟨tokens, -⟩
    exact no_quote_of_tokens nulFree_lower tokens
  · intro free
    exact ⟨lex_formatted nulFree_lower free,
      getInformer_of_prepare fits (prepare_formatted nulFree_lower free) rangeCategory t⟩

/-- A table with the row of one informer. -/
def oneInformer : Table where
  rows := [⟨1, bytes "a1b2", Column.default⟩]
  ids := List.nodup_cons.mpr ⟨List.not_mem_nil, List.nodup_nil⟩
  guids := List.nodup_cons.mpr ⟨List.not_mem_nil, List.nodup_nil⟩

/-- An upper-case `scr` without quotes finds the informer. -/
theorem getInformer_faithful_guid :
    getInformer .null oneInformer (lower (bytes "A1B2")) =
      (oneInformer.rows.find? fun row => row.guid = lower (bytes "A1B2")).map (Informer.ofRow .null) := by
  have fits : (formatted (lower (bytes "A1B2"))).length < CMD_SIZE := by
    rw [formatted_length]
    decide
  exact ((getInformer_faithful_iff (by decide) fits .null oneInformer).mpr (by decide)).2

/-- `' or '1'='1` is no guid of the table and still finds its informer. -/
theorem quote_changes_statement :
    NulFree (bytes "' or '1'='1") ∧ (formatted (lower (bytes "' or '1'='1"))).length < CMD_SIZE ∧
      ¬ (lex (formatted (lower (bytes "' or '1'='1"))) = statementTokens (lower (bytes "' or '1'='1")) ∧
        getInformer .null oneInformer (lower (bytes "' or '1'='1")) =
          (oneInformer.rows.find? fun row => row.guid = lower (bytes "' or '1'='1")).map
            (Informer.ofRow .null)) := by
  refine ⟨by decide, ?_, ?_⟩
  · rw [formatted_length]
    decide
  rintro ⟨-, found⟩
  have absent : (oneInformer.rows.find? fun row => row.guid = lower (bytes "' or '1'='1")).isSome = false := by
    decide +kernel
  have present : (getInformer .null oneInformer (lower (bytes "' or '1'='1"))).isSome = true := by
    decide +kernel
  rw [found, Option.isSome_map, absent] at present
  cases present

end WorkerInformer.CoreDataBase
