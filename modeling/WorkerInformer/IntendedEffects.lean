import WorkerInformer.InformerServed
import WorkerInformer.Replica

/-! `ParentDB`'s statements and what they are for: when a document's statement
fits `buf` and the wrong argument slots hold the right numbers, `InformerUpdate`
does what `Replica.store` says, and `InformerRemove` does what `Replica.remove`
says for a guid without quotes. -/
namespace WorkerInformer.IntendedEffects
open Bytes Sql Printf InformerTable InformerUpdate MainDatabase

/-! ## `InformerRemove` -/

def removeFormat : Bytes := bytes "DELETE FROM Informer WHERE guid='%s';"

def removeHeader : Bytes := bytes "DELETE FROM Informer WHERE guid="

def guidColumn : Operand := .column ⟨none, bytes "guid"⟩

/-- The guid or a text: comparing these converts nothing. -/
def isText : Operand → Bool
  | .literal (.text _) => true
  | operand => operand = guidColumn

/-- A condition that says which guids and texts are equal, and nothing else. -/
def isTextual (condition : Condition) : Bool :=
  condition.all fun ands => ands.all fun c => isText c.left && c.right.any isText

/-- SQLite at a DELETE. A message body is copied into the statement as it is, so
the text can be any expression SQLite has: which rows it takes is left open but
for a literal that is never closed and for a condition that compares guids and
texts. -/
structure Sqlite where
  takes : Table → Bytes → Row → Bool
  unclosed (t : Table) {text : Bytes} (open_ : 39 ∉ text) (row : Row) :
    takes t (removeHeader ++ 39 :: text) row = false
  compares (t : Table) {text : Bytes} {condition : Condition}
    (read : prepare text = some (.conditional (.delete (bytes "informer")) (some condition) none))
    (textual : isTextual condition = true) (row : Row) :
    takes t text row = selects (bytes "informer") (some condition) row

/-- `ParentDB::InformerRemove`; an error of the statement is logged. -/
def informerRemove (sqlite : Sqlite) (t : Table) (id : Bytes) : Table :=
  if id = [] then t
  else match snprintf Empty.elim sizeofBuf removeFormat ⟨[.pointer id], [], fun _ => 0⟩ with
    | some buf => t.filter fun row => !sqlite.takes t buf row
    | none => t

theorem removeHeader_facts : removeHeader.length = 32 ∧ NulFree removeHeader := by
  decide +kernel

theorem removeHeader_fits : removeHeader.length ≤ sizeofBuf - 1 := by
  rw [removeHeader_facts.1]
  simp [sizeofBuf]

theorem pieces_removeFormat :
    pieces removeFormat = [.text (removeHeader ++ [39]), .conversion .s, .text [39, 59]] := by
  decide +kernel

theorem feed_removeHeader : Reader.start.feed removeHeader =
    ⟨.start, .operand ⟨.delete (bytes "informer"), [], [], some guidColumn⟩⟩ := by
  decide +kernel

theorem selects_guid (guid : Bytes) (row : Row) :
    selects (bytes "informer") (some [[⟨guidColumn, some (.literal (.text guid))⟩]]) row =
      decide (row.guid = guid) := by
  have selected : selects (bytes "informer") (some [[⟨guidColumn, some (.literal (.text guid))⟩]]) row =
      decide (Value.text row.guid = .text guid) := selects_comparison rfl
  simpa using selected

/-- The text in `buf`. -/
def removeText (id : Bytes) : Bytes := (removeHeader ++ (39 :: cString id ++ [39, 59])).take (sizeofBuf - 1)

theorem snprintf_remove (id : Bytes) :
    snprintf Empty.elim sizeofBuf removeFormat ⟨[.pointer id], [], fun _ => 0⟩ = some (removeText id) := by
  rw [snprintf, pieces_removeFormat, removeText]
  simp [render, VaList.convert, VaList.pointer?]

theorem informerRemove_eq (sqlite : Sqlite) (t : Table) {id : Bytes} (given : id ≠ []) :
    informerRemove sqlite t id = t.filter fun row => !sqlite.takes t (removeText id) row := by
  rw [informerRemove, if_neg given, snprintf_remove]

theorem removeText_nulFree (id : Bytes) : NulFree (removeHeader ++ (39 :: cString id ++ [39, 59])) := by
  have header : NulFree removeHeader := removeHeader_facts.2
  have text : NulFree (cString id) := cString_nulFree id
  simp only [NulFree, List.mem_append, List.mem_cons, List.not_mem_nil, or_false, not_or] at *
  exact ⟨header, ⟨by decide, text⟩, by decide, by decide⟩

/-- The DELETE of the row with this guid. -/
def deleteStatement (guid : Bytes) : Statement :=
  .conditional (.delete (bytes "informer")) (some [[⟨guidColumn, some (.literal (.text guid))⟩]]) none

/-- A guid without quotes is one literal if its closing quote is kept. -/
theorem prepare_removeText {id : Bytes} (free : 39 ∉ cString id) (fits : (cString id).length + 34 < sizeofBuf) :
    prepare (removeText id) = some (deleteStatement (cString id)) := by
  have place := operandPlace ⟨.delete (bytes "informer"), [], [], some guidColumn⟩
  have literal : 39 :: cString id ++ [39, 59] = (Written.quoted (cString id)).text ++ [59] := by
    simp [Written.text, SqlLexer.doubleQuotes_eq_self free]
  have length : (Written.quoted (cString id)).text.length = (cString id).length + 2 := by
    simp [Written.text, SqlLexer.doubleQuotes_eq_self free]
  rw [removeText, prepare_take (removeText_nulFree id) feed_removeHeader removeHeader_fits, literal,
    removeHeader_facts.1]
  have read := ready_text _ (place.settle_text (show (Written.quoted (cString id)).value? = some (.text (cString id)) from rfl))
  rw [List.take_append, List.take_of_length_le (by omega), Reader.feed_append]
  generalize sizeofBuf - 1 - 32 - (Written.quoted (cString id)).text.length = kept
  cases kept with
  | zero =>
    rw [List.take_zero]
    exact read.finish
  | succ kept =>
    rw [List.take_of_length_le (by simp), read.feed (by decide)]
    rfl

/-- Else the literal is never closed. -/
theorem removeText_cut {id : Bytes} (cut : ¬ (cString id).length + 34 < sizeofBuf) :
    removeText id = removeHeader ++ 39 :: (cString id).take (sizeofBuf - 34) := by
  have size : sizeofBuf = 262144 := rfl
  rw [removeText, List.take_append, List.take_of_length_le removeHeader_fits, removeHeader_facts.1]
  congr 1
  rw [show sizeofBuf - 1 - 32 = sizeofBuf - 34 + 1 by omega, List.cons_append, List.take_succ_cons,
    List.take_append_of_le_length (by omega)]

/-- The DELETE of a guid without quotes is about the row with just this guid. -/
theorem takes_removeText (sqlite : Sqlite) (t : Table) {id : Bytes} (free : 39 ∉ cString id) (row : Row) :
    sqlite.takes t (removeText id) row =
      (decide ((cString id).length + 34 < sizeofBuf) && decide (row.guid = cString id)) := by
  by_cases fits : (cString id).length + 34 < sizeofBuf
  · have textual : isTextual [[⟨guidColumn, some (.literal (.text (cString id)))⟩]] = true := rfl
    rw [sqlite.compares t (prepare_removeText free fits) textual, selects_guid, decide_eq_true fits, Bool.true_and]
  · rw [removeText_cut fits, sqlite.unclosed t fun quote => free (List.mem_of_mem_take quote), decide_eq_false fits,
      Bool.false_and]

/-- The DELETE of a guid without quotes that fits removes the row of the guid. -/
theorem informerRemove_eq_remove (sqlite : Sqlite) {id : Bytes} (nulFree : NulFree id) (free : 39 ∉ id)
    (fits : id.length + 40 < sizeofBuf) (t : Table) : informerRemove sqlite t id = Replica.remove t id := by
  by_cases given : id = []
  · rw [informerRemove, Replica.remove, if_pos given, if_pos given]
  have whole : cString id = id := cString_of_nulFree nulFree
  have takes : ∀ row, sqlite.takes t (removeText id) row = decide (row.guid = id) := by
    intro row
    rw [takes_removeText sqlite t (by rwa [whole]), whole, decide_eq_true (by omega), Bool.true_and]
  rw [informerRemove_eq sqlite t given, Replica.remove, if_neg given]
  simp only [takes, ne_eq, decide_not]

/-! ## `InformerUpdate` -/

section Store
variable {env : Env} {p : Parsed env} {above : Nat → Int} {t : Table}

/-- The document as the main database keeps it. -/
def docOf (p : Parsed env) (rating : Int) : Doc :=
  ⟨p.id, p.longId.toInt, p.fields.account, p.stored rating Column.default⟩

/-- The slots that are read by mistake hold what should have been passed. -/
def SlotsRight (p : Parsed env) (above : Nat → Int) (t : Table) (rating : Int) : Prop :=
  if find t p.longId then toInt64 (above 0) = p.longId.toInt ∧ toInt32 p.longId.toInt = rating
  else toInt32 (above 0) = rating

theorem stored_of_null (rating : Int) {before : Column → Value} (null : before .nonrelevant = .null) :
    p.stored rating before = p.stored rating Column.default := by
  funext c
  cases c <;> first | rfl | exact null

/-- One pass of the loop has its intended effect on a table in which no row has
a `nonrelevant`, as no statement writes one. -/
theorem store_eq_store (wellFormed : WellFormed p) (key : p.id ≠ [] ∧ lower p.id = p.id) (fits : p.Fits above)
    (finite : p.RangesFinite) {rating : Int} (slots : SlotsRight p above t rating)
    (plain : ∀ row ∈ t.rows, row.values .nonrelevant = .null) :
    p.store above t = Replica.store t (docOf p rating) := by
  have id : cString p.id = p.id := cString_of_nulFree (wellFormed.nulFree _ (by simp))
  have any : t.rows.any (·.id = (docOf p rating).guidInt) = find t p.longId := by
    rw [Bool.eq_iff_iff, find_iff, List.any_eq_true]
    exact exists_congr fun row => and_congr_right fun _ => decide_eq_true_iff
  have lowered : lower (docOf p rating).guid = p.id := key.2
  unfold SlotsRight at slots
  rw [Parsed.store, Replica.store, if_neg (by rw [lowered]; exact key.1), any, lowered]
  cases found : find t p.longId with
  | true =>
    simp only [found, ↓reduceIte] at slots
    rw [update_of_fits fits finite, if_pos rfl]
    refine Table.ext (List.map_congr_left fun row member => ?_)
    simp only [slots.1, slots.2, stored_of_null rating (plain row member)]
    rfl
  | false =>
    simp only [found, Bool.false_eq_true, ↓reduceIte] at slots
    rw [insert_of_fits fits finite, if_neg Bool.false_ne_true, Parsed.row, id, slots]
    rfl

end Store

end WorkerInformer.IntendedEffects
