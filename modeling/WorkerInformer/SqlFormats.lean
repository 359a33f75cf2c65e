import WorkerInformer.SqlStatements

/-! Formats of an UPDATE and of an INSERT: a list of values, each a conversion
or a constant, with the text in front of it. What `render` makes of such a
format is the statement of `SqlStatements` with the values the conversions take
from the arguments. Nothing in this file is about one program. -/
namespace WorkerInformer.Printf
open Bytes Sql

/-- Where a value of a statement comes from. -/
inductive Source
  | constant (n : Nat)
  | argument (c : Conversion)

/-- A value in a format and the text in front of it. -/
structure Cell where
  before : Bytes
  source : Source

/-- The quotes around the conversion of a text. -/
def quotes (c : Conversion) : Bytes := if c = .q then [39] else []

/-- The pieces of a format from some literal text on: the values, then `last`. -/
def cellPieces (last : Bytes → List Piece) : Bytes → List Cell → List Piece
  | literal, [] => last literal
  | literal, ⟨before, .constant n⟩ :: cells => cellPieces last (literal ++ before ++ decimal n) cells
  | literal, ⟨before, .argument c⟩ :: cells =>
    .text (literal ++ before ++ quotes c) :: .conversion c :: cellPieces last (quotes c) cells

section Arguments
variable {Double : Type*} {fixed : Double → Fixed}

/-- The value a source is written as, and the arguments it leaves. -/
def Source.take? (fixed : Double → Fixed) (va : VaList Double) : Source → Option (Written × VaList Double)
  | .constant n => some (.ofInt n, va)
  | .argument .d => va.word?.map fun (value, rest) => (.ofInt (toInt32 value), rest)
  | .argument .u => va.word?.map fun (value, rest) => (.ofInt (toUInt32 value), rest)
  | .argument .lld => va.word?.map fun (value, rest) => (.ofInt (toInt64 value), rest)
  | .argument .f => va.double?.map fun (value, rest) => (.ofFixed (fixed value), rest)
  | .argument .q => va.pointer?.map fun (text, rest) => (.quoted text, rest)
  | .argument .s => none

/-- The values of a list of cells, and the arguments they leave. -/
def takeAll? (fixed : Double → Fixed) : List Cell → VaList Double → Option (List Written × VaList Double)
  | [], va => some ([], va)
  | cell :: cells, va =>
    (cell.source.take? fixed va).bind fun (w, va) =>
      (takeAll? fixed cells va).map fun (ws, va) => (w :: ws, va)

/-- The values with the texts in front of them. -/
def cellsText : List Cell → List Written → Bytes
  | cell :: cells, w :: ws => cell.before ++ (w.text ++ cellsText cells ws)
  | _, _ => []

theorem ofInt_natCast_text (n : Nat) : (Written.ofInt n).text = decimal n := by
  rw [ofInt_text]
  exact if_neg (by omega)

/-- A conversion and the quotes around it write the value. -/
theorem convert_of_take? {c : Conversion} {va rest : VaList Double} {w : Written}
    (taken : (Source.argument c).take? fixed va = some (w, rest)) :
    ∃ text, va.convert fixed c = some (text, rest) ∧ quotes c ++ (text ++ quotes c) = w.text := by
  cases c with
  | d =>
    obtain ⟨⟨i, rest'⟩, word, same⟩ := Option.map_eq_some_iff.mp taken
    obtain ⟨rfl, rfl⟩ := Prod.mk.inj same
    exact ⟨_, by rw [VaList.convert, word]; rfl, by simp [quotes, ofInt_text]⟩
  | u =>
    obtain ⟨⟨i, rest'⟩, word, same⟩ := Option.map_eq_some_iff.mp taken
    obtain ⟨rfl, rfl⟩ := Prod.mk.inj same
    exact ⟨_, by rw [VaList.convert, word]; rfl, by simp [quotes, ofInt_natCast_text]⟩
  | lld =>
    obtain ⟨⟨i, rest'⟩, word, same⟩ := Option.map_eq_some_iff.mp taken
    obtain ⟨rfl, rfl⟩ := Prod.mk.inj same
    exact ⟨_, by rw [VaList.convert, word]; rfl, by simp [quotes, ofInt_text]⟩
  | f =>
    obtain ⟨⟨x, rest'⟩, double, same⟩ := Option.map_eq_some_iff.mp taken
    obtain ⟨rfl, rfl⟩ := Prod.mk.inj same
    exact ⟨_, by rw [VaList.convert, double]; rfl, by simp [quotes]⟩
  | q =>
    obtain ⟨⟨text, rest'⟩, pointer, same⟩ := Option.map_eq_some_iff.mp taken
    obtain ⟨rfl, rfl⟩ := Prod.mk.inj same
    exact ⟨_, by rw [VaList.convert, pointer]; rfl, by simp [quotes, Written.text]⟩
  | s => cases taken

/-- What a format with these cells is rendered to. -/
theorem render_cells {last : Bytes → List Piece} {rest : VaList Double} {tail : Bytes}
    (rendered : ∀ literal, render fixed (last literal) rest = some (literal ++ tail)) {cells : List Cell}
    {va : VaList Double} {ws : List Written} (taken : takeAll? fixed cells va = some (ws, rest))
    (literal : Bytes) :
    render fixed (cellPieces last literal cells) va = some (literal ++ (cellsText cells ws ++ tail)) := by
  induction cells generalizing va ws literal with
  | nil =>
    obtain ⟨rfl, rfl⟩ := Prod.mk.inj (Option.some.inj taken)
    exact rendered literal
  | cons cell cells ih =>
    obtain ⟨before, source⟩ := cell
    obtain ⟨⟨w, va'⟩, first, others⟩ := Option.bind_eq_some_iff.mp taken
    obtain ⟨⟨ws', rest'⟩, later, same⟩ := Option.map_eq_some_iff.mp others
    obtain ⟨rfl, rfl⟩ := Prod.mk.inj same
    cases source with
    | constant n =>
      obtain ⟨rfl, rfl⟩ := Prod.mk.inj (Option.some.inj first)
      rw [cellPieces, ih later]
      simp [cellsText, ofInt_natCast_text]
    | argument c =>
      obtain ⟨text, converted, written⟩ := convert_of_take? first
      have rest_rendered := ih later (quotes c)
      rw [cellPieces, render, render, converted, Option.bind_some]
      simp only [rest_rendered]
      simp [cellsText, ← written]

/-! ## Rendered texts have no NUL -/

theorem digit_ne_zero : ∀ b, isDigit b = true → b ≠ 0 := forall_byte (by decide +kernel)

theorem letter_ne_zero : ∀ b, SqlLexer.isLetter b = true → b ≠ 0 := forall_byte (by decide +kernel)

theorem nulFree_append {first second : Bytes} (left : NulFree first) (right : NulFree second) :
    NulFree (first ++ second) := by
  simp only [NulFree, List.mem_append, not_or]
  exact ⟨left, right⟩

theorem nulFree_of_kind {kind : UInt8 → Bool} (ne_zero : ∀ b, kind b = true → b ≠ 0) {text : Bytes}
    (all : ∀ b ∈ text, kind b = true) : NulFree text :=
  fun zero => ne_zero 0 (all 0 zero) rfl

theorem cString_nulFree (text : Bytes) : NulFree (cString text) := by
  intro zero
  have := List.mem_takeWhile_imp zero
  simp at this

theorem doubleQuotes_nulFree {text : Bytes} (free : NulFree text) : NulFree (SqlLexer.doubleQuotes text) := by
  induction text with
  | nil => exact free
  | cons b rest ih =>
    simp only [NulFree, List.mem_cons, not_or] at free
    rw [SqlLexer.doubleQuotes_cons]
    refine nulFree_append ?_ (ih free.2)
    split <;> simp [NulFree, free.1]

theorem sign_nulFree (negative : Bool) : NulFree (sign negative) := by
  cases negative <;> decide

theorem Numeral.text_nulFree (n : Numeral) : NulFree n.text := by
  have digits := nulFree_of_kind digit_ne_zero n.digits_isDigit
  unfold Numeral.text
  cases part : n.fraction with
  | none => exact digits
  | some fraction =>
    have parts := nulFree_of_kind digit_ne_zero (n.fraction_isDigit fraction part)
    exact nulFree_append digits (nulFree_append (show NulFree [46] by decide) parts)

theorem Written.text_nulFree {w : Written} (texts : ∀ text, w = .quoted text → NulFree text) :
    NulFree w.text := by
  cases w with
  | quoted text =>
    have free := doubleQuotes_nulFree (texts text rfl)
    exact nulFree_append (nulFree_append (show NulFree [39] by decide) free) (show NulFree [39] by decide)
  | numeral negative n => exact nulFree_append (sign_nulFree negative) n.text_nulFree
  | word negative text letters =>
    exact nulFree_append (sign_nulFree negative) (nulFree_of_kind letter_ne_zero letters.2)

theorem signed_nulFree (i : Int) : NulFree (signed i) := by
  rw [← ofInt_text]
  exact Written.text_nulFree fun _ same => by cases same

theorem ofFixed_nulFree (x : Fixed) : NulFree (Written.ofFixed x).text :=
  Written.text_nulFree fun _ same => by cases x <;> cases same

theorem convert_nulFree {c : Conversion} {va rest : VaList Double} {text : Bytes}
    (converted : va.convert fixed c = some (text, rest)) : NulFree text := by
  have pointer : ∀ {found : Bytes × VaList Double}, va.pointer? = some found → NulFree found.1 := by
    intro found is_found
    unfold VaList.pointer? at is_found
    split at is_found
    · rw [← Option.some.inj is_found]
      exact cString_nulFree _
    · cases is_found
  cases c with
  | d | lld =>
    obtain ⟨⟨i, rest'⟩, -, same⟩ := Option.map_eq_some_iff.mp converted
    rw [← (Prod.mk.inj same).1]
    exact signed_nulFree _
  | u =>
    obtain ⟨⟨i, rest'⟩, -, same⟩ := Option.map_eq_some_iff.mp converted
    rw [← (Prod.mk.inj same).1]
    exact nulFree_of_kind digit_ne_zero (decimal_isDigit _)
  | f =>
    obtain ⟨⟨x, rest'⟩, -, same⟩ := Option.map_eq_some_iff.mp converted
    rw [← (Prod.mk.inj same).1]
    exact ofFixed_nulFree _
  | q =>
    obtain ⟨⟨found, rest'⟩, is_found, same⟩ := Option.map_eq_some_iff.mp converted
    rw [← (Prod.mk.inj same).1]
    exact doubleQuotes_nulFree (pointer is_found)
  | s => exact pointer converted

def Piece.NulFree : Piece → Prop
  | text literal => Bytes.NulFree literal
  | conversion _ => True

instance : DecidablePred Piece.NulFree
  | .text literal => inferInstanceAs (Decidable (Bytes.NulFree literal))
  | .conversion _ => isTrue trivial

/-- A format without NUL writes none, whatever the arguments are. -/
theorem render_nulFree {format : List Piece} (free : ∀ piece ∈ format, piece.NulFree) {va : VaList Double}
    {text : Bytes} (rendered : render fixed format va = some text) : NulFree text := by
  induction format generalizing va text with
  | nil =>
    rw [← Option.some.inj rendered]
    exact List.not_mem_nil
  | cons piece rest ih =>
    have rest_free := fun other member => free other (List.mem_cons_of_mem piece member)
    cases piece with
    | text literal =>
      obtain ⟨later, is_later, rfl⟩ := Option.map_eq_some_iff.mp rendered
      exact nulFree_append (free _ List.mem_cons_self) (ih rest_free is_later)
    | conversion c =>
      obtain ⟨⟨first, va'⟩, converted, others⟩ := Option.bind_eq_some_iff.mp rendered
      obtain ⟨later, is_later, rfl⟩ := Option.map_eq_some_iff.mp others
      exact nulFree_append (convert_nulFree converted) (ih rest_free is_later)

end Arguments

end WorkerInformer.Printf

namespace WorkerInformer.Sql
open Bytes Printf

/-- `column=` in the format of an UPDATE. -/
structure Target where
  gap : Nat
  column : Bytes
  letters : column ≠ [] ∧ ∀ b ∈ column, SqlLexer.isLetter b = true
  source : Source

namespace Target

def assignment (t : Target) (w : Written) : Assignment := ⟨t.gap, t.column, t.letters, w⟩

/-- What stands before the value. -/
def head (t : Target) : Bytes := spaces t.gap ++ (t.column ++ [61])

def cells : List Target → List Cell := List.map fun t => ⟨44 :: t.head, t.source⟩

theorem cells_text (more : List Target) (ws : List Written) :
    cellsText (cells more) ws = moreAssignments (List.zipWith assignment more ws) := by
  induction more generalizing ws with
  | nil => rfl
  | cons t more ih =>
    cases ws with
    | nil => rfl
    | cons w ws =>
      have step : cellsText (cells (t :: more)) (w :: ws) =
          44 :: t.head ++ (w.text ++ cellsText (cells more) ws) := rfl
      rw [step, ih]
      simp [moreAssignments, assignment, Assignment.text, Assignment.head, head]

/-- The pieces of ` WHERE id=%lld;` behind some spaces. -/
def keyPieces (gap : Nat) (literal : Bytes) : List Piece :=
  [.text (literal ++ (spaces gap ++ bytes "WHERE id=")), .conversion .lld, .text [59]]

theorem render_keyPieces {Double : Type*} {fixed : Double → Fixed} {va rest : VaList Double} {key : Int}
    (word : va.word? = some (key, rest)) (gap : Nat) (literal : Bytes) :
    render fixed (keyPieces gap literal) va = some (literal ++ keyTail gap (toInt64 key)) := by
  simp [keyPieces, render, VaList.convert, word, keyTail, ofInt_text]

/-- The UPDATE an UPDATE's format is rendered to. -/
theorem render_update {Double : Type*} {fixed : Double → Fixed} {va rest after : VaList Double}
    {first : Target} {more : List Target} {w : Written} {ws : List Written} {key : Int}
    (taken : takeAll? fixed (⟨first.head, first.source⟩ :: cells more) va = some (w :: ws, rest))
    (word : rest.word? = some (key, after)) (header : Bytes) (gap : Nat) :
    render fixed (cellPieces (keyPieces gap) header (⟨first.head, first.source⟩ :: cells more)) va =
      some (header ++ ((first.assignment w).text ++
        (moreAssignments (List.zipWith assignment more ws) ++ keyTail gap (toInt64 key)))) := by
  rw [render_cells (render_keyPieces word gap) taken, cellsText, cells_text]
  simp [assignment, Assignment.text, Assignment.head, head]

end Target

/-- A value in the format of an INSERT, behind some spaces. -/
structure Place where
  gap : Nat
  source : Source

namespace Place

def value (p : Place) (w : Written) : ListedValue := ⟨p.gap, w⟩

def cells : List Place → List Cell := List.map fun p => ⟨44 :: spaces p.gap, p.source⟩

theorem cells_text (more : List Place) (ws : List Written) :
    cellsText (cells more) ws = moreValues (List.zipWith value more ws) := by
  induction more generalizing ws with
  | nil => rfl
  | cons p more ih =>
    cases ws with
    | nil => rfl
    | cons w ws =>
      have step : cellsText (cells (p :: more)) (w :: ws) =
          44 :: spaces p.gap ++ (w.text ++ cellsText (cells more) ws) := rfl
      rw [step, ih]
      simp [moreValues, value, ListedValue.text]

/-- The INSERT an INSERT's format is rendered to. -/
theorem render_insert {Double : Type*} {fixed : Double → Fixed} {va rest : VaList Double} {first : Place}
    {more : List Place} {w : Written} {ws : List Written}
    (taken : takeAll? fixed (⟨spaces first.gap, first.source⟩ :: cells more) va = some (w :: ws, rest))
    (header : Bytes) :
    render fixed (cellPieces (fun literal => [.text (literal ++ insertTail)]) header
        (⟨spaces first.gap, first.source⟩ :: cells more)) va =
      some (header ++ ((first.value w).text ++
        (moreValues (List.zipWith value more ws) ++ insertTail))) := by
  have tail : ∀ literal, render fixed [.text (literal ++ insertTail)] rest = some (literal ++ insertTail) := by
    intro literal
    simp [render]
  rw [render_cells tail taken, cellsText, cells_text]
  simp [value, ListedValue.text]

end Place

end WorkerInformer.Sql
