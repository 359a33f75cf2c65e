import WorkerInformer.InformerUpdate
import WorkerInformer.SqlFormats

/-! The two statements of `InformerUpdate` as their formats write them: which
value stands at which column, and how SQLite reads them. The UPDATE takes
`rating_division` from the slot of `guid_int` and its key from above the
arguments; the INSERT takes `rating_division` from there. -/
namespace WorkerInformer.InformerUpdate
open Bytes Sql Printf InformerTable
open SqlLexer (letters_of_all)

/-! ## The formats -/

def updateHeader : Bytes := bytes "UPDATE Informer SET "

def updateFirst : Target := ⟨0, bytes "title", letters_of_all rfl, .argument .q⟩

def updateMore : List Target :=
  [⟨0, bytes "account", letters_of_all rfl, .argument .q⟩,
    ⟨0, bytes "domain", letters_of_all rfl, .argument .q⟩,
    ⟨0, bytes "teasersCss", letters_of_all rfl, .argument .q⟩,
    ⟨0, bytes "headerHtml", letters_of_all rfl, .argument .q⟩,
    ⟨0, bytes "footerHtml", letters_of_all rfl, .argument .q⟩,
    ⟨30, bytes "social_branch", letters_of_all rfl, .argument .d⟩,
    ⟨1, bytes "valid", letters_of_all rfl, .constant 1⟩,
    ⟨0, bytes "height", letters_of_all rfl, .argument .d⟩,
    ⟨0, bytes "width", letters_of_all rfl, .argument .d⟩,
    ⟨0, bytes "height_banner", letters_of_all rfl, .argument .d⟩,
    ⟨0, bytes "width_banner", letters_of_all rfl, .argument .d⟩,
    ⟨0, bytes "capacity", letters_of_all rfl, .argument .d⟩,
    ⟨1, bytes "auto_reload", letters_of_all rfl, .argument .d⟩,
    ⟨30, bytes "blinking", letters_of_all rfl, .argument .d⟩,
    ⟨1, bytes "shake", letters_of_all rfl, .argument .d⟩,
    ⟨1, bytes "blinking_reload", letters_of_all rfl, .argument .d⟩,
    ⟨1, bytes "shake_reload", letters_of_all rfl, .argument .d⟩,
    ⟨1, bytes "shake_mouse", letters_of_all rfl, .argument .d⟩,
    ⟨30, bytes "range_short_term", letters_of_all rfl, .argument .f⟩,
    ⟨1, bytes "range_long_term", letters_of_all rfl, .argument .f⟩,
    ⟨1, bytes "range_context", letters_of_all rfl, .argument .f⟩,
    ⟨1, bytes "range_search", letters_of_all rfl, .argument .f⟩,
    ⟨1, bytes "retargeting_capacity", letters_of_all rfl, .argument .u⟩,
    ⟨1, bytes "user_code", letters_of_all rfl, .argument .q⟩,
    ⟨1, bytes "html_notification", letters_of_all rfl, .argument .d⟩,
    ⟨1, bytes "place_branch", letters_of_all rfl, .argument .d⟩,
    ⟨1, bytes "retargeting_branch", letters_of_all rfl, .argument .d⟩,
    ⟨30, bytes "rating_division", letters_of_all rfl, .argument .d⟩]

theorem pieces_updateFormat :
    pieces updateFormat = cellPieces (Target.keyPieces 30) updateHeader
      (⟨updateFirst.head, updateFirst.source⟩ :: Target.cells updateMore) := by
  decide +kernel

/-- The columns the INSERT names, in its order. -/
def insertColumns : List Bytes :=
  [bytes "id", bytes "guid", bytes "title", bytes "account", bytes "domain", bytes "teaserscss",
    bytes "headerhtml", bytes "footerhtml", bytes "social_branch", bytes "valid", bytes "height",
    bytes "width", bytes "height_banner", bytes "width_banner", bytes "capacity", bytes "auto_reload",
    bytes "blinking", bytes "shake", bytes "blinking_reload", bytes "shake_reload", bytes "shake_mouse",
    bytes "range_short_term", bytes "range_long_term", bytes "range_context", bytes "range_search",
    bytes "retargeting_capacity", bytes "user_code", bytes "html_notification", bytes "place_branch",
    bytes "retargeting_branch", bytes "rating_division"]

/-- The INSERT up to its values. -/
def insertHeader : Bytes := insertFormat.take 561

def insertFirst : Place := ⟨30, .argument .lld⟩

def insertMore : List Place :=
  List.replicate 7 ⟨0, .argument .q⟩ ++ [⟨30, .argument .d⟩, ⟨0, .constant 1⟩] ++
    List.replicate 5 ⟨0, .argument .d⟩ ++ [⟨1, .argument .d⟩, ⟨30, .argument .d⟩] ++
    List.replicate 3 ⟨0, .argument .d⟩ ++ [⟨1, .argument .d⟩, ⟨30, .argument .f⟩] ++
    List.replicate 3 ⟨0, .argument .f⟩ ++ [⟨0, .argument .u⟩, ⟨0, .argument .q⟩] ++
    List.replicate 4 ⟨0, .argument .d⟩

theorem pieces_insertFormat :
    pieces insertFormat = cellPieces (fun literal => [.text (literal ++ insertTail)]) insertHeader
      (⟨spaces insertFirst.gap, insertFirst.source⟩ :: Place.cells insertMore) := by
  decide +kernel

theorem updateHeader_length : updateHeader.length = 20 := rfl

theorem insertHeader_length : insertHeader.length = 561 := by
  decide +kernel

theorem feed_updateHeader : Reader.start.feed updateHeader = ⟨.start, .set (bytes "informer") []⟩ := by
  decide +kernel

theorem feed_insertHeader :
    Reader.start.feed insertHeader = ⟨.start, .value (bytes "informer") insertColumns []⟩ := by
  decide +kernel

/-! ## The values -/

theorem toInt32_toInt (i : Int32) : toInt32 i.toInt = i.toInt := by
  have back : (Int32.ofInt i.toInt).toInt = i.toInt.bmod (2 ^ 32) := Int32.toInt_ofInt
  rw [toInt32, ← back, Int32.ofInt_toInt]

theorem toInt64_toInt (i : Int64) : toInt64 i.toInt = i.toInt := by
  have back : (Int64.ofInt i.toInt).toInt = i.toInt.bmod (2 ^ 64) := Int64.toInt_ofInt
  rw [toInt64, ← back, Int64.ofInt_toInt]

theorem toUInt32_toNat (n : UInt32) : toUInt32 n.toNat = n.toNat := by
  have small := n.toNat_lt
  simp only [toUInt32]
  omega

theorem toInt32_bool (b : Bool) : toInt32 (if b then 1 else 0) = if b then 1 else 0 := by
  cases b <;> rfl

section Values
variable {env : Env} (p : Parsed env)

/-- The values both statements write between the title and `rating_division`. -/
def Parsed.written : List Written :=
  let number (i : Int32) := Written.ofInt (toInt32 i.toInt)
  let flag (b : Bool) := Written.ofInt (toInt32 (if b then 1 else 0))
  let range (x : env.floats.Double) := Written.ofFixed (env.floats.fixed x)
  [.quoted (cString p.fields.account), .quoted (cString p.fields.domain), .quoted (cString p.fields.css),
    .quoted (cString p.fields.headerHtml), .quoted (cString p.fields.footerHtml), number p.fields.socialBranch,
    .ofInt 1, number p.fields.height, number p.fields.width, number p.fields.heightBanner,
    number p.fields.widthBanner, number p.fields.capacity, number p.fields.autoReload,
    number p.fields.blinking, number p.fields.shake, flag p.fields.blinkingReload, flag p.fields.shakeReload,
    flag p.fields.shakeMouse, range p.fields.rangeShortTerm, range p.fields.rangeLongTerm,
    range p.fields.rangeContext, range p.fields.rangeSearch, .ofInt (toUInt32 p.fields.retargetingCapacity.toNat),
    .quoted (cString p.fields.userCode), flag p.fields.htmlNotification, flag p.fields.plaseBranch,
    flag p.fields.retargetingBranch]

/-- The assignments of the UPDATE after the first. -/
def Parsed.assignments : List Assignment :=
  List.zipWith Target.assignment updateMore (p.written ++ [.ofInt (toInt32 p.longId.toInt)])

def Parsed.firstAssignment : Assignment := updateFirst.assignment (.quoted (cString p.fields.title))

/-- The values of the INSERT after the first. -/
def Parsed.listed (above : Nat → Int) : List ListedValue :=
  List.zipWith Place.value insertMore
    (.quoted (cString p.id) :: .quoted (cString p.fields.title) :: (p.written ++ [.ofInt (toInt32 (above 0))]))

def Parsed.firstListed : ListedValue := insertFirst.value (.ofInt (toInt64 p.longId.toInt))

theorem updateText_eq (above : Nat → Int) :
    p.updateText above = some (updateHeader ++ (p.firstAssignment.text ++
      (moreAssignments p.assignments ++ keyTail 30 (toInt64 (above 0))))) := by
  have taken : takeAll? env.floats.fixed (⟨updateFirst.head, updateFirst.source⟩ :: Target.cells updateMore)
      ⟨p.fields.slots ++ [.word p.longId.toInt], p.doubles, above⟩ =
        some (.quoted (cString p.fields.title) :: (p.written ++ [.ofInt (toInt32 p.longId.toInt)]),
          ⟨[], [env.floats.ofNumber (p.fields.ratingDivision.getD 1000)], above⟩) := rfl
  rw [Parsed.updateText, pieces_updateFormat]
  exact Target.render_update taken rfl updateHeader 30

theorem insertText_eq (above : Nat → Int) :
    p.insertText above = some (insertHeader ++ (p.firstListed.text ++
      (moreValues (p.listed above) ++ insertTail))) := by
  have taken : takeAll? env.floats.fixed (⟨spaces insertFirst.gap, insertFirst.source⟩ :: Place.cells insertMore)
      ⟨[.word p.longId.toInt, .pointer p.id] ++ p.fields.slots, p.doubles, above⟩ =
        some (.ofInt (toInt64 p.longId.toInt) :: .quoted (cString p.id) :: .quoted (cString p.fields.title) ::
          (p.written ++ [.ofInt (toInt32 (above 0))]),
          ⟨[], [env.floats.ofNumber (p.fields.ratingDivision.getD 1000)], fun n => above (n + 1)⟩) := rfl
  rw [Parsed.insertText, pieces_insertFormat]
  exact Place.render_insert taken insertHeader

end Values

/-! ## How SQLite reads what is kept of them -/

/-- What is kept of a statement after a header that is kept whole. -/
theorem prepare_take {header rest : Bytes} (free : NulFree (header ++ rest)) {position : Parser}
    (read : Reader.start.feed header = ⟨.start, position⟩) {k : Nat} (long : header.length ≤ k) :
    prepare ((header ++ rest).take k) =
      (Reader.feed ⟨.start, position⟩ (rest.take (k - header.length))).finish := by
  have kept : (header ++ rest).take k = header ++ rest.take (k - header.length) := by
    rw [List.take_append, List.take_of_length_le long]
  have free_kept : NulFree ((header ++ rest).take k) := fun zero => free (List.mem_of_mem_take zero)
  rw [prepare_eq_reader free_kept, kept, Reader.feed_append, read]

theorem updateText_nulFree {env : Env} {p : Parsed env} {above : Nat → Int} {text : Bytes}
    (rendered : p.updateText above = some text) : NulFree text :=
  render_nulFree (by decide +kernel) rendered

theorem insertText_nulFree {env : Env} {p : Parsed env} {above : Nat → Int} {text : Bytes}
    (rendered : p.insertText above = some text) : NulFree text :=
  render_nulFree (by decide +kernel) rendered

theorem selects_key (key : Int) (row : Row) :
    selects (bytes "informer") (some (keyCondition key)) row = decide (row.id = key) := by
  have selected : selects (bytes "informer") (some (keyCondition key)) row =
      decide (Value.integer row.id = .integer key) := selects_comparison rfl
  simpa using selected

/-! ## `find` -/

def selectHeader : Bytes := bytes "SELECT id FROM Informer WHERE id="

/-- The statement that looks for an id. -/
def selectId (key : Int) : Statement :=
  .conditional (.select [⟨none, bytes "id"⟩] (bytes "informer") (bytes "informer")) (some (keyCondition key)) none

theorem selectHeader_facts : selectHeader.length = 33 ∧ NulFree selectHeader := by
  decide +kernel

theorem pieces_selectFormat :
    pieces selectFormat = [.text selectHeader, .conversion .lld, .text [59]] := by
  decide +kernel

theorem feed_selectHeader : Reader.start.feed selectHeader =
    ⟨.start, .operand ⟨.select [⟨none, bytes "id"⟩] (bytes "informer") (bytes "informer"), [], [],
      some (.column ⟨none, bytes "id"⟩)⟩⟩ := by
  decide +kernel

theorem signed_length (i : Int64) : (signed i.toInt).length ≤ 21 := by
  have small : i.toInt.natAbs < 10 ^ 20 := by
    have lower := i.le_toInt
    have upper := i.toInt_lt
    omega
  have digits := decimal_length (k := 19) small
  unfold signed
  split <;> simp <;> omega

/-- **`find` is true exactly when the table has a row with the id.** -/
theorem find_iff (t : Table) (longId : Int64) : find t longId = true ↔ ∃ row ∈ t.rows, row.id = longId.toInt := by
  have written : snprintf Empty.elim sizeofBuf selectFormat ⟨[.word longId.toInt], [], fun _ => 0⟩ =
      some (selectHeader ++ (signed longId.toInt ++ [59])) := by
    have length := signed_length longId
    have short : (selectHeader ++ (signed longId.toInt ++ [59])).length ≤ sizeofBuf - 1 := by
      rw [List.length_append, List.length_append, selectHeader_facts.1]
      simp [sizeofBuf]
      omega
    rw [snprintf, pieces_selectFormat]
    simp only [render, VaList.convert, VaList.word?, toInt64_toInt, Option.map_some, Option.bind_some,
      List.append_nil]
    rw [List.take_of_length_le short]
  have free : NulFree (selectHeader ++ (signed longId.toInt ++ [59])) :=
    nulFree_append selectHeader_facts.2 (nulFree_append (signed_nulFree _) (by decide))
  have prepared : prepare (selectHeader ++ (signed longId.toInt ++ [59])) = some (selectId longId.toInt) := by
    rw [prepare_eq_reader free, Reader.feed_append, feed_selectHeader, ← ofInt_text, finish_key]
    rfl
  have rows : sqlRows t (selectHeader ++ (signed longId.toInt ++ [59])) =
      (t.rows.filter fun row => row.id = longId.toInt).map fun row => [.integer row.id] := by
    have selected : select? t (selectId longId.toInt) = some
        ((t.rows.filter (selects (bytes "informer") (some (keyCondition longId.toInt)))).map
          fun row => [.integer row.id]) := rfl
    rw [sqlRows, prepared, Option.bind_some, selected, Option.getD_some, funext (selects_key longId.toInt)]
  unfold find
  rw [written]
  simp only [rows]
  simp

end WorkerInformer.InformerUpdate
