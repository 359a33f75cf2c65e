import Mathlib.Data.Rat.Defs
import WorkerInformer.InformerTable
import WorkerInformer.SqlStatements

/-! `ParentDB::InformerUpdate`: a document of the main database becomes an
UPDATE of the row with its `guid_int`, or an INSERT if there is none. The
statement is formatted into a buffer of fixed size. `rating_division` is read
as a `float` and so passed as a double, while both formats ask for an integer
there: the conversion takes the next integer slot instead. -/
namespace WorkerInformer.InformerUpdate
open Bytes Sql Printf InformerTable

/-! ## Documents -/

/-- A document as `nlohmann::json` parses it. -/
inductive Document
  | null
  | boolean (value : Bool)
  | number (value : ℚ)
  | string (text : Bytes)
  | array (items : List Document)
  | object (members : List (Bytes × Document))

namespace Document

/-- `x[key]`; a missing member is null, and what has no members throws. -/
def at? (x : Document) (key : Bytes) : Option Document :=
  match x with
  | object members => some ((members.reverse.lookup key).getD null)
  | null => some null
  | _ => none

def getString? : Document → Option Bytes
  | string text => some text
  | _ => none

/-- Conversion of a number to an integer type drops the fraction. -/
def truncate (value : ℚ) : Int := value.num.tdiv value.den

def getInt? : Document → Option Int32
  | number value => some (Int32.ofInt (truncate value))
  | boolean value => some (if value then 1 else 0)
  | _ => none

def getInt64? : Document → Option Int64
  | number value => some (Int64.ofInt (truncate value))
  | boolean value => some (if value then 1 else 0)
  | _ => none

def getBool? : Document → Option Bool
  | boolean value => some value
  | _ => none

/-- The number, if `is_number()`. -/
def number? : Document → Option ℚ
  | number value => some value
  | _ => none

end Document

/-- `boost::lexical_cast<int>`: a sign and digits, within the range of `int`. -/
def lexicalCast? (text : Bytes) : Option Int32 :=
  let (negative, digits) := match text with
    | 45 :: rest => (true, rest)
    | 43 :: rest => (false, rest)
    | _ => (false, text)
  let i : Int := if negative then -value digits else value digits
  if digits ≠ [] ∧ digits.all isDigit ∧ -2 ^ 31 ≤ i ∧ i < 2 ^ 31 then some (Int32.ofInt i) else none

/-- What the compiler's floating point does with the document's numbers. -/
structure Floats where
  Double : Type
  /-- `get<float>()`, as a double. -/
  ofNumber : ℚ → Double
  fixed : Double → Fixed
  /-- `(unsigned)(capacity * get<float>())`. -/
  scaled : Int32 → ℚ → UInt32

/-- The configuration, and `Config::minifyhtml`. -/
structure Env where
  floats : Floats
  rangeShortTerm : floats.Double
  rangeLongTerm : floats.Double
  rangeContext : floats.Double
  rangeSearch : floats.Double
  retargetingPercentage : Int32
  minifyhtml : Bytes → Bytes

/-- What one pass of the loop reads besides the two keys; `ratingDivision` is
there if it is a number. -/
structure Fields (Double : Type) where
  title : Bytes
  account : Bytes
  domain : Bytes
  css : Bytes
  headerHtml : Bytes
  footerHtml : Bytes
  socialBranch : Int32
  height : Int32
  width : Int32
  heightBanner : Int32
  widthBanner : Int32
  capacity : Int32
  autoReload : Int32
  blinking : Int32
  shake : Int32
  blinkingReload : Bool
  shakeReload : Bool
  shakeMouse : Bool
  rangeShortTerm : Double
  rangeLongTerm : Double
  rangeContext : Double
  rangeSearch : Double
  retargetingCapacity : UInt32
  userCode : Bytes
  htmlNotification : Bool
  plaseBranch : Bool
  retargetingBranch : Bool
  ratingDivision : Option ℚ

/-- `x[key].is_number() ? x[key].get<int>() : 0`. -/
def numberOrZero (x : Document) : Int32 := (x.number?.map fun value => Int32.ofInt (Document.truncate value)).getD 0

/-- `x[key].is_number() ? x[key].get<float>() : otherwise`. -/
def rangeOr (floats : Floats) (x : Document) (otherwise : floats.Double) : floats.Double :=
  (x.number?.map floats.ofNumber).getD otherwise

/-- `capacity` from `admaker.Main.itemsNumber`. -/
def capacity? (element : Document) : Option Int32 :=
  match element with
  | .number value => some (Int32.ofInt (Document.truncate value))
  | .string text => lexicalCast? text
  | _ => some 0

/-- The reads of one pass; a read that throws is `none`. -/
def readFields? (env : Env) (x : Document) : Option (Fields env.floats.Double) := do
  let main ← (← x.at? (bytes "admaker")).at? (bytes "Main")
  let header ← (← x.at? (bytes "admaker")).at? (bytes "MainHeader")
  let footer ← (← x.at? (bytes "admaker")).at? (bytes "MainFooter")
  let nonRelevant ← x.at? (bytes "nonRelevant")
  let capacity ← capacity? (← main.at? (bytes "itemsNumber"))
  let action ← (← nonRelevant.at? (bytes "action")).getString?
  let css ← (← x.at? (bytes "css")).getString?
  let retargeting ← x.at? (bytes "retargeting_capacity")
  return {
    title := ← (← x.at? (bytes "title")).getString?
    account := ← (← x.at? (bytes "user")).getString?
    domain := ← (← x.at? (bytes "domain")).getString?
    css := env.minifyhtml css
    headerHtml := ← (← header.at? (bytes "html")).getString?
    footerHtml := ← (← footer.at? (bytes "html")).getString?
    socialBranch := if action = bytes "usercode" then 0 else 1
    height := ← (← x.at? (bytes "height")).getInt?
    width := ← (← x.at? (bytes "width")).getInt?
    heightBanner := ← (← x.at? (bytes "height_banner")).getInt?
    widthBanner := ← (← x.at? (bytes "width_banner")).getInt?
    capacity := capacity
    autoReload := numberOrZero (← x.at? (bytes "auto_reload"))
    blinking := numberOrZero (← x.at? (bytes "blinking"))
    shake := numberOrZero (← x.at? (bytes "shake"))
    blinkingReload := ← (← x.at? (bytes "blinking_reload")).getBool?
    shakeReload := ← (← x.at? (bytes "shake_reload")).getBool?
    shakeMouse := ← (← x.at? (bytes "shake_mouse")).getBool?
    rangeShortTerm := rangeOr env.floats (← x.at? (bytes "range_short_term")) env.rangeShortTerm
    rangeLongTerm := rangeOr env.floats (← x.at? (bytes "range_long_term")) env.rangeLongTerm
    rangeContext := rangeOr env.floats (← x.at? (bytes "range_context")) env.rangeContext
    rangeSearch := rangeOr env.floats (← x.at? (bytes "range_search")) env.rangeSearch
    retargetingCapacity := match retargeting.number? with
      | some value => env.floats.scaled capacity value
      | none => (env.retargetingPercentage * capacity / 100).toUInt32
    userCode := ← (← nonRelevant.at? (bytes "userCode")).getString?
    htmlNotification := ← (← x.at? (bytes "html_notification")).getBool?
    plaseBranch := ← (← x.at? (bytes "plase_branch")).getBool?
    retargetingBranch := ← (← x.at? (bytes "retargeting_branch")).getBool?
    ratingDivision := (← x.at? (bytes "rating_division")).number? }

/-- A document as the loop uses it. -/
structure Parsed (env : Env) where
  id : Bytes
  longId : Int64
  fields : Fields env.floats.Double

/-- The document's `guid_int`. -/
def guidInt? (x : Document) : Option Int64 := (x.at? (bytes "guid_int")).bind Document.getInt64?

/-- One pass of the loop up to the statement: `none` if a read throws, and
`some none` where the loop continues with the next document. -/
def parse? (env : Env) (x : Document) : Option (Option (Parsed env)) :=
  ((x.at? (bytes "guid")).bind Document.getString?).bind fun guid =>
    if lower guid = [] then some none
    else (guidInt? x).bind fun longId => (readFields? env x).map fun fields => some ⟨lower guid, longId, fields⟩

/-! ## Statements -/

def updateFormat : Bytes :=
  bytes "UPDATE Informer SET title='%q',account='%q',domain='%q'," ++
  bytes "teasersCss='%q',headerHtml='%q',footerHtml='%q'," ++
  bytes "                              social_branch=%d, valid=1,height=%d," ++
  bytes "width=%d,height_banner=%d,width_banner=%d,capacity=%d, auto_reload=%d," ++
  bytes "                              blinking=%d, shake=%d," ++
  bytes " blinking_reload=%d, shake_reload=%d, shake_mouse=%d," ++
  bytes "                              range_short_term=%f, range_long_term=%f," ++
  bytes " range_context=%f, range_search=%f, retargeting_capacity=%u," ++
  bytes " user_code='%q', html_notification=%d, place_branch=%d," ++
  bytes " retargeting_branch=%d,                              rating_division=%d" ++
  bytes "                              WHERE id=%lld;"

def insertFormat : Bytes :=
  bytes "INSERT OR IGNORE INTO Informer(id,guid,title, account, domain," ++
  bytes " teasersCss,headerHtml,footerHtml,                              social_branch," ++
  bytes "valid,height,width,height_banner,width_banner,capacity, auto_reload," ++
  bytes "                              blinking, shake, blinking_reload," ++
  bytes " shake_reload, shake_mouse,                              range_short_term," ++
  bytes " range_long_term, range_context, range_search, retargeting_capacity," ++
  bytes " user_code, html_notification, place_branch, retargeting_branch," ++
  bytes "                              rating_division                              )" ++
  bytes " VALUES(                              %lld,'%q','%q','%q','%q','%q','%q','%q'," ++
  bytes "                              %d,1,%d,%d,%d,%d,%d, %d," ++
  bytes "                              %d,%d,%d,%d, %d," ++
  bytes "                              %f,%f,%f,%f,%u,'%q',%d,%d,%d,%d);"

/-- `sizeof(buf)`. -/
def sizeofBuf : Nat := 262144

def boolSlot (b : Bool) : Slot := .word (if b then 1 else 0)

section Arguments
variable {Double : Type}

/-- The integer and pointer arguments both calls have in common, in order. -/
def Fields.slots (p : Fields Double) : List Slot :=
  [.pointer p.title, .pointer p.account, .pointer p.domain, .pointer p.css, .pointer p.headerHtml,
    .pointer p.footerHtml, .word p.socialBranch.toInt, .word p.height.toInt, .word p.width.toInt,
    .word p.heightBanner.toInt, .word p.widthBanner.toInt, .word p.capacity.toInt, .word p.autoReload.toInt,
    .word p.blinking.toInt, .word p.shake.toInt, boolSlot p.blinkingReload, boolSlot p.shakeReload,
    boolSlot p.shakeMouse, .word p.retargetingCapacity.toNat, .pointer p.userCode, boolSlot p.htmlNotification,
    boolSlot p.plaseBranch, boolSlot p.retargetingBranch]

end Arguments

/-- The double arguments of both calls. -/
def Parsed.doubles {env : Env} (p : Parsed env) : List env.floats.Double :=
  [p.fields.rangeShortTerm, p.fields.rangeLongTerm, p.fields.rangeContext, p.fields.rangeSearch,
    env.floats.ofNumber (p.fields.ratingDivision.getD 1000)]

/-- The text the UPDATE is formatted to, with what lies above the arguments. -/
def Parsed.updateText {env : Env} (p : Parsed env) (above : Nat → Int) : Option Bytes :=
  render env.floats.fixed (pieces updateFormat) ⟨p.fields.slots ++ [.word p.longId.toInt], p.doubles, above⟩

/-- The text the INSERT is formatted to. -/
def Parsed.insertText {env : Env} (p : Parsed env) (above : Nat → Int) : Option Bytes :=
  render env.floats.fixed (pieces insertFormat)
    ⟨[.word p.longId.toInt, .pointer p.id] ++ p.fields.slots, p.doubles, above⟩

def selectFormat : Bytes := bytes "SELECT id FROM Informer WHERE id=%lld;"

/-- `find`: the table has a row with this id. -/
def find (t : Table) (longId : Int64) : Bool :=
  match snprintf Empty.elim sizeofBuf selectFormat ⟨[.word longId.toInt], [], fun _ => 0⟩ with
  | some buf => sqlRows t buf ≠ []
  | none => false

/-- The statement in `buf`: the text is cut to the size of the buffer. -/
def Parsed.statement {env : Env} (p : Parsed env) (above : Nat → Int) (found : Bool) : Bytes :=
  (((if found then p.updateText above else p.insertText above).map (·.take (sizeofBuf - 1)))).getD []

/-- The rest of one pass of the loop. -/
def Parsed.store {env : Env} (p : Parsed env) (above : Nat → Int) (t : Table) : Table :=
  sqlStatement t (p.statement above (find t p.longId))

/-- The loop of `InformerUpdate`: a read that throws leaves it. `above n` is what
lies above the arguments in the `n`-th pass. -/
def informerUpdate (env : Env) : (Nat → Nat → Int) → Table → List Document → Table
  | _, t, [] => t
  | above, t, x :: items =>
    match parse? env x with
    | none => t
    | some none => informerUpdate env (fun n => above (n + 1)) t items
    | some (some p) => informerUpdate env (fun n => above (n + 1)) (p.store (above 0) t) items

end WorkerInformer.InformerUpdate
