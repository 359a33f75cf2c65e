import WorkerInformer.InformerTable
import WorkerInformer.Json
import WorkerInformer.Printf

/-! `src/Informer.cpp`: the informer a worker serves, built from the columns of
a row in the order `getInformer.sql` selects them, and the JSON text of it that
goes into a page. -/
namespace WorkerInformer
open Bytes Sql Printf InformerTable

/-- The longest integer a text begins with. -/
def leadingInt (text : Bytes) : Int :=
  match text with
  | 45 :: rest => -value (rest.takeWhile isDigit)
  | _ => value (text.takeWhile isDigit)

def getColumnInt64 : Value → Int
  | .null => 0
  | .integer i => i
  | .real text | .text text => leadingInt text

def getColumnInt (v : Value) : Int := toInt32 (getColumnInt64 v)

def getColumnBool (v : Value) : Bool := getColumnInt v ≠ 0

def getColumnString : Value → Bytes
  | .null => []
  | .integer i => signed i
  | .real text | .text text => text

/-- An `int` that becomes an `unsigned int`, in the call or in the constructor. -/
def getColumnUnsigned (v : Value) : Nat := toUInt32 (getColumnInt v)

/-- Class `Informer`; a double is kept as the value of its column. -/
structure Informer where
  id : Int
  guid : Bytes
  title : Bytes
  account : Bytes
  domain : Bytes
  capacity : Nat
  autoReload : Nat
  blinking : Nat
  shake : Nat
  blinkingReload : Bool
  shakeReload : Bool
  shakeMouse : Bool
  teasersCss : Bytes
  headerHtml : Bytes
  footerHtml : Bytes
  rangeShortTerm : Value
  rangeLongTerm : Value
  rangeContext : Value
  rangeSearch : Value
  rangeCategory : Value
  retargetingCapacity : Nat
  blocked : Bool
  socialBranch : Bool
  userCode : Bytes
  htmlNotification : Bool
  plaseBranch : Bool
  retargetingBranch : Bool
  ratingDivision : Int

namespace Informer

/-- The constructor call of `Core_DataBase::getInformer`: columns by position. -/
def ofColumns (rangeCategory : Value) (columns : List Value) : Informer :=
  let column (i : Nat) := columns.getD i .null
  { id := getColumnInt64 (column 0)
    guid := getColumnString (column 1)
    title := getColumnString (column 2)
    account := getColumnString (column 3)
    domain := getColumnString (column 4)
    capacity := getColumnUnsigned (column 5)
    autoReload := getColumnUnsigned (column 6)
    blinking := getColumnUnsigned (column 7)
    shake := getColumnUnsigned (column 8)
    blinkingReload := getColumnBool (column 9)
    shakeReload := getColumnBool (column 10)
    shakeMouse := getColumnBool (column 11)
    teasersCss := getColumnString (column 12)
    headerHtml := getColumnString (column 13)
    footerHtml := getColumnString (column 14)
    rangeShortTerm := column 15
    rangeLongTerm := column 16
    rangeContext := column 17
    rangeSearch := column 18
    rangeCategory := rangeCategory
    retargetingCapacity := getColumnUnsigned (column 19)
    blocked := getColumnBool (column 20)
    socialBranch := getColumnBool (column 21)
    userCode := getColumnString (column 22)
    htmlNotification := getColumnBool (column 23)
    plaseBranch := getColumnBool (column 24)
    retargetingBranch := getColumnBool (column 25)
    ratingDivision := getColumnInt (column 26) }

/-- The informer a row of the table stands for, column by column. -/
def ofRow (rangeCategory : Value) (row : Row) : Informer where
  id := row.id
  guid := row.guid
  title := getColumnString (row.values .title)
  account := getColumnString (row.values .account)
  domain := getColumnString (row.values .domain)
  capacity := getColumnUnsigned (row.values .capacity)
  autoReload := getColumnUnsigned (row.values .autoReload)
  blinking := getColumnUnsigned (row.values .blinking)
  shake := getColumnUnsigned (row.values .shake)
  blinkingReload := getColumnBool (row.values .blinkingReload)
  shakeReload := getColumnBool (row.values .shakeReload)
  shakeMouse := getColumnBool (row.values .shakeMouse)
  teasersCss := getColumnString (row.values .teasersCss)
  headerHtml := getColumnString (row.values .headerHtml)
  footerHtml := getColumnString (row.values .footerHtml)
  rangeShortTerm := row.values .rangeShortTerm
  rangeLongTerm := row.values .rangeLongTerm
  rangeContext := row.values .rangeContext
  rangeSearch := row.values .rangeSearch
  rangeCategory := rangeCategory
  retargetingCapacity := getColumnUnsigned (row.values .retargetingCapacity)
  blocked := getColumnBool (row.values .valid)
  socialBranch := getColumnBool (row.values .socialBranch)
  userCode := getColumnString (row.values .userCode)
  htmlNotification := getColumnBool (row.values .htmlNotification)
  plaseBranch := getColumnBool (row.values .placeBranch)
  retargetingBranch := getColumnBool (row.values .retargetingBranch)
  ratingDivision := getColumnInt (row.values .ratingDivision)

/-- The members `toJson` assigns, in its order. -/
def members (informer : Informer) : List (Bytes × Json.Scalar) :=
  [(bytes "informer_id_int", .number informer.id), (bytes "informer_id", .string informer.guid),
    (bytes "title", .string informer.title), (bytes "account", .string informer.account),
    (bytes "domain", .string informer.domain), (bytes "capacity", .number informer.capacity),
    (bytes "auto_reload", .number informer.autoReload), (bytes "blinking", .number informer.blinking),
    (bytes "shake", .number informer.shake), (bytes "blinking_reload", .boolean informer.blinkingReload),
    (bytes "shake_reload", .boolean informer.shakeReload), (bytes "shake_mouse", .boolean informer.shakeMouse),
    (bytes "headerHtml", .string informer.headerHtml), (bytes "footerHtml", .string informer.footerHtml),
    (bytes "retargeting_capacity", .number informer.retargetingCapacity),
    (bytes "social_branch", .boolean informer.socialBranch),
    (bytes "html_notification", .boolean informer.htmlNotification),
    (bytes "place_branch", .boolean informer.plaseBranch),
    (bytes "retargeting_branch", .boolean informer.retargetingBranch)]

/-- `Informer::toJson`. -/
def toJson (informer : Informer) : Bytes :=
  Json.dump (informer.members.foldl (fun j e => Json.assign e.1 e.2 j) [])

end Informer

end WorkerInformer
