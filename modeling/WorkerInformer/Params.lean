import WorkerInformer.Informer
import WorkerInformer.UrlParser

/-! `src/Params.cpp` and `Core::resultHtml`: the parameters of a request, their
JSON text, and the page that has it inside a script element. The text goes
through `percent_decode` and `escape_string` and then verbatim into the page. -/
namespace WorkerInformer
open Bytes Json UrlParser

/-- Class `Params`. -/
structure Params where
  testMode : Bool
  informerId : Bytes
  informerIdInt : Int
  get : Bytes
  post : Bytes
  capacity : Nat
  ratingDivision : Int
  country : Bytes
  region : Bytes

namespace Params

/-- The setters `CgiService::ProcessRequest` chains; the numbers are set later. -/
def ofRequest (query postq : Bytes) : Params where
  testMode := param query (bytes "test") = bytes "true"
  informerId := lower (param query (bytes "scr"))
  informerIdInt := 0
  get := query
  post := postq
  capacity := 0
  ratingDivision := 0
  country := param query (bytes "country")
  region := param query (bytes "region")

/-- What `Core::Process` sets once the informer is found. -/
def served (prms : Params) (informer : Informer) : Params :=
  { prms with
    informerIdInt := informer.id
    capacity := informer.capacity
    ratingDivision := informer.ratingDivision }

/-- The members `toJson` assigns, in its order. -/
def members (params : Params) : List (Bytes × Scalar) :=
  [(bytes "informer_id", .string params.informerId), (bytes "informer_id_int", .number params.informerIdInt),
    (bytes "test", .boolean params.testMode), (bytes "capacity", .number params.capacity),
    (bytes "rating_division", .number params.ratingDivision), (bytes "country", .string params.country),
    (bytes "region", .string params.region), (bytes "request", .string (bytes "initial"))]

/-- `Params::toJson`. -/
def toJson (params : Params) : Bytes :=
  dump (params.members.foldl (fun j e => assign e.1 e.2 j) [])

end Params

/-- A piece of the page template: text, or the place of an argument. -/
inductive TemplatePiece
  | text (literal : Bytes)
  | argument (n : Nat)

/-- What `Core::resultHtml` gives `boost::format` for `%1%`, `%2%` and `%3%`. -/
def substituted (informer : Informer) (params : Params) : Nat → Bytes
  | 1 => informer.toJson
  | 2 => params.toJson
  | 3 => informer.teasersCss
  | _ => []

/-- `Core::resultHtml`. -/
def resultHtml (template : List TemplatePiece) (informer : Informer) (params : Params) : Bytes :=
  (template.flatMap fun
    | .text literal => literal
    | .argument n => substituted informer params n) ++
  if params.testMode then bytes "<!--test-->" else []

/-- The members in the order of their keys. -/
theorem Params.sorted_members (params : Params) :
    params.members.foldl (fun j e => assign e.1 e.2 j) [] =
      [(bytes "capacity", .number params.capacity), (bytes "country", .string params.country),
        (bytes "informer_id", .string params.informerId), (bytes "informer_id_int", .number params.informerIdInt),
        (bytes "rating_division", .number params.ratingDivision), (bytes "region", .string params.region),
        (bytes "request", .string (bytes "initial")), (bytes "test", .boolean params.testMode)] := by
  rfl

theorem Params.endsScript_toJson (params : Params) :
    EndsScript params.toJson ↔
      EndsScript params.informerId ∨ EndsScript params.country ∨ EndsScript params.region := by
  have plain : ∀ key ∈ [bytes "capacity", bytes "country", bytes "informer_id", bytes "informer_id_int",
      bytes "rating_division", bytes "region", bytes "request", bytes "test"],
      Harmless (34 :: escapeString key ++ bytes "\":") := by decide
  rw [Params.toJson, Params.sorted_members, endsScript_dump]
  · have initial : ¬ EndsScript (bytes "initial") := by decide
    simp only [List.mem_cons, List.not_mem_nil, or_false, exists_eq_or_imp, exists_eq_left, Scalar.EndsScript,
      initial, false_or, or_false]
    tauto
  · intro e member
    apply plain e.1
    simp only [List.mem_cons, List.not_mem_nil, or_false] at member ⊢
    rcases member with rfl | rfl | rfl | rfl | rfl | rfl | rfl | rfl <;> simp

theorem endsScript_lower (text : Bytes) : EndsScript (lower text) ↔ EndsScript text := by
  rw [EndsScript, EndsScript, lower_lower]

/-- **A request value ends the script element exactly when it says so.** For
every query string, post text and informer, the JSON text that goes into the
page for `%2%` does not contain `</script` in any letter case if and only if
none of the decoded `scr`, `country` and `region` contains it. -/
theorem params_keep_script_iff (query postq : Bytes) (informer : Informer) :
    ¬ EndsScript (substituted informer ((Params.ofRequest query postq).served informer) 2) ↔
      ¬ EndsScript (param query (bytes "scr")) ∧ ¬ EndsScript (param query (bytes "country")) ∧
        ¬ EndsScript (param query (bytes "region")) := by
  have text := ((Params.ofRequest query postq).served informer).endsScript_toJson
  rw [substituted, text, not_or, not_or]
  exact and_congr (not_congr (endsScript_lower _)) Iff.rfl

/-- An informer to serve. -/
def plainInformer : Informer := Informer.ofRow .null ⟨1, bytes "a1b2", InformerTable.Column.default⟩

/-- The country of this request ends the script element. -/
theorem country_ends_script :
    EndsScript (substituted plainInformer
      ((Params.ofRequest (bytes "scr=a1b2&country=%3C/Script%3E") []).served plainInformer) 2) := by
  decide +kernel

end WorkerInformer
