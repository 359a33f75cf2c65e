import WorkerInformer.JsonReader
import WorkerInformer.Params

/-! What a page carries: the JSON texts of the informer and of the parameters
stand in the page where the template has its `%1%` and `%2%`. A reader that
starts there reads each member with its value and stops where the template goes
on, whatever the visitor asked for and whatever the informer holds. -/
namespace WorkerInformer.PageData
open Bytes Json

theorem lookup_cons (asked : Bytes) (e : Bytes × Scalar) (rest : Object) :
    List.lookup asked (e :: rest) = if asked = e.1 then some e.2 else List.lookup asked rest := by
  obtain ⟨key, value⟩ := e
  by_cases same : asked = key
  · subst same
    simp
  · have differs : (asked == key) = false := by simpa using same
    simp only [List.lookup_cons, differs, same, ↓reduceIte]

/-- `j[asked]` after `j[key] = value`. -/
theorem lookup_assign (key asked : Bytes) (value : Scalar) (j : Object) :
    (assign key value j).lookup asked = if asked = key then some value else j.lookup asked := by
  induction j with
  | nil => exact lookup_cons asked (key, value) []
  | cons e rest ih =>
    unfold assign
    split
    · rename_i is_key
      subst is_key
      simp only [lookup_cons]
      split <;> rfl
    · rename_i other
      split
      · exact lookup_cons asked (key, value) (e :: rest)
      · by_cases here : asked = e.1
        · have differs : asked ≠ key := fun same => other (same.symm.trans here)
          rw [lookup_cons, if_pos here, if_neg differs, lookup_cons, if_pos here]
        · rw [lookup_cons, if_neg here, ih, lookup_cons, if_neg here]

/-- Members of different names, assigned one after the other, are all there. -/
theorem lookup_assigned {members : List (Bytes × Scalar)} (distinct : (members.map Prod.fst).Nodup) (asked : Bytes)
    (j : Object) : (members.foldl (fun j e => assign e.1 e.2 j) j).lookup asked =
      (members.lookup asked).or (j.lookup asked) := by
  induction members generalizing j with
  | nil => rfl
  | cons e rest ih =>
    obtain ⟨absent, later⟩ := List.nodup_cons.mp distinct
    rw [List.foldl_cons, ih later, lookup_assign]
    by_cases same : asked = e.1
    · have nothing : rest.lookup asked = none := by
        rw [List.lookup_eq_none_iff]
        intro other member
        have differs : asked ≠ other.1 := fun is_name =>
          absent (List.mem_map.mpr ⟨other, member, is_name.symm.trans same⟩)
        simpa using differs
      rw [nothing, Option.none_or, if_pos same, lookup_cons, if_pos same, Option.some_or]
    · rw [if_neg same, lookup_cons, if_neg same]

/-- The members of the text an argument of the template stands for. -/
def membersOf (informer : Informer) (params : Params) : Nat → Option (List (Bytes × Scalar))
  | 1 => some informer.members
  | 2 => some params.members
  | _ => none

/-- What `boost::format` makes of a list of pieces. -/
def filled (informer : Informer) (params : Params) (pieces : List TemplatePiece) : Bytes :=
  pieces.flatMap fun
    | .text literal => literal
    | .argument n => substituted informer params n

def testMark (params : Params) : Bytes := if params.testMode then bytes "<!--test-->" else []

theorem resultHtml_eq (template : List TemplatePiece) (informer : Informer) (params : Params) :
    resultHtml template informer params = filled informer params template ++ testMark params := rfl

theorem filled_append (front back : List TemplatePiece) (n : Nat) (informer : Informer) (params : Params) :
    filled informer params (front ++ .argument n :: back) =
      filled informer params front ++ (substituted informer params n ++ filled informer params back) := by
  simp only [filled, List.flatMap_append, List.flatMap_cons]

/-- What is read of a page, from an argument of its template on, whatever follows the page. -/
theorem read_piece (front back : List TemplatePiece) {n : Nat} (informer : Informer) (params : Params)
    {members : List (Bytes × Scalar)} (is_json : membersOf informer params n = some members) (behind : Bytes) :
    ∃ j, JsonReader.read ((resultHtml (front ++ .argument n :: back) informer params ++ behind).drop
        (filled informer params front).length) = some (j, filled informer params back ++ testMark params ++ behind) ∧
      ∀ key, j.lookup key = members.lookup key := by
  have informer_keys : (informer.members.map Prod.fst).Nodup := by
    simp only [Informer.members, List.map_cons, List.map_nil]
    decide +kernel
  have params_keys : (params.members.map Prod.fst).Nodup := by
    simp only [Params.members, List.map_cons, List.map_nil]
    decide +kernel
  have reads {given : List (Bytes × Scalar)} (distinct : (given.map Prod.fst).Nodup)
      (text : substituted informer params n = dump (given.foldl (fun j e => assign e.1 e.2 j) [])) :
      ∃ j, JsonReader.read ((resultHtml (front ++ .argument n :: back) informer params ++ behind).drop
          (filled informer params front).length) =
            some (j, filled informer params back ++ testMark params ++ behind) ∧
        ∀ key, j.lookup key = given.lookup key := by
    refine ⟨given.foldl (fun j e => assign e.1 e.2 j) [], ?_, fun key => ?_⟩
    · rw [resultHtml_eq, filled_append, List.append_assoc, List.append_assoc, List.drop_left, text, List.append_assoc,
        JsonReader.read_dump, List.append_assoc]
    · rw [lookup_assigned distinct, List.lookup_nil, Option.or_none]
  unfold membersOf at is_json
  split at is_json
  · obtain rfl := Option.some.inj is_json
    exact reads informer_keys rfl
  · obtain rfl := Option.some.inj is_json
    exact reads params_keys rfl
  · cases is_json

/-- **The page carries its data.** For every template, wherever `%1%` or `%2%`
stands in it, every informer and every parameters: what a JSON reader reads of
the page from there on has exactly the members of `toJson`, each with its value,
and behind them stands the rest of the template. -/
theorem page_carries (front back : List TemplatePiece) {n : Nat} (informer : Informer) (params : Params)
    {members : List (Bytes × Scalar)} (is_json : membersOf informer params n = some members) :
    ∃ j, JsonReader.read ((resultHtml (front ++ .argument n :: back) informer params).drop
        (filled informer params front).length) = some (j, filled informer params back ++ testMark params) ∧
      ∀ key, j.lookup key = members.lookup key := by
  simpa using read_piece front back informer params is_json []

/-- The parameters of a request whose country goes on like the JSON text. -/
def quotingParams : Params :=
  (Params.ofRequest (bytes "scr=a1b2&country=%22,%22test%22:true") []).served plainInformer

/-- The script element of a page with these parameters. -/
theorem page_carries_quoting :
    ∃ j, JsonReader.read ((resultHtml ([.text (bytes "<script>var params = ")] ++ .argument 2 ::
          [.text (bytes ";</script>"), .argument 3]) plainInformer quotingParams).drop
        (filled plainInformer quotingParams [.text (bytes "<script>var params = ")]).length) =
        some (j, filled plainInformer quotingParams [.text (bytes ";</script>"), .argument 3] ++
          testMark quotingParams) ∧
      ∀ key, j.lookup key = quotingParams.members.lookup key :=
  page_carries _ _ _ _ rfl

end WorkerInformer.PageData
