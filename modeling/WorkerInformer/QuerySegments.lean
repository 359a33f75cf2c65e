import WorkerInformer.UrlParser

/-! `UrlParser::parse` read as a scanner: it is in a name or in a value, an
equals sign ends the name and an ampersand ends the value. An ampersand in a name
ends nothing, and the first question mark of the text, whatever it stands in,
starts the reading. -/
namespace WorkerInformer.UrlParser
open Bytes

/-- What has been read of the parameter the reader is in. -/
inductive Place
  | name (read : Bytes)
  | value (name read : Bytes)

/-- The parameters from this place on, as they are written. -/
def writtenFrom : Place → Bytes → List (Bytes × Bytes)
  | .name _, [] => []
  | .value name read, [] => [(name, read)]
  | .name read, c :: rest =>
    if c = 61 then writtenFrom (.value read []) rest else writtenFrom (.name (read ++ [c])) rest
  | .value name read, c :: rest =>
    if c = 38 then (name, read) :: writtenFrom (.name []) rest else writtenFrom (.value name (read ++ [c])) rest

/-- The place behind a text. -/
def placeFrom : Place → Bytes → Place
  | place, [] => place
  | .name read, c :: rest =>
    if c = 61 then placeFrom (.value read []) rest else placeFrom (.name (read ++ [c])) rest
  | .value name read, c :: rest =>
    if c = 38 then placeFrom (.name []) rest else placeFrom (.value name (read ++ [c])) rest

/-- The parameters of a text without a question mark, as they are written. -/
def written (text : Bytes) : List (Bytes × Bytes) := writtenFrom (.name []) text

def endOf (text : Bytes) : Place := placeFrom (.name []) text

/-- What the last parameter of this name has. -/
def lastNamed? : List (Bytes × Bytes) → Bytes → Option Bytes
  | [], _ => none
  | p :: rest, name => (lastNamed? rest name).or (if p.1 = name then some p.2 else none)

/-- The value of a name among written parameters. -/
def valueIn (parameters : List (Bytes × Bytes)) (name : Bytes) : Option Bytes :=
  (lastNamed? parameters name).map percentDecode

/-! ## The loop of `parse` -/

theorem writtenFrom_name (read text : Bytes) :
    writtenFrom (.name read) text =
      match after? 61 text with
      | none => []
      | some value => writtenFrom (.value (read ++ text.takeWhile (· ≠ 61)) []) value := by
  induction text generalizing read with
  | nil => rfl
  | cons c rest ih =>
    rw [writtenFrom, after?]
    by_cases equals : c = 61
    · simp [equals]
    · rw [if_neg equals, if_neg equals, ih, List.takeWhile_cons_of_pos (by simpa using equals)]
      simp

theorem writtenFrom_value (name read text : Bytes) :
    writtenFrom (.value name read) text =
      (name, read ++ text.takeWhile (· ≠ 38)) ::
        match after? 38 text with
        | none => []
        | some rest => written rest := by
  induction text generalizing read with
  | nil => simp [writtenFrom, after?]
  | cons c rest ih =>
    rw [writtenFrom, after?]
    by_cases ampersand : c = 38
    · simp [ampersand, written]
    · rw [if_neg ampersand, if_neg ampersand, ih, List.takeWhile_cons_of_pos (by simpa using ampersand)]
      simp

/-- The loop stores what is written, decoded, in its order. -/
theorem parseFrom_eq {fuel : Nat} {text : Bytes} (enough : text.length < fuel) (params : KeyMap Bytes Bytes) :
    parseFrom fuel text params = params.setAll ((written text).map fun p => (p.1, percentDecode p.2)) := by
  induction fuel generalizing text params with
  | zero => omega
  | succ fuel ih =>
    rw [parseFrom, written, writtenFrom_name]
    cases named : after? 61 text with
    | none => rfl
    | some value =>
      have shorter := after?_length named
      simp only [writtenFrom_value]
      cases next : after? 38 value with
      | none => rfl
      | some rest =>
        have rest_shorter := after?_length next
        exact ih (by omega) _

theorem get?_setAll_decoded (params : KeyMap Bytes Bytes) (parameters : List (Bytes × Bytes)) (name : Bytes) :
    (params.setAll (parameters.map fun p => (p.1, percentDecode p.2))).get? name =
      (valueIn parameters name).or (params.get? name) := by
  induction parameters generalizing params with
  | nil => rfl
  | cons p rest ih =>
    rw [KeyMap.setAll, List.map_cons, List.foldl_cons, ← KeyMap.setAll, ih, KeyMap.get?_set, valueIn, valueIn, lastNamed?]
    cases lastNamed? rest name with
    | some _ => rfl
    | none =>
      by_cases same : p.1 = name
      · simp [same]
      · simp [same, Ne.symm same]

/-- The map of a text is what is written behind its first question mark, if it
has one. -/
theorem get?_parse (url name : Bytes) :
    (parse url).get? name = valueIn (written ((after? 63 url).getD url)) name := by
  have enough : ((after? 63 url).getD url).length < url.length + 1 := by
    cases found : after? 63 url with
    | none => simp
    | some rest => exact Nat.lt_succ_of_lt (after?_length found)
  rw [parse, parseFrom_eq enough, get?_setAll_decoded, KeyMap.get?_empty, Option.or_none]

theorem get?_parse_unmarked {url : Bytes} (unmarked : 63 ∉ url) (name : Bytes) :
    (parse url).get? name = valueIn (written url) name := by
  rw [get?_parse, after?_eq_none unmarked, Option.getD_none]

theorem lastNamed?_append (first second : List (Bytes × Bytes)) (name : Bytes) :
    lastNamed? (first ++ second) name = (lastNamed? second name).or (lastNamed? first name) := by
  induction first with
  | nil => simp [lastNamed?]
  | cons p rest ih => rw [List.cons_append, lastNamed?, ih, lastNamed?, Option.or_assoc]

theorem valueIn_append (first second : List (Bytes × Bytes)) (name : Bytes) :
    valueIn (first ++ second) name = (valueIn second name).or (valueIn first name) := by
  rw [valueIn, lastNamed?_append, valueIn, valueIn, Option.map_or]

/-! ## Joining two texts -/

/-- Behind a value an ampersand separates; behind a name it belongs to the name. -/
theorem writtenFrom_append (place : Place) (u v : Bytes) :
    writtenFrom place (u ++ 38 :: v) =
      match placeFrom place u with
      | .value _ _ => writtenFrom place u ++ written v
      | .name left => writtenFrom place u ++ writtenFrom (.name (left ++ [38])) v := by
  induction u generalizing place with
  | nil => cases place <;> simp [writtenFrom, placeFrom, written]
  | cons c rest ih =>
    cases place with
    | name read =>
      simp only [List.cons_append, writtenFrom, placeFrom]
      split <;> exact ih _
    | value name read =>
      simp only [List.cons_append, writtenFrom, placeFrom]
      split
      · rw [ih]
        split <;> rfl
      · exact ih _

/-- What is already read of a name only lengthens the first name. -/
theorem writtenFrom_read (read text : Bytes) :
    writtenFrom (.name read) text =
      match written text with
      | [] => []
      | first :: later => (read ++ first.1, first.2) :: later := by
  rw [written, writtenFrom_name, writtenFrom_name]
  cases after? 61 text with
  | none => rfl
  | some value => simp [writtenFrom_value]

theorem written_behind_value {u name read : Bytes} (ends : endOf u = .value name read) (v : Bytes) :
    written (u ++ 38 :: v) = written u ++ written v := by
  rw [endOf] at ends
  rw [written, writtenFrom_append, ends]
  rfl

theorem written_behind_name {u left : Bytes} (ends : endOf u = .name left) (v : Bytes) :
    written (u ++ 38 :: v) =
      written u ++ match written v with
        | [] => []
        | first :: later => (left ++ 38 :: first.1, first.2) :: later := by
  rw [endOf] at ends
  rw [written, writtenFrom_append, ends]
  simp only [writtenFrom_read (left ++ [38]), List.append_assoc, List.singleton_append]
  rfl

theorem valueIn_cons (p : Bytes × Bytes) (rest : List (Bytes × Bytes)) (name : Bytes) :
    valueIn (p :: rest) name = (valueIn rest name).or (if p.1 = name then some (percentDecode p.2) else none) := by
  rw [valueIn, lastNamed?, Option.map_or, valueIn]
  split <;> rfl

/-- A parameter between `before` and `later` changes nothing for this name: a
later one replaces it, or the name had its value before. -/
def Harmless (before later : List (Bytes × Bytes)) (value name : Bytes) : Prop :=
  (lastNamed? later name).isSome ∨ valueIn before name = some (percentDecode value)

theorem harmless_iff {before later : List (Bytes × Bytes)} {value name : Bytes} :
    (valueIn later name).or (valueIn before name) = (valueIn later name).or (some (percentDecode value)) ↔
      Harmless before later value name := by
  unfold Harmless valueIn
  cases lastNamed? later name <;> simp

/-- The parameters of `v` stay apart from those of `u`: the last segment of `u`
has an equals sign, or `v` has no parameter, or the first parameter of `v`, whose
name then takes up what `u` ends in, does no harm under either name. -/
def Separate (u v : Bytes) : Prop :=
  match endOf u, written v with
  | .value _ _, _ => True
  | .name _, [] => True
  | .name left, first :: later =>
    Harmless (written u) later first.2 first.1 ∧ Harmless (written u) later first.2 (left ++ 38 :: first.1)

/-- Naming a parameter otherwise changes no value exactly when the parameter does
no harm under either name. -/
theorem renamed_iff {before later : List (Bytes × Bytes)} {value own long : Bytes} (differ : long ≠ own) :
    (∀ name, (valueIn later name).or ((if long = name then some (percentDecode value) else none).or
        (valueIn before name)) =
      (valueIn later name).or ((if own = name then some (percentDecode value) else none).or (valueIn before name))) ↔
      Harmless before later value own ∧ Harmless before later value long := by
  constructor
  · intro same
    have at_own := same own
    have at_long := same long
    rw [if_neg differ, if_pos rfl, Option.none_or, Option.some_or] at at_own
    rw [if_pos rfl, if_neg differ.symm, Option.none_or, Option.some_or] at at_long
    exact ⟨harmless_iff.mp at_own, harmless_iff.mp at_long.symm⟩
  · rintro ⟨at_own, at_long⟩ name
    by_cases isOwn : own = name
    · subst isOwn
      rw [if_neg differ, if_pos rfl, Option.none_or, Option.some_or]
      exact harmless_iff.mpr at_own
    · by_cases isLong : long = name
      · subst isLong
        rw [if_pos rfl, if_neg isOwn, Option.none_or, Option.some_or]
        exact (harmless_iff.mpr at_long).symm
      · rw [if_neg isLong, if_neg isOwn]

/-- **When the segments of a query string are independent.** The map of `u&v` is
the map of `u` overridden by that of `v` exactly when the two are separate. -/
theorem parse_append_iff {u v : Bytes} (unmarked : 63 ∉ u) (unmarkedLater : 63 ∉ v) :
    (∀ name, (parse (u ++ 38 :: v)).get? name = ((parse v).get? name).or ((parse u).get? name)) ↔
      Separate u v := by
  have joined : 63 ∉ u ++ 38 :: v := by simp [unmarked, unmarkedLater]
  simp only [get?_parse_unmarked joined, get?_parse_unmarked unmarked, get?_parse_unmarked unmarkedLater]
  rw [Separate]
  cases ends : endOf u with
  | value name read => simp only [written_behind_value ends, valueIn_append, implies_true]
  | name left =>
    rw [written_behind_name ends]
    cases written v with
    | nil => simp [valueIn, lastNamed?]
    | cons first later =>
      have longer : left ++ 38 :: first.1 ≠ first.1 := by
        intro same
        have := congrArg List.length same
        simp only [List.length_append, List.length_cons] at this
        omega
      simp only [valueIn_append, valueIn_cons, Option.or_assoc]
      exact renamed_iff longer

theorem parse_append_show :
    (parse (bytes "show=x" ++ 38 :: bytes "scr=b")).get? (bytes "show") =
      ((parse (bytes "scr=b")).get? (bytes "show")).or ((parse (bytes "show=x")).get? (bytes "show")) :=
  (parse_append_iff (u := bytes "show=x") (v := bytes "scr=b") (by decide +kernel) (by decide +kernel)).mpr trivial
    (bytes "show")

/-- A segment without an equals sign takes the next one's name: `a&b=1` has no
parameter `b`. -/
theorem bare_segment_hides_next :
    ¬ ∀ name, (parse (bytes "a" ++ 38 :: bytes "b=1")).get? name =
      ((parse (bytes "b=1")).get? name).or ((parse (bytes "a")).get? name) := by
  intro independent
  exact absurd (independent (bytes "b")) (by decide +kernel)

/-! ## A parameter more -/

/-- `name=value` as a browser may write it: a value may have equals signs,
question marks and malformed escapes. -/
structure Segment where
  name : Bytes
  value : Bytes
  name_free : 61 ∉ name ∧ 38 ∉ name ∧ 63 ∉ name
  value_free : 38 ∉ value

namespace Segment

def text (s : Segment) : Bytes := s.name ++ 61 :: s.value

def pair (s : Segment) : Bytes × Bytes := (s.name, s.value)

/-- The segments joined by ampersands. -/
def join (segments : List Segment) : Bytes := [38].intercalate (segments.map text)

theorem written_text (s : Segment) : written s.text = [s.pair] := by
  rw [written, writtenFrom_name, text, after?_append s.name_free.1, takeWhile_append s.name_free.1]
  simp only [writtenFrom_value, after?_eq_none s.value_free, takeWhile_of_absent s.value_free]
  rfl

end Segment

/-- A text read up to an equals sign ends in a value until the next ampersand. -/
theorem placeFrom_value {text : Bytes} (free : 38 ∉ text) (name read : Bytes) :
    placeFrom (.value name read) text = .value name (read ++ text) := by
  induction text generalizing read with
  | nil => rw [placeFrom, List.append_nil]
  | cons c rest ih =>
    obtain ⟨differs, later⟩ := List.ne_and_not_mem_of_not_mem_cons free
    rw [placeFrom, if_neg differs.symm, ih later, List.append_assoc, List.singleton_append]

theorem placeFrom_name {text : Bytes} (free : 61 ∉ text) (read rest : Bytes) :
    placeFrom (.name read) (text ++ 61 :: rest) = placeFrom (.value (read ++ text) []) rest := by
  induction text generalizing read with
  | nil => rw [List.nil_append, placeFrom, if_pos rfl, List.append_nil]
  | cons c text ih =>
    obtain ⟨differs, later⟩ := List.ne_and_not_mem_of_not_mem_cons free
    rw [List.cons_append, placeFrom, if_neg differs.symm, ih later, List.append_assoc, List.singleton_append]

namespace Segment

theorem endOf_text (s : Segment) : endOf s.text = .value s.name s.value := by
  rw [endOf, text, placeFrom_name s.name_free.1, placeFrom_value s.value_free, List.nil_append, List.nil_append]

theorem join_cons (s next : Segment) (rest : List Segment) :
    join (s :: next :: rest) = s.text ++ 38 :: join (next :: rest) := by
  simp [join, List.intercalate]

theorem written_join (segments : List Segment) : written (join segments) = segments.map pair := by
  induction segments with
  | nil => rfl
  | cons s rest ih =>
    cases rest with
    | nil => simpa [join, List.intercalate] using s.written_text
    | cons next rest =>
      rw [join_cons, written_behind_value s.endOf_text, written_text, ih]
      rfl

theorem join_append (segments : List Segment) (nonempty : segments ≠ []) (last : Segment) :
    join (segments ++ [last]) = join segments ++ 38 :: last.text := by
  induction segments with
  | nil => exact absurd rfl nonempty
  | cons s rest ih =>
    cases rest with
    | nil => simp [join, List.intercalate]
    | cons next rest =>
      rw [List.cons_append, List.cons_append, join_cons, ← List.cons_append, ih (by simp), join_cons]
      simp

end Segment

/-- `param` of a name among these segments, as they are written. -/
def paramOf (segments : List Segment) (name : Bytes) : Bytes :=
  (valueIn (segments.map Segment.pair) name).getD []

/-- `last` takes no other parameter's value away. Without a question mark in its
value it never does. With one, the text behind the first question mark is all
that is read: the other parameters must be empty or be repeated there, and what
is there must have been a parameter already. -/
def SparesOthers (segments : List Segment) (last : Segment) : Prop :=
  match after? 63 last.value with
  | none => True
  | some rest =>
    match after? 61 rest with
    | none => ∀ s ∈ segments, s.name ≠ last.name → paramOf segments s.name = []
    | some value =>
      (∀ s ∈ segments, s.name ≠ last.name → s.name ≠ rest.takeWhile (· ≠ 61) → paramOf segments s.name = []) ∧
        (rest.takeWhile (· ≠ 61) ≠ last.name → paramOf segments (rest.takeWhile (· ≠ 61)) = percentDecode value)

theorem valueIn_eq_none {parameters : List (Bytes × Bytes)} {name : Bytes}
    (absent : ∀ p ∈ parameters, p.1 ≠ name) : valueIn parameters name = none := by
  induction parameters with
  | nil => rfl
  | cons p rest ih =>
    rw [valueIn_cons, ih fun q member => absent q (List.mem_cons_of_mem _ member),
      if_neg (absent p List.mem_cons_self), Option.none_or]

theorem paramOf_absent {segments : List Segment} {name : Bytes} (absent : ∀ s ∈ segments, s.name ≠ name) :
    paramOf segments name = [] := by
  have none : valueIn (segments.map Segment.pair) name = none := valueIn_eq_none fun p member => by
    obtain ⟨s, there, rfl⟩ := List.mem_map.mp member
    exact absent s there
  rw [paramOf, none, Option.getD_none]

/-- A name that is empty wherever it is written is empty. -/
theorem paramOf_eq_nil_of {segments : List Segment} {name : Bytes}
    (empty : ∀ s ∈ segments, s.name = name → paramOf segments name = []) : paramOf segments name = [] := by
  by_cases present : ∃ s ∈ segments, s.name = name
  · obtain ⟨s, member, named⟩ := present
    exact empty s member named
  · exact paramOf_absent fun s member named => present ⟨s, member, named⟩

theorem valueIn_single (p : Bytes × Bytes) (name : Bytes) :
    valueIn [p] name = if p.1 = name then some (percentDecode p.2) else none := valueIn_cons p [] name

theorem after?_cut {b : UInt8} {text rest : Bytes} (found : after? b text = some rest) :
    ∃ front, b ∉ front ∧ text = front ++ b :: rest := by
  induction text with
  | nil => cases found
  | cons c text ih =>
    rw [after?] at found
    split at found
    · rename_i here
      cases found
      exact ⟨[], List.not_mem_nil, here ▸ rfl⟩
    · rename_i differs
      obtain ⟨front, free, rfl⟩ := ih found
      exact ⟨c :: front, by simp [free, Ne.symm differs], rfl⟩

theorem not_mem_of_after? {b : UInt8} {text : Bytes} (missing : after? b text = none) : b ∉ text := by
  intro member
  obtain ⟨front, rest, rfl, absent⟩ := List.eq_append_cons_of_mem member
  rw [after?_append absent] at missing
  cases missing

theorem param_unmarked {url : Bytes} (unmarked : 63 ∉ url) (name : Bytes) :
    param url name = (valueIn (written url) name).getD [] := by
  rw [param, get?_parse_unmarked unmarked]

theorem param_marked {front : Bytes} (free : 63 ∉ front) (rest name : Bytes) :
    param (front ++ 63 :: rest) name = (valueIn (written rest) name).getD [] := by
  rw [param, get?_parse, after?_append free, Option.getD_some]

theorem param_join {segments : List Segment} (unmarked : 63 ∉ Segment.join segments) (name : Bytes) :
    param (Segment.join segments) name = paramOf segments name := by
  rw [param_unmarked unmarked, Segment.written_join, paramOf]

/-- A text without an ampersand has one parameter at most. -/
theorem written_single {text : Bytes} (free : 38 ∉ text) :
    written text =
      match after? 61 text with
      | none => []
      | some value => [(text.takeWhile (· ≠ 61), value)] := by
  rw [written, writtenFrom_name]
  cases found : after? 61 text with
  | none => rfl
  | some value =>
    obtain ⟨front, -, rfl⟩ := after?_cut found
    have value_free : 38 ∉ value := fun member => free (by simp [member])
    simp only [writtenFrom_value, after?_eq_none value_free, takeWhile_of_absent value_free, List.nil_append]

section OneMore
variable {segments : List Segment} {last : Segment}

/-- A value without a question mark changes only its own name. -/
theorem param_append_unmarked (nonempty : segments ≠ []) (unmarked : 63 ∉ Segment.join segments)
    (value_unmarked : 63 ∉ last.value) {name : Bytes} (other : name ≠ last.name) :
    param (Segment.join segments ++ 38 :: last.text) name = paramOf segments name := by
  have whole : 63 ∉ Segment.join (segments ++ [last]) := by
    rw [Segment.join_append segments nonempty, Segment.text]
    simp [unmarked, last.name_free.2.2, value_unmarked]
  rw [← Segment.join_append segments nonempty, param_join whole, paramOf, List.map_append, valueIn_append]
  simp [valueIn, lastNamed?, Segment.pair, other.symm, paramOf]

/-- What is behind the first question mark of a value is all that is read. -/
theorem param_append_marked (unmarked : 63 ∉ Segment.join segments) {front rest : Bytes} (free : 63 ∉ front)
    (is_value : last.value = front ++ 63 :: rest) (name : Bytes) :
    param (Segment.join segments ++ 38 :: last.text) name = (valueIn (written rest) name).getD [] := by
  have cut : Segment.join segments ++ 38 :: last.text =
      (Segment.join segments ++ 38 :: (last.name ++ 61 :: front)) ++ 63 :: rest := by
    simp [Segment.text, is_value]
  have front_free : 63 ∉ Segment.join segments ++ 38 :: (last.name ++ 61 :: front) := by
    simp [unmarked, last.name_free.2.2, free]
  rw [cut, param_marked front_free]

/-- A single parameter gives every other name its value. -/
theorem single_gives_iff {again value : Bytes} :
    (∀ name, name ≠ last.name →
      (if again = name then some (percentDecode value) else none).getD [] = paramOf segments name) ↔
      (∀ s ∈ segments, s.name ≠ last.name → s.name ≠ again → paramOf segments s.name = []) ∧
        (again ≠ last.name → paramOf segments again = percentDecode value) := by
  constructor
  · intro unchanged
    constructor
    · intro s _ other apart
      rw [← unchanged s.name other, if_neg (Ne.symm apart), Option.getD_none]
    · intro other
      rw [← unchanged again other, if_pos rfl, Option.getD_some]
  · rintro ⟨empty, kept⟩ name other
    by_cases here : again = name
    · subst here
      rw [if_pos rfl, Option.getD_some, kept other]
    · rw [if_neg here, Option.getD_none]
      exact (paramOf_eq_nil_of fun s member named =>
        named ▸ empty s member (named ▸ other) (named ▸ Ne.symm here)).symm

end OneMore

/-- **When one more parameter leaves the others unchanged.** Exactly when its
value has no question mark, or what it makes the reader skip and read instead
happens to give every other name its value. -/
theorem param_append_iff {segments : List Segment} (nonempty : segments ≠ [])
    (unmarked : 63 ∉ Segment.join segments) (last : Segment) :
    (∀ name, name ≠ last.name →
      param (Segment.join segments ++ 38 :: last.text) name = param (Segment.join segments) name) ↔
      SparesOthers segments last := by
  simp only [param_join unmarked]
  rw [SparesOthers]
  cases marked : after? 63 last.value with
  | none =>
    have value_unmarked := not_mem_of_after? marked
    exact iff_of_true (fun name other => param_append_unmarked nonempty unmarked value_unmarked other) trivial
  | some rest =>
    obtain ⟨front, free, is_value⟩ := after?_cut marked
    have rest_free : 38 ∉ rest := fun member => last.value_free (by simp [is_value, member])
    simp only [param_append_marked unmarked free is_value, written_single rest_free]
    cases after? 61 rest with
    | none =>
      constructor
      · exact fun unchanged s _ other => (unchanged s.name other).symm
      · intro empty name other
        exact (paramOf_eq_nil_of fun s member named => named ▸ empty s member (named ▸ other)).symm
    | some value =>
      simp only [valueIn_single]
      exact single_gives_iff

/-- `scr=a1&k=b`. -/
def scrThenKey : List Segment × Segment :=
  ([⟨bytes "scr", bytes "a1", by decide +kernel, by decide +kernel⟩],
    ⟨bytes "k", bytes "b", by decide +kernel, by decide +kernel⟩)

theorem param_append_scr :
    param (Segment.join scrThenKey.1 ++ 38 :: scrThenKey.2.text) (bytes "scr") =
      param (Segment.join scrThenKey.1) (bytes "scr") :=
  (param_append_iff (by simp [scrThenKey]) (by decide +kernel) scrThenKey.2).mpr trivial (bytes "scr")
    (by decide +kernel)

/-- `scr=a1&k=?`: reading begins behind the question mark, and `scr` is gone. -/
def scrThenMark : List Segment × Segment :=
  (scrThenKey.1, ⟨bytes "k", bytes "?", by decide +kernel, by decide +kernel⟩)

theorem question_mark_erases_scr :
    ¬ ∀ name, name ≠ scrThenMark.2.name →
      param (Segment.join scrThenMark.1 ++ 38 :: scrThenMark.2.text) name = param (Segment.join scrThenMark.1) name := by
  intro unchanged
  exact absurd (unchanged (bytes "scr") (by decide +kernel)) (by decide +kernel)

end WorkerInformer.UrlParser
