import WorkerInformer.Bytes

/-! `CgiService::ProcessRequest`: the visitor's id. It is read from the `Cookie`
header, cut at each semicolon, and sent back in a `Set-Cookie` header. A segment
counts when the cookie's name stands anywhere in it and it has one equals sign;
the last such segment wins. -/
namespace WorkerInformer.VisitorCookie
open Bytes

/-- `cookie_name_`, `cookie_domain_` and `cookie_path_` of the configuration. -/
structure Config where
  cookieName : Bytes
  cookieDomain : Bytes
  cookiePath : Bytes

/-- `u32regex_replace(text, "[^0-9]", "")`: `none` is the exception it raises on
text it does not take for UTF-8, which ASCII text is. -/
structure DigitFilter where
  replace : Bytes → Option Bytes
  ascii : ∀ text : Bytes, (∀ b ∈ text, b < 128) → replace text = some (text.filter isDigit)

/-- `text.find(needle) != npos`. -/
def finds (needle : Bytes) : Bytes → Bool
  | [] => needle.isEmpty
  | c :: rest => needle.isPrefixOf (c :: rest) || finds needle rest

/-- One segment of the header. -/
def readSegment (cookieName cookieValue segment : Bytes) : Bytes :=
  if finds cookieName segment then
    match segment.splitOn 61 with
    | [_, value] => value
    | _ => cookieValue
  else cookieValue

/-- The value the loop over the segments ends with. -/
def readHeader (cookieName : Bytes) : Option Bytes → Bytes
  | none => []
  | some header => (header.splitOn 59).foldl (readSegment cookieName) []

/-- `cookie_value`: what is left of the header's value, or the time. -/
def cookieValue (cfg : Config) (filter : DigitFilter) (time : Int) (header : Option Bytes) : Bytes :=
  let digits := (filter.replace (readHeader cfg.cookieName header)).getD []
  if digits = [] then signed time else digits

/-- `Cookie::to_string`. -/
def setCookie (cfg : Config) (value : Bytes) : Bytes :=
  cfg.cookieName ++ bytes "=" ++ value ++ bytes "; " ++ bytes "Path=" ++ cfg.cookiePath ++
    bytes "; Version=1; Max-Age=31536000; Domain=" ++ cfg.cookieDomain ++ bytes "; HttpOnly;"

/-! ## Headers -/

/-- A cookie of a header, with the spaces around it. -/
structure Cookie where
  before : Nat
  name : Bytes
  value : Bytes
  after : Nat
  name_free : 59 ∉ name ∧ 61 ∉ name ∧ name.head? ≠ some 32
  value_free : 59 ∉ value

def spaces (n : Nat) : Bytes := List.replicate n 32

namespace Cookie

/-- What stands behind the equals sign. -/
def written (c : Cookie) : Bytes := c.value ++ spaces c.after

def text (c : Cookie) : Bytes := spaces c.before ++ c.name ++ 61 :: c.written

/-- The cookies separated by semicolons. -/
def header (cookies : List Cookie) : Bytes := [59].intercalate (cookies.map text)

end Cookie

theorem finds_iff {needle text : Bytes} : finds needle text = true ↔ needle <:+: text := by
  induction text with
  | nil => rw [finds, List.isEmpty_iff, List.infix_nil]
  | cons c rest ih => rw [finds, Bool.or_eq_true, List.isPrefixOf_iff_prefix, ih, List.infix_cons_iff]

theorem not_mem_spaces {b : UInt8} (other : b ≠ 32) (n : Nat) : b ∉ spaces n :=
  fun member => other (List.eq_of_mem_replicate member)

namespace Cookie

theorem text_free (c : Cookie) : 59 ∉ c.text := by
  simp [text, written, c.name_free.1, c.value_free, not_mem_spaces]

theorem equals_mem_written {c : Cookie} : 61 ∈ c.written ↔ 61 ∈ c.value := by
  simp [written, not_mem_spaces]

theorem splitOn_header (cookies : List Cookie) (nonempty : cookies ≠ []) :
    (header cookies).splitOn 59 = cookies.map text := by
  refine List.splitOn_intercalate 59 (fun segment member => ?_) (by simpa using nonempty)
  obtain ⟨c, -, rfl⟩ := List.mem_map.mp member
  exact c.text_free

end Cookie

/-! ## Which value is taken -/

/-- The cookie is taken for the visitor's. -/
def Counts (cookieName : Bytes) (c : Cookie) : Prop := cookieName <:+: c.text ∧ 61 ∉ c.value

instance (cookieName : Bytes) (c : Cookie) : Decidable (Counts cookieName c) :=
  decidable_of_iff (finds cookieName c.text = true ∧ 61 ∉ c.value) (and_congr_left' finds_iff)

/-- The last of the cookies that is. -/
def lastCounting (cookieName : Bytes) : List Cookie → Option Cookie
  | [] => none
  | c :: rest => (lastCounting cookieName rest).or (if Counts cookieName c then some c else none)

theorem readSegment_text (cookieName cookieValue : Bytes) (c : Cookie) :
    readSegment cookieName cookieValue c.text = if Counts cookieName c then c.written else cookieValue := by
  have name_free : 61 ∉ spaces c.before ++ c.name := by simp [c.name_free.2.1, not_mem_spaces]
  rw [readSegment]
  by_cases found : finds cookieName c.text
  · rw [if_pos found, Cookie.text, List.splitOn_append_cons_self_of_not_mem name_free]
    by_cases equals : 61 ∈ c.value
    · -- two equals signs at least, so three parts at least
      obtain ⟨front, rest, is_written⟩ := List.append_of_mem (Cookie.equals_mem_written.mpr equals)
      obtain ⟨first, more, is_front⟩ := List.exists_cons_of_ne_nil (List.splitOn_ne_nil 61 front)
      obtain ⟨next, others, is_rest⟩ := List.exists_cons_of_ne_nil (List.splitOn_ne_nil 61 rest)
      rw [if_neg fun counts => counts.2 equals, is_written, List.splitOn_append_cons_self, is_front, is_rest]
      cases more <;> rfl
    · rw [if_pos ⟨finds_iff.mp found, equals⟩,
        List.splitOn_eq_singleton fun member => equals (Cookie.equals_mem_written.mp member)]
  · rw [if_neg found, if_neg fun counts => found (finds_iff.mpr counts.1)]

theorem foldl_readSegment (cookieName cookieValue : Bytes) (cookies : List Cookie) :
    (cookies.map Cookie.text).foldl (readSegment cookieName) cookieValue =
      ((lastCounting cookieName cookies).map Cookie.written).getD cookieValue := by
  induction cookies generalizing cookieValue with
  | nil => rfl
  | cons c rest ih =>
    rw [List.map_cons, List.foldl_cons, ih, readSegment_text, lastCounting]
    cases lastCounting cookieName rest with
    | some _ => rfl
    | none => by_cases counts : Counts cookieName c <;> simp [counts]

/-- What the cookies behind one of the visitor's leave of its value. -/
theorem readHeader_own {cookieName : Bytes} (earlier later : List Cookie) {own : Cookie} (counts : Counts cookieName own) :
    readHeader cookieName (some (Cookie.header (earlier ++ own :: later))) =
      ((lastCounting cookieName later).map Cookie.written).getD own.written := by
  rw [readHeader, Cookie.splitOn_header _ (by simp), List.map_append, List.foldl_append, List.map_cons,
    List.foldl_cons, readSegment_text, if_pos counts, foldl_readSegment]

/-! ## The visitor's id -/

theorem isDigit_ascii (b : UInt8) : isDigit b → b < 128 := by
  revert b
  exact forall_byte (by decide +kernel)

theorem isDigit_ne_equals {b : UInt8} (digit : isDigit b) : b ≠ 61 := by
  rintro rfl
  exact absurd digit (by decide)

/-- Spaces behind an id do not matter. -/
theorem replace_written (filter : DigitFilter) {own : Cookie} (digits : ∀ b ∈ own.value, isDigit b) :
    filter.replace own.written = some own.value := by
  have ascii : ∀ b ∈ own.written, b < 128 := by
    intro b member
    rcases List.mem_append.mp member with value | space
    · exact isDigit_ascii b (digits b value)
    · rw [List.eq_of_mem_replicate space]
      decide
  have no_space : (spaces own.after).filter isDigit = [] := by
    rw [List.filter_eq_nil_iff]
    intro b member
    rw [List.eq_of_mem_replicate member]
    decide
  rw [filter.ascii _ ascii, Cookie.written, List.filter_append, no_space, List.append_nil,
    List.filter_eq_self.mpr digits]

/-- The cookies behind the visitor's leave the id as it is: none of them is
taken for it, or the last one that is has the same digits, or it has no digits
at all and the id happens to be the time. -/
def Undisturbed (filter : DigitFilter) (time : Int) (cookieName id : Bytes) (later : List Cookie) : Prop :=
  match lastCounting cookieName later with
  | none => True
  | some c =>
    (filter.replace c.written).getD [] = id ∨ (filter.replace c.written).getD [] = [] ∧ signed time = id

/-- **When other cookies do not change the visitor's id.** For every header with
a cookie of exactly the configured name and a numeric value, the id is taken from
it and sent back exactly when the cookies behind it leave it undisturbed. -/
theorem cookieValue_eq_iff (cfg : Config) (filter : DigitFilter) (time : Int) (earlier later : List Cookie)
    {own : Cookie} (named : own.name = cfg.cookieName) (nonempty : own.value ≠ [])
    (digits : ∀ b ∈ own.value, isDigit b) :
    (cookieValue cfg filter time (some (Cookie.header (earlier ++ own :: later))) = own.value ∧
      setCookie cfg (cookieValue cfg filter time (some (Cookie.header (earlier ++ own :: later)))) =
        setCookie cfg own.value) ↔
      Undisturbed filter time cfg.cookieName own.value later := by
  have counts : Counts cfg.cookieName own := by
    refine ⟨⟨spaces own.before, 61 :: own.written, by rw [← named, Cookie.text]⟩, fun member => ?_⟩
    exact isDigit_ne_equals (digits 61 member) rfl
  rw [and_iff_left_of_imp fun same => congrArg (setCookie cfg) same, cookieValue, readHeader_own earlier later counts,
    Undisturbed]
  cases lastCounting cfg.cookieName later with
  | none => simp [replace_written filter digits, nonempty]
  | some c =>
    simp only [Option.map_some, Option.getD_some]
    generalize (filter.replace c.written).getD [] = read
    by_cases empty : read = []
    · simp [empty, nonempty.symm]
    · simp [empty]

/-- The digits of ASCII text; no other text is replaced. -/
def asciiFilter : DigitFilter where
  replace text := if text.all (· < 128) then some (text.filter isDigit) else none
  ascii _ ascii := if_pos (List.all_eq_true.mpr fun b member => decide_eq_true (ascii b member))

def shopConfig : Config := ⟨bytes "unique_id", bytes ".shop.com", bytes "/"⟩

/-- `unique_id=1500000000`. -/
def idCookie : Cookie := ⟨0, bytes "unique_id", bytes "1500000000", 0, by decide +kernel, by decide +kernel⟩

/-- ` old_unique_id=7`. -/
def foreignCookie : Cookie := ⟨1, bytes "old_unique_id", bytes "7", 0, by decide +kernel, by decide +kernel⟩

theorem foreign_cookie_before_id :
    cookieValue shopConfig asciiFilter 1600000000 (some (Cookie.header ([foreignCookie] ++ idCookie :: []))) =
        idCookie.value ∧
      setCookie shopConfig (cookieValue shopConfig asciiFilter 1600000000
          (some (Cookie.header ([foreignCookie] ++ idCookie :: [])))) =
        setCookie shopConfig idCookie.value :=
  (cookieValue_eq_iff shopConfig asciiFilter 1600000000 [foreignCookie] [] rfl (by decide +kernel)
    (List.all_eq_true.mp (by decide +kernel))).mpr trivial

/-- Behind the id, `old_unique_id=7` is taken for it: the name it contains is
looked for anywhere. -/
theorem foreign_cookie_replaces_id :
    ¬ (cookieValue shopConfig asciiFilter 1600000000 (some (Cookie.header ([] ++ idCookie :: [foreignCookie]))) =
        idCookie.value ∧
      setCookie shopConfig (cookieValue shopConfig asciiFilter 1600000000
          (some (Cookie.header ([] ++ idCookie :: [foreignCookie])))) =
        setCookie shopConfig idCookie.value) := by
  rintro ⟨taken, -⟩
  exact absurd taken (by decide +kernel)

end WorkerInformer.VisitorCookie
