import WorkerInformer.CgiService
import WorkerInformer.Runs

/-! A visitor's browser and `CgiService`, request after request: the browser
keeps the cookie that a response sets and sends it along with its other cookies,
the service reads it from there and sets it again. Nothing of this stays in the
service, and yet the visitor keeps the id of his first page. The cookie settings
are plain, the clock is not before 1970, and the browser returns the cookie with
every request: its age, domain and path are for the browser to look at. -/
namespace WorkerInformer.VisitorSession
open Bytes Runs CgiService VisitorCookie
open CoreProcess (Core)

/-! ## The browser -/

/-- The name and the value a `Set-Cookie` field begins with; without an equals
sign there is no cookie. -/
def cookiePair (field : Bytes) : Option (Bytes × Bytes) :=
  let pair := field.takeWhile (· != 59)
  if 61 ∈ pair then some (pair.takeWhile (· != 61), (pair.dropWhile (· != 61)).tail) else none

/-- What is kept of the cookie of this name after a line of the head. -/
def receiveLine (name : Bytes) (jar : Option Bytes) (line : Bytes) : Option Bytes :=
  if (bytes "Set-Cookie: ").isPrefixOf line then
    match cookiePair (line.drop (bytes "Set-Cookie: ").length) with
    | some (set, value) => if set = name then some value else jar
    | none => jar
  else jar

def receive (name : Bytes) (jar : Option Bytes) (lines : List Bytes) : Option Bytes :=
  lines.foldl (receiveLine name) jar

/-- A request of the browser: its other cookies, the place and the spaces of the
visitor's among them, and what the service meets. -/
structure Visit where
  env : Environment
  met : Circumstances
  serverName : Bytes
  core : Core
  earlier : List Cookie
  later : List Cookie
  before : Nat
  after : Nat

/-- The `Cookie` header. -/
def Visit.header (visit : Visit) (name : Bytes) (jar : Option Bytes) : Option Bytes :=
  let own := jar.toList.map fun value => spaces visit.before ++ name ++ 61 :: (value ++ spaces visit.after)
  let segments := visit.earlier.map Cookie.text ++ own ++ visit.later.map Cookie.text
  if segments = [] then none else some ([59].intercalate segments)

section Session
variable (cfg : CgiService.Config) (filter : DigitFilter)

/-- The jar after a visit. -/
def step (jar : Option Bytes) (visit : Visit) : Option Bytes :=
  match HeaderBlock.read (processRequest cfg filter
      { visit.env with httpCookie := visit.header cfg.cookie.cookieName jar } visit.met visit.serverName
      visit.core).1 with
  | none => jar
  | some (lines, _) => receive cfg.cookie.cookieName jar lines

end Session

/-- A name that a header and a field can carry. -/
def PlainName (name : Bytes) : Prop := ∀ b ∈ [(59 : UInt8), 61, 32], b ∉ name

instance : DecidablePred PlainName := fun _ => List.decidableBAll _ _

/-- No cookie behind the visitor's is taken for it, and it is after 1970. -/
def Apart (name : Bytes) (visit : Visit) : Prop := 0 ≤ visit.met.time ∧ ∀ c ∈ visit.later, ¬ Counts name c

/-! ## What a visit does -/

section Steps
variable {cfg : CgiService.Config} {filter : DigitFilter} {jar : Option Bytes} {visit : Visit} {value : Bytes}

theorem not_mem_digits {b : UInt8} (digits : ∀ c ∈ value, isDigit c = true) (no_digit : isDigit b = false) :
    b ∉ value := fun member => by simp [digits b member] at no_digit

/-- The browser takes the pair out of the service's cookie. -/
theorem cookiePair_setCookie (named : PlainName cfg.cookie.cookieName) (digits : ∀ c ∈ value, isDigit c = true) :
    cookiePair (setCookie cfg.cookie value) = some (cfg.cookie.cookieName, value) := by
  have semicolon : 59 ∉ cfg.cookie.cookieName ++ 61 :: value := by
    simp [named 59 (by simp), not_mem_digits digits (show isDigit 59 = false from rfl)]
  have equals : 61 ∉ cfg.cookie.cookieName := named 61 (by simp)
  have text : setCookie cfg.cookie value = (cfg.cookie.cookieName ++ 61 :: value) ++ 59 ::
      (32 :: (bytes "Path=" ++ cfg.cookie.cookiePath ++ bytes "; Version=1; Max-Age=31536000; Domain=" ++
        cfg.cookie.cookieDomain ++ bytes "; HttpOnly;")) := by
    simp [setCookie, show bytes "=" = [61] from rfl, show bytes "; " = [59, 32] from rfl]
  have pair : (setCookie cfg.cookie value).takeWhile (· != 59) = cfg.cookie.cookieName ++ 61 :: value := by
    rw [text, takeWhile_before semicolon]
  have behind : (cfg.cookie.cookieName ++ 61 :: value).dropWhile (· != 61) = 61 :: value := by
    rw [List.dropWhile_append_of_pos (bne_of_absent equals), List.dropWhile_cons_of_neg (by simp)]
  simp only [cookiePair, pair]
  rw [if_pos (by simp), takeWhile_before equals, behind, List.tail_cons]

theorem receive_page (named : PlainName cfg.cookie.cookieName) (digits : ∀ c ∈ value, isDigit c = true) :
    receive cfg.cookie.cookieName jar (pageFields (setCookie cfg.cookie value)) = some value := by
  have other (lines : List Bytes) (none_sets : ∀ line ∈ lines, (bytes "Set-Cookie: ").isPrefixOf line = false)
      (now : Option Bytes) : receive cfg.cookie.cookieName now lines = now := by
    induction lines with
    | nil => rfl
    | cons line rest ih =>
      have here : receiveLine cfg.cookie.cookieName now line = now := by
        rw [receiveLine, none_sets line List.mem_cons_self, if_neg Bool.false_ne_true]
      rw [receive, List.foldl_cons, here]
      exact ih fun line member => none_sets line (List.mem_cons_of_mem _ member)
  have set : receiveLine cfg.cookie.cookieName jar (bytes "Set-Cookie: " ++ setCookie cfg.cookie value) =
      some value := by
    rw [receiveLine, if_pos (List.isPrefixOf_iff_prefix.mpr (List.prefix_append _ _)), List.drop_left,
      cookiePair_setCookie named digits]
    exact if_pos rfl
  rw [receive, pageFields, List.foldl_append, List.foldl_cons]
  have before := other fieldsBefore (by decide +kernel) jar
  have after := other fieldsAfter (by decide +kernel) (some value)
  rw [receive] at before after
  rw [before, set, after]

/-- Neither an error nor the status page sets a cookie. -/
theorem receive_status (status : Nat) : receive cfg.cookie.cookieName jar (statusFields status) = jar := rfl

theorem receive_empty : receive cfg.cookie.cookieName jar (pageFields []) = jar := by
  rw [receive, pageFields, List.foldl_append, List.foldl_cons]
  rfl

theorem cookieValue_digits (only : DigitsOnly filter) {time : Int} (dated : 0 ≤ time) (header : Option Bytes) :
    (∀ b ∈ cookieValue cfg.cookie filter time header, isDigit b = true) ∧
      cookieValue cfg.cookie filter time header ≠ [] := by
  unfold cookieValue
  simp only
  split
  · have plain : signed time = decimal time.natAbs := if_neg (Int.not_lt.mpr dated)
    rw [plain]
    exact ⟨decimal_isDigit _, decimal_ne_nil _⟩
  · rename_i nonempty
    refine ⟨?_, nonempty⟩
    cases left : filter.replace (readHeader cfg.cookie.cookieName header) with
    | none => exact fun b member => absurd member List.not_mem_nil
    | some kept => exact only _ kept left

/-- A visit leaves the jar alone, or puts the value into it that the service read. -/
theorem step_cases (plain : PlainCookie cfg.cookie) (named : PlainName cfg.cookie.cookieName)
    (only : DigitsOnly filter) (dated : 0 ≤ visit.met.time) : step cfg filter jar visit = jar ∨
      step cfg filter jar visit = some (cookieValue cfg.cookie filter visit.met.time
        (visit.header cfg.cookie.cookieName jar)) := by
  have silent : HeaderBlock.read [] = none := rfl
  by_cases failed : visit.met.failed = true
  · left
    rw [step, processRequest, if_pos failed, silent]
  cases complete : coreRequest { visit.env with httpCookie := visit.header cfg.cookie.cookieName jar } visit.met with
  | none =>
    left
    simp only [step, processRequest, complete, failed, silent, Bool.false_eq_true, ↓reduceIte]
  | some request =>
    by_cases later : visit.met.failedLater = true
    · left
      simp only [step, processRequest, complete, failed, later, silent, Bool.false_eq_true, ↓reduceIte]
    · have alive : visit.met.failed = false ∧ visit.met.failedLater = false := by simp [failed, later]
      have read := read_processRequest plain only alive complete visit.serverName visit.core
      simp only [step, read]
      cases request.response cfg.core with
      | page content =>
        right
        exact receive_page named (cookieValue_digits only dated _).1
      | code status =>
        left
        exact receive_status status
      | status =>
        left
        simp only
        generalize visit.met.status (if visit.serverName = [] then visit.env.serverName.getD [] else
          visit.serverName) = text
        by_cases empty : text = []
        · rw [if_pos empty]
        · rw [if_neg empty]
          exact receive_empty

theorem lastCounting_none {name : Bytes} {cookies : List Cookie} (none_counts : ∀ c ∈ cookies, ¬ Counts name c) :
    lastCounting name cookies = none := by
  induction cookies with
  | nil => rfl
  | cons c rest ih =>
    rw [lastCounting, ih fun other member => none_counts other (List.mem_cons_of_mem _ member),
      if_neg (none_counts c List.mem_cons_self)]
    rfl

/-- The service reads the id out of the browser's header. -/
theorem cookieValue_header (named : PlainName cfg.cookie.cookieName) (apart : Apart cfg.cookie.cookieName visit)
    (digits : ∀ c ∈ value, isDigit c = true) (nonempty : value ≠ []) :
    cookieValue cfg.cookie filter visit.met.time (visit.header cfg.cookie.cookieName (some value)) = value := by
  have first : cfg.cookie.cookieName.head? ≠ some 32 := fun space => named 32 (by simp) (List.mem_of_head? space)
  let own : Cookie := ⟨visit.before, cfg.cookie.cookieName, value, visit.after,
    ⟨named 59 (by simp), named 61 (by simp), first⟩, not_mem_digits digits rfl⟩
  have written : visit.header cfg.cookie.cookieName (some value) =
      some (Cookie.header (visit.earlier ++ own :: visit.later)) := by
    simp [Visit.header, Cookie.header, own, Cookie.text, Cookie.written]
  have counts : Counts cfg.cookie.cookieName own :=
    ⟨⟨spaces visit.before, 61 :: own.written, by simp [Cookie.text, own]⟩, not_mem_digits digits rfl⟩
  have read : filter.replace own.written = some value := replace_written filter digits
  rw [cookieValue, written, readHeader_own _ _ counts, lastCounting_none apart.2, Option.map_none, Option.getD_none,
    read, Option.getD_some]
  exact if_neg nonempty

/-- What the jar holds is an id. -/
def Numeric (jar : Option Bytes) : Prop := ∀ id ∈ jar, (∀ b ∈ id, isDigit b = true) ∧ id ≠ []

theorem step_numeric (plain : PlainCookie cfg.cookie) (named : PlainName cfg.cookie.cookieName)
    (only : DigitsOnly filter) (dated : 0 ≤ visit.met.time) (numeric : Numeric jar) :
    Numeric (step cfg filter jar visit) := by
  rcases step_cases plain named only dated with same | read
  · rw [same]
    exact numeric
  · rw [read]
    rintro id ⟨⟩
    exact cookieValue_digits only dated _

/-- An id in the jar stays there. -/
theorem step_keeps (plain : PlainCookie cfg.cookie) (named : PlainName cfg.cookie.cookieName)
    (only : DigitsOnly filter) (apart : Apart cfg.cookie.cookieName visit) (numeric : Numeric (some value)) :
    step cfg filter (some value) visit = some value := by
  obtain ⟨digits, nonempty⟩ := numeric value rfl
  rcases step_cases plain named only apart.1 with same | read
  · exact same
  · rw [read, cookieValue_header named apart digits nonempty]

end Steps

/-- **A visitor keeps the id of his first page.** For every browser that starts
without the cookie and every sequence of visits, whatever they ask for, whatever
other cookies stand before the visitor's and whatever the service meets: from
the first response that gives him an id on he has this id, as long as no cookie
behind it is taken for it. -/
theorem session_keeps_id {cfg : CgiService.Config} {filter : DigitFilter} (plain : PlainCookie cfg.cookie)
    (named : PlainName cfg.cookie.cookieName) (only : DigitsOnly filter) {first second : List Visit} {id : Bytes}
    (apart : ∀ visit ∈ first ++ second, Apart cfg.cookie.cookieName visit)
    (given : exec (step cfg filter) none first = some id) :
    exec (step cfg filter) none (first ++ second) = some id := by
  have numeric_run (visits : List Visit) (dated : ∀ visit ∈ visits, 0 ≤ visit.met.time) (jar : Option Bytes)
      (numeric : Numeric jar) : Numeric (exec (step cfg filter) jar visits) := by
    induction visits generalizing jar with
    | nil => exact numeric
    | cons visit rest ih =>
      exact ih (fun other member => dated other (List.mem_cons_of_mem _ member)) _
        (step_numeric plain named only (dated visit List.mem_cons_self) numeric)
  have numeric : Numeric (some id) := given ▸ numeric_run first
    (fun visit member => (apart visit (List.mem_append_left _ member)).1) none (fun _ => nofun)
  have keeps (visits : List Visit) (apart : ∀ visit ∈ visits, Apart cfg.cookie.cookieName visit) :
      exec (step cfg filter) (some id) visits = some id := by
    induction visits with
    | nil => rfl
    | cons visit rest ih =>
      rw [exec_cons, step_keeps plain named only (apart visit List.mem_cons_self) numeric]
      exact ih fun other member => apart other (List.mem_cons_of_mem _ member)
  rw [exec_append, given]
  exact keeps second fun visit member => apart visit (List.mem_append_right _ member)

/-- A visit without cookies, and one a day later with a foreign one in front. -/
def firstVisit : Visit := ⟨hostile, calm, [], .fresh [], [], [], 0, 0⟩

def nextVisit : Visit := ⟨hostile, { calm with time := 1600086400 }, [], .fresh [], [foreignCookie], [], 1, 0⟩

/-- The id is the time of the first visit. -/
theorem session_keeps_id_next :
    exec (step shop asciiFilter) none ([firstVisit] ++ [nextVisit]) = some (bytes "1600000000") := by
  apply session_keeps_id (by decide) (by decide) asciiFilter_digits
  · intro visit member
    simp only [List.cons_append, List.nil_append, List.mem_cons, List.not_mem_nil, or_false] at member
    rcases member with rfl | rfl <;> exact ⟨by decide, fun c none_later => absurd none_later List.not_mem_nil⟩
  · decide +kernel

end WorkerInformer.VisitorSession
