import Mathlib.Data.List.Induction
import WorkerInformer.Bytes
import WorkerInformer.KeyMap

/-! `src/UrlParser.cpp`: the parameters of a query string. A name reaches from
the question mark or an ampersand to the next equals sign, a value to the next
ampersand, and only values are percent-decoded; a later parameter replaces an
earlier one of the same name. -/
namespace WorkerInformer.UrlParser
open Bytes

def isHexDigit (b : UInt8) : Bool :=
  (48 ≤ b && b ≤ 57) || (97 ≤ b && b ≤ 102) || (65 ≤ b && b ≤ 70)

/-- `hex_digit_to_int`; what is no hexadecimal digit counts as 0. -/
def hexDigitToInt (b : UInt8) : UInt8 :=
  if 48 ≤ b && b ≤ 57 then b - 48
  else if 97 ≤ b && b ≤ 102 then b - 87
  else if 65 ≤ b && b ≤ 70 then b - 55
  else 0

/-- The states of `percent_decode`. -/
inductive DecodeState
  | general
  | firstPercentEncodedDigit
  | secondPercentEncodedDigit (firstChar : UInt8)

/-- The loop of `percent_decode`; an escape the text ends in is dropped. -/
def decodeFrom : DecodeState → Bytes → Bytes
  | _, [] => []
  | .general, c :: rest =>
    if c ≠ 37 then c :: decodeFrom .general rest else decodeFrom .firstPercentEncodedDigit rest
  | .firstPercentEncodedDigit, c :: rest =>
    if isHexDigit c then decodeFrom (.secondPercentEncodedDigit c) rest
    else 37 :: c :: decodeFrom .general rest
  | .secondPercentEncodedDigit firstChar, c :: rest =>
    if isHexDigit c then ((hexDigitToInt firstChar <<< 4) ||| hexDigitToInt c) :: decodeFrom .general rest
    else 37 :: firstChar :: c :: decodeFrom .general rest

def percentDecode (str : Bytes) : Bytes := decodeFrom .general str

/-- What follows the first occurrence of `b`, if there is one. -/
def after? (b : UInt8) : Bytes → Option Bytes
  | [] => none
  | c :: rest => if c = b then some rest else after? b rest

/-- The loop of `parse` on the text behind `++pos`; each pass consumes an equals
sign at least, so the length of the text is fuel enough. -/
def parseFrom : Nat → Bytes → KeyMap Bytes Bytes → KeyMap Bytes Bytes
  | 0, _, params => params
  | fuel + 1, text, params =>
    match after? 61 text with
    | none => params
    | some value =>
      let params := params.set (text.takeWhile (· ≠ 61)) (percentDecode (value.takeWhile (· ≠ 38)))
      match after? 38 value with
      | none => params
      | some rest => parseFrom fuel rest params

/-- `UrlParser::parse`: from the first question mark, or the whole text. -/
def parse (url : Bytes) : KeyMap Bytes Bytes :=
  parseFrom (url.length + 1) ((after? 63 url).getD url) KeyMap.empty

/-- `UrlParser::param`: the empty string if there is no such parameter. -/
def param (url name : Bytes) : Bytes := ((parse url).get? name).getD []

theorem after?_length {b : UInt8} {text rest : Bytes} (found : after? b text = some rest) :
    rest.length < text.length := by
  induction text with
  | nil => cases found
  | cons c text ih =>
    rw [after?] at found
    split at found
    · cases found
      simp
    · exact Nat.lt_succ_of_lt (ih found)

/-- More fuel than bytes changes nothing: the loop has ended by itself. -/
theorem parseFrom_fuel {fuel more : Nat} {text : Bytes} (enough : text.length < fuel) (more_fuel : fuel ≤ more)
    (params : KeyMap Bytes Bytes) : parseFrom more text params = parseFrom fuel text params := by
  induction fuel generalizing more text params with
  | zero => omega
  | succ fuel ih =>
    obtain ⟨more, rfl⟩ := Nat.exists_eq_succ_of_ne_zero (show more ≠ 0 by omega)
    simp only [parseFrom]
    cases named : after? 61 text with
    | none => rfl
    | some value =>
      have shorter := after?_length named
      simp only
      cases next : after? 38 value with
      | none => rfl
      | some rest =>
        have rest_shorter := after?_length next
        exact ih (by omega) (by omega) _

example : param (bytes "/i?scr=A%2f&show=x&scr=%3Cb") (bytes "scr") = bytes "<b" := by decide

/-! ## Encoded parameter lists -/

/-- `digit` is a hexadecimal digit of either case that stands for `n`. -/
def HexDigit (n : Nat) (digit : UInt8) : Prop :=
  (bytes "0123456789abcdef")[n]? = some digit ∨ (bytes "0123456789ABCDEF")[n]? = some digit

instance (n : Nat) (digit : UInt8) : Decidable (HexDigit n digit) := inferInstanceAs (Decidable (_ ∨ _))

/-- A percent-encoding of a value: each byte is written raw or escaped, as the
writer likes, but a percent sign, an ampersand and a question mark never raw. -/
inductive Encodes : Bytes → Bytes → Prop
  | nil : Encodes [] []
  | raw {b : UInt8} {text encoded : Bytes} (plain : b ≠ 37 ∧ b ≠ 38 ∧ b ≠ 63) :
    Encodes text encoded → Encodes (b :: text) (b :: encoded)
  | escaped {b high low : UInt8} {text encoded : Bytes} (highDigit : HexDigit (b.toNat / 16) high)
    (lowDigit : HexDigit (b.toNat % 16) low) :
    Encodes text encoded → Encodes (b :: text) (37 :: high :: low :: encoded)

/-- A parameter as it is written, with the value it means. -/
structure Parameter where
  name : Bytes
  value : Bytes
  encoded : Bytes
  name_free : ∀ c ∈ name, c ≠ 61 ∧ c ≠ 38 ∧ c ≠ 63
  encodes : Encodes value encoded

/-- `name=value`. -/
def Parameter.text (p : Parameter) : Bytes := p.name ++ 61 :: p.encoded

/-- The parameters joined by ampersands. -/
def queryOf (parameters : List Parameter) : Bytes := [38].intercalate (parameters.map Parameter.text)

/-- The value of the last parameter of this name, empty if there is none. -/
def lastNamed (parameters : List Parameter) (name : Bytes) : Bytes :=
  (((parameters.filter fun p => p.name = name).getLast?).map Parameter.value).getD []

theorem hexDigit_read {n : Nat} {digit : UInt8} (hex : HexDigit n digit) :
    isHexDigit digit = true ∧ (hexDigitToInt digit).toNat = n := by
  have all : ∀ n : Fin 16, ∀ digits ∈ [bytes "0123456789abcdef", bytes "0123456789ABCDEF"],
      isHexDigit (digits.getD n 0) = true ∧ (hexDigitToInt (digits.getD n 0)).toNat = n := by
    decide +kernel
  have below : ∀ digits : Bytes, digits.length = 16 → digits[n]? = some digit →
      n < 16 ∧ digits.getD n 0 = digit := by
    intro digits length found
    obtain ⟨inside, -⟩ := List.getElem?_eq_some_iff.mp found
    exact ⟨length ▸ inside, by simp [List.getD, found]⟩
  rcases hex with found | found
  · obtain ⟨inside, rfl⟩ := below _ (by decide +kernel) found
    exact all ⟨n, inside⟩ _ (by simp)
  · obtain ⟨inside, rfl⟩ := below _ (by decide +kernel) found
    exact all ⟨n, inside⟩ _ (by simp)

/-- Two digits give the byte they were taken from. -/
theorem digits_join (b : UInt8) {high low : UInt8} (highValue : high.toNat = b.toNat / 16)
    (lowValue : low.toNat = b.toNat % 16) : (high <<< 4) ||| low = b := by
  obtain rfl : high = UInt8.ofNat (b.toNat / 16) := by rw [← highValue, UInt8.ofNat_toNat]
  obtain rfl : low = UInt8.ofNat (b.toNat % 16) := by rw [← lowValue, UInt8.ofNat_toNat]
  clear highValue lowValue
  revert b
  exact forall_byte (by decide +kernel)

/-- **Whatever the writer escaped, the decoder gives the value back.** -/
theorem percentDecode_encoded {text encoded : Bytes} (encodes : Encodes text encoded) :
    percentDecode encoded = text := by
  induction encodes with
  | nil => rfl
  | raw plain _ ih =>
    rw [percentDecode, decodeFrom, if_pos plain.1]
    exact congrArg _ ih
  | escaped highDigit lowDigit _ ih =>
    obtain ⟨highHex, highValue⟩ := hexDigit_read highDigit
    obtain ⟨lowHex, lowValue⟩ := hexDigit_read lowDigit
    simp only [percentDecode, decodeFrom, ne_eq, not_true_eq_false, highHex, lowHex, ↓reduceIte]
    rw [digits_join _ highValue lowValue]
    exact congrArg _ ih

/-- An encoded value contains neither an ampersand nor a question mark. -/
theorem encoded_free {text encoded : Bytes} (encodes : Encodes text encoded) :
    38 ∉ encoded ∧ 63 ∉ encoded := by
  have digit_free : ∀ {n : Nat} {digit : UInt8}, HexDigit n digit → digit ≠ 38 ∧ digit ≠ 63 := by
    intro n digit hex
    have read := (hexDigit_read hex).1
    constructor <;> rintro rfl <;> exact absurd read (by decide)
  induction encodes with
  | nil => simp
  | raw plain _ ih => exact ⟨by simp [ih.1, Ne.symm plain.2.1], by simp [ih.2, Ne.symm plain.2.2]⟩
  | escaped highDigit lowDigit _ ih =>
    obtain ⟨highAmp, highMark⟩ := digit_free highDigit
    obtain ⟨lowAmp, lowMark⟩ := digit_free lowDigit
    exact ⟨by simp [ih.1, highAmp.symm, lowAmp.symm], by simp [ih.2, highMark.symm, lowMark.symm]⟩

theorem after?_eq_none {b : UInt8} {text : Bytes} (absent : b ∉ text) : after? b text = none := by
  induction text with
  | nil => rfl
  | cons c rest ih =>
    obtain ⟨differs, later⟩ := List.ne_and_not_mem_of_not_mem_cons absent
    rw [after?, if_neg (Ne.symm differs), ih later]

theorem after?_append {b : UInt8} {front : Bytes} (absent : b ∉ front) (rest : Bytes) :
    after? b (front ++ b :: rest) = some rest := by
  induction front with
  | nil => simp [after?]
  | cons c front ih =>
    obtain ⟨differs, later⟩ := List.ne_and_not_mem_of_not_mem_cons absent
    rw [List.cons_append, after?, if_neg (Ne.symm differs), ih later]

theorem others_pass {b : UInt8} {text : Bytes} (absent : b ∉ text) : ∀ c ∈ text, decide (c ≠ b) = true :=
  fun _ member => decide_eq_true (ne_of_mem_of_not_mem member absent)

theorem takeWhile_append {b : UInt8} {front : Bytes} (absent : b ∉ front) (rest : Bytes) :
    (front ++ b :: rest).takeWhile (· ≠ b) = front :=
  takeWhile_refused (others_pass absent) (decide_eq_false (not_not.mpr rfl)) rest

theorem takeWhile_of_absent {b : UInt8} {text : Bytes} (absent : b ∉ text) : text.takeWhile (· ≠ b) = text :=
  List.takeWhile_eq_self_iff.mpr (others_pass absent)

theorem queryOf_cons (p next : Parameter) (rest : List Parameter) :
    queryOf (p :: next :: rest) = p.name ++ 61 :: (p.encoded ++ 38 :: queryOf (next :: rest)) := by
  simp [queryOf, List.intercalate, Parameter.text]

/-- The loop stores the parameters of a list one after the other. -/
theorem parseFrom_queryOf (parameters : List Parameter) {fuel : Nat} (enough : (queryOf parameters).length < fuel)
    (params : KeyMap Bytes Bytes) :
    parseFrom fuel (queryOf parameters) params =
      params.setAll (parameters.map fun p => (p.name, p.value)) := by
  obtain ⟨fuel, rfl⟩ := Nat.exists_eq_succ_of_ne_zero (show fuel ≠ 0 by omega)
  induction parameters generalizing fuel params with
  | nil => rfl
  | cons p rest ih =>
    have noEquals : 61 ∉ p.name := fun member => (p.name_free 61 member).1 rfl
    have noAmpersand := (encoded_free p.encodes).1
    cases rest with
    | nil =>
      have text : queryOf [p] = p.name ++ 61 :: p.encoded := by simp [queryOf, List.intercalate, Parameter.text]
      rw [text, parseFrom, after?_append noEquals, takeWhile_append noEquals]
      simp only
      rw [takeWhile_of_absent noAmpersand, after?_eq_none noAmpersand, percentDecode_encoded p.encodes]
      rfl
    | cons next rest =>
      rw [queryOf_cons] at enough ⊢
      simp only [List.length_append, List.length_cons] at enough
      obtain ⟨fuel, rfl⟩ := Nat.exists_eq_succ_of_ne_zero (show fuel ≠ 0 by omega)
      rw [parseFrom, after?_append noEquals, takeWhile_append noEquals]
      simp only
      rw [takeWhile_append noAmpersand, after?_append noAmpersand, percentDecode_encoded p.encodes]
      exact ih _ fuel (by omega)

theorem get?_parameters (parameters : List Parameter) (name : Bytes) :
    ((KeyMap.empty.setAll (parameters.map fun p => (p.name, p.value))).get? name).getD [] =
      lastNamed parameters name := by
  induction parameters using List.reverseRecOn with
  | nil => rfl
  | append_singleton rest p ih =>
    rw [KeyMap.setAll, List.map_append, List.foldl_append]
    simp only [List.map_cons, List.map_nil, List.foldl_cons, List.foldl_nil, KeyMap.get?_set]
    by_cases named : name = p.name
    · simp [named, lastNamed]
    · rw [if_neg named]
      simpa [lastNamed, List.filter_append, Ne.symm named, KeyMap.setAll] using ih

theorem queryOf_unmarked (parameters : List Parameter) : 63 ∉ queryOf parameters := by
  have text_unmarked : ∀ p : Parameter, 63 ∉ p.text := by
    intro p member
    rcases List.mem_append.mp member with name | value
    · exact (p.name_free 63 name).2.2 rfl
    · exact (encoded_free p.encodes).2 ((List.mem_cons.mp value).resolve_left (by decide))
  induction parameters with
  | nil => simp [queryOf, List.intercalate]
  | cons p rest ih =>
    cases rest with
    | nil => simpa [queryOf, List.intercalate] using text_unmarked p
    | cons next rest =>
      have text := text_unmarked p
      rw [queryOf_cons]
      simp only [Parameter.text, List.mem_append, List.mem_cons, not_or] at text ⊢
      exact ⟨text.1, text.2.1, text.2.2, by decide, ih⟩

/-- **A query string gives its values back.** For every list of parameters and
however their values were encoded, behind any path or alone, each name has the
value of its last parameter. -/
theorem param_queryOf {path : Bytes} (unmarked : 63 ∉ path) (parameters : List Parameter) (name : Bytes) :
    param (path ++ 63 :: queryOf parameters) name = lastNamed parameters name ∧
      param (queryOf parameters) name = lastNamed parameters name := by
  constructor
  · rw [param, parse, after?_append unmarked, Option.getD_some, parseFrom_queryOf, get?_parameters]
    simp only [List.length_append, List.length_cons]
    omega
  · rw [param, parse, after?_eq_none (queryOf_unmarked parameters), Option.getD_none,
      parseFrom_queryOf parameters (Nat.lt_succ_self _), get?_parameters]

/-- `scr=` and `scr=a%3D`, the second of which counts. -/
def scrTwice : List Parameter :=
  [⟨bytes "scr", [], [], by decide +kernel, .nil⟩,
    ⟨bytes "scr", [97, 61], [97, 37, 51, 68], by decide +kernel,
      .raw (by decide) (.escaped (by decide +kernel) (by decide +kernel) .nil)⟩]

theorem param_scrTwice :
    param (bytes "/i" ++ 63 :: queryOf scrTwice) (bytes "scr") = bytes "a=" ∧
      param (queryOf scrTwice) (bytes "scr") = bytes "a=" :=
  have last : lastNamed scrTwice (bytes "scr") = bytes "a=" := by decide +kernel
  (param_queryOf (by decide +kernel) scrTwice (bytes "scr")).imp (·.trans last) (·.trans last)

end WorkerInformer.UrlParser
