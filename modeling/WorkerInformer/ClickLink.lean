import Mathlib.Algebra.Group.Nat.Defs
import WorkerInformer.Base64

/-! `template/teaser.html`: the link of an offer and its coder `b`. A text is
written as UTF-8 unit by unit, surrogates like any other unit, and the bytes as
Base64; behind the end of a text `charCodeAt` is `NaN`, which counts as 0 in bit
operations and is asked for afterwards. Decoding undoes both. -/
namespace WorkerInformer.ClickLink
open Base64

/-- A string of JavaScript: its UTF-16 units. -/
abbrev Units := List UInt16

/-- A text of the source, in ASCII. -/
def units (text : String) : Units := text.toList.map fun c => UInt16.ofNat c.toNat

/-- `String.fromCharCode`. -/
def fromCharCode (code : Nat) : UInt16 := UInt16.ofNat code

/-- What `charCodeAt` gave, in a bit operation; nothing stands for `NaN`. -/
def bits (code : Option UInt16) : Nat := (code.map UInt16.toNat).getD 0

/-! ## `b` -/

/-- `e.replace(/\r\n/g, "\n")`. -/
def replaceCrLf : Units → Units
  | 13 :: 10 :: rest => 10 :: replaceCrLf rest
  | unit :: rest => unit :: replaceCrLf rest
  | [] => []

/-- The body of the loop of `_utf8_encode`. -/
def utf8EncodeUnit (unit : UInt16) : Units :=
  let r := unit.toNat
  if r < 128 then [fromCharCode r]
  else if 127 < r ∧ r < 2048 then [fromCharCode (r >>> 6 ||| 192), fromCharCode (r &&& 63 ||| 128)]
  else [fromCharCode (r >>> 12 ||| 224), fromCharCode (r >>> 6 &&& 63 ||| 128), fromCharCode (r &&& 63 ||| 128)]

/-- `_utf8_encode`. -/
def utf8Encode (e : Units) : Units := (replaceCrLf e).flatMap utf8EncodeUnit

/-- The loop of `_utf8_decode`; `skip` units are left of what the last character
moved `n` by. -/
def utf8DecodeFrom : Nat → Units → Units
  | _, [] => []
  | skip + 1, _ :: rest => utf8DecodeFrom skip rest
  | 0, unit :: rest =>
    let r := unit.toNat
    let c2 := bits rest[0]?
    let c3 := bits rest[1]?
    if r < 128 then fromCharCode r :: utf8DecodeFrom 0 rest
    else if 191 < r ∧ r < 224 then fromCharCode ((r &&& 31) <<< 6 ||| c2 &&& 63) :: utf8DecodeFrom 1 rest
    else fromCharCode ((r &&& 15) <<< 12 ||| (c2 &&& 63) <<< 6 ||| c3 &&& 63) :: utf8DecodeFrom 2 rest

/-- `_utf8_decode`. -/
def utf8Decode (e : Units) : Units := utf8DecodeFrom 0 e

/-- `_keyStr`. -/
def keyStr : Units := units "ABCDEFGHIJKLMNOPQRSTUVWXYZabcdefghijklmnopqrstuvwxyz0123456789+/="

/-- `this._keyStr.charAt(index)`, for an index inside. -/
def charAt (index : Nat) : UInt16 := keyStr.getD index 61

/-- The body of the loop of `encode`. -/
def encodeGroup (n : UInt16) (r i : Option UInt16) : Units :=
  let s := n.toNat >>> 2
  let o := (n.toNat &&& 3) <<< 4 ||| bits r >>> 4
  let u := (bits r &&& 15) <<< 2 ||| bits i >>> 6
  let a := bits i &&& 63
  if r.isNone then [s, o, 64, 64].map charAt
  else if i.isNone then [s, o, u, 64].map charAt
  else [s, o, u, a].map charAt

/-- The loop of `encode`. -/
def encodeFrom : Units → Units
  | n :: r :: i :: rest => encodeGroup n (some r) (some i) ++ encodeFrom rest
  | [n, r] => encodeGroup n (some r) none
  | [n] => encodeGroup n none none
  | [] => []

/-- `b.encode`. -/
def encode (e : Units) : Units := encodeFrom (utf8Encode e)

/-- The class `[A-Za-z0-9\+\/\=]`, outside of which `decode` removes. -/
def isKey (unit : UInt16) : Bool :=
  (65 ≤ unit && unit ≤ 90) || (97 ≤ unit && unit ≤ 122) || (48 ≤ unit && unit ≤ 57) ||
    unit == 43 || unit == 47 || unit == 61

/-- `this._keyStr.indexOf`, of a key; the empty text that `charAt` gives behind the
end is found at 0. -/
def indexOf (unit : Option UInt16) : Nat :=
  match unit with
  | some unit => keyStr.idxOf unit
  | none => 0

/-- The body of the loop of `decode`. -/
def decodeGroup (s o u a : Nat) : Units :=
  let n := s <<< 2 ||| o >>> 4
  let r := (o &&& 15) <<< 4 ||| u >>> 2
  let i := (u &&& 3) <<< 6 ||| a
  fromCharCode n :: ((if u ≠ 64 then [fromCharCode r] else []) ++ if a ≠ 64 then [fromCharCode i] else [])

/-- The loop of `decode`. -/
def decodeFrom : Units → Units
  | s :: o :: u :: a :: rest =>
    decodeGroup (indexOf s) (indexOf o) (indexOf u) (indexOf a) ++ decodeFrom rest
  | [s, o, u] => decodeGroup (indexOf s) (indexOf o) (indexOf u) (indexOf none)
  | [s, o] => decodeGroup (indexOf s) (indexOf o) (indexOf none) (indexOf none)
  | [s] => decodeGroup (indexOf s) (indexOf none) (indexOf none) (indexOf none)
  | [] => []

/-- `b.decode`. -/
def decode (e : Units) : Units := utf8Decode (decodeFrom (e.filter isKey))

/-! ## The link -/

/-- A text without carriage returns and newlines. -/
structure Line where
  text : Units
  oneLine : 10 ∉ text ∧ 13 ∉ text

/-- The fields of an offer that its link names. -/
structure Item where
  guid : Line
  token : Line
  url : Line
  campaignGuid : Line

/-- What the link takes from the page: `informer.informer_id`, the token that
`params.rand` returns, and the time in milliseconds since it was opened. -/
structure Page where
  informerId : Line
  rand : Line
  t : Int

/-- The text that `link` encodes. -/
def linkText (item : Item) (page : Page) : Units :=
  units "id=" ++ item.guid.text ++ units "\n" ++ units "inf=" ++ page.informerId.text ++ units "\n" ++
    units "token=" ++ item.token.text ++ units "\n" ++ units "url=" ++ item.url.text ++ units "\n" ++
    units "rand=" ++ page.rand.text ++ units "\n" ++ units "camp=" ++ item.campaignGuid.text ++ units "\n" ++
    units "t=" ++ units (toString page.t) ++ units "\n"

/-- `link`. -/
def link (item : Item) (page : Page) : Units := units "/click?" ++ encode (linkText item page)

/-! ## Reading a link -/

/-- A line cut at its first equals sign. -/
def cutAtEquals? (line : Units) : Option (Units × Units) :=
  if 61 ∈ line then some (line.takeWhile (· != 61), (line.dropWhile (· != 61)).drop 1) else none

/-- The fields a text names, one on a line. -/
def fieldsOf (text : Units) : List (Units × Units) := (text.splitOn 10).filterMap cutAtEquals?

/-- What stands behind `/click?`. -/
def query (link : Units) : Units := link.drop (units "/click?").length

/-! ## The characters -/

/-- Bits that do not meet are added. -/
theorem shiftLeft_or {x y width : Nat} (fits : y < 2 ^ width) : x <<< width ||| y = x * 2 ^ width + y := by
  rw [← Nat.shiftLeft_add_eq_or_of_lt fits, Nat.shiftLeft_eq]

/-- And a mask takes the upper ones away again. -/
theorem add_and_mask {x y width : Nat} (fits : y < 2 ^ width) : x * 2 ^ width + y &&& 2 ^ width - 1 = y := by
  rw [Nat.and_two_pow_sub_one_eq_mod, Nat.mul_add_mod_of_lt fits]

theorem toNat_fromCharCode {code : Nat} (small : code < 2 ^ 16) : (fromCharCode code).toNat = code := by
  rw [fromCharCode, UInt16.toNat_ofNat']
  exact Nat.mod_eq_of_lt small

theorem fromCharCode_toNat (unit : UInt16) : fromCharCode unit.toNat = unit := UInt16.ofNat_toNat

/-- One, two or three bytes, with the bits of the unit six by six. -/
theorem utf8EncodeUnit_eq (unit : UInt16) :
    utf8EncodeUnit unit =
      if unit.toNat < 128 then [fromCharCode unit.toNat]
      else if unit.toNat < 2048 then [fromCharCode (192 + unit.toNat / 64), fromCharCode (128 + unit.toNat % 64)]
      else [fromCharCode (224 + unit.toNat / 4096), fromCharCode (128 + unit.toNat / 64 % 64),
        fromCharCode (128 + unit.toNat % 64)] := by
  have small := unit.toNat_lt
  rw [utf8EncodeUnit]
  generalize unit.toNat = r at *
  have tail : ∀ x, x &&& 63 ||| 128 = 128 + x % 64 := by
    intro x
    rw [Nat.or_comm, Nat.and_two_pow_sub_one_eq_mod x 6]
    exact @shiftLeft_or 2 _ 6 (Nat.mod_lt _ (by decide))
  have two_bytes : r < 2048 → r >>> 6 ||| 192 = 192 + r / 64 := by
    intro short
    rw [Nat.or_comm, Nat.shiftRight_eq_div_pow]
    exact @shiftLeft_or 3 _ 6 (show r / 2 ^ 6 < 2 ^ 6 by omega)
  have three_bytes : r >>> 12 ||| 224 = 224 + r / 4096 := by
    rw [Nat.or_comm, Nat.shiftRight_eq_div_pow]
    exact @shiftLeft_or 14 _ 4 (show r / 2 ^ 12 < 2 ^ 4 by omega)
  simp only [tail, three_bytes]
  split
  · rfl
  · rename_i high
    simp only [show 127 < r by omega, true_and]
    split
    · rename_i short
      rw [two_bytes short]
    · rw [Nat.shiftRight_eq_div_pow]

theorem utf8EncodeUnit_lt (unit : UInt16) : ∀ byte ∈ utf8EncodeUnit unit, byte.toNat < 256 := by
  have small := unit.toNat_lt
  rw [utf8EncodeUnit_eq]
  split
  · simp only [List.forall_mem_cons, List.not_mem_nil, false_implies, implies_true, and_true]
    rw [toNat_fromCharCode (by omega)]
    omega
  split
  · simp only [List.forall_mem_cons, List.not_mem_nil, false_implies, implies_true, and_true]
    rw [toNat_fromCharCode (by omega), toNat_fromCharCode (by omega)]
    omega
  · simp only [List.forall_mem_cons, List.not_mem_nil, false_implies, implies_true, and_true]
    rw [toNat_fromCharCode (by omega), toNat_fromCharCode (by omega), toNat_fromCharCode (by omega)]
    omega

/-- **A character is read back in front of any rest.** -/
theorem utf8DecodeFrom_unit (unit : UInt16) (rest : Units) :
    utf8DecodeFrom 0 (utf8EncodeUnit unit ++ rest) = unit :: utf8DecodeFrom 0 rest := by
  have small := unit.toNat_lt
  have low6 : ∀ x, 128 + x % 64 &&& 63 = x % 64 := fun x => @add_and_mask 2 _ 6 (Nat.mod_lt x (by decide))
  rw [utf8EncodeUnit_eq]
  split
  · rename_i short
    rw [List.cons_append, utf8DecodeFrom, toNat_fromCharCode (by omega)]
    simp only [short, ↓reduceIte, fromCharCode_toNat]
    rfl
  split
  · rename_i long short
    have lead : 192 + unit.toNat / 64 &&& 31 = unit.toNat / 64 := @add_and_mask 6 _ 5 (by omega)
    have whole : unit.toNat / 64 * 2 ^ 6 + unit.toNat % 64 = unit.toNat := by omega
    rw [List.cons_append, List.cons_append, List.nil_append, utf8DecodeFrom, toNat_fromCharCode (by omega)]
    simp only [show ¬ 192 + unit.toNat / 64 < 128 by omega, show 191 < 192 + unit.toNat / 64 by omega,
      show 192 + unit.toNat / 64 < 224 by omega, and_self, ↓reduceIte, List.getElem?_cons_zero, bits, Option.map_some,
      Option.getD_some, toNat_fromCharCode (show 128 + unit.toNat % 64 < 2 ^ 16 by omega), lead, low6,
      shiftLeft_or (show unit.toNat % 64 < 2 ^ 6 by omega), whole, fromCharCode_toNat, utf8DecodeFrom]
  · rename_i long longer
    have lead : 224 + unit.toNat / 4096 &&& 15 = unit.toNat / 4096 := @add_and_mask 14 _ 4 (by omega)
    have upper : (unit.toNat / 4096) <<< 12 ||| (unit.toNat / 64 % 64) <<< 6 = (unit.toNat / 64) <<< 6 := by
      rw [shiftLeft_or (by rw [Nat.shiftLeft_eq]; omega), Nat.shiftLeft_eq, Nat.shiftLeft_eq]
      omega
    have whole : unit.toNat / 64 * 2 ^ 6 + unit.toNat % 64 = unit.toNat := by omega
    rw [List.cons_append, List.cons_append, List.cons_append, List.nil_append, utf8DecodeFrom,
      toNat_fromCharCode (by omega)]
    simp only [show ¬ 224 + unit.toNat / 4096 < 128 by omega, show ¬ 224 + unit.toNat / 4096 < 224 by omega, and_false,
      ↓reduceIte, List.getElem?_cons_zero, List.getElem?_cons_succ, bits, Option.map_some, Option.getD_some,
      toNat_fromCharCode (show 128 + unit.toNat / 64 % 64 < 2 ^ 16 by omega),
      toNat_fromCharCode (show 128 + unit.toNat % 64 < 2 ^ 16 by omega), lead, low6, upper,
      shiftLeft_or (show unit.toNat % 64 < 2 ^ 6 by omega), whole, fromCharCode_toNat, utf8DecodeFrom]

/-- **Every text comes back from its bytes**, but for carriage returns in front
of newlines. -/
theorem utf8Decode_utf8Encode (e : Units) : utf8Decode (utf8Encode e) = replaceCrLf e := by
  rw [utf8Decode, utf8Encode]
  induction replaceCrLf e with
  | nil => rfl
  | cons unit rest ih => rw [List.flatMap_cons, utf8DecodeFrom_unit, ih]

theorem replaceCrLf_of_absent {e : Units} (absent : 13 ∉ e) : replaceCrLf e = e := by
  fun_induction replaceCrLf e with
  | case1 rest ih => simp at absent
  | case2 unit rest _ ih => rw [ih (List.not_mem_of_not_mem_cons absent)]
  | case3 => rfl

/-! ## The groups -/

theorem keyStr_nodup : keyStr.Nodup := by decide +kernel

theorem keyStr_length : keyStr.length = 65 := by decide +kernel

/-- `decode` removes no letter. -/
theorem keyStr_isKey : keyStr.all isKey = true := by decide +kernel

theorem charAt_pad : charAt 64 = letter keyStr 61 none := by decide +kernel

theorem indexOf_letter {sextet : Nat} (small : sextet < 64) :
    indexOf (some (letter keyStr 61 (some sextet))) = sextet :=
  idxOf_letter keyStr_nodup (by rw [keyStr_length]; omega)

theorem indexOf_pad : indexOf (some (letter keyStr 61 none)) = 64 := by decide +kernel

/-- The indices that `encode` computes for three bytes. -/
theorem encodeGroup_bits {n r i : Nat} (r_small : r < 256) (i_small : i < 256) :
    n >>> 2 = n / 4 ∧ (n &&& 3) <<< 4 ||| r >>> 4 = n % 4 * 16 + r / 16 ∧
      (r &&& 15) <<< 2 ||| i >>> 6 = r % 16 * 4 + i / 64 ∧ i &&& 63 = i % 64 := by
  have second := @shiftLeft_or (n % 4) (r / 2 ^ 4) 4 (by omega)
  have third := @shiftLeft_or (r % 16) (i / 2 ^ 6) 2 (by omega)
  simp only [Nat.shiftRight_eq_div_pow]
  rw [Nat.and_two_pow_sub_one_eq_mod n 2, Nat.and_two_pow_sub_one_eq_mod r 4, Nat.and_two_pow_sub_one_eq_mod i 6]
  exact ⟨trivial, second, third, rfl⟩

/-- **`encode` writes the sextets of its bytes.** -/
theorem encodeFrom_eq {text : Units} (small : ∀ byte ∈ text, byte.toNat < 256) :
    encodeFrom text = (sextets (text.map UInt16.toNat)).map (letter keyStr 61) := by
  induction text using threes with
  | nil => rfl
  | one n =>
    obtain ⟨first, second, -⟩ := @encodeGroup_bits n.toNat 0 0 (by decide) (by decide)
    simp only [encodeFrom, encodeGroup, bits, Option.map_none, Option.getD_none, first, second, Option.isNone_none,
      ↓reduceIte, List.map_cons, List.map_nil, charAt_pad, sextets]
    rfl
  | two n r =>
    simp only [List.forall_mem_cons] at small
    obtain ⟨first, second, third, -⟩ := @encodeGroup_bits n.toNat r.toNat 0 small.2.1 (by decide)
    simp only [encodeFrom, encodeGroup, bits, Option.map_some, Option.getD_some, Option.map_none, Option.getD_none,
      first, second, third, Option.isNone_some, Option.isNone_none, Bool.false_eq_true, ↓reduceIte, List.map_cons,
      List.map_nil, charAt_pad, sextets]
    rfl
  | group n r i rest ih =>
    simp only [List.forall_mem_cons] at small
    obtain ⟨first, second, third, fourth⟩ := @encodeGroup_bits n.toNat r.toNat i.toNat small.2.1 small.2.2.1
    simp only [encodeFrom, encodeGroup, bits, Option.map_some, Option.getD_some, first, second, third, fourth,
      Option.isNone_some, Bool.false_eq_true, ↓reduceIte, ih small.2.2.2, List.map_cons, List.map_nil, sextets]
    rfl

/-- The characters that `decode` computes from four indices. -/
theorem decodeGroup_bits {s o u a : Nat} (o_small : o < 64) (u_small : u < 64) (a_small : a < 64) :
    s <<< 2 ||| o >>> 4 = s * 4 + o / 16 ∧ (o &&& 15) <<< 4 ||| u >>> 2 = o % 16 * 16 + u / 4 ∧
      (u &&& 3) <<< 6 ||| a = u % 4 * 64 + a := by
  have first := @shiftLeft_or s (o / 2 ^ 4) 2 (by omega)
  have second := @shiftLeft_or (o % 16) (u / 2 ^ 2) 4 (by omega)
  have third := @shiftLeft_or (u % 4) a 6 a_small
  simp only [Nat.shiftRight_eq_div_pow]
  rw [Nat.and_two_pow_sub_one_eq_mod o 4, Nat.and_two_pow_sub_one_eq_mod u 2]
  exact ⟨first, second, third⟩

/-- **`decode` reads coded sextets back as characters.** -/
theorem decodeFrom_eq {coded : List (Option Nat)} (isCoded : Coded coded) :
    decodeFrom (coded.map (letter keyStr 61)) = (octets coded).map fromCharCode := by
  induction isCoded with
  | nil => rfl
  | @one s o s_small o_small =>
    obtain ⟨first, -⟩ := @decodeGroup_bits s o 0 0 o_small (by decide) (by decide)
    simp only [List.map_cons, List.map_nil, decodeFrom, indexOf_letter s_small, indexOf_letter o_small, indexOf_pad,
      decodeGroup, first]
    rfl
  | @two s o u s_small o_small u_small =>
    obtain ⟨first, second, -⟩ := @decodeGroup_bits s o u 0 o_small u_small (by decide)
    simp only [List.map_cons, List.map_nil, decodeFrom, indexOf_letter s_small, indexOf_letter o_small,
      indexOf_letter u_small, indexOf_pad, decodeGroup, first, second, ne_eq, Nat.ne_of_lt u_small]
    rfl
  | @group s o u a rest s_small o_small u_small a_small _ ih =>
    obtain ⟨first, second, third⟩ := @decodeGroup_bits s o u a o_small u_small a_small
    simp only [List.map_cons, decodeFrom, indexOf_letter s_small, indexOf_letter o_small, indexOf_letter u_small,
      indexOf_letter a_small, decodeGroup, first, second, third, ne_eq, Nat.ne_of_lt u_small, Nat.ne_of_lt a_small, ih]
    rfl

/-- A letter of the link is none that `decode` removes. -/
theorem filter_isKey {coded : List (Option Nat)} (isCoded : Coded coded) :
    (coded.map (letter keyStr 61)).filter isKey = coded.map (letter keyStr 61) := by
  obtain ⟨-, body, padding, rfl, -, small⟩ := isCoded.shape
  rw [List.filter_eq_self]
  intro key member
  obtain ⟨index, inside, rfl⟩ := List.mem_map.mp member
  rcases List.mem_append.mp inside with in_body | in_padding
  · obtain ⟨sextet, sextet_mem, rfl⟩ := List.mem_map.mp in_body
    have below : sextet < keyStr.length := by
      rw [keyStr_length]
      exact Nat.lt_succ_of_lt (small sextet sextet_mem)
    exact List.all_eq_true.mp keyStr_isKey _ (letter_mem below)
  · rw [List.eq_of_mem_replicate in_padding]
    rfl

/-- **Decoding undoes encoding**, but for carriage returns in front of newlines. -/
theorem decode_encode (e : Units) : decode (encode e) = replaceCrLf e := by
  have small : ∀ byte ∈ utf8Encode e, byte.toNat < 256 := by
    intro byte member
    obtain ⟨unit, -, inside⟩ := List.mem_flatMap.mp member
    exact utf8EncodeUnit_lt unit byte inside
  have small' : ∀ octet ∈ (utf8Encode e).map UInt16.toNat, octet < 256 := by simpa using small
  rw [decode, encode, encodeFrom_eq small, filter_isKey (sextets_coded small'), decodeFrom_eq (sextets_coded small'),
    octets_sextets small', List.map_map]
  have same : fromCharCode ∘ UInt16.toNat = id := funext fromCharCode_toNat
  rw [same, List.map_id, utf8Decode_utf8Encode]

/-! ## The fields -/

/-- The lines of a link's text. -/
def fields (item : Item) (page : Page) : List (Units × Units) :=
  [(units "id", item.guid.text), (units "inf", page.informerId.text), (units "token", item.token.text),
    (units "url", item.url.text), (units "rand", page.rand.text), (units "camp", item.campaignGuid.text),
    (units "t", units (toString page.t))]

/-- `name=value`. -/
def line (field : Units × Units) : Units := field.1 ++ 61 :: field.2

theorem intercalate_cons (separator : Units) (first second : Units) (rest : List Units) :
    separator.intercalate (first :: second :: rest) = first ++ separator ++ separator.intercalate (second :: rest) := by
  simp [List.intercalate]

theorem not_mem_intercalate {unit : UInt16} {separator : Units} {texts : List Units} (outside : unit ∉ separator)
    (free : ∀ text ∈ texts, unit ∉ text) : unit ∉ separator.intercalate texts := by
  induction texts with
  | nil => exact List.not_mem_nil
  | cons first rest ih =>
    obtain ⟨first_free, rest_free⟩ := List.forall_mem_cons.mp free
    cases rest with
    | nil => simpa [List.intercalate] using first_free
    | cons second rest =>
      rw [intercalate_cons, List.mem_append, List.mem_append, not_or, not_or]
      exact ⟨⟨first_free, outside⟩, ih rest_free⟩

/-- The text is the lines, each ended by a newline. -/
theorem linkText_eq (item : Item) (page : Page) :
    linkText item page = [10].intercalate ((fields item page).map line ++ [[]]) := by
  have newline : units "\n" = [10] := by decide +kernel
  have equals : units "id=" = units "id" ++ [61] ∧ units "inf=" = units "inf" ++ [61] ∧
      units "token=" = units "token" ++ [61] ∧ units "url=" = units "url" ++ [61] ∧
      units "rand=" = units "rand" ++ [61] ∧ units "camp=" = units "camp" ++ [61] ∧
      units "t=" = units "t" ++ [61] := by decide +kernel
  obtain ⟨id, inf, token, url, rand, camp, t⟩ := equals
  unfold linkText fields
  rw [newline, id, inf, token, url, rand, camp, t]
  generalize units "id" = id
  generalize units "inf" = inf
  generalize units "token" = token
  generalize units "url" = url
  generalize units "rand" = rand
  generalize units "camp" = camp
  generalize units "t" = t
  simp only [line, List.map_cons, List.map_nil, List.cons_append, List.nil_append, intercalate_cons, List.append_assoc]
  rfl

/-- A number is written with digits and perhaps a minus sign. -/
theorem number_units (n : Int) : ∀ unit ∈ units (toString n), 45 ≤ unit.toNat ∧ unit.toNat ≤ 57 := by
  have digits : ∀ m : Nat, ∀ unit ∈ units m.repr, 45 ≤ unit.toNat ∧ unit.toNat ≤ 57 := by
    intro m unit member
    obtain ⟨c, inside, rfl⟩ := List.mem_map.mp member
    rw [Nat.toList_repr] at inside
    have digit := Nat.isDigit_of_mem_toDigits (by decide) (by decide) inside
    simp only [Char.isDigit, Bool.and_eq_true, decide_eq_true_eq, UInt32.le_iff_toNat_le] at digit
    have low : 48 ≤ c.toNat := digit.1
    have high : c.toNat ≤ 57 := digit.2
    rw [UInt16.toNat_ofNat', Nat.mod_eq_of_lt (by omega)]
    omega
  rw [Int.toString_eq_repr, Int.repr_eq_if]
  split
  · exact digits _
  · intro unit member
    rw [units, String.toList_append, List.map_append, List.mem_append] at member
    rcases member with minus | digit
    · obtain rfl : unit = 45 := by simpa using minus
      decide
    · exact digits _ unit digit

/-- No line has a carriage return or a newline in it, and no name an equals sign. -/
theorem fields_oneLine (item : Item) (page : Page) :
    ∀ field ∈ fields item page, (10 ∉ line field ∧ 13 ∉ line field) ∧ 61 ∉ field.1 := by
  have names : ([units "id", units "inf", units "token", units "url", units "rand", units "camp", units "t"].all
      fun name => 10 ∉ name ∧ 13 ∉ name ∧ 61 ∉ name) = true := by decide +kernel
  have number : 10 ∉ units (toString page.t) ∧ 13 ∉ units (toString page.t) := by
    constructor <;> intro member <;> exact absurd (number_units _ _ member).1 (by decide)
  simp only [List.all_cons, List.all_nil, Bool.and_true, Bool.and_eq_true, decide_eq_true_eq] at names
  obtain ⟨id, inf, token, url, rand, camp, t⟩ := names
  have joined : ∀ {name value : Units}, 10 ∉ name ∧ 13 ∉ name ∧ 61 ∉ name → 10 ∉ value ∧ 13 ∉ value →
      (10 ∉ line (name, value) ∧ 13 ∉ line (name, value)) ∧ 61 ∉ name := by
    intro name value name_free value_free
    simp only [line, List.mem_append, List.mem_cons, not_or]
    exact ⟨⟨⟨name_free.1, by decide, value_free.1⟩, name_free.2.1, by decide, value_free.2⟩, name_free.2.2⟩
  unfold fields
  simp only [List.forall_mem_cons]
  exact ⟨joined id item.guid.oneLine, joined inf page.informerId.oneLine, joined token item.token.oneLine,
    joined url item.url.oneLine, joined rand page.rand.oneLine, joined camp item.campaignGuid.oneLine,
    joined t number, by simp⟩

theorem cutAtEquals?_line {field : Units × Units} (named : 61 ∉ field.1) :
    cutAtEquals? (line field) = some field := by
  have passes : ∀ unit ∈ field.1, (unit != 61) = true := by
    intro unit member
    exact bne_iff_ne.mpr (ne_of_mem_of_not_mem member named)
  rw [cutAtEquals?, if_pos (by simp [line]), line, List.takeWhile_append_of_pos passes,
    List.dropWhile_append_of_pos passes]
  simp

/-- Lines that are joined are read back, each as the field it names. -/
theorem fieldsOf_lines {named : List (Units × Units)}
    (oneLine : ∀ field ∈ named, (10 ∉ line field ∧ 13 ∉ line field) ∧ 61 ∉ field.1) :
    fieldsOf ([10].intercalate (named.map line ++ [[]])) = named := by
  have lines : ∀ text ∈ named.map line ++ [[]], 10 ∉ text := by
    intro text member
    rcases List.mem_append.mp member with in_lines | last
    · obtain ⟨field, inside, rfl⟩ := List.mem_map.mp in_lines
      exact (oneLine field inside).1.1
    · rw [List.mem_singleton.mp last]
      exact List.not_mem_nil
  rw [fieldsOf, List.splitOn_intercalate 10 lines (by simp), List.filterMap_append, List.filterMap_map]
  have each : named.filterMap (cutAtEquals? ∘ line) = named := by
    rw [List.filterMap_congr (g := some)]
    · exact List.filterMap_some
    · intro field member
      exact cutAtEquals?_line (oneLine field member).2
  rw [each]
  exact List.append_nil _

/-- **A click names what was put into its link.** Whatever the texts of the offer
and of the page, the part of the link behind `/click?` decodes to their fields. -/
theorem decode_link (item : Item) (page : Page) :
    fieldsOf (decode (query (link item page))) = fields item page := by
  have oneLine := fields_oneLine item page
  have noReturn : 13 ∉ linkText item page := by
    rw [linkText_eq]
    apply not_mem_intercalate (by decide)
    intro text member
    rcases List.mem_append.mp member with in_lines | last
    · obtain ⟨field, inside, rfl⟩ := List.mem_map.mp in_lines
      exact (oneLine field inside).1.2
    · rw [List.mem_singleton.mp last]
      exact List.not_mem_nil
  rw [link, query, List.drop_left, decode_encode, replaceCrLf_of_absent noReturn, linkText_eq, fieldsOf_lines oneLine]

end WorkerInformer.ClickLink
