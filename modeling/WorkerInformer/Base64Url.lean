import WorkerInformer.Base64
import WorkerInformer.Bytes

/-! `src/base64.cpp`: Base64 over an alphabet with `-` and `_`. Both loops
collect a group in an array of fixed size and write it out when it is full; the
decoder fills the array of its last group up with zero bytes and looks these up
in the alphabet too. The sums of shifted bits are narrowed to `unsigned char`. -/
namespace WorkerInformer.Base64Url
open Bytes Base64

def base64Chars : Bytes := bytes "ABCDEFGHIJKLMNOPQRSTUVWXYZabcdefghijklmnopqrstuvwxyz0123456789-_"

/-- `isalnum` of the C locale. -/
def isalnum (c : UInt8) : Bool := (48 ≤ c && c ≤ 57) || (65 ≤ c && c ≤ 90) || (97 ≤ c && c ≤ 122)

def isBase64 (c : UInt8) : Bool := isalnum c || c == 45 || c == 95

/-- `base64_chars[index]`; the source never indexes behind the alphabet. -/
def charAt (index : UInt8) : UInt8 := base64Chars.getD index.toNat 61

/-- `base64_chars.find(c)` as an `unsigned char`, which `npos` becomes 255 in. -/
def find (c : UInt8) : UInt8 :=
  match base64Chars.idxOf? c with
  | some index => UInt8.ofNat index
  | none => 255

/-- `char_array_4` from `char_array_3`. -/
def charArray4 (a b c : UInt8) : Bytes :=
  [(a &&& 0xfc) >>> 2, ((a &&& 0x03) <<< 4) + ((b &&& 0xf0) >>> 4),
    ((b &&& 0x0f) <<< 2) + ((c &&& 0xc0) >>> 6), c &&& 0x3f]

/-- `char_array_3` from the indices in `char_array_4`. -/
def charArray3 (s o u a : UInt8) : Bytes :=
  [(s <<< 2) + ((o &&& 0x30) >>> 4), ((o &&& 0xf) <<< 4) + ((u &&& 0x3c) >>> 2), ((u &&& 0x3) <<< 6) + a]

/-- What follows the loop of `base64_encode`, with the first `i` bytes of
`char_array_3`. -/
def encodeTail : Bytes → Bytes
  | [a] => ((charArray4 a 0 0).take 2).map charAt ++ [61, 61]
  | [a, b] => ((charArray4 a b 0).take 3).map charAt ++ [61]
  | _ => []

/-- The loop of `base64_encode`. -/
def encodeFrom : Bytes → Bytes → Bytes
  | group, [] => encodeTail group
  | group, next :: rest =>
    match group ++ [next] with
    | [a, b, c] => (charArray4 a b c).map charAt ++ encodeFrom [] rest
    | group => encodeFrom group rest

/-- `base64_encode`, whose length is an `unsigned int`. -/
def base64Encode (s : Bytes) : Bytes := encodeFrom [] (s.take (s.length % 2 ^ 32))

/-- What follows the loop of `base64_decode`, with the first `i` bytes of
`char_array_4`: the missing ones are zero, and looked up like the others. -/
def decodeTail : Bytes → Bytes
  | [s] => (charArray3 (find s) (find 0) (find 0) (find 0)).take 0
  | [s, o] => (charArray3 (find s) (find o) (find 0) (find 0)).take 1
  | [s, o, u] => (charArray3 (find s) (find o) (find u) (find 0)).take 2
  | _ => []

/-- The loop of `base64_decode`; behind the end of a string stands a zero byte,
which is not in the alphabet. -/
def decodeFrom : Int → Bytes → Bytes → Bytes
  | _, group, [] => decodeTail group
  | inLen, group, next :: rest =>
    if inLen ≠ 0 ∧ next ≠ 61 ∧ isBase64 next then
      match group ++ [next] with
      | [s, o, u, a] => charArray3 (find s) (find o) (find u) (find a) ++ decodeFrom (inLen - 1) [] rest
      | group => decodeFrom (inLen - 1) group rest
    else decodeTail group

/-- `base64_decode`, whose length is an `int`. -/
def base64Decode (encoded : Bytes) : Bytes := decodeFrom (Int32.ofInt encoded.length).toInt [] encoded

/-- The length of the Base64 text of these bytes. -/
def encodedLength (s : Bytes) : Nat := 4 * ((s.length + 2) / 3)

/-- Letters, digits, `-` and `_`, at most two signs of padding, whole groups. -/
def UrlSafe (text : Bytes) : Prop :=
  4 ∣ text.length ∧ ∃ body padding, text = body ++ List.replicate padding 61 ∧ padding ≤ 2 ∧
    ∀ c ∈ body, isBase64 c = true

/-! ## The groups -/

theorem toNat_charArray4 (a b c : UInt8) :
    (charArray4 a b c).map UInt8.toNat =
      [a.toNat / 4, a.toNat % 4 * 16 + b.toNat / 16, b.toNat % 16 * 4 + c.toNat / 64, c.toNat % 64] := by
  have high2 : ∀ x : UInt8, ((x &&& 0xfc) >>> 2).toNat = x.toNat / 4 := forall_byte (by decide +kernel)
  have low2 : ∀ x : UInt8, ((x &&& 0x03) <<< 4).toNat = x.toNat % 4 * 16 := forall_byte (by decide +kernel)
  have high4 : ∀ x : UInt8, ((x &&& 0xf0) >>> 4).toNat = x.toNat / 16 := forall_byte (by decide +kernel)
  have low4 : ∀ x : UInt8, ((x &&& 0x0f) <<< 2).toNat = x.toNat % 16 * 4 := forall_byte (by decide +kernel)
  have high6 : ∀ x : UInt8, ((x &&& 0xc0) >>> 6).toNat = x.toNat / 64 := forall_byte (by decide +kernel)
  have low6 : ∀ x : UInt8, (x &&& 0x3f).toNat = x.toNat % 64 := forall_byte (by decide +kernel)
  have := b.toNat_lt
  have := c.toNat_lt
  simp only [charArray4, List.map_cons, List.map_nil, UInt8.toNat_add, high2, low2, high4, low4, high6, low6]
  have second : (a.toNat % 4 * 16 + b.toNat / 16) % 2 ^ 8 = a.toNat % 4 * 16 + b.toNat / 16 :=
    Nat.mod_eq_of_lt (by omega)
  have third : (b.toNat % 16 * 4 + c.toNat / 64) % 2 ^ 8 = b.toNat % 16 * 4 + c.toNat / 64 :=
    Nat.mod_eq_of_lt (by omega)
  rw [second, third]

theorem toNat_charArray3 (s o u a : UInt8) :
    (charArray3 s o u a).map UInt8.toNat =
      [s.toNat % 64 * 4 + o.toNat / 16 % 4, o.toNat % 16 * 16 + u.toNat / 4 % 16,
        (u.toNat % 4 * 64 + a.toNat) % 256] := by
  have low6 : ∀ x : UInt8, (x <<< 2).toNat = x.toNat % 64 * 4 := forall_byte (by decide +kernel)
  have middle2 : ∀ x : UInt8, ((x &&& 0x30) >>> 4).toNat = x.toNat / 16 % 4 := forall_byte (by decide +kernel)
  have low4 : ∀ x : UInt8, ((x &&& 0xf) <<< 4).toNat = x.toNat % 16 * 16 := forall_byte (by decide +kernel)
  have middle4 : ∀ x : UInt8, ((x &&& 0x3c) >>> 2).toNat = x.toNat / 4 % 16 := forall_byte (by decide +kernel)
  have low2 : ∀ x : UInt8, ((x &&& 0x3) <<< 6).toNat = x.toNat % 4 * 64 := forall_byte (by decide +kernel)
  simp only [charArray3, List.map_cons, List.map_nil, UInt8.toNat_add, low6, middle2, low4, middle4, low2]
  have first : (s.toNat % 64 * 4 + o.toNat / 16 % 4) % 2 ^ 8 = s.toNat % 64 * 4 + o.toNat / 16 % 4 :=
    Nat.mod_eq_of_lt (by omega)
  have second : (o.toNat % 16 * 16 + u.toNat / 4 % 16) % 2 ^ 8 = o.toNat % 16 * 16 + u.toNat / 4 % 16 :=
    Nat.mod_eq_of_lt (by omega)
  rw [first, second]

/-- Of sextets nothing is lost. -/
theorem toNat_charArray3_of_lt {s o u a : Nat} (s_small : s < 64) (o_small : o < 64) (u_small : u < 64)
    (a_small : a < 64) :
    (charArray3 (UInt8.ofNat s) (UInt8.ofNat o) (UInt8.ofNat u) (UInt8.ofNat a)).map UInt8.toNat =
      [s * 4 + o / 16, o % 16 * 16 + u / 4, u % 4 * 64 + a] := by
  rw [toNat_charArray3]
  simp only [UInt8.toNat_ofNat', Nat.mod_eq_of_lt (show s < 2 ^ 8 by omega), Nat.mod_eq_of_lt (show o < 2 ^ 8 by omega),
    Nat.mod_eq_of_lt (show u < 2 ^ 8 by omega), Nat.mod_eq_of_lt (show a < 2 ^ 8 by omega), List.cons.injEq, and_true]
  omega

theorem base64Chars_nodup : base64Chars.Nodup := by decide +kernel

theorem base64Chars_length : base64Chars.length = 64 := by decide +kernel

/-- The letters are what the decoder takes for letters, and padding is not one. -/
theorem base64Chars_isBase64 : base64Chars.all (fun c => isBase64 c && c != 61) = true := by decide +kernel

theorem find_letter {sextet : Nat} (small : sextet < 64) :
    find (letter base64Chars 61 (some sextet)) = UInt8.ofNat sextet := by
  rw [find, idxOf?_letter base64Chars_nodup (base64Chars_length ▸ small)]

theorem isBase64_letter {sextet : Nat} (small : sextet < 64) :
    isBase64 (letter base64Chars 61 (some sextet)) = true ∧ letter base64Chars 61 (some sextet) ≠ 61 := by
  have taken := List.all_eq_true.mp base64Chars_isBase64 _ (@letter_mem _ base64Chars 61 _ (base64Chars_length ▸ small))
  simpa using taken

/-! ## Encoding -/

/-- A group's four indices are the group's sextets. -/
theorem map_charAt_charArray4 (a b c : UInt8) :
    (charArray4 a b c).map charAt =
      [some (a.toNat / 4), some (a.toNat % 4 * 16 + b.toNat / 16), some (b.toNat % 16 * 4 + c.toNat / 64),
        some (c.toNat % 64)].map (letter base64Chars 61) := by
  have letters : charAt = letter base64Chars 61 ∘ some ∘ UInt8.toNat := rfl
  rw [letters, ← Function.comp_assoc, ← List.map_map, toNat_charArray4]
  rfl

/-- **The encoder writes the sextets of its bytes.** -/
theorem encodeFrom_eq (s : Bytes) :
    encodeFrom [] s = (sextets (s.map UInt8.toNat)).map (letter base64Chars 61) := by
  induction s using threes with
  | nil => rfl
  | one a =>
    simp only [encodeFrom, List.nil_append, encodeTail, List.map_take, map_charAt_charArray4]
    rfl
  | two a b =>
    simp only [encodeFrom, List.nil_append, List.cons_append, encodeTail, List.map_take, map_charAt_charArray4]
    rfl
  | group a b c rest ih =>
    simp only [encodeFrom, List.nil_append, List.cons_append, map_charAt_charArray4, ih]
    rfl

theorem toNat_lt_256 (s : Bytes) : ∀ octet ∈ s.map UInt8.toNat, octet < 256 := by
  simpa using fun b _ => UInt8.toNat_lt b

/-! ## Decoding -/

/-- A letter goes into the group, and a full group is written. -/
theorem decodeFrom_letter {inLen : Int} (more : inLen ≠ 0) (group rest : Bytes) {sextet : Nat} (small : sextet < 64) :
    decodeFrom inLen group (letter base64Chars 61 (some sextet) :: rest) =
      match group ++ [letter base64Chars 61 (some sextet)] with
      | [s, o, u, a] => charArray3 (find s) (find o) (find u) (find a) ++ decodeFrom (inLen - 1) [] rest
      | group => decodeFrom (inLen - 1) group rest := by
  obtain ⟨taken, not_pad⟩ := isBase64_letter small
  rw [decodeFrom, if_pos ⟨more, not_pad, taken⟩]

/-- Padding ends the loop, whatever the length says. -/
theorem decodeFrom_pad (inLen : Int) (group rest : Bytes) :
    decodeFrom inLen group (letter base64Chars 61 none :: rest) = decodeTail group := by
  rw [decodeFrom, if_neg]
  exact fun passes => passes.2.1 rfl

theorem decodeFrom_pair {inLen : Int} (more : 2 ≤ inLen) (rest : Bytes) {s o : Nat} (s_small : s < 64)
    (o_small : o < 64) :
    decodeFrom inLen [] (letter base64Chars 61 (some s) :: letter base64Chars 61 (some o) :: rest) =
      decodeFrom (inLen - 2) [letter base64Chars 61 (some s), letter base64Chars 61 (some o)] rest := by
  rw [decodeFrom_letter (by omega) _ _ s_small]
  simp only [List.nil_append]
  rw [decodeFrom_letter (by omega) _ _ o_small, Int.sub_sub]
  rfl

/-- Only bits of the letters reach the bytes that a tail keeps, so what the zero
bytes are looked up as does not matter. -/
theorem take_charArray3 {s o : Nat} (s_small : s < 64) (o_small : o < 64) (a : UInt8) :
    (∀ u, ((charArray3 (UInt8.ofNat s) (UInt8.ofNat o) u a).take 1).map UInt8.toNat = [s * 4 + o / 16]) ∧
      ∀ u < 64, ((charArray3 (UInt8.ofNat s) (UInt8.ofNat o) (UInt8.ofNat u) a).take 2).map UInt8.toNat =
        [s * 4 + o / 16, o % 16 * 16 + u / 4] := by
  have s_kept : s % 2 ^ 8 % 64 = s := by omega
  have o_kept : o % 2 ^ 8 / 16 % 4 = o / 16 ∧ o % 2 ^ 8 % 16 = o % 16 := by omega
  constructor
  · intro u
    rw [List.map_take, toNat_charArray3, UInt8.toNat_ofNat', UInt8.toNat_ofNat', s_kept, o_kept.1]
    rfl
  · intro u u_small
    have u_kept : u % 2 ^ 8 / 4 % 16 = u / 4 := by omega
    rw [List.map_take, toNat_charArray3, UInt8.toNat_ofNat', UInt8.toNat_ofNat', UInt8.toNat_ofNat', s_kept,
      o_kept.1, o_kept.2, u_kept]
    rfl

/-- **The decoder reads coded sextets back as octets**, with a count that is not
used up before the text ends. -/
theorem decodeFrom_eq {coded : List (Option Nat)} (isCoded : Coded coded) {inLen : Int}
    (enough : coded.length ≤ inLen) :
    (decodeFrom inLen [] (coded.map (letter base64Chars 61))).map UInt8.toNat = octets coded := by
  induction isCoded generalizing inLen with
  | nil => rfl
  | @one s o s_small o_small =>
    simp only [List.length_cons] at enough
    simp only [List.map_cons, octets]
    rw [decodeFrom_pair (by omega) _ s_small o_small, decodeFrom_pad, decodeTail, find_letter s_small,
      find_letter o_small]
    exact (take_charArray3 s_small o_small _).1 _
  | @two s o u s_small o_small u_small =>
    simp only [List.length_cons] at enough
    simp only [List.map_cons, octets]
    rw [decodeFrom_pair (by omega) _ s_small o_small, decodeFrom_letter (by omega) _ _ u_small]
    simp only [List.cons_append, List.nil_append]
    rw [decodeFrom_pad, decodeTail, find_letter s_small, find_letter o_small, find_letter u_small]
    exact (take_charArray3 s_small o_small _).2 u u_small
  | @group s o u a rest s_small o_small u_small a_small _ ih =>
    simp only [List.length_cons] at enough
    simp only [List.map_cons, octets]
    rw [decodeFrom_pair (by omega) _ s_small o_small, decodeFrom_letter (by omega) _ _ u_small]
    simp only [List.cons_append, List.nil_append]
    rw [decodeFrom_letter (by omega) _ _ a_small]
    simp only [List.cons_append, List.nil_append]
    rw [List.map_append, find_letter s_small, find_letter o_small, find_letter u_small, find_letter a_small,
      toNat_charArray3_of_lt s_small o_small u_small a_small, ih (by omega)]
    rfl

/-! ## The round trip -/

theorem length_lt_of_encodedLength {s : Bytes} (short : encodedLength s < 2 ^ 31) : s.length < 2 ^ 31 := by
  rw [encodedLength] at short
  omega

/-- Of a text that is not too long the `unsigned int` loses nothing. -/
theorem base64Encode_eq {s : Bytes} (short : encodedLength s < 2 ^ 31) :
    base64Encode s = (sextets (s.map UInt8.toNat)).map (letter base64Chars 61) := by
  have length := length_lt_of_encodedLength short
  rw [base64Encode, Nat.mod_eq_of_lt (by omega), List.take_length, encodeFrom_eq]

theorem length_base64Encode {s : Bytes} (short : encodedLength s < 2 ^ 31) :
    (base64Encode s).length = encodedLength s := by
  rw [base64Encode_eq short, List.length_map, length_sextets, List.length_map, encodedLength]

theorem urlSafe_letters {coded : List (Option Nat)} (isCoded : Coded coded) :
    UrlSafe (coded.map (letter base64Chars 61)) := by
  obtain ⟨whole, body, padding, rfl, few, small⟩ := isCoded.shape
  refine ⟨by simpa using whole, body.map fun sextet => letter base64Chars 61 (some sextet), padding, ?_, few, ?_⟩
  · rw [List.map_append, List.map_map, List.map_replicate]
    rfl
  · intro c member
    obtain ⟨sextet, inside, rfl⟩ := List.mem_map.mp member
    exact (isBase64_letter (small sextet inside)).1

/-- **Every byte string whose text is shorter than 2^31 comes back from its
text**, and the text is made of url-safe letters and padding. -/
theorem base64Decode_base64Encode {s : Bytes} (short : encodedLength s < 2 ^ 31) :
    base64Decode (base64Encode s) = s ∧ UrlSafe (base64Encode s) := by
  have isCoded : Coded (sextets (s.map UInt8.toNat)) := sextets_coded (toNat_lt_256 s)
  constructor
  · have inLen : (Int32.ofInt (base64Encode s).length).toInt = encodedLength s := by
      rw [length_base64Encode short]
      exact Int32.toInt_ofInt_of_le (by omega) (by omega)
    have length : ((sextets (s.map UInt8.toNat)).length : Int) ≤ encodedLength s := by
      rw [length_sextets, List.length_map, encodedLength]
    apply List.map_injective_iff.mpr (fun _ _ => UInt8.toNat_inj.mp)
    rw [base64Decode, inLen, base64Encode_eq short, decodeFrom_eq isCoded length, octets_sextets (toNat_lt_256 s)]
  · rw [base64Encode_eq short]
    exact urlSafe_letters isCoded

/-- Two bytes above 127, in the last group. -/
theorem base64Decode_tail :
    base64Decode (base64Encode [0, 16, 131, 255, 254]) = [0, 16, 131, 255, 254] ∧
      UrlSafe (base64Encode [0, 16, 131, 255, 254]) :=
  base64Decode_base64Encode (by decide)

end WorkerInformer.Base64Url
