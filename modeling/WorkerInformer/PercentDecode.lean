import WorkerInformer.UrlParser

/-! `UrlParser::percent_decode` on text that is not well formed. The decoder
gives up an escape together with the byte that spoils it, and what the text ends
in the middle of is never written; a decoder that reads from the left byte by
byte does neither. -/
namespace WorkerInformer.UrlParser
open Bytes

/-- The byte two hexadecimal digits denote. -/
def hexByte (high low : UInt8) : UInt8 := (hexDigitToInt high <<< 4) ||| hexDigitToInt low

/-- The text goes on with two hexadecimal digits. -/
def startsHex : Bytes → Bool
  | high :: low :: _ => isHexDigit high && isHexDigit low
  | _ => false

/-- Decoding from the left: a percent sign before two hexadecimal digits is
written with them as one byte, every other byte as it is. -/
def decodeReference : Bytes → Bytes
  | [] => []
  | 37 :: high :: low :: rest =>
    if isHexDigit high && isHexDigit low then hexByte high low :: decodeReference rest
    else 37 :: decodeReference (high :: low :: rest)
  | c :: rest => c :: decodeReference rest

/-- The text as `percent_decode` takes it apart: bytes, escapes, and escapes it
gives up because of a byte `c`. It ends where such a piece ends, and where `c` is
a percent sign it would not have begun an escape. -/
inductive Aligned : Bytes → Prop
  | nil : Aligned []
  | plain {c : UInt8} {rest : Bytes} (plain : c ≠ 37) (aligned : Aligned rest) : Aligned (c :: rest)
  | escape {high low : UInt8} {rest : Bytes} (highHex : isHexDigit high) (lowHex : isHexDigit low)
    (aligned : Aligned rest) : Aligned (37 :: high :: low :: rest)
  | noDigit {c : UInt8} {rest : Bytes} (notHex : ¬ isHexDigit c) (spent : c = 37 → ¬ startsHex rest)
    (aligned : Aligned rest) : Aligned (37 :: c :: rest)
  | oneDigit {high c : UInt8} {rest : Bytes} (highHex : isHexDigit high) (notHex : ¬ isHexDigit c)
    (spent : c = 37 → ¬ startsHex rest) (aligned : Aligned rest) : Aligned (37 :: high :: c :: rest)

/-! ## What the decoder does with each piece -/

theorem percentDecode_plain {c : UInt8} (plain : c ≠ 37) (rest : Bytes) :
    percentDecode (c :: rest) = c :: percentDecode rest := by
  rw [percentDecode, decodeFrom, if_pos plain, percentDecode]

theorem percentDecode_escape {high low : UInt8} (highHex : isHexDigit high) (lowHex : isHexDigit low)
    (rest : Bytes) : percentDecode (37 :: high :: low :: rest) = hexByte high low :: percentDecode rest := by
  simp [percentDecode, decodeFrom, highHex, lowHex, hexByte]

theorem percentDecode_noDigit {c : UInt8} (notHex : ¬ isHexDigit c) (rest : Bytes) :
    percentDecode (37 :: c :: rest) = 37 :: c :: percentDecode rest := by
  simp [percentDecode, decodeFrom, notHex]

theorem percentDecode_oneDigit {high c : UInt8} (highHex : isHexDigit high) (notHex : ¬ isHexDigit c)
    (rest : Bytes) : percentDecode (37 :: high :: c :: rest) = 37 :: high :: c :: percentDecode rest := by
  simp [percentDecode, decodeFrom, highHex, notHex]

/-! ## What the reference does with it -/

theorem decodeReference_escape {high low : UInt8} (highHex : isHexDigit high) (lowHex : isHexDigit low)
    (rest : Bytes) : decodeReference (37 :: high :: low :: rest) = hexByte high low :: decodeReference rest := by
  simp [decodeReference, highHex, lowHex]

/-- A byte that begins no escape is written as it is. -/
theorem decodeReference_byte {c : UInt8} {rest : Bytes} (spent : c = 37 → ¬ startsHex rest) :
    decodeReference (c :: rest) = c :: decodeReference rest := by
  by_cases percent : c = 37
  · subst percent
    match rest, spent rfl with
    | [], _ => rfl
    | [_], _ => rfl
    | high :: low :: rest, spent => exact if_neg spent
  · rw [decodeReference]
    rintro high low rest' rfl
    exact absurd rfl percent

theorem isHexDigit_ne_percent {c : UInt8} (hex : isHexDigit c) : c ≠ 37 := by
  rintro rfl
  exact absurd hex (by decide)

theorem decodeReference_noDigit {c : UInt8} (notHex : ¬ isHexDigit c) (rest : Bytes) :
    decodeReference (37 :: c :: rest) = 37 :: decodeReference (c :: rest) := by
  apply decodeReference_byte
  intro _
  cases rest with
  | nil => simp [startsHex]
  | cons _ _ => simp [startsHex, notHex]

theorem decodeReference_oneDigit {high c : UInt8} (highHex : isHexDigit high) (notHex : ¬ isHexDigit c)
    (rest : Bytes) : decodeReference (37 :: high :: c :: rest) = 37 :: high :: decodeReference (c :: rest) := by
  rw [decodeReference_byte (by simp [startsHex, notHex]),
    decodeReference_byte fun percent => absurd percent (isHexDigit_ne_percent highHex)]

/-! ## Where the two agree -/

/-- The decoder does not fall behind the reference by two bytes that a text has
left over. -/
theorem decodeReference_ne_ahead {x y : UInt8} (plainX : x ≠ 37) (plainY : y ≠ 37) (text : Bytes) :
    decodeReference text ≠ x :: y :: percentDecode text := by
  induction h : text.length using Nat.strong_induction_on generalizing x y text with
  | _ length ih =>
  subst h
  intro same
  match text with
  | [] => cases same
  | c :: rest =>
    by_cases escapes : c = 37 ∧ startsHex rest
    · obtain ⟨rfl, hex⟩ := escapes
      match rest, hex with
      | high :: low :: rest, hex =>
        obtain ⟨highHex, lowHex⟩ := (Bool.and_eq_true _ _).mp hex
        rw [decodeReference_escape highHex lowHex, percentDecode_escape highHex lowHex] at same
        obtain ⟨rfl, later⟩ := List.cons.inj same
        exact ih rest.length (by simp; omega) plainY plainX rest rfl later
    · rw [decodeReference_byte (not_and.mp escapes)] at same
      obtain ⟨rfl, later⟩ := List.cons.inj same
      rw [percentDecode_plain plainX] at later
      exact ih rest.length (by simp) plainY plainX rest rfl later

/-- Behind a byte that spoiled an escape the two go on alike exactly when that
byte begins none itself. -/
theorem decode_spoiled_iff {c : UInt8} (rest : Bytes)
    (aligned : percentDecode rest = decodeReference rest ↔ Aligned rest) :
    c :: percentDecode rest = decodeReference (c :: rest) ↔ (c = 37 → ¬ startsHex rest) ∧ Aligned rest := by
  by_cases escapes : c = 37 ∧ startsHex rest
  · obtain ⟨rfl, hex⟩ := escapes
    refine iff_of_false (fun same => ?_) (fun both => both.1 rfl hex)
    match rest, hex with
    | high :: low :: rest, hex =>
      obtain ⟨highHex, lowHex⟩ := (Bool.and_eq_true _ _).mp hex
      have plainHigh := isHexDigit_ne_percent highHex
      have plainLow := isHexDigit_ne_percent lowHex
      rw [percentDecode_plain plainHigh, percentDecode_plain plainLow, decodeReference_escape highHex lowHex] at same
      exact decodeReference_ne_ahead plainHigh plainLow rest (List.cons.inj same).2.symm
  · have spent := not_and.mp escapes
    rw [decodeReference_byte spent, List.cons.injEq, eq_self, true_and, aligned]
    exact ⟨fun later => ⟨spent, later⟩, And.right⟩

/-! The piece a text begins with is determined by its first bytes. -/

theorem aligned_plain_iff {c : UInt8} {rest : Bytes} (plain : c ≠ 37) : Aligned (c :: rest) ↔ Aligned rest := by
  refine ⟨fun aligned => ?_, .plain plain⟩
  cases aligned with
  | plain _ aligned => exact aligned
  | escape | noDigit | oneDigit => exact absurd rfl plain

theorem aligned_escape_iff {high low : UInt8} {rest : Bytes} (highHex : isHexDigit high) (lowHex : isHexDigit low) :
    Aligned (37 :: high :: low :: rest) ↔ Aligned rest := by
  refine ⟨fun aligned => ?_, .escape highHex lowHex⟩
  cases aligned with
  | plain plain => exact absurd rfl plain
  | escape _ _ aligned => exact aligned
  | noDigit notHex => exact absurd highHex notHex
  | oneDigit _ notHex => exact absurd lowHex notHex

theorem aligned_noDigit_iff {c : UInt8} {rest : Bytes} (notHex : ¬ isHexDigit c) :
    Aligned (37 :: c :: rest) ↔ (c = 37 → ¬ startsHex rest) ∧ Aligned rest := by
  refine ⟨fun aligned => ?_, fun both => .noDigit notHex both.1 both.2⟩
  cases aligned with
  | plain plain => exact absurd rfl plain
  | noDigit _ spent aligned => exact ⟨spent, aligned⟩
  | escape highHex | oneDigit highHex => exact absurd highHex notHex

theorem aligned_oneDigit_iff {high c : UInt8} {rest : Bytes} (highHex : isHexDigit high) (notHex : ¬ isHexDigit c) :
    Aligned (37 :: high :: c :: rest) ↔ (c = 37 → ¬ startsHex rest) ∧ Aligned rest := by
  refine ⟨fun aligned => ?_, fun both => .oneDigit highHex notHex both.1 both.2⟩
  cases aligned with
  | plain plain => exact absurd rfl plain
  | escape _ lowHex => exact absurd lowHex notHex
  | noDigit notDigit => exact absurd highHex notDigit
  | oneDigit _ _ spent aligned => exact ⟨spent, aligned⟩

/-- Nothing is aligned that ends after one digit of an escape. -/
theorem not_aligned_cut {high : UInt8} (highHex : isHexDigit high) : ¬ Aligned [37, high] := by
  intro aligned
  cases aligned with
  | plain plain => exact absurd rfl plain
  | noDigit notHex => exact absurd highHex notHex

/-- **When `percent_decode` is the decoding from the left.** Exactly when the
text is aligned: no escape is cut off at its end, and none is begun by the byte
that spoils another. -/
theorem percentDecode_eq_reference_iff (str : Bytes) : percentDecode str = decodeReference str ↔ Aligned str := by
  induction length : str.length using Nat.strong_induction_on generalizing str with
  | _ length ih =>
  subst length
  match str with
  | [] => exact iff_of_true rfl .nil
  | c :: rest =>
    by_cases percent : c = 37
    · subst percent
      match rest with
      | [] => exact iff_of_false (by decide) fun aligned => by cases aligned with | plain plain => exact plain rfl
      | c :: rest =>
        by_cases hex : isHexDigit c
        · match rest with
          | [] =>
            refine iff_of_false (fun same => ?_) (not_aligned_cut hex)
            simp [percentDecode, decodeFrom, decodeReference, hex] at same
          | low :: rest =>
            have later := ih rest.length (by simp only [List.length_cons]; omega) rest rfl
            by_cases lowHex : isHexDigit low
            · rw [percentDecode_escape hex lowHex, decodeReference_escape hex lowHex, aligned_escape_iff hex lowHex,
                ← later, List.cons_inj_right]
            · rw [percentDecode_oneDigit hex lowHex, decodeReference_oneDigit hex lowHex,
                aligned_oneDigit_iff hex lowHex, ← decode_spoiled_iff rest later, List.cons_inj_right,
                List.cons_inj_right]
        · have later := ih rest.length (by simp only [List.length_cons]; omega) rest rfl
          rw [percentDecode_noDigit hex, decodeReference_noDigit hex, aligned_noDigit_iff hex,
            ← decode_spoiled_iff rest later, List.cons_inj_right]
    · have later := ih rest.length (by simp) rest rfl
      rw [percentDecode_plain percent, decodeReference_byte fun same => absurd same percent,
        aligned_plain_iff percent, ← later, List.cons_inj_right]

/-- The second percent sign is given up with the first, and the escape it begins
stays as it is: `%%41` instead of `%A`. -/
theorem spoiled_escape_undecoded : percentDecode (bytes "%%41") ≠ decodeReference (bytes "%%41") := by
  decide +kernel

end WorkerInformer.UrlParser
