import WorkerInformer.Json

/-! A reader of JSON texts, for objects whose members are texts, truth values
and integers: white space between the tokens, all escapes, surrogate pairs. What
`dump` writes it reads back as it was, whatever bytes the texts hold, and it
stops where the object ends: a text cannot reach beyond the quotes it is put
into, nor be taken for another member. -/
namespace WorkerInformer.JsonReader
open Bytes Json

def skipSpace (text : Bytes) : Bytes := text.dropWhile fun b => b = 32 || b = 9 || b = 10 || b = 13

/-! ## Texts -/

def hexValue? (b : UInt8) : Option Nat :=
  if isDigit b then some (b.toNat - 48)
  else if 97 ≤ b ∧ b ≤ 102 then some (b.toNat - 87)
  else if 65 ≤ b ∧ b ≤ 70 then some (b.toNat - 55)
  else none

/-- Four hexadecimal digits. -/
def readHex : Bytes → Option (Nat × Bytes)
  | a :: b :: c :: d :: rest =>
    match hexValue? a, hexValue? b, hexValue? c, hexValue? d with
    | some a, some b, some c, some d => some (((a * 16 + b) * 16 + c) * 16 + d, rest)
    | _, _, _, _ => none
  | _ => none

/-- The bytes of a code point. -/
def utf8 (code : Nat) : Bytes :=
  if code < 0x80 then [UInt8.ofNat code]
  else if code < 0x800 then [UInt8.ofNat (0xC0 + code / 64), UInt8.ofNat (0x80 + code % 64)]
  else if code < 0x10000 then
    [UInt8.ofNat (0xE0 + code / 4096), UInt8.ofNat (0x80 + code / 64 % 64), UInt8.ofNat (0x80 + code % 64)]
  else
    [UInt8.ofNat (0xF0 + code / 262144), UInt8.ofNat (0x80 + code / 4096 % 64), UInt8.ofNat (0x80 + code / 64 % 64),
      UInt8.ofNat (0x80 + code % 64)]

/-- The four digits of an escape, and a second escape behind a high surrogate. -/
def readCode (text : Bytes) : Option (Bytes × Bytes) :=
  match readHex text with
  | none => none
  | some (code, rest) =>
    if code < 0xD800 ∨ 0xE000 ≤ code then some (utf8 code, rest)
    else
      match rest with
      | 92 :: 117 :: rest =>
        match readHex rest with
        | none => none
        | some (low, rest) =>
          if code < 0xDC00 ∧ 0xDC00 ≤ low ∧ low < 0xE000 then
            some (utf8 (0x10000 + (code - 0xD800) * 1024 + (low - 0xDC00)), rest)
          else none
      | _ => none

/-- What a character means behind a backslash. -/
def simpleEscapes : List (UInt8 × UInt8) :=
  [(34, 34), (92, 92), (47, 47), (98, 8), (102, 12), (110, 10), (114, 13), (116, 9)]

/-- What stands behind a backslash. -/
def readEscape : Bytes → Option (Bytes × Bytes)
  | [] => none
  | b :: rest => if b = 117 then readCode rest else (simpleEscapes.lookup b).map fun c => ([c], rest)

/-- One character of a text, or an escape. -/
def readUnit : Bytes → Option (Bytes × Bytes)
  | [] => none
  | b :: rest => if b = 92 then readEscape rest else if b < 32 then none else some ([b], rest)

/-- A text up to its closing quote, of no more units than this. -/
def readUnits : Nat → Bytes → Option (Bytes × Bytes)
  | 0, _ => none
  | fuel + 1, text =>
    if text.head? = some 34 then some ([], text.tail)
    else (readUnit text).bind fun (unit, rest) =>
      (readUnits fuel rest).map fun (more, rest) => (unit ++ more, rest)

/-- A text with its quotes. -/
def readString : Bytes → Option (Bytes × Bytes)
  | [] => none
  | b :: rest => if b = 34 then readUnits rest.length rest else none

/-! ## Objects -/

/-- Digits without leading zeros and without a fraction or an exponent. -/
def readNatural (text : Bytes) : Option (Nat × Bytes) :=
  let digits := text.takeWhile isDigit
  let rest := text.dropWhile isDigit
  if digits = [] ∨ (digits.head? = some 48 ∧ digits ≠ [48]) then none
  else if rest.head? = some 46 ∨ rest.head? = some 101 ∨ rest.head? = some 69 then none
  else some (Bytes.value digits, rest)

def readInt : Bytes → Option (Int × Bytes)
  | [] => none
  | b :: rest =>
    if b = 45 then (readNatural rest).map fun (n, rest) => (-n, rest)
    else (readNatural (b :: rest)).map fun (n, rest) => (n, rest)

/-- The rest behind a word. -/
def readWord (word : String) (text : Bytes) : Option Bytes :=
  if (bytes word).isPrefixOf text then some (text.drop (bytes word).length) else none

def readScalar (text : Bytes) : Option (Scalar × Bytes) :=
  match text.head? with
  | some 34 => (readString text).map fun (value, rest) => (.string value, rest)
  | some 116 => (readWord "true" text).map fun rest => (.boolean true, rest)
  | some 102 => (readWord "false" text).map fun rest => (.boolean false, rest)
  | _ => (readInt text).map fun (value, rest) => (.number value, rest)

def readMember (text : Bytes) : Option ((Bytes × Scalar) × Bytes) :=
  (readString text).bind fun (key, rest) =>
    match skipSpace rest with
    | 58 :: rest => (readScalar (skipSpace rest)).map fun (value, rest) => ((key, value), rest)
    | _ => none

/-- Members up to the closing brace, no more than this. -/
def readMembers : Nat → Bytes → Option (Object × Bytes)
  | 0, _ => none
  | fuel + 1, text =>
    (readMember text).bind fun (e, rest) =>
      match skipSpace rest with
      | 44 :: rest => (readMembers fuel (skipSpace rest)).map fun (more, rest) => (e :: more, rest)
      | 125 :: rest => some ([e], rest)
      | _ => none

/-- The object a text begins with, and the rest. -/
def read (text : Bytes) : Option (Object × Bytes) :=
  match skipSpace text with
  | 123 :: rest =>
    match skipSpace rest with
    | 125 :: rest => some ([], rest)
    | rest => readMembers rest.length rest
  | _ => none

/-! ## Reading what was written -/

theorem hexDigits (c : UInt8) (control : c ≤ 31) :
    hexValue? (hexify (c >>> 4)) = some (c.toNat / 16) ∧ hexValue? (hexify (c &&& 15)) = some (c.toNat % 16) := by
  revert control c
  exact forall_byte (by decide +kernel)

theorem utf8_control (c : UInt8) (control : c ≤ 31) : utf8 c.toNat = [c] := by
  revert control c
  exact forall_byte (by decide +kernel)

/-- A control character is written with two of four digits. -/
theorem readCode_control {c : UInt8} (control : c ≤ 31) (rest : Bytes) :
    readCode (48 :: 48 :: hexify (c >>> 4) :: hexify (c &&& 15) :: rest) = some ([c], rest) := by
  obtain ⟨high, low⟩ := hexDigits c control
  have zero : hexValue? 48 = some 0 := rfl
  have code : ((0 * 16 + 0) * 16 + c.toNat / 16) * 16 + c.toNat % 16 = c.toNat := by omega
  have small : c.toNat < 0xD800 := by
    have bound := UInt8.toNat_lt c
    omega
  simp only [readCode, readHex, zero, high, low, code, small, true_or, ↓reduceIte, utf8_control c control]

theorem readUnit_simple {letter c : UInt8} (means : simpleEscapes.lookup letter = some c) (other : letter ≠ 117)
    (rest : Bytes) : readUnit (92 :: letter :: rest) = some ([c], rest) := by
  simp [readUnit, readEscape, other, means]

/-- An escaped byte is read as the byte. -/
theorem readUnit_escapeByte (c : UInt8) (rest : Bytes) : readUnit (escapeByte c ++ rest) = some ([c], rest) := by
  by_cases is_quote : c = 34
  · subst is_quote
    exact @readUnit_simple 34 34 rfl (by decide) rest
  by_cases is_backslash : c = 92
  · subst is_backslash
    exact @readUnit_simple 92 92 rfl (by decide) rest
  by_cases is_backspace : c = 8
  · subst is_backspace
    exact @readUnit_simple 98 8 rfl (by decide) rest
  by_cases is_formFeed : c = 12
  · subst is_formFeed
    exact @readUnit_simple 102 12 rfl (by decide) rest
  by_cases is_lineFeed : c = 10
  · subst is_lineFeed
    exact @readUnit_simple 110 10 rfl (by decide) rest
  by_cases is_return : c = 13
  · subst is_return
    exact @readUnit_simple 114 13 rfl (by decide) rest
  by_cases is_tab : c = 9
  · subst is_tab
    exact @readUnit_simple 116 9 rfl (by decide) rest
  by_cases control : c ≤ 31
  · have escaped : escapeByte c = 92 :: 117 :: 48 :: 48 :: [hexify (c >>> 4), hexify (c &&& 15)] := by
      simp only [escapeByte, is_quote, is_backslash, is_backspace, is_formFeed, is_lineFeed, is_return, is_tab, control,
        ↓reduceIte]
      rfl
    rw [escaped]
    exact readCode_control control rest
  · have plain : escapeByte c = [c] := by
      simp only [escapeByte, is_quote, is_backslash, is_backspace, is_formFeed, is_lineFeed, is_return, is_tab, control,
        ↓reduceIte]
    have printable : ¬ c < 32 := by
      rw [UInt8.le_iff_toNat_le] at control
      rw [UInt8.lt_iff_toNat_lt]
      simp at control ⊢
      omega
    simp only [plain, List.singleton_append, readUnit, is_backslash, printable, ↓reduceIte]

/-- It begins with no quote. -/
theorem head?_escapeByte (c : UInt8) (rest : Bytes) : (escapeByte c ++ rest).head? ≠ some 34 := by
  have first : ∃ b, (escapeByte c).head? = some b ∧ b ≠ 34 := by
    have all : (escapeByte c).head?.any (· ≠ 34) = true := by
      revert c
      exact forall_byte (by decide +kernel)
    simpa [Option.any_eq_true] using all
  obtain ⟨b, is_head, other⟩ := first
  rw [List.head?_append, is_head, Option.some_or]
  exact fun same => other (Option.some.inj same)

/-- A text is read up to its closing quote. -/
theorem readUnits_escapeString {fuel : Nat} (text rest : Bytes) (enough : text.length < fuel) :
    readUnits fuel (escapeString text ++ 34 :: rest) = some (text, rest) := by
  induction text generalizing fuel with
  | nil =>
    obtain ⟨more, rfl⟩ := Nat.exists_eq_succ_of_ne_zero (Nat.ne_of_gt enough)
    rfl
  | cons c text ih =>
    obtain ⟨more, rfl⟩ := Nat.exists_eq_succ_of_ne_zero (Nat.ne_of_gt (Nat.zero_lt_of_lt enough))
    have steps : escapeString (c :: text) ++ 34 :: rest = escapeByte c ++ (escapeString text ++ 34 :: rest) := by
      simp [escapeString]
    have later := ih (Nat.lt_of_succ_lt_succ enough)
    rw [steps, readUnits, if_neg (head?_escapeByte c _), readUnit_escapeByte, Option.bind_some]
    simp only [later, Option.map_some, List.singleton_append]

theorem length_escapeString (text : Bytes) : text.length ≤ (escapeString text).length := by
  induction text with
  | nil => exact Nat.le_refl 0
  | cons c text ih =>
    have one : 1 ≤ (escapeByte c).length := by
      revert c
      exact forall_byte (by decide +kernel)
    simp only [escapeString, List.flatMap_cons, List.length_append, List.length_cons] at ih ⊢
    omega

theorem readString_escapeString (text rest : Bytes) :
    readString (34 :: escapeString text ++ 34 :: rest) = some (text, rest) := by
  have enough : text.length < (escapeString text ++ 34 :: rest).length := by
    have long := length_escapeString text
    simp only [List.length_append, List.length_cons]
    omega
  exact readUnits_escapeString text rest enough

/-- The text goes on with a comma or ends with a brace. -/
def Delimited (rest : Bytes) : Prop := rest.head? = some 44 ∨ rest.head? = some 125

theorem digitsFrom_head {fuel n : Nat} (positive : 0 < n) (enough : n < fuel) : (digitsFrom fuel n).head? ≠ some 48 := by
  induction fuel generalizing n with
  | zero => omega
  | succ fuel ih =>
    rw [digitsFrom]
    split
    · rename_i small
      interval_cases n <;> decide
    · rename_i large
      have rest := ih (n := n / 10) (by omega) (by omega)
      cases digits : digitsFrom fuel (n / 10) with
      | nil =>
        have value := value_digitsFrom fuel (n / 10) (by omega)
        rw [digits] at value
        have zero : Bytes.value [] = 0 := rfl
        omega
      | cons first more =>
        rw [digits] at rest
        simpa using rest

theorem readNatural_decimal (n : Nat) {rest : Bytes} (delimited : Delimited rest) :
    readNatural (decimal n ++ rest) = some (n, rest) := by
  have stop : ∃ b more, rest = b :: more ∧ isDigit b = false ∧ b ≠ 46 ∧ b ≠ 101 ∧ b ≠ 69 := by
    rcases delimited with comma | brace
    · exact ⟨44, rest.tail, (List.eq_cons_of_mem_head? comma), by decide⟩
    · exact ⟨125, rest.tail, (List.eq_cons_of_mem_head? brace), by decide⟩
  obtain ⟨b, more, rfl, no_digit, no_point, no_e, no_E⟩ := stop
  have digits : (decimal n ++ b :: more).takeWhile isDigit = decimal n := takeWhile_refused (decimal_isDigit n) no_digit more
  have after : (decimal n ++ b :: more).dropWhile isDigit = b :: more := by
    rw [List.dropWhile_append_of_pos (decimal_isDigit n), List.dropWhile_cons_of_neg (by simp [no_digit])]
  have leading : ¬ ((decimal n).head? = some 48 ∧ decimal n ≠ [48]) := by
    rintro ⟨zero, longer⟩
    by_cases positive : 0 < n
    · exact digitsFrom_head positive (Nat.lt_succ_self n) zero
    · obtain rfl : n = 0 := by omega
      exact longer (by decide)
  simp only [readNatural, digits, after, decimal_ne_nil, leading, value_decimal, List.head?_cons, Option.some.injEq,
    no_point, no_e, no_E, or_self, ↓reduceIte]

theorem readInt_signed (i : Int) {rest : Bytes} (delimited : Delimited rest) :
    readInt (signed i ++ rest) = some (i, rest) := by
  have natural := readNatural_decimal i.natAbs delimited
  unfold signed
  split
  · rename_i negative
    simp only [List.cons_append, readInt, ↓reduceIte, natural, Option.map_some, Option.some.injEq, Prod.mk.injEq,
      and_true]
    omega
  · rename_i positive
    cases digits : decimal i.natAbs with
    | nil => exact absurd digits (decimal_ne_nil _)
    | cons b more =>
      have no_minus : b ≠ 45 := by
        rintro rfl
        have digit := decimal_isDigit i.natAbs 45 (by simp [digits])
        cases digit
      rw [digits] at natural
      simp only [List.cons_append] at natural
      simp only [List.cons_append, readInt, no_minus, ↓reduceIte, natural, Option.map_some, Option.some.injEq,
        Prod.mk.injEq, and_true]
      omega

def isBlank (b : UInt8) : Bool := b = 32 || b = 9 || b = 10 || b = 13

theorem skipSpace_of_head? {text : Bytes} {b : UInt8} (head : text.head? = some b) (other : isBlank b = false) :
    skipSpace text = text := by
  obtain ⟨rest, rfl⟩ : ∃ rest, text = b :: rest := ⟨text.tail, List.eq_cons_of_mem_head? head⟩
  exact List.dropWhile_cons_of_neg (by simpa [isBlank] using other)

/-- A number begins with a digit or a minus. -/
theorem head?_signed (i : Int) : ∃ b, (signed i).head? = some b ∧ (isDigit b = true ∨ b = 45) := by
  unfold signed
  split
  · exact ⟨45, rfl, Or.inr rfl⟩
  · cases digits : decimal i.natAbs with
    | nil => exact absurd digits (decimal_ne_nil _)
    | cons b more => exact ⟨b, rfl, Or.inl (decimal_isDigit i.natAbs b (by simp [digits]))⟩

theorem number_byte : ∀ b, isDigit b = true ∨ b = 45 → b ≠ 34 ∧ b ≠ 116 ∧ b ≠ 102 ∧ isBlank b = false :=
  forall_byte (by decide +kernel)

theorem readScalar_dump (value : Scalar) {rest : Bytes} (delimited : Delimited rest) :
    readScalar (value.dump ++ rest) = some (value, rest) := by
  cases value with
  | number i =>
    obtain ⟨b, first, digit⟩ := head?_signed i
    obtain ⟨no_quote, no_t, no_f, -⟩ := number_byte b digit
    have head : ((Scalar.number i).dump ++ rest).head? = some b := by
      rw [Scalar.dump, List.head?_append, first, Option.some_or]
    have read := readInt_signed i delimited
    unfold readScalar
    rw [head]
    split
    · exact absurd (Option.some.inj ‹_›) no_quote
    · exact absurd (Option.some.inj ‹_›) no_t
    · exact absurd (Option.some.inj ‹_›) no_f
    · rw [Scalar.dump, read]
      rfl
  | boolean b =>
    cases b with
    | true => rfl
    | false => rfl
  | string text =>
    have read := readString_escapeString text rest
    have is_text : (Scalar.string text).dump ++ rest = 34 :: escapeString text ++ 34 :: rest := by simp [Scalar.dump]
    rw [is_text]
    simp only [List.cons_append] at read ⊢
    simp only [readScalar, List.head?_cons, read, Option.map_some]

theorem skipSpace_dump (value : Scalar) (rest : Bytes) : skipSpace (value.dump ++ rest) = value.dump ++ rest := by
  have first : ∃ b, value.dump.head? = some b ∧ isBlank b = false := by
    cases value with
    | number i =>
      obtain ⟨b, first, digit⟩ := head?_signed i
      exact ⟨b, first, (number_byte b digit).2.2.2⟩
    | boolean b => cases b <;> exact ⟨_, rfl, rfl⟩
    | string text => exact ⟨34, rfl, rfl⟩
  obtain ⟨b, head, other⟩ := first
  apply skipSpace_of_head? _ other
  rw [List.head?_append, head, Option.some_or]

theorem readMember_dumpMember (e : Bytes × Scalar) {rest : Bytes} (delimited : Delimited rest) :
    readMember (dumpMember e ++ rest) = some (e, rest) := by
  have is_member : dumpMember e ++ rest = 34 :: escapeString e.1 ++ 34 :: 58 :: (e.2.dump ++ rest) := by
    simp [dumpMember, show bytes "\":" = [34, 58] from rfl]
  rw [is_member, readMember, readString_escapeString, Option.bind_some]
  simp only [skipSpace_of_head? (show (58 :: (e.2.dump ++ rest)).head? = some 58 from rfl) rfl, skipSpace_dump,
    readScalar_dump e.2 delimited, Option.map_some]

theorem delimited_dumpRest (members : Object) (rest : Bytes) : Delimited (dumpRest members ++ 125 :: rest) := by
  cases members with
  | nil => exact Or.inr rfl
  | cons e members => exact Or.inl rfl

theorem readMembers_dump {fuel : Nat} (e : Bytes × Scalar) (members : Object) (rest : Bytes)
    (enough : members.length < fuel) :
    readMembers fuel (dumpMember e ++ (dumpRest members ++ 125 :: rest)) = some (e :: members, rest) := by
  induction members generalizing e fuel with
  | nil =>
    obtain ⟨more, rfl⟩ := Nat.exists_eq_succ_of_ne_zero (Nat.ne_of_gt enough)
    rw [readMembers, readMember_dumpMember e (delimited_dumpRest [] rest), Option.bind_some]
    rfl
  | cons next members ih =>
    obtain ⟨more, rfl⟩ := Nat.exists_eq_succ_of_ne_zero (Nat.ne_of_gt (Nat.zero_lt_of_lt enough))
    have later := ih next (Nat.lt_of_succ_lt_succ enough)
    have goes_on : dumpRest (next :: members) ++ 125 :: rest =
        44 :: (dumpMember next ++ (dumpRest members ++ 125 :: rest)) := by simp [dumpRest]
    rw [readMembers, readMember_dumpMember e (delimited_dumpRest _ rest), Option.bind_some, goes_on]
    have no_space (text : Bytes) : skipSpace (44 :: text) = 44 :: text := rfl
    have opened : skipSpace (dumpMember next ++ (dumpRest members ++ 125 :: rest)) =
        dumpMember next ++ (dumpRest members ++ 125 :: rest) := rfl
    simp only [no_space, opened, later, Option.map_some]

theorem length_dumpRest (members : Object) : members.length ≤ (dumpRest members).length := by
  induction members with
  | nil => exact Nat.le_refl 0
  | cons e members ih =>
    simp only [dumpRest, List.flatMap_cons, List.length_append, List.length_cons] at ih ⊢
    omega

/-- **What is written is read**, and no byte behind the object: for every object
of texts of any bytes, numbers and truth values. -/
theorem read_dump (members : Object) (rest : Bytes) : read (dump members ++ rest) = some (members, rest) := by
  cases members with
  | nil => rfl
  | cons e members =>
    have is_object : dump (e :: members) ++ rest = 123 :: (dumpMember e ++ (dumpRest members ++ 125 :: rest)) := by
      simp [dump]
    have enough : members.length < (dumpMember e ++ (dumpRest members ++ 125 :: rest)).length := by
      have long := length_dumpRest members
      simp only [List.length_append, List.length_cons]
      omega
    rw [is_object]
    exact readMembers_dump e members rest enough

end WorkerInformer.JsonReader
