import Mathlib.Data.List.Basic
import Mathlib.Data.List.TakeWhile
import Mathlib.Tactic.IntervalCases

/-! Byte strings as C and SQLite see them: lists of bytes, ASCII case folding,
C strings cut at their first NUL, and decimal numerals with the number they
denote. Nothing in this file is about one program. -/
namespace WorkerInformer

abbrev Bytes := List UInt8

instance : LawfulBEq Bytes := inferInstanceAs (LawfulBEq (List UInt8))

/-- The UTF-8 bytes of a text, for constants written out in the source. -/
def bytes (text : String) : Bytes := text.toByteArray.data.toList

namespace Bytes

/-- `tolower` of the C locale. -/
def toLower (b : UInt8) : UInt8 := if 65 ≤ b ∧ b ≤ 90 then b + 32 else b

/-- `isspace` of the C locale. -/
def isspace (b : UInt8) : Bool := b == 32 || (9 ≤ b && b ≤ 13)

/-- `boost::to_lower`. -/
def lower (text : Bytes) : Bytes := text.map toLower

def NulFree (text : Bytes) : Prop := 0 ∉ text

instance (text : Bytes) : Decidable (NulFree text) := inferInstanceAs (Decidable (0 ∉ text))

/-- What a reader of a C string sees of these bytes. -/
def cString (text : Bytes) : Bytes := text.takeWhile (· != 0)

/-- What stands before the first byte a test refuses. -/
theorem takeWhile_refused {test : UInt8 → Bool} {front : Bytes} (passes : ∀ c ∈ front, test c = true) {b : UInt8}
    (refused : test b = false) (rest : Bytes) : (front ++ b :: rest).takeWhile test = front := by
  rw [List.takeWhile_append_of_pos passes, List.takeWhile_cons_of_neg (by simp [refused]), List.append_nil]

theorem bne_of_absent {b : UInt8} {text : Bytes} (absent : b ∉ text) : ∀ c ∈ text, (c != b) = true :=
  fun _ member => bne_iff_ne.mpr (ne_of_mem_of_not_mem member absent)

theorem takeWhile_before {b : UInt8} {front : Bytes} (absent : b ∉ front) (rest : Bytes) :
    (front ++ b :: rest).takeWhile (· != b) = front :=
  takeWhile_refused (bne_of_absent absent) (bne_self_eq_false b) rest

theorem cString_of_nulFree {text : Bytes} (free : NulFree text) : cString text = text :=
  List.takeWhile_eq_self_iff.mpr (bne_of_absent free)

/-- A statement about bytes is one about the 256 numbers below `2 ^ 8`. -/
theorem forall_byte {holds : UInt8 → Prop} (all : ∀ n : Fin 256, holds (UInt8.ofNat n)) (b : UInt8) :
    holds b := by
  simpa using all ⟨b.toNat, b.toNat_lt⟩

theorem toLower_eq_zero (b : UInt8) : toLower b = 0 ↔ b = 0 := by
  revert b
  exact forall_byte (by decide +kernel)

theorem toLower_eq_quote (b : UInt8) : toLower b = 39 ↔ b = 39 := by
  revert b
  exact forall_byte (by decide +kernel)

theorem toLower_toLower (b : UInt8) : toLower (toLower b) = toLower b := by
  revert b
  exact forall_byte (by decide +kernel)

theorem lower_nulFree {text : Bytes} : NulFree (lower text) ↔ NulFree text := by
  simp [NulFree, lower, toLower_eq_zero]

theorem quote_mem_lower {text : Bytes} : 39 ∈ lower text ↔ 39 ∈ text := by
  simp [lower, toLower_eq_quote]

theorem lower_lower (text : Bytes) : lower (lower text) = lower text := by
  simp [lower, toLower_toLower]

/-! ## Decimal numerals -/

def isDigit (b : UInt8) : Bool := 48 ≤ b && b ≤ 57

/-- The digit of a number below ten. -/
def digit (n : Nat) : UInt8 := UInt8.ofNat (48 + n)

def digitValue (b : UInt8) : Nat := b.toNat - 48

/-- The number a digit string denotes, most significant digit first. -/
def value (digits : Bytes) : Nat := digits.foldl (fun n b => 10 * n + digitValue b) 0

/-- The last `fuel` digits at most of `n`. -/
def digitsFrom : Nat → Nat → Bytes
  | 0, _ => []
  | fuel + 1, n => if n < 10 then [digit n] else digitsFrom fuel (n / 10) ++ [digit (n % 10)]

/-- `%u` and the digits of `%d`: the decimal numeral without leading zeros. -/
def decimal (n : Nat) : Bytes := digitsFrom (n + 1) n

/-- `%d` and `%lld`. -/
def signed (i : Int) : Bytes :=
  if i < 0 then 45 :: decimal i.natAbs else decimal i.natAbs

theorem digit_isDigit {n : Nat} (small : n < 10) : isDigit (digit n) = true := by
  interval_cases n <;> decide

theorem digitValue_digit {n : Nat} (small : n < 10) : digitValue (digit n) = n := by
  interval_cases n <;> decide

theorem value_snoc (digits : Bytes) (b : UInt8) :
    value (digits ++ [b]) = 10 * value digits + digitValue b := by
  simp [value, List.foldl_append]

theorem value_digitsFrom (fuel n : Nat) (enough : n < fuel) : value (digitsFrom fuel n) = n := by
  induction fuel generalizing n with
  | zero => omega
  | succ fuel ih =>
    rw [digitsFrom]
    split
    · rename_i small
      simp [value, digitValue_digit small]
    · rename_i large
      rw [value_snoc, ih (n / 10) (by omega), digitValue_digit (Nat.mod_lt _ (by omega))]
      omega

theorem value_decimal (n : Nat) : value (decimal n) = n := value_digitsFrom (n + 1) n (by omega)

theorem digitsFrom_isDigit (fuel n : Nat) : ∀ b ∈ digitsFrom fuel n, isDigit b = true := by
  induction fuel generalizing n with
  | zero => simp [digitsFrom]
  | succ fuel ih =>
    intro b member
    rw [digitsFrom] at member
    split at member
    · rename_i small
      rw [List.mem_singleton.mp member]
      exact digit_isDigit small
    · rcases List.mem_append.mp member with earlier | last
      · exact ih _ b earlier
      · rw [List.mem_singleton.mp last]
        exact digit_isDigit (Nat.mod_lt _ (by omega))

theorem decimal_isDigit (n : Nat) : ∀ b ∈ decimal n, isDigit b = true :=
  digitsFrom_isDigit (n + 1) n

theorem length_digitsFrom {k n : Nat} (small : n < 10 ^ (k + 1)) (fuel : Nat) :
    (digitsFrom fuel n).length ≤ k + 1 := by
  induction k generalizing n fuel with
  | zero =>
    cases fuel with
    | zero => simp [digitsFrom]
    | succ fuel =>
      rw [digitsFrom, if_pos (by simpa using small)]
      simp
  | succ k ih =>
    cases fuel with
    | zero => simp [digitsFrom]
    | succ fuel =>
      rw [digitsFrom]
      split
      · simp
      · have shorter := ih (n := n / 10) (Nat.div_lt_of_lt_mul (by rw [pow_succ] at small; omega)) fuel
        simpa using shorter

theorem decimal_length {k n : Nat} (small : n < 10 ^ (k + 1)) : (decimal n).length ≤ k + 1 :=
  length_digitsFrom small (n + 1)

theorem decimal_ne_nil (n : Nat) : decimal n ≠ [] := by
  unfold decimal
  rw [digitsFrom]
  split <;> simp

end Bytes

end WorkerInformer
