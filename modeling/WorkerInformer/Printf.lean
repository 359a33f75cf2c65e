import Mathlib.Data.Int.Init
import WorkerInformer.SqlLexer

/-! `sqlite3_snprintf` on the arguments a variadic call leaves in memory. As the
x86-64 calling convention has it, integers and pointers are read from one
sequence of slots and doubles from another, whatever the format says; a read
past the last slot finds what happens to lie above the arguments. Nothing in
this file is about one program. -/
namespace WorkerInformer.Printf
open Bytes SqlLexer

/-- An unsigned numeral as it is written: digits, perhaps a point and more digits. -/
structure Numeral where
  digits : Bytes
  fraction : Option Bytes
  digits_ne_nil : digits ≠ []
  digits_isDigit : ∀ b ∈ digits, isDigit b = true
  fraction_isDigit : ∀ part ∈ fraction, ∀ b ∈ part, isDigit b = true

def Numeral.text (n : Numeral) : Bytes :=
  match n.fraction with
  | none => n.digits
  | some part => n.digits ++ 46 :: part

/-- The numeral of a natural number. -/
def Numeral.ofNat (n : Nat) : Numeral :=
  ⟨decimal n, none, decimal_ne_nil n, decimal_isDigit n, fun _ none_is_some => by cases none_is_some⟩

/-- What `%f` writes: a numeral with a sign, or a word for what is no number. -/
inductive Fixed
  | finite (negative : Bool) (numeral : Numeral)
  | infinite (negative : Bool)
  | notANumber

/-- A value as it is written into a text: quoted by `'%q'`, a number, or a word. -/
inductive Written
  | quoted (text : Bytes)
  | numeral (negative : Bool) (numeral : Numeral)
  | word (negative : Bool) (text : Bytes) (letters : text ≠ [] ∧ ∀ b ∈ text, isLetter b = true)

/-- The sign of a number. -/
def sign (negative : Bool) : Bytes := if negative then [45] else []

def Written.text : Written → Bytes
  | quoted text => 39 :: doubleQuotes text ++ [39]
  | numeral negative n => sign negative ++ n.text
  | word negative text _ => sign negative ++ text

def Written.ofInt (i : Int) : Written := .numeral (decide (i < 0)) (Numeral.ofNat i.natAbs)

def Written.ofFixed : Fixed → Written
  | .finite negative n => .numeral negative n
  | .infinite negative => .word negative (bytes "Inf") (letters_of_all rfl)
  | .notANumber => .word false (bytes "NaN") (letters_of_all rfl)

theorem ofInt_text (i : Int) : (Written.ofInt i).text = signed i := by
  unfold Written.ofInt Written.text signed sign Numeral.text Numeral.ofNat
  by_cases negative : i < 0 <;> simp [negative]

/-! ## Arguments -/

/-- An eight-byte slot of the integer class. -/
inductive Slot
  | word (value : Int)
  | pointer (text : Bytes)

/-- The arguments of a call. -/
structure VaList (Double : Type*) where
  slots : List Slot
  doubles : List Double
  above : Nat → Int

inductive Conversion
  | d
  | u
  | lld
  | f
  | q
  | s
  deriving DecidableEq

/-- A format: literal text and conversions. -/
inductive Piece
  | text (literal : Bytes)
  | conversion (c : Conversion)
  deriving DecidableEq

/-- Literal bytes in front of a format. -/
def pushText (literal : Bytes) : List Piece → List Piece
  | .text rest :: pieces => .text (literal ++ rest) :: pieces
  | pieces => .text literal :: pieces

/-- The pieces of a format; an unknown conversion ends it. -/
def pieces : Bytes → List Piece
  | [] => []
  | 37 :: 100 :: rest => .conversion .d :: pieces rest
  | 37 :: 117 :: rest => .conversion .u :: pieces rest
  | 37 :: 108 :: 108 :: 100 :: rest => .conversion .lld :: pieces rest
  | 37 :: 102 :: rest => .conversion .f :: pieces rest
  | 37 :: 113 :: rest => .conversion .q :: pieces rest
  | 37 :: 115 :: rest => .conversion .s :: pieces rest
  | 37 :: 37 :: rest => pushText [37] (pieces rest)
  | 37 :: _ => []
  | b :: rest => pushText [b] (pieces rest)

def toInt32 (i : Int) : Int := i.bmod (2 ^ 32)

def toInt64 (i : Int) : Int := i.bmod (2 ^ 64)

def toUInt32 (i : Int) : Nat := (i % 2 ^ 32).toNat

namespace VaList
variable {Double : Type*}

/-- `va_arg` of an integer type; an address is no number the text could show. -/
def word? (va : VaList Double) : Option (Int × VaList Double) :=
  match va.slots with
  | .word value :: rest => some (value, { va with slots := rest })
  | .pointer _ :: _ => none
  | [] => some (va.above 0, { va with above := fun n => va.above (n + 1) })

/-- `va_arg` of a pointer; what is no pointer cannot be followed. -/
def pointer? (va : VaList Double) : Option (Bytes × VaList Double) :=
  match va.slots with
  | .pointer text :: rest => some (cString text, { va with slots := rest })
  | _ => none

/-- `va_arg` of a double. -/
def double? (va : VaList Double) : Option (Double × VaList Double) :=
  match va.doubles with
  | value :: rest => some (value, { va with doubles := rest })
  | [] => none

/-- What one conversion writes and the arguments it leaves. -/
def convert (fixed : Double → Fixed) (va : VaList Double) : Conversion → Option (Bytes × VaList Double)
  | .d => va.word?.map fun (value, rest) => (signed (toInt32 value), rest)
  | .u => va.word?.map fun (value, rest) => (decimal (toUInt32 value), rest)
  | .lld => va.word?.map fun (value, rest) => (signed (toInt64 value), rest)
  | .f => va.double?.map fun (value, rest) => ((Written.ofFixed (fixed value)).text, rest)
  | .q => va.pointer?.map fun (text, rest) => (doubleQuotes text, rest)
  | .s => va.pointer?

end VaList

/-- The text of a format. -/
def render {Double : Type*} (fixed : Double → Fixed) : List Piece → VaList Double → Option Bytes
  | [], _ => some []
  | .text literal :: rest, va => (render fixed rest va).map (literal ++ ·)
  | .conversion c :: rest, va =>
    (va.convert fixed c).bind fun (text, va) => (render fixed rest va).map (text ++ ·)

/-- `sqlite3_snprintf(size, buf, format, ...)`: the C string it leaves in `buf`. -/
def snprintf {Double : Type*} (fixed : Double → Fixed) (size : Nat) (format : Bytes) (va : VaList Double) :
    Option Bytes :=
  (render fixed (pieces format) va).map (·.take (size - 1))

end WorkerInformer.Printf
