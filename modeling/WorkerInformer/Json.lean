import Mathlib.Data.List.Infix
import WorkerInformer.Bytes

/-! `include/json.h` as far as the pages use it: an object of scalar members,
kept in key order as `std::map` keeps it, and `dump` without pretty printing.
`escape_string` knows nothing of HTML, so a text of a member can end the script
element the object is put into; the last part says exactly when. -/
namespace WorkerInformer.Json
open Bytes

/-- The scalars the pages put into an object. -/
inductive Scalar
  | number (value : Int)
  | boolean (value : Bool)
  | string (text : Bytes)
  deriving DecidableEq

/-- `hexify`. -/
def hexify (n : UInt8) : UInt8 := if n < 10 then 48 + n else 87 + n

/-- What `escape_string` writes for one byte. -/
def escapeByte (c : UInt8) : Bytes :=
  if c = 34 then bytes "\\\""
  else if c = 92 then bytes "\\\\"
  else if c = 8 then bytes "\\b"
  else if c = 12 then bytes "\\f"
  else if c = 10 then bytes "\\n"
  else if c = 13 then bytes "\\r"
  else if c = 9 then bytes "\\t"
  else if c ≤ 31 then bytes "\\u00" ++ [hexify (c >>> 4), hexify (c &&& 15)]
  else [c]

def escapeString (text : Bytes) : Bytes := text.flatMap escapeByte

/-- `dump` of a scalar. -/
def Scalar.dump : Scalar → Bytes
  | number value => signed value
  | boolean value => if value then bytes "true" else bytes "false"
  | string text => 34 :: escapeString text ++ [34]

/-- An object: its members in the order of their keys. -/
abbrev Object := List (Bytes × Scalar)

/-- `j[key] = value`. -/
def assign (key : Bytes) (value : Scalar) : Object → Object
  | [] => [(key, value)]
  | e :: rest =>
    if key = e.1 then (key, value) :: rest
    else if key < e.1 then (key, value) :: e :: rest
    else e :: assign key value rest

def dumpMember (e : Bytes × Scalar) : Bytes := 34 :: escapeString e.1 ++ bytes "\":" ++ e.2.dump

/-- The members after the first, each behind its comma. -/
def dumpRest (members : Object) : Bytes := members.flatMap fun e => 44 :: dumpMember e

/-- `dump` of an object. -/
def dump : Object → Bytes
  | [] => bytes "{}"
  | first :: rest => 123 :: dumpMember first ++ dumpRest rest ++ [125]

/-! ## The end of a script element -/

/-- The bytes, in any letter case, with which a script element ends. -/
def EndsScript (text : Bytes) : Prop := bytes "</script" <:+: lower text

instance (text : Bytes) : Decidable (EndsScript text) :=
  inferInstanceAs (Decidable (bytes "</script" <:+: lower text))

/-- Bytes among which no script element can begin to end. -/
def Harmless (text : Bytes) : Prop := ∀ b ∈ text, toLower b ≠ 60

instance (text : Bytes) : Decidable (Harmless text) :=
  List.decidableBAll (toLower · ≠ 60) text

theorem endsScript_cons {b : UInt8} (other : toLower b ≠ 60) (rest : Bytes) :
    EndsScript (b :: rest) ↔ EndsScript rest := by
  unfold EndsScript
  rw [lower, List.map_cons, List.infix_cons_iff]
  refine or_iff_right fun starts => other ?_
  exact (List.cons_prefix_cons.mp (show 60 :: bytes "/script" <+: _ from starts)).1.symm

theorem endsScript_harmless_append {text : Bytes} (harmless : Harmless text) (rest : Bytes) :
    EndsScript (text ++ rest) ↔ EndsScript rest := by
  induction text with
  | nil => rfl
  | cons b text ih =>
    rw [List.cons_append, endsScript_cons (harmless b (by simp))]
    exact ih fun c member => harmless c (by simp [member])

/-- An infix without the separator lies on one side of it. -/
theorem infix_append_separator {α : Type*} {pattern before rest : List α} {separator : α}
    (absent : separator ∉ pattern) :
    pattern <:+: before ++ separator :: rest ↔ pattern <:+: before ∨ pattern <:+: rest := by
  have starts_before : ∀ text, pattern <+: text ++ separator :: rest → pattern <+: text := by
    intro text starts
    rcases List.prefix_or_prefix_of_prefix starts (List.prefix_append text _) with short | ⟨more, same⟩
    · exact short
    · subst same
      cases more with
      | nil => simp
      | cons first more =>
        have first_is := List.cons_prefix_cons.mp ((List.prefix_append_right_inj text).mp starts)
        exact absurd (List.mem_append_right text (first_is.1 ▸ List.mem_cons_self)) absent
  constructor
  · intro inside
    induction before with
    | nil =>
      rcases List.infix_cons_iff.mp inside with starts | later
      · exact Or.inl (starts_before [] starts).isInfix
      · exact Or.inr later
    | cons b before ih =>
      rcases List.infix_cons_iff.mp inside with starts | later
      · exact Or.inl (starts_before (b :: before) starts).isInfix
      · exact (ih later).imp (fun left => List.infix_cons left) id
  · rintro (left | right)
    · exact left.trans (List.prefix_append _ _).isInfix
    · exact right.trans ((List.suffix_cons _ _).trans (List.suffix_append _ _)).isInfix

theorem endsScript_quote (before rest : Bytes) :
    EndsScript (before ++ 34 :: rest) ↔ EndsScript before ∨ EndsScript rest := by
  unfold EndsScript
  rw [lower, List.map_append, List.map_cons, show toLower 34 = 34 by decide]
  exact infix_append_separator (by decide)

/-- A byte that is escaped is one the ending has no use for. -/
theorem escapeByte_cases (c : UInt8) :
    escapeByte c = [c] ∨
      toLower c ∉ bytes "</script" ∧ ∃ tail, escapeByte c = 92 :: tail ∧ Harmless (92 :: tail) := by
  have split : escapeByte c = [c] ∨ toLower c ∉ bytes "</script" ∧
      (escapeByte c).head? = some 92 ∧ Harmless (escapeByte c) := by
    revert c
    exact forall_byte (by decide +kernel)
  refine split.imp_right fun ⟨useless, starts, harmless⟩ => ⟨useless, ?_⟩
  cases escaped : escapeByte c with
  | nil => simp [escaped] at starts
  | cons first tail =>
    obtain rfl : first = 92 := by simpa [escaped] using starts
    exact ⟨tail, rfl, escaped ▸ harmless⟩

private theorem prefix_escape_iff {pattern : Bytes} (part : ∀ b ∈ pattern, b ∈ bytes "</script") (text : Bytes) :
    pattern <+: lower (escapeString text) ↔ pattern <+: lower text := by
  induction pattern generalizing text with
  | nil => simp
  | cons p pattern ih =>
    cases text with
    | nil => rfl
    | cons c text =>
      rcases escapeByte_cases c with plain | ⟨useless, tail, escaped, -⟩
      · have steps : escapeString (c :: text) = c :: escapeString text := by
          simp [escapeString, plain]
        rw [steps]
        simp only [lower, List.map_cons, List.cons_prefix_cons]
        exact and_congr_right fun _ => ih (fun b member => part b (by simp [member])) text
      · have steps : escapeString (c :: text) = 92 :: (tail ++ escapeString text) := by
          simp [escapeString, escaped]
        rw [steps]
        simp only [lower, List.map_cons, List.cons_prefix_cons]
        refine iff_of_false (fun starts => ?_) (fun starts => ?_)
        · have backslash : (92 : UInt8) ∉ bytes "</script" := by decide
          exact backslash ((show p = 92 from starts.1) ▸ part p (by simp))
        · exact useless (starts.1 ▸ part p (by simp))

/-- Escaping neither makes nor breaks the end of a script element. -/
theorem endsScript_escapeString (text : Bytes) : EndsScript (escapeString text) ↔ EndsScript text := by
  induction text with
  | nil => rfl
  | cons c text ih =>
    rcases escapeByte_cases c with plain | ⟨useless, tail, escaped, harmless⟩
    · have steps : escapeString (c :: text) = c :: escapeString text := by
        simp [escapeString, plain]
      have starts := prefix_escape_iff (fun b member => member) (c :: text)
      rw [steps] at starts ⊢
      unfold EndsScript at ih ⊢
      rw [show lower (c :: escapeString text) = toLower c :: lower (escapeString text) from rfl,
        show lower (c :: text) = toLower c :: lower text from rfl] at starts ⊢
      rw [List.infix_cons_iff, List.infix_cons_iff, starts, ih]
    · have steps : escapeString (c :: text) = (92 :: tail) ++ escapeString text := by
        simp [escapeString, escaped]
      have other : toLower c ≠ 60 := fun same => useless (by rw [same]; decide)
      rw [steps, endsScript_harmless_append harmless, endsScript_cons other, ih]

/-- The text of a string member ends the script element. -/
def Scalar.EndsScript : Scalar → Prop
  | string text => Json.EndsScript text
  | number _ | boolean _ => False

theorem isDigit_toLower : ∀ b, isDigit b = true → toLower b ≠ 60 :=
  forall_byte (by decide +kernel)

theorem signed_harmless (value : Int) : Harmless (signed value) := by
  have digits : ∀ n, Harmless (decimal n) := fun n b member =>
    isDigit_toLower b (decimal_isDigit n b member)
  unfold signed
  split
  · intro b member
    rcases List.mem_cons.mp member with rfl | digit
    · decide
    · exact digits _ b digit
  · exact digits _

/-- A member of an object ends the script element exactly when its text does;
the rest of the object can follow. -/
theorem endsScript_dumpMember {key : Bytes} (plain : Harmless (34 :: escapeString key ++ bytes "\":"))
    (value : Scalar) (rest : Bytes) :
    EndsScript (dumpMember (key, value) ++ rest) ↔ value.EndsScript ∨ EndsScript rest := by
  rw [dumpMember, List.append_assoc, endsScript_harmless_append plain]
  cases value with
  | number value => simpa [Scalar.EndsScript, Scalar.dump] using endsScript_harmless_append (signed_harmless value) rest
  | boolean value =>
    have harmless : Harmless (Scalar.boolean value).dump := by cases value <;> decide
    simpa [Scalar.EndsScript] using endsScript_harmless_append harmless rest
  | string text =>
    have opened : (34 :: escapeString text ++ [34]) ++ rest = [34] ++ (escapeString text ++ 34 :: rest) := by simp
    simp only [Scalar.dump, Scalar.EndsScript]
    rw [opened, endsScript_harmless_append (by decide), endsScript_quote, endsScript_escapeString]

private theorem endsScript_dumpRest {members : Object}
    (plain : ∀ e ∈ members, Harmless (34 :: escapeString e.1 ++ bytes "\":")) (rest : Bytes) :
    EndsScript (dumpRest members ++ rest) ↔ (∃ e ∈ members, e.2.EndsScript) ∨ EndsScript rest := by
  induction members with
  | nil => simp [dumpRest]
  | cons e members ih =>
    have steps : dumpRest (e :: members) ++ rest = [44] ++ (dumpMember e ++ (dumpRest members ++ rest)) := by
      simp [dumpRest]
    rw [steps, endsScript_harmless_append (by decide), endsScript_dumpMember (plain e (by simp)),
      ih fun other member => plain other (by simp [member])]
    simp [or_assoc]

/-- An object with plain keys ends the script element exactly when the text of
one of its string members does. -/
theorem endsScript_dump {members : Object}
    (plain : ∀ e ∈ members, Harmless (34 :: escapeString e.1 ++ bytes "\":")) :
    EndsScript (dump members) ↔ ∃ e ∈ members, e.2.EndsScript := by
  have closing : ¬ EndsScript [125] := by decide
  cases members with
  | nil => simpa using (show ¬ EndsScript (dump []) by decide)
  | cons first rest =>
    have steps : dump (first :: rest) = [123] ++ (dumpMember first ++ (dumpRest rest ++ [125])) := by
      simp [dump]
    rw [steps, endsScript_harmless_append (by decide), endsScript_dumpMember (plain first (by simp)),
      endsScript_dumpRest fun other member => plain other (by simp [member])]
    simp [closing]

end WorkerInformer.Json
