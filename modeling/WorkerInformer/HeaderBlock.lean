import WorkerInformer.Bytes

/-! The head of a response: lines that end in a carriage return and a line feed,
up to the first empty one. A reader that splits at these ends takes a written
head apart into the lines that were written and leaves the body to the byte, as
long as no line holds a line feed of its own. Nothing in this file is about one
program. -/
namespace WorkerInformer.HeaderBlock

/-- A line with its end. -/
def endLine (line : Bytes) : Bytes := line ++ [13, 10]

/-- The lines of a head and the empty line after them. -/
def write (lines : List Bytes) : Bytes := lines.flatMap endLine ++ endLine []

/-- Reads lines up to an empty one; `line` is what has been read of the current
one. The result is the lines and the rest of the text. -/
def readFrom : (line : Bytes) → (text : Bytes) → Option (List Bytes × Bytes)
  | _, [] => none
  | line, 13 :: 10 :: rest =>
    if line = [] then some ([], rest)
    else (readFrom [] rest).map fun (lines, body) => (line :: lines, body)
  | line, b :: rest => readFrom (line ++ [b]) rest

def read (text : Bytes) : Option (List Bytes × Bytes) := readFrom [] text

theorem readFrom_cons {line : Bytes} {b : UInt8} {rest : Bytes} (inside : b ≠ 13 ∨ rest.head? ≠ some 10) :
    readFrom line (b :: rest) = readFrom (line ++ [b]) rest := by
  rw [readFrom]
  rintro after rfl rfl
  simp at inside

/-- What stands in a line is read as it is. -/
theorem readFrom_line {text : Bytes} (free : 10 ∉ text) (line rest : Bytes) :
    readFrom line (text ++ 13 :: rest) = readFrom (line ++ text) (13 :: rest) := by
  induction text generalizing line with
  | nil => rw [List.append_nil, List.nil_append]
  | cons b text ih =>
    have later : 10 ∉ text := fun member => free (List.mem_cons_of_mem b member)
    have next : (text ++ 13 :: rest).head? ≠ some 10 := by
      cases text with
      | nil => simp
      | cons c text =>
        intro feed
        exact later (by simpa using Or.inl (Option.some.inj feed).symm)
    rw [List.cons_append, readFrom_cons (Or.inr next), ih later, List.append_assoc, List.singleton_append]

theorem read_endLine {line : Bytes} (free : 10 ∉ line) (nonempty : line ≠ []) (rest : Bytes) :
    read (endLine line ++ rest) = (read rest).map fun (lines, body) => (line :: lines, body) := by
  rw [read, endLine, List.append_assoc]
  rw [show [13, 10] ++ rest = 13 :: 10 :: rest from rfl, readFrom_line free, List.nil_append, readFrom, if_neg nonempty]
  rfl

theorem read_empty (rest : Bytes) : read (endLine [] ++ rest) = some ([], rest) := rfl

/-- **A head is read back as it was written**, and everything behind it is the
body, whatever it is. -/
theorem read_write {lines : List Bytes} (plain : ∀ line ∈ lines, line ≠ [] ∧ 10 ∉ line) (body : Bytes) :
    read (write lines ++ body) = some (lines, body) := by
  induction lines with
  | nil => exact read_empty body
  | cons line lines ih =>
    have first := plain line List.mem_cons_self
    have rest := ih fun other member => plain other (List.mem_cons_of_mem line member)
    rw [write, List.flatMap_cons, List.append_assoc, List.append_assoc, read_endLine first.2 first.1,
      ← List.append_assoc, ← write, rest]
    rfl

end WorkerInformer.HeaderBlock
