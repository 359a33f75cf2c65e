import WorkerInformer.Bytes

/-! `CgiService::ProcessRequest`: the body of a request as the text `postq`. The
body is copied into a buffer of as many blanks as `CONTENT_LENGTH` says, the
buffer is read as a C string, and the text is cut or filled up with NULs to that
length. A buffer without a NUL is read on into the memory behind it. -/
namespace WorkerInformer.PostBody
open Bytes

/-- `strtol(text, &end, 10)`: white space, a sign, digits; no digits are 0, and
what a `long` cannot hold becomes the nearest one it can. -/
def strtol (text : Bytes) : Int :=
  match text.dropWhile isspace with
  | 45 :: rest => max (-2 ^ 63) (-value (rest.takeWhile isDigit))
  | 43 :: rest => min (2 ^ 63 - 1) (value (rest.takeWhile isDigit))
  | rest => min (2 ^ 63 - 1) (value (rest.takeWhile isDigit))

def stdinMax : Nat := 6000000

/-- `content_length`, an `unsigned long`. -/
def contentLength (header : Bytes) : Nat :=
  let n := (strtol header % 2 ^ 64).toNat
  if n > stdinMax then stdinMax else n

/-- `content` after `memset` and `FCGX_GetStr`. -/
def content (n : Nat) (body : Bytes) : Bytes := body.take n ++ List.replicate (n - body.length) 32

/-- `text.resize(n)`. -/
def resize (n : Nat) (text : Bytes) : Bytes := text.take n ++ List.replicate (n - text.length) 0

/-- What `std::string(content)` makes of the buffer and the memory behind it. -/
def contentString (n : Nat) (body beyond : Bytes) : Bytes := cString (content n body ++ beyond)

/-- How many bytes from the start of the buffer on it looks at, the NUL included. -/
def bytesRead (header body beyond : Bytes) : Nat :=
  let n := contentLength header
  if n > 0 then (contentString n body beyond).length + 1 else 0

def postq (header body beyond : Bytes) : Bytes :=
  let n := contentLength header
  if n > 0 then resize n (contentString n body beyond) else []

/-! ## The buffer -/

theorem content_length (n : Nat) (body : Bytes) : (content n body).length = n := by
  rw [content, List.length_append, List.length_take, List.length_replicate]
  omega

theorem zero_mem_content {n : Nat} {body : Bytes} : 0 ∈ content n body ↔ 0 ∈ body.take n := by
  rw [content, List.mem_append, or_iff_left]
  intro blank
  exact absurd (List.eq_of_mem_replicate blank) (by decide)

/-- The first NUL of a text ends the C string, whatever follows. -/
theorem cString_append_zero {text : Bytes} (free : NulFree text) (rest : Bytes) : cString (text ++ 0 :: rest) = text :=
  takeWhile_before free rest

/-- A text with a NUL, cut at the first one. -/
theorem cut_at_zero {text : Bytes} (member : 0 ∈ text) : ∃ front rest, NulFree front ∧ text = front ++ 0 :: rest := by
  obtain ⟨front, rest, is_text, free⟩ := List.eq_append_cons_of_mem member
  exact ⟨front, rest, free, is_text⟩

/-- Reading a C string stays inside a buffer exactly when there is a NUL in it. -/
theorem cString_inside_iff (buffer beyond : Bytes) :
    (cString (buffer ++ beyond)).length < buffer.length ↔ 0 ∈ buffer := by
  constructor
  · intro inside
    by_contra free
    rw [cString, List.takeWhile_append_of_pos (bne_of_absent free), List.length_append] at inside
    omega
  · intro member
    obtain ⟨front, rest, free, rfl⟩ := cut_at_zero member
    rw [List.append_assoc, List.cons_append, cString_append_zero free, List.length_append, List.length_cons]
    omega

/-- The string of a buffer whose received bytes have a NUL. -/
theorem contentString_of_cut {n : Nat} {body front rest : Bytes} (free : NulFree front)
    (cut : body.take n = front ++ 0 :: rest) (beyond : Bytes) : contentString n body beyond = front := by
  rw [contentString, content, cut, List.append_assoc, List.append_assoc, List.cons_append, cString_append_zero free]

theorem resize_of_lt {n : Nat} {text : Bytes} (shorter : text.length < n) :
    resize n text = text ++ List.replicate (n - text.length) 0 := by
  rw [resize, List.take_of_length_le shorter.le]

/-! ## The text -/

/-- What is received fills the buffer, has a NUL and only NULs from there on; or
there is no buffer. -/
def Terminated (n : Nat) (body : Bytes) : Prop :=
  n = 0 ∨ n ≤ body.length ∧ ∃ text zeros, NulFree text ∧ body.take n = text ++ List.replicate (zeros + 1) 0

/-- **When reading the body is safe and exact.** For every header and every body,
and whatever memory there is behind the buffer: only the buffer is read and
`postq` is what was received, exactly when the body is terminated inside the
buffer. -/
theorem postq_eq_received_iff (header body beyond : Bytes) :
    bytesRead header body beyond ≤ contentLength header ∧
        postq header body beyond = body.take (contentLength header) ↔
      Terminated (contentLength header) body := by
  rw [bytesRead, postq]
  generalize contentLength header = n
  rw [Terminated]
  rcases Nat.eq_zero_or_pos n with none | some
  · simp [none]
  rw [if_pos some, if_pos some, Nat.succ_le_iff]
  have inside : (contentString n body beyond).length < n ↔ 0 ∈ body.take n := by
    rw [← zero_mem_content, ← cString_inside_iff _ beyond, content_length, contentString]
  rw [inside]
  constructor
  · rintro ⟨nul, same⟩
    obtain ⟨front, rest, free, cut⟩ := cut_at_zero nul
    have shorter : front.length < n := by
      have := congrArg List.length cut
      simp only [List.length_take, List.length_append, List.length_cons] at this
      omega
    rw [contentString_of_cut free cut, resize_of_lt shorter] at same
    have filled : n ≤ body.length := by
      have := congrArg List.length same
      simp only [List.length_take, List.length_append, List.length_replicate] at this
      omega
    obtain ⟨zeros, is_zeros⟩ := Nat.exists_eq_succ_of_ne_zero (show n - front.length ≠ 0 by omega)
    exact .inr ⟨filled, front, zeros, free, by rw [← same, is_zeros]⟩
  · rintro (none | ⟨filled, text, zeros, free, is_text⟩)
    · omega
    have length : n = text.length + (zeros + 1) := by
      have := congrArg List.length is_text
      simp only [List.length_take, List.length_append, List.length_replicate] at this
      omega
    have cut : body.take n = text ++ 0 :: List.replicate zeros 0 := by rw [is_text, List.replicate_succ]
    refine ⟨by simp [cut], ?_⟩
    rw [contentString_of_cut free cut, resize_of_lt (by omega), is_text, show n - text.length = zeros + 1 by omega]

/-- `CONTENT_LENGTH: 3` and the body `a=b`: the string goes on behind the
buffer. -/
theorem plain_body_read_beyond :
    ¬ (bytesRead (bytes "3") (bytes "a=b") [0] ≤ contentLength (bytes "3") ∧
      postq (bytes "3") (bytes "a=b") [0] = (bytes "a=b").take (contentLength (bytes "3"))) := by
  rintro ⟨inside, -⟩
  exact absurd inside (by decide +kernel)

example : contentLength (bytes " -1") = 6000000 ∧ contentLength (bytes "12kb") = 12 ∧
    contentLength (bytes "99999999999999999999") = 6000000 := by decide +kernel

end WorkerInformer.PostBody
