import WorkerInformer.MinifyHtml

/-! `Config::minifyhtml`: what becomes of the white space between two characters
of a text and of the content of a textarea or pre element. The characters that
are no white space stay as they are, so a place of the minified text is a place
of the text: the same characters stand before it. -/
namespace WorkerInformer.MinifyHtml
open Bytes

/-- The characters that are no white space. -/
def letters (text : Bytes) : Bytes := text.filter fun b => ! isspace b

/-! ## Places -/

/-- Texts from one letter or run to the next. -/
theorem byRuns {motive : Bytes → Prop} (nil : motive [])
    (letter : ∀ c rest, isspace c = false → motive rest → motive (c :: rest))
    (gap : ∀ gap after, gap.all isspace = true → AtLetter after → motive after → motive (gap ++ after))
    (text : Bytes) : motive text := by
  induction length : text.length using Nat.strong_induction_on generalizing text with
  | _ length ih =>
  subst length
  cases text with
  | nil => exact nil
  | cons c rest =>
    cases space : isspace c with
    | false => exact letter c rest space (ih rest.length (Nat.lt_succ_self _) rest rfl)
    | true =>
      have cut := List.takeWhile_append_dropWhile (p := isspace) (l := c :: rest)
      rw [← cut]
      refine gap _ _ (List.all_eq_true.mpr fun b member => List.mem_takeWhile_imp member) ?_ (ih _ ?_ _ rfl)
      · intro d more is_rest
        have stops := List.head?_dropWhile_not isspace (c :: rest)
        rw [is_rest] at stops
        simpa using stops
      · rw [List.dropWhile_cons_of_pos space]
        exact Nat.lt_succ_of_le (List.dropWhile_suffix _).length_le

theorem letters_append (first second : Bytes) : letters (first ++ second) = letters first ++ letters second :=
  List.filter_append ..

theorem letters_cons {c : UInt8} (letter : isspace c = false) (rest : Bytes) : letters (c :: rest) = c :: letters rest :=
  List.filter_cons_of_pos (by simp [letter])

theorem letters_gap {gap : Bytes} (blank : gap.all isspace = true) : letters gap = [] := by
  rw [letters, List.filter_eq_nil_iff]
  intro b member
  simp [List.all_eq_true.mp blank b member]

/-- The same letters before it make a letter's place the same. -/
theorem cut_unique {front other rest more : Bytes} {c d : UInt8} (letter : isspace c = false)
    (letter' : isspace d = false) (same : front ++ c :: rest = other ++ d :: more)
    (before : letters front = letters other) : front = other ∧ c = d ∧ rest = more := by
  induction front generalizing other with
  | nil =>
    cases other with
    | nil => exact ⟨rfl, List.cons.inj same⟩
    | cons b other =>
      obtain ⟨rfl, -⟩ := List.cons.inj same
      rw [letters_cons letter] at before
      cases before
  | cons b front ih =>
    cases other with
    | nil =>
      obtain ⟨rfl, -⟩ := List.cons.inj same
      rw [letters_cons letter'] at before
      cases before
    | cons e other =>
      obtain ⟨rfl, later⟩ := List.cons.inj same
      have before_later : letters front = letters other := by
        cases space : isspace b with
        | false =>
          rw [letters_cons space, letters_cons space] at before
          exact (List.cons.inj before).2
        | true => simpa [letters, space] using before
      obtain ⟨rfl, same_letter, same_rest⟩ := ih later before_later
      exact ⟨rfl, same_letter, same_rest⟩

/-! ## What stays of the letters -/

theorem isspace_of_lineEnd {b : UInt8} (lineEnd : isLineEnd b = true) : isspace b = true := by
  rcases (Bool.or_eq_true_iff ..).mp lineEnd with cr | lf
  · rw [beq_iff_eq.mp cr]
    decide
  · rw [beq_iff_eq.mp lf]
    decide

theorem letter_not_lineEnd {b : UInt8} (letter : isspace b = false) : isLineEnd b = false := by
  cases lineEnd : isLineEnd b with
  | false => rfl
  | true => rw [isspace_of_lineEnd lineEnd] at letter; cases letter

theorem minifyhtml_letter {c : UInt8} (letter : isspace c = false) (rest : Bytes) :
    minifyhtml (c :: rest) = c :: minifyhtml rest := by
  rw [minifyhtml_eq, squeeze_letter letter, List.filter_cons_of_pos (by simp [letter_not_lineEnd letter]),
    minifyhtml_eq]

/-- What stays of a run. -/
def leftOf (gap after : Bytes) : Bytes := if Kept gap after then gap.filter (fun b => ! isLineEnd b) else []

theorem minifyhtml_gap {gap after : Bytes} (blank : gap.all isspace = true) (letter : AtLetter after) :
    minifyhtml (gap ++ after) = leftOf gap after ++ minifyhtml after := by
  rw [minifyhtml_eq, squeeze_gap blank letter, List.filter_append, minifyhtml_eq, leftOf]
  split <;> rfl

theorem leftOf_blank {gap : Bytes} (blank : gap.all isspace = true) (after : Bytes) :
    (leftOf gap after).all isspace = true := by
  rw [leftOf]
  split
  · exact List.all_eq_true.mpr fun b member => List.all_eq_true.mp blank b (List.mem_of_mem_filter member)
  · rfl

/-- **No letter is lost, and none changes its place among the others.** -/
theorem letters_minifyhtml (text : Bytes) : letters (minifyhtml text) = letters text := by
  induction text using byRuns with
  | nil => rfl
  | letter c rest letter ih => rw [minifyhtml_letter letter, letters_cons letter, letters_cons letter, ih]
  | gap gap after blank letter ih =>
    rw [minifyhtml_gap blank letter, letters_append, letters_append, letters_gap blank,
      letters_gap (leftOf_blank blank after), ih]

theorem atLetter_append {text : Bytes} (letter : AtLetter text) {c : UInt8} (next : isspace c = false) (rest : Bytes) :
    AtLetter (text ++ c :: rest) := by
  cases text with
  | nil =>
    intro b more is_text
    obtain ⟨rfl, -⟩ := List.cons.inj is_text
    exact next
  | cons d text =>
    intro b more is_text
    obtain ⟨rfl, -⟩ := List.cons.inj is_text
    exact letter d text rfl

/-- The text behind a letter is minified by itself. -/
theorem minifyhtml_append (before : Bytes) {c : UInt8} (letter : isspace c = false) (rest : Bytes) :
    ∃ front, minifyhtml (before ++ c :: rest) = front ++ c :: minifyhtml rest ∧ letters front = letters before := by
  induction before using byRuns with
  | nil => exact ⟨[], minifyhtml_letter letter rest, rfl⟩
  | letter d before first ih =>
    obtain ⟨front, minified, same⟩ := ih
    refine ⟨d :: front, ?_, by rw [letters_cons first, letters_cons first, same]⟩
    rw [List.cons_append, minifyhtml_letter first, minified, List.cons_append]
  | gap gap before blank first ih =>
    obtain ⟨front, minified, same⟩ := ih
    refine ⟨leftOf gap (before ++ c :: rest) ++ front, ?_, ?_⟩
    · rw [List.append_assoc, minifyhtml_gap blank (atLetter_append first letter rest), minified, List.append_assoc]
    · rw [letters_append, letters_append, letters_gap blank, letters_gap (leftOf_blank blank _), same]

/-! ## White space outside the protected elements -/

inductive Element
  | textarea
  | pre
  deriving DecidableEq

def Element.name : Element → Bytes
  | textarea => bytes "textarea"
  | pre => bytes "pre"

/-- The element whose name the text begins with. -/
def elementAt (text : Bytes) : Option Element :=
  if startsWord Element.textarea.name text then some .textarea
  else if startsWord Element.pre.name text then some .pre else none

/-- The element that is open behind a text: a tag opens it when none is open,
and only its own closing tag closes it. -/
def openElement : Option Element → Bytes → Option Element
  | inside, [] => inside
  | none, c :: rest => openElement (if c = 60 then elementAt rest else none) rest
  | some e, c :: rest =>
    if c = 60 ∧ rest.head? = some 47 ∧ elementAt rest.tail = some e then openElement none rest
    else openElement (some e) rest

/-- Two characters of a text with white space between them, outside the
protected elements. -/
structure Separated (text : Bytes) where
  before : Bytes
  first : UInt8
  gap : Bytes
  second : UInt8
  after : Bytes
  is_text : text = before ++ first :: (gap ++ second :: after)
  first_letter : isspace first = false
  second_letter : isspace second = false
  blank : gap.all isspace = true
  nonempty : gap ≠ []
  outside : openElement none (before ++ [first]) = none

namespace Separated
variable {text : Bytes}

/-- The two are adjacent in the minified text. -/
def Joined (s : Separated text) : Prop :=
  ∃ front back, minifyhtml text = front ++ s.first :: s.second :: back ∧ letters front = letters s.before

/-- The two have a single blank between them, or more than line ends and a stray
closing tag as the next tag of a protected element. -/
def Lasting (s : Separated text) : Prop :=
  s.gap = [32] ∨ nextTag (s.second :: s.after) = some .closing ∧ ∃ b ∈ s.gap, isLineEnd b = false

theorem joined_iff (s : Separated text) : s.Joined ↔ leftOf s.gap (s.second :: s.after) = [] := by
  have second_here : AtLetter (s.second :: s.after) := by
    intro c rest same
    obtain ⟨rfl, -⟩ := List.cons.inj same
    exact s.second_letter
  obtain ⟨front, minified, same⟩ := minifyhtml_append s.before s.first_letter (s.gap ++ s.second :: s.after)
  rw [← s.is_text, minifyhtml_gap s.blank second_here, minifyhtml_letter s.second_letter] at minified
  constructor
  · rintro ⟨other, back, joined, before⟩
    obtain ⟨-, -, adjacent⟩ := cut_unique s.first_letter s.first_letter (joined.symm.trans minified)
      (before.trans same.symm)
    by_contra left
    obtain ⟨b, more, is_left⟩ := List.exists_cons_of_ne_nil left
    rw [is_left] at adjacent
    have space := leftOf_blank s.blank (s.second :: s.after)
    rw [is_left, ← (List.cons.inj adjacent).1, List.all_cons, s.second_letter] at space
    cases space
  · intro nothing
    exact ⟨front, minifyhtml s.after, by rw [minified, nothing, List.nil_append], same⟩

theorem leftOf_eq_nil_iff (s : Separated text) : leftOf s.gap (s.second :: s.after) = [] ↔ ¬ s.Lasting := by
  rw [leftOf, Lasting]
  by_cases single : s.gap = [32]
  · have blank_left : ([32] : Bytes).filter (fun b => ! isLineEnd b) ≠ [] := by decide
    rw [if_pos (.inl single), single]
    simp [blank_left]
  · by_cases closing : nextTag (s.second :: s.after) = some .closing
    · rw [if_pos (.inr closing), List.filter_eq_nil_iff]
      simp [single, closing]
    · rw [if_neg fun kept => kept.elim single closing]
      simp [single, closing]

end Separated

/-- Only redundant white space is removed. -/
def OnlyRedundant (text : Bytes) : Prop :=
  letters (minifyhtml text) = letters text ∧ ∀ s : Separated text, ¬ s.Joined

/-- **When `minifyhtml` joins nothing.** Exactly when whatever stands between two
characters outside the protected elements lasts. -/
theorem onlyRedundant_iff (text : Bytes) : OnlyRedundant text ↔ ∀ s : Separated text, s.Lasting := by
  rw [OnlyRedundant, and_iff_right (letters_minifyhtml text)]
  exact forall_congr' fun s => by rw [s.joined_iff, s.leftOf_eq_nil_iff, not_not]

/-- `a` and `b` on two lines become `ab`. -/
theorem line_end_joins : ¬ OnlyRedundant (bytes "a\nb") := by
  rintro ⟨-, apart⟩
  refine apart ⟨[], 97, [10], 98, [], by decide +kernel, by decide, by decide, by decide, by decide,
    by decide +kernel⟩ ⟨[], [], by decide +kernel, rfl⟩

/-! ## The content of a protected element -/

/-- A bracket behind a name ends it. -/
theorem startsWord_append {word text : Bytes} (starts : startsWord word text = true) (rest : Bytes) :
    startsWord word (text ++ 62 :: rest) = true := by
  induction word generalizing text with
  | nil =>
    cases text with
    | nil => rfl
    | cons c text => exact starts
  | cons c word ih =>
    cases text with
    | nil => cases starts
    | cons b text =>
      obtain ⟨same, later⟩ := Bool.and_eq_true_iff.mp starts
      exact Bool.and_eq_true_iff.mpr ⟨same, ih later⟩

theorem startsName_slash (rest : Bytes) : startsName (47 :: rest) = false := by
  rw [startsName, name_heads.1, name_heads.2]
  rfl

theorem nextTag_plain {text : Bytes} (plain : 60 ∉ text) (rest : Bytes) : nextTag (text ++ rest) = nextTag rest := by
  induction text with
  | nil => rfl
  | cons c text ih =>
    have differs : ¬ c = 60 := fun same => List.ne_of_not_mem_cons plain same.symm
    rw [List.cons_append, nextTag, if_neg differs, ih (List.not_mem_of_not_mem_cons plain)]

/-- A text without brackets before a closing tag loses its line ends only. -/
theorem minifyhtml_before_closing {text rest : Bytes} (plain : 60 ∉ text)
    (closing : nextTag (60 :: rest) = some .closing) :
    minifyhtml (text ++ 60 :: rest) = text.filter (fun b => ! isLineEnd b) ++ 60 :: minifyhtml rest := by
  have bracket : isspace 60 = false := by decide
  induction text using byRuns with
  | nil => exact minifyhtml_letter bracket rest
  | letter c text letter ih =>
    rw [List.cons_append, minifyhtml_letter letter, ih (List.not_mem_of_not_mem_cons plain),
      List.filter_cons_of_pos (by simp [letter_not_lineEnd letter]), List.cons_append]
  | gap gap after blank letter ih =>
    have plain_after : 60 ∉ after := fun member => plain (List.mem_append_right gap member)
    have kept : leftOf gap (after ++ 60 :: rest) = gap.filter fun b => ! isLineEnd b :=
      if_pos (.inr ((nextTag_plain plain_after _).trans closing))
    rw [List.append_assoc, minifyhtml_gap blank (atLetter_append letter bracket rest), kept, ih plain_after,
      List.filter_append, List.append_assoc]

theorem filter_lineEnd_iff (text : Bytes) :
    text.filter (fun b => ! isLineEnd b) = text ↔ 13 ∉ text ∧ 10 ∉ text := by
  rw [List.filter_eq_self]
  constructor
  · intro no_lineEnd
    exact ⟨fun cr => absurd (no_lineEnd 13 cr) (by decide), fun lf => absurd (no_lineEnd 10 lf) (by decide)⟩
  · rintro ⟨no_cr, no_lf⟩ b member
    have not_cr : b ≠ 13 := fun same => no_cr (same ▸ member)
    have not_lf : b ≠ 10 := fun same => no_lf (same ▸ member)
    simp [isLineEnd, not_cr, not_lf]

/-- A whole element with the text its two tags have between their brackets. -/
structure Protected where
  element : Element
  opened : Bytes
  content : Bytes
  closed : Bytes
  opens : startsWord element.name opened = true
  closes : startsWord element.name closed = true
  plain : 60 ∉ content

namespace Protected
variable (e : Protected)

/-- The opening tag less its closing bracket. -/
def openingTag : Bytes := 60 :: e.opened

/-- The closing tag less its opening bracket. -/
def closingTag : Bytes := 47 :: (e.closed ++ [62])

def text : Bytes := e.openingTag ++ 62 :: (e.content ++ 60 :: e.closingTag)

/-- The content stands unchanged between the two tags of the minified text. -/
def ContentKept (before after : Bytes) : Prop :=
  ∃ front back, minifyhtml (before ++ e.text ++ after) = front ++ 62 :: (e.content ++ 60 :: back) ∧
    letters front = letters (before ++ e.openingTag)

/-- The first tag from the closing tag on is that tag. -/
theorem nextTag_closingTag (after : Bytes) : nextTag (60 :: (e.closingTag ++ after)) = some .closing := by
  have named : startsName (e.closed ++ 62 :: after) = true := by
    have here := startsWord_append e.closes after
    rw [startsName, Bool.or_eq_true_iff]
    cases is_element : e.element with
    | textarea =>
      rw [is_element] at here
      exact .inl here
    | pre =>
      rw [is_element] at here
      exact .inr here
  have is_tag : e.closingTag ++ after = 47 :: (e.closed ++ 62 :: after) := by simp [closingTag]
  rw [is_tag, nextTag, if_pos rfl, tagAfter_cons, if_neg (Bool.eq_false_iff.mp (startsName_slash _)),
    if_pos ⟨rfl, named⟩, Option.some_or]

/-- What the two replacements leave of the content: all but its line ends. -/
theorem minifyhtml_text (before after : Bytes) :
    ∃ front back, minifyhtml (before ++ e.text ++ after) =
        front ++ 62 :: (e.content.filter (fun b => ! isLineEnd b) ++ 60 :: back) ∧
      letters front = letters (before ++ e.openingTag) := by
  have bracket : isspace 62 = false := by decide
  have cut : before ++ e.text ++ after =
      (before ++ e.openingTag) ++ 62 :: (e.content ++ 60 :: (e.closingTag ++ after)) := by simp [text]
  obtain ⟨front, minified, same⟩ := minifyhtml_append (before ++ e.openingTag) bracket
    (e.content ++ 60 :: (e.closingTag ++ after))
  refine ⟨front, minifyhtml (e.closingTag ++ after), ?_, same⟩
  rw [cut, minified, minifyhtml_before_closing e.plain (e.nextTag_closingTag after)]

/-- **When `minifyhtml` keeps the content of a protected element.** Exactly when
the content has no line end, whatever stands around the element. -/
theorem contentKept_iff (before after : Bytes) :
    e.ContentKept before after ↔ 13 ∉ e.content ∧ 10 ∉ e.content := by
  have bracket : isspace 62 = false := by decide
  obtain ⟨front, back, minified, same⟩ := e.minifyhtml_text before after
  rw [← filter_lineEnd_iff]
  constructor
  · rintro ⟨other, more, kept, before_other⟩
    obtain ⟨-, -, contents⟩ := cut_unique bracket bracket (kept.symm.trans minified) (before_other.trans same.symm)
    have plain_left : 60 ∉ e.content.filter fun b => ! isLineEnd b := fun member =>
      e.plain (List.mem_of_mem_filter member)
    have same_content := congrArg (List.takeWhile (· != 60)) contents
    rw [takeWhile_before e.plain, takeWhile_before plain_left] at same_content
    exact same_content.symm
  · intro all_left
    rw [all_left] at minified
    exact ⟨front, back, minified, same⟩

/-- The two lines of `<pre>a\nb</pre>` become one. -/
theorem pre_lines_join :
    ∃ e : Protected, e.text = bytes "<pre>a\nb</pre>" ∧ e.content = bytes "a\nb" ∧ ¬ e.ContentKept [] [] := by
  refine ⟨⟨.pre, bytes "pre", bytes "a\nb", bytes "pre", by decide +kernel, by decide +kernel, by decide +kernel⟩,
    by decide +kernel, rfl, ?_⟩
  rintro ⟨front, back, kept, -⟩
  have minified : minifyhtml (bytes "<pre>a\nb</pre>") = bytes "<pre>ab</pre>" := by decide +kernel
  have no_line_end : 10 ∉ bytes "<pre>ab</pre>" := by decide +kernel
  have is_text : [] ++ (bytes "<" ++ bytes "pre" ++ 62 :: (bytes "a\nb" ++ 60 :: 47 :: (bytes "pre" ++ [62]))) ++ [] =
    bytes "<pre>a\nb</pre>" := by decide +kernel
  apply no_line_end
  rw [← minified, ← is_text]
  apply (congrArg (10 ∈ ·) kept).mpr
  have line_end : 10 ∈ bytes "a\nb" := by decide +kernel
  simp [line_end]

end Protected

end WorkerInformer.MinifyHtml
