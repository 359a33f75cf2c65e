import WorkerInformer.Backtracking
import WorkerInformer.Bytes

/-! `Config::minifyhtml`: its two regular expressions as patterns, and what they
delete. The first deletes a run of white space that is not a single blank where
the next tag of a textarea or pre element, if there is one, opens the element;
the second deletes what is left of line ends, wherever it stands. -/
namespace WorkerInformer.MinifyHtml
open Bytes Backtracking

/-! ## The expressions -/

/-- A word byte of the C locale. -/
def isWordByte (b : UInt8) : Bool := isDigit b || (65 ≤ b && b ≤ 90) || (97 ≤ b && b ≤ 122) || b == 95

/-- `\b`. -/
def wordBoundary : Pattern UInt8 := .edge fun behind ahead => behind.any isWordByte != ahead.any isWordByte

/-- `\z`. -/
def endOfText : Pattern UInt8 := .edge fun _ ahead => ahead.isNone

/-- A lower-case word, in either case. -/
def literal (word : Bytes) : Pattern UInt8 := .word (word.map fun c b => toLower b == c)

/-- `textarea|pre`. -/
def elementName : Pattern UInt8 := .alt (literal (bytes "textarea")) (literal (bytes "pre"))

/-- `[^<]*+`. -/
def normal : Pattern UInt8 := .possessive (.one (· != 60))

/-- `<(?!/?(?:textarea|pre)\b)`. -/
def otherTag : Pattern UInt8 :=
  .seq (.one (· == 60)) (.notAhead (.seq (.optional (.one (· == 47))) (.seq elementName wordBoundary)))

/-- `<(?>textarea|pre)\b`. -/
def startTag : Pattern UInt8 := .seq (.one (· == 60)) (.seq (.atomic elementName) wordBoundary)

/-- What the look-ahead asks for. -/
def outside : Pattern UInt8 :=
  .seq normal (.seq (.possessive (.seq otherTag normal)) (.alt startTag endOfText))

/-- `(?>[^\S ]\s*|\s{2,})`. -/
def whitespaceRun : Pattern UInt8 :=
  .atomic (.alt (.seq (.one fun b => isspace b && b != 32) (.star (.one isspace)))
    (.seq (.one isspace) (.seq (.one isspace) (.star (.one isspace)))))

def nowhitespace : Pattern UInt8 := .seq whitespaceRun (.ahead outside)

/-- `\r?\n|\r|\n`. -/
def inLine : Pattern UInt8 :=
  .alt (.seq (.optional (.one (· == 13))) (.one (· == 10))) (.alt (.one (· == 13)) (.one (· == 10)))

def minifyhtml (s : Bytes) : Bytes := eraseAll inLine (eraseAll nowhitespace s)

/-! ## Tags -/

inductive Tag
  | opening
  | closing
  deriving DecidableEq

/-- The text begins with the word, in either case, and the word ends there. -/
def startsWord : Bytes → Bytes → Bool
  | [], rest => ! rest.head?.any isWordByte
  | _ :: _, [] => false
  | c :: word, b :: rest => toLower b == c && startsWord word rest

/-- The text begins with the name of a protected element. -/
def startsName (text : Bytes) : Bool := startsWord (bytes "textarea") text || startsWord (bytes "pre") text

/-- The tag of a protected element that a `<` before the text begins. -/
def tagAfter (text : Bytes) : Option Tag :=
  if startsName text then some .opening
  else match text with
    | 47 :: rest => if startsName rest then some .closing else none
    | _ => none

/-- The first tag of a protected element. -/
def nextTag : Bytes → Option Tag
  | [] => none
  | c :: rest => if c = 60 then (tagAfter rest).or (nextTag rest) else nextTag rest

/-- The text from that tag on. -/
def fromTag : Bytes → Bytes
  | [] => []
  | c :: rest => if c = 60 ∧ (tagAfter rest).isSome then c :: rest else fromTag rest

private theorem isEmpty_append (first second : List (Position UInt8)) :
    (first ++ second).isEmpty = (first.isEmpty && second.isEmpty) := by
  cases first <;> rfl

theorem isWordByte_toLower (b : UInt8) : isWordByte (toLower b) = isWordByte b := by
  revert b
  exact forall_byte (by decide +kernel)

theorem ends_literal_cons (c : UInt8) (word : Bytes) (behind : Option UInt8) (b : UInt8) (rest : Bytes) :
    ends (literal (c :: word)) ⟨behind, b :: rest⟩ =
      if toLower b == c then ends (literal word) ⟨some b, rest⟩ else [] := by
  simp only [literal, List.map_cons, Pattern.word, ends_seq, ends_one_cons]
  split <;> simp

/-- A word and the boundary behind it, for words of word bytes. -/
theorem ends_literal {word : Bytes} (wordBytes : word.all isWordByte = true) (p : Position UInt8)
    (inWord : word = [] → p.behind.any isWordByte = true) :
    ((ends (literal word) p).flatMap (ends wordBoundary)).isEmpty = ! startsWord word p.rest := by
  induction word generalizing p with
  | nil =>
    simp only [literal, List.map_nil, Pattern.word, ends_empty, List.flatMap_singleton, wordBoundary, ends_edge,
      inWord rfl, startsWord]
    cases p.rest.head?.any isWordByte <;> rfl
  | cons c word ih =>
    obtain ⟨behind, rest⟩ := p
    obtain ⟨first, later⟩ := Bool.and_eq_true_iff.mp wordBytes
    cases rest with
    | nil => rfl
    | cons b rest =>
      rw [ends_literal_cons, startsWord]
      by_cases same : toLower b == c
      · have word_byte : isWordByte b = true := by rwa [← isWordByte_toLower, beq_iff_eq.mp same]
        rw [if_pos same, same, Bool.true_and, ih later ⟨some b, rest⟩ fun _ => word_byte]
      · rw [if_neg same, Bool.eq_false_iff.mpr same]
        rfl

theorem literal_single (word : Bytes) (p : Position UInt8) : (ends (literal word) p).length ≤ 1 := by
  induction word generalizing p with
  | nil => simp [literal, Pattern.word]
  | cons c word ih =>
    obtain ⟨behind, _ | ⟨b, rest⟩⟩ := p
    · simp [literal, Pattern.word]
    · rw [ends_literal_cons]
      split
      · exact ih _
      · exact Nat.zero_le 1

theorem name_heads : bytes "textarea" = 116 :: bytes "extarea" ∧ bytes "pre" = 112 :: bytes "re" := by
  decide +kernel

/-- The two names do not begin alike, so the choice has one end at most. -/
theorem ends_elementName_atomic (p : Position UInt8) : ends (.atomic elementName) p = ends elementName p := by
  obtain ⟨behind, rest⟩ := p
  rw [ends_atomic]
  apply List.take_of_length_le
  rw [elementName, ends_alt, List.length_append]
  have longer := literal_single (bytes "textarea") ⟨behind, rest⟩
  have shorter := literal_single (bytes "pre") ⟨behind, rest⟩
  cases rest with
  | nil => simp [literal, name_heads, Pattern.word]
  | cons b rest =>
    rw [name_heads.1, name_heads.2, ends_literal_cons, ends_literal_cons] at *
    by_cases t : toLower b == 116
    · have not_p : ¬ (toLower b == 112) = true := by
        rw [beq_iff_eq.mp t]
        decide
      rw [if_neg not_p]
      exact longer
    · rw [if_neg t]
      simpa using shorter

theorem ends_elementName (p : Position UInt8) :
    (ends (.seq elementName wordBoundary) p).isEmpty = ! startsName p.rest := by
  have words : (bytes "textarea").all isWordByte = true ∧ bytes "textarea" ≠ [] ∧
      (bytes "pre").all isWordByte = true ∧ bytes "pre" ≠ [] := by decide +kernel
  have textarea := ends_literal words.1 p fun empty => absurd empty words.2.1
  have pre := ends_literal words.2.2.1 p fun empty => absurd empty words.2.2.2
  rw [ends_seq, elementName, ends_alt, List.flatMap_append, isEmpty_append, textarea, pre, startsName, Bool.not_or]

theorem tagAfter_cons (c : UInt8) (rest : Bytes) :
    tagAfter (c :: rest) =
      if startsName (c :: rest) then some .opening
      else if c = 47 ∧ startsName rest then some .closing else none := by
  by_cases slash : c = 47
  · subst slash
    simp [tagAfter]
  · simp [tagAfter, slash]

theorem opening_of_name {rest : Bytes} (starts : startsName rest = true) : tagAfter rest = some .opening := by
  cases rest with
  | nil => cases starts
  | cons c rest => rw [tagAfter_cons, if_pos starts]

theorem closing_of_tag {rest : Bytes} (tag : (tagAfter rest).isSome) (starts : startsName rest = false) :
    tagAfter rest = some .closing := by
  cases rest with
  | nil => cases tag
  | cons c rest =>
    rw [tagAfter_cons, if_neg (Bool.eq_false_iff.mp starts)] at tag ⊢
    split at tag
    · rename_i closes
      exact if_pos closes
    · cases tag

theorem ends_angle (behind : Option UInt8) (rest : Bytes) :
    ends (.one (· == 60)) ⟨behind, 60 :: rest⟩ = [⟨some (60 : UInt8), rest⟩] := rfl

/-- A `<` is passed over unless it begins a tag of a protected element. -/
theorem ends_otherTag (behind : Option UInt8) (rest : Bytes) :
    ends otherTag ⟨behind, 60 :: rest⟩ = if (tagAfter rest).isSome then [] else [⟨some 60, rest⟩] := by
  have blocked : (ends (.seq (.optional (.one (· == 47))) (.seq elementName wordBoundary)) ⟨some 60, rest⟩).isEmpty =
      (tagAfter rest).isNone := by
    rw [ends_seq, ends_optional, List.flatMap_append, isEmpty_append, List.flatMap_singleton, ends_elementName]
    cases rest with
    | nil => rfl
    | cons c rest =>
      rw [ends_one_cons, tagAfter_cons]
      by_cases slash : c = 47
      · rw [if_pos (beq_iff_eq.mpr slash), List.flatMap_singleton, ends_elementName]
        cases startsName rest <;> cases startsName (c :: rest) <;> simp [slash]
      · rw [if_neg (mt beq_iff_eq.mp slash)]
        cases startsName (c :: rest) <;> simp [slash]
  rw [otherTag, ends_seq, ends_angle, List.flatMap_singleton, ends_notAhead, blocked]
  cases tagAfter rest <;> rfl

theorem ends_startTag (behind : Option UInt8) (rest : Bytes) :
    (ends startTag ⟨behind, 60 :: rest⟩).isEmpty = ! startsName rest := by
  rw [startTag, ends_seq, ends_angle, List.flatMap_singleton, ends_seq, ends_elementName_atomic, ← ends_seq,
    ends_elementName]

theorem fromTag_dropWhile (text : Bytes) : fromTag (text.dropWhile (· != 60)) = fromTag text := by
  induction text with
  | nil => rfl
  | cons c rest ih =>
    by_cases angle : c = 60
    · rw [List.dropWhile_cons_of_neg (by simp [angle])]
    · rw [List.dropWhile_cons_of_pos (by simp [angle]), ih, fromTag, if_neg fun here => angle here.1]

/-- What a text goes on with behind all but angle brackets. -/
theorem dropWhile_cases (text : Bytes) :
    text.dropWhile (· != 60) = [] ∨
      ∃ rest, text.dropWhile (· != 60) = 60 :: rest ∧ rest.length < text.length := by
  have shorter := (List.dropWhile_suffix (· != (60 : UInt8)) (l := text)).length_le
  have stops := List.head?_dropWhile_not (· != (60 : UInt8)) text
  cases is_rest : text.dropWhile (· != 60) with
  | nil => exact .inl rfl
  | cons c rest =>
    rw [is_rest] at stops shorter
    have angle : c = 60 := by simpa using stops
    exact .inr ⟨rest, by rw [angle], shorter⟩

theorem ends_normal (behind : Option UInt8) (text : Bytes) :
    ∃ last, ends normal ⟨behind, text⟩ = [⟨last, text.dropWhile (· != 60)⟩] := ends_possessive_one _ ⟨behind, text⟩

/-- The loop over the other tags ends at the first tag of a protected element. -/
theorem ends_otherTags (behind : Option UInt8) (text : Bytes) :
    ∃ last, (ends normal ⟨behind, text⟩).flatMap (ends (.possessive (.seq otherTag normal))) =
      [⟨last, fromTag text⟩] := by
  induction length : text.length using Nat.strong_induction_on generalizing behind text with
  | _ length ih =>
  subst length
  obtain ⟨before, is_normal⟩ := ends_normal behind text
  rw [is_normal, List.flatMap_singleton, ← fromTag_dropWhile]
  rcases dropWhile_cases text with is_rest | ⟨rest, is_rest, shorter⟩
  · exact ⟨before, by rw [is_rest]; exact ends_possessive_stuck rfl⟩
  · rw [is_rest, fromTag]
    by_cases tag : (tagAfter rest).isSome
    · refine ⟨before, ?_⟩
      rw [if_pos ⟨rfl, tag⟩]
      exact ends_possessive_stuck (by rw [ends_seq, ends_otherTag, if_pos tag]; rfl)
    · obtain ⟨last, later⟩ := ih rest.length shorter (some 60) rest rfl
      obtain ⟨next, is_next⟩ := ends_normal (some 60) rest
      have step : ends (.seq otherTag normal) ⟨before, 60 :: rest⟩ = [⟨next, rest.dropWhile (· != 60)⟩] := by
        rw [ends_seq, ends_otherTag, if_neg tag, List.flatMap_singleton, is_next]
      have reads : (rest.dropWhile (· != 60)).length < (60 :: rest).length :=
        Nat.lt_succ_of_le (List.dropWhile_suffix _).length_le
      refine ⟨last, ?_⟩
      rw [is_next, List.flatMap_singleton] at later
      rw [if_neg fun here => tag here.2, ends_possessive_step step reads, later]

theorem fromTag_cases (text : Bytes) :
    fromTag text = [] ∨ ∃ rest, fromTag text = 60 :: rest ∧ (tagAfter rest).isSome := by
  induction text with
  | nil => exact .inl rfl
  | cons c rest ih =>
    rw [fromTag]
    split
    · rename_i here
      exact .inr ⟨rest, by rw [here.1], here.2⟩
    · exact ih

theorem nextTag_eq (text : Bytes) : nextTag text = (fromTag text).tail?.bind tagAfter := by
  induction text with
  | nil => rfl
  | cons c rest ih =>
    rw [nextTag, fromTag]
    by_cases angle : c = 60
    · cases tag : tagAfter rest with
      | none => simp [angle, ih]
      | some t => simp [angle, tag]
    · simp [angle, ih]

/-- **Where the look-ahead succeeds.** Exactly where the next tag of a protected
element is not a closing one. -/
theorem ends_outside (p : Position UInt8) :
    (ends outside p).isEmpty = (nextTag p.rest == some .closing) := by
  obtain ⟨behind, text⟩ := p
  obtain ⟨last, other_tags⟩ := ends_otherTags behind text
  have whole : ends outside ⟨behind, text⟩ = ends (.alt startTag endOfText) ⟨last, fromTag text⟩ := by
    rw [outside, ends_seq]
    show (ends normal ⟨behind, text⟩).flatMap
      (fun q => (ends (.possessive (.seq otherTag normal)) q).flatMap (ends (.alt startTag endOfText))) = _
    rw [← List.flatMap_assoc, other_tags, List.flatMap_singleton]
  rw [whole, nextTag_eq, ends_alt, isEmpty_append]
  rcases fromTag_cases text with at_end | ⟨rest, at_tag, tag⟩
  · rw [at_end]
    rfl
  · rw [at_tag, ends_startTag]
    have not_at_end : (ends endOfText ⟨last, 60 :: rest⟩).isEmpty = true := rfl
    rw [not_at_end, List.tail?_cons, Option.bind_some, Bool.and_true]
    cases starts : startsName rest with
    | true => rw [opening_of_name starts]; rfl
    | false => rw [closing_of_tag tag starts]; rfl

/-! ## Runs of white space -/

/-- The text does not go on with white space. -/
def AtLetter (text : Bytes) : Prop := ∀ c rest, text = c :: rest → isspace c = false

/-- A run that the first expression leaves: a single blank, or a run inside a
protected element. -/
def Kept (gap after : Bytes) : Prop := gap = [32] ∨ nextTag after = some .closing

instance (gap after : Bytes) : Decidable (Kept gap after) := inferInstanceAs (Decidable (_ ∨ _))

theorem dropWhile_gap {gap after : Bytes} (blank : gap.all isspace = true) (letter : AtLetter after) :
    (gap ++ after).dropWhile isspace = after := by
  rw [List.dropWhile_append_of_pos (List.all_eq_true.mp blank)]
  cases after with
  | nil => rfl
  | cons c rest => rw [List.dropWhile_cons_of_neg (by simp [letter c rest rfl])]

/-- What `\s*` reads to the end of a run. -/
theorem ends_spaces (behind : Option UInt8) (text : Bytes) :
    ∃ last, ends (.atomic (.star (.one isspace))) ⟨behind, text⟩ = [⟨last, text.dropWhile isspace⟩] :=
  ends_possessive_one isspace ⟨behind, text⟩

/-- The run is read whole, unless it is a single blank. -/
theorem ends_whitespaceRun (behind : Option UInt8) {c : UInt8} {gap after : Bytes}
    (blank : (c :: gap).all isspace = true) (letter : AtLetter after) :
    (c :: gap = [32] ∧ ends whitespaceRun ⟨behind, c :: (gap ++ after)⟩ = []) ∨
      (c :: gap ≠ [32] ∧ ∃ last, ends whitespaceRun ⟨behind, c :: (gap ++ after)⟩ = [⟨last, after⟩]) := by
  obtain ⟨first, later⟩ := Bool.and_eq_true_iff.mp blank
  obtain ⟨last, spaces⟩ := ends_spaces (some c) (gap ++ after)
  rw [dropWhile_gap later letter] at spaces
  rw [whitespaceRun, ends_atomic_alt]
  by_cases is_blank : c = 32
  · subst is_blank
    have no_first : ends (.seq (.one fun b => isspace b && b != 32) (.star (.one isspace)))
        ⟨behind, 32 :: (gap ++ after)⟩ = [] := rfl
    rw [if_pos no_first, ends_atomic_seq_one, if_pos first]
    cases gap with
    | nil =>
      refine .inl ⟨rfl, ?_⟩
      cases after with
      | nil => rfl
      | cons d rest => rw [List.nil_append, ends_atomic_seq_one, letter d rest rfl]; rfl
    | cons d gap =>
      obtain ⟨second, others⟩ := Bool.and_eq_true_iff.mp later
      obtain ⟨last, spaces⟩ := ends_spaces (some d) (gap ++ after)
      refine .inr ⟨by simp, last, ?_⟩
      rw [List.cons_append, ends_atomic_seq_one, if_pos second, spaces, dropWhile_gap others letter]
  · have some_first : ends (.seq (.one fun b => isspace b && b != 32) (.star (.one isspace)))
        ⟨behind, c :: (gap ++ after)⟩ ≠ [] := by
      rw [ends_seq, ends_one_cons, if_pos (by simp [first, is_blank]), List.flatMap_singleton]
      exact iterate_ne_nil _ _ _
    refine .inr ⟨fun same => is_blank (List.cons.inj same).1, last, ?_⟩
    rw [if_neg some_first, ends_atomic_seq_one, if_pos (by simp [first, is_blank]), spaces]

/-- The first expression matches a run exactly when it is not to be kept. -/
theorem ends_nowhitespace (behind : Option UInt8) {c : UInt8} {gap after : Bytes}
    (blank : (c :: gap).all isspace = true) (letter : AtLetter after) :
    (Kept (c :: gap) after ∧ ends nowhitespace ⟨behind, c :: (gap ++ after)⟩ = []) ∨
      (¬ Kept (c :: gap) after ∧ ∃ last, ends nowhitespace ⟨behind, c :: (gap ++ after)⟩ = [⟨last, after⟩]) := by
  rw [nowhitespace, ends_seq]
  rcases ends_whitespaceRun behind blank letter with ⟨single, stuck⟩ | ⟨run, last, read⟩
  · exact .inl ⟨.inl single, by rw [stuck]; rfl⟩
  · rw [read, List.flatMap_singleton, ends_ahead, ends_outside]
    by_cases closing : nextTag after = some .closing
    · exact .inl ⟨.inr closing, by simp [closing]⟩
    · exact .inr ⟨fun kept => kept.elim run closing, last, by simp [closing]⟩

/-- Where a letter stands, neither branch of the first expression begins. -/
theorem ends_nowhitespace_letter (behind : Option UInt8) {c : UInt8} (letter : isspace c = false) (rest : Bytes) :
    ends nowhitespace ⟨behind, c :: rest⟩ = [] := by
  have stuck : ends whitespaceRun ⟨behind, c :: rest⟩ = [] := by
    rw [whitespaceRun, ends_atomic, ends_alt, ends_seq, ends_seq, ends_one_cons, ends_one_cons, letter]
    rfl
  rw [nowhitespace, ends_seq, stuck]
  rfl

/-- What the first expression leaves of a text. -/
def squeeze (text : Bytes) : Bytes := eraseAll nowhitespace text

theorem erase_nowhitespace (behind : Option UInt8) (text : Bytes) :
    erase nowhitespace ⟨behind, text⟩ = squeeze text := by
  cases text with
  | nil => rfl
  | cons c rest =>
    have same : ends nowhitespace ⟨behind, c :: rest⟩ = ends nowhitespace ⟨none, c :: rest⟩ := rfl
    rw [squeeze, eraseAll, erase, erase]
    simp only [List.length_cons, eraseFrom, same]

theorem squeeze_letter {c : UInt8} (letter : isspace c = false) (rest : Bytes) :
    squeeze (c :: rest) = c :: squeeze rest := by
  rw [squeeze, eraseAll, erase_skip (ends_nowhitespace_letter none letter rest), erase_nowhitespace]

/-- A run is kept whole or deleted whole. -/
theorem squeeze_gap {gap after : Bytes} (blank : gap.all isspace = true) (letter : AtLetter after) :
    squeeze (gap ++ after) = (if Kept gap after then gap else []) ++ squeeze after := by
  induction gap with
  | nil => split <;> rfl
  | cons c gap ih =>
    rw [squeeze, eraseAll, List.cons_append]
    rcases ends_nowhitespace none blank letter with ⟨kept, stuck⟩ | ⟨run, last, read⟩
    · rw [erase_skip stuck, erase_nowhitespace, if_pos kept]
      rcases kept with single | closing
      · obtain ⟨rfl, rfl⟩ := List.cons.inj single
        rfl
      · -- the rest of the run ends before the same tag
        rw [ih (Bool.and_eq_true_iff.mp blank).2, if_pos (.inr closing), List.cons_append]
    · rw [erase_match read (by simp only [List.length_cons, List.length_append]; omega), erase_nowhitespace,
        if_neg run, List.nil_append]

/-! ## Line ends -/

/-- A byte of a line end. -/
def isLineEnd (b : UInt8) : Bool := b == 13 || b == 10

theorem erase_inLine (behind : Option UInt8) (text : Bytes) :
    erase inLine ⟨behind, text⟩ = text.filter fun b => ! isLineEnd b := by
  induction length : text.length using Nat.strong_induction_on generalizing behind text with
  | _ length ih =>
  subst length
  cases text with
  | nil => rfl
  | cons c rest =>
    have later := ih rest.length (Nat.lt_succ_self _) (some c) rest rfl
    by_cases cr : c = 13
    · subst cr
      cases rest with
      | nil => rfl
      | cons d rest =>
        by_cases lf : d = 10
        · subst lf
          have both : ends inLine ⟨behind, 13 :: 10 :: rest⟩ = [⟨some 10, rest⟩, ⟨some 13, 10 :: rest⟩] := rfl
          have shorter : rest.length < (13 :: 10 :: rest : Bytes).length := by simp only [List.length_cons]; omega
          rw [erase_match both shorter, ih rest.length shorter _ rest rfl]
          rfl
        · have alone : ends inLine ⟨behind, 13 :: d :: rest⟩ = [⟨some 13, d :: rest⟩] := by simp [inLine, lf]
          rw [erase_match alone (Nat.lt_succ_self _), later]
          rfl
    · by_cases lf : c = 10
      · subst lf
        have alone : ends inLine ⟨behind, 10 :: rest⟩ = [⟨some 10, rest⟩, ⟨some 10, rest⟩] := rfl
        rw [erase_match alone (Nat.lt_succ_self _), later]
        rfl
      · have stuck : ends inLine ⟨behind, c :: rest⟩ = [] := by simp [inLine, cr, lf]
        rw [erase_skip stuck, later, List.filter_cons_of_pos (by simp [isLineEnd, cr, lf])]

/-- **What `minifyhtml` does.** -/
theorem minifyhtml_eq (s : Bytes) : minifyhtml s = (squeeze s).filter fun b => ! isLineEnd b :=
  erase_inLine none (squeeze s)

end WorkerInformer.MinifyHtml
