import Mathlib.Data.List.Nodup
import Mathlib.Tactic.Tauto

/-! Lists of texts as scripts handle them: joined by a separator, split at a
character, and with later repetitions dropped. Nothing in this file is about one
program. -/
namespace WorkerInformer.Texts

/-- The parts with the separator between them. -/
def joinTexts (separator : String) (parts : List String) : String :=
  String.ofList (separator.toList.intercalate (parts.map String.toList))

/-- The parts of a text between the occurrences of a character. -/
def splitAt (separator : Char) (text : String) : List String :=
  (text.toList.splitOn separator).map String.ofList

/-- The texts that are neither among `seen` nor repetitions of an earlier one. -/
def uniqueFrom (seen : List String) : List String → List String
  | [] => []
  | text :: rest => if text ∈ seen then uniqueFrom seen rest else text :: uniqueFrom (text :: seen) rest

section Unique
variable {seen texts more : List String} {text : String}

theorem mem_uniqueFrom : text ∈ uniqueFrom seen texts ↔ text ∈ texts ∧ text ∉ seen := by
  induction texts generalizing seen with
  | nil => simp [uniqueFrom]
  | cons first rest ih =>
    rw [uniqueFrom]
    split
    · rename_i known
      rw [ih, List.mem_cons]
      constructor
      · exact fun member => ⟨.inr member.1, member.2⟩
      · rintro ⟨rfl | later, new⟩
        · exact absurd known new
        · exact ⟨later, new⟩
    · rename_i unknown
      rw [List.mem_cons, ih, List.mem_cons, List.mem_cons]
      by_cases same : text = first
      · simp [same, unknown]
      · simp [same]

theorem nodup_uniqueFrom (seen texts : List String) : (uniqueFrom seen texts).Nodup := by
  induction texts generalizing seen with
  | nil => exact List.nodup_nil
  | cons first rest ih =>
    rw [uniqueFrom]
    split
    · exact ih seen
    · refine List.nodup_cons.mpr ⟨fun member => ?_, ih _⟩
      exact (mem_uniqueFrom.mp member).2 List.mem_cons_self

theorem uniqueFrom_append (seen texts more : List String) :
    uniqueFrom seen (texts ++ more) =
      uniqueFrom seen texts ++ uniqueFrom ((uniqueFrom seen texts).reverse ++ seen) more := by
  induction texts generalizing seen with
  | nil => rfl
  | cons first rest ih =>
    rw [List.cons_append, uniqueFrom, uniqueFrom]
    split
    · exact ih seen
    · rw [ih (first :: seen), List.cons_append, List.reverse_cons, List.append_assoc, List.singleton_append]

end Unique

section Join
variable {separator : String}

theorem joinTexts_append {texts more : List String} (some_texts : texts ≠ []) (some_more : more ≠ []) :
    joinTexts separator (texts ++ more) = joinTexts separator texts ++ separator ++ joinTexts separator more := by
  apply String.toList_inj.mp
  simp only [joinTexts, String.toList_append, String.toList_ofList]
  induction texts with
  | nil => exact absurd rfl some_texts
  | cons first rest ih =>
    cases rest with
    | nil =>
      rw [List.singleton_append, List.map_cons, List.intercalate_cons_of_ne_nil (by simpa using some_more)]
      simp
    | cons second rest =>
      have later := ih (List.cons_ne_nil _ _)
      simp only [List.cons_append, List.map_cons, List.intercalate_cons_cons, List.append_assoc] at later ⊢
      rw [later]

theorem joinTexts_eq_empty_iff (separated : separator ≠ "") (texts : List String) :
    joinTexts separator texts = "" ↔ texts = [] ∨ texts = [""] := by
  have some_separator : separator.toList ≠ [] := by simpa [String.toList_eq_nil_iff] using separated
  rw [← String.toList_eq_nil_iff, joinTexts, String.toList_ofList]
  match texts with
  | [] => simp
  | [text] => simp [String.toList_eq_nil_iff]
  | first :: second :: rest => simp [some_separator]

/-- Appended texts show in the joined text, unless a single empty text is all
there is. -/
theorem joinTexts_append_eq_iff (separator : String) (separated : separator ≠ "") (texts more : List String) :
    joinTexts separator (texts ++ more) = joinTexts separator texts ↔ more = [] ∨ texts = [] ∧ more = [""] := by
  have some_separator : separator.toList ≠ [] := by simpa [String.toList_eq_nil_iff] using separated
  by_cases no_more : more = []
  · simp [no_more]
  · by_cases no_texts : texts = []
    · subst no_texts
      have shown := joinTexts_eq_empty_iff separated more
      simpa [no_more, joinTexts] using shown
    · rw [joinTexts_append no_texts no_more]
      refine iff_of_false (fun same => ?_) (by simp [no_more, no_texts])
      have length := congrArg (fun text => text.toList.length) same
      simp only [String.toList_append, List.length_append] at length
      have := List.length_pos_of_ne_nil some_separator
      omega

/-- Joined texts without the separator are split again. -/
theorem splitAt_joinTexts {c : Char} {texts : List String} (free : ∀ text ∈ texts, c ∉ text.toList)
    (some_texts : texts ≠ []) : splitAt c (joinTexts (String.singleton c) texts) = texts := by
  have parts : ∀ part ∈ texts.map String.toList, c ∉ part := by simpa using free
  rw [splitAt, joinTexts, String.toList_ofList, String.toList_singleton,
    List.splitOn_intercalate c parts (by simpa using some_texts), List.map_map]
  simp

end Join

end WorkerInformer.Texts
