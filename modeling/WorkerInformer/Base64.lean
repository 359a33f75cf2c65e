import Mathlib.Data.List.GetD
import Mathlib.Data.List.Nodup

/-! Base64 apart from its alphabets and from any code: three octets are four
sextets, and a tail of one or two octets is two or three sextets and padding.
A coder for some alphabet is right when it writes the sextets of its input, and
a decoder when it reads such sextets back as octets. Nothing in this file is
about one program. -/
namespace WorkerInformer.Base64

/-- The sextets of these octets; nothing stands for padding. -/
def sextets : List Nat → List (Option Nat)
  | a :: b :: c :: rest =>
    some (a / 4) :: some (a % 4 * 16 + b / 16) :: some (b % 16 * 4 + c / 64) :: some (c % 64) :: sextets rest
  | [a, b] => [some (a / 4), some (a % 4 * 16 + b / 16), some (b % 16 * 4), none]
  | [a] => [some (a / 4), some (a % 4 * 16), none, none]
  | [] => []

/-- The octets these sextets stand for. -/
def octets : List (Option Nat) → List Nat
  | some s :: some o :: some u :: some a :: rest =>
    (s * 4 + o / 16) :: (o % 16 * 16 + u / 4) :: (u % 4 * 64 + a) :: octets rest
  | [some s, some o, some u, none] => [s * 4 + o / 16, o % 16 * 16 + u / 4]
  | [some s, some o, none, none] => [s * 4 + o / 16]
  | _ => []

/-- Groups of four sextets, the last of them perhaps padded. -/
inductive Coded : List (Option Nat) → Prop
  | nil : Coded []
  | one {s o : Nat} : s < 64 → o < 64 → Coded [some s, some o, none, none]
  | two {s o u : Nat} : s < 64 → o < 64 → u < 64 → Coded [some s, some o, some u, none]
  | group {s o u a : Nat} {rest : List (Option Nat)} : s < 64 → o < 64 → u < 64 → a < 64 → Coded rest →
    Coded (some s :: some o :: some u :: some a :: rest)

/-- Induction on a text by groups of three. -/
theorem threes {α : Type*} {motive : List α → Prop} (nil : motive []) (one : ∀ a, motive [a])
    (two : ∀ a b, motive [a, b]) (group : ∀ a b c rest, motive rest → motive (a :: b :: c :: rest)) :
    ∀ text, motive text
  | [] => nil
  | [a] => one a
  | [a, b] => two a b
  | a :: b :: c :: rest => group a b c rest (threes nil one two group rest)

section Sextets
variable {input : List Nat}

/-- What the coder writes is coded. -/
theorem sextets_coded (small : ∀ octet ∈ input, octet < 256) : Coded (sextets input) := by
  fun_induction sextets input with
  | case1 a b c rest ih =>
    simp only [List.forall_mem_cons] at small
    obtain ⟨a_small, b_small, c_small, rest_small⟩ := small
    exact .group (by omega) (by omega) (by omega) (by omega) (ih rest_small)
  | case2 a b =>
    simp only [List.forall_mem_cons] at small
    exact .two (by omega) (by omega) (by omega)
  | case3 a =>
    simp only [List.forall_mem_cons] at small
    exact .one (by omega) (by omega)
  | case4 => exact .nil

/-- **Octets come back from their sextets.** -/
theorem octets_sextets (small : ∀ octet ∈ input, octet < 256) : octets (sextets input) = input := by
  fun_induction sextets input with
  | case1 a b c rest ih =>
    simp only [List.forall_mem_cons] at small
    obtain ⟨a_small, b_small, c_small, rest_small⟩ := small
    have first : a / 4 * 4 + (a % 4 * 16 + b / 16) / 16 = a := by omega
    have second : (a % 4 * 16 + b / 16) % 16 * 16 + (b % 16 * 4 + c / 64) / 4 = b := by omega
    have third : (b % 16 * 4 + c / 64) % 4 * 64 + c % 64 = c := by omega
    rw [octets, first, second, third, ih rest_small]
  | case2 a b =>
    simp only [List.forall_mem_cons] at small
    have first : a / 4 * 4 + (a % 4 * 16 + b / 16) / 16 = a := by omega
    have second : (a % 4 * 16 + b / 16) % 16 * 16 + b % 16 * 4 / 4 = b := by omega
    rw [octets, first, second]
  | case3 a =>
    have first : a / 4 * 4 + a % 4 * 16 / 16 = a := by omega
    rw [octets, first]
  | case4 => rfl

theorem length_sextets (input : List Nat) : (sextets input).length = 4 * ((input.length + 2) / 3) := by
  fun_induction sextets input with
  | case1 a b c rest ih =>
    simp only [List.length_cons, ih]
    omega
  | case2 a b => simp
  | case3 a => simp
  | case4 => rfl

end Sextets

/-- Coded groups are sextets and then at most two places of padding. -/
theorem Coded.shape {coded : List (Option Nat)} (isCoded : Coded coded) :
    4 ∣ coded.length ∧ ∃ (body : List Nat) (padding : Nat), coded = body.map some ++ List.replicate padding none ∧
      padding ≤ 2 ∧ ∀ sextet ∈ body, sextet < 64 := by
  induction isCoded with
  | nil => exact ⟨by simp, [], 0, rfl, by omega, by simp⟩
  | @one s o s_small o_small => exact ⟨by simp, [s, o], 2, rfl, by omega, by simp [s_small, o_small]⟩
  | @two s o u s_small o_small u_small =>
    exact ⟨by simp, [s, o, u], 1, rfl, by omega, by simp [s_small, o_small, u_small]⟩
  | @group s o u a rest s_small o_small u_small a_small _ ih =>
    obtain ⟨whole, body, padding, rfl, few, small⟩ := ih
    refine ⟨?_, s :: o :: u :: a :: body, padding, rfl, few, ?_⟩
    · simpa only [List.length_cons, Nat.add_assoc] using Nat.dvd_add whole (Nat.dvd_refl 4)
    · simpa [s_small, o_small, u_small, a_small] using small

/-! ## Alphabets -/

section Alphabets
variable {Letter : Type*} (alphabet : List Letter)

/-- The letter at this index, and for no index the sign of padding. -/
def letter (pad : Letter) : Option Nat → Letter
  | some sextet => alphabet.getD sextet pad
  | none => pad

variable {alphabet} {pad : Letter} {sextet : Nat}

theorem letter_mem (inside : sextet < alphabet.length) : letter alphabet pad (some sextet) ∈ alphabet := by
  rw [letter, List.getD_eq_getElem _ _ inside]
  exact List.getElem_mem inside

/-- An alphabet without repetitions gives the index back. -/
theorem idxOf_letter [BEq Letter] [LawfulBEq Letter] (distinct : alphabet.Nodup) (inside : sextet < alphabet.length) :
    alphabet.idxOf (letter alphabet pad (some sextet)) = sextet := by
  rw [letter, List.getD_eq_getElem _ _ inside]
  exact distinct.idxOf_getElem _ _

theorem idxOf?_letter [BEq Letter] [LawfulBEq Letter] (distinct : alphabet.Nodup) (inside : sextet < alphabet.length) :
    alphabet.idxOf? (letter alphabet pad (some sextet)) = some sextet := by
  rw [letter, List.getD_eq_getElem _ _ inside, List.idxOf?_eq_some_iff]
  refine ⟨inside, rfl, ?_⟩
  intro earlier before same
  exact absurd ((distinct.getElem_inj_iff).mp same) (Nat.ne_of_lt before)

end Alphabets

end WorkerInformer.Base64
