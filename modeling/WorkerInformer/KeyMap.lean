import Mathlib.Data.List.Nodup

/-! Finite maps as association lists in insertion order, each key once: what a
JavaScript object's own data properties and a `std::map` have in common.
Writing a present key replaces its value in place; writing an absent one
appends it. Nothing in this file is about one program. -/
namespace WorkerInformer

/-- An association list with distinct keys. -/
structure KeyMap (κ α : Type*) where
  entries : List (κ × α)
  nodup : (entries.map Prod.fst).Nodup

namespace KeyMap
variable {κ α : Type*}

def empty : KeyMap κ α := ⟨[], List.nodup_nil⟩

def keys (m : KeyMap κ α) : List κ := m.entries.map Prod.fst

variable [DecidableEq κ]

def get? (m : KeyMap κ α) (key : κ) : Option α := m.entries.lookup key

/-- The entries after writing `value` under `key`. -/
def setEntries (key : κ) (value : α) : List (κ × α) → List (κ × α)
  | [] => [(key, value)]
  | e :: rest => if e.1 = key then (key, value) :: rest else e :: setEntries key value rest

theorem mem_keys_setEntries {key asked : κ} {value : α} {entries : List (κ × α)} :
    asked ∈ (setEntries key value entries).map Prod.fst ↔ asked = key ∨ asked ∈ entries.map Prod.fst := by
  induction entries with
  | nil => simp [setEntries]
  | cons e rest ih =>
    by_cases here : e.1 = key
    · simp only [setEntries, here, ↓reduceIte, List.map_cons, List.mem_cons]
      tauto
    · simp only [setEntries, here, ↓reduceIte, List.map_cons, List.mem_cons, ih]
      tauto

theorem setEntries_nodup (key : κ) (value : α) {entries : List (κ × α)}
    (nodup : (entries.map Prod.fst).Nodup) : ((setEntries key value entries).map Prod.fst).Nodup := by
  induction entries with
  | nil => simp [setEntries]
  | cons e rest ih =>
    obtain ⟨absent, tail⟩ := List.nodup_cons.mp nodup
    by_cases here : e.1 = key
    · subst here
      simpa [setEntries] using nodup
    · rw [setEntries, if_neg here, List.map_cons, List.nodup_cons, mem_keys_setEntries, not_or]
      exact ⟨⟨here, absent⟩, ih tail⟩

def set (m : KeyMap κ α) (key : κ) (value : α) : KeyMap κ α :=
  ⟨setEntries key value m.entries, setEntries_nodup key value m.nodup⟩

/-- Every value changed in place. -/
def mapValues {β : Type*} (f : α → β) (m : KeyMap κ α) : KeyMap κ β where
  entries := m.entries.map fun e => (e.1, f e.2)
  nodup := by
    rw [List.map_map]
    exact m.nodup

/-- Deleting a key. -/
def erase (m : KeyMap κ α) (key : κ) : KeyMap κ α :=
  ⟨m.entries.filter fun e => e.1 ≠ key, (List.filter_sublist.map Prod.fst).nodup m.nodup⟩

/-- Writing a list of entries in order. -/
def setAll (m : KeyMap κ α) (entries : List (κ × α)) : KeyMap κ α :=
  entries.foldl (fun m e => m.set e.1 e.2) m

@[simp] theorem get?_empty (key : κ) : (empty : KeyMap κ α).get? key = none := rfl

private theorem lookup_cons_eq (asked : κ) (e : κ × α) (rest : List (κ × α)) :
    (e :: rest).lookup asked = if asked = e.1 then some e.2 else rest.lookup asked := by
  rw [List.lookup_cons]
  by_cases same : asked = e.1
  · simp [same]
  · simp [same, beq_eq_false_iff_ne.mpr same]

@[simp] theorem get?_set (m : KeyMap κ α) (key asked : κ) (value : α) :
    (m.set key value).get? asked = if asked = key then some value else m.get? asked := by
  simp only [get?, set]
  induction m.entries with
  | nil => simp [setEntries, lookup_cons_eq]
  | cons e rest ih =>
    by_cases here : e.1 = key
    · subst here
      simp only [setEntries, ↓reduceIte, lookup_cons_eq]
      split <;> rfl
    · simp only [setEntries, here, ↓reduceIte, lookup_cons_eq, ih]
      by_cases head : asked = e.1
      · simp [head, here]
      · simp [head]

theorem get?_eq_some_iff {m : KeyMap κ α} {key : κ} {value : α} :
    m.get? key = some value ↔ (key, value) ∈ m.entries := by
  obtain ⟨entries, nodup⟩ := m
  simp only [get?]
  induction entries with
  | nil => simp
  | cons e rest ih =>
    obtain ⟨absent, tail⟩ := List.nodup_cons.mp nodup
    rw [lookup_cons_eq]
    by_cases here : key = e.1
    · subst here
      have later : (e.1, value) ∉ rest :=
        fun member => absent (List.mem_map.mpr ⟨_, member, rfl⟩)
      simp [later, Prod.ext_iff, eq_comm]
    · have other : (key, value) ≠ e := fun same => here (congrArg Prod.fst same)
      simpa [here, other] using ih tail

@[simp] theorem get?_mapValues {β : Type*} (f : α → β) (m : KeyMap κ α) (asked : κ) :
    (m.mapValues f).get? asked = (m.get? asked).map f := by
  simp only [get?, mapValues]
  induction m.entries with
  | nil => rfl
  | cons e rest ih =>
    rw [List.map_cons, lookup_cons_eq, lookup_cons_eq, ih]
    split <;> rfl

/-- A later map wins over an earlier one key by key. -/
theorem get?_setAll (m later : KeyMap κ α) (asked : κ) :
    (m.setAll later.entries).get? asked = (later.get? asked).or (m.get? asked) := by
  obtain ⟨entries, nodup⟩ := later
  simp only [setAll]
  induction entries generalizing m with
  | nil => simp [get?]
  | cons e rest ih =>
    obtain ⟨absent, tail⟩ := List.nodup_cons.mp nodup
    rw [List.foldl_cons, ih (m.set e.1 e.2) tail, get?_set]
    simp only [get?, lookup_cons_eq]
    by_cases here : asked = e.1
    · have gone : rest.lookup asked = none := by
        rw [List.lookup_eq_none_iff]
        intro p member
        have other : asked ≠ p.1 := by
          rintro rfl
          exact absent (here ▸ List.mem_map.mpr ⟨p, member, rfl⟩)
        exact bne_iff_ne.mpr other
      simp [here, here ▸ gone]
    · simp [here]

theorem setEntries_of_absent {key : κ} (value : α) {entries : List (κ × α)} (absent : key ∉ entries.map Prod.fst) :
    setEntries key value entries = entries ++ [(key, value)] := by
  induction entries with
  | nil => rfl
  | cons e rest ih =>
    obtain ⟨differs, later⟩ := List.ne_and_not_mem_of_not_mem_cons absent
    rw [setEntries, if_neg (Ne.symm differs), ih later, List.cons_append]

/-- Writing new keys appends them in their order. -/
theorem entries_setAll (m : KeyMap κ α) {entries : List (κ × α)}
    (fresh : (m.entries ++ entries |>.map Prod.fst).Nodup) : (m.setAll entries).entries = m.entries ++ entries := by
  induction entries generalizing m with
  | nil => simp [setAll]
  | cons e rest ih =>
    have absent : e.1 ∉ m.entries.map Prod.fst := by
      rw [List.map_append, List.map_cons] at fresh
      exact fun member => List.disjoint_of_nodup_append fresh member List.mem_cons_self
    have appended : (m.set e.1 e.2).entries = m.entries ++ [e] := setEntries_of_absent e.2 absent
    rw [setAll, List.foldl_cons]
    have := ih (m.set e.1 e.2) (by rw [appended]; simpa using fresh)
    rw [setAll] at this
    rw [this, appended, List.append_assoc, List.singleton_append]

theorem entries_setAll_empty (later : KeyMap κ α) : ((empty : KeyMap κ α).setAll later.entries).entries = later.entries :=
  entries_setAll empty later.nodup

end KeyMap

end WorkerInformer
