import Mathlib.Data.List.Induction
import WorkerInformer.HistoryCalls
import WorkerInformer.Runs

/-! `template/storage.js`: a history that is saved and then loaded into a new
`UserHistory`. Every store has a load of its own, and for each the content it
gives back is compared with the content that was saved. The load of a queue takes
an empty entry for a missing second argument and stores the position in its place;
the other stores lose what a JSON text cannot say, a number that is not finite and
`undefined`. -/
namespace WorkerInformer.UserHistory
open Runs

/-! ## Queues -/

namespace FixedQueue

/-- An entry `load` does not take for a value. -/
def Falsy (entry : Option String) : Prop := entry.getD "" = ""

instance (entry : Option String) : Decidable (Falsy entry) := inferInstanceAs (Decidable (_ = _))

/-- The items after one `load`, without trimming. -/
def place (items : List (Option String)) (index : Nat) (entry : Option String) : List (Option String) :=
  if Falsy entry then pushNew items (toString index) else setAt items index (entry.getD "")

/-- The items after loading a stored array into an empty queue. -/
def reload (stored : List (Option String)) : List (Option String) :=
  stored.zipIdx.foldl (fun items e => place items e.2 e.1) []

/-- Items with holes up to a length. -/
def padded (length : Nat) (items : List (Option String)) : List (Option String) :=
  items ++ List.replicate (length - items.length) none

/-- A falsy entry is a hole, and the queue holds its position as an entry
before it: only then does `load` not store the position. -/
def HolesPass (stored : List (Option String)) : Prop :=
  ∀ index entry, stored[index]? = some entry → Falsy entry →
    entry = none ∧ some (toString index) ∈ stored.take index

/-- What a queue must hold for a reload to give it back. -/
def Reloads (stored : List (Option String)) : Prop :=
  HolesPass stored ∧ ∀ entry, stored.getLast? = some entry → ¬ Falsy entry

@[simp] theorem reload_snoc (stored : List (Option String)) (entry : Option String) :
    reload (stored ++ [entry]) = place (reload stored) stored.length entry := by
  simp [reload, List.zipIdx_append]

theorem toString_truthy (index : Nat) : ¬ Falsy (some (toString index)) := Nat.repr_ne_empty

theorem setAt_eq_padded (items : List (Option String)) {index : Nat} (short : items.length ≤ index)
    (value : String) : setAt items index value = padded index items ++ [some value] := by
  have split : index + 1 - items.length = (index - items.length) + 1 := by omega
  rw [setAt, split, List.replicate_succ', ← List.append_assoc]
  have length : (items ++ List.replicate (index - items.length) (none : Option String)).length = index := by
    simp
    omega
  rw [List.set_append_right _ _ (by omega), length]
  simp [padded]

/-- An entry of a longer list is one of the list or the last. -/
theorem getElem?_snoc_cases {stored : List (Option String)} {entry old : Option String} {index : Nat}
    (found : (stored ++ [entry])[index]? = some old) :
    index < stored.length ∧ stored[index]? = some old ∨ index = stored.length ∧ old = entry := by
  by_cases inside : index < stored.length
  · rw [List.getElem?_append_left inside] at found
    exact .inl ⟨inside, found⟩
  · have bound := (List.getElem?_eq_some_iff.mp found).1
    rw [List.length_append, List.length_singleton] at bound
    obtain rfl : index = stored.length := by omega
    rw [List.getElem?_concat_length, Option.some.injEq] at found
    exact .inr ⟨rfl, found.symm⟩

theorem holesPass_snoc {stored : List (Option String)} {entry : Option String} :
    HolesPass (stored ++ [entry]) ↔
      HolesPass stored ∧ (Falsy entry → entry = none ∧ some (toString stored.length) ∈ stored) := by
  constructor
  · intro pass
    constructor
    · intro index old found falsy
      have inside := (List.getElem?_eq_some_iff.mp found).1
      have here := pass index old (by rw [List.getElem?_append_left inside, found]) falsy
      rwa [List.take_append_of_le_length inside.le] at here
    · intro falsy
      simpa using pass stored.length entry (by simp) falsy
  · rintro ⟨pass, last⟩ index old found falsy
    rcases getElem?_snoc_cases found with ⟨inside, found⟩ | ⟨rfl, rfl⟩
    · rw [List.take_append_of_le_length inside.le]
      exact pass index old found falsy
    · simpa using last falsy

theorem mem_padded (length : Nat) {items : List (Option String)} {text : String} :
    some text ∈ padded length items ↔ some text ∈ items := by
  simp [padded]

/-- What the loads so far have made of the entries so far. -/
structure Reloading (stored items : List (Option String)) : Prop where
  short : items.length ≤ stored.length
  dropped : ∀ index entry, items.length ≤ index → stored[index]? = some entry → Falsy entry
  exact_iff : HolesPass stored ↔ padded stored.length items = stored

theorem Reloading.dropped_snoc {stored items : List (Option String)} (inv : Reloading stored items)
    {entry old : Option String} (falsy : Falsy entry) {index : Nat} (beyond : items.length ≤ index)
    (found : (stored ++ [entry])[index]? = some old) : Falsy old := by
  rcases getElem?_snoc_cases found with ⟨-, found⟩ | ⟨-, rfl⟩
  · exact inv.dropped index old beyond found
  · exact falsy

private theorem reloading_truthy {stored items : List (Option String)} (inv : Reloading stored items)
    {entry : Option String} (truthy : ¬ Falsy entry) :
    Reloading (stored ++ [entry]) (place items stored.length entry) := by
  obtain ⟨value, rfl⟩ : ∃ value, entry = some value := by
    cases entry with
    | none => exact absurd rfl truthy
    | some value => exact ⟨value, rfl⟩
  have placed : place items stored.length (some value) = padded stored.length items ++ [some value] := by
    rw [place, if_neg truthy]
    exact setAt_eq_padded items inv.short value
  have full : (padded stored.length items).length = stored.length := by
    have := inv.short
    simp [padded]
    omega
  rw [placed]
  refine ⟨by simp [full], fun index entry beyond found => ?_, ?_⟩
  · have inside := (List.getElem?_eq_some_iff.mp found).1
    simp only [List.length_append, full, List.length_singleton] at beyond inside
    omega
  · have closed : padded (stored ++ [some value]).length (padded stored.length items ++ [some value]) =
        padded stored.length items ++ [some value] := by
      rw [padded, List.length_append, List.length_append, full]
      simp
    rw [holesPass_snoc, closed, List.append_left_inj, ← inv.exact_iff]
    exact and_iff_left fun falsy => absurd falsy truthy

private theorem reloading_passed {stored items : List (Option String)} (inv : Reloading stored items)
    {entry : Option String} (falsy : Falsy entry) (known : some (toString stored.length) ∈ items) :
    Reloading (stored ++ [entry]) (place items stored.length entry) := by
  have short := inv.short
  have placed : place items stored.length entry = items := by
    rw [place, if_pos falsy, pushNew, if_pos known]
  rw [placed]
  refine ⟨by simp; omega, fun _ _ => inv.dropped_snoc falsy, ?_⟩
  · have longer : padded (stored ++ [entry]).length items = padded stored.length items ++ [none] := by
      have : stored.length + 1 - items.length = (stored.length - items.length) + 1 := by omega
      simp [padded, this, List.replicate_succ']
    rw [holesPass_snoc, longer, inv.exact_iff]
    constructor
    · rintro ⟨same, last⟩
      rw [same, (last falsy).1]
    · intro same
      obtain ⟨front, back⟩ := List.append_inj' same rfl
      obtain rfl : none = entry := by simpa using back
      have member := (mem_padded stored.length).mpr known
      rw [front] at member
      exact ⟨front, fun _ => ⟨rfl, member⟩⟩

private theorem reloading_pushed {stored items : List (Option String)} (inv : Reloading stored items)
    {entry : Option String} (falsy : Falsy entry) (unknown : some (toString stored.length) ∉ items) :
    Reloading (stored ++ [entry]) (place items stored.length entry) := by
  have short := inv.short
  have placed : place items stored.length entry = items ++ [some (toString stored.length)] := by
    rw [place, if_pos falsy, pushNew, if_neg unknown]
  rw [placed]
  refine ⟨by simp; omega, fun index old beyond found => ?_, ?_⟩
  · exact inv.dropped_snoc falsy (by simp at beyond; omega) found
  · refine iff_of_false (fun pass => ?_) (fun same => ?_)
    · obtain ⟨front, last⟩ := holesPass_snoc.mp pass
      have member := (last falsy).2
      have same := inv.exact_iff.mp front
      generalize toString stored.length = position at member unknown
      rw [← same, mem_padded] at member
      exact unknown member
    · -- the position stands where a falsy entry was saved
      have here : (stored ++ [entry])[items.length]? = some (some (toString stored.length)) := by
        rw [← same]
        simp [padded]
      exact toString_truthy _ (inv.dropped_snoc falsy le_rfl here)

theorem reloading (stored : List (Option String)) : Reloading stored (reload stored) := by
  induction stored using List.reverseRecOn with
  | nil => exact ⟨le_rfl, fun _ _ _ found => by simp at found, iff_of_true (fun _ _ found => by simp at found) rfl⟩
  | append_singleton stored entry inv =>
    rw [reload_snoc]
    by_cases falsy : Falsy entry
    · by_cases known : some (toString stored.length) ∈ reload stored
      · exact reloading_passed inv falsy known
      · exact reloading_pushed inv falsy known
    · exact reloading_truthy inv falsy

/-- **What a queue keeps.** Loading a stored queue gives the queue back exactly
when its last entry is no empty one and every empty one is a hole that load
passes over. -/
theorem reload_eq_iff (stored : List (Option String)) : reload stored = stored ↔ Reloads stored := by
  have inv := reloading stored
  cases stored using List.reverseRecOn with
  | nil => exact iff_of_true rfl ⟨fun _ _ found => by simp at found, fun _ found => by simp at found⟩
  | append_singleton stored entry =>
    have before := reloading stored
    constructor
    · intro same
      refine ⟨inv.exact_iff.mpr (by rw [same]; simp [padded]), fun last found falsy => ?_⟩
      obtain rfl : entry = last := by simpa using found
      rw [reload_snoc, place, if_pos falsy, pushNew] at same
      split at same
      · have := congrArg List.length same
        have := before.short
        simp at *
        omega
      · obtain ⟨-, back⟩ := List.append_inj' same rfl
        obtain rfl : some (toString stored.length) = entry := by simpa using back
        exact toString_truthy _ falsy
    · rintro ⟨pass, last⟩
      have truthy : ¬ Falsy entry := last entry (by simp)
      obtain ⟨value, rfl⟩ : ∃ value, entry = some value := by
        cases entry with
        | none => exact absurd rfl truthy
        | some value => exact ⟨value, rfl⟩
      rw [reload_snoc, place, if_neg truthy, setAt_eq_padded _ before.short,
        before.exact_iff.mp (holesPass_snoc.mp pass).1]
      rfl

theorem trim_short {size : Nat} {items : List (Option String)} (short : items.length ≤ size) :
    (trim items : FixedQueue size).items = items := by
  simp [trim, Nat.sub_eq_zero_of_le short]

private theorem length_place_le {items : List (Option String)} {index : Nat} (short : items.length ≤ index)
    (entry : Option String) : (place items index entry).length ≤ index + 1 := by
  unfold place
  split
  · unfold pushNew
    split
    · omega
    · simp
      omega
  · rw [setAt_eq_padded _ short]
    simp [padded]
    omega

private theorem load_items {size : Nat} (queue : FixedQueue size) {index : Nat} (inside : index < size)
    (short : queue.items.length ≤ index) (entry : Option String) :
    (queue.load index entry).items = place queue.items index entry := by
  have placed : queue.load index entry = trim (place queue.items index entry) := by
    unfold load place
    by_cases falsy : Falsy entry
    · rw [if_pos falsy]
      exact if_pos falsy
    · rw [if_neg falsy]
      exact (if_neg falsy).trans (if_pos inside)
  rw [placed]
  apply trim_short
  exact le_trans (length_place_le short entry) inside

/-- A stored queue that fits is loaded without trimming. -/
theorem loadAll_items {size : Nat} {stored : List (Option String)} (fits : stored.length ≤ size) :
    ((FixedQueue.mk [] : FixedQueue size).loadAll stored).items = reload stored := by
  have loaded : (stored.zipIdx.foldl (fun queue e => queue.load e.2 e.1) (FixedQueue.mk [] : FixedQueue size)).items =
      reload stored := by
    induction stored using List.reverseRecOn with
    | nil => rfl
    | append_singleton stored entry ih =>
      rw [List.length_append, List.length_singleton] at fits
      have before := ih (by omega)
      rw [List.zipIdx_append, List.foldl_append, reload_snoc, ← before, Nat.zero_add]
      refine load_items _ (by omega) ?_ entry
      rw [before]
      simpa using (reloading stored).short
  rw [loadAll, loaded]
  exact trim_short (le_trans (reloading stored).short fits)

theorem length_add_le {size : Nat} (queue : FixedQueue size) (arg1 : String) (arg2 : Option String) :
    (queue.add arg1 arg2).items.length ≤ size := by
  have trimmed : ∀ items : List (Option String), (trim items : FixedQueue size).items.length ≤ size := by
    intro items
    simp only [trim, List.length_drop]
    omega
  unfold add
  split
  · exact trimmed _
  · split
    · exact trimmed _
    · exact trimmed _

end FixedQueue

/-! ## Properties in enumeration order -/

section Enumeration
variable {members : List String} {α β : Type}

/-- Reparsing changes no enumeration: the indices are sorted already. -/
theorem ownProperties_reparse (m : KeyMap (FreeName members) α) : ownProperties (reparse m) = ownProperties m := by
  let before (a b : FreeName members × α) : Prop := (arrayIndex? a.1).getD 0 ≤ (arrayIndex? b.1).getD 0
  have total : Std.Total before := ⟨fun a b => le_total _ _⟩
  have transitive : IsTrans _ before := ⟨fun _ _ _ => le_trans⟩
  let indices := m.entries.filter fun e => (arrayIndex? e.1).isSome
  let names := m.entries.filter fun e => (arrayIndex? e.1).isNone
  have sorted : (indices.insertionSort before).insertionSort before = indices.insertionSort before :=
    (List.pairwise_insertionSort before indices).insertionSort_eq
  have all_indices : ∀ e ∈ indices.insertionSort before, (arrayIndex? e.1).isSome = true := by
    intro e member
    exact (List.mem_filter.mp ((List.mem_insertionSort before).mp member)).2
  have all_names : ∀ e ∈ names, (arrayIndex? e.1).isNone = true := fun e member => (List.mem_filter.mp member).2
  show ((indices.insertionSort before ++ names).filter fun e => (arrayIndex? e.1).isSome).insertionSort before ++
    ((indices.insertionSort before ++ names).filter fun e => (arrayIndex? e.1).isNone) =
      indices.insertionSort before ++ names
  have first : ((indices.insertionSort before ++ names).filter fun e => (arrayIndex? e.1).isSome) =
      indices.insertionSort before := by
    rw [List.filter_append, List.filter_eq_self.mpr all_indices, List.filter_eq_nil_iff.mpr, List.append_nil]
    intro e member
    simp [Option.isNone_iff_eq_none.mp (all_names e member)]
  have second : ((indices.insertionSort before ++ names).filter fun e => (arrayIndex? e.1).isNone) = names := by
    rw [List.filter_append, List.filter_eq_self.mpr all_names, List.filter_eq_nil_iff.mpr, List.nil_append]
    intro e member
    simp [Option.isSome_iff_ne_none.mp (all_indices e member)]
  rw [first, second, sorted]

/-- The values have no part in the order of enumeration. -/
theorem ownProperties_mapValues (f : α → β) (m : KeyMap (FreeName members) α) :
    ownProperties (m.mapValues f) = (ownProperties m).map fun e => (e.1, f e.2) := by
  simp only [ownProperties, KeyMap.mapValues, List.map_append, List.filter_map]
  congr 1
  exact (List.map_insertionSort _ (fun a b : FreeName members × β =>
    (arrayIndex? a.1).getD 0 ≤ (arrayIndex? b.1).getD 0) _ _ fun _ _ _ _ => Iff.rfl).symm

/-- A new object that is given the enumerated properties of another enumerates
them in the same order. -/
theorem ownProperties_setAll_empty (m : KeyMap (FreeName members) α) :
    ownProperties (KeyMap.empty.setAll (ownProperties m)) = ownProperties m := by
  have same : KeyMap.empty.setAll (ownProperties m) = reparse m := by
    have entries := KeyMap.entries_setAll_empty (reparse m)
    cases built : KeyMap.empty.setAll (ownProperties m)
    rw [KeyMap.mk.injEq]
    exact (congrArg KeyMap.entries built).symm.trans entries
  rw [same, ownProperties_reparse]

/-- A new object that is given what is made of the enumerated properties. -/
theorem ownProperties_setAll_mapped (f : α → β) (m : KeyMap (FreeName members) α) :
    ownProperties (KeyMap.empty.setAll ((reparse m).mapValues f).entries) =
      (ownProperties m).map fun e => (e.1, f e.2) := by
  have entries : ((reparse m).mapValues f).entries = ownProperties (m.mapValues f) :=
    (ownProperties_mapValues f m).symm
  rw [entries, ownProperties_setAll_empty, ownProperties_mapValues]

end Enumeration

/-- A list is itself after a change of its values when no value changes. -/
theorem map_values_eq_iff {α : Type} {entries : List (PropertyName × α)} {f : α → α} :
    (entries.map fun e => (e.1, f e.2)) = entries ↔ ∀ e ∈ entries, f e.2 = e.2 := by
  refine Iff.trans (Eq.congr_right (List.map_id _).symm) (List.map_inj_left.trans ?_)
  exact forall₂_congr fun e _ => Prod.ext_iff.trans (and_iff_right rfl)

theorem Counter.kept_iff (count : Counter) : count.Kept ↔ count.isWritten = true := by
  rcases count with _ | _ | _ | _ <;> simp [Counter.Kept, Counter.stringify, Counter.parse, isWritten, Number.isFinite]

theorem Scalar.reparse_eq_iff (value : Scalar) : value.reparse = value ↔ value.isWritten = true := by
  rcases value with _ | _ | ⟨_ | _ | _⟩ | _ <;> simp [Scalar.reparse, isWritten, Number.isFinite]

/-! ## One store -/

namespace Kind

/-- What the methods of a store see of it. -/
def Content : Kind → Type
  | fixedQueue _ => List (Option String)
  | excludeOffers _ _ => List (PropertyName × Counter)
  | retargetingOffers => List (PropertyName × Scalar × Scalar × Scalar × Scalar)
  | classAccount _ => List (AccountKey × Nat × List Nat)
  | classUser classes => ClassUser classes
  | activityAccount => List (PropertyName × Scalar × Scalar)
  | activityUser => Scalar × Scalar

/-- Properties in enumeration order; a property that is not there is `undefined`. -/
def content : (k : Kind) → k.Store → k.Content
  | fixedQueue _ => FixedQueue.items
  | excludeOffers _ _ => fun store => ownProperties (ExcludeOffers.counts store)
  | retargetingOffers => fun store => ownProperties (RetargetingOffers.offers store)
  | classAccount _ => fun store => ownProperties (ClassAccount.accounts store)
  | classUser _ => id
  | activityAccount => fun store => ownProperties (ActivityAccount.accounts store)
  | activityUser => fun store =>
    ((ActivityUser.timeFirst store).getD .undefined, (ActivityUser.timeLast store).getD .undefined)

/-- What every call keeps true of a store: a queue is not too long. -/
def Held : (k : Kind) → k.Store → Prop
  | fixedQueue size => fun store => (FixedQueue.items store).length ≤ size
  | excludeOffers _ _ | retargetingOffers | classAccount _ | classUser _ | activityAccount | activityUser =>
    fun _ => True

/-- What a store must hold for its copy to give it back. -/
def Survives : (k : Kind) → k.Store → Prop
  | fixedQueue _ => fun store => FixedQueue.Reloads (FixedQueue.items store)
  | excludeOffers _ _ => fun store => ∀ e ∈ ownProperties (ExcludeOffers.counts store), e.2.isWritten = true
  | retargetingOffers => fun store => ∀ e ∈ ownProperties (RetargetingOffers.offers store),
    e.2.1.isWritten = true ∧ e.2.2.1.isWritten = true ∧ e.2.2.2.1.isWritten = true ∧ e.2.2.2.2.isWritten = true
  | activityAccount => fun store => ∀ e ∈ ownProperties (ActivityAccount.accounts store),
    e.2.1.isWritten = true ∧ e.2.2.isWritten = true
  | activityUser => fun store => ∀ time ∈ [ActivityUser.timeFirst store, ActivityUser.timeLast store],
    time.getD .undefined = .undefined ∨ (time.getD .undefined).isWritten = true
  | classAccount _ | classUser _ => fun _ => True

/-- The methods of two stores with the same content give the same answers. -/
theorem get_congr {k : Kind} {first second : k.Store} (same : k.content first = k.content second)
    (browser : Browser) : k.get browser first = k.get browser second := by
  cases k with
  | fixedQueue size =>
    obtain ⟨items⟩ := first
    obtain ⟨others⟩ := second
    obtain rfl : items = others := same
    rfl
  | excludeOffers invert counter =>
    have same : ownProperties (ExcludeOffers.counts first) = ownProperties (ExcludeOffers.counts second) := same
    simp only [get, ExcludeOffers.get, same]
  | retargetingOffers =>
    have same : ownProperties (RetargetingOffers.offers first) = ownProperties (RetargetingOffers.offers second) :=
      same
    simp only [get, RetargetingOffers.get, same]
  | classAccount classes =>
    have same : ownProperties (ClassAccount.accounts first) = ownProperties (ClassAccount.accounts second) := same
    simp only [get, ClassAccount.get, same]
  | classUser classes =>
    obtain rfl : first = second := same
    rfl
  | activityAccount | activityUser => rfl

/-- The four values `RetargetingOffers.load` takes from an array. -/
private def fourOf (arg1 : List Scalar) : Scalar × Scalar × Scalar × Scalar :=
  let at_ (i : Nat) := arg1[i]?.getD .undefined
  (at_ 0, at_ 1, at_ 2, if at_ 3 = .undefined then at_ 0 else at_ 3)

private theorem loadAll_offers (store : RetargetingOffers) (stored : KeyMap PropertyName (List Scalar)) :
    (store.loadAll stored).offers = store.offers.setAll ((reparse stored).mapValues fourOf).entries := by
  have offers : ∀ (entries : List (PropertyName × List Scalar)) (start : RetargetingOffers),
      (entries.foldl (fun store e => store.load e.1 e.2) start).offers =
        start.offers.setAll (entries.map fun e => (e.1, fourOf e.2)) := by
    intro entries
    induction entries with
    | nil => exact fun _ => rfl
    | cons e rest ih => exact fun start => ih (start.load e.1 e.2)
  exact offers _ _

private theorem reload_counts {invert counter : Bool} (store : ExcludeOffers invert counter) :
    ownProperties ((ExcludeOffers.fresh : ExcludeOffers invert counter).loadAll store.stringify).counts =
      (ownProperties store.counts).map fun e => (e.1, Counter.parse e.2.stringify) := by
  rw [ExcludeOffers.loadAll_counts]
  apply (ownProperties_setAll_mapped _ _).trans
  rw [ExcludeOffers.stringify, ownProperties_reparse, ownProperties_mapValues, List.map_map]
  rfl

/-- No value is `undefined` behind the text. -/
private theorem reparse_ne_undefined (value : Scalar) : value.reparse ≠ .undefined := by
  rcases value with _ | _ | ⟨_ | _ | _⟩ | _ <;> simp [Scalar.reparse]

private theorem reload_retargeting (store : RetargetingOffers) :
    ownProperties (((RetargetingOffers.mk KeyMap.empty).loadAll store.stringify).offers) =
      (ownProperties store.offers).map fun e =>
        (e.1, e.2.1.reparse, e.2.2.1.reparse, e.2.2.2.1.reparse, e.2.2.2.2.reparse) := by
  rw [loadAll_offers]
  apply (ownProperties_setAll_mapped _ _).trans
  rw [RetargetingOffers.stringify, ownProperties_mapValues, ownProperties_reparse, List.map_map]
  refine List.map_congr_left fun e _ => ?_
  simp [fourOf, reparse_ne_undefined]

private theorem reload_activity (store : ActivityAccount) :
    activityAccount.content (activityAccount.load activityAccount.fresh (activityAccount.stringify store)) =
      (ownProperties store.accounts).map fun e => (e.1, e.2.1.reparse, e.2.2.reparse) := by
  apply (ownProperties_setAll_empty _).trans
  apply (ownProperties_reparse _).trans
  exact ownProperties_mapValues (fun v : Scalar × Scalar => (v.1.reparse, v.2.reparse)) store.accounts

/-- The time a user store has after a reload. -/
private theorem reload_time_iff (time : Option Scalar) :
    (((time.filter (· ≠ .undefined)).map Scalar.reparse).or none).getD .undefined = time.getD .undefined ↔
      time.getD .undefined = .undefined ∨ (time.getD .undefined).isWritten = true := by
  cases time with
  | none => simp
  | some time =>
    by_cases absent : time = .undefined
    · simp [Option.filter, absent]
    · simp [Option.filter, absent, Scalar.reparse_eq_iff]

/-- **What one store keeps.** Loading the copy of a store into a new one gives
its content back exactly when the store survives. -/
theorem reload_iff {k : Kind} {store : k.Store} (held : k.Held store) :
    k.content (k.load k.fresh (k.stringify store)) = k.content store ↔ k.Survives store := by
  cases k with
  | fixedQueue size =>
    refine Iff.trans (Eq.congr_left ?_) (FixedQueue.reload_eq_iff (FixedQueue.items store))
    exact FixedQueue.loadAll_items held
  | excludeOffers invert counter =>
    apply Iff.trans (Eq.congr_left (reload_counts store))
    apply (map_values_eq_iff (f := fun count : Counter => Counter.parse count.stringify)).trans
    exact forall₂_congr fun e _ => Counter.kept_iff e.2
  | retargetingOffers =>
    apply Iff.trans (Eq.congr_left (reload_retargeting store))
    apply (map_values_eq_iff (f := fun v : Scalar × Scalar × Scalar × Scalar =>
      (v.1.reparse, v.2.1.reparse, v.2.2.1.reparse, v.2.2.2.reparse))).trans
    exact forall₂_congr fun e _ => by simp only [Prod.ext_iff, Scalar.reparse_eq_iff]
  | classAccount classes =>
    refine iff_of_true ?_ trivial
    show ownProperties (KeyMap.empty.setAll (ownProperties (reparse (ClassAccount.accounts store)))) = _
    rw [ownProperties_reparse]
    exact ownProperties_setAll_empty _
  | classUser classes =>
    refine iff_of_true ?_ trivial
    show ClassUser.loadAll (ClassUser.mk none none) store = store
    cases store
    simp [ClassUser.loadAll]
  | activityAccount =>
    apply Iff.trans (Eq.congr_left (reload_activity store))
    apply (map_values_eq_iff (f := fun v : Scalar × Scalar => (v.1.reparse, v.2.reparse))).trans
    exact forall₂_congr fun e _ => by simp only [Prod.ext_iff, Scalar.reparse_eq_iff]
  | activityUser =>
    have both : ∀ {first second : Option Scalar}, (∀ time ∈ [first, second], time.getD .undefined = .undefined ∨
        (time.getD .undefined).isWritten = true) ↔ (first.getD .undefined = .undefined ∨
          (first.getD .undefined).isWritten = true) ∧ (second.getD .undefined = .undefined ∨
            (second.getD .undefined).isWritten = true) := by simp
    exact Prod.ext_iff.trans ((and_congr (reload_time_iff _) (reload_time_iff _)).trans both.symm)

theorem getString_congr {k : Kind} {first second : k.Store} (same : k.content first = k.content second) :
    k.getString first = k.getString second := by
  cases k with
  | excludeOffers invert counter =>
    have same : ownProperties (ExcludeOffers.counts first) = ownProperties (ExcludeOffers.counts second) := same
    simp only [getString, ExcludeOffers.getString, ExcludeOffers.get, same]
  | _ => rfl

theorem held_fresh (k : Kind) : k.Held k.fresh := by
  cases k with
  | fixedQueue size => exact Nat.zero_le size
  | _ => trivial

theorem held_addCall {k : Kind} {store : k.Store} (held : k.Held store) (given : k.Arguments) :
    k.Held (k.addCall store given) := by
  cases k with
  | fixedQueue size => exact FixedQueue.length_add_le store given.1 given.2
  | _ => trivial

end Kind

/-! ## The whole history -/

/-- Two histories of the same content in every component, whose methods give the
same answers. The member of `retargeting_click_clean` is no component, and no
method reads it. -/
structure SameHistory (first second : Memory) : Prop where
  contents : ∀ c : Component, c.kind.content (first.stores c) = c.kind.content (second.stores c)
  get : ∀ browser, ∀ c : Component, c.kind.get browser (first.stores c) = c.kind.get browser (second.stores c)
  getString : ∀ c : Component, c.kind.getString (first.stores c) = c.kind.getString (second.stores c)
  excludeGet : ∀ copy which viewed, excludeGet copy which first.stores viewed =
    excludeGet copy which second.stores viewed

/-- What a history must hold for its copy to give it back. -/
def Memory.Survives (m : Memory) : Prop := ∀ c : Component, c.kind.Survives (m.stores c)

/-- Two histories with the same content in every component. -/
def SameContents (first second : History) : Prop :=
  ∀ c : Component, c.kind.content (first c) = c.kind.content (second c)

theorem excludeKeys_congr {first second : History} (same : SameContents first second) (which : ExcludeGet) :
    which.keys first = which.keys second := by
  have listed : ∀ one other : ExcludeOffers false false,
      ownProperties one.counts = ownProperties other.counts → one.get = other.get := by
    intro one other same
    simp only [ExcludeOffers.get, same]
  cases which with
  | exclude =>
    have shown := listed (first .exclude) (second .exclude) (same .exclude)
    have clicked := listed (first .excludeClick) (second .excludeClick) (same .excludeClick)
    simp only [ExcludeGet.keys, shown, clicked]
  | retargetingExclude =>
    have shown := listed (first .retargetingExclude) (second .retargetingExclude) (same .retargetingExclude)
    have clicked := listed (first .retargetingExcludeClick) (second .retargetingExcludeClick)
      (same .retargetingExcludeClick)
    simp only [ExcludeGet.keys, shown, clicked]
  | retargetingAccountExclude =>
    have shown := listed (first .retargetingAccountExclude) (second .retargetingAccountExclude)
      (same .retargetingAccountExclude)
    have clicked := listed (first .retargetingAccountExcludeClick) (second .retargetingAccountExcludeClick)
      (same .retargetingAccountExcludeClick)
    simp only [ExcludeGet.keys, shown, clicked]

/-- The contents decide what the methods answer. -/
theorem sameHistory_iff {first second : Memory} :
    SameHistory first second ↔ SameContents first.stores second.stores := by
  refine ⟨fun same => same.contents, fun contents => ?_⟩
  refine ⟨contents, fun browser c => Kind.get_congr (contents c) browser,
    fun c => Kind.getString_congr (contents c), fun copy which viewed => ?_⟩
  simp only [excludeGet, excludeKeys_congr contents which]

/-- What every call keeps true of a session. -/
structure Running (session : Session) : Prop where
  available : session.saved.storage.available = true
  held : ∀ c : Component, c.kind.Held (session.memory.stores c)

private theorem held_put {h : History} (held : ∀ c : Component, c.kind.Held (h c)) {c : Component}
    {store : c.kind.Store} (here : c.kind.Held store) (other : Component) : other.kind.Held (h.put c store other) := by
  by_cases same : other = c
  · subst same
    rwa [put_self]
  · rw [put_ne h store same]
    exact held other

private theorem held_renew {m : Memory} (held : ∀ c : Component, c.kind.Held (m.stores c)) (which : CleanCall)
    (c : Component) : c.kind.Held ((m.renew which).stores c) := by
  cases which with
  | exclude | excludeClick | retargetingAccount => exact held_put held (Kind.held_fresh _) c
  | retargeting => exact held_put (held_put held (Kind.held_fresh _)) (Kind.held_fresh _) c
  | retargetingClick => exact held c

theorem running_change {session : Session} (running : Running session) (what : Change) :
    Running (change session what) := by
  cases what with
  | add c given => exact ⟨running.available, held_put running.held (Kind.held_addCall (running.held c) given)⟩
  | remove key =>
    exact ⟨running.available, held_put running.held trivial⟩
  | clean which cl =>
    cases cl with
    | false => exact running
    | true => exact ⟨(save_available _ _).trans running.available, held_renew running.held which⟩

/-- The copy of a component, loaded into a new history. -/
theorem reloaded (m : Memory) {saved : Saved} (available : saved.storage.available = true) (c : Component) :
    (Memory.fresh.load (m.save saved)).stores c = c.kind.load c.kind.fresh (c.kind.stringify (m.stores c)) := by
  simp [Memory.load, Memory.save, UserHistory.load, save, available, Memory.fresh, History.fresh]

/-- **Saving keeps exactly what survives.** After any changes of a new history,
what is saved and loaded into a fresh one is the same history if and only if no
queue holds an empty entry that load replaces, no store keeps a number that is not
finite, and no retargeting offer and no activity account lacks a value. -/
theorem save_load_iff {saved : Saved} (available : saved.storage.available = true) (changes : List Change) :
    let session := exec change ⟨Memory.fresh, saved⟩ changes
    SameHistory (Memory.fresh.load (session.memory.save session.saved)) session.memory ↔
      session.memory.Survives := by
  intro session
  have running : Running (exec change ⟨Memory.fresh, saved⟩ changes) :=
    invariant Running (fun _ what before => running_change before what) changes ⟨available, fun c => c.kind.held_fresh⟩
  rw [sameHistory_iff]
  refine forall_congr' fun c => ?_
  rw [reloaded session.memory running.available]
  exact Kind.reload_iff (running.held c)

/-- A search engine of no name, and a click counter that was cleaned. -/
def emptyEntry : List Change := [.add .searchengines ("", none), .clean .excludeClick true]

theorem save_load_emptyEntry :
    SameHistory (Memory.fresh.load ((exec change ⟨Memory.fresh, nothingSaved⟩ emptyEntry).memory.save
        (exec change ⟨Memory.fresh, nothingSaved⟩ emptyEntry).saved))
      (exec change ⟨Memory.fresh, nothingSaved⟩ emptyEntry).memory ↔
        (exec change ⟨Memory.fresh, nothingSaved⟩ emptyEntry).memory.Survives :=
  save_load_iff rfl emptyEntry

/-- The entry comes back as the text of its position. -/
theorem empty_entry_lost :
    ¬ SameHistory (Memory.fresh.load ((exec change ⟨Memory.fresh, nothingSaved⟩ emptyEntry).memory.save
        (exec change ⟨Memory.fresh, nothingSaved⟩ emptyEntry).saved))
      (exec change ⟨Memory.fresh, nothingSaved⟩ emptyEntry).memory := by
  intro same
  have before : (Component.kind .searchengines).content
      ((exec change ⟨Memory.fresh, nothingSaved⟩ emptyEntry).memory.stores .searchengines) = [some ""] := rfl
  have after : (Component.kind .searchengines).content
      ((Memory.fresh.load ((exec change ⟨Memory.fresh, nothingSaved⟩ emptyEntry).memory.save
        (exec change ⟨Memory.fresh, nothingSaved⟩ emptyEntry).saved)).stores .searchengines) = [some "0"] := rfl
  have equal : [some "0"] = [some ""] := (after.symm.trans (same.contents .searchengines)).trans before
  exact absurd equal (by decide)

end WorkerInformer.UserHistory
