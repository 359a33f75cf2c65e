import Mathlib.Data.List.Sort
import WorkerInformer.KeyMap
import WorkerInformer.Number

/-! `template/storage.js`: the visitor's history in a frame's memory and the
copy of it in `localStorage`. A history is one store per component; `load`
merges what is stored into memory component by component, `save` writes every
component, and the clean operations replace one or two components in memory and
then save all of them. A stored copy is a JSON text, in which a number that is
not finite is `null`. -/
namespace WorkerInformer.UserHistory

/-- A property name that none of these members has: a key spelled like a member
would overwrite a method. -/
structure FreeName (members : List String) where
  text : String
  free : text ∉ members
  deriving DecidableEq

/-- The members the constructors give the stores, and the one property name an
assignment never creates. -/
def memberNames : List String :=
  ["add", "load", "get", "getString", "remove", "invert", "counter", "__proto__"]

/-- A property name a store keeps data under, such as the id of an offer. -/
abbrev PropertyName := FreeName memberNames

/-- The members of a `GenderAccount()` or a `CostAccount()`. -/
def accountMembers : List String := ["add", "get", "load", "__proto__"]

/-- The key of an account. -/
abbrev AccountKey := FreeName accountMembers

/-- None of these names is a number. -/
theorem exists_letter {names : List String} (letters : (names.all fun name => name.toList.any (! ·.isDigit)) = true)
    {name : String} (member : name ∈ names) : ∃ c ∈ name.toList, ¬ c.isDigit := by
  have any := List.all_eq_true.mp letters name member
  simpa using List.any_eq_true.mp any

/-- A decimal offer id. -/
def PropertyName.decimal (text : String) (digits : ∀ c ∈ text.toList, c.isDigit) : PropertyName where
  text := text
  free := by
    intro member
    have letters : (memberNames.all fun name => name.toList.any (! ·.isDigit)) = true := by decide
    obtain ⟨c, here, letter⟩ := exists_letter letters member
    exact letter (digits c here)

/-- A canonical array index, which a `for (key in ...)` loop visits before the
other keys and in numeric order. -/
def arrayIndex? {members : List String} (name : FreeName members) : Option Nat :=
  let n := name.text.toList.foldl (fun n c => 10 * n + (c.toNat - '0'.toNat)) 0
  if toString n = name.text ∧ n < 2 ^ 32 - 1 then some n else none

/-- The own data properties in the order a `for (key in ...)` loop visits them. -/
def ownProperties {members : List String} {α : Type} (m : KeyMap (FreeName members) α) :
    List (FreeName members × α) :=
  (m.entries.filter fun e => (arrayIndex? e.1).isSome).insertionSort
      (fun a b => (arrayIndex? a.1).getD 0 ≤ (arrayIndex? b.1).getD 0) ++
    m.entries.filter fun e => (arrayIndex? e.1).isNone

theorem ownProperties_perm {members : List String} {α : Type} (m : KeyMap (FreeName members) α) :
    (ownProperties m).Perm m.entries := by
  have split := List.filter_append_perm (fun e => (arrayIndex? e.1).isSome) m.entries
  simp only [Option.not_isSome] at split
  exact ((List.perm_insertionSort _ _).append_right _).trans split

theorem mem_ownProperties {members : List String} {α : Type} {m : KeyMap (FreeName members) α}
    {key : FreeName members} {value : α} :
    (key, value) ∈ ownProperties m ↔ m.get? key = some value := by
  rw [(ownProperties_perm m).mem_iff, KeyMap.get?_eq_some_iff]

/-- What `JSON.parse(JSON.stringify(...))` gives for an object of plain values:
the same properties, created in enumeration order. -/
def reparse {members : List String} {α : Type} (m : KeyMap (FreeName members) α) : KeyMap (FreeName members) α :=
  ⟨ownProperties m, ((ownProperties_perm m).map Prod.fst).nodup_iff.mpr m.nodup⟩

@[simp] theorem get?_reparse {members : List String} {α : Type} (m : KeyMap (FreeName members) α)
    (key : FreeName members) : (reparse m).get? key = m.get? key := by
  apply Option.ext
  intro value
  rw [KeyMap.get?_eq_some_iff]
  exact mem_ownProperties

/-! ## The stores -/

/-- `FixedQueue(size)`. A hole of the array is `none`. -/
structure FixedQueue (size : Nat) where
  items : List (Option String)

namespace FixedQueue
variable {size : Nat}

/-- `this[index] = value` on an array. -/
def setAt (items : List (Option String)) (index : Nat) (value : String) : List (Option String) :=
  (items ++ List.replicate (index + 1 - items.length) none).set index (some value)

/-- `if (this.indexOf(entry) < 0) this.push(entry)`. -/
def pushNew (items : List (Option String)) (entry : String) : List (Option String) :=
  if some entry ∈ items then items else items ++ [some entry]

/-- `splice(0, length - fixedSize)` when the array is too long. -/
def trim (items : List (Option String)) : FixedQueue size := ⟨items.drop (items.length - size)⟩

/-- `FixedQueue.load(index, value)`; the empty string and `null` are falsy. -/
def load (queue : FixedQueue size) (index : Nat) (value : Option String) : FixedQueue size :=
  if value.getD "" = "" then trim (pushNew queue.items (toString index))
  else if index < size then trim (setAt queue.items index (value.getD ""))
  else trim queue.items

end FixedQueue

/-- What an exclude store keeps for a key. -/
inductive Counter
  | null
  | number (value : Number)
  deriving DecidableEq

namespace Counter

/-- What `JSON.stringify` writes: a number, or `null`. -/
def stringify : Counter → Option ℚ
  | number (.finite value) => some value
  | null | number .nan | number (.infinity _) => none

def parse : Option ℚ → Counter
  | some value => number value
  | none => null

/-- The counter is no number that JSON does not have. -/
def isWritten : Counter → Bool
  | null => true
  | number value => value.isFinite

/-- JSON gives the counter back. -/
def Kept (count : Counter) : Prop := parse count.stringify = count

@[simp] theorem stringify_parse (written : Option ℚ) : (parse written).stringify = written := by
  cases written <;> rfl

theorem kept_parse (written : Option ℚ) : (parse written).Kept := congrArg parse (stringify_parse written)

end Counter

/-- `ExcludeOffers(invert, counter)`: the two closures `invert()` and
`counter()` never change, so they are part of the store's type. -/
structure ExcludeOffers (invert counter : Bool) where
  counts : KeyMap PropertyName Counter

namespace ExcludeOffers
variable {invert counter : Bool}

def fresh : ExcludeOffers invert counter := ⟨KeyMap.empty⟩

/-- `countViews = (countViews || 1)`; `none` is a missing argument. -/
def orOne (countViews : Option Number) : Number := (countViews.getD .nan).orElse 1

/-- What `add` does to a counter that is already there. -/
def bump (invert : Bool) (count : Number) : Number :=
  if invert then count.plus 1 else if Number.lt 0 count then count.plus (-1) else 0

/-- The counter `add` starts. -/
def first (invert : Bool) (countViews : Option Number) : Number :=
  if invert then orOne countViews else (orOne countViews).plus (-1)

/-- What `add` leaves in `this[guid]`; `null` is no number. -/
def counted (invert : Bool) (old : Option Counter) (countViews : Option Number) : Counter :=
  match old with
  | some (.number count) => .number (bump invert count)
  | some .null | none => .number (first invert countViews)

/-- `ExcludeOffers.add(guid, countViews)`. -/
def add (store : ExcludeOffers invert counter) (guid : PropertyName) (countViews : Option Number) :
    ExcludeOffers invert counter :=
  ⟨store.counts.set guid (counted invert (store.counts.get? guid) countViews)⟩

/-- `ExcludeOffers.load(guid, countViews)`. -/
def load (store : ExcludeOffers invert counter) (guid : PropertyName) (countViews : Option ℚ) :
    ExcludeOffers invert counter := ⟨store.counts.set guid (.parse countViews)⟩

/-- `value > 0` for an inverted store, `value <= 0` for the others; `null` counts
as zero. -/
def lists (invert : Bool) : Counter → Bool
  | .null => !invert
  | .number count => if invert then Number.lt 0 count else count.le 0

/-- `ExcludeOffers.get()`: the listed keys with their counters, which `get`
returns only for a `counter` store. -/
def get (store : ExcludeOffers invert counter) : List (PropertyName × Counter) :=
  (ownProperties store.counts).filter fun e => lists invert e.2

theorem add_get? (store : ExcludeOffers invert counter) (guid asked : PropertyName)
    (countViews : Option Number) :
    (store.add guid countViews).counts.get? asked =
      if asked = guid then some (counted invert (store.counts.get? guid) countViews)
      else store.counts.get? asked :=
  KeyMap.get?_set _ _ _ _

/-- Adding a number that JSON has to a counter that JSON gives back. -/
theorem counted_kept (invert : Bool) {old : Option Counter} (kept : ∀ count ∈ old, count.Kept)
    (countViews : Option ℚ) : (counted invert old (countViews.map Number.finite)).Kept := by
  have start : ∃ value, first invert (countViews.map Number.finite) = .finite value := by
    have given : ∃ value, orOne (countViews.map Number.finite) = .finite value := by
      cases countViews with
      | none => exact ⟨1, rfl⟩
      | some value =>
        simp only [orOne, Number.orElse, Option.map_some, Option.getD_some]
        split
        · exact ⟨1, rfl⟩
        · exact ⟨value, rfl⟩
    obtain ⟨value, is_value⟩ := given
    cases invert with
    | true => exact ⟨value, is_value⟩
    | false => exact ⟨value + -1, by simp only [first, is_value]; rfl⟩
  obtain ⟨value, is_value⟩ := start
  rcases old with _ | _ | _ | _ | count
  · simp only [counted, is_value]
    rfl
  · simp only [counted, is_value]
    rfl
  · cases kept _ rfl
  · cases kept _ rfl
  · simp only [counted, bump]
    split
    · rfl
    · split <;> rfl

/-- An id is among the keys `get` returns when its counter is listed. -/
theorem mem_get {store : ExcludeOffers invert counter} {guid : PropertyName} :
    guid ∈ store.get.map Prod.fst ↔ ∃ count, store.counts.get? guid = some count ∧ lists invert count := by
  constructor
  · intro member
    obtain ⟨⟨key, count⟩, listed, rfl⟩ := List.mem_map.mp member
    obtain ⟨own, shown⟩ := List.mem_filter.mp listed
    exact ⟨count, mem_ownProperties.mp own, shown⟩
  · rintro ⟨count, stored, shown⟩
    exact List.mem_map.mpr ⟨(guid, count), List.mem_filter.mpr ⟨mem_ownProperties.mpr stored, shown⟩, rfl⟩

end ExcludeOffers

/-- The plain values the other stores keep. -/
inductive Scalar
  | undefined
  | null
  | num (value : Number)
  | str (value : String)
  deriving DecidableEq

/-- `JSON.stringify` of an array element and back. -/
def Scalar.reparse : Scalar → Scalar
  | .undefined | .num .nan | .num (.infinity _) => .null
  | .null => .null
  | .num (.finite value) => .num value
  | .str value => .str value

/-- A value that JSON has. -/
def Scalar.isWritten : Scalar → Bool
  | .undefined => false
  | .num value => value.isFinite
  | .null | .str _ => true

/-- `RetargetingOffers()`: four values for each key. -/
structure RetargetingOffers where
  offers : KeyMap PropertyName (Scalar × Scalar × Scalar × Scalar)

/-- `RetargetingOffers.load(guid, arg1)` for an array; a missing fourth element
is replaced by the first. -/
def RetargetingOffers.load (store : RetargetingOffers) (guid : PropertyName) (arg1 : List Scalar) :
    RetargetingOffers :=
  let at_ (i : Nat) := arg1[i]?.getD .undefined
  ⟨store.offers.set guid
    (at_ 0, at_ 1, at_ 2, if at_ 3 = .undefined then at_ 0 else at_ 3)⟩

/-- `GenderAccount()` and `CostAccount()`: for each key the class and the hits
of each class. -/
structure ClassAccount (classes : Nat) where
  accounts : KeyMap AccountKey (Nat × List Nat)

/-- `GenderUser()` and `CostUser()`: `gender` or `cost`, and `hit_log`. -/
structure ClassUser (classes : Nat) where
  label : Option Nat := none
  hitLog : Option (List Nat) := none

/-- `ActivityAccount()`: the first and the last time of each key. -/
structure ActivityAccount where
  accounts : KeyMap PropertyName (Scalar × Scalar)

/-- `ActivityUser()`. -/
structure ActivityUser where
  timeFirst : Option Scalar := none
  timeLast : Option Scalar := none

/-! ## Loading and saving one store -/

/-- The loop `for (key in retrievedObject) store.load(key, retrievedObject[key])`.
Over an array it also visits `unique`, which the page puts on the prototype:
that call stores nothing and only trims. -/
def FixedQueue.loadAll {size : Nat} (queue : FixedQueue size) (stored : List (Option String)) :
    FixedQueue size :=
  FixedQueue.trim (stored.zipIdx.foldl (fun queue e => queue.load e.2 e.1) queue).items

def ExcludeOffers.loadAll {invert counter : Bool} (store : ExcludeOffers invert counter)
    (stored : KeyMap PropertyName (Option ℚ)) : ExcludeOffers invert counter :=
  (ownProperties stored).foldl (fun store e => store.load e.1 e.2) store

def RetargetingOffers.loadAll (store : RetargetingOffers)
    (stored : KeyMap PropertyName (List Scalar)) : RetargetingOffers :=
  (ownProperties stored).foldl (fun store e => store.load e.1 e.2) store

def ClassUser.loadAll {classes : Nat} (store stored : ClassUser classes) : ClassUser classes :=
  ⟨stored.label.or store.label, stored.hitLog.or store.hitLog⟩

def ActivityUser.loadAll (store stored : ActivityUser) : ActivityUser :=
  ⟨stored.timeFirst.or store.timeFirst, stored.timeLast.or store.timeLast⟩

/-- The counters as `JSON.stringify` writes them. -/
def ExcludeOffers.stringify {invert counter : Bool} (store : ExcludeOffers invert counter) :
    KeyMap PropertyName (Option ℚ) := reparse (store.counts.mapValues Counter.stringify)

/-- The four values of each retargeting offer as `JSON.stringify` writes them. -/
def RetargetingOffers.stringify (store : RetargetingOffers) : KeyMap PropertyName (List Scalar) :=
  (reparse store.offers).mapValues fun v => [v.1.reparse, v.2.1.reparse, v.2.2.1.reparse, v.2.2.2.reparse]

theorem ExcludeOffers.loadAll_counts {invert counter : Bool} (store : ExcludeOffers invert counter)
    (stored : KeyMap PropertyName (Option ℚ)) : (store.loadAll stored).counts =
      store.counts.setAll ((reparse stored).mapValues Counter.parse).entries := by
  have counts : ∀ (entries : List (PropertyName × Option ℚ)) (start : ExcludeOffers invert counter),
      (entries.foldl (fun store e => store.load e.1 e.2) start).counts =
        start.counts.setAll (entries.map fun e => (e.1, Counter.parse e.2)) := by
    intro entries
    induction entries with
    | nil => exact fun _ => rfl
    | cons e rest ih => exact fun start => ih (start.load e.1 e.2)
  exact counts _ _

theorem ExcludeOffers.loadAll_get? {invert counter : Bool} (store : ExcludeOffers invert counter)
    (stored : KeyMap PropertyName (Option ℚ)) (guid : PropertyName) :
    (store.loadAll stored).counts.get? guid =
      ((stored.get? guid).map Counter.parse).or (store.counts.get? guid) := by
  rw [loadAll_counts, KeyMap.get?_setAll, KeyMap.get?_mapValues, get?_reparse]

/-- The constructors `UserHistory()` calls. -/
inductive Kind
  | fixedQueue (size : Nat)
  | excludeOffers (invert counter : Bool)
  | retargetingOffers
  | classAccount (classes : Nat)
  | classUser (classes : Nat)
  | activityAccount
  | activityUser

namespace Kind

/-- The store in memory. -/
def Store : Kind → Type
  | fixedQueue size => FixedQueue size
  | excludeOffers invert counter => ExcludeOffers invert counter
  | retargetingOffers => RetargetingOffers
  | classAccount classes => ClassAccount classes
  | classUser classes => ClassUser classes
  | activityAccount => ActivityAccount
  | activityUser => ActivityUser

/-- What `JSON.parse` of the stored text gives. -/
def Json : Kind → Type
  | fixedQueue _ => List (Option String)
  | excludeOffers _ _ => KeyMap PropertyName (Option ℚ)
  | retargetingOffers => KeyMap PropertyName (List Scalar)
  | classAccount _ => KeyMap AccountKey (Nat × List Nat)
  | classUser classes => ClassUser classes
  | activityAccount => KeyMap PropertyName (Scalar × Scalar)
  | activityUser => ActivityUser

/-- A new store. -/
def fresh : (k : Kind) → k.Store
  | fixedQueue _ => FixedQueue.mk []
  | excludeOffers _ _ => ExcludeOffers.fresh
  | retargetingOffers => RetargetingOffers.mk KeyMap.empty
  | classAccount _ => ClassAccount.mk KeyMap.empty
  | classUser _ => ClassUser.mk none none
  | activityAccount => ActivityAccount.mk KeyMap.empty
  | activityUser => ActivityUser.mk none none

/-- What `UserHistory.load` does to a store that has a stored copy. -/
def load : (k : Kind) → k.Store → k.Json → k.Store
  | fixedQueue _ => FixedQueue.loadAll
  | excludeOffers _ _ => ExcludeOffers.loadAll
  | retargetingOffers => RetargetingOffers.loadAll
  | classAccount _ => fun store stored => ⟨store.accounts.setAll (ownProperties stored)⟩
  | classUser _ => ClassUser.loadAll
  | activityAccount => fun store stored => ⟨store.accounts.setAll (ownProperties stored)⟩
  | activityUser => ActivityUser.loadAll

/-- `JSON.stringify`, read back by `JSON.parse`. -/
def stringify : (k : Kind) → k.Store → k.Json
  | fixedQueue _ => FixedQueue.items
  | excludeOffers _ _ => ExcludeOffers.stringify
  | retargetingOffers => RetargetingOffers.stringify
  | classAccount _ => fun store => reparse store.accounts
  | classUser _ => id
  | activityAccount => fun store => reparse (store.accounts.mapValues fun v => (v.1.reparse, v.2.reparse))
  -- a property that is `undefined` is left out of the text
  | activityUser => fun store =>
    ⟨(store.timeFirst.filter (· ≠ .undefined)).map Scalar.reparse,
      (store.timeLast.filter (· ≠ .undefined)).map Scalar.reparse⟩

/-- Two stored copies with the same content; nothing stored counts as an empty
copy, and the order of properties is not content. -/
def Same : (k : Kind) → Option k.Json → Option k.Json → Prop
  | fixedQueue _ => fun first second => first.getD [] = second.getD []
  | excludeOffers _ _ => fun first second =>
    ∀ key, first.bind (KeyMap.get? · key) = second.bind (KeyMap.get? · key)
  | retargetingOffers => fun first second =>
    ∀ key, first.bind (KeyMap.get? · key) = second.bind (KeyMap.get? · key)
  | classAccount _ => fun first second =>
    ∀ key, first.bind (KeyMap.get? · key) = second.bind (KeyMap.get? · key)
  | classUser _ => fun first second => first.getD {} = second.getD {}
  | activityAccount => fun first second =>
    ∀ key, first.bind (KeyMap.get? · key) = second.bind (KeyMap.get? · key)
  | activityUser => fun first second => first.getD {} = second.getD {}

theorem Same.refl (k : Kind) (copy : Option k.Json) : k.Same copy copy := by
  cases k <;> simp [Same]

theorem Same.symm {k : Kind} {first second : Option k.Json} (same : k.Same first second) :
    k.Same second first := by
  cases k with
  | fixedQueue | classUser | activityUser => exact Eq.symm same
  | excludeOffers | retargetingOffers | classAccount | activityAccount =>
    exact fun key => (same key).symm

end Kind

/-! ## The history and its copy -/

/-- The stores `UserHistory()` creates, in that order. -/
inductive Component
  | searchengines
  | context
  | retargeting
  | exclude
  | excludeClick
  | retargetingExclude
  | retargetingAccountExclude
  | retargetingExcludeClick
  | retargetingAccountExcludeClick
  | retargetingView
  | history
  | genderAccounts
  | genderUser
  | costAccounts
  | costUser
  | activityAccounts
  | activityUser
  deriving DecidableEq

/-- The constructor call that creates the component. -/
def Component.kind : Component → Kind
  | searchengines | context | history => .fixedQueue 3
  | retargeting => .retargetingOffers
  | exclude | excludeClick | retargetingExclude | retargetingAccountExclude
  | retargetingExcludeClick | retargetingAccountExcludeClick => .excludeOffers false false
  | retargetingView => .excludeOffers true true
  | genderAccounts => .classAccount 3
  | genderUser => .classUser 3
  | costAccounts => .classAccount 9
  | costUser => .classUser 9
  | activityAccounts => .activityAccount
  | activityUser => .activityUser

/-- A `UserHistory` in the memory of one frame. -/
def History : Type := (c : Component) → c.kind.Store

/-- `new UserHistory()`. -/
def History.fresh : History := fun c => c.kind.fresh

/-- `uh.exclude`. -/
def History.exclude (h : History) : ExcludeOffers false false := h .exclude

/-- `uh.exclude_click`. -/
def History.excludeClick (h : History) : ExcludeOffers false false := h .excludeClick

/-- `localStorage`, shared by the frames; `available` is what `Test()` returns. -/
structure LocalStorage where
  available : Bool
  item : (c : Component) → Option c.kind.Json

/-- Nothing stored yet. -/
def LocalStorage.empty : LocalStorage := ⟨true, fun _ => none⟩

/-- `UserHistory.load`. -/
def load (h : History) (st : LocalStorage) : History :=
  if st.available then fun c =>
    match st.item c with
    | some stored => c.kind.load (h c) stored
    | none => h c
  else h

/-- `UserHistory.save`. -/
def save (h : History) (st : LocalStorage) : LocalStorage :=
  if st.available then { st with item := fun c => some (c.kind.stringify (h c)) } else st

/-- Replacing one store of a history. -/
def History.put (h : History) (c : Component) (store : c.kind.Store) : History := fun other =>
  if same : other = c then same ▸ store else h other

@[simp] theorem put_self (h : History) (c : Component) (store : c.kind.Store) : h.put c store c = store := by
  simp [History.put]

theorem put_ne (h : History) {c other : Component} (store : c.kind.Store) (different : other ≠ c) :
    h.put c store other = h other := by
  simp [History.put, different]

/-- The shape of the clean operations: renew some stores, then save all. -/
def cleanWith (renew : History → History) (cl : Bool) (h : History) (st : LocalStorage) :
    History × LocalStorage :=
  if cl then (renew h, save (renew h) st) else (h, st)

/-- `UserHistory.exclude_clean`. -/
def excludeClean : Bool → History → LocalStorage → History × LocalStorage :=
  cleanWith fun h => h.put .exclude (Kind.fresh _)

/-- `UserHistory.retargeting_clean`. -/
def retargetingClean : Bool → History → LocalStorage → History × LocalStorage :=
  cleanWith fun h => (h.put .retargetingExclude (Kind.fresh _)).put .retargetingView (Kind.fresh _)

/-! ## The counters of the exclude stores -/

/-- The counter a store in memory holds for an id; only exclude stores count. -/
def Kind.count : (k : Kind) → k.Store → PropertyName → Option Counter
  | excludeOffers _ _ => fun store guid => store.counts.get? guid
  | _ => fun _ _ => none

/-- The counter a stored copy holds for an id. -/
def Kind.storedCount : (k : Kind) → Option k.Json → PropertyName → Option (Option ℚ)
  | excludeOffers _ _ => fun copy guid => copy.bind (KeyMap.get? · guid)
  | _ => fun _ _ => none

def History.count (h : History) (c : Component) (guid : PropertyName) : Option Counter :=
  c.kind.count (h c) guid

def LocalStorage.count (st : LocalStorage) (c : Component) (guid : PropertyName) : Option (Option ℚ) :=
  c.kind.storedCount (st.item c) guid

/-- The counter a load takes from storage. -/
def LocalStorage.loaded (st : LocalStorage) (c : Component) (guid : PropertyName) : Option Counter :=
  (st.count c guid).map Counter.parse

theorem loaded_eq_none {st : LocalStorage} {c : Component} {guid : PropertyName} :
    st.loaded c guid = none ↔ st.count c guid = none := Option.map_eq_none_iff

theorem loaded_inj {st other : LocalStorage} {c : Component} {guid : PropertyName} :
    st.loaded c guid = other.loaded c guid ↔ st.count c guid = other.count c guid := by
  constructor
  · intro same
    simpa [LocalStorage.loaded, Function.comp_def] using congrArg (Option.map Counter.stringify) same
  · intro same
    rw [LocalStorage.loaded, same, LocalStorage.loaded]

theorem Kind.count_load (k : Kind) (store : k.Store) (stored : k.Json) (guid : PropertyName) :
    k.count (k.load store stored) guid =
      ((k.storedCount (some stored) guid).map Counter.parse).or (k.count store guid) := by
  cases k with
  | excludeOffers invert counter => exact ExcludeOffers.loadAll_get? store stored guid
  | _ => rfl

theorem Kind.storedCount_stringify (k : Kind) (store : k.Store) (guid : PropertyName) :
    k.storedCount (some (k.stringify store)) guid = (k.count store guid).map Counter.stringify := by
  cases k with
  | excludeOffers invert counter => exact (get?_reparse _ guid).trans (KeyMap.get?_mapValues _ _ guid)
  | _ => rfl

theorem Kind.storedCount_none (k : Kind) (guid : PropertyName) : k.storedCount none guid = none := by
  cases k <;> rfl

theorem Kind.count_fresh (k : Kind) (guid : PropertyName) : k.count k.fresh guid = none := by
  cases k <;> rfl

/-- Copies with the same content hold the same counters. -/
theorem Kind.Same.storedCount {k : Kind} {first second : Option k.Json} (same : k.Same first second)
    (guid : PropertyName) : k.storedCount first guid = k.storedCount second guid := by
  cases k with
  | excludeOffers invert counter => exact same guid
  | _ => rfl

@[simp] theorem fresh_count (c : Component) (guid : PropertyName) : History.fresh.count c guid = none :=
  c.kind.count_fresh guid

@[simp] theorem empty_count (c : Component) (guid : PropertyName) : LocalStorage.empty.count c guid = none :=
  c.kind.storedCount_none guid

/-- After a load the stored counter wins, and a counter only the memory has stays. -/
theorem load_count {st : LocalStorage} (available : st.available = true) (h : History) (c : Component)
    (guid : PropertyName) : (load h st).count c guid = (st.loaded c guid).or (h.count c guid) := by
  simp only [load, available, ↓reduceIte, History.count, LocalStorage.loaded, LocalStorage.count]
  cases st.item c with
  | none => simp [Kind.storedCount_none]
  | some stored => exact c.kind.count_load (h c) stored guid

@[simp] theorem save_available (h : History) (st : LocalStorage) :
    (save h st).available = st.available := by
  unfold save
  split <;> rfl

/-- After a save the stored counters are those in memory, as JSON writes them. -/
theorem save_count {st : LocalStorage} (available : st.available = true) (h : History) (c : Component)
    (guid : PropertyName) : (save h st).count c guid = (h.count c guid).map Counter.stringify := by
  simp only [save, available, ↓reduceIte, LocalStorage.count]
  exact c.kind.storedCount_stringify (h c) guid

/-- Every counter of the history comes back from JSON. -/
def History.Kept (h : History) : Prop := ∀ c guid, ∀ count ∈ h.count c guid, count.Kept

theorem kept_fresh : History.fresh.Kept := by
  intro c guid count held
  rw [fresh_count] at held
  cases held

theorem History.Kept.load {h : History} (kept : h.Kept) (st : LocalStorage) : (load h st).Kept := by
  intro c guid count held
  by_cases available : st.available = true
  · rw [load_count available, LocalStorage.loaded] at held
    cases stored : st.count c guid with
    | none =>
      rw [stored] at held
      exact kept c guid count held
    | some written =>
      rw [stored] at held
      obtain rfl : Counter.parse written = count := Option.some.inj held
      exact Counter.kept_parse written
  · have same : UserHistory.load h st = h := if_neg available
    rw [same] at held
    exact kept c guid count held

/-- A load finds the counters a history of kept ones has saved. -/
theorem save_loaded {st : LocalStorage} (available : st.available = true) {h : History} (kept : h.Kept)
    (c : Component) (guid : PropertyName) : (save h st).loaded c guid = h.count c guid := by
  rw [LocalStorage.loaded, save_count available]
  cases held : h.count c guid with
  | none => rfl
  | some count => exact congrArg some (kept c guid count held)

theorem put_count_self (h : History) (c : Component) (store : c.kind.Store) (guid : PropertyName) :
    (h.put c store).count c guid = c.kind.count store guid :=
  congrArg (fun s => c.kind.count s guid) (put_self h c store)

theorem put_count_ne (h : History) {c other : Component} (store : c.kind.Store) (guid : PropertyName)
    (different : other ≠ c) : (h.put c store).count other guid = h.count other guid :=
  congrArg (fun s => other.kind.count s guid) (put_ne h store different)

/-! ## Adding to an exclude store -/

/-- `add` of an exclude store, with a number from JSON; no other store is added to
here. -/
def Kind.add : (k : Kind) → k.Store → PropertyName → Option ℚ → k.Store
  | excludeOffers _ _ => fun store guid countViews => ExcludeOffers.add store guid (countViews.map Number.finite)
  | fixedQueue _ | retargetingOffers | classAccount _ | classUser _ | activityAccount | activityUser =>
    fun store _ _ => store

/-- What one `add` does to the counter of its id. -/
def Kind.afterAdd : Kind → Option Counter → Option ℚ → Option Counter
  | excludeOffers invert _ => fun old countViews =>
    some (ExcludeOffers.counted invert old (countViews.map Number.finite))
  | _ => fun old _ => old

/-- One call `uh.<component>.add(id, countViews)`. -/
structure Addition where
  component : Component
  id : PropertyName
  countViews : Option ℚ

def History.add (h : History) (a : Addition) : History :=
  h.put a.component (a.component.kind.add (h a.component) a.id a.countViews)

/-- The arguments of the additions to one counter, in order. -/
def tally (additions : List Addition) (c : Component) (guid : PropertyName) : List (Option ℚ) :=
  (additions.filter fun a => a.component = c ∧ a.id = guid).map Addition.countViews

theorem Kind.count_add (k : Kind) (store : k.Store) (guid asked : PropertyName) (countViews : Option ℚ) :
    k.count (k.add store guid countViews) asked =
      if asked = guid then k.afterAdd (k.count store guid) countViews else k.count store asked := by
  cases k with
  | excludeOffers invert counter =>
    exact ExcludeOffers.add_get? store guid asked (countViews.map Number.finite)
  | _ => exact (ite_self none).symm

theorem Kind.afterAdd_eq_none {k : Kind} {old : Option Counter} {countViews : Option ℚ}
    (none_after : k.afterAdd old countViews = none) : old = none := by
  cases k with
  | excludeOffers invert counter => cases none_after
  | _ => exact none_after

theorem Kind.foldl_afterAdd_eq_none {k : Kind} {old : Option Counter} {arguments : List (Option ℚ)}
    (none_after : arguments.foldl k.afterAdd old = none) : old = none := by
  induction arguments generalizing old with
  | nil => exact none_after
  | cons first rest ih => exact Kind.afterAdd_eq_none (ih none_after)

theorem Kind.afterAdd_kept (k : Kind) {old : Option Counter} (kept : ∀ count ∈ old, count.Kept)
    (countViews : Option ℚ) : ∀ count ∈ k.afterAdd old countViews, count.Kept := by
  cases k with
  | excludeOffers invert counter =>
    intro count after
    obtain rfl := Option.some.inj after
    exact ExcludeOffers.counted_kept invert kept countViews
  | _ => exact kept

theorem add_count (h : History) (a : Addition) (c : Component) (guid : PropertyName) :
    (h.add a).count c guid =
      if a.component = c ∧ a.id = guid then c.kind.afterAdd (h.count c guid) a.countViews
      else h.count c guid := by
  by_cases here : a.component = c
  · subst here
    rw [History.add, put_count_self, Kind.count_add]
    by_cases same : a.id = guid
    · simp [same, History.count]
    · simp [same, Ne.symm same, History.count]
  · rw [History.add, put_count_ne h _ _ (Ne.symm here)]
    simp [here]

theorem History.Kept.add {h : History} (kept : h.Kept) (a : Addition) : (h.add a).Kept := by
  intro c guid count held
  rw [add_count] at held
  split at held
  · exact Kind.afterAdd_kept _ (kept c guid) _ count held
  · exact kept c guid count held

theorem History.Kept.foldl_add {h : History} (kept : h.Kept) (additions : List Addition) :
    (additions.foldl History.add h).Kept := by
  induction additions generalizing h with
  | nil => exact kept
  | cons a rest ih => exact ih (kept.add a)

/-- Each counter after a list of additions: the additions to other counters do
not matter. -/
theorem foldl_add_count (h : History) (additions : List Addition) (c : Component) (guid : PropertyName) :
    (additions.foldl History.add h).count c guid =
      (tally additions c guid).foldl c.kind.afterAdd (h.count c guid) := by
  induction additions generalizing h with
  | nil => rfl
  | cons a rest ih =>
    rw [List.foldl_cons, ih, add_count]
    by_cases here : a.component = c ∧ a.id = guid
    · simp [tally, here]
    · simp [tally, here]

end WorkerInformer.UserHistory
