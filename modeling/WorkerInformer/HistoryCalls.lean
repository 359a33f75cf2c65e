import WorkerInformer.Texts
import WorkerInformer.UserHistory

/-! `template/storage.js`: the methods of the stores and of `UserHistory` that
the page calls. A call changes the history in memory, may save it, and gives an
answer; what depends on the browser, its clock and its conversions of texts to
numbers, is a parameter of the call. -/
namespace WorkerInformer.UserHistory
open Texts

/-- What a browser supplies. -/
structure Browser where
  /-- `Date.now()`. -/
  now : ℚ
  /-- `new Date(time).getDate()`; `none` is `NaN`. -/
  getDate : ℚ → Option ℚ
  /-- A text used as a number. -/
  numeral : String → Number
  parseInt : String → Number

/-! ## Texts -/

/-- `text.split('...')[0]`. -/
def beforeDots : List Char → List Char
  | '.' :: '.' :: '.' :: _ => []
  | c :: rest => c :: beforeDots rest
  | [] => []

namespace Scalar

def toNumber (browser : Browser) : Scalar → Number
  | undefined => .nan
  | null => 0
  | num value => value
  | str value => browser.numeral value

def toText : Scalar → String
  | undefined => "undefined"
  | null => "null"
  | num value => value.toText
  | str value => value

end Scalar

def Counter.toText : Counter → String
  | null => "null"
  | number value => value.toText

/-- The names every object inherits from `Object.prototype`. -/
def inheritedNames : List String :=
  ["constructor", "toString", "toLocaleString", "valueOf", "hasOwnProperty", "isPrototypeOf",
    "propertyIsEnumerable", "__defineGetter__", "__defineSetter__", "__lookupGetter__", "__lookupSetter__",
    "__proto__"]

/-- `Array.prototype.unique`: `n` starts as an object with the inherited members,
and the loop keeps what is no member of it yet. -/
def unique (texts : List String) : List String := uniqueFrom inheritedNames texts

/-! ## The methods of the stores -/

namespace FixedQueue
variable {size : Nat}

/-- The element of a short array a property name stands for. -/
def elementIndex? (size : Nat) (name : String) : Option Nat :=
  (List.range size).find? fun index => toString index = name

/-- `FixedQueue.add(arg1, arg2)`; a name that is no index of the queue creates
a property nothing reads. -/
def add (queue : FixedQueue size) (arg1 : String) (arg2 : Option String) : FixedQueue size :=
  if arg2.getD "" = "" then trim (pushNew queue.items arg1)
  else match elementIndex? size arg1 with
    | some index => trim (setAt queue.items index (arg2.getD ""))
    | none => trim queue.items

/-- `FixedQueue.get()`, which trims first; a hole is an empty text. -/
def get (queue : FixedQueue size) : String :=
  joinTexts ";" ((trim queue.items : FixedQueue size).items.map (·.getD ""))

end FixedQueue

/-- `ExcludeOffers.getString()`. -/
def ExcludeOffers.getString {invert counter : Bool} (store : ExcludeOffers invert counter) : String :=
  joinTexts ";" (store.get.map fun e => if counter then e.1.text ++ "~" ++ e.2.toText else e.1.text)

namespace RetargetingOffers

/-- `RetargetingOffers.add(guid, arg1, arg2, arg3, arg4)`. -/
def add (store : RetargetingOffers) (guid : PropertyName) (arg1 arg2 arg3 arg4 : Scalar) : RetargetingOffers :=
  ⟨store.offers.set guid (arg1, arg2, arg3, arg4)⟩

/-- `RetargetingOffers.remove(key)`. -/
def remove (store : RetargetingOffers) (key : PropertyName) : RetargetingOffers :=
  ⟨store.offers.erase key⟩

/-- An element of `keys` in `RetargetingOffers.get`. -/
structure Listed where
  name : String
  third : Scalar
  second : Scalar
  /-- `parseInt(this[key][3])`, by which the elements are sorted. -/
  time : Number
  /-- The days between the days of the month; `none` is `NaN`. -/
  days : Option ℚ

/-- `Math.abs(new Date(now).getDate() - new Date(time * 1000).getDate())`. -/
def days (browser : Browser) (time : Scalar) : Option ℚ :=
  match time.toNumber browser with
  | .finite seconds => do
    let shown ← browser.getDate (seconds * 1000)
    let today ← browser.getDate browser.now.floor
    return max (today - shown) (shown - today)
  | .nan | .infinity _ => none

/-- `value[0] > time`. -/
def isFresh (browser : Browser) (until_ : Scalar) : Bool :=
  Number.lt (browser.now.floor : ℚ) (until_.toNumber browser)

/-- The comparison does not put `first` behind `second`. -/
def Listed.notAfter (first second : Listed) : Bool := !second.time.lt first.time

/-- `RetargetingOffers.get()`. -/
def get (browser : Browser) (store : RetargetingOffers) : String :=
  let keys := ((ownProperties store.offers).filter fun e => isFresh browser e.2.1).map fun e =>
    { name := String.ofList (beforeDots e.1.text.toList)
      third := e.2.2.2.1
      second := e.2.2.1
      time := browser.parseInt e.2.2.2.2.toText
      days := days browser e.2.2.2.2 : Listed }
  let sorted := keys.insertionSort fun a b => a.notAfter b = true
  joinTexts ";" (sorted.map fun e =>
    e.name ++ "~" ++ e.third.toText ++ "~" ++ e.second.toText ++ "~" ++ (e.days.map Number.finiteText).getD "NaN")

end RetargetingOffers

/-- `hit_log[val] += 1`. -/
def hit (hitLog : List Nat) (val : Nat) : List Nat := hitLog.modify val (· + 1)

/-- `hit_log.indexOf(Math.max.apply(Math, hit_log))`. -/
def mostHit (hitLog : List Nat) : Nat := hitLog.idxOf (hitLog.foldl max 0)

/-- `GenderAccount.add` and `CostAccount.add`. A name every object inherits is
not `undefined` and has no hits: the call throws. -/
def ClassAccount.add {classes : Nat} (store : ClassAccount classes) (guid : AccountKey) (val : Fin classes) :
    ClassAccount classes :=
  match store.accounts.get? guid with
  | none =>
    if guid.text ∈ inheritedNames then store
    else ⟨store.accounts.set guid (val, hit (List.replicate classes 0) val)⟩
  | some (_, hitLog) =>
    let hitLog := (hit hitLog val).set 0 1
    ⟨store.accounts.set guid (mostHit hitLog, hitLog)⟩

/-- `GenderAccount.get` and `CostAccount.get`. -/
def ClassAccount.get {classes : Nat} (store : ClassAccount classes) : String :=
  joinTexts ";" ((ownProperties store.accounts).map fun e => e.1.text ++ "~" ++ toString e.2.1)

/-- `GenderUser.add` and `CostUser.add`. -/
def ClassUser.add {classes : Nat} (store : ClassUser classes) (val : Fin classes) : ClassUser classes :=
  match store.label, store.hitLog with
  | none, _ => ⟨some val, some (hit (List.replicate classes 0) val)⟩
  | some label, none => ⟨some label, none⟩
  | some _, some hitLog =>
    let hitLog := (hit hitLog val).set 0 1
    ⟨some (mostHit hitLog), some hitLog⟩

/-- `ActivityAccount.add`; what an inherited name leads to is not in the store. -/
def ActivityAccount.add (store : ActivityAccount) (guid : PropertyName) (timeFirst timeLast : Scalar) :
    ActivityAccount :=
  match store.accounts.get? guid with
  | none => if guid.text ∈ inheritedNames then store else ⟨store.accounts.set guid (timeFirst, timeLast)⟩
  | some (first, _) => ⟨store.accounts.set guid (first, timeLast)⟩

/-- `ActivityUser.add`. -/
def ActivityUser.add (store : ActivityUser) (timeFirst timeLast : Scalar) : ActivityUser :=
  ⟨some (if store.timeFirst.getD .undefined = .undefined then timeFirst else store.timeFirst.getD .undefined),
    some timeLast⟩

/-! ## The calls on a history -/

namespace Kind

/-- The arguments of a store's `add`; a `none` is an argument left out. -/
def Arguments : Kind → Type
  | fixedQueue _ => String × Option String
  | excludeOffers _ _ => PropertyName × Option Number
  | retargetingOffers => PropertyName × Scalar × Scalar × Scalar × Scalar
  | classAccount classes => AccountKey × Fin classes
  | classUser classes => Fin classes
  | activityAccount => PropertyName × Scalar × Scalar
  | activityUser => Scalar × Scalar

/-- `store.add(...)`. -/
def addCall : (k : Kind) → k.Store → k.Arguments → k.Store
  | fixedQueue _ => fun store given => FixedQueue.add store given.1 given.2
  | excludeOffers _ _ => fun store given => ExcludeOffers.add store given.1 given.2
  | retargetingOffers => fun store given =>
    RetargetingOffers.add store given.1 given.2.1 given.2.2.1 given.2.2.2.1 given.2.2.2.2
  | classAccount _ => fun store given => ClassAccount.add store given.1 given.2
  | classUser _ => ClassUser.add
  | activityAccount => fun store given => ActivityAccount.add store given.1 given.2.1 given.2.2
  | activityUser => fun store given => ActivityUser.add store given.1 given.2

end Kind

/-- What a call returns. -/
inductive Answer
  | undefined
  | boolean (value : Bool)
  | text (value : String)
  | number (value : Nat)
  /-- Keys, with their counters for a counting store. -/
  | keys (listed : List (PropertyName × Option Counter))
  deriving DecidableEq

namespace Kind

/-- `store.get()`; the activity stores have no such method. -/
def get (browser : Browser) : (k : Kind) → k.Store → Answer
  | fixedQueue _ => fun store => .text (FixedQueue.get store)
  | excludeOffers _ counter => fun store =>
    .keys ((ExcludeOffers.get store).map fun e => (e.1, if counter then some e.2 else none))
  | retargetingOffers => fun store => .text (RetargetingOffers.get browser store)
  | classAccount _ => fun store => .text (ClassAccount.get store)
  | classUser _ => fun store => match ClassUser.label store with
    | some label => .number label
    | none => .text ""
  | activityAccount | activityUser => fun _ => .undefined

/-- The store after `get`: that of a queue trims it. -/
def afterGet : (k : Kind) → k.Store → k.Store
  | fixedQueue _ => fun store => FixedQueue.trim (FixedQueue.items store)
  | excludeOffers _ _ | retargetingOffers | classAccount _ | classUser _ | activityAccount | activityUser => id

/-- `store.getString()`, which only the exclude stores have. -/
def getString : (k : Kind) → k.Store → Answer
  | excludeOffers _ _ => fun store => .text (ExcludeOffers.getString store)
  | fixedQueue _ | retargetingOffers | classAccount _ | classUser _ | activityAccount | activityUser =>
    fun _ => .undefined

end Kind

/-- The clean operations of `UserHistory`. -/
inductive CleanCall
  | exclude
  | excludeClick
  | retargeting
  | retargetingAccount
  | retargetingClick

/-- The keys `exclude_get`, `retargeting_exclude_get` and
`retargeting_account_exclude_get` are made of. -/
inductive ExcludeGet
  | exclude
  | retargetingExclude
  | retargetingAccountExclude

/-- The keys of the two stores of the operation, the click store last. -/
def ExcludeGet.keys (h : History) : ExcludeGet → List String
  | exclude => ((ExcludeOffers.get (h .exclude)) ++ ExcludeOffers.get (h .excludeClick)).map (·.1.text)
  | retargetingExclude =>
    ((ExcludeOffers.get (h .retargetingExclude)) ++ ExcludeOffers.get (h .retargetingExcludeClick)).map (·.1.text)
  | retargetingAccountExclude =>
    ((ExcludeOffers.get (h .retargetingAccountExclude)) ++
      ExcludeOffers.get (h .retargetingAccountExcludeClick)).map (·.1.text)

/-- The two texts of the library: `template/storage.js`, and the minified copy
in `template/rg.js` that pages load. -/
inductive Copy
  | source
  | shipped

/-- `exclude_get(viewed)` and its two siblings. The source has no parameter, the
shipped copy adds the ids it is given. -/
def excludeGet (copy : Copy) (which : ExcludeGet) (h : History) (viewed : List String) : String :=
  match copy with
  | .source => joinTexts ";" (unique (which.keys h))
  | .shipped => joinTexts ";" (unique (which.keys h ++ viewed))

/-- A `UserHistory` in memory. `retargeting_click_clean` writes a member of its
own, which no constructor creates. -/
structure Memory where
  stores : History
  retargetingClickExclude : Option (ExcludeOffers false false)

/-- `new UserHistory()`. -/
def Memory.fresh : Memory := ⟨History.fresh, none⟩

/-- `localStorage`, with the entry of that member. -/
structure Saved where
  storage : LocalStorage
  retargetingClickExclude : Option (KeyMap PropertyName (Option ℚ))

/-- A browser that has stored nothing yet. -/
def nothingSaved : Saved := ⟨LocalStorage.empty, none⟩

/-- `UserHistory.load`; only a member the history has is loaded. -/
def Memory.load (m : Memory) (saved : Saved) : Memory :=
  ⟨UserHistory.load m.stores saved.storage,
    if saved.storage.available then
      m.retargetingClickExclude.map fun store =>
        (saved.retargetingClickExclude.map store.loadAll).getD store
    else m.retargetingClickExclude⟩

/-- `UserHistory.save`. -/
def Memory.save (m : Memory) (saved : Saved) : Saved :=
  ⟨UserHistory.save m.stores saved.storage,
    if saved.storage.available then
      (m.retargetingClickExclude.map ExcludeOffers.stringify).or saved.retargetingClickExclude
    else saved.retargetingClickExclude⟩

/-- The history with the stores of a clean operation renewed.
`retargeting_click_clean` renews none of the seventeen. -/
def Memory.renew (m : Memory) : CleanCall → Memory
  | .exclude => { m with stores := m.stores.put .exclude (Kind.fresh _) }
  | .excludeClick => { m with stores := m.stores.put .excludeClick (Kind.fresh _) }
  | .retargeting =>
    { m with stores := (m.stores.put .retargetingExclude (Kind.fresh _)).put .retargetingView (Kind.fresh _) }
  | .retargetingAccount => { m with stores := m.stores.put .retargetingAccountExclude (Kind.fresh _) }
  | .retargetingClick => { m with retargetingClickExclude := some ExcludeOffers.fresh }

/-- The history in memory and what is stored. -/
structure Session where
  memory : Memory
  saved : Saved

/-- The calls that change a history. -/
inductive Change
  | add (c : Component) (given : c.kind.Arguments)
  | remove (key : PropertyName)
  | clean (which : CleanCall) (cl : Bool)

/-- `uh.<component>.add(...)`, `uh.retargeting.remove(key)` and the clean
operations, which save the history they have renewed. -/
def change (session : Session) : Change → Session
  | .add c given =>
    { session with memory.stores := session.memory.stores.put c (c.kind.addCall (session.memory.stores c) given) }
  | .remove key =>
    { session with memory.stores :=
        session.memory.stores.put .retargeting (RetargetingOffers.remove (session.memory.stores .retargeting) key) }
  | .clean which cl =>
    if cl then ⟨session.memory.renew which, (session.memory.renew which).save session.saved⟩ else session

/-- The other calls. -/
inductive Call
  | change (what : Change)
  /-- `uh.<component>.load(key, value)` for the properties of an object. -/
  | loadStore (c : Component) (stored : c.kind.Json)
  | load
  | save
  | get (browser : Browser) (c : Component)
  | getString (c : Component)
  | excludeGet (which : ExcludeGet) (viewed : List String)

/-- The state after a call, the same for both copies of the library. -/
def step (session : Session) : Call → Session
  | .change what => UserHistory.change session what
  | .loadStore c stored =>
    { session with memory.stores := session.memory.stores.put c (c.kind.load (session.memory.stores c) stored) }
  | .load => { session with memory := session.memory.load session.saved }
  | .save => { session with saved := session.memory.save session.saved }
  | .get _ c =>
    { session with memory.stores := session.memory.stores.put c (c.kind.afterGet (session.memory.stores c)) }
  | .getString _ | .excludeGet _ _ => session

/-- What a call returns, before it has changed anything. -/
def answer (copy : Copy) (session : Session) : Call → Answer
  | .change (.clean _ cl) => .boolean cl
  | .change _ | .loadStore _ _ => .undefined
  | .load | .save => .boolean session.saved.storage.available
  | .get browser c => c.kind.get browser (session.memory.stores c)
  | .getString c => c.kind.getString (session.memory.stores c)
  | .excludeGet which viewed => .text (UserHistory.excludeGet copy which session.memory.stores viewed)

end WorkerInformer.UserHistory
