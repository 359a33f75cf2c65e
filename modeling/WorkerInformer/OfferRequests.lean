import WorkerInformer.Frames

/-! `template/teaser.html`: the three requests for offers and `offerUnion`,
which joins their answers and cleans the visitor's history. A request that
failed or was never sent is handed on as the empty object. The visit is one
frame whose memory agrees with what is stored, as every load and save of a
single frame leaves it. -/
namespace WorkerInformer.OfferRequests
open UserHistory Frames

/-- A parsed JSON text. -/
inductive Json
  | null
  | bool (value : Bool)
  | num (value : ℚ)
  | str (value : String)
  | arr (items : List Json)
  | obj (members : List (String × Json))

/-- A JavaScript value that is a parsed JSON text or `undefined`. -/
abbrev Value := Option Json

namespace Value

/-- `value[name]`; of members with one name the last counts. -/
def member (value : Value) (name : String) : Value :=
  match value with
  | some (.obj members) => members.reverse.lookup name
  | _ => none

def truthy : Value → Bool
  | none | some .null => false
  | some (.bool value) => value
  | some (.num value) => value ≠ 0
  | some (.str value) => value ≠ ""
  | some (.arr _) | some (.obj _) => true

/-- `value == null`. -/
def isNull : Value → Bool
  | none | some .null => true
  | _ => false

/-- `(value || []).length !== 0`. -/
def hasItems (value : Value) : Bool :=
  if value.truthy then
    match value with
    | some (.arr items) => items ≠ []
    | some (.str text) => text ≠ ""
    | some (.obj _) =>
      match value.member "length" with
      | some (.num length) => length ≠ 0
      | _ => true
    | _ => true
  else false

/-- The items `result.concat(value)` appends. -/
def concatenated : Value → List Value
  | some (.arr items) => items.map some
  | value => [value]

end Value

/-- How a request that was sent ended; an answer without a body is `undefined`. -/
inductive Outcome
  | answered (data : Value)
  | failed

/-- What the page resolves the deferred of a sent request with. -/
def Outcome.resolved : Outcome → Value
  | answered data => data
  | failed => some (.obj [])

/-- The branches of the informer that `getCampaignData` looks at. -/
structure Branches where
  socialBranch : Bool
  placeBranch : Bool
  retargetingBranch : Bool

/-- An entry of `requiredData`. -/
structure Required where
  param : String
  isDisable : Bool
  url : String
  always : Bool

def place (informer : Branches) : Required :=
  ⟨"place", !(informer.socialBranch || informer.placeBranch), "/place.json", true⟩

def retargetingAccount (informer : Branches) : Required :=
  ⟨"retargetingAccount", !informer.retargetingBranch, "/retargeting-account.json", false⟩

def retargetingOffer (informer : Branches) : Required :=
  ⟨"retargetingOffer", !informer.retargetingBranch, "/retargeting.json", false⟩

/-- The request is sent; `params` holds the joined campaign ids. -/
def Required.sent (required : Required) (params : String → Option String) : Bool :=
  required.always || !((params required.param).getD "" = "" || required.isDisable)

/-- The value `$.when` hands on for a request, and the outcome if it was sent. -/
def Required.value (required : Required) (params : String → Option String) (outcome : String → Outcome) :
    Value :=
  if required.sent params then (outcome required.url).resolved else some (.obj [])

theorem clean_renews (which : Clean) (h : History) (st : LocalStorage) {c : Component}
    (named : c ∈ which.components) (id : PropertyName) : ((which.run h st).1).count c id = none := by
  cases which with
  | exclude =>
    obtain rfl := List.mem_singleton.mp named
    exact (put_count_self _ _ _ id).trans (Kind.count_fresh _ id)
  | retargeting =>
    rcases List.mem_cons.mp named with rfl | view
    · exact (put_count_ne _ _ id (by decide)).trans
        ((put_count_self _ _ _ id).trans (Kind.count_fresh _ id))
    · obtain rfl := List.mem_singleton.mp view
      exact (put_count_self _ _ _ id).trans (Kind.count_fresh _ id)

theorem clean_kept {h : History} (kept : h.Kept) (st : LocalStorage) (which : Clean) : (which.run h st).1.Kept := by
  intro c id count held
  by_cases named : c ∈ which.components
  · rw [clean_renews which h st named] at held
    cases held
  · rw [History.count, clean_keeps_memory which h st named] at held
    exact kept c id count held

/-- One frame: its memory has the counters that are stored. -/
structure Visit where
  memory : History
  storage : LocalStorage
  agrees : storage.available = true → ∀ c id, memory.count c id = storage.loaded c id
  kept : memory.Kept

/-- The page after its first request: a new history, loaded. -/
def Visit.start (storage : LocalStorage) : Visit :=
  ⟨load History.fresh storage, storage, fun available c id => by
    simp [load_count available], kept_fresh.load storage⟩

/-- `uh.load()`, which `beforeSend` calls. -/
def Visit.load (v : Visit) : Visit :=
  ⟨UserHistory.load v.memory v.storage, v.storage, fun available c id => by
    rw [load_count available, v.agrees available, Option.or_self], v.kept.load v.storage⟩

/-- `render` or a click: load, add, save. -/
def Visit.addAndSave (v : Visit) (additions : List Addition) : Visit :=
  let added := additions.foldl History.add v.load.memory
  have kept : added.Kept := v.load.kept.foldl_add additions
  ⟨added, save added v.storage, fun available c id =>
    (save_loaded ((save_available _ _).symm.trans available) kept c id).symm, kept⟩

/-- `exclude_clean(cl)` or `retargeting_clean(cl)`. -/
def Visit.clean (v : Visit) (which : Clean) (cl : Bool) : Visit :=
  if cl then
    have kept := clean_kept v.kept v.storage which
    ⟨(which.run v.memory v.storage).1, (which.run v.memory v.storage).2, fun available c id => by
      rw [clean_saves] at available ⊢
      exact (save_loaded ((save_available _ _).symm.trans available) kept c id).symm, kept⟩
  else v

/-- `items.slice(0, stop)`; a negative `stop` counts from the end. -/
def slice (items : List Value) (stop : Int) : List Value :=
  items.take (if 0 ≤ stop then stop else items.length + stop).toNat

/-- `offerUnion(place, retargeringAccount, retargering)`: the offers to show and
the history it leaves. -/
def offerUnion (capacity : Int) (place retargeringAccount retargering : Value) (v : Visit) :
    List Value × Visit :=
  let result := if retargering.truthy && (retargering.member "retargering").hasItems then
    (retargering.member "retargering").concatenated else []
  let result := if retargeringAccount.truthy &&
      (retargeringAccount.member "retargeringAccount").hasItems then
    result ++ (retargeringAccount.member "retargeringAccount").concatenated else result
  let result := if place.truthy && (place.member "place").hasItems then
    result ++ (place.member "place").concatenated else result
  let v := if place.truthy && (place.member "place").hasItems then
    v.clean .exclude (place.member "clean").truthy else v
  let result := if place.truthy && (place.member "social").hasItems then
    result ++ (place.member "social").concatenated else result
  let v := if place.truthy && (place.member "place").isNull then v.clean .exclude true else v
  let v := if retargering.truthy && (retargering.member "retargering").isNull then
    v.clean .retargeting true else v
  (slice result capacity, v)

/-- The frame and what the requests need: the informer and the campaign ids. -/
structure Page where
  informer : Branches
  capacity : Int
  params : String → Option String
  visit : Visit

/-- The requests that are sent, each of which loads the history first. -/
def Page.beforeSend (page : Page) : Visit :=
  [place page.informer, retargetingAccount page.informer, retargetingOffer page.informer].foldl
    (fun v required => if required.sent page.params then v.load else v) page.visit

/-- `getCampaignData` with these outcomes, then `offerUnion`. -/
def getCampaignDataProcces (page : Page) (outcome : String → Outcome) : List Value × Visit :=
  offerUnion page.capacity ((place page.informer).value page.params outcome)
    ((retargetingAccount page.informer).value page.params outcome)
    ((retargetingOffer page.informer).value page.params outcome) page.beforeSend

/-! ## What the answers clean -/

/-- The clean operations `offerUnion` executes, in order. -/
def cleans (place retargering : Value) : List Clean :=
  (if place.truthy && (place.member "place").hasItems && (place.member "clean").truthy then [.exclude] else []) ++
  (if place.truthy && (place.member "place").isNull then [.exclude] else []) ++
  (if retargering.truthy && (retargering.member "retargering").isNull then [.retargeting] else [])

def Visit.cleanAll (v : Visit) (which : List Clean) : Visit :=
  which.foldl (fun v which => v.clean which true) v

theorem offerUnion_visit (capacity : Int) (place retargeringAccount retargering : Value) (v : Visit) :
    (offerUnion capacity place retargeringAccount retargering v).2 = v.cleanAll (cleans place retargering) := by
  simp only [offerUnion, cleans, Visit.cleanAll]
  cases place.truthy <;> cases (place.member "place").hasItems <;> cases (place.member "clean").truthy <;>
    cases (place.member "place").isNull <;> cases retargering.truthy <;>
    cases (retargering.member "retargering").isNull <;> simp [Visit.clean]

/-- The counters of a component are those from before, in memory and in storage. -/
def Unchanged (c : Component) (before after : Visit) : Prop :=
  ∀ id, after.memory.count c id = before.memory.count c id ∧
    after.storage.count c id = before.storage.count c id

def Empty (c : Component) (v : Visit) : Prop := ∀ id, v.memory.count c id = none

/-- Unavailable storage is left alone. -/
structure KeepsStorage (before after : Visit) : Prop where
  available : after.storage.available = before.storage.available
  unavailable : before.storage.available = false → after.storage = before.storage

theorem KeepsStorage.trans {first second third : Visit} (one : KeepsStorage first second)
    (two : KeepsStorage second third) : KeepsStorage first third :=
  ⟨two.available.trans one.available,
    fun off => (two.unavailable (one.available.trans off)).trans (one.unavailable off)⟩

/-- Memory and storage agree, so the memory decides whether anything changed. -/
theorem unchanged_iff_memory {c : Component} {before after : Visit} (keeps : KeepsStorage before after) :
    Unchanged c before after ↔ ∀ id, after.memory.count c id = before.memory.count c id := by
  refine forall_congr' fun id => and_iff_left_of_imp fun same => ?_
  cases available : before.storage.available with
  | true =>
    rw [← loaded_inj, ← after.agrees (keeps.available.trans available), ← before.agrees available, same]
  | false => rw [keeps.unavailable available]

theorem clean_keepsStorage (v : Visit) (which : Clean) : KeepsStorage v (v.clean which true) := by
  constructor
  · simp [Visit.clean, clean_saves]
  · intro off
    simp [Visit.clean, clean_saves, save, off]

theorem cleanAll_keepsStorage (v : Visit) (which : List Clean) : KeepsStorage v (v.cleanAll which) := by
  induction which generalizing v with
  | nil => exact ⟨rfl, fun _ => rfl⟩
  | cons first rest ih => exact (clean_keepsStorage v first).trans (ih _)

theorem cleanAll_memory (v : Visit) (which : List Clean) (c : Component) (id : PropertyName) :
    (v.cleanAll which).memory.count c id =
      if ∃ clean ∈ which, c ∈ clean.components then none else v.memory.count c id := by
  induction which generalizing v with
  | nil => simp [Visit.cleanAll]
  | cons first rest ih =>
    apply (ih (v.clean first true)).trans
    by_cases named : c ∈ first.components
    · simp [named, Visit.clean, clean_renews]
    · simp [named, Visit.clean, History.count, clean_keeps_memory first _ _ named]

/-- Clean operations leave a component unchanged when none of them names it or
there is nothing in it. -/
theorem cleanAll_unchanged_iff (v : Visit) (which : List Clean) (c : Component) :
    Unchanged c v (v.cleanAll which) ↔ ((∃ clean ∈ which, c ∈ clean.components) → Empty c v) := by
  rw [unchanged_iff_memory (cleanAll_keepsStorage v which)]
  simp only [cleanAll_memory, Empty]
  by_cases named : ∃ clean ∈ which, c ∈ clean.components
  · simp [named, eq_comm]
  · simp [named]

theorem load_memory (v : Visit) (c : Component) (id : PropertyName) :
    v.load.memory.count c id = v.memory.count c id := by
  cases available : v.storage.available with
  | true => simp [Visit.load, load_count available, v.agrees available]
  | false => simp [Visit.load, UserHistory.load, available]

/-- Sending requests changes no counter. -/
theorem beforeSend_same (page : Page) :
    page.beforeSend.storage = page.visit.storage ∧
      ∀ c id, page.beforeSend.memory.count c id = page.visit.memory.count c id := by
  have run : ∀ (requests : List Required) (v : Visit),
      (requests.foldl (fun v required => if required.sent page.params then v.load else v) v).storage =
          v.storage ∧
        ∀ c id, (requests.foldl (fun v required => if required.sent page.params then v.load else v)
          v).memory.count c id = v.memory.count c id := by
    intro requests
    induction requests with
    | nil => exact fun v => ⟨rfl, fun _ _ => rfl⟩
    | cons first rest ih =>
      intro v
      rw [List.foldl_cons]
      by_cases sent : first.sent page.params = true
      · simp only [sent, ↓reduceIte]
        exact ⟨(ih v.load).1, fun c id => ((ih v.load).2 c id).trans (load_memory v c id)⟩
      · simp only [sent, Bool.false_eq_true, ↓reduceIte]
        exact ih v
  exact run _ page.visit

/-- `/place.json` answered and asked for a clean or had no place list. -/
def PlaceAsksForClean (outcome : Outcome) : Prop :=
  ∃ data : Value, outcome = .answered data ∧
    ((data.member "clean").truthy = true ∨ (data.member "place").isNull = true)

/-- `/retargeting.json` answered without a retargeting list. -/
def NoRetargetingList (outcome : Outcome) : Prop :=
  ∃ data : Value, outcome = .answered data ∧ (data.member "retargering").isNull = true

/-- Only an answer that asks for it erases a component of the history. -/
def ErasesOnlyWhenAsked (page : Page) (outcome : String → Outcome) (after : Visit) : Prop :=
  (¬ PlaceAsksForClean (outcome (place page.informer).url) → Unchanged .exclude page.visit after) ∧
  (¬ ((retargetingOffer page.informer).sent page.params = true ∧
      NoRetargetingList (outcome (retargetingOffer page.informer).url)) →
    Unchanged .retargetingExclude page.visit after ∧ Unchanged .retargetingView page.visit after)

/-- Where an answer is missing there is nothing to erase. -/
def NothingToErase (page : Page) (outcome : String → Outcome) : Prop :=
  (outcome (place page.informer).url = .failed → Empty .exclude page.visit) ∧
  ((retargetingOffer page.informer).sent page.params = false ∨
      outcome (retargetingOffer page.informer).url = .failed →
    Empty .retargetingExclude page.visit ∧ Empty .retargetingView page.visit)

private theorem excludes_iff (place retargering : Value) :
    (∃ clean ∈ cleans place retargering, Component.exclude ∈ clean.components) ↔
      place.truthy = true ∧ ((place.member "place").hasItems = true ∧ (place.member "clean").truthy = true ∨
        (place.member "place").isNull = true) := by
  simp only [cleans]
  cases place.truthy <;> cases (place.member "place").hasItems <;> cases (place.member "clean").truthy <;>
    cases (place.member "place").isNull <;> cases retargering.truthy <;>
    cases (retargering.member "retargering").isNull <;> decide

private theorem retargets_iff (place retargering : Value) {c : Component}
    (named : c ∈ Clean.retargeting.components) :
    (∃ clean ∈ cleans place retargering, c ∈ clean.components) ↔
      retargering.truthy = true ∧ (retargering.member "retargering").isNull = true := by
  have other : c ∉ Clean.exclude.components := by
    rcases List.mem_cons.mp named with rfl | view
    · decide
    · rw [List.mem_singleton.mp view]
      decide
  simp only [cleans]
  cases place.truthy <;> cases (place.member "place").hasItems <;> cases (place.member "clean").truthy <;>
    cases (place.member "place").isNull <;> cases retargering.truthy <;>
    cases (retargering.member "retargering").isNull <;> simp [named, other]

private theorem getCampaignData_unchanged_iff (page : Page) (outcome : String → Outcome) (c : Component) :
    Unchanged c page.visit (getCampaignDataProcces page outcome).2 ↔
      ((∃ clean ∈ cleans ((place page.informer).value page.params outcome)
          ((retargetingOffer page.informer).value page.params outcome), c ∈ clean.components) →
        Empty c page.visit) := by
  obtain ⟨storage, memory⟩ := beforeSend_same page
  rw [getCampaignDataProcces, offerUnion_visit]
  have cleaned := cleanAll_unchanged_iff page.beforeSend (cleans ((place page.informer).value page.params outcome)
    ((retargetingOffer page.informer).value page.params outcome)) c
  simpa only [Unchanged, Empty, memory, storage] using cleaned

/-- **A missing answer erases exactly what there is to erase.** For every visit
and all outcomes of the three requests, a component is erased only by an answer
that asks for it if and only if the components that a failed `/place.json`, and
a failed or unsent `/retargeting.json`, stand for are empty. -/
theorem erases_only_when_asked_iff (page : Page) (outcome : String → Outcome) :
    ErasesOnlyWhenAsked page outcome (getCampaignDataProcces page outcome).2 ↔
      NothingToErase page outcome := by
  simp only [ErasesOnlyWhenAsked, NothingToErase, getCampaignData_unchanged_iff, excludes_iff,
    retargets_iff _ _ (show Component.retargetingExclude ∈ Clean.retargeting.components by decide),
    retargets_iff _ _ (show Component.retargetingView ∈ Clean.retargeting.components by decide)]
  refine and_congr ?_ ?_
  · have always : (place page.informer).sent page.params = true := rfl
    simp only [Required.value, always, ↓reduceIte]
    cases outcome (place page.informer).url with
    | answered data =>
      refine iff_of_true (fun silent cleaned => absurd ⟨data, rfl, ?_⟩ silent) (fun failed => by cases failed)
      exact cleaned.2.imp And.right id
    | failed =>
      have silent : ¬ PlaceAsksForClean .failed := by rintro ⟨data, failed, -⟩; cases failed
      simp [silent, Outcome.resolved, Value.truthy, Value.member, Value.isNull]
  · cases sent : (retargetingOffer page.informer).sent page.params with
    | false =>
      simp [Required.value, sent, Value.truthy, Value.member, Value.isNull]
    | true =>
      simp only [Required.value, sent, ↓reduceIte, true_and, Bool.true_eq_false, false_or]
      cases outcome (retargetingOffer page.informer).url with
      | answered data =>
        refine iff_of_true (fun listed => ?_) (fun failed => by cases failed)
        have kept : ¬ (data.member "retargering").isNull = true := fun gone => listed ⟨data, rfl, gone⟩
        exact ⟨fun cleaned => absurd cleaned.2 kept, fun cleaned => absurd cleaned.2 kept⟩
      | failed =>
        have silent : ¬ NoRetargetingList .failed := by rintro ⟨data, failed, -⟩; cases failed
        simp [silent, Outcome.resolved, Value.truthy, Value.member, Value.isNull]

/-- A visit in which one offer was shown once, with no retargeting campaigns. -/
def shownOnce : Page where
  informer := ⟨true, true, false⟩
  capacity := 4
  params := fun _ => none
  visit := (Visit.start LocalStorage.empty).addAndSave [⟨.exclude, offer17.id, some 1⟩]

/-- When `/place.json` fails then, the visitor's `exclude` history is erased. -/
theorem failed_place_erases :
    ¬ ErasesOnlyWhenAsked shownOnce (fun _ => .failed)
      (getCampaignDataProcces shownOnce fun _ => .failed).2 := by
  intro kept
  have silent : ¬ PlaceAsksForClean .failed := by rintro ⟨data, failed, -⟩; cases failed
  have lost := (kept.1 silent offer17.id).2
  revert lost
  decide +kernel

end WorkerInformer.OfferRequests
