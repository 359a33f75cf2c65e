import Mathlib.Data.List.Induction
import Mathlib.Logic.Function.Basic
import Mathlib.Tactic.Linarith
import WorkerInformer.Runs
import WorkerInformer.UserHistory

/-! `template/teaser.html`: any number of frames share one `localStorage`, and
each keeps a `UserHistory` of its own in memory. A step is one task of one
frame: rendering offers, a click, the load a request makes for its data, or one
of the clean operations an answer asks for. Frames act in any order, so the runs
over all label lists are all interleavings. -/
namespace WorkerInformer.Frames
open Runs UserHistory

/-- What `render` and the click handler read of an offer; `retargeting` is
`item.retargeting == 0` negated. -/
structure Item where
  id : PropertyName
  unique : Option ℚ
  retargeting : Bool

/-- What `render` adds for an offer. -/
def Item.rendered (item : Item) : List Addition :=
  if item.retargeting then
    [⟨.retargetingExclude, item.id, item.unique⟩, ⟨.retargetingView, item.id, none⟩]
  else [⟨.exclude, item.id, item.unique⟩]

/-- What the click handler adds for an offer. -/
def Item.clicked (item : Item) : Addition :=
  ⟨if item.retargeting then .retargetingExcludeClick else .excludeClick, item.id, some 1⟩

/-- The clean operations an answer can lead to. -/
inductive Clean
  | exclude
  | retargeting

/-- The components a clean operation names. -/
def Clean.components : Clean → List Component
  | exclude => [.exclude]
  | retargeting => [.retargetingExclude, .retargetingView]

/-- `exclude_clean(true)` and `retargeting_clean(true)`. -/
def Clean.run : Clean → History → LocalStorage → History × LocalStorage
  | exclude => excludeClean true
  | retargeting => retargetingClean true

inductive Label
  | render (frame : Nat) (items : List Item)
  | click (frame : Nat) (item : Item)
  | request (frame : Nat)
  | clean (frame : Nat) (which : Clean)

/-- The additions of a step, in order. -/
def Label.additions : Label → List Addition
  | render _ items => items.flatMap Item.rendered
  | click _ item => [item.clicked]
  | request _ | clean _ _ => []

/-- The ids an addition puts into the `exclude` component. -/
def excludeIds (additions : List Addition) : List PropertyName :=
  (additions.filter fun a => a.component = .exclude).map Addition.id

/-- The page: `sinceClean` is a history variable, the ids added to `exclude`
since the last `exclude_clean(true)`, which no function reads. -/
structure World where
  storage : LocalStorage
  memory : Nat → History
  sinceClean : Option (List PropertyName)

/-- Frames with new histories over what the browser has stored. -/
def World.start (storage : LocalStorage) : World := ⟨storage, fun _ => History.fresh, none⟩

/-- `uh.load()`, the additions, `uh.save()`: the body of `render` and of a click. -/
def World.addAndSave (w : World) (frame : Nat) (additions : List Addition) : World :=
  let added := additions.foldl History.add (load (w.memory frame) w.storage)
  { storage := save added w.storage
    memory := Function.update w.memory frame added
    sinceClean := w.sinceClean.map (· ++ excludeIds additions) }

def step (w : World) : Label → World
  | .render frame items => w.addAndSave frame (items.flatMap Item.rendered)
  | .click frame item => w.addAndSave frame [item.clicked]
  | .request frame =>
    { w with memory := Function.update w.memory frame (load (w.memory frame) w.storage) }
  | .clean frame which =>
    let cleaned := which.run (w.memory frame) w.storage
    { storage := cleaned.2
      memory := Function.update w.memory frame cleaned.1
      sinceClean := match which with
        | .exclude => some []
        | .retargeting => w.sinceClean }

section Steps
variable {w : World} {frame : Nat}

theorem addAndSave_available (additions : List Addition) :
    (w.addAndSave frame additions).storage.available = w.storage.available :=
  save_available _ _

/-- A counter of the frame's memory after `render` or a click: what was stored
wins over what was in memory, and then the additions count. -/
theorem addAndSave_memory (available : w.storage.available = true) (additions : List Addition)
    (c : Component) (id : PropertyName) :
    ((w.addAndSave frame additions).memory frame).count c id =
      (tally additions c id).foldl c.kind.afterAdd
        ((w.storage.loaded c id).or ((w.memory frame).count c id)) := by
  simp only [World.addAndSave, Function.update_self, foldl_add_count, load_count available]

theorem addAndSave_memory_other {other : Nat} (different : other ≠ frame) (additions : List Addition) :
    (w.addAndSave frame additions).memory other = w.memory other :=
  Function.update_of_ne different _ _

/-- What `render` and a click leave in memory is what they store. -/
theorem addAndSave_storage (available : w.storage.available = true) (additions : List Addition)
    (c : Component) (id : PropertyName) :
    (w.addAndSave frame additions).storage.count c id =
      (((w.addAndSave frame additions).memory frame).count c id).map Counter.stringify := by
  simp only [World.addAndSave, Function.update_self, save_count available]

theorem addAndSave_kept (kept : (w.memory frame).Kept) (additions : List Addition) :
    ((w.addAndSave frame additions).memory frame).Kept := by
  simp only [World.addAndSave, Function.update_self]
  exact (kept.load _).foldl_add additions

/-- A load finds again what `render` and a click leave in memory. -/
theorem addAndSave_loaded (available : w.storage.available = true) (kept : (w.memory frame).Kept)
    (additions : List Addition) (c : Component) (id : PropertyName) :
    (w.addAndSave frame additions).storage.loaded c id =
      ((w.addAndSave frame additions).memory frame).count c id := by
  have added := addAndSave_kept kept additions
  simp only [World.addAndSave, Function.update_self] at added ⊢
  exact save_loaded available added c id

end Steps

/-! ## Every render and click counts once -/

def Label.isClean : Label → Bool
  | clean _ _ => true
  | _ => false

/-- The `unique` arguments of the renderings of an offer, over all frames. -/
def renderings (labels : List Label) (id : PropertyName) : List (Option ℚ) :=
  labels.flatMap fun
    | .render _ items => (items.filter fun item => !item.retargeting && item.id = id).map Item.unique
    | _ => []

/-- The offer was clicked in some frame. -/
def Clicked (labels : List Label) (id : PropertyName) : Prop :=
  ∃ frame item, .click frame item ∈ labels ∧ item.retargeting = false ∧ item.id = id

/-- Storage holds exactly what all the additions so far amount to, and no frame
remembers a counter that storage does not have. -/
structure Shared (labels : List Label) (w : World) : Prop where
  available : w.storage.available = true
  kept : ∀ frame, (w.memory frame).Kept
  stored : ∀ c id, w.storage.loaded c id =
    (tally (labels.flatMap Label.additions) c id).foldl c.kind.afterAdd none
  remembered : ∀ frame c id, w.storage.loaded c id = none → (w.memory frame).count c id = none

theorem tally_append (first second : List Addition) (c : Component) (id : PropertyName) :
    tally (first ++ second) c id = tally first c id ++ tally second c id := by
  simp [tally]

private theorem shared_addAndSave {labels : List Label} {w : World} (inv : Shared labels w)
    (frame : Nat) {label : Label} {additions : List Addition} (adds : label.additions = additions) :
    Shared (labels ++ [label]) (w.addAndSave frame additions) := by
  -- a counter only memory could have is one storage has too
  have merged : ∀ c id, (w.storage.loaded c id).or ((w.memory frame).count c id) = w.storage.loaded c id := by
    intro c id
    cases stored : w.storage.loaded c id with
    | none => simpa using inv.remembered frame c id stored
    | some count => rfl
  have storage : ∀ c id, (w.addAndSave frame additions).storage.loaded c id =
      (tally additions c id).foldl c.kind.afterAdd (w.storage.loaded c id) := by
    intro c id
    rw [addAndSave_loaded inv.available (inv.kept frame), addAndSave_memory inv.available, merged]
  refine ⟨(addAndSave_available additions).trans inv.available, fun other => ?_, fun c id => ?_,
    fun other c id gone => ?_⟩
  · by_cases same : other = frame
    · subst same
      exact addAndSave_kept (inv.kept other) additions
    · rw [addAndSave_memory_other same]
      exact inv.kept other
  · rw [storage, inv.stored, ← List.foldl_append, ← tally_append]
    simp [adds]
  · by_cases same : other = frame
    · subst same
      rw [← addAndSave_loaded inv.available (inv.kept other), gone]
    · rw [addAndSave_memory_other same]
      exact inv.remembered other c id (Kind.foldl_afterAdd_eq_none ((storage c id).symm.trans gone))

private theorem shared_step {labels : List Label} {w : World} (inv : Shared labels w) {label : Label}
    (noClean : label.isClean = false) : Shared (labels ++ [label]) (step w label) := by
  cases label with
  | render frame items => exact shared_addAndSave inv frame rfl
  | click frame item => exact shared_addAndSave inv frame rfl
  | clean frame which => cases noClean
  | request frame =>
    refine ⟨inv.available, fun other => ?_, fun c id => ?_, fun other c id gone => ?_⟩
    · by_cases same : other = frame
      · subst same
        simpa [step] using (inv.kept other).load w.storage
      · simpa [step, Function.update_of_ne same] using inv.kept other
    · simpa [step, Label.additions] using inv.stored c id
    · by_cases same : other = frame
      · subst same
        simpa [step, load_count inv.available, show w.storage.loaded c id = none from gone] using
          inv.remembered other c id gone
      · simpa [step, Function.update_of_ne same] using inv.remembered other c id gone

/-- The invariant of every run without clean operations. -/
theorem shared_exec {labels : List Label} (noCleans : ∀ label ∈ labels, label.isClean = false) :
    Shared labels (exec step (World.start LocalStorage.empty) labels) := by
  induction labels using List.reverseRecOn with
  | nil =>
    exact ⟨rfl, fun _ => kept_fresh, fun c id => loaded_eq_none.mpr (empty_count c id),
      fun frame c id _ => fresh_count c id⟩
  | append_singleton earlier label ih =>
    rw [exec_snoc]
    exact shared_step (ih fun l member => noCleans l (List.mem_append_left _ member))
      (noCleans label (by simp))

private theorem tally_exclude (labels : List Label) (id : PropertyName) :
    tally (labels.flatMap Label.additions) .exclude id = renderings labels id := by
  have rendered : ∀ items : List Item, tally (items.flatMap Item.rendered) .exclude id =
      (items.filter fun item => !item.retargeting && item.id = id).map Item.unique := by
    intro items
    induction items with
    | nil => rfl
    | cons item rest ih =>
      rw [List.flatMap_cons, tally_append, ih]
      cases shown : item.retargeting <;> by_cases same : item.id = id <;>
        simp [Item.rendered, tally, shown, same]
  induction labels with
  | nil => rfl
  | cons label rest ih =>
    simp only [List.flatMap_cons, tally_append, ih, renderings]
    congr 1
    cases label with
    | render frame items => exact rendered items
    | click frame item => cases shown : item.retargeting <;> simp [Label.additions, Item.clicked, tally, shown]
    | request frame | clean frame which => rfl

private theorem tally_excludeClick (labels : List Label) (id : PropertyName) :
    (∀ countViews ∈ tally (labels.flatMap Label.additions) .excludeClick id, countViews = some 1) ∧
      (tally (labels.flatMap Label.additions) .excludeClick id ≠ [] ↔ Clicked labels id) := by
  have clicks : ∀ {a : Addition}, a ∈ labels.flatMap Label.additions → a.component = .excludeClick →
      ∃ frame item, Label.click frame item ∈ labels ∧ item.retargeting = false ∧ a = ⟨.excludeClick, item.id, some 1⟩ := by
    intro a member component
    obtain ⟨label, labelMem, addition⟩ := List.mem_flatMap.mp member
    cases label with
    | render frame items =>
      obtain ⟨item, -, rendered⟩ := List.mem_flatMap.mp addition
      cases shown : item.retargeting <;> simp [Item.rendered, shown] at rendered
      · simp [rendered] at component
      · rcases rendered with rfl | rfl <;> cases component
    | click frame item =>
      have clicked : a = item.clicked := by simpa [Label.additions] using addition
      cases shown : item.retargeting <;> simp [Item.clicked, shown] at clicked
      · exact ⟨frame, item, labelMem, shown, clicked⟩
      · simp [clicked] at component
    | request frame | clean frame which => cases addition
  constructor
  · intro countViews member
    obtain ⟨a, tallied, rfl⟩ := List.mem_map.mp member
    obtain ⟨added, here⟩ := List.mem_filter.mp tallied
    obtain ⟨frame, item, -, -, rfl⟩ := clicks added (of_decide_eq_true here).1
    rfl
  · constructor
    · intro nonempty
      obtain ⟨countViews, member⟩ := List.exists_mem_of_ne_nil _ nonempty
      obtain ⟨a, tallied, rfl⟩ := List.mem_map.mp member
      obtain ⟨added, here⟩ := List.mem_filter.mp tallied
      obtain ⟨frame, item, clicked, shown, rfl⟩ := clicks added (of_decide_eq_true here).1
      exact ⟨frame, item, clicked, shown, (of_decide_eq_true here).2⟩
    · rintro ⟨frame, item, clicked, shown, rfl⟩
      refine List.ne_nil_of_mem (a := some 1) (List.mem_map.mpr ⟨item.clicked, List.mem_filter.mpr
        ⟨List.mem_flatMap.mpr ⟨_, clicked, List.mem_singleton.mpr rfl⟩, ?_⟩, rfl⟩)
      simp [Item.clicked, shown]

/-- How often an offer may be rendered: `unique || 1`. -/
def limit (unique : Option ℚ) : ℚ := if unique.getD 0 = 0 then 1 else unique.getD 0

theorem orOne_finite (unique : Option ℚ) :
    ExcludeOffers.orOne (unique.map Number.finite) = .finite (limit unique) := by
  have zero {value : ℚ} : Number.finite value = 0 ↔ value = 0 := Number.finite.injEq value 0 ▸ Iff.rfl
  cases unique with
  | none => rfl
  | some value =>
    simp only [ExcludeOffers.orOne, Number.orElse, limit, Option.map_some, Option.getD_some, zero, reduceCtorEq,
      false_or]
    split <;> rfl

/-- A counter that starts at `count` is used up after at least `count` more
additions, and stays used up. -/
theorem foldl_bump_nonpos (arguments : List (Option ℚ)) (count : ℚ) :
    ∃ left : ℚ, arguments.foldl (Component.exclude.kind.afterAdd) (some (.number count)) = some (.number left) ∧
      (left ≤ 0 ↔ count ≤ arguments.length) := by
  induction arguments generalizing count with
  | nil => exact ⟨count, rfl, by simp⟩
  | cons first rest ih =>
    have length : (0 : ℚ) ≤ rest.length := Nat.cast_nonneg _
    rw [List.foldl_cons]
    by_cases positive : 0 < count
    · obtain ⟨left, result, used⟩ := ih (count + -1)
      have bumped : Component.exclude.kind.afterAdd (some (.number count)) first = some (.number (count + -1 : ℚ)) := by
        have counts : Number.lt 0 count = true := decide_eq_true positive
        simp only [Component.kind, Kind.afterAdd, ExcludeOffers.counted, ExcludeOffers.bump, counts]
        rfl
      refine ⟨left, by rw [bumped, result], used.trans ?_⟩
      rw [List.length_cons, Nat.cast_succ]
      constructor <;> intro bound <;> linarith
    · obtain ⟨left, result, used⟩ := ih 0
      have bumped : Component.exclude.kind.afterAdd (some (.number count)) first = some (.number (0 : ℚ)) := by
        have counts : Number.lt 0 count = false := decide_eq_false positive
        simp only [Component.kind, Kind.afterAdd, ExcludeOffers.counted, ExcludeOffers.bump, counts]
        rfl
      refine ⟨left, by rw [bumped, result], used.trans ?_⟩
      rw [List.length_cons, Nat.cast_succ]
      exact ⟨fun _ => by linarith, fun _ => length⟩

/-- A counter is listed once the number of additions reaches the limit the first
of them asked for. -/
theorem listed_iff (arguments : List (Option ℚ)) :
    (∃ count, arguments.foldl (Component.exclude.kind.afterAdd) none = some count ∧
        ExcludeOffers.lists false count) ↔
      ∃ unique rest, arguments = unique :: rest ∧ limit unique ≤ arguments.length := by
  cases arguments with
  | nil => simp
  | cons first rest =>
    obtain ⟨left, result, used⟩ := foldl_bump_nonpos rest (limit first + -1)
    have begun : Component.exclude.kind.afterAdd none first = some (.number (limit first + -1 : ℚ)) := by
      simp only [Component.kind, Kind.afterAdd, ExcludeOffers.counted, ExcludeOffers.first, orOne_finite]
      rfl
    have start : (first :: rest).foldl (Component.exclude.kind.afterAdd) none = some (.number left) := by
      rw [List.foldl_cons, begun, result]
    have shown : ExcludeOffers.lists false (.number left) = true ↔ left ≤ 0 := decide_eq_true_iff
    simp only [start, Option.some.injEq, exists_eq_left', shown, used, List.cons.injEq, List.length_cons,
      Nat.cast_succ, and_assoc, ← sub_eq_add_neg, sub_le_iff_le_add, exists_and_left]

/-- The ids `uh.exclude.get()` and `uh.exclude_click.get()` return together. -/
def Excluded (h : History) (id : PropertyName) : Prop :=
  id ∈ h.exclude.get.map Prod.fst ∨ id ∈ h.excludeClick.get.map Prod.fst

theorem excluded_iff_counts {h : History} {id : PropertyName} :
    Excluded h id ↔ (∃ count, h.count .exclude id = some count ∧ ExcludeOffers.lists false count) ∨
      ∃ count, h.count .excludeClick id = some count ∧ ExcludeOffers.lists false count :=
  or_congr ExcludeOffers.mem_get ExcludeOffers.mem_get

/-- The offers of the examples: two renderings allowed, not retargeting. -/
def offer17 : Item := ⟨.decimal "17" (List.all_eq_true.mp (by decide)), some 2, false⟩

def offer18 : Item := ⟨.decimal "18" (List.all_eq_true.mp (by decide)), some 2, false⟩

/-- What a frame's request finds after a run from an empty `localStorage`. -/
def requested (labels : List Label) (frame : Nat) : History :=
  (step (exec step (World.start LocalStorage.empty) labels) (.request frame)).memory frame

/-- **No rendering and no click of any frame is lost or counted twice.** Over
every interleaving without clean operations, a request of any frame finds every
counter as all the additions so far leave it, and it excludes an offer exactly
when some frame's visitor clicked it or all frames together have rendered it as
often as its first rendering allows. -/
theorem requested_counts {labels : List Label} (noCleans : ∀ label ∈ labels, label.isClean = false)
    (frame : Nat) (id : PropertyName) :
    (∀ c, (requested labels frame).count c id =
        (tally (labels.flatMap Label.additions) c id).foldl c.kind.afterAdd none) ∧
      (Excluded (requested labels frame) id ↔
        Clicked labels id ∨ ∃ unique rest, renderings labels id = unique :: rest ∧
          limit unique ≤ (renderings labels id).length) := by
  have inv := shared_exec noCleans
  have loaded : ∀ c, (requested labels frame).count c id =
      (tally (labels.flatMap Label.additions) c id).foldl c.kind.afterAdd none := by
    intro c
    rw [← inv.stored]
    simp only [requested, step, Function.update_self, load_count inv.available]
    cases stored : LocalStorage.loaded _ c id with
    | none => simpa using inv.remembered frame c id stored
    | some count => rfl
  refine ⟨loaded, ?_⟩
  obtain ⟨ones, clicked⟩ := tally_excludeClick labels id
  rw [excluded_iff_counts, loaded, loaded, tally_exclude, or_comm]
  refine or_congr ?_ (listed_iff _)
  rw [← clicked]
  apply (listed_iff _).trans
  cases arguments : tally (labels.flatMap Label.additions) .excludeClick id with
  | nil => simp
  | cons first rest =>
    obtain rfl := ones first (by simp [arguments])
    simp [limit]

/-- Two frames render an offer that allows two renderings; a third frame's
request excludes it. -/
theorem requested_counts_two_frames :
    Excluded (requested [.render 0 [offer17], .render 1 [offer17]] 2) offer17.id :=
  (requested_counts (by decide) 2 _).2.mpr
    (Or.inr ⟨some 2, [some 2], by decide, by decide +kernel⟩)

/-! ## Clean operations save without loading -/

/-- A clean changes in storage only the components it names. -/
def CleanChangesNamed (w : World) (label : Label) (next : World) : Prop :=
  match label with
  | .clean _ which =>
    ∀ c, c ∉ which.components → c.kind.Same (next.storage.item c) (w.storage.item c)
  | _ => True

/-- The frame that cleans remembers the other components as they are stored. -/
def CleanerAgrees (w : World) (label : Label) (_ : World) : Prop :=
  match label with
  | .clean frame which =>
    w.storage.available = true → ∀ c, c ∉ which.components →
      c.kind.Same (some (c.kind.stringify (w.memory frame c))) (w.storage.item c)
  | _ => True

theorem clean_keeps_memory (which : Clean) (h : History) (st : LocalStorage) {c : Component}
    (other : c ∉ which.components) : (which.run h st).1 c = h c := by
  cases which with
  | exclude => exact put_ne h _ (by simpa [Clean.components] using other)
  | retargeting =>
    simp only [Clean.components, List.mem_cons, List.not_mem_nil, or_false, not_or] at other
    exact (put_ne _ _ other.2).trans (put_ne h _ other.1)

/-- A clean operation saves the whole of the memory it leaves. -/
theorem clean_saves (which : Clean) (h : History) (st : LocalStorage) :
    (which.run h st).2 = save (which.run h st).1 st := by
  cases which <;> rfl

/-- A clean operation changes only the components it names exactly when the
frame's memory of the other components agrees with storage. -/
theorem clean_changes_named_iff (w : World) (label : Label) :
    CleanChangesNamed w label (step w label) ↔ CleanerAgrees w label (step w label) := by
  cases label with
  | render | click | request => exact Iff.rfl
  | clean frame which =>
    simp only [CleanChangesNamed, CleanerAgrees, step, clean_saves, save]
    by_cases available : w.storage.available = true
    · simp only [available, ↓reduceIte, forall_const]
      apply forall₂_congr
      intro c other
      rw [clean_keeps_memory which _ _ other]
    · simp only [available, Bool.false_eq_true, ↓reduceIte, false_implies, iff_true]
      exact fun c _ => Kind.Same.refl _ _

/-- **A clean changes only what it names exactly when its frame is up to date.**
In a run over any stored history, every clean operation leaves the other
components as they were if and only if before every clean the cleaning frame's
memory of the other components has the stored content. -/
theorem every_clean_changes_named_iff (storage : LocalStorage) (labels : List Label) :
    EveryStep step CleanChangesNamed (World.start storage) labels ↔
      EveryStep step CleanerAgrees (World.start storage) labels :=
  everyStep_congr clean_changes_named_iff (World.start storage) labels

/-- A frame asks for offers, another frame's visitor clicks one, and the answer
to the first frame cleans `exclude`: the click is gone from storage. -/
theorem clean_loses_click :
    ¬ EveryStep step CleanChangesNamed (World.start LocalStorage.empty)
      [.render 1 [offer17], .request 0, .click 1 offer17, .clean 0 .exclude] := by
  intro all
  have kept := (all.2.2.2.1 .excludeClick (by decide)).storedCount offer17.id
  revert kept
  decide +kernel

/-! ## What a clean removed can come back -/

/-- Nothing that the last `exclude_clean(true)` removed is stored again. -/
def NothingRestored (w : World) : Prop :=
  w.storage.available = true → ∀ added, w.sinceClean = some added →
    ∀ id, w.storage.count .exclude id ≠ none → id ∈ added

/-- Whatever the frame remembers in `exclude` has been added since the last
`exclude_clean(true)` or is among these ids. -/
def World.Recent (w : World) (frame : Nat) (ids : List PropertyName) : Prop :=
  w.storage.available = true → ∀ added, w.sinceClean = some added →
    ∀ id, (w.memory frame).count .exclude id ≠ none → id ∈ added ++ ids

/-- A frame that saves `exclude` remembers nothing from before the last clean
that the step itself does not add. -/
def SavesRecent (w : World) : Label → Prop
  | .render frame items => w.Recent frame (excludeIds (items.flatMap Item.rendered))
  | .click frame item => w.Recent frame (excludeIds [item.clicked])
  | .request _ | .clean _ .exclude => True
  | .clean frame .retargeting => w.Recent frame []

theorem tally_exclude_ne_nil {additions : List Addition} {id : PropertyName} :
    tally additions .exclude id ≠ [] ↔ id ∈ excludeIds additions := by
  simp only [tally, excludeIds, ne_eq, List.map_eq_nil_iff, List.filter_eq_nil_iff, List.mem_map,
    List.mem_filter, decide_eq_true_eq, not_forall, not_not, exists_prop, and_assoc]

private theorem afterAdds_ne_none {arguments : List (Option ℚ)} {old : Option Counter} :
    arguments.foldl (Component.exclude.kind.afterAdd) old ≠ none ↔ arguments ≠ [] ∨ old ≠ none := by
  induction arguments generalizing old with
  | nil => simp
  | cons first rest ih =>
    rw [List.foldl_cons, ih]
    simp [Component.kind, Kind.afterAdd]

private theorem restored_addAndSave {w : World} (inv : NothingRestored w) (frame : Nat)
    (additions : List Addition) :
    NothingRestored (w.addAndSave frame additions) ↔ w.Recent frame (excludeIds additions) := by
  simp only [NothingRestored, World.Recent, addAndSave_available]
  apply forall_congr'
  intro available
  simp only [addAndSave_storage available, addAndSave_memory available, ne_eq, Option.map_eq_none_iff]
  cases since : w.sinceClean with
  | none => simp [World.addAndSave, since]
  | some added =>
    have grown : (w.addAndSave frame additions).sinceClean = some (added ++ excludeIds additions) := by
      simp [World.addAndSave, since]
    simp only [grown, Option.some.injEq, forall_eq']
    apply forall_congr'
    intro id
    have before := inv available added since id
    constructor
    · intro kept remembered
      refine kept (afterAdds_ne_none.mpr (Or.inr ?_))
      cases w.storage.loaded .exclude id <;> simp [remembered]
    · intro recent present
      rcases afterAdds_ne_none.mp present with now | earlier
      · exact List.mem_append_right _ (tally_exclude_ne_nil.mp now)
      · cases stored : w.storage.loaded .exclude id with
        | none => exact recent (by simpa [stored] using earlier)
        | some count =>
          have there : w.storage.count .exclude id ≠ none := by simp [← loaded_eq_none, stored]
          exact List.mem_append_left _ (before there)

theorem restored_step_iff (w : World) (label : Label) (inv : NothingRestored w) :
    NothingRestored (step w label) ↔ SavesRecent w label := by
  cases label with
  | render frame items => exact restored_addAndSave inv frame _
  | click frame item => exact restored_addAndSave inv frame _
  | request frame => exact iff_of_true inv trivial
  | clean frame which =>
    cases which with
    | exclude =>
      refine iff_of_true (fun available added since id present => ?_) trivial
      refine absurd ?_ present
      have before : w.storage.available = true := by simpa [step, clean_saves] using available
      simp only [step, clean_saves, save_count before, Option.map_eq_none_iff]
      exact (put_count_self _ _ _ id).trans (Kind.count_fresh _ id)
    | retargeting =>
      simp only [NothingRestored, SavesRecent, World.Recent, step, clean_saves, save_available,
        List.append_nil]
      apply forall_congr'
      intro available
      simp only [save_count available]
      apply forall₃_congr
      intro added since id
      rw [History.count, clean_keeps_memory .retargeting _ _ (by decide), History.count, ne_eq,
        Option.map_eq_none_iff]

/-- **Cleaned ids stay away exactly while every save is recent.** In a run over
any stored history, what `exclude_clean(true)` removed is never stored again
without being added again if and only if at every save of `exclude` after a
clean the saving frame remembers only ids added since that clean or by the step
itself. -/
theorem nothing_restored_iff (storage : LocalStorage) (labels : List Label) :
    EveryStep step (fun _ _ next => NothingRestored next) (World.start storage) labels ↔
      EveryStep step (fun w label _ => SavesRecent w label) (World.start storage) labels :=
  everyStep_iff_guarded restored_step_iff labels (fun _ _ since => by cases since)

/-- Frame 1 shows two offers, the answer to frame 0 cleans `exclude`, and a
click in frame 1 stores both offers again. -/
theorem click_restores_cleaned :
    ¬ EveryStep step (fun _ _ next => NothingRestored next) (World.start LocalStorage.empty)
      [.render 1 [offer17, offer18], .request 0, .clean 0 .exclude, .click 1 offer18] := by
  intro all
  have restored := all.2.2.2.1 rfl [] (by decide +kernel) offer17.id (by decide +kernel)
  cases restored

end WorkerInformer.Frames
