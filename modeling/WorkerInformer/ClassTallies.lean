import WorkerInformer.Frames
import WorkerInformer.HistoryRoundTrip

/-! `template/storage.js`: the classes `GenderAccount`, `GenderUser`,
`CostAccount` and `CostUser` store. The four updaters are copies of one another;
an account store is one user store for each key. The first add of a class stores
that class, and every later one sets the first slot of the tally to one before
it looks for the greatest. An add under a name every object inherits, such as
`constructor`, throws and stores nothing. -/
namespace WorkerInformer.ClassTallies
open Runs UserHistory

/-! ## The least index of a greatest weight -/

/-- The least index at which a weight is greatest. -/
structure Leading (classes : Nat) (weight : Nat → Nat) (cls : Nat) : Prop where
  inside : cls < classes
  greatest : ∀ i < classes, weight i ≤ weight cls
  least : ∀ i < cls, weight i < weight cls

theorem Leading.unique {classes : Nat} {weight : Nat → Nat} {cls other : Nat} (one : Leading classes weight cls)
    (two : Leading classes weight other) : cls = other := by
  rcases Nat.lt_trichotomy cls other with before | same | behind
  · exact absurd (one.greatest other two.inside) (Nat.not_le.mpr (two.least cls before))
  · exact same
  · exact absurd (two.greatest cls one.inside) (Nat.not_le.mpr (one.least other behind))

theorem foldl_max_eq {hitLog : List Nat} (nonempty : hitLog ≠ []) : hitLog.foldl max 0 = hitLog.max nonempty := by
  rw [List.foldl_max_eq_max nonempty, Nat.zero_max]

/-- What `indexOf` of the maximum finds. -/
theorem mostHit_leading {classes : Nat} (weight : Nat → Nat) (some_class : 0 < classes) :
    Leading classes weight (mostHit ((List.range classes).map weight)) := by
  have nonempty : (List.range classes).map weight ≠ [] := by
    simp [Nat.pos_iff_ne_zero.mp some_class]
  have length : ((List.range classes).map weight).length = classes := by simp
  have found := List.idxOf_lt_length_of_mem (List.max_mem nonempty)
  have there : weight (mostHit ((List.range classes).map weight)) = ((List.range classes).map weight).max nonempty := by
    have at_index := List.getElem_idxOf found
    rw [List.getElem_map, List.getElem_range] at at_index
    rwa [mostHit, foldl_max_eq nonempty]
  have bound : ∀ i < classes, weight i ≤ weight (mostHit ((List.range classes).map weight)) := by
    intro i inside
    rw [there]
    exact List.le_max_of_mem (List.mem_map.mpr ⟨i, List.mem_range.mpr inside, rfl⟩)
  have inside : mostHit ((List.range classes).map weight) < classes := by
    rw [mostHit, foldl_max_eq nonempty]
    exact found.trans_eq length
  refine ⟨inside, bound, fun i before => ?_⟩
  apply Nat.lt_of_le_of_ne (bound i (before.trans inside))
  intro same
  have passed := List.not_of_lt_findIdx (p := (· == ((List.range classes).map weight).foldl max 0)) before
  rw [List.getElem_map, List.getElem_range, same, there, foldl_max_eq nonempty] at passed
  simp at passed

/-! ## A user store -/

section Classes
variable {classes : Nat}

/-- What an index counts for after these adds. -/
def weight (adds : List (Fin classes)) (i : Nat) : Nat := if i = 0 then 1 else (adds.map Fin.val).count i

def weights (adds : List (Fin classes)) : List Nat := (List.range classes).map (weight adds)

/-- A user store after these adds. -/
def tallyOf (adds : List (Fin classes)) : ClassUser classes := adds.foldl ClassUser.add ⟨none, none⟩

theorem tallyOf_snoc (adds : List (Fin classes)) (val : Fin classes) :
    tallyOf (adds ++ [val]) = (tallyOf adds).add val := by
  rw [tallyOf, List.foldl_append]
  rfl

/-- The tally before any add. -/
theorem zeros_weights : (List.replicate classes 0).set 0 1 = weights ([] : List (Fin classes)) := by
  apply List.ext_getElem (by simp [weights])
  intro i _ _
  by_cases first : i = 0
  · simp [weights, weight, first]
  · simp [weights, weight, first, Ne.symm first]

/-- The first slot is set again, so a hit there is forgotten. -/
theorem hit_set (hitLog : List Nat) (val : Nat) : (hit (hitLog.set 0 1) val).set 0 1 = (hit hitLog val).set 0 1 := by
  apply List.ext_getElem (by simp [hit])
  intro i _ _
  by_cases first : i = 0
  · simp [first]
  · simp [hit, List.getElem_modify, Ne.symm first]

theorem hit_weights (adds : List (Fin classes)) (val : Fin classes) :
    (hit (weights adds) val).set 0 1 = weights (adds ++ [val]) := by
  apply List.ext_getElem (by simp [weights, hit])
  intro i _ _
  by_cases first : i = 0
  · simp [weights, weight, first]
  · by_cases here : val = i
    · simp [weights, weight, hit, first, Ne.symm first, here]
    · simp [weights, weight, hit, first, Ne.symm first, here]

/-- What the adds have made of a user store: the first slot apart, the tally
counts them, and from the second add on it is their weights. -/
structure Tallied (adds : List (Fin classes)) (label : Nat) (hitLog : List Nat) : Prop where
  counted : hitLog.set 0 1 = weights adds
  settled : 2 ≤ adds.length → hitLog = weights adds ∧ label = mostHit (weights adds)

theorem tallied (adds : List (Fin classes)) (some_add : adds ≠ []) :
    ∃ label hitLog, tallyOf adds = ⟨some label, some hitLog⟩ ∧ Tallied adds label hitLog := by
  induction adds using List.reverseRecOn with
  | nil => exact absurd rfl some_add
  | append_singleton adds val ih =>
    rw [tallyOf_snoc]
    cases adds using List.reverseRecOn with
    | nil =>
      refine ⟨val, hit (List.replicate classes 0) val, rfl, ?_, fun twice => by simp at twice⟩
      rw [← hit_set, zeros_weights, hit_weights]
    | append_singleton earlier last =>
      obtain ⟨label, hitLog, tally, inv⟩ := ih (by simp)
      have next : (hit hitLog val).set 0 1 = weights (earlier ++ [last] ++ [val]) := by
        rw [← hit_set, inv.counted, hit_weights]
      refine ⟨mostHit ((hit hitLog val).set 0 1), (hit hitLog val).set 0 1, by rw [tally]; rfl, ?_, fun _ => ?_⟩
      · rw [List.set_set, next]
      · exact ⟨next, congrArg mostHit next⟩

/-- **What a user store holds from the second add on.** -/
theorem tallyOf_label {adds : List (Fin classes)} (twice : 2 ≤ adds.length) :
    (tallyOf adds).label = some (mostHit (weights adds)) := by
  obtain ⟨label, hitLog, tally, inv⟩ := tallied adds fun none => by simp [none] at twice
  rw [tally, (inv.settled twice).2]

end Classes

/-! ## An account store is a user store for each key -/

/-- The user store under a key. -/
def userAt {classes : Nat} (store : ClassAccount classes) (key : AccountKey) : ClassUser classes :=
  ⟨(store.accounts.get? key).map Prod.fst, (store.accounts.get? key).map Prod.snd⟩

theorem userAt_eq_none {classes : Nat} {store : ClassAccount classes} {key : AccountKey} :
    userAt store key = ⟨none, none⟩ ↔ store.accounts.get? key = none := by
  rw [userAt]
  cases store.accounts.get? key <;> simp

/-- The call with a name every object inherits throws before it has added anything. -/
theorem userAt_add {classes : Nat} {store : ClassAccount classes} {key : AccountKey}
    (uncreated : key.text ∈ inheritedNames → userAt store key = ⟨none, none⟩) (guid : AccountKey)
    (val : Fin classes) :
    userAt (store.add guid val) key =
      if key.text ∉ inheritedNames ∧ guid = key then (userAt store key).add val else userAt store key := by
  by_cases here : guid = key
  · subst here
    cases held : store.accounts.get? guid with
    | none =>
      by_cases inherited : guid.text ∈ inheritedNames
      · simp [ClassAccount.add, held, inherited]
      · simp [ClassAccount.add, ClassUser.add, userAt, held, inherited]
    | some entry =>
      have own : guid.text ∉ inheritedNames := by
        intro inherited
        rw [userAt_eq_none.mp (uncreated inherited)] at held
        cases held
      simp [ClassAccount.add, ClassUser.add, userAt, held, own]
  · rw [if_neg fun both => here both.2]
    cases held : store.accounts.get? guid with
    | none =>
      by_cases inherited : guid.text ∈ inheritedNames
      · simp [ClassAccount.add, held, inherited]
      · simp [ClassAccount.add, userAt, held, inherited, Ne.symm here]
    | some entry => simp [ClassAccount.add, userAt, held, Ne.symm here]

theorem userAt_congr {classes : Nat} {first second : ClassAccount classes}
    (same : ownProperties first.accounts = ownProperties second.accounts) (key : AccountKey) :
    userAt first key = userAt second key := by
  have found : first.accounts.get? key = second.accounts.get? key := by
    apply Option.ext
    intro value
    rw [← mem_ownProperties, same, mem_ownProperties]
  rw [userAt, userAt, found]

/-! ## Histories in use -/

/-- `uh.gender_accounts`. -/
def genderAccounts (h : History) : ClassAccount 3 := h .genderAccounts

/-- `uh.gender_user`. -/
def genderUser (h : History) : ClassUser 3 := h .genderUser

/-- `uh.cost_accounts`. -/
def costAccounts (h : History) : ClassAccount 9 := h .costAccounts

/-- `uh.cost_user`. -/
def costUser (h : History) : ClassUser 9 := h .costUser

/-- What a page does with a history: the calls that change it, with the adds to
every store, a save, and a save that a new page loads into a fresh history. -/
inductive Label
  | change (what : Change)
  | save
  | reload

def act (session : Session) : Label → Session
  | .change what => UserHistory.change session what
  | .save => { session with saved := session.memory.save session.saved }
  | .reload =>
    let saved := session.memory.save session.saved
    ⟨Memory.fresh.load saved, saved⟩

/-- The history of a new page after all this. -/
def visit (saved : Saved) (labels : List Label) : History :=
  (exec act ⟨Memory.fresh, saved⟩ labels).memory.stores

/-- The four places a class is stored in. -/
inductive Variant
  | genderAccount (key : AccountKey)
  | genderUser
  | costAccount (key : AccountKey)
  | costUser

namespace Variant

def component : Variant → Component
  | genderAccount _ => .genderAccounts
  | genderUser => .genderUser
  | costAccount _ => .costAccounts
  | costUser => .costUser

def classes : Variant → Nat
  | genderAccount _ | genderUser => 3
  | costAccount _ | costUser => 9

/-- The class stored: `this[guid][0]`, `this['gender']` or `this['cost']`. -/
def stored (h : History) : Variant → Option Nat
  | genderAccount key => ((genderAccounts h).accounts.get? key).map Prod.fst
  | genderUser => (ClassTallies.genderUser h).label
  | costAccount key => ((costAccounts h).accounts.get? key).map Prod.fst
  | costUser => (ClassTallies.costUser h).label

/-- The user store there. -/
def userOf : (v : Variant) → v.component.kind.Store → ClassUser v.classes
  | genderAccount key => fun store => userAt (store : ClassAccount 3) key
  | genderUser => fun store => store
  | costAccount key => fun store => userAt (store : ClassAccount 9) key
  | costUser => fun store => store

def tally (h : History) (v : Variant) : ClassUser v.classes := v.userOf (h v.component)

theorem stored_eq (h : History) (v : Variant) : v.stored h = (v.tally h).label := by
  cases v <;> rfl

/-- The key is a name every object inherits. -/
def Inherited : Variant → Prop
  | genderAccount key | costAccount key => key.text ∈ inheritedNames
  | genderUser | costUser => False

instance : DecidablePred Inherited
  | genderAccount key | costAccount key => inferInstanceAs (Decidable (key.text ∈ inheritedNames))
  | genderUser | costUser => inferInstanceAs (Decidable False)

end Variant

/-- The class a step adds to a variant. -/
def Label.adds : (v : Variant) → Label → Option (Fin v.classes)
  | .genderAccount key, .change (.add .genderAccounts given) =>
    let (guid, val) : AccountKey × Fin 3 := given
    if guid = key then some val else none
  | .genderUser, .change (.add .genderUser val) => some (show Fin 3 from val)
  | .costAccount key, .change (.add .costAccounts given) =>
    let (guid, val) : AccountKey × Fin 9 := given
    if guid = key then some val else none
  | .costUser, .change (.add .costUser val) => some (show Fin 9 from val)
  | _, _ => none

/-- The classes a run adds to a variant, in order. -/
def added (v : Variant) (labels : List Label) : List (Fin v.classes) := labels.filterMap (Label.adds v)

/-- The class the store takes: the call with a name every object inherits throws. -/
def Label.takes (v : Variant) (l : Label) : Option (Fin v.classes) := if v.Inherited then none else l.adds v

def taken (v : Variant) (labels : List Label) : List (Fin v.classes) := labels.filterMap (Label.takes v)

theorem taken_snoc (v : Variant) (labels : List Label) (l : Label) :
    taken v (labels ++ [l]) = taken v labels ++ (l.takes v).toList := by
  rw [taken, taken, List.filterMap_append, List.filterMap_cons]
  cases l.takes v <;> rfl

theorem takes_own {v : Variant} (own : ¬ v.Inherited) (l : Label) : l.takes v = l.adds v := if_neg own

theorem takes_inherited {v : Variant} (inherited : v.Inherited) (l : Label) : l.takes v = none := if_pos inherited

theorem taken_own {v : Variant} (own : ¬ v.Inherited) (labels : List Label) : taken v labels = added v labels :=
  List.filterMap_congr fun l _ => takes_own own l

theorem taken_inherited {v : Variant} (inherited : v.Inherited) (labels : List Label) : taken v labels = [] :=
  List.filterMap_eq_nil_iff.mpr fun l _ => takes_inherited inherited l

theorem takes_none {v : Variant} {l : Label} (idle : l.adds v = none) : l.takes v = none := by
  rw [Label.takes, idle, ite_self]

namespace Variant

theorem tally_put_ne (h : History) {c : Component} (store : c.kind.Store) {v : Variant} (other : v.component ≠ c) :
    v.tally (h.put c store) = v.tally h :=
  congrArg v.userOf (put_ne h store other)

theorem userOf_congr {v : Variant} {first second : v.component.kind.Store}
    (same : v.component.kind.content first = v.component.kind.content second) : v.userOf first = v.userOf second := by
  cases v with
  | genderAccount key | costAccount key => exact userAt_congr same key
  | genderUser | costUser => exact same

/-- A fresh history that loads the copy has the same user stores. -/
theorem tally_reload (m : Memory) {saved : Saved} (available : saved.storage.available = true) (v : Variant) :
    v.tally (Memory.fresh.load (m.save saved)).stores = v.tally m.stores := by
  have held : v.component.kind.Held (m.stores v.component) := by cases v <;> trivial
  have survives : v.component.kind.Survives (m.stores v.component) := by cases v <;> trivial
  apply userOf_congr
  rw [reloaded m available, (Kind.reload_iff held).mpr survives]

/-- No page cleans a store of classes. -/
theorem tally_renew (m : Memory) (which : CleanCall) (v : Variant) : v.tally (m.renew which).stores = v.tally m.stores := by
  have other : v.component ≠ .exclude ∧ v.component ≠ .excludeClick ∧ v.component ≠ .retargetingExclude ∧
      v.component ≠ .retargetingView ∧ v.component ≠ .retargetingAccountExclude := by
    cases v <;> simp [component]
  obtain ⟨exclude, click, retargeting, view, account⟩ := other
  cases which with
  | exclude => exact tally_put_ne _ _ exclude
  | excludeClick => exact tally_put_ne _ _ click
  | retargeting => exact (tally_put_ne _ _ view).trans (tally_put_ne _ _ retargeting)
  | retargetingAccount => exact tally_put_ne _ _ account
  | retargetingClick => rfl

theorem adds_ne {c : Component} (given : c.kind.Arguments) {v : Variant} (other : v.component ≠ c) :
    Label.adds v (.change (.add c given)) = none := by
  cases v <;> cases c <;> first | rfl | exact absurd rfl other

theorem userOf_addCall {v : Variant} {store : v.component.kind.Store}
    (uncreated : v.Inherited → v.userOf store = ⟨none, none⟩) (given : v.component.kind.Arguments) :
    v.userOf (v.component.kind.addCall store given) =
      (Label.takes v (.change (.add v.component given))).toList.foldl ClassUser.add (v.userOf store) := by
  by_cases inherited : v.Inherited
  · rw [takes_inherited inherited]
    cases v with
    | genderAccount key | costAccount key =>
      obtain ⟨guid, val⟩ := given
      exact (userAt_add uncreated guid val).trans (if_neg fun both => both.1 inherited)
    | genderUser | costUser => exact inherited.elim
  · rw [takes_own inherited]
    cases v with
    | genderAccount key | costAccount key =>
      obtain ⟨guid, val⟩ := given
      apply (userAt_add uncreated guid val).trans
      by_cases here : guid = key
      · have both : key.text ∉ inheritedNames ∧ guid = key := ⟨inherited, here⟩
        simp only [Label.adds, component, if_pos here, if_pos both]
        rfl
      · simp only [Label.adds, component, if_neg here, if_neg fun both : _ ∧ _ => here both.2]
        rfl
    | genderUser | costUser => rfl

end Variant

/-- **What one step does to a user store.** -/
theorem tally_act {session : Session} (available : session.saved.storage.available = true) {v : Variant}
    (uncreated : v.Inherited → v.tally session.memory.stores = ⟨none, none⟩) (l : Label) :
    v.tally (act session l).memory.stores =
      (l.takes v).toList.foldl ClassUser.add (v.tally session.memory.stores) := by
  cases l with
  | change what =>
    cases what with
    | add c given =>
      by_cases same : v.component = c
      · subst same
        refine Eq.trans ?_ (Variant.userOf_addCall uncreated given)
        exact congrArg v.userOf (put_self ..)
      · rw [takes_none (Variant.adds_ne given same)]
        exact Variant.tally_put_ne _ _ same
    | remove key =>
      have other : v.component ≠ .retargeting := by cases v <;> simp [Variant.component]
      have idle : Label.adds v (.change (.remove key)) = none := by cases v <;> rfl
      rw [takes_none idle]
      exact Variant.tally_put_ne _ _ other
    | clean which cl =>
      have idle : Label.adds v (.change (.clean which cl)) = none := by cases v <;> rfl
      rw [takes_none idle]
      cases cl with
      | false => rfl
      | true => exact Variant.tally_renew _ which v
  | save =>
    have idle : Label.adds v .save = none := by cases v <;> rfl
    rw [takes_none idle]
    rfl
  | reload =>
    have idle : Label.adds v .reload = none := by cases v <;> rfl
    rw [takes_none idle]
    exact Variant.tally_reload _ available v

theorem act_available (session : Session) (l : Label) :
    (act session l).saved.storage.available = session.saved.storage.available := by
  cases l with
  | change what =>
    cases what with
    | add c given | remove key => rfl
    | clean which cl =>
      cases cl with
      | false => rfl
      | true => exact save_available _ _
  | save | reload => exact save_available _ _

/-- What every step keeps true: a user store is what the adds it takes make. -/
structure Tallies (labels : List Label) (session : Session) : Prop where
  available : session.saved.storage.available = true
  tally : ∀ v : Variant, v.tally session.memory.stores = tallyOf (taken v labels)

theorem tallies_exec {saved : Saved} (available : saved.storage.available = true) (labels : List Label) :
    Tallies labels (exec act ⟨Memory.fresh, saved⟩ labels) := by
  induction labels using List.reverseRecOn with
  | nil => exact ⟨available, fun v => by cases v <;> rfl⟩
  | append_singleton labels l inv =>
    rw [exec_snoc]
    refine ⟨(act_available _ l).trans inv.available, fun v => ?_⟩
    have uncreated : v.Inherited → v.tally (exec act ⟨Memory.fresh, saved⟩ labels).memory.stores = ⟨none, none⟩ := by
      intro inherited
      rw [inv.tally, taken_inherited inherited labels]
      rfl
    rw [tally_act inv.available uncreated, inv.tally, taken_snoc, tallyOf, tallyOf, List.foldl_append]

theorem stored_visit {saved : Saved} (available : saved.storage.available = true) {labels : List Label} {v : Variant}
    (own : ¬ v.Inherited) (twice : 2 ≤ (added v labels).length) :
    v.stored (visit saved labels) = some (mostHit (weights (added v labels))) := by
  rw [Variant.stored_eq, visit, (tallies_exec available labels).tally, taken_own own, tallyOf_label twice]

theorem weight_perm {classes others : Nat} {adds : List (Fin classes)} {added : List (Fin others)}
    (perm : (adds.map Fin.val).Perm (added.map Fin.val)) : weight adds = weight added := by
  funext i
  rw [weight, weight, perm.count_eq]

/-- **The class stored is the least one that leads.** Over every run of adds to
all stores, saves and reloads into fresh histories, with two adds to a variant at
least whose key is no name every object inherits, it stores the least class whose
weight is greatest; a run that adds the same classes in another order to such a
variant with as many classes stores the same class there. -/
theorem stored_leading {saved : Saved} (available : saved.storage.available = true) (labels : List Label)
    (v : Variant) (own : ¬ v.Inherited) (twice : 2 ≤ (added v labels).length) :
    (∃ cls, v.stored (visit saved labels) = some cls ∧ Leading v.classes (weight (added v labels)) cls) ∧
      ∀ other : Saved, other.storage.available = true → ∀ (others : List Label) (w : Variant), ¬ w.Inherited →
        w.classes = v.classes → ((added w others).map Fin.val).Perm ((added v labels).map Fin.val) →
          w.stored (visit other others) = v.stored (visit saved labels) := by
  have some_class : 0 < v.classes := by cases v <;> exact Nat.succ_pos _
  refine ⟨⟨_, stored_visit available own twice, mostHit_leading _ some_class⟩, ?_⟩
  intro other other_available others w other_own same_classes perm
  have as_often : (added w others).length = (added v labels).length := by simpa using perm.length_eq
  rw [stored_visit available own twice, stored_visit other_available other_own (as_often ▸ twice), weights, weights,
    weight_perm perm, same_classes]

def account17 : AccountKey := ⟨"17", by decide⟩

def account18 : AccountKey := ⟨"18", by decide⟩

/-- Under one key the adds 2, 0, 0, 2 and, without a key, 0, 2, 2, 0. -/
def mixedAdds : List Label :=
  [.change (.add .genderAccounts (account17, (2 : Fin 3))), .change (.add .genderUser (0 : Fin 3)), .reload,
    .change (.add .genderAccounts (account17, (0 : Fin 3))), .change (.add .genderUser (2 : Fin 3)),
    .change (.add .genderAccounts (account18, (1 : Fin 3))), .change (.add .genderUser (2 : Fin 3)),
    .change (.add .genderAccounts (account17, (0 : Fin 3))), .save, .reload,
    .change (.add .genderAccounts (account17, (2 : Fin 3))), .change (.add .genderUser (0 : Fin 3))]

/-- Both store the class 2. -/
theorem stored_leading_mixed :
    (∃ cls, (Variant.genderAccount account17).stored (visit nothingSaved mixedAdds) = some cls ∧
      Leading 3 (weight (added (.genderAccount account17) mixedAdds)) cls) ∧
      Variant.genderUser.stored (visit nothingSaved mixedAdds) =
        (Variant.genderAccount account17).stored (visit nothingSaved mixedAdds) := by
  have both := @stored_leading nothingSaved rfl mixedAdds (.genderAccount account17) (by decide) (by decide)
  exact ⟨both.1, both.2 nothingSaved rfl mixedAdds .genderUser (by decide) rfl (by decide)⟩

/-- Under a name every object inherits no class is stored, however often one is added. -/
theorem inherited_unstored {saved : Saved} (available : saved.storage.available = true) (labels : List Label)
    {v : Variant} (inherited : v.Inherited) : v.stored (visit saved labels) = none := by
  rw [Variant.stored_eq, visit, (tallies_exec available labels).tally, taken_inherited inherited labels]
  rfl

def constructorKey : AccountKey := ⟨"constructor", by decide⟩

/-- Two adds of the class 2 with the key `constructor`. -/
def constructorAdds : List Label :=
  [.change (.add .genderAccounts (constructorKey, (2 : Fin 3))),
    .change (.add .genderAccounts (constructorKey, (2 : Fin 3)))]

/-- `this["constructor"]` is `Object`, which has no hits: both calls throw. -/
theorem constructor_unstored :
    2 ≤ (added (.genderAccount constructorKey) constructorAdds).length ∧
      ¬ ∃ cls, (Variant.genderAccount constructorKey).stored (visit nothingSaved constructorAdds) = some cls ∧
        Leading 3 (weight (added (.genderAccount constructorKey) constructorAdds)) cls := by
  refine ⟨by decide, ?_⟩
  rintro ⟨cls, stored, -⟩
  have nothing := @inherited_unstored nothingSaved rfl constructorAdds (.genderAccount constructorKey) (by decide)
  rw [nothing] at stored
  cases stored

end WorkerInformer.ClassTallies
