import WorkerInformer.MainDatabase

/-! The local table as a replica of the collection, fed by messages that carry
nothing but a guid. `View` is what such a replica is about: the collection, the
table, documents that have been read and are still to be stored, and for each
guid the changes that have been written and not yet acted on. A row or a read
document may be out of date as long as such a change is to come. What `store` and
`remove` say is the intended effect of `ParentDB`'s statements. -/
namespace WorkerInformer.Replica
open Bytes Sql InformerTable MainDatabase ProcessMQ

/-! ## What the statements are for -/

/-- One pass of the loop of `InformerUpdate`: an UPDATE of the row with the
document's id, or an INSERT that a taken id or guid turns into nothing. -/
def store (t : Table) (d : Doc) : Table :=
  if lower d.guid = [] then t
  else if t.rows.any (·.id = d.guidInt) then
    t.mapValues fun row => if row.id = d.guidInt then d.values else row.values
  else t.insertOrIgnore ⟨d.guidInt, lower d.guid, d.values⟩

/-- `InformerRemove`. -/
def remove (t : Table) (guid : Bytes) : Table := if guid = [] then t else t.filter fun row => row.guid ≠ guid

section Store
variable {t : Table} {d : Doc}

/-- The document's row with the id, if there is one, is its own. -/
def Paired (t : Table) (d : Doc) : Prop := ∀ row ∈ t.rows, row.id = d.guidInt → row.guid = d.guid

/-- After storing a document the table has its row and what it had. -/
theorem mem_store (key : d.guid ≠ [] ∧ lower d.guid = d.guid) (paired : Paired t d) {row : Row}
    (member : row ∈ (store t d).rows) : row = d.row ∨ (row ∈ t.rows ∧ row.id ≠ d.guidInt) := by
  simp only [store, key.2, key.1, ↓reduceIte] at member
  split at member
  · obtain ⟨old, old_member, rfl⟩ := List.mem_map.mp member
    by_cases same : old.id = d.guidInt
    · left
      simp [Doc.row, same, paired old old_member same]
    · right
      simpa [same] using old_member
  · rename_i absent
    have other : ∀ old ∈ t.rows, old.id ≠ d.guidInt := by simpa using absent
    unfold Table.insertOrIgnore at member
    split at member
    · rcases List.mem_append.mp member with old | new
      · exact Or.inr ⟨old, other row old⟩
      · exact Or.inl (List.mem_singleton.mp new)
    · exact Or.inr ⟨member, other row member⟩

/-- Storing a document changes no other id. -/
theorem mem_store_of_ne {row : Row} (other : row.id ≠ d.guidInt) : row ∈ (store t d).rows ↔ row ∈ t.rows := by
  unfold store
  split
  · rfl
  · split
    · exact t.mem_mapValues_of_unchanged fun old _ same => if_neg (by rwa [same])
    · exact t.mem_insertOrIgnore_of_ne other

/-- A document whose guid no other id holds is stored. -/
theorem row_mem_store (key : d.guid ≠ [] ∧ lower d.guid = d.guid) (paired : Paired t d)
    (free : ∀ row ∈ t.rows, row.guid = d.guid → row.id = d.guidInt) : d.row ∈ (store t d).rows := by
  simp only [store, key.2, key.1, ↓reduceIte]
  split
  · rename_i present
    obtain ⟨old, old_member, id⟩ : ∃ old ∈ t.rows, old.id = d.guidInt := by simpa using present
    exact List.mem_map.mpr ⟨old, old_member, by simp [Doc.row, id, paired old old_member id]⟩
  · rename_i absent
    have other : ∀ old ∈ t.rows, old.id ≠ d.guidInt := by simpa using absent
    have fresh : d.guidInt ∉ t.rows.map Row.id ∧ d.guid ∉ t.rows.map Row.guid := by
      simp only [List.mem_map, not_exists, not_and]
      exact ⟨other, fun old member guid => other old member (free old member guid)⟩
    rw [Table.insertOrIgnore, dif_pos fresh]
    exact List.mem_append_right _ (List.mem_singleton.mpr rfl)

theorem mem_remove {guid : Bytes} (key : guid ≠ []) {row : Row} :
    row ∈ (remove t guid).rows ↔ row ∈ t.rows ∧ row.guid ≠ guid := by
  simp [remove, key, Table.filter]

end Store

/-! ## What is to come -/

/-- The last change to come of a guid is what became of it. -/
def Truthful (mongo : Collection) (pending : Bytes → List Change) : Prop :=
  ∀ guid c, (pending guid).getLast? = some c → (c = .update ↔ ∃ d ∈ mongo.docs, d.guid = guid)

section Truthful
variable {mongo : Collection} {pending : Bytes → List Change}

theorem Truthful.write (truthful : Truthful mongo pending) {after : Collection} {w : Write}
    (wrote : Wrote mongo after w) :
    Truthful after (Function.update pending w.guid (pending w.guid ++ [w.change])) := by
  intro guid c is_last
  by_cases same : guid = w.guid
  · subst same
    obtain rfl : w.change = c := by simpa using is_last
    exact wrote.present.symm
  · rw [Function.update_of_ne same] at is_last
    rw [truthful guid c is_last]
    constructor
    · rintro ⟨d, member, rfl⟩
      exact ⟨d, (wrote.others d same).mpr member, rfl⟩
    · rintro ⟨d, member, rfl⟩
      exact ⟨d, (wrote.others d same).mp member, rfl⟩

/-- It is not the last change that is taken. -/
theorem Truthful.of_suffix (truthful : Truthful mongo pending) {rest : Bytes → List Change}
    (suffix : ∀ guid, rest guid <:+ pending guid) : Truthful mongo rest := by
  intro guid c is_last
  obtain ⟨taken, whole⟩ := suffix guid
  exact truthful guid c (by rw [← whole, List.getLast?_append, is_last, Option.some_or])

end Truthful

/-! ## Views -/

structure View where
  mongo : Collection
  table : Table
  items : List Doc
  pending : Bytes → List Change

namespace View

/-- The document with this guid is the one with this id. -/
def Has (v : View) (guid : Bytes) (id : Int) : Prop := ∃ d ∈ v.mongo.docs, d.guid = guid ∧ d.guidInt = id

/-- What is out of date will be put right: rows and read documents of a deleted
document wait for its deletion, read documents that have changed since wait for
some change, and the last change to come of a guid is what became of it. -/
structure Sound (v : View) : Prop where
  rows_born : ∀ row ∈ v.table.rows, (row.id, row.guid) ∈ v.mongo.born
  items_born : ∀ d ∈ v.items, (d.guidInt, d.guid) ∈ v.mongo.born
  rows_gone : ∀ row ∈ v.table.rows, ¬ v.Has row.guid row.id → .delete ∈ v.pending row.guid
  items_gone : ∀ d ∈ v.items, ¬ v.Has d.guid d.guidInt → .delete ∈ v.pending d.guid
  items_stale : ∀ d ∈ v.items, d ∉ v.mongo.docs → v.pending d.guid ≠ []
  last : ∀ guid c, (v.pending guid).getLast? = some c → (c = .update ↔ ∃ d ∈ v.mongo.docs, d.guid = guid)

/-- A document of which nothing is to come is stored, or read and about to be. -/
def Covered (v : View) : Prop :=
  ∀ d ∈ v.mongo.docs, v.pending d.guid = [] → d.row ∈ v.table.rows ∨ d ∈ v.items

/-- `Sound` but for rows that will stay although their document is gone. -/
structure SoundBut (leftover : Row → Prop) (v : View) : Prop where
  rows_born : ∀ row ∈ v.table.rows, (row.id, row.guid) ∈ v.mongo.born
  items_born : ∀ d ∈ v.items, (d.guidInt, d.guid) ∈ v.mongo.born
  rows_gone : ∀ row ∈ v.table.rows, ¬ v.Has row.guid row.id → .delete ∈ v.pending row.guid ∨ leftover row
  items_gone : ∀ d ∈ v.items, ¬ v.Has d.guid d.guidInt → .delete ∈ v.pending d.guid
  items_stale : ∀ d ∈ v.items, d ∉ v.mongo.docs → v.pending d.guid ≠ []
  last : Truthful v.mongo v.pending

/-- `Covered` but for documents that will stay away. -/
def CoveredBut (missing : Doc → Prop) (v : View) : Prop :=
  ∀ d ∈ v.mongo.docs, v.pending d.guid = [] → d.row ∈ v.table.rows ∨ d ∈ v.items ∨ missing d

theorem soundBut_false {v : View} : v.SoundBut (fun _ => False) ↔ v.Sound := by
  constructor
  · rintro ⟨rows_born, items_born, rows_gone, items_gone, items_stale, last⟩
    exact ⟨rows_born, items_born, fun row member gone => (rows_gone row member gone).resolve_right id, items_gone,
      items_stale, last⟩
  · rintro ⟨rows_born, items_born, rows_gone, items_gone, items_stale, last⟩
    exact ⟨rows_born, items_born, fun row member gone => Or.inl (rows_gone row member gone), items_gone,
      items_stale, last⟩

theorem coveredBut_false {v : View} : v.CoveredBut (fun _ => False) ↔ v.Covered := by
  simp [CoveredBut, Covered]

section Steps
variable {v : View} {leftover leftover' : Row → Prop} {missing missing' : Doc → Prop}

theorem SoundBut.weaken (sound : v.SoundBut leftover)
    (less : ∀ row ∈ v.table.rows, leftover row → .delete ∈ v.pending row.guid ∨ leftover' row) :
    v.SoundBut leftover' :=
  { sound with
    rows_gone := fun row member gone => (sound.rows_gone row member gone).elim Or.inl (less row member) }

theorem CoveredBut.weaken (covered : v.CoveredBut missing)
    (less : ∀ d ∈ v.mongo.docs, v.pending d.guid = [] → missing d → missing' d) : v.CoveredBut missing' :=
  fun d member nothing => (covered d member nothing).imp_right (Or.imp_right (less d member nothing))

/-- A write adds a change to come. -/
def afterWrite (v : View) (mongo : Collection) (w : Write) : View :=
  { v with
    mongo := mongo
    pending := Function.update v.pending w.guid (v.pending w.guid ++ [w.change]) }

theorem has_afterWrite {mongo : Collection} {w : Write} (wrote : Wrote v.mongo mongo w) {guid : Bytes} {id : Int}
    (has : v.Has guid id) : (v.afterWrite mongo w).Has guid id ∨ guid = w.guid ∧ w.change = .delete := by
  obtain ⟨d, member, rfl, rfl⟩ := has
  cases change : w.change with
  | update => exact Or.inl (wrote.kept change d member)
  | delete =>
    by_cases same : d.guid = w.guid
    · exact Or.inr ⟨same, rfl⟩
    · exact Or.inl ⟨d, (wrote.others d same).mpr member, rfl, rfl⟩

theorem pending_afterWrite {mongo : Collection} {w : Write} (guid : Bytes) :
    (v.afterWrite mongo w).pending guid =
      if guid = w.guid then v.pending guid ++ [w.change] else v.pending guid := by
  by_cases same : guid = w.guid
  · subst same
    simp [afterWrite]
  · simp [afterWrite, same]

/-- A deletion to come of a document that is gone. -/
private theorem gone_afterWrite {mongo : Collection} {w : Write} (wrote : Wrote v.mongo mongo w) {guid : Bytes}
    {id : Int} {otherwise : Prop} (before : ¬ v.Has guid id → .delete ∈ v.pending guid ∨ otherwise)
    (gone : ¬ (v.afterWrite mongo w).Has guid id) : .delete ∈ (v.afterWrite mongo w).pending guid ∨ otherwise := by
  rw [pending_afterWrite]
  by_cases had : v.Has guid id
  · obtain ⟨same, change⟩ := (has_afterWrite wrote had).resolve_left gone
    simp [same, change]
  · split
    · exact (before had).imp_left (List.mem_append_left _)
    · exact before had

theorem SoundBut.write (sound : v.SoundBut leftover) {mongo : Collection} {w : Write}
    (wrote : Wrote v.mongo mongo w) : (v.afterWrite mongo w).SoundBut leftover where
  rows_born row member := wrote.born _ (sound.rows_born row member)
  items_born d member := wrote.born _ (sound.items_born d member)
  rows_gone row member := gone_afterWrite wrote (sound.rows_gone row member)
  items_gone d member gone :=
    (gone_afterWrite wrote (fun was_gone => Or.inl (sound.items_gone d member was_gone)) gone).resolve_right id
  items_stale d member stale := by
    rw [pending_afterWrite]
    split
    · simp
    · rename_i other
      exact sound.items_stale d member fun old => stale ((wrote.others d other).mpr old)
  last := sound.last.write wrote

theorem CoveredBut.write (covered : v.CoveredBut missing) {mongo : Collection} {w : Write}
    (wrote : Wrote v.mongo mongo w) : (v.afterWrite mongo w).CoveredBut missing := by
  intro d member nothing
  rw [pending_afterWrite] at nothing
  split at nothing
  · simp at nothing
  · rename_i other
    exact covered d ((wrote.others d other).mp member) nothing

theorem Sound.write (sound : v.Sound) {mongo : Collection} {w : Write} (wrote : Wrote v.mongo mongo w) :
    (v.afterWrite mongo w).Sound :=
  soundBut_false.mp ((soundBut_false.mpr sound).write wrote)

theorem Covered.write (covered : v.Covered) {mongo : Collection} {w : Write} (wrote : Wrote v.mongo mongo w) :
    (v.afterWrite mongo w).Covered :=
  coveredBut_false.mp ((coveredBut_false.mpr covered).write wrote)

/-- Storing the next of the read documents. -/
def afterStore (v : View) (d : Doc) (items : List Doc) : View := { v with table := store v.table d, items := items }

/-- What a read document shares with the rows. -/
theorem SoundBut.keys (sound : v.SoundBut leftover) {d : Doc} (member : d ∈ v.items) :
    (d.guid ≠ [] ∧ lower d.guid = d.guid) ∧ Paired v.table d :=
  ⟨v.mongo.lower_case _ (sound.items_born d member), fun row row_member same =>
    v.mongo.guid_of_born (sound.rows_born row row_member) (same ▸ sound.items_born d member)⟩

theorem SoundBut.store (sound : v.SoundBut leftover) {d : Doc} {items : List Doc} (next : v.items = d :: items) :
    (v.afterStore d items).SoundBut leftover := by
  have here : d ∈ v.items := by simp [next]
  have later {other : Doc} (member : other ∈ items) : other ∈ v.items := by simp [next, member]
  obtain ⟨key, paired⟩ := sound.keys here
  refine ⟨fun row member => ?_, fun other member => sound.items_born other (later member), fun row member gone => ?_,
    fun other member => sound.items_gone other (later member),
    fun other member => sound.items_stale other (later member), sound.last⟩
  · rcases mem_store key paired member with rfl | ⟨old, -⟩
    · exact sound.items_born d here
    · exact sound.rows_born row old
  · rcases mem_store key paired member with rfl | ⟨old, -⟩
    · exact Or.inl (sound.items_gone d here gone)
    · exact sound.rows_gone row old gone

/-- A row that will stay keeps the document of its guid away. -/
theorem CoveredBut.store (covered : v.CoveredBut missing) (sound : v.SoundBut leftover)
    (blocks : ∀ row, leftover row → ∀ doc : Doc, row.guid = doc.guid → missing doc) {d : Doc} {items : List Doc}
    (next : v.items = d :: items) : (v.afterStore d items).CoveredBut missing := by
  have here : d ∈ v.items := by simp [next]
  obtain ⟨key, paired⟩ := sound.keys here
  intro doc member nothing
  have nothing_before : v.pending doc.guid = [] := nothing
  by_cases same : d.guid = doc.guid
  · -- nothing is to come for this guid, so the read document is the current one
    have current : d ∈ v.mongo.docs := by
      by_contra stale
      exact sound.items_stale d here stale (same ▸ nothing_before)
    obtain rfl := v.mongo.eq_of_guid current member same
    by_cases away : missing d
    · exact Or.inr (Or.inr away)
    refine Or.inl (row_mem_store key paired fun row row_member guid => ?_)
    by_contra other_id
    have gone : ¬ v.Has row.guid row.id := by
      rintro ⟨other, other_member, other_guid, other_guidInt⟩
      obtain rfl := v.mongo.eq_of_guid other_member current (other_guid.trans guid)
      exact other_id other_guidInt.symm
    rcases sound.rows_gone row row_member gone with waits | stays
    · rw [guid, nothing_before] at waits
      cases waits
    · exact away (blocks row stays d guid)
  · rcases covered doc member nothing_before with row_member | item | away
    · left
      have other_id : doc.row.id ≠ d.guidInt := by
        intro same_id
        have doc_born := v.mongo.docs_born doc member
        rw [show doc.guidInt = d.guidInt from same_id] at doc_born
        exact same (v.mongo.guid_of_born (sound.items_born d here) doc_born)
      exact (mem_store_of_ne other_id).mpr row_member
    · right
      left
      rw [next] at item
      exact (List.mem_cons.mp item).resolve_left fun is_d => same (congrArg Doc.guid is_d).symm
    · exact Or.inr (Or.inr away)

theorem Sound.store (sound : v.Sound) {d : Doc} {items : List Doc} (next : v.items = d :: items) :
    (v.afterStore d items).Sound :=
  soundBut_false.mp ((soundBut_false.mpr sound).store next)

theorem Covered.store (covered : v.Covered) (sound : v.Sound) {d : Doc} {items : List Doc}
    (next : v.items = d :: items) : (v.afterStore d items).Covered :=
  coveredBut_false.mp ((coveredBut_false.mpr covered).store (soundBut_false.mpr sound) (fun _ none => none.elim) next)

/-- Reading documents that are there, with these changes still to come. -/
def afterRead (v : View) (items : List Doc) (pending : Bytes → List Change) : View :=
  { v with items := items, pending := pending }

/-- A read takes at most an update out of what is to come. -/
structure Takes (guid : Bytes) (before after : Bytes → List Change) : Prop where
  others : ∀ other ≠ guid, after other = before other
  head : before guid = after guid ∨ before guid = .update :: after guid

theorem Takes.delete_mem {guid : Bytes} {before after : Bytes → List Change} (takes : Takes guid before after)
    {asked : Bytes} (member : .delete ∈ before asked) : .delete ∈ after asked := by
  by_cases same : asked = guid
  · subst same
    rcases takes.head with unchanged | taken
    · rwa [unchanged] at member
    · simpa [taken] using member
  · rwa [takes.others asked same]

theorem Takes.suffix {guid : Bytes} {before after : Bytes → List Change} (takes : Takes guid before after)
    (asked : Bytes) : after asked <:+ before asked := by
  by_cases same : asked = guid
  · subst same
    rcases takes.head with unchanged | taken
    · exact unchanged ▸ List.suffix_refl _
    · rw [taken]
      exact List.suffix_cons _ _
  · exact takes.others asked same ▸ List.suffix_refl _

theorem SoundBut.read (sound : v.SoundBut leftover) {items : List Doc} (there : ∀ d ∈ items, d ∈ v.mongo.docs)
    {guid : Bytes} {pending : Bytes → List Change} (takes : Takes guid v.pending pending) :
    (v.afterRead items pending).SoundBut leftover where
  rows_born := sound.rows_born
  items_born d member := v.mongo.docs_born d (there d member)
  rows_gone row member gone := (sound.rows_gone row member gone).imp_left takes.delete_mem
  items_gone d member gone := absurd ⟨d, there d member, rfl, rfl⟩ gone
  items_stale d member stale := absurd (there d member) stale
  last := sound.last.of_suffix takes.suffix

theorem CoveredBut.read (covered : v.CoveredBut missing) (none_read : v.items = []) {items : List Doc}
    {guid : Bytes} {pending : Bytes → List Change} (takes : Takes guid v.pending pending)
    (all : v.pending guid ≠ pending guid → ∀ d ∈ v.mongo.docs, d.guid = guid → d ∈ items)
    (less : ∀ d ∈ v.mongo.docs, missing d → d ∈ items ∨ missing' d) :
    (v.afterRead items pending).CoveredBut missing' := by
  intro d member nothing
  by_cases unchanged : v.pending d.guid = pending d.guid
  · have stored := covered d member (unchanged.trans nothing)
    rw [none_read] at stored
    rcases stored with row_member | item | away
    · exact Or.inl row_member
    · cases item
    · exact Or.inr (less d member away)
  · right
    left
    have same : d.guid = guid := by
      by_contra other
      exact unchanged (takes.others d.guid other).symm
    exact all (same ▸ unchanged) d member same

theorem Sound.read (sound : v.Sound) {items : List Doc} (there : ∀ d ∈ items, d ∈ v.mongo.docs) {guid : Bytes}
    {pending : Bytes → List Change} (takes : Takes guid v.pending pending) : (v.afterRead items pending).Sound :=
  soundBut_false.mp ((soundBut_false.mpr sound).read there takes)

theorem Covered.read (covered : v.Covered) (none_read : v.items = []) {items : List Doc} {guid : Bytes}
    {pending : Bytes → List Change} (takes : Takes guid v.pending pending)
    (all : v.pending guid ≠ pending guid → ∀ d ∈ v.mongo.docs, d.guid = guid → d ∈ items) :
    (v.afterRead items pending).Covered :=
  coveredBut_false.mp ((coveredBut_false.mpr covered).read none_read takes all fun _ _ none => none.elim)

/-- Removing the row of a guid, which takes a deletion out of what is to come. -/
def afterRemove (v : View) (guid : Bytes) (pending : Bytes → List Change) : View :=
  { v with table := remove v.table guid, pending := pending }

/-- What is left of a table. -/
theorem mem_remove_of_born {guid : Bytes} (born : ∀ row ∈ v.table.rows, (row.id, row.guid) ∈ v.mongo.born)
    {row : Row} : row ∈ (Replica.remove v.table guid).rows ↔ row ∈ v.table.rows ∧ row.guid ≠ guid := by
  by_cases key : guid = []
  · have same : Replica.remove v.table guid = v.table := if_pos key
    rw [same]
    exact ⟨fun member => ⟨member, key ▸ (v.mongo.lower_case _ (born row member)).1⟩, And.left⟩
  · exact mem_remove key

theorem SoundBut.remove (sound : v.SoundBut leftover) (none_read : v.items = []) {guid : Bytes}
    {pending : Bytes → List Change} (others : ∀ other ≠ guid, pending other = v.pending other)
    (head : v.pending guid = .delete :: pending guid) : (v.afterRemove guid pending).SoundBut leftover := by
  have row_of {row : Row} (member : row ∈ (Replica.remove v.table guid).rows) :
      row ∈ v.table.rows ∧ row.guid ≠ guid := (mem_remove_of_born sound.rows_born).mp member
  have no_item {d : Doc} (member : d ∈ v.items) : False := by simp [none_read] at member
  refine ⟨fun row member => sound.rows_born row (row_of member).1, fun d member => (no_item member).elim,
    fun row member gone => ?_, fun d member => (no_item member).elim, fun d member => (no_item member).elim,
    sound.last.of_suffix fun asked => ?_⟩
  · have waits := sound.rows_gone row (row_of member).1 gone
    rwa [← others row.guid (row_of member).2] at waits
  · by_cases same : asked = guid
    · rw [same, head]
      exact List.suffix_cons _ _
    · exact (others asked same) ▸ List.suffix_refl _

theorem CoveredBut.remove (covered : v.CoveredBut missing) (sound : v.SoundBut leftover) (none_read : v.items = [])
    {guid : Bytes} {pending : Bytes → List Change} (others : ∀ other ≠ guid, pending other = v.pending other)
    (head : v.pending guid = .delete :: pending guid) : (v.afterRemove guid pending).CoveredBut missing := by
  intro d member nothing
  have nothing_after : pending d.guid = [] := nothing
  by_cases same : d.guid = guid
  · -- the deletion was the last change to come, so the document is not there
    have last := sound.last guid .delete (by rw [head, ← same, nothing_after]; rfl)
    have update := last.mpr ⟨d, member, same⟩
    cases update
  · rw [others d.guid same] at nothing_after
    rcases covered d member nothing_after with stored | item | away
    · exact Or.inl ((mem_remove_of_born sound.rows_born).mpr ⟨stored, same⟩)
    · rw [none_read] at item
      cases item
    · exact Or.inr (Or.inr away)

theorem Sound.remove (sound : v.Sound) (none_read : v.items = []) {guid : Bytes} {pending : Bytes → List Change}
    (others : ∀ other ≠ guid, pending other = v.pending other) (head : v.pending guid = .delete :: pending guid) :
    (v.afterRemove guid pending).Sound :=
  soundBut_false.mp ((soundBut_false.mpr sound).remove none_read others head)

theorem Covered.remove (covered : v.Covered) (sound : v.Sound) (none_read : v.items = []) {guid : Bytes}
    {pending : Bytes → List Change} (others : ∀ other ≠ guid, pending other = v.pending other)
    (head : v.pending guid = .delete :: pending guid) : (v.afterRemove guid pending).Covered :=
  coveredBut_false.mp
    ((coveredBut_false.mpr covered).remove (soundBut_false.mpr sound) none_read others head)

end Steps

/-- When nothing is to come and nothing is being stored, the table holds exactly
the documents' rows. -/
theorem rows_perm {v : View} (sound : v.Sound) (covered : v.Covered) (nothing : ∀ guid, v.pending guid = [])
    (none_read : v.items = []) : v.table.rows.Perm (v.mongo.docs.map Doc.row) := by
  have row_of {d : Doc} (member : d ∈ v.mongo.docs) : d.row ∈ v.table.rows :=
    (covered d member (nothing d.guid)).resolve_right (by simp [none_read])
  have nodup_rows : v.table.rows.Nodup := List.Nodup.of_map Row.id v.table.ids
  have nodup_docs : (v.mongo.docs.map Doc.row).Nodup := by
    have guids : ((v.mongo.docs.map Doc.row).map Row.guid).Nodup := by
      rw [List.map_map]
      exact v.mongo.guids
    exact List.Nodup.of_map Row.guid guids
  apply (List.perm_ext_iff_of_nodup nodup_rows nodup_docs).mpr
  intro row
  constructor
  · intro member
    have has : v.Has row.guid row.id := by
      by_contra gone
      have waits := sound.rows_gone row member gone
      rw [nothing] at waits
      cases waits
    obtain ⟨d, d_member, -, id⟩ := has
    have same : d.row = row := v.table.eq_of_id (row_of d_member) member id
    exact List.mem_map.mpr ⟨d, d_member, same⟩
  · intro member
    obtain ⟨d, d_member, rfl⟩ := List.mem_map.mp member
    exact row_of d_member

end View

end WorkerInformer.Replica
