import WorkerInformer.InformerTable
import WorkerInformer.ProcessMQ

/-! The informers of the main database as others write them and the worker
reads them. A guid belongs to one document at a time; a `guid_int` is given to
one created document and to no other ever after. -/
namespace WorkerInformer.MainDatabase
open Bytes Sql InformerTable ProcessMQ

/-- A document: its keys, its `user`, and the column values `InformerUpdate`
makes of the rest. -/
structure Doc where
  guid : Bytes
  guidInt : Int
  user : Bytes
  values : Column → Value

/-- The row the document should have. -/
def Doc.row (d : Doc) : Row := ⟨d.guidInt, d.guid, d.values⟩

/-- The collection, with the keys of all documents there ever were in `born`. -/
structure Collection where
  docs : List Doc
  born : List (Int × Bytes)
  guids : (docs.map Doc.guid).Nodup
  ids : (born.map Prod.fst).Nodup
  docs_born : ∀ d ∈ docs, (d.guidInt, d.guid) ∈ born
  lower_case : ∀ key ∈ born, key.2 ≠ [] ∧ lower key.2 = key.2

namespace Collection

def empty : Collection := ⟨[], [], List.nodup_nil, List.nodup_nil, by simp, by simp⟩

/-- The document may be created. -/
def New (c : Collection) (d : Doc) : Prop :=
  d.guid ≠ [] ∧ lower d.guid = d.guid ∧ d.guid ∉ c.docs.map Doc.guid ∧ d.guidInt ∉ c.born.map Prod.fst

instance (c : Collection) (d : Doc) : Decidable (c.New d) := inferInstanceAs (Decidable (_ ∧ _ ∧ _ ∧ _))

def create (c : Collection) (d : Doc) (new : c.New d) : Collection where
  docs := c.docs ++ [d]
  born := c.born ++ [(d.guidInt, d.guid)]
  guids := by
    rw [List.map_append]
    exact (List.perm_append_singleton _ _).nodup_iff.mpr (List.nodup_cons.mpr ⟨new.2.2.1, c.guids⟩)
  ids := by
    rw [List.map_append]
    exact (List.perm_append_singleton _ _).nodup_iff.mpr (List.nodup_cons.mpr ⟨new.2.2.2, c.ids⟩)
  docs_born := by
    intro other member
    rcases List.mem_append.mp member with old | added
    · exact List.mem_append_left _ (c.docs_born other old)
    · rw [List.mem_singleton.mp added]
      exact List.mem_append_right _ (List.mem_singleton.mpr rfl)
  lower_case := by
    intro key member
    rcases List.mem_append.mp member with old | added
    · exact c.lower_case key old
    · rw [List.mem_singleton.mp added]
      exact ⟨new.1, new.2.1⟩

/-- The document with other fields, if it is the one to modify. -/
def change (guid user : Bytes) (values : Column → Value) (d : Doc) : Doc :=
  if d.guid = guid then { d with user := user, values := values } else d

theorem change_guid (guid user : Bytes) (values : Column → Value) (d : Doc) :
    (change guid user values d).guid = d.guid := by
  unfold change
  split <;> rfl

theorem change_guidInt (guid user : Bytes) (values : Column → Value) (d : Doc) :
    (change guid user values d).guidInt = d.guidInt := by
  unfold change
  split <;> rfl

def modify (c : Collection) (guid user : Bytes) (values : Column → Value) : Collection where
  docs := c.docs.map (change guid user values)
  born := c.born
  guids := by
    have same : Doc.guid ∘ change guid user values = Doc.guid := funext (change_guid guid user values)
    rw [List.map_map, same]
    exact c.guids
  ids := c.ids
  docs_born := by
    intro other member
    obtain ⟨d, old, rfl⟩ := List.mem_map.mp member
    rw [change_guid, change_guidInt]
    exact c.docs_born d old
  lower_case := c.lower_case

def delete (c : Collection) (guid : Bytes) : Collection where
  docs := c.docs.filter (·.guid ≠ guid)
  born := c.born
  guids := c.guids.sublist (List.filter_sublist.map Doc.guid)
  ids := c.ids
  docs_born := fun d member => c.docs_born d (List.mem_of_mem_filter member)
  lower_case := c.lower_case

theorem eq_of_guid (c : Collection) {d other : Doc} (d_mem : d ∈ c.docs) (other_mem : other ∈ c.docs)
    (same : d.guid = other.guid) : d = other :=
  List.inj_on_of_nodup_map c.guids d_mem other_mem same

/-- A `guid_int` has one guid. -/
theorem guid_of_born (c : Collection) {id : Int} {guid other : Bytes} (first : (id, guid) ∈ c.born)
    (second : (id, other) ∈ c.born) : guid = other :=
  congrArg Prod.snd (List.inj_on_of_nodup_map c.ids first second rfl)

/-- The documents a filter finds. -/
def read (c : Collection) : Filter → List Doc
  | .all => c.docs
  | .guid guid => c.docs.filter (·.guid = guid)
  | .user user => c.docs.filter (·.user = user)

theorem mem_of_mem_read {c : Collection} {query : Filter} {d : Doc} (member : d ∈ c.read query) : d ∈ c.docs := by
  cases query with
  | all => exact member
  | guid guid => exact List.mem_of_mem_filter member
  | user user => exact List.mem_of_mem_filter member

end Collection

/-! ## Writes -/

/-- What the message about a write says. -/
inductive Change
  | update
  | delete
  deriving DecidableEq

def Change.message (guid : Bytes) : Change → Message
  | update => ⟨bytes "informer.update", guid⟩
  | delete => ⟨bytes "informer.delete", guid⟩

inductive Write
  | create (d : Doc)
  | modify (guid user : Bytes) (values : Column → Value)
  | delete (guid : Bytes)

namespace Write

def guid : Write → Bytes
  | create d => d.guid
  | modify guid _ _ | delete guid => guid

def change : Write → Change
  | create _ | modify _ _ _ => .update
  | delete _ => .delete

end Write

/-- The collection after a write; a write of a document that is not there, or of
keys that are taken, does not happen. -/
def Collection.write? (c : Collection) : Write → Option Collection
  | .create d => if new : c.New d then some (c.create d new) else none
  | .modify guid user values => if guid ∈ c.docs.map Doc.guid then some (c.modify guid user values) else none
  | .delete guid => if guid ∈ c.docs.map Doc.guid then some (c.delete guid) else none

/-- What a write does. -/
structure Wrote (before after : Collection) (w : Write) : Prop where
  born : ∀ key ∈ before.born, key ∈ after.born
  others : ∀ d, d.guid ≠ w.guid → (d ∈ after.docs ↔ d ∈ before.docs)
  present : (∃ d ∈ after.docs, d.guid = w.guid) ↔ w.change = .update
  kept : w.change = .update → ∀ d ∈ before.docs, ∃ d' ∈ after.docs, d'.guid = d.guid ∧ d'.guidInt = d.guidInt

theorem Collection.wrote_create (c : Collection) {d : Doc} (new : c.New d) : Wrote c (c.create d new) (.create d) where
  born _ member := List.mem_append_left _ member
  others other different := by
    have not_d : other ≠ d := fun same => different (congrArg Doc.guid same)
    simp [Collection.create, not_d]
  present := iff_of_true ⟨d, by simp [Collection.create], rfl⟩ rfl
  kept _ old member := ⟨old, List.mem_append_left _ member, rfl, rfl⟩

theorem Collection.wrote_modify {c : Collection} {guid : Bytes} (there : guid ∈ c.docs.map Doc.guid) (user : Bytes)
    (values : Column → Value) : Wrote c (c.modify guid user values) (.modify guid user values) where
  born _ member := member
  others other different := by
    simp only [Collection.modify, List.mem_map]
    constructor
    · rintro ⟨old, old_member, rfl⟩
      rw [Collection.change_guid] at different
      have same : Collection.change guid user values old = old := if_neg different
      rwa [same]
    · intro other_member
      exact ⟨other, other_member, if_neg different⟩
  present := by
    obtain ⟨d, member, is_guid⟩ := List.mem_map.mp there
    refine iff_of_true ⟨_, List.mem_map_of_mem member, ?_⟩ rfl
    rw [Collection.change_guid]
    exact is_guid
  kept _ _ old_member :=
    ⟨_, List.mem_map_of_mem old_member, Collection.change_guid .., Collection.change_guidInt ..⟩

theorem Collection.wrote_delete (c : Collection) (guid : Bytes) : Wrote c (c.delete guid) (.delete guid) where
  born _ member := member
  others other different := by
    have kept : other.guid ≠ guid := different
    simp [Collection.delete, kept]
  present := by
    apply iff_of_false
    · rintro ⟨d, member, is_guid⟩
      have kept : d.guid ≠ guid := by simpa using (List.mem_filter.mp member).2
      exact kept is_guid
    · simp [Write.change]
  kept update := by cases update

theorem wrote_of_write? {c after : Collection} {w : Write} (written : c.write? w = some after) :
    Wrote c after w := by
  cases w with
  | create d =>
    simp only [Collection.write?] at written
    split at written
    · obtain rfl := Option.some.inj written
      exact c.wrote_create _
    · cases written
  | modify guid user values =>
    simp only [Collection.write?] at written
    split at written
    · rename_i there
      obtain rfl := Option.some.inj written
      exact Collection.wrote_modify there user values
    · cases written
  | delete guid =>
    simp only [Collection.write?] at written
    split at written
    · obtain rfl := Option.some.inj written
      exact c.wrote_delete guid
    · cases written

/-- A document after a write has the keys of one before it or is a new one. -/
theorem key_of_write? {c after : Collection} {w : Write} (written : c.write? w = some after) {d : Doc}
    (member : d ∈ after.docs) :
    (∃ old ∈ c.docs, old.guid = d.guid ∧ old.guidInt = d.guidInt) ∨ d.guidInt ∉ c.born.map Prod.fst := by
  cases w with
  | create new_doc =>
    simp only [Collection.write?] at written
    split at written
    · rename_i new
      obtain rfl := Option.some.inj written
      rcases List.mem_append.mp member with old | added
      · exact Or.inl ⟨d, old, rfl, rfl⟩
      · rw [List.mem_singleton.mp added]
        exact Or.inr new.2.2.2
    · cases written
  | modify guid user values =>
    simp only [Collection.write?] at written
    split at written
    · obtain rfl := Option.some.inj written
      obtain ⟨old, old_member, rfl⟩ := List.mem_map.mp member
      exact Or.inl ⟨old, old_member, (Collection.change_guid ..).symm, (Collection.change_guidInt ..).symm⟩
    · cases written
  | delete guid =>
    simp only [Collection.write?] at written
    split at written
    · obtain rfl := Option.some.inj written
      exact Or.inl ⟨d, List.mem_of_mem_filter member, rfl, rfl⟩
    · cases written

end WorkerInformer.MainDatabase
