import WorkerInformer.IntendedEffects

/-! The loop of `ParentDB::InformerUpdate` over documents of which some are
malformed. A document with an empty guid is passed over, but a read that throws,
the one of a missing guid among them, is caught behind the loop: what stands after
the document is not stored. -/
namespace WorkerInformer.MalformedDocuments
open Bytes Sql Printf InformerTable InformerUpdate IntendedEffects

section Documents
variable (env : Env)

/-- The documents whose statements the loop runs, each with the number of its pass. -/
def storedFrom : Nat → List Document → List (Nat × Parsed env)
  | _, [] => []
  | n, x :: items =>
    match parse? env x with
    | none => []
    | some none => storedFrom (n + 1) items
    | some (some p) => (n, p) :: storedFrom (n + 1) items

/-- The well-formed documents, each with the number of its pass. -/
def wellFormedFrom : Nat → List Document → List (Nat × Parsed env)
  | _, [] => []
  | n, x :: items =>
    match parse? env x with
    | some (some p) => (n, p) :: wellFormedFrom (n + 1) items
    | _ => wellFormedFrom (n + 1) items

def stored (items : List Document) : List (Nat × Parsed env) := storedFrom env 0 items

def wellFormed (items : List Document) : List (Nat × Parsed env) := wellFormedFrom env 0 items

/-- A read of the document throws. -/
def Throws (x : Document) : Prop := parse? env x = none

/-- Every read of the document succeeds, and it has a guid. -/
def WellRead (x : Document) : Prop := ∃ p, parse? env x = some (some p)

variable {env}

/-- The loop runs the statements of the stored documents and nothing else. -/
theorem informerUpdate_storedFrom (above : Nat → Nat → Int) (n : Nat) (t : Table) (items : List Document) :
    informerUpdate env (fun k => above (n + k)) t items =
      (storedFrom env n items).foldl (fun t e => e.2.store (above e.1) t) t := by
  induction items generalizing n t with
  | nil => rfl
  | cons x items ih =>
    have shifted : (fun k => above (n + (k + 1))) = fun k => above (n + 1 + k) := by
      funext k
      rw [Nat.add_right_comm, Nat.add_assoc]
    rw [informerUpdate, storedFrom, shifted]
    cases parse? env x with
    | none => rfl
    | some read =>
      cases read with
      | none => exact ih (n + 1) t
      | some p =>
        simp only [Nat.add_zero, List.foldl_cons]
        exact ih (n + 1) (p.store (above n) t)

theorem wellFormedFrom_eq_nil (n : Nat) (items : List Document) :
    wellFormedFrom env n items = [] ↔ ∀ y ∈ items, ¬ WellRead env y := by
  induction items generalizing n with
  | nil => simp [wellFormedFrom]
  | cons x items ih =>
    rw [wellFormedFrom, List.forall_mem_cons, ← ih (n + 1)]
    cases parsed : parse? env x with
    | none => simp [WellRead, parsed]
    | some read => cases read <;> simp [WellRead, parsed]

theorem storedFrom_eq_iff (n : Nat) (items : List Document) :
    storedFrom env n items = wellFormedFrom env n items ↔
      items.Pairwise fun x y => Throws env x → ¬ WellRead env y := by
  induction items generalizing n with
  | nil => simp [storedFrom, wellFormedFrom]
  | cons x items ih =>
    rw [storedFrom, wellFormedFrom, List.pairwise_cons]
    cases parsed : parse? env x with
    | none =>
      simp only [Throws, parsed, forall_const]
      rw [eq_comm, wellFormedFrom_eq_nil]
      exact ⟨fun none_read => ⟨none_read, List.pairwise_of_forall_mem_list fun _ _ y member _ => none_read y member⟩,
        fun both => both.1⟩
    | some read =>
      have passes : ∀ y ∈ items, Throws env x → ¬ WellRead env y := by simp [Throws, parsed]
      rw [and_iff_right passes, ← ih (n + 1)]
      cases read with
      | none => rfl
      | some p => simp

end Documents

/-! ## The rows of the documents -/

section Rows
variable {env : Env} {p q : Parsed env} {t : Table}

/-- The `rating_division` of the document, or the default. -/
def rating (p : Parsed env) : Int := Document.truncate (p.fields.ratingDivision.getD 1000)

/-- The table has the document's row with the document's values. -/
def IsStored (p : Parsed env) (t : Table) : Prop :=
  ∃ before, ⟨p.longId.toInt, p.id, p.stored (rating p) before⟩ ∈ t.rows

/-- The document's statement is written as it is meant: it fits `buf`, its
numbers are numbers, and the slots that are read by mistake hold the right ones. -/
structure WrittenRight (p : Parsed env) (above : Nat → Int) (t : Table) : Prop where
  fits : p.Fits above
  finite : p.RangesFinite
  nulFree : NulFree p.id
  slots : SlotsRight p above t (rating p)

/-- What a statement does that is written right. -/
def put (p : Parsed env) (t : Table) : Table :=
  if find t p.longId then
    t.mapValues fun row => if row.id = p.longId.toInt then p.stored (rating p) row.values else row.values
  else t.insertOrIgnore ⟨p.longId.toInt, p.id, p.stored (rating p) Column.default⟩

theorem store_eq_put {above : Nat → Int} (right : WrittenRight p above t) : p.store above t = put p t := by
  have slots := right.slots
  unfold SlotsRight at slots
  rw [Parsed.store, put]
  cases found : find t p.longId with
  | true =>
    rw [if_pos found] at slots
    rw [update_of_fits right.fits right.finite, slots.1, slots.2, if_pos rfl]
  | false =>
    rw [if_neg (by simp [found])] at slots
    rw [insert_of_fits right.fits right.finite, Parsed.row, cString_of_nulFree right.nulFree, slots,
      if_neg Bool.false_ne_true]

/-- The two documents have neither the guid nor the `guid_int` in common. -/
def Apart (p q : Parsed env) : Prop := q.longId ≠ p.longId ∧ q.id ≠ p.id

/-- The document's row, if there is one, has its `guid_int` and its guid. -/
def Paired (p : Parsed env) (t : Table) : Prop := ∀ row ∈ t.rows, row.id = p.longId.toInt ↔ row.guid = p.id

theorem isStored_put (paired : Paired p t) : IsStored p (put p t) := by
  unfold put
  cases found : find t p.longId with
  | true =>
    obtain ⟨row, member, id⟩ := (find_iff t p.longId).mp found
    refine ⟨row.values, List.mem_map.mpr ⟨row, member, ?_⟩⟩
    simp [id, (paired row member).mp id]
  | false =>
    have absent : ∀ row ∈ t.rows, row.id ≠ p.longId.toInt := by
      intro row member same
      rw [(find_iff t p.longId).mpr ⟨row, member, same⟩] at found
      cases found
    have free : p.longId.toInt ∉ t.rows.map Row.id ∧ p.id ∉ t.rows.map Row.guid := by
      simp only [List.mem_map, not_exists, not_and]
      exact ⟨absent, fun row member same => absent row member ((paired row member).mpr same)⟩
    refine ⟨Column.default, ?_⟩
    rw [if_neg Bool.false_ne_true, Table.insertOrIgnore, dif_pos free]
    exact List.mem_append_right _ (List.mem_singleton.mpr rfl)

theorem mem_put_of_ne {row : Row} (other : row.id ≠ q.longId.toInt) : row ∈ (put q t).rows ↔ row ∈ t.rows := by
  unfold put
  split
  · exact t.mem_mapValues_of_unchanged fun old _ same => if_neg (by rwa [same])
  · exact t.mem_insertOrIgnore_of_ne other

/-- Another document's statement leaves the document's row as it is. -/
theorem isStored_put_of_apart (apart : Apart p q) : IsStored p (put q t) ↔ IsStored p t := by
  have other : p.longId.toInt ≠ q.longId.toInt := fun same => apart.1 (Int64.toInt_inj.mp same).symm
  exact exists_congr fun before => mem_put_of_ne other

theorem paired_put_of_apart (apart : Apart p q) (paired : Paired p t) : Paired p (put q t) := by
  intro row member
  unfold put at member
  split at member
  · obtain ⟨old, old_member, rfl⟩ := List.mem_map.mp member
    exact paired old old_member
  · unfold Table.insertOrIgnore at member
    split at member
    · rcases List.mem_append.mp member with old | new
      · exact paired row old
      · rw [List.mem_singleton.mp new]
        exact iff_of_false (fun same => apart.1 (Int64.toInt_inj.mp same)) apart.2
    · exact paired row member

end Rows

/-! ## The loop -/

section Loop
variable {env : Env} {p : Parsed env}

/-- Every well-formed document's statement would be written right, in its pass
and on the table it finds if no document throws. -/
def EachWrittenRight (env : Env) : (Nat → Nat → Int) → Table → List Document → Prop
  | _, _, [] => True
  | above, t, x :: items =>
    match parse? env x with
    | some (some p) =>
      WrittenRight p (above 0) t ∧ EachWrittenRight env (fun n => above (n + 1)) (p.store (above 0) t) items
    | _ => EachWrittenRight env (fun n => above (n + 1)) t items

/-- No well-formed document among these has a key in common with this one. -/
def OwnKeys (p : Parsed env) (items : List Document) : Prop :=
  ∀ y ∈ items, ∀ q, parse? env y = some (some q) → Apart p q

/-- Documents with other keys leave the document's row as it is. -/
theorem isStored_of_ownKeys {above : Nat → Nat → Int} {t : Table} {items : List Document}
    (right : EachWrittenRight env above t items) (own : OwnKeys p items) :
    IsStored p (informerUpdate env above t items) ↔ IsStored p t := by
  induction items generalizing above t with
  | nil => rfl
  | cons y items ih =>
    have later : OwnKeys p items := fun z member => own z (List.mem_cons_of_mem y member)
    rw [EachWrittenRight] at right
    rw [informerUpdate]
    cases parsed : parse? env y with
    | none => rfl
    | some read =>
      rw [parsed] at right
      cases read with
      | none => exact ih right later
      | some q =>
        have apart := own y List.mem_cons_self q parsed
        exact (ih right.2 later).trans (by rw [store_eq_put right.1, isStored_put_of_apart apart])

/-- A document with its own keys is stored when nothing before it throws. -/
theorem isStored_iff {x : Document} (parsed : parse? env x = some (some p)) {above : Nat → Nat → Int} {t : Table}
    {front behind : List Document} (right : EachWrittenRight env above t (front ++ x :: behind))
    (own : OwnKeys p (front ++ behind)) (paired : Paired p t) :
    IsStored p (informerUpdate env above t (front ++ x :: behind)) ↔
      (∀ y ∈ front, ¬ Throws env y) ∨ IsStored p t := by
  induction front generalizing above t with
  | nil =>
    rw [List.nil_append, EachWrittenRight, parsed] at right
    rw [List.nil_append, informerUpdate, parsed]
    have here : IsStored p (p.store (above 0) t) := by
      rw [store_eq_put right.1]
      exact isStored_put paired
    have kept := (isStored_of_ownKeys right.2 own).mpr here
    exact iff_of_true kept (Or.inl fun y member => absurd member List.not_mem_nil)
  | cons y front ih =>
    have later : OwnKeys p (front ++ behind) := fun z member => own z (List.mem_cons_of_mem y member)
    rw [List.cons_append, EachWrittenRight] at right
    rw [List.cons_append, informerUpdate, List.forall_mem_cons]
    cases read : parse? env y with
    | none =>
      have throws : Throws env y := read
      simp [throws]
    | some result =>
      have passes : ¬ Throws env y := by simp [Throws, read]
      rw [read] at right
      rw [and_iff_right passes]
      cases result with
      | none => exact ih right later paired
      | some q =>
        have apart := own y List.mem_cons_self q read
        have stored := store_eq_put right.1
        refine (ih right.2 later ?_).trans (or_congr_right ?_)
        · rw [stored]
          exact paired_put_of_apart apart paired
        · rw [stored, isStored_put_of_apart apart]

end Loop

/-- **A document that throws keeps what stands behind it out of the table.** For
every list, table and slot content, the loop runs the statements of the stored
documents one after the other; these are all well-formed documents of the list
if and only if no document that throws stands before a well-formed one. Where
the statements are written right, every well-formed document with keys of its
own has its row with its values afterwards if and only if for each of them no
document before it throws, or the table had this row already. -/
theorem documents_stored_iff (env : Env) (above : Nat → Nat → Int) (t : Table) (items : List Document) :
    informerUpdate env above t items = (stored env items).foldl (fun t e => e.2.store (above e.1) t) t ∧
      (stored env items = wellFormed env items ↔ items.Pairwise fun x y => Throws env x → ¬ WellRead env y) ∧
      (EachWrittenRight env above t items →
        ((∀ (front : List Document) (x : Document) (behind : List Document) (p : Parsed env),
            items = front ++ x :: behind → parse? env x = some (some p) → OwnKeys p (front ++ behind) →
            Paired p t → IsStored p (informerUpdate env above t items)) ↔
          ∀ (front : List Document) (x : Document) (behind : List Document) (p : Parsed env),
            items = front ++ x :: behind → parse? env x = some (some p) → OwnKeys p (front ++ behind) →
            Paired p t → (∀ y ∈ front, ¬ Throws env y) ∨ IsStored p t)) := by
  refine ⟨?_, storedFrom_eq_iff 0 items, fun right => ?_⟩
  · rw [stored, ← informerUpdate_storedFrom above 0 t items]
    simp only [Nat.zero_add]
  · refine forall₄_congr fun front x behind p => forall₄_congr fun split parsed own paired => ?_
    subst split
    exact isStored_iff parsed right own paired

/-- A document without a `guid_int`. -/
def malformed : Document := .object [(bytes "guid", .string (bytes "c3d4"))]

theorem throws_malformed : parse? exactEnv malformed = none := rfl

theorem writtenRight_shop : WrittenRight (parsedDocument (bytes "shop")) (fun _ => 1000) Table.empty where
  fits := fits_document 1000 (Or.inr rfl)
  finite _ _ := rfl
  nulFree := by decide
  slots := by
    have absent : ¬ find Table.empty (parsedDocument (bytes "shop")).longId = true := by
      simp [find_iff, Table.empty]
    rw [SlotsRight, if_neg absent]
    decide +kernel

theorem paired_shop : Paired (parsedDocument (bytes "shop")) Table.empty :=
  fun _ member => absurd member List.not_mem_nil

theorem ownKeys_shop : OwnKeys (parsedDocument (bytes "shop")) [malformed] := by
  intro y member q parsed
  rw [List.mem_singleton.mp member, throws_malformed] at parsed
  cases parsed

/-- In front of the malformed document the other one is stored. -/
theorem shop_stored : IsStored (parsedDocument (bytes "shop"))
    (informerUpdate exactEnv (fun _ _ => 1000) Table.empty [document (bytes "shop"), malformed]) := by
  have right : EachWrittenRight exactEnv (fun _ _ => 1000) Table.empty [document (bytes "shop"), malformed] := by
    rw [EachWrittenRight, parse?_document, EachWrittenRight, throws_malformed]
    exact ⟨writtenRight_shop, trivial⟩
  refine ((documents_stored_iff exactEnv _ Table.empty _).2.2 right).mpr ?_ [] _ [malformed] _ rfl
    (parse?_document _) ownKeys_shop paired_shop
  intro front x behind p split parsed _ _
  apply Or.inl
  intro y member throws
  cases front with
  | nil => cases member
  | cons first front =>
    -- only the malformed document stands behind another one
    obtain ⟨rfl, rest⟩ := List.cons.inj split
    cases front with
    | nil =>
      obtain ⟨rfl, -⟩ := List.cons.inj rest
      rw [throws_malformed] at parsed
      cases parsed
    | cons second front => simp at rest

/-- Behind the malformed document it is not. -/
theorem shop_not_stored : parse? exactEnv (document (bytes "shop")) = some (some (parsedDocument (bytes "shop"))) ∧
    EachWrittenRight exactEnv (fun _ _ => 1000) Table.empty [malformed, document (bytes "shop")] ∧
    OwnKeys (parsedDocument (bytes "shop")) [malformed] ∧ Paired (parsedDocument (bytes "shop")) Table.empty ∧
    ¬ IsStored (parsedDocument (bytes "shop"))
      (informerUpdate exactEnv (fun _ _ => 1000) Table.empty [malformed, document (bytes "shop")]) := by
  refine ⟨parse?_document _, ?_, ownKeys_shop, paired_shop, ?_⟩
  · rw [EachWrittenRight, throws_malformed, EachWrittenRight, parse?_document]
    exact ⟨writtenRight_shop, trivial⟩
  · rw [informerUpdate, throws_malformed]
    rintro ⟨before, member⟩
    cases member

end WorkerInformer.MalformedDocuments
