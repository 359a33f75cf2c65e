import Mathlib.Data.List.Basic

/-! A tree of files as a POSIX process without privileges sees it: owners, groups
and mode bits, the resolution of a path element by element, and the calls that
look at a file, make a directory and open a file. Links are left out. A path is
kept innermost element first, as a walk that goes on from its end needs it.
Nothing in this file is about one program. -/
namespace WorkerInformer.FileTree

/-- A place in the tree: the names from the root. -/
abbrev Location := List String

/-- Where an element of a path leads from a directory. -/
def Location.child (here : Location) (name : String) : Location :=
  if name = "" ∨ name = "." then here
  else if name = ".." then here.dropLast
  else here ++ [name]

inductive Kind
  | directory
  | regular
  | other
  deriving DecidableEq

structure Node where
  kind : Kind
  uid : Nat
  gid : Nat
  mode : Nat
  deriving DecidableEq

/-- A process that is not root's. -/
structure Process where
  uid : Nat
  gid : Nat
  groups : List Nat
  umask : Nat
  notRoot : uid ≠ 0

/-- The kinds of access, each the number of its bit in a class of three. -/
inductive Access
  | search
  | write
  | read

def Access.bit : Access → Nat
  | search => 0
  | write => 1
  | read => 2

namespace Process

/-- The class of the mode that counts for the process: owner, group or other. -/
def classShift (p : Process) (node : Node) : Nat :=
  if p.uid = node.uid then 6 else if p.gid = node.gid ∨ node.gid ∈ p.groups then 3 else 0

def May (p : Process) (access : Access) (node : Node) : Prop :=
  node.mode.testBit (p.classShift node + access.bit) = true

instance (p : Process) (access : Access) (node : Node) : Decidable (p.May access node) :=
  inferInstanceAs (Decidable (_ = true))

/-- What the mask of the process leaves of the mode it asks for. -/
def made (p : Process) (kind : Kind) (mode : Nat) : Node :=
  ⟨kind, p.uid, p.gid, mode ^^^ (mode &&& p.umask)⟩

end Process

inductive Errno
  | noEntry
  | notDirectory
  | isDirectory
  | present
  | noAccess
  deriving DecidableEq

/-- A tree, by the node at each place that exists. -/
structure Tree where
  node : Location → Option Node

namespace Tree

/-- The tree with this node, or nothing, at a place. -/
def put (tree : Tree) (place : Location) (node : Option Node) : Tree :=
  ⟨fun l => if l = place then node else tree.node l⟩

variable (tree : Tree) (p : Process) (start : Location)

/-- A directory that the process may search. -/
def Searchable (here : Location) : Prop :=
  ∃ dir ∈ tree.node here, dir.kind = .directory ∧ p.May .search dir

instance (here : Location) : Decidable (tree.Searchable p here) := Option.decidableExistsMem (tree.node here)

/-- A node that the process may write. -/
def Writable (here : Location) : Prop := ∃ node ∈ tree.node here, p.May .write node

instance (here : Location) : Decidable (tree.Writable p here) := Option.decidableExistsMem (tree.node here)

/-- The place of a path, its last element first. -/
def location : List String → Location
  | [] => start
  | name :: outer => (location outer).child name

/-- The place of a path whose directories all let the process through. -/
def resolve : List String → Except Errno Location
  | [] => .ok start
  | name :: outer =>
    match resolve outer with
    | .error e => .error e
    | .ok here =>
      match tree.node here with
      | none => .error .noEntry
      | some dir =>
        if dir.kind ≠ .directory then .error .notDirectory
        else if p.May .search dir then .ok (here.child name)
        else .error .noAccess

/-- `stat`. -/
def stat (path : List String) : Except Errno Node :=
  match tree.resolve p start path with
  | .error e => .error e
  | .ok place =>
    match tree.node place with
    | some node => .ok node
    | none => .error .noEntry

/-- `mkdir` with all permissions. -/
def mkdir : List String → Except Errno Tree
  | [] => .error .present
  | name :: outer =>
    match tree.resolve p start (name :: outer) with
    | .error e => .error e
    | .ok place =>
      match tree.node place with
      | some _ => .error .present
      | none =>
        if tree.Writable p (location start outer) then .ok (tree.put place (some (p.made .directory 0o777)))
        else .error .noAccess

/-- `open` for these kinds of access, of a file that is made if it is missing. -/
def openFile (accesses : List Access) (mode : Nat) : List String → Except Errno Tree
  | [] => .error .isDirectory
  | name :: outer =>
    match tree.resolve p start (name :: outer) with
    | .error e => .error e
    | .ok place =>
      match tree.node place with
      | some node =>
        if node.kind = .directory then .error .isDirectory
        else if ∀ access ∈ accesses, p.May access node then .ok tree
        else .error .noAccess
      | none =>
        if tree.Writable p (location start outer) then .ok (tree.put place (some (p.made .regular mode)))
        else .error .noAccess

/-- `unlink`. -/
def unlink : List String → Except Errno Tree
  | [] => .error .isDirectory
  | name :: outer =>
    match tree.resolve p start (name :: outer) with
    | .error e => .error e
    | .ok place =>
      match tree.node place with
      | none => .error .noEntry
      | some node =>
        if node.kind = .directory then .error .isDirectory
        else if tree.Writable p (location start outer) then .ok (tree.put place none)
        else .error .noAccess

variable {tree p start}

@[simp] theorem put_node_self (place : Location) (node : Option Node) : (tree.put place node).node place = node :=
  if_pos rfl

theorem put_node_of_ne {place other : Location} (apart : other ≠ place) (node : Option Node) :
    (tree.put place node).node other = tree.node other :=
  if_neg apart

/-- Resolution goes on where a directory may be searched, and only there. -/
theorem resolve_cons_iff {name : String} {outer : List String} {place : Location} :
    tree.resolve p start (name :: outer) = .ok place ↔
      ∃ here, tree.resolve p start outer = .ok here ∧ tree.Searchable p here ∧ place = here.child name := by
  rw [resolve]
  cases tree.resolve p start outer with
  | error e => simp
  | ok here =>
    simp only [Except.ok.injEq, exists_eq_left', Searchable]
    cases tree.node here with
    | none => simp
    | some dir =>
      by_cases directory : dir.kind = .directory
      · by_cases search : p.May .search dir
        · simp [directory, search, eq_comm]
        · simp [directory, search]
      · simp [directory]

/-- A path resolves to its place. -/
theorem resolve_eq_location {path : List String} {place : Location}
    (resolved : tree.resolve p start path = .ok place) : place = location start path := by
  induction path generalizing place with
  | nil =>
    cases resolved
    rfl
  | cons name outer ih =>
    obtain ⟨here, outer_resolved, -, rfl⟩ := resolve_cons_iff.mp resolved
    rw [ih outer_resolved, location]

/-- A path resolves exactly when each directory in front of an element of it may
be searched. -/
theorem resolve_iff {path : List String} :
    tree.resolve p start path = .ok (location start path) ↔
      ∀ name outer, name :: outer <:+ path → tree.Searchable p (location start outer) := by
  induction path with
  | nil => simp [resolve, location]
  | cons name outer ih =>
    constructor
    · intro resolved
      obtain ⟨here, outer_resolved, search, -⟩ := resolve_cons_iff.mp resolved
      obtain rfl := resolve_eq_location outer_resolved
      intro inner_name inner suffix
      rcases List.suffix_cons_iff.mp suffix with whole | deeper
      · obtain ⟨rfl, rfl⟩ := List.cons.inj whole
        exact search
      · exact ih.mp outer_resolved inner_name inner deeper
    · intro searchable
      apply resolve_cons_iff.mpr
      refine ⟨_, ih.mpr ?_, searchable name outer (List.suffix_refl _), rfl⟩
      intro inner_name inner suffix
      exact searchable inner_name inner (List.suffix_cons_iff.mpr (.inr suffix))

/-- Nothing that was there is gone or changed. -/
def Grows (before after : Tree) : Prop := ∀ place node, before.node place = some node → after.node place = some node

theorem Grows.refl (tree : Tree) : Grows tree tree := fun _ _ there => there

theorem Grows.trans {first second third : Tree} (one : Grows first second) (two : Grows second third) :
    Grows first third :=
  fun place node there => two place node (one place node there)

/-- What is made where nothing was takes nothing away. -/
theorem grows_put {place : Location} (missing : tree.node place = none) (node : Option Node) :
    Grows tree (tree.put place node) := by
  intro other there found
  have apart : other ≠ place := by
    rintro rfl
    rw [missing] at found
    cases found
  rw [put_node_of_ne apart]
  exact found

theorem Searchable.grows {before after : Tree} {here : Location} (search : before.Searchable p here)
    (grows : Grows before after) : after.Searchable p here := by
  obtain ⟨dir, there, allowed⟩ := search
  exact ⟨dir, grows here dir there, allowed⟩

/-- Whoever resolves a path in a tree resolves it in a tree that has grown. -/
theorem resolve_grows {before after : Tree} {path : List String} {place : Location}
    (resolved : before.resolve p start path = .ok place) (grows : Grows before after) :
    after.resolve p start path = .ok place := by
  obtain rfl := resolve_eq_location resolved
  rw [resolve_iff] at resolved ⊢
  intro name outer suffix
  exact (resolved name outer suffix).grows grows

/-! ## The calls, from a directory that is reached -/

section Reached
variable {outer : List String} {here : Location} {name : String}

/-- `stat` behind a directory that may be searched tells what is there. -/
theorem stat_searchable (reached : tree.resolve p start outer = .ok here) (search : tree.Searchable p here) :
    tree.stat p start (name :: outer) =
      match tree.node (here.child name) with
      | some node => .ok node
      | none => .error .noEntry := by
  have resolved := resolve_cons_iff.mpr ⟨here, reached, search, @rfl _ (here.child name)⟩
  rw [stat, resolved]

/-- Behind anything else it fails. -/
theorem stat_not_searchable (name : String) (reached : tree.resolve p start outer = .ok here)
    (blocked : ¬ tree.Searchable p here) :
    ∃ e, tree.stat p start (name :: outer) = .error e := by
  cases resolved : tree.resolve p start (name :: outer) with
  | error e => exact ⟨e, by rw [stat, resolved]⟩
  | ok place =>
    obtain ⟨other, other_reached, search, -⟩ := resolve_cons_iff.mp resolved
    rw [reached, Except.ok.injEq] at other_reached
    exact absurd (other_reached ▸ search) blocked

/-- A directory is made where nothing is, in a directory that may be searched and
written. -/
theorem mkdir_iff (reached : tree.resolve p start outer = .ok here) {after : Tree} :
    tree.mkdir p start (name :: outer) = .ok after ↔
      tree.Searchable p here ∧ tree.node (here.child name) = none ∧ tree.Writable p here ∧
        after = tree.put (here.child name) (some (p.made .directory 0o777)) := by
  have place := resolve_eq_location reached
  rw [mkdir]
  cases resolved : tree.resolve p start (name :: outer) with
  | error e =>
    constructor
    · nofun
    · rintro ⟨search, -⟩
      rw [resolve_cons_iff.mpr ⟨here, reached, search, rfl⟩] at resolved
      cases resolved
  | ok inner =>
    obtain ⟨other, other_reached, search, rfl⟩ := resolve_cons_iff.mp resolved
    rw [reached, Except.ok.injEq] at other_reached
    subst other_reached
    simp only [search, true_and, ← place]
    cases tree.node (here.child name) with
    | some node => simp
    | none =>
      by_cases writable : tree.Writable p here
      · simp [writable, eq_comm]
      · simp [writable]

/-- The process may open the file at this place in a directory it has reached: a
file that is there allows it, or a missing one may be made. -/
def Opens (tree : Tree) (p : Process) (accesses : List Access) (here : Location) (name : String) : Prop :=
  match tree.node (here.child name) with
  | some node => node.kind ≠ .directory ∧ ∀ access ∈ accesses, p.May access node
  | none => tree.Writable p here

instance (accesses : List Access) : Decidable (tree.Opens p accesses here name) := by
  unfold Opens
  split <;> infer_instance

theorem openFile_iff (accesses : List Access) (mode : Nat) :
    (∃ after, tree.openFile p start accesses mode (name :: outer) = .ok after) ↔
      ∃ here, tree.resolve p start outer = .ok here ∧ tree.Searchable p here ∧ tree.Opens p accesses here name := by
  rw [openFile]
  cases resolved : tree.resolve p start (name :: outer) with
  | error e =>
    constructor
    · rintro ⟨_, opened⟩
      cases opened
    · rintro ⟨here, reached, search, -⟩
      rw [resolve_cons_iff.mpr ⟨here, reached, search, rfl⟩] at resolved
      cases resolved
  | ok place =>
    obtain ⟨here, reached, search, rfl⟩ := resolve_cons_iff.mp resolved
    obtain rfl := resolve_eq_location reached
    simp only [reached, Except.ok.injEq, exists_eq_left', search, true_and, Opens]
    cases tree.node ((location start outer).child name) with
    | some node =>
      dsimp only
      by_cases directory : node.kind = .directory
      · simp [directory]
      · by_cases may : ∀ access ∈ accesses, p.May access node
        · exact iff_of_true ⟨tree, by rw [if_neg directory, if_pos may]⟩ ⟨directory, may⟩
        · rw [if_neg directory, if_neg may]
          exact iff_of_false nofun fun allowed => may allowed.2
    | none =>
      by_cases writable : tree.Writable p (location start outer)
      · simp [writable]
      · simp [writable]

end Reached

/-! ## Files beside directories -/

/-- Trees with the same nodes but for a place where neither has a directory. -/
structure SameBut (place : Location) (before after : Tree) : Prop where
  elsewhere : ∀ other, other ≠ place → after.node other = before.node other
  noDirectory : before = after ∨ (∀ node ∈ before.node place, node.kind ≠ .directory) ∧
    ∀ node ∈ after.node place, node.kind ≠ .directory

theorem SameBut.refl (place : Location) (tree : Tree) : SameBut place tree tree := ⟨fun _ _ => rfl, .inl rfl⟩

theorem SameBut.trans {place : Location} {first second third : Tree} (one : SameBut place first second)
    (two : SameBut place second third) : SameBut place first third := by
  constructor
  · intro other apart
    rw [two.elsewhere other apart, one.elsewhere other apart]
  · rcases one.noDirectory with rfl | ⟨not_first, not_second⟩
    · exact two.noDirectory
    · rcases two.noDirectory with rfl | ⟨-, not_third⟩
      · exact .inr ⟨not_first, not_second⟩
      · exact .inr ⟨not_first, not_third⟩

theorem sameBut_put {place : Location} {before after : Option Node}
    (there : tree.node place = before) (not_before : ∀ node ∈ before, node.kind ≠ .directory)
    (not_after : ∀ node ∈ after, node.kind ≠ .directory) : SameBut place tree (tree.put place after) := by
  constructor
  · exact fun other apart => put_node_of_ne apart after
  · right
    rw [there, put_node_self]
    exact ⟨not_before, not_after⟩

theorem SameBut.searchable {place : Location} {before after : Tree} (same : SameBut place before after)
    (here : Location) : after.Searchable p here ↔ before.Searchable p here := by
  rcases same.noDirectory with rfl | ⟨not_before, not_after⟩
  · exact Iff.rfl
  by_cases there : here = place
  · subst there
    constructor
    · rintro ⟨dir, found, directory, -⟩
      exact absurd directory (not_after dir found)
    · rintro ⟨dir, found, directory, -⟩
      exact absurd directory (not_before dir found)
  · rw [Searchable, Searchable, same.elsewhere here there]

theorem SameBut.resolve {place : Location} {before after : Tree} (same : SameBut place before after)
    {path : List String} {there : Location} :
    after.resolve p start path = .ok there ↔ before.resolve p start path = .ok there := by
  constructor
  · intro resolved
    obtain rfl := resolve_eq_location resolved
    rw [resolve_iff] at resolved ⊢
    exact fun name outer suffix => (same.searchable _).mp (resolved name outer suffix)
  · intro resolved
    obtain rfl := resolve_eq_location resolved
    rw [resolve_iff] at resolved ⊢
    exact fun name outer suffix => (same.searchable _).mpr (resolved name outer suffix)

theorem openFile_sameBut {accesses : List Access} {mode : Nat} {outer : List String} {name : String} {after : Tree}
    (opened : tree.openFile p start accesses mode (name :: outer) = .ok after) :
    SameBut (location start (name :: outer)) tree after := by
  rw [openFile] at opened
  cases resolved : tree.resolve p start (name :: outer) with
  | error e =>
    rw [resolved] at opened
    cases opened
  | ok place =>
    obtain rfl := resolve_eq_location resolved
    rw [resolved] at opened
    dsimp only at opened
    split at opened
    · split at opened
      · cases opened
      · split at opened
        · cases opened
          exact SameBut.refl _ _
        · cases opened
    · rename_i missing
      split at opened
      · cases opened
        exact sameBut_put missing nofun (by rintro _ ⟨⟩; nofun)
      · cases opened

theorem unlink_sameBut {outer : List String} {name : String} {after : Tree}
    (removed : tree.unlink p start (name :: outer) = .ok after) :
    SameBut (location start (name :: outer)) tree after := by
  rw [unlink] at removed
  cases resolved : tree.resolve p start (name :: outer) with
  | error e =>
    rw [resolved] at removed
    cases removed
  | ok place =>
    obtain rfl := resolve_eq_location resolved
    rw [resolved] at removed
    dsimp only at removed
    split at removed
    · cases removed
    · rename_i node there
      split at removed
      · cases removed
      · rename_i not_directory
        split at removed
        · cases removed
          exact sameBut_put there (by rintro _ ⟨⟩; exact not_directory) nofun
        · cases removed

end Tree

end WorkerInformer.FileTree
