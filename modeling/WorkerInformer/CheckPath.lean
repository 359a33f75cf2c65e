import WorkerInformer.FileTree

/-! `BoostHelpers::checkPath` (`src/BoostHelpers.cpp`). The loop goes along the
elements of the path and tests the mode bits of each one that exists, two at a
time in the class of the process, and makes the missing ones; at the end it tries
to open a file next to the one that was asked for, and goes on if it cannot. A
path is what Boost takes it apart into; a look at a missing element finds nothing,
and at one that the process may not reach it throws. -/
namespace WorkerInformer.CheckPath
open FileTree FileTree.Tree

/-- `boost::filesystem::path`: the elements before the last one from the outermost
on, and the last one. -/
structure Path where
  rooted : Bool
  dirs : List String
  file : String

/-- Where a path begins. -/
def Path.start (path : Path) (cwd : Location) : Location := if path.rooted then [] else cwd

/-! ## The tests -/

/-- The bits that the four branches of a test look for, by those of the class of
others. -/
def mask (p : Process) (bits : Nat) (info : Node) : Nat :=
  if info.uid ≠ p.uid ∧ info.gid ≠ p.gid then bits
  else if info.uid = p.uid ∧ info.gid ≠ p.gid then bits <<< 6
  else if info.uid ≠ p.uid ∧ info.gid = p.gid then bits <<< 3
  else bits <<< 6

def Passes (p : Process) (bits : Nat) (info : Node) : Prop := info.mode &&& mask p bits info ≠ 0

instance (p : Process) (bits : Nat) (info : Node) : Decidable (Passes p bits info) :=
  inferInstanceAs (Decidable (_ ≠ _))

/-- The test of a regular file: `S_IROTH | S_IWOTH` and their like. -/
def PassesFile (p : Process) (info : Node) : Prop := Passes p 0o6 info

/-- The test of a directory: `S_IROTH | S_IXOTH` and their like. -/
def PassesDirectory (p : Process) (info : Node) : Prop := Passes p 0o5 info

instance (p : Process) (info : Node) : Decidable (PassesFile p info) := inferInstanceAs (Decidable (Passes ..))

instance (p : Process) (info : Node) : Decidable (PassesDirectory p info) := inferInstanceAs (Decidable (Passes ..))

/-! ## The loop -/

variable (tree : Tree) (p : Process) (start : Location)

/-- `boost::filesystem::exists` takes these for a missing file and throws any other. -/
def Missing (e : Errno) : Prop := e = .noEntry ∨ e = .notDirectory

instance (e : Errno) : Decidable (Missing e) := inferInstanceAs (Decidable (_ ∨ _))

/-- A path has a parent, and that is missing. -/
def parentMissing (outer : List String) : Bool :=
  match tree.stat p start outer with
  | .ok _ => false
  | .error e => outer ≠ [] ∧ Missing e

/-- `boost::filesystem::create_directories`: whether the directory was made, or the
error it throws, and the tree it leaves. -/
def createDirectories : List String → Except Errno Bool × Tree
  | [] => (.ok false, tree)
  | name :: outer =>
    match tree.stat p start (name :: outer) with
    | .ok node => (if node.kind = .directory then .ok false else .error .present, tree)
    | .error _ =>
      let parents := if parentMissing tree p start outer then createDirectories outer else (.ok false, tree)
      match parents with
      | (.error e, tree) => (.error e, tree)
      | (.ok _, tree) =>
        match tree.mkdir p start (name :: outer) with
        | .ok tree => (.ok true, tree)
        | .error e => (.error e, tree)

/-- How `checkPath` ends: it returns true or false, or throws. -/
inductive Verdict
  | returned (passed : Bool)
  | threw
  deriving DecidableEq

/-- The loop of `checkPath`; `test` is kept innermost element first. -/
def checkFrom (checkWrite : Bool) : Tree → List String → List String → Verdict × Tree
  | tree, _, [] => (.returned true, tree)
  | tree, outer, name :: rest =>
    let test := name :: outer
    let create :=
      if checkWrite then
        match createDirectories tree p start test with
        | (.ok true, tree) => checkFrom checkWrite tree test rest
        | (_, tree) => (.returned false, tree)
      else (.returned false, tree)
    match tree.stat p start test with
    | .ok info =>
      match info.kind with
      | .regular => if PassesFile p info then checkFrom checkWrite tree test rest else (.returned false, tree)
      | .directory => if PassesDirectory p info then checkFrom checkWrite tree test rest else (.returned false, tree)
      | .other => create
    | .error e => if Missing e then create else (.threw, tree)

/-- The trial at the end: the file is opened, closed and removed again, or not. -/
def trial (test : List String) : Tree :=
  match tree.openFile p start [.read, .write] 0o640 test with
  | .error _ => tree
  | .ok opened =>
    match opened.unlink p start test with
    | .ok removed => removed
    | .error _ => opened

/-- `BoostHelpers::checkPath`. -/
def checkPath (cwd : Location) (path : Path) (checkWrite isFile : Bool) : Verdict × Tree :=
  let start := path.start cwd
  match checkFrom p start checkWrite tree [] (if isFile then path.dirs else path.dirs ++ [path.file]) with
  | (.returned true, tree) =>
    if isFile ∧ checkWrite then
      (.returned true, trial tree p start ((path.file ++ "test") :: path.dirs.reverse))
    else (.returned true, tree)
  | stopped => stopped

/-! ## What is asked of a path -/

/-- Every directory on the path is there and the process may search it, and it may
open the file for writing, or make it. -/
structure Usable (path : Path) : Prop where
  directories : ∀ name outer, name :: outer <:+ path.file :: path.dirs.reverse →
    tree.Searchable p (location start outer)
  file : ∃ after, tree.openFile p start [.write] 0o640 (path.file :: path.dirs.reverse) = .ok after

/-- A path that is passed can be used. -/
def Sound (cwd : Location) (path : Path) : Prop :=
  ∀ after, checkPath tree p cwd path true true = (.returned true, after) → Usable after p (path.start cwd) path

/-- What the loop does with an element that exists. -/
def PassesElement (p : Process) (info : Node) : Prop :=
  match info.kind with
  | .regular => PassesFile p info
  | .directory => PassesDirectory p info
  | .other => False

/-- The elements lead from a place to another: every directory in front of one may
be searched, what exists passes its test, and what is missing is made. -/
inductive Leads (p : Process) : Tree → Location → List String → Tree → Location → Prop
  | here {tree : Tree} {here : Location} : Leads p tree here [] tree here
  | found {tree after : Tree} {here last : Location} {name : String} {rest : List String} {info : Node} :
    tree.Searchable p here → tree.node (here.child name) = some info → PassesElement p info →
    Leads p tree (here.child name) rest after last → Leads p tree here (name :: rest) after last
  | made {tree after : Tree} {here last : Location} {name : String} {rest : List String} :
    tree.Searchable p here → tree.node (here.child name) = none → tree.Writable p here →
    Leads p (tree.put (here.child name) (some (p.made .directory 0o777))) (here.child name) rest after last →
    Leads p tree here (name :: rest) after last

/-! ## The loop goes where the elements lead -/

section Loop
variable {tree p start} {outer : List String} {here : Location} {name : String} {after : Tree}

/-- No parent is made on the way: the element before was found or made itself. -/
theorem parentMissing_eq_false (reached : tree.resolve p start outer = .ok here)
    (there : outer = [] ∨ ∃ node, tree.node here = some node) : parentMissing tree p start outer = false := by
  rw [parentMissing]
  rcases there with rfl | ⟨node, found⟩
  · split <;> simp
  · have looked : tree.stat p start outer = .ok node := by rw [stat, reached]; simp only [found]
    rw [looked]

theorem createDirectories_iff (reached : tree.resolve p start outer = .ok here)
    (there : outer = [] ∨ ∃ node, tree.node here = some node) :
    createDirectories tree p start (name :: outer) = (.ok true, after) ↔
      tree.Searchable p here ∧ tree.node (here.child name) = none ∧ tree.Writable p here ∧
        after = tree.put (here.child name) (some (p.made .directory 0o777)) := by
  rw [createDirectories, parentMissing_eq_false reached there, ← mkdir_iff reached]
  cases looked : tree.stat p start (name :: outer) with
  | ok node =>
    apply iff_of_false
    · by_cases directory : node.kind = .directory <;> simp [directory]
    · intro made
      obtain ⟨search, missing, -⟩ := (mkdir_iff reached).mp made
      rw [stat_searchable reached search, missing] at looked
      cases looked
  | error e =>
    simp only [Bool.false_eq_true, ↓reduceIte]
    cases tree.mkdir p start (name :: outer) with
    | ok made => simp
    | error e => simp

theorem leads_cons_iff {rest : List String} {last : Location} :
    Leads p tree here (name :: rest) after last ↔
      tree.Searchable p here ∧
        ((∃ info, tree.node (here.child name) = some info ∧ PassesElement p info ∧
            Leads p tree (here.child name) rest after last) ∨
          tree.node (here.child name) = none ∧ tree.Writable p here ∧
            Leads p (tree.put (here.child name) (some (p.made .directory 0o777))) (here.child name) rest after last) := by
  constructor
  · intro leads
    cases leads with
    | found search there passes onward => exact ⟨search, .inl ⟨_, there, passes, onward⟩⟩
    | made search missing writable onward => exact ⟨search, .inr ⟨missing, writable, onward⟩⟩
  · rintro ⟨search, ⟨info, there, passes, onward⟩ | ⟨missing, writable, onward⟩⟩
    · exact .found search there passes onward
    · exact .made search missing writable onward

/-- What is made is made by `create_directories`, and the loop goes on from there. -/
theorem created_iff {made : Except Errno Bool × Tree} {onward : Tree → Verdict × Tree} :
    (match made with
      | (.ok true, tree) => onward tree
      | (_, tree) => (.returned false, tree)) = (.returned true, after) ↔
      ∃ grown, made = (.ok true, grown) ∧ onward grown = (.returned true, after) := by
  obtain ⟨result, left⟩ := made
  rcases result with e | (_ | _) <;> simp

/-- An element that exists passes its test, unless it is neither a file nor a
directory: making a directory in its place fails. -/
theorem checkFrom_found_iff {rest : List String} {info : Node} (reached : tree.resolve p start outer = .ok here)
    (there : outer = [] ∨ ∃ node, tree.node here = some node) (search : tree.Searchable p here)
    (found : tree.node (here.child name) = some info) :
    checkFrom p start true tree outer (name :: rest) = (.returned true, after) ↔
      PassesElement p info ∧ checkFrom p start true tree (name :: outer) rest = (.returned true, after) := by
  rw [checkFrom, stat_searchable reached search, found, PassesElement]
  have kept : ∀ {test : Prop} [Decidable test],
      (if test then checkFrom p start true tree (name :: outer) rest else (.returned false, tree)) =
          (.returned true, after) ↔
        test ∧ checkFrom p start true tree (name :: outer) rest = (.returned true, after) := by
    intro test _
    by_cases passes : test <;> simp [passes]
  cases kind : info.kind with
  | regular => simpa only [kind] using kept
  | directory => simpa only [kind] using kept
  | other =>
    simp only [kind, ↓reduceIte, created_iff, createDirectories_iff reached there, found, reduceCtorEq, false_and,
      and_false, exists_false]

/-- One pass of the loop. -/
theorem checkFrom_cons_iff {rest : List String} (reached : tree.resolve p start outer = .ok here)
    (there : outer = [] ∨ ∃ node, tree.node here = some node) :
    checkFrom p start true tree outer (name :: rest) = (.returned true, after) ↔
      tree.Searchable p here ∧
        ((∃ info, tree.node (here.child name) = some info ∧ PassesElement p info ∧
            checkFrom p start true tree (name :: outer) rest = (.returned true, after)) ∨
          tree.node (here.child name) = none ∧ tree.Writable p here ∧
            checkFrom p start true (tree.put (here.child name) (some (p.made .directory 0o777))) (name :: outer) rest =
              (.returned true, after)) := by
  by_cases search : tree.Searchable p here
  swap
  · -- nothing is seen, and nothing made, behind a directory that lets nobody in
    obtain ⟨e, looked⟩ := stat_not_searchable name reached search
    apply iff_of_false _ fun passed => search passed.1
    rw [checkFrom, looked]
    by_cases missing : Missing e
    · simp only [missing, ↓reduceIte, created_iff]
      rintro ⟨grown, made, -⟩
      exact search ((createDirectories_iff reached there).mp made).1
    · simp only [missing, ↓reduceIte]
      nofun
  cases found : tree.node (here.child name) with
  | none =>
    rw [checkFrom, stat_searchable reached search, found]
    simp only [show Missing .noEntry from .inl rfl, ↓reduceIte, created_iff, createDirectories_iff reached there,
      search, found, true_and, reduceCtorEq, false_and, exists_false, false_or, and_assoc, exists_and_left,
      exists_eq_left]
  | some info =>
    rw [checkFrom_found_iff reached there search found]
    simp only [search, Option.some.injEq, exists_eq_left', reduceCtorEq, false_and, or_false, true_and]

/-- **The loop gets through exactly where the elements lead.** -/
theorem checkFrom_iff {names : List String} (reached : tree.resolve p start outer = .ok here)
    (there : outer = [] ∨ ∃ node, tree.node here = some node) :
    checkFrom p start true tree outer names = (.returned true, after) ↔ ∃ last, Leads p tree here names after last := by
  induction names generalizing tree outer here with
  | nil =>
    rw [checkFrom]
    constructor
    · intro same
      cases same
      exact ⟨here, .here⟩
    · rintro ⟨_, leads⟩
      cases leads
      rfl
  | cons name rest ih =>
    rw [checkFrom_cons_iff reached there]
    simp only [leads_cons_iff, exists_and_left, exists_or]
    apply and_congr_right
    intro search
    have onward : tree.resolve p start (name :: outer) = .ok (here.child name) :=
      resolve_cons_iff.mpr ⟨here, reached, search, rfl⟩
    cases found : tree.node (here.child name) with
    | none =>
      have grown := resolve_grows onward (grows_put found (some (p.made .directory 0o777)))
      rw [ih grown (.inr ⟨_, put_node_self _ _⟩)]
      simp
    | some info =>
      rw [ih onward (.inr ⟨info, found⟩)]
      simp

/-- Where the elements lead, the process gets through the tree that is left. -/
theorem leads_resolve {names : List String} {last : Location} (leads : Leads p tree here names after last)
    (reached : tree.resolve p start outer = .ok here) :
    after.resolve p start (names.reverse ++ outer) = .ok last := by
  induction leads generalizing outer with
  | here => exact reached
  | @found tree after here last name rest info search _ _ _ ih =>
    rw [List.reverse_cons, List.append_assoc]
    exact ih (resolve_cons_iff.mpr ⟨here, reached, search, rfl⟩)
  | @made tree after here last name rest search missing _ _ ih =>
    rw [List.reverse_cons, List.append_assoc]
    apply ih
    exact resolve_grows (resolve_cons_iff.mpr ⟨here, reached, search, rfl⟩) (grows_put missing _)

end Loop

/-! ## The trial -/

section Trial
variable {tree p start} {outer : List String} {here : Location}

/-- The trial changes nothing but the file it is made with. -/
theorem trial_sameBut (name : String) :
    SameBut (location start (name :: outer)) tree (trial tree p start (name :: outer)) := by
  rw [trial]
  cases opens : tree.openFile p start [.read, .write] 0o640 (name :: outer) with
  | error e => exact SameBut.refl _ tree
  | ok opened =>
    have made := openFile_sameBut opens
    dsimp only
    cases removes : opened.unlink p start (name :: outer) with
    | error e => exact made
    | ok removed => exact made.trans (unlink_sameBut removes)

/-- The trial is made with a file of its own. -/
theorem child_test (here : Location) (file : String) :
    here.child (file ++ "test") ≠ here ∧ here.child (file ++ "test") ≠ here.child file := by
  have longer : (file ++ "test").length = file.length + 4 := String.length_append _ _
  have named : here.child (file ++ "test") = here ++ [file ++ "test"] := by
    rw [Location.child, if_neg, if_neg]
    · intro same
      rw [same, show "..".length = 2 from rfl] at longer
      omega
    · rintro (same | same)
      · rw [same, show "".length = 0 from rfl] at longer
        omega
      · rw [same, show ".".length = 1 from rfl] at longer
        omega
  have deeper := congrArg List.length named
  rw [List.length_append, List.length_singleton] at deeper
  constructor
  · intro same
    rw [same] at deeper
    omega
  · intro same
    rw [same, Location.child] at deeper
    split at deeper
    · omega
    split at deeper
    · rw [List.length_dropLast] at deeper
      omega
    · rename_i not_dot not_dots
      rw [named, Location.child, if_neg not_dot, if_neg not_dots, List.append_cancel_left_eq, List.cons.injEq] at same
      have shorter := congrArg String.length same.1
      omega

theorem opens_trial_iff (file : String) (reached : tree.resolve p start outer = .ok here) :
    (trial tree p start ((file ++ "test") :: outer)).Opens p [.write] here file ↔ tree.Opens p [.write] here file := by
  obtain rfl := resolve_eq_location reached
  have same := @trial_sameBut tree p start outer (file ++ "test")
  obtain ⟨not_here, not_file⟩ := child_test (location start outer) file
  rw [Opens, Opens, Writable, Writable, same.elsewhere _ not_here.symm, same.elsewhere _ not_file.symm]

end Trial

/-! ## Soundness -/

section Soundness
variable {tree p} {cwd : Location} {path : Path}

/-- **The check passes exactly the paths whose elements lead somewhere**, and the
trial at its end decides nothing. -/
theorem checkPath_iff {after : Tree} :
    checkPath tree p cwd path true true = (.returned true, after) ↔
      ∃ grown, (∃ last, Leads p tree (path.start cwd) path.dirs grown last) ∧
        after = trial grown p (path.start cwd) ((path.file ++ "test") :: path.dirs.reverse) := by
  have loop := fun {grown} => @checkFrom_iff tree p (path.start cwd) [] (path.start cwd) grown path.dirs rfl (.inl rfl)
  simp only [← loop, checkPath, ↓reduceIte, and_self]
  cases checked : checkFrom p (path.start cwd) true tree [] path.dirs with
  | mk verdict grown =>
    rcases verdict with (_ | _) | _
    · simp
    · simp [eq_comm]
    · simp

/-- A path can be used when its directories let the process through and the last
of them lets it open the file. -/
theorem usable_iff {start : Location} :
    Usable tree p start path ↔ ∃ last, tree.resolve p start path.dirs.reverse = .ok last ∧
      tree.Searchable p last ∧ tree.Opens p [.write] last path.file := by
  rw [← openFile_iff [.write] 0o640]
  constructor
  · exact fun usable => usable.file
  · intro opened
    obtain ⟨last, reached, search, -⟩ := (openFile_iff [.write] 0o640).mp opened
    obtain rfl := resolve_eq_location reached
    have resolved := resolve_cons_iff.mpr ⟨_, reached, search, @rfl _ ((location start path.dirs.reverse).child path.file)⟩
    exact ⟨resolve_iff.mp resolved, opened⟩

/-- **The check is sound exactly where the last directory can be used.** Each
directory before the last is searched by looking at the next element, so only the
last one can be wrong: where the elements of the path lead to a place that is no
directory, that the process may not search, or where it may neither write the file
nor make it, the check returns true all the same. -/
theorem checkPath_sound_iff :
    Sound tree p cwd path ↔ ∀ grown last, Leads p tree (path.start cwd) path.dirs grown last →
      grown.Searchable p last ∧ grown.Opens p [.write] last path.file := by
  have reached : ∀ {grown last}, Leads p tree (path.start cwd) path.dirs grown last →
      grown.resolve p (path.start cwd) path.dirs.reverse = .ok last := by
    intro grown last leads
    simpa using leads_resolve leads (@rfl _ (resolve tree p (path.start cwd) []))
  constructor
  · intro sound grown last leads
    have usable := sound _ (checkPath_iff.mpr ⟨grown, ⟨last, leads⟩, rfl⟩)
    obtain ⟨other, other_reached, search, opens⟩ := usable_iff.mp usable
    have same := @trial_sameBut grown p (path.start cwd) path.dirs.reverse (path.file ++ "test")
    rw [same.resolve, reached leads, Except.ok.injEq] at other_reached
    subst other_reached
    exact ⟨(same.searchable _).mp search, (opens_trial_iff path.file (reached leads)).mp opens⟩
  · intro last_usable after passed
    obtain ⟨grown, ⟨last, leads⟩, rfl⟩ := checkPath_iff.mp passed
    obtain ⟨search, opens⟩ := last_usable grown last leads
    have same := @trial_sameBut grown p (path.start cwd) path.dirs.reverse (path.file ++ "test")
    apply usable_iff.mpr
    refine ⟨last, same.resolve.mpr (reached leads), (same.searchable _).mpr search, ?_⟩
    exact (opens_trial_iff path.file (reached leads)).mpr opens

end Soundness

/-- The directories `/` and `/run`, which everybody may search and only root
write. -/
def runTree : Tree where
  node place := if place = [] ∨ place = ["run"] then some ⟨.directory, 0, 0, 0o755⟩ else none

theorem worker_notRoot : 1000 ≠ 0 := by decide

def worker : Process := ⟨1000, 1000, [], 0o022, worker_notRoot⟩

/-- `/run/worker.lock` -/
def lockFile : Path := ⟨true, ["run"], "worker.lock"⟩

/-- The check passes, and the lock file can be neither opened nor made. -/
theorem lockFile_passed_unusable : ¬ Sound runTree worker [] lockFile := by
  intro sound
  have passed : (checkPath runTree worker [] lockFile true true).1 = .returned true := by decide +kernel
  have checked : checkPath runTree worker [] lockFile true true =
      (.returned true, (checkPath runTree worker [] lockFile true true).2) := Prod.ext passed rfl
  obtain ⟨after, opened⟩ := (sound _ checked).file
  have refused : ((checkPath runTree worker [] lockFile true true).2.openFile worker (lockFile.start []) [.write] 0o640
      (lockFile.file :: lockFile.dirs.reverse)).toOption.isNone = true := by decide +kernel
  rw [opened] at refused
  cases refused

end WorkerInformer.CheckPath
