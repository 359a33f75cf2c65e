import Mathlib.Logic.Function.Basic
import WorkerInformer.Bytes
import WorkerInformer.Runs

/-! `src/main.cpp`, `Config::Load` and the constructor of `Server`: how the
program comes to serve. Loading the configuration removes the socket file; then
the program forks, the child looks at the lock file and at the processes of its
name, takes the lock, tells its parent, and opens the socket. The parent waits
for that under the same name, and nobody removes the lock file at the end. Any
number of starts can go on at once, in any order. In a calm run no waiting parent
dies or waits two seconds for nothing, `init` starts nothing, and nobody else
removes the lock file. -/
namespace WorkerInformer.ServerStart
open Bytes Runs

abbrev Pid := Nat

/-- The configuration: `unlinks` is what `checkPath` says of the socket path, and
`takesOver` whether opening a socket replaces a file at its path. -/
structure Settings where
  socketPath : Bytes
  lockFile : Bytes
  unlinks : Bool
  takesOver : Bool

/-- How the program is called. -/
structure Call where
  testConfig : Bool
  printPidFile : Bool
  sockPath : Bytes
  underInit : Bool

/-- The socket path `main` leaves in the configuration. -/
def Call.socketPath (call : Call) (cfg : Settings) : Bytes :=
  if 8 < call.sockPath.length then call.sockPath else cfg.socketPath

/-- Where a process of the program is. -/
inductive Phase
  | loaded
  | waiting (child : Pid)
  | checking
  | scanning (there : List Pid)
  | removing
  | opening
  | opened
  | ready
  | serving
  deriving DecidableEq

/-- `socket` tells who opened the socket file of a path. -/
structure State where
  phase : Pid → Option (Call × Phase)
  fresh : Pid
  lock : Bool
  pidFile : Option Pid
  socket : Bytes → Option Pid

inductive Label
  | launch (call : Call)
  | act (p : Pid)
  | look (p q : Pid)
  | alarm (p : Pid)
  | die (p : Pid)
  | unlock

namespace State

def put (s : State) (p : Pid) (process : Option (Call × Phase)) : State :=
  { s with phase := Function.update s.phase p process }

/-- The processes a scan of `/proc` by this one comes by. -/
def others (s : State) (p : Pid) : List Pid := (List.range s.fresh).filter fun q => q ≠ p && (s.phase q).isSome

/-- A parent is told by `SIGUSR1` that its child is ready, by `SIGCHLD` that it is gone. -/
def told (s : State) (child : Pid) : Bool :=
  match s.phase child with
  | none | some (_, .ready) | some (_, .serving) => true
  | some _ => false

end State

/-- The start of `main` up to the return of `LoadConfig`. -/
def launch (cfg : Settings) (s : State) (call : Call) : State where
  phase := Function.update s.phase s.fresh (some (call, .loaded))
  fresh := s.fresh + 1
  lock := s.lock
  pidFile := s.pidFile
  socket := if cfg.unlinks then Function.update s.socket cfg.socketPath none else s.socket

/-- `main` from `LoadConfig` to the `fork` in the constructor of `Server`. -/
def afterLoad (cfg : Settings) (s : State) (p : Pid) (call : Call) : State :=
  if call.testConfig || call.printPidFile then s.put p none
  else if call.underInit then s.put p (some (call, .ready))
  else
    { (s.put p (some (call, .waiting s.fresh))).put s.fresh
        (some (call, if cfg.lockFile.isEmpty then .opened else .checking)) with fresh := s.fresh + 1 }

/-- What a process does next. -/
def act (cfg : Settings) (s : State) (p : Pid) : Call × Phase → State
  | (call, .loaded) => afterLoad cfg s p call
  | (_, .waiting child) => if s.told child then s.put p none else s
  | (call, .checking) => s.put p (some (call, if s.lock then .scanning (s.others p) else .opening))
  | (call, .scanning there) =>
    if there.all fun q => (s.phase q).isNone then s.put p (some (call, .removing)) else s
  | (call, .removing) => { s.put p (some (call, .opening)) with lock := false }
  | (call, .opening) => { s.put p (some (call, .opened)) with lock := true }
  | (call, .opened) => { s.put p (some (call, .ready)) with pidFile := some p }
  | (call, .ready) =>
    if (s.socket (call.socketPath cfg)).isSome && !cfg.takesOver then s.put p none
    else { s.put p (some (call, .serving)) with socket := Function.update s.socket (call.socketPath cfg) (some p) }
  | (_, .serving) => s

/-- A scan that comes by a process of the name ends the start. -/
def look (s : State) (p q : Pid) : State :=
  match s.phase p, s.phase q with
  | some (_, .scanning _), some _ => if p = q then s else s.put p none
  | _, _ => s

/-- The two seconds of a waiting parent are over. -/
def alarm (s : State) (p : Pid) : State :=
  match s.phase p with
  | some (_, .waiting _) => s.put p none
  | _ => s

def step (cfg : Settings) (s : State) : Label → State
  | .launch call => launch cfg s call
  | .act p =>
    match s.phase p with
    | none => s
    | some process => act cfg s p process
  | .look p q => look s p q
  | .alarm p => alarm s p
  | .die p => s.put p none
  | .unlock => { s with lock := false }

/-- Before the first start: the lock file may be there from an earlier one. -/
def boot (lock : Bool) : State := ⟨fun _ => none, 0, lock, none, fun _ => none⟩

/-! ## Runs without an alarm -/

/-- Every child comes to its scan in the two seconds its parent waits, nobody
else removes the lock file or kills a waiting parent, and `init` starts nothing. -/
def Calm (s : State) (label : Label) (_ : State) : Prop :=
  match label with
  | .launch call => call.underInit = false
  | .die p => ∀ call child, s.phase p ≠ some (call, .waiting child)
  | .alarm _ | .unlock => False
  | .act _ | .look _ _ => True

/-- Past the lock file. -/
def Phase.past : Phase → Bool
  | .opening | .opened | .ready | .serving => true
  | _ => false

/-- The process is on its way from the lock file to the socket, or serves. -/
def Inside (s : State) (p : Pid) : Prop := ∃ call phase, s.phase p = some (call, phase) ∧ phase.past = true

/-- Between the lock file and the socket. -/
def Entering (s : State) (p : Pid) : Prop :=
  ∃ call, ∃ phase ∈ [Phase.opening, .opened, .ready], s.phase p = some (call, phase)

/-- No start is between the lock file and the socket. -/
def Idle (s : State) : Prop := ∀ p, ¬ Entering s p

/-- The child's parent waits for it, and its scan will come by the parent. -/
def Awaited (s : State) (child : Pid) : Phase → Prop
  | .checking => ∃ p call, s.phase p = some (call, .waiting child)
  | .scanning there => ∃ p ∈ there, ∃ call, s.phase p = some (call, .waiting child)
  | .removing => False
  | .opened | .ready | .serving => s.lock = true
  | .loaded | .waiting _ | .opening => True

/-- What calm runs keep. -/
structure Steady (s : State) : Prop where
  known : ∀ p, s.fresh ≤ p → s.phase p = none
  called : ∀ p call phase, s.phase p = some (call, phase) → call.underInit = false
  awaited : ∀ p call phase, s.phase p = some (call, phase) → Awaited s p phase

section Steps
variable {cfg : Settings} {s s' : State} {p child : Pid} {phase : Phase}

/-- Who waits for this child goes on waiting. -/
def StillWaits (s s' : State) (child : Pid) : Prop :=
  ∀ p call, s.phase p = some (call, .waiting child) → s'.phase p = some (call, .waiting child)

theorem Awaited.mono (awaited : Awaited s child phase) (lock : s.lock = true → s'.lock = true)
    (waits : phase = .checking ∨ (∃ there, phase = .scanning there) → StillWaits s s' child) :
    Awaited s' child phase := by
  cases phase with
  | checking =>
    obtain ⟨p, call, parent⟩ := awaited
    exact ⟨p, call, waits (Or.inl rfl) p call parent⟩
  | scanning there =>
    obtain ⟨p, seen, call, parent⟩ := awaited
    exact ⟨p, seen, call, waits (Or.inr ⟨there, rfl⟩) p call parent⟩
  | removing => exact awaited
  | loaded | waiting _ | opening => trivial
  | opened | ready | serving => exact lock awaited

/-- A process goes on, or ends; if it waited, its child was ready or gone. -/
theorem Steady.update {v : Option (Call × Phase)} (steady : Steady s) (phases : s'.phase = Function.update s.phase p v)
    (fresh : s'.fresh = s.fresh) (lock : s.lock = true → s'.lock = true) (is_known : v = none ∨ p < s.fresh)
    (heard : ∀ call child, s.phase p = some (call, .waiting child) → s.told child = true)
    (next : ∀ call phase, v = some (call, phase) → call.underInit = false ∧ Awaited s' p phase) : Steady s' := by
  have at_p {process : Call × Phase} (is_now : s'.phase p = some process) : v = some process := by
    rwa [phases, Function.update_self] at is_now
  have at_other {q : Pid} (other : q ≠ p) : s'.phase q = s.phase q := by rw [phases, Function.update_of_ne other]
  refine ⟨fun q above => ?_, fun q call phase is_now => ?_, fun q call phase is_now => ?_⟩
  · by_cases same : q = p
    · subst same
      rcases is_known with gone | below
      · rw [phases, gone, Function.update_self]
      · exact absurd (fresh ▸ above) (Nat.not_le.mpr below)
    · rw [at_other same]
      exact steady.known q (fresh ▸ above)
  · by_cases same : q = p
    · subst same
      exact (next call phase (at_p is_now)).1
    · exact steady.called q call phase (at_other same ▸ is_now)
  · by_cases same : q = p
    · subst same
      exact (next call phase (at_p is_now)).2
    · have was := at_other same ▸ is_now
      refine (steady.awaited q call phase was).mono lock fun before r caller parent => ?_
      rw [at_other, parent]
      rintro rfl
      -- A parent that has heard of its child has no child before or at its scan.
      have told := heard caller q parent
      rcases before with rfl | ⟨there, rfl⟩ <;> simp only [State.told, was, Bool.false_eq_true] at told

theorem Steady.exit (steady : Steady s)
    (heard : ∀ call child, s.phase p = some (call, .waiting child) → s.told child = true) : Steady (s.put p none) :=
  steady.update rfl rfl id (Or.inl rfl) heard fun _ _ none_some => nomatch none_some

theorem Steady.lt_fresh (steady : Steady s) {process : Call × Phase} (is_now : s.phase p = some process) :
    p < s.fresh := by
  by_contra above
  rw [steady.known p (Nat.not_lt.mp above)] at is_now
  cases is_now

theorem State.mem_others {q : Pid} : q ∈ s.others p ↔ q < s.fresh ∧ q ≠ p ∧ (s.phase q).isSome := by
  simp only [State.others, List.mem_filter, List.mem_range, Bool.and_eq_true, decide_eq_true_eq]

theorem Steady.launch {call : Call} (steady : Steady s) (not_init : call.underInit = false) :
    Steady (launch cfg s call) := by
  have nobody : s.phase s.fresh = none := steady.known s.fresh (Nat.le_refl _)
  have at_other {q : Pid} (other : q ≠ s.fresh) : (ServerStart.launch cfg s call).phase q = s.phase q :=
    Function.update_of_ne other ..
  have at_new : (ServerStart.launch cfg s call).phase s.fresh = some (call, .loaded) := Function.update_self ..
  refine ⟨fun q above => ?_, fun q caller phase is_now => ?_, fun q caller phase is_now => ?_⟩
  · rw [at_other (Nat.ne_of_gt above)]
    exact steady.known q (Nat.le_of_lt above)
  · by_cases same : q = s.fresh
    · rw [same, at_new] at is_now
      cases is_now
      exact not_init
    · exact steady.called q caller phase (at_other same ▸ is_now)
  · by_cases same : q = s.fresh
    · rw [same, at_new] at is_now
      cases is_now
      trivial
    · refine (steady.awaited q caller phase (at_other same ▸ is_now)).mono id fun _ r parent waits => ?_
      rwa [at_other]
      rintro rfl
      rw [nobody] at waits
      cases waits

/-- The parent waits, the child comes to the lock file. -/
theorem Steady.fork {call : Call} (steady : Steady s) (was : s.phase p = some (call, .loaded))
    (phases : s'.phase = Function.update (Function.update s.phase p (some (call, .waiting s.fresh))) s.fresh
      (some (call, .checking)))
    (fresh : s'.fresh = s.fresh + 1) (lock : s'.lock = s.lock) : Steady s' := by
  have below := steady.lt_fresh was
  have at_child : s'.phase s.fresh = some (call, .checking) := by rw [phases, Function.update_self]
  have at_parent : s'.phase p = some (call, .waiting s.fresh) := by
    rw [phases, Function.update_of_ne (Nat.ne_of_lt below), Function.update_self]
  have at_other {q : Pid} (not_child : q ≠ s.fresh) (not_parent : q ≠ p) : s'.phase q = s.phase q := by
    rw [phases, Function.update_of_ne not_child, Function.update_of_ne not_parent]
  have not_init := steady.called p call _ was
  refine ⟨fun q above => ?_, fun q caller phase is_now => ?_, fun q caller phase is_now => ?_⟩
  · rw [fresh] at above
    rw [at_other (Nat.ne_of_gt above) (Nat.ne_of_gt (Nat.lt_of_lt_of_le below (Nat.le_of_lt above)))]
    exact steady.known q (Nat.le_of_lt above)
  · by_cases is_child : q = s.fresh
    · rw [is_child, at_child] at is_now
      cases is_now
      exact not_init
    · by_cases is_parent : q = p
      · rw [is_parent, at_parent] at is_now
        cases is_now
        exact not_init
      · exact steady.called q caller phase (at_other is_child is_parent ▸ is_now)
  · by_cases is_child : q = s.fresh
    · rw [is_child, at_child] at is_now
      cases is_now
      exact ⟨p, call, is_child ▸ at_parent⟩
    · by_cases is_parent : q = p
      · rw [is_parent, at_parent] at is_now
        cases is_now
        trivial
      · refine (steady.awaited q caller phase (at_other is_child is_parent ▸ is_now)).mono (lock ▸ id)
          fun _ r parent waits => ?_
        rwa [at_other]
        · exact Nat.ne_of_lt (steady.lt_fresh waits)
        · rintro rfl
          rw [was] at waits
          cases waits

/-! ## What a calm step can do -/

/-- Nobody comes past the lock file. -/
structure Quiet (s s' : State) : Prop where
  inside : ∀ q, Inside s' q → Inside s q
  idle : Idle s → Idle s'

/-- How a calm step changes who is past the lock file, the file, and the socket. -/
inductive Change (cfg : Settings) (s s' : State) : Label → Prop
  /-- Nobody binds a socket either. -/
  | quiet {label : Label} (quiet : Quiet s s') (lock : s.lock = true → s'.lock = true)
    (socket : s'.socket cfg.socketPath = none ∨ s'.socket = s.socket) : Change cfg s s' label
  /-- A child finds no lock file. -/
  | enter {p : Pid} {call : Call} (was : s.phase p = some (call, .checking)) (no_lock : s.lock = false)
    (now : s' = s.put p (some (call, .opening))) : Change cfg s s' (.act p)
  /-- A process opens its socket. -/
  | bind {p : Pid} (entering : Entering s p) (quiet : Quiet s s') (lock : s'.lock = s.lock) : Change cfg s s' (.act p)

theorem Entering.inside (entering : Entering s p) : Inside s p := by
  obtain ⟨call, phase, member, is_now⟩ := entering
  refine ⟨call, phase, is_now, ?_⟩
  simp only [List.mem_cons, List.not_mem_nil, or_false] at member
  rcases member with rfl | rfl | rfl <;> rfl

theorem Quiet.update {v : Option (Call × Phase)} (phases : s'.phase = Function.update s.phase p v)
    (not_new : ∀ call phase, v = some (call, phase) → phase.past = true → Entering s p) : Quiet s s' := by
  have inside (q : Pid) (now : Inside s' q) : q = p ∧ Entering s p ∨ s'.phase q = s.phase q := by
    obtain ⟨call, phase, is_now, past⟩ := now
    by_cases same : q = p
    · subst same
      rw [phases, Function.update_self] at is_now
      exact Or.inl ⟨rfl, not_new call phase is_now past⟩
    · rw [phases, Function.update_of_ne same]
      exact Or.inr rfl
  refine ⟨fun q now => ?_, fun idle q now => ?_⟩
  · rcases inside q now with ⟨rfl, entering⟩ | unchanged
    · exact entering.inside
    · obtain ⟨call, phase, is_now, past⟩ := now
      exact ⟨call, phase, unchanged ▸ is_now, past⟩
  · rcases inside q now.inside with ⟨rfl, entering⟩ | unchanged
    · exact idle q entering
    · obtain ⟨call, phase, member, is_now⟩ := now
      exact idle q ⟨call, phase, member, unchanged ▸ is_now⟩

theorem Quiet.trans {t : State} (first : Quiet s t) (second : Quiet t s') : Quiet s s' :=
  ⟨fun q now => first.inside q (second.inside q now), fun idle => second.idle (first.idle idle)⟩

theorem Change.exit {label : Label} : Change cfg s (s.put p none) label :=
  .quiet (.update rfl fun _ _ => nofun) id (Or.inr rfl)

theorem Change.stay {label : Label} : Change cfg s s label := .quiet ⟨fun _ => id, id⟩ id (Or.inr rfl)

/-- A process goes on alone. -/
theorem Steady.go {call : Call} {old new : Phase} (steady : Steady s) (was : s.phase p = some (call, old))
    (phases : s'.phase = Function.update s.phase p (some (call, new))) (fresh : s'.fresh = s.fresh)
    (lock : s.lock = true → s'.lock = true) (no_wait : ∀ child, old ≠ .waiting child)
    (awaited : Awaited s' p new) : Steady s' := by
  apply steady.update phases fresh lock (Or.inr (steady.lt_fresh was))
  · intro caller child waits
    rw [was] at waits
    cases waits
    exact absurd rfl (no_wait child)
  · intro caller phase is_now
    cases is_now
    exact ⟨steady.called p call old was, awaited⟩

theorem steady_afterLoad {call : Call} (lock_used : cfg.lockFile ≠ []) (steady : Steady s)
    (was : s.phase p = some (call, .loaded)) :
    Steady (afterLoad cfg s p call) ∧ ∀ label, Change cfg s (afterLoad cfg s p call) label := by
  have not_init := steady.called p call _ was
  have lock_used : cfg.lockFile.isEmpty = false := by simpa using lock_used
  simp only [afterLoad, not_init, lock_used, Bool.false_eq_true, ↓reduceIte]
  split
  · refine ⟨steady.exit fun caller child waits => ?_, fun label => .exit⟩
    rw [was] at waits
    cases waits
  · refine ⟨steady.fork was rfl rfl rfl, fun label => .quiet ?_ id (Or.inr rfl)⟩
    have parent : Quiet s (s.put p (some (call, .waiting s.fresh))) :=
      .update rfl fun _ _ is_now past => by cases is_now; cases past
    exact parent.trans (.update rfl fun _ _ is_now past => by cases is_now; cases past)

theorem steady_act {process : Call × Phase} (lock_used : cfg.lockFile ≠ []) (steady : Steady s)
    (was : s.phase p = some process) :
    Steady (act cfg s p process) ∧ Change cfg s (act cfg s p process) (.act p) := by
  obtain ⟨call, phase⟩ := process
  have awaited := steady.awaited p call phase was
  have not_waiting (other : ∀ child, phase ≠ .waiting child) (caller : Call) (child : Pid)
      (waits : s.phase p = some (caller, .waiting child)) : s.told child = true := by
    rw [was] at waits
    cases waits
    exact absurd rfl (other child)
  have entering (way : phase ∈ [Phase.opening, .opened, .ready]) : Entering s p := ⟨call, phase, way, was⟩
  cases phase with
  | loaded =>
    obtain ⟨kept, change⟩ := steady_afterLoad lock_used steady was
    exact ⟨kept, change _⟩
  | waiting child =>
    simp only [act]
    split
    · rename_i told
      refine ⟨steady.exit fun caller other waits => ?_, .exit⟩
      rw [was] at waits
      cases waits
      exact told
    · exact ⟨steady, .stay⟩
  | checking =>
    simp only [act]
    split
    · obtain ⟨r, caller, waits⟩ := awaited
      have other : r ≠ p := by
        rintro rfl
        rw [was] at waits
        cases waits
      refine ⟨steady.go was rfl rfl id nofun ⟨r, State.mem_others.mpr ⟨steady.lt_fresh waits, other, ?_⟩, caller, ?_⟩,
        .quiet (.update rfl fun _ _ is_now past => by cases is_now; cases past) id (Or.inr rfl)⟩
      · rw [waits, Option.isSome_some]
      · exact (Function.update_of_ne other ..).trans waits
    · rename_i no_lock
      exact ⟨steady.go was rfl rfl id nofun trivial, .enter was (Bool.not_eq_true _ ▸ no_lock) rfl⟩
  | scanning there =>
    simp only [act]
    split
    · rename_i gone
      obtain ⟨r, seen, caller, waits⟩ := awaited
      have absent := List.all_eq_true.mp gone r seen
      rw [waits] at absent
      cases absent
    · exact ⟨steady, .stay⟩
  | removing => exact absurd awaited id
  | opening =>
    exact ⟨steady.go was rfl rfl (fun _ => rfl) nofun rfl,
      .quiet (.update rfl fun _ _ _ _ => entering (by simp)) (fun _ => rfl) (Or.inr rfl)⟩
  | opened =>
    exact ⟨steady.go was rfl rfl id nofun awaited,
      .quiet (.update rfl fun _ _ _ _ => entering (by simp)) id (Or.inr rfl)⟩
  | ready =>
    simp only [act]
    split
    · exact ⟨steady.exit (not_waiting nofun), .exit⟩
    · exact ⟨steady.go was rfl rfl id nofun awaited, 
        .bind (entering (by simp)) (.update rfl fun _ _ _ _ => entering (by simp)) rfl⟩
  | serving => exact ⟨steady, .stay⟩

theorem steady_step {label : Label} (lock_used : cfg.lockFile ≠ []) (steady : Steady s)
    (calm : Calm s label (step cfg s label)) :
    Steady (step cfg s label) ∧ Change cfg s (step cfg s label) label := by
  cases label with
  | launch call =>
    refine ⟨steady.launch calm, .quiet (.update rfl fun _ _ is_now past => by cases is_now; cases past) id ?_⟩
    simp only [step, launch]
    split
    · exact Or.inl (Function.update_self ..)
    · exact Or.inr rfl
  | act p =>
    simp only [step]
    cases was : s.phase p with
    | none => exact ⟨steady, .stay⟩
    | some process => exact steady_act lock_used steady was
  | look p q =>
    simp only [step, look]
    split
    · rename_i call there caller phase scans _
      split
      · exact ⟨steady, .stay⟩
      · refine ⟨steady.exit fun caller child waits => ?_, .exit⟩
        rw [scans] at waits
        cases waits
    · exact ⟨steady, .stay⟩
  | die p => exact ⟨steady.exit fun call child waits => absurd waits (calm call child), .exit⟩
  | alarm p => exact absurd calm id
  | unlock => exact absurd calm id

end Steps

theorem steady_boot (lock : Bool) : Steady (boot lock) :=
  ⟨fun _ _ => rfl, fun _ _ _ => nofun, fun _ _ _ => nofun⟩

/-! ## Whole runs -/

section Whole
variable {cfg : Settings} {s : State} {labels : List Label}

theorem steady_run (lock_used : cfg.lockFile ≠ []) (steady : Steady s) (calm : EveryStep (step cfg) Calm s labels) :
    Steady (exec (step cfg) s labels) :=
  @guarded_invariant _ _ _ Steady _ (fun _ _ steady calm => (steady_step lock_used steady calm).1) _ _ steady calm

/-- The lock file stays, and nobody comes past it. -/
structure Shut (first s : State) : Prop where
  lock : s.lock = true
  inside : ∀ p, Inside s p → Inside first p

theorem shut_step {first : State} {label : Label} (steady : Steady s) (lock_used : cfg.lockFile ≠ [])
    (shut : Shut first s) (calm : Calm s label (step cfg s label)) : Shut first (step cfg s label) := by
  obtain ⟨lock, inside⟩ := shut
  cases (steady_step lock_used steady calm).2 with
  | quiet still kept _ => exact ⟨kept lock, fun p now => inside p (still.inside p now)⟩
  | enter _ no_lock _ => exact absurd (no_lock.symm.trans lock) Bool.false_ne_true
  | bind _ still kept => exact ⟨kept.trans lock, fun p now => inside p (still.inside p now)⟩

theorem shut_run (lock_used : cfg.lockFile ≠ []) (steady : Steady s) (lock : s.lock = true)
    (calm : EveryStep (step cfg) Calm s labels) : Shut s (exec (step cfg) s labels) :=
  (@guarded_invariant _ _ _ (fun now => Steady now ∧ Shut s now) _
    (fun _ _ inv calm => ⟨(steady_step lock_used inv.1 calm).1, shut_step inv.1 lock_used inv.2 calm⟩) _ _
    ⟨steady, lock, fun _ => id⟩ calm).2

/-- **A lock file that is there keeps everyone out.** In every calm run, whatever
starts go on at once and in whatever order, from the moment the lock file is
there, left by an earlier server or made by this one, it stays, and nobody comes
past it: if no server runs then, no start brings one up again. -/
theorem locked_out {lock : Bool} {before after : List Label} (lock_used : cfg.lockFile ≠ [])
    (calm : EveryStep (step cfg) Calm (boot lock) (before ++ after))
    (locked : (exec (step cfg) (boot lock) before).lock = true) :
    (exec (step cfg) (boot lock) (before ++ after)).lock = true ∧
      ∀ p, Inside (exec (step cfg) (boot lock) (before ++ after)) p →
        Inside (exec (step cfg) (boot lock) before) p := by
  obtain ⟨calm_before, calm_after⟩ := (everyStep_append _).mp calm
  have shut := shut_run lock_used (steady_run lock_used (steady_boot lock) calm_before) locked calm_after
  rw [exec_append]
  exact ⟨shut.lock, shut.inside⟩

/-- The socket path leads nowhere, and nobody is on the way to open it. -/
structure Cut (cfg : Settings) (s : State) : Prop where
  lock : s.lock = true
  idle : Idle s
  socket : s.socket cfg.socketPath = none

theorem cut_step {label : Label} (lock_used : cfg.lockFile ≠ []) (steady : Steady s) (cut : Cut cfg s)
    (calm : Calm s label (step cfg s label)) : Cut cfg (step cfg s label) := by
  obtain ⟨lock, idle, socket⟩ := cut
  cases (steady_step lock_used steady calm).2 with
  | quiet still kept same =>
    refine ⟨kept lock, still.idle idle, ?_⟩
    rcases same with none | same
    · exact none
    · rw [same]
      exact socket
  | enter _ no_lock _ => exact absurd (no_lock.symm.trans lock) Bool.false_ne_true
  | bind entering _ _ => exact absurd entering (idle _)

/-- **One more start takes the server out of reach.** In every calm run, once the
lock file is there and no start is between it and the socket, the next call of
the program, even one that only tests the configuration, removes the socket file,
and whatever is started after it, in whatever order, nothing listens at that path
again. -/
theorem cut_off {lock : Bool} {before after : List Label} {call : Call} (lock_used : cfg.lockFile ≠ [])
    (unlinks : cfg.unlinks = true)
    (calm : EveryStep (step cfg) Calm (boot lock) (before ++ .launch call :: after))
    (locked : (exec (step cfg) (boot lock) before).lock = true) (idle : Idle (exec (step cfg) (boot lock) before)) :
    (exec (step cfg) (boot lock) (before ++ .launch call :: after)).socket cfg.socketPath = none := by
  obtain ⟨calm_before, calm_launch, calm_after⟩ := (everyStep_append _).mp calm
  have steady := steady_run lock_used (steady_boot lock) calm_before
  have launched := steady_step lock_used steady calm_launch
  have cut : Cut cfg (step cfg (exec (step cfg) (boot lock) before) (.launch call)) := by
    refine ⟨locked, ?_, ?_⟩
    · cases launched.2 with
      | quiet still _ _ => exact still.idle idle
    · simp only [step, launch, unlinks, ↓reduceIte]
      exact Function.update_self ..
  rw [exec_append]
  exact (@guarded_invariant _ _ _ (fun now => Steady now ∧ Cut cfg now) _
    (fun _ _ inv calm => ⟨(steady_step lock_used inv.1 calm).1, cut_step lock_used inv.1 inv.2 calm⟩) _ _
    ⟨launched.1, cut⟩ calm_after).2.socket

/-- At most one process is past the lock file. -/
def AtMostOne (s : State) : Prop := ∀ p q, Inside s p → Inside s q → p = q

/-- Nobody who finds no lock file does so while another is about to make it. -/
def Apart (s : State) (label : Label) : Prop :=
  ∀ p call, label = .act p → s.phase p = some (call, .checking) → s.lock = false →
    ∀ q caller, s.phase q ≠ some (caller, .opening)

theorem step_enter {p : Pid} {call : Call} (was : s.phase p = some (call, .checking)) (no_lock : s.lock = false) :
    step cfg s (.act p) = s.put p (some (call, .opening)) := by
  simp only [step, was, act, no_lock, Bool.false_eq_true, ↓reduceIte]

theorem empty_of_apart {p : Pid} {call : Call} (steady : Steady s) (was : s.phase p = some (call, .checking))
    (no_lock : s.lock = false) (apart : Apart s (.act p)) (q : Pid) : ¬ Inside s q := by
  rintro ⟨caller, phase, is_now, past⟩
  have awaited := steady.awaited q caller phase is_now
  cases phase with
  | opening => exact apart p call rfl was no_lock q caller is_now
  | opened | ready | serving => exact Bool.false_ne_true (no_lock.symm.trans awaited)
  | loaded | waiting _ | checking | scanning _ | removing => cases past

theorem atMostOne_step {label : Label} (lock_used : cfg.lockFile ≠ []) (steady : Steady s) (one : AtMostOne s)
    (calm : Calm s label (step cfg s label)) : AtMostOne (step cfg s label) ↔ Apart s label := by
  constructor
  · rintro still p call rfl was no_lock q caller opening
    rw [step_enter was no_lock] at still
    have other : q ≠ p := by
      rintro rfl
      rw [was] at opening
      cases opening
    exact other (still q p ⟨caller, _, (Function.update_of_ne other ..).trans opening, rfl⟩
      ⟨call, _, Function.update_self .., rfl⟩)
  · intro apart
    cases (steady_step lock_used steady calm).2 with
    | quiet still _ _ => exact fun p q first second => one p q (still.inside p first) (still.inside q second)
    | bind _ still _ => exact fun p q first second => one p q (still.inside p first) (still.inside q second)
    | @enter newcomer call was no_lock now =>
      have alone (q : Pid) (inside : Inside (step cfg s (.act newcomer)) q) : q = newcomer := by
        by_contra other
        obtain ⟨caller, phase, is_now, past⟩ := inside
        rw [now] at is_now
        exact empty_of_apart steady was no_lock apart q
          ⟨caller, phase, (Function.update_of_ne other ..).symm.trans is_now, past⟩
      exact fun p q first second => (alone p first).trans (alone q second).symm

theorem atMostOne_run (lock_used : cfg.lockFile ≠ []) (steady : Steady s) (one : AtMostOne s)
    (calm : EveryStep (step cfg) Calm s labels) :
    EveryStep (step cfg) (fun _ _ now => AtMostOne now) s labels ↔
      EveryStep (step cfg) (fun s label _ => Apart s label) s labels := by
  induction labels generalizing s with
  | nil => exact Iff.rfl
  | cons label rest ih =>
    have here := atMostOne_step lock_used steady one calm.1
    have later := (steady_step lock_used steady calm.1).1
    constructor
    · intro all
      exact ⟨here.mp all.1, (ih later all.1 calm.2).mp all.2⟩
    · intro all
      have next := here.mpr all.1
      exact ⟨next, (ih later next calm.2).mpr all.2⟩

/-- **Exactly when the lock file lets one in.** For every calm run from either
state of the lock file: at most one process is past it after every step if and
only if nobody who finds no lock file does so between another one's finding none
and making it. -/
theorem one_at_a_time {lock : Bool} (lock_used : cfg.lockFile ≠ [])
    (calm : EveryStep (step cfg) Calm (boot lock) labels) :
    EveryStep (step cfg) (fun _ _ now => AtMostOne now) (boot lock) labels ↔
      EveryStep (step cfg) (fun s label _ => Apart s label) (boot lock) labels := by
  have nobody : AtMostOne (boot lock) := by
    rintro p q ⟨call, phase, is_now, past⟩
    cases is_now
  exact atMostOne_run lock_used (steady_boot lock) nobody calm

end Whole

/-! ## The configuration of the repository -/

def settings : Settings := ⟨bytes "/run/worker-informer/sock", bytes "/run/worker-informer/lock", true, true⟩

def plain : Call := ⟨false, false, [], false⟩

/-- A server comes up: process 0 is called, process 1 serves. -/
def comesUp : List Label := [.launch plain, .act 0, .act 1, .act 1, .act 1, .act 1, .act 0]

theorem calm_comesUp : EveryStep (step settings) Calm (boot false) comesUp :=
  ⟨rfl, trivial, trivial, trivial, trivial, trivial, trivial, trivial⟩

theorem idle_comesUp : Idle (exec (step settings) (boot false) comesUp) := by
  rintro p ⟨call, phase, member, is_now⟩
  match p with
  | 0 => cases is_now
  | 1 =>
    cases is_now
    exact absurd member (by decide)
  | p + 2 => cases is_now

/-- The server dies, and the next start finds the lock file and its own parent. -/
theorem locked_out_crash :
    (exec (step settings) (boot false) (comesUp ++
      [.die 1, .launch plain, .act 2, .act 3, .look 3 2, .act 2])).lock = true ∧
      ∀ p, Inside (exec (step settings) (boot false) (comesUp ++
        [.die 1, .launch plain, .act 2, .act 3, .look 3 2, .act 2])) p →
        Inside (exec (step settings) (boot false) comesUp) p := by
  apply locked_out (by decide)
  · refine (everyStep_append _).mpr ⟨calm_comesUp, ?_, rfl, trivial, trivial, trivial, trivial, trivial⟩
    rintro call child ⟨⟩
  · rfl

/-- The configuration is tested while the server runs. -/
theorem cut_off_test :
    (exec (step settings) (boot false) (comesUp ++ .launch ⟨true, false, [], false⟩ :: [.act 2])).socket
      settings.socketPath = none := by
  apply cut_off (by decide) rfl
  · exact (everyStep_append _).mpr ⟨calm_comesUp, rfl, trivial, trivial⟩
  · rfl
  · exact idle_comesUp

/-- Two calls at once: both children find no lock file. -/
theorem one_at_a_time_two :
    EveryStep (step settings) (fun _ _ now => AtMostOne now) (boot false)
        [.launch plain, .launch plain, .act 0, .act 1, .act 2, .act 3] ↔
      EveryStep (step settings) (fun s label _ => Apart s label) (boot false)
        [.launch plain, .launch plain, .act 0, .act 1, .act 2, .act 3] :=
  one_at_a_time (by decide) ⟨rfl, rfl, trivial, trivial, trivial, trivial, trivial⟩

end WorkerInformer.ServerStart
