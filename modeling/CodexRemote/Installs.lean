import CodexRemote.Mutations

/-!
# What a call has installed stays

`WriteText` and `Upload` put the old content aside, install the new one, announce the
change, and either throw the old content away or put it back. To the outside a call
should happen as a whole or not at all, in the order of admission. `replay` says so: it
installs, one after the other, the content of the calls whose change was announced or
may have been.

The files follow `replay` as long as no call is admitted while another one has its undo
still before it. Coordinator and lane see to that for every other part of a call. The
undo runs after both are free, with the old token in force again: a call that gets in
between is wiped out by it.
-/
namespace CodexRemote.Mutations

open Protocol Workspace Codexes Function List Option FileTree Target

variable {phase : Phase} {i : Nat} {request : Request} {existed : Bool} {initial : Files}
  {world next : World}

/-- Install a request's content as a whole. -/
def applyRequest (files : Files) (request : Request) : Files :=
  if isDirectory : files.entry request.target.parent = some .directory then
    files.graft request.target.parent (.visible request.target.name) request.content isDirectory
  else files

/-- The files after the calls that took effect. -/
def replay (files : Files) (effects : List (Nat × Request)) : Files :=
  effects.foldl (fun files effect => applyRequest files effect.2) files

/-- A path that clients can name. -/
def Visible (path : Path) : Prop := ∀ call, .rollback call ∉ path

/-- To clients, both hold the same. -/
def Agree (files spec : Files) : Prop :=
  ∀ path, Visible path → files.entry path = spec.entry path

theorem replay_append (files : Files) (first second : List (Nat × Request)) :
    replay files (first ++ second) = replay (replay files first) second :=
  foldl_append

theorem applyRequest_outside (files : Files) {path : Path}
    (outside : ¬ request.target.path <+: path) :
    (applyRequest files request).entry path = files.entry path := by
  unfold applyRequest
  split
  · exact graft_outside _ _ _ _ _ _ outside
  · rfl

theorem applyRequest_inside (rest : Path)
    (isDirectory : files.entry request.target.parent = some .directory) :
    (applyRequest files request).entry (request.target.path ++ rest) =
      request.content.entry rest := by
  simp only [applyRequest, isDirectory, dite_true]
  exact graft_inside ..

/-- Calls that write elsewhere leave a path as it is. -/
theorem replay_outside (files : Files) {path : Path}
    (outside : ∀ effect ∈ effects, ¬ effect.2.target.path <+: path) :
    (replay files effects).entry path = files.entry path := by
  induction effects generalizing files with
  | nil => rfl
  | cons effect rest ih =>
    have later := ih (applyRequest files effect.2)
      fun other member => outside other (mem_cons_of_mem _ member)
    exact later.trans (applyRequest_outside _ (outside effect mem_cons_self))

section Paths

variable (target : Target)

theorem Target.parent_visible : Visible target.parent := by
  intro call member
  simp [parent] at member

theorem Target.path_visible (rest : Path) (visible : Visible rest) :
    Visible (target.path ++ rest) := by
  intro call member
  rcases mem_append.mp member with inside | after
  · simp [path, parent] at inside
  · exact visible call after

theorem Target.path_not_above_parent : ¬ target.path <+: target.parent := by
  intro above
  have longer := above.length_le
  rw [path, length_append, length_singleton] at longer
  omega

/-- What is below a backup is not visible. -/
theorem Target.backup_hidden (call : Nat) (path : Path) (visible : .rollback call ∉ path) :
    ¬ target.backup call <+: path := by
  intro above
  exact visible (above.subset (by simp [backup]))

/-- A call's backup is not inside its target. -/
theorem Target.path_not_above_backup (call : Nat) (rest : Path) :
    ¬ target.path <+: target.backup call ++ rest := by
  intro above
  rw [path, backup, append_assoc, List.prefix_append_right_inj] at above
  simp at above

end Paths

/-- A call has put aside what was there. Everywhere else the files are as they should
be. -/
structure Aside (files spec : Files) (i : Nat) (request : Request) (existed : Bool) :
    Prop where
  parent : spec.entry request.target.parent = some .directory
  outside : ∀ path, Visible path → ¬ request.target.path <+: path →
    files.entry path = spec.entry path
  saved : ∀ rest, Visible rest → spec.entry (request.target.path ++ rest) =
    if existed then files.entry (request.target.backup i ++ rest) else none
  found : existed = true → (spec.entry request.target.path).isSome

/-- Nothing is at the target. -/
def Emptied (files : Files) (request : Request) : Prop :=
  ∀ rest, Visible rest → files.entry (request.target.path ++ rest) = none

/-- The content is at the target. -/
def Filled (files : Files) (request : Request) : Prop :=
  ∀ rest, Visible rest → files.entry (request.target.path ++ rest) = request.content.entry rest

/-- How the files stand to what they should be while a call is in a phase. -/
def Tracked (files spec : Files) (i : Nat) (request : Request) (existed : Bool) : Phase → Prop
  | .staging => Agree files spec ∧ spec.entry request.target.parent = some .directory
  | .installing => Aside files spec i request existed ∧ Emptied files request
  | .measuring | .emitting .. | .rollState .. | .release =>
      Aside files spec i request existed ∧ Filled files request
  | .remove => Aside files spec i request existed
  | .putBack => existed = true ∧ Aside files spec i request existed ∧ Emptied files request
  | .finish | .discard | .unknownDiscard | .unknownFinish | .returned _ => True

/-- The phases in which the files may be other than they should be. -/
def Phase.opened : Phase → Bool
  | .staging | .installing | .measuring | .emitting .. | .rollState .. | .release | .remove
  | .putBack => true
  | .finish | .discard | .unknownDiscard | .unknownFinish | .returned _ => false

def Task.opened : Task → Bool
  | .call _ _ phase => phase.opened
  | _ => false

/-- The undo on the files is all that is left of the call. -/
def Task.undoing : Task → Bool
  | .call _ _ .remove | .call _ _ .putBack => true
  | _ => false

/-- No call is admitted while another one has its undo before it. -/
def Orderly (world : World) : Label → Prop
  | .call .. => ∀ i < world.begun, (world.tasks i).undoing = false
  | _ => True

instance (world : World) : (label : Label) → Decidable (Orderly world label)
  | .call .. => inferInstanceAs (Decidable (∀ i < world.begun, _))
  | .agent .. | .proceed .. | .restore .. | .proceedRestore .. | .report _ => isTrue trivial

section Files

variable {files after spec : Files} {i : Nat} {request : Request} {existed : Bool}

/-- A visible path is outside the target or inside of it at a visible path. -/
theorem inside_or_outside (request : Request) {path : Path} (visible : Visible path) :
    ¬ request.target.path <+: path ∨
      ∃ rest, Visible rest ∧ path = request.target.path ++ rest := by
  by_cases inside : request.target.path <+: path
  · obtain ⟨rest, rfl⟩ := inside
    exact .inr ⟨rest, fun call member => visible call (mem_append_right _ member), rfl⟩
  · exact .inl inside

theorem aside_of_absent (agree : Agree files spec)
    (parent : spec.entry request.target.parent = some .directory)
    (nothing : files.entry request.target.path = none) :
    Aside files spec i request false ∧ Emptied files request := by
  have emptied : Emptied files request := fun rest _ =>
    files.entry_append_eq_none _ rest nothing
  refine ⟨⟨parent, fun path visible _ => agree path visible, ?_, by simp⟩, emptied⟩
  intro rest visible
  rw [← agree _ (request.target.path_visible rest visible)]
  exact emptied rest visible

theorem aside_of_move (agree : Agree files spec)
    (parent : spec.entry request.target.parent = some .directory)
    (moved : files.move request.target.path request.target.parent (.rollback i) = some after) :
    Aside after spec i request true ∧ Emptied after request := by
  obtain ⟨there, isDirectory, rfl⟩ := move_some moved
  have hidden : ∀ path, Visible path → ¬ request.target.backup i <+: path :=
    fun path visible => request.target.backup_hidden i path (visible i)
  refine ⟨⟨parent, ?_, ?_, ?_⟩, ?_⟩
  · intro path visible outside
    rw [graft_outside _ _ _ _ _ _ (hidden path visible), removeAll_outside _ _ _ outside]
    exact agree path visible
  · intro rest visible
    rw [if_pos rfl, backup, graft_inside]
    exact (agree _ (request.target.path_visible rest visible)).symm
  · intro _
    have same := agree _ (request.target.path_visible [] (by simp [Visible]))
    rw [append_nil] at same
    rwa [← same]
  · intro rest visible
    rw [graft_outside _ _ _ _ _ _ (hidden _ (request.target.path_visible rest visible))]
    exact removeAll_inside ..

theorem install_eq (installs : install files request = some after) :
    ∃ isDirectory : files.entry request.target.parent = some .directory,
      after = files.graft request.target.parent (.visible request.target.name) request.content
        isDirectory := by
  simp only [install] at installs
  split at installs
  · next isDirectory =>
    split at installs <;> cases installs
    exact ⟨isDirectory, rfl⟩
  · cases installs

theorem Aside.installed (aside : Aside files spec i request existed)
    (installs : install files request = some after) :
    Aside after spec i request existed ∧ Filled after request := by
  obtain ⟨isDirectory, rfl⟩ := install_eq installs
  refine ⟨⟨aside.parent, ?_, ?_, aside.found⟩, ?_⟩
  · intro path visible outside
    rw [graft_outside _ _ _ _ _ _ outside]
    exact aside.outside path visible outside
  · intro rest visible
    rw [aside.saved rest visible, graft_outside _ _ _ _ _ _
      (request.target.path_not_above_backup i rest)]
  · intro rest visible
    exact graft_inside ..

/-- Announcing the content makes the files what they should be. -/
theorem Aside.effective (aside : Aside files spec i request existed)
    (filled : Filled files request) : Agree files (applyRequest spec request) := by
  intro path visible
  rcases inside_or_outside request visible with outside | ⟨rest, below, rfl⟩
  · rw [applyRequest_outside _ outside]
    exact aside.outside path visible outside
  · rw [applyRequest_inside _ aside.parent]
    exact filled rest below

theorem Aside.removed (aside : Aside files spec i request existed) :
    Aside (files.removeAll request.target.path) spec i request existed ∧
      Emptied (files.removeAll request.target.path) request := by
  refine ⟨⟨aside.parent, ?_, ?_, aside.found⟩, ?_⟩
  · intro path visible outside
    rw [removeAll_outside _ _ _ outside]
    exact aside.outside path visible outside
  · intro rest visible
    rw [aside.saved rest visible, removeAll_outside _ _ _
      (request.target.path_not_above_backup i rest)]
  · intro rest _
    exact removeAll_inside ..

/-- Where nothing was put aside, an empty target is as it should be. -/
theorem Aside.agree_of_emptied (aside : Aside files spec i request false)
    (emptied : Emptied files request) : Agree files spec := by
  intro path visible
  rcases inside_or_outside request visible with outside | ⟨rest, below, rfl⟩
  · exact aside.outside path visible outside
  · rw [emptied rest below, aside.saved rest below]
    rfl

/-- Putting back what was put aside succeeds and makes the files what they should be. -/
theorem Aside.putBack (aside : Aside files spec i request true) (emptied : Emptied files request) :
    Agree ((files.move (request.target.backup i) request.target.parent
      (.visible request.target.name)).getD files) spec := by
  have hidden : ∀ path, Visible path → ¬ request.target.backup i <+: path :=
    fun path visible => request.target.backup_hidden i path (visible i)
  have nothing : Visible [] := by simp [Visible]
  have there : (files.entry (request.target.backup i)).isSome := by
    have found := aside.found rfl
    have saved := aside.saved [] nothing
    rw [if_pos rfl, append_nil, append_nil] at saved
    rwa [← saved]
  have isDirectory : (files.removeAll (request.target.backup i)).entry request.target.parent =
      some .directory := by
    have visible := request.target.parent_visible
    rw [removeAll_outside _ _ _ (hidden _ visible),
      aside.outside _ visible request.target.path_not_above_parent]
    exact aside.parent
  have free : files.entry (request.target.parent ++ [.visible request.target.name]) = none := by
    have empty := emptied [] nothing
    rwa [append_nil] at empty
  rw [move_to_free there isDirectory free, getD_some]
  intro path visible
  rcases inside_or_outside request visible with outside | ⟨rest, below, rfl⟩
  · rw [graft_outside _ _ _ _ _ _ outside, removeAll_outside _ _ _ (hidden path visible)]
    exact aside.outside path visible outside
  · rw [path, graft_inside, ← path, aside.saved rest below, if_pos rfl]
    rfl

/-- Throwing away another call's backup touches nothing a call's phase speaks of. -/
theorem Tracked.discarded (other : i ≠ j)
    (same : ∀ path, .rollback j ∉ path → after.entry path = files.entry path)
    (tracked : Tracked files spec i request existed phase) :
    Tracked after spec i request existed phase := by
  have inside : ∀ rest, Visible rest → after.entry (request.target.path ++ rest) =
      files.entry (request.target.path ++ rest) :=
    fun rest visible => same _ (request.target.path_visible rest visible j)
  have aside : Aside files spec i request existed → Aside after spec i request existed := by
    intro aside
    refine ⟨aside.parent, ?_, ?_, aside.found⟩
    · intro path visible outside
      rw [same path (visible j)]
      exact aside.outside path visible outside
    · intro rest visible
      rw [aside.saved rest visible, same]
      intro member
      rcases mem_append.mp member with within | below
      · simp [backup, parent, other.symm] at within
      · exact visible j below
  have emptied : Emptied files request → Emptied after request := by
    intro emptied rest visible
    rw [inside rest visible]
    exact emptied rest visible
  have filled : Filled files request → Filled after request := by
    intro filled rest visible
    rw [inside rest visible]
    exact filled rest visible
  cases phase with
  | staging => exact ⟨fun path visible => (same path (visible j)).trans
      (tracked.1 path visible), tracked.2⟩
  | installing => exact ⟨aside tracked.1, emptied tracked.2⟩
  | measuring | emitting | rollState | release => exact ⟨aside tracked.1, filled tracked.2⟩
  | remove => exact aside tracked
  | putBack => exact ⟨tracked.1, aside tracked.2.1, emptied tracked.2.2⟩
  | finish | discard | unknownDiscard | unknownFinish | returned => trivial

end Files

/-- The sink has stored the call's change. -/
def Phase.announced : Phase → Bool
  | .finish | .discard | .returned .succeeded => true
  | _ => false

def Task.announced : Task → Option Request
  | .call request _ phase => if phase.announced then some request else none
  | _ => none

/-- The call has succeeded or its outcome is unknown. -/
def Phase.effective : Phase → Bool
  | .finish | .discard | .unknownDiscard | .unknownFinish | .returned .succeeded
  | .returned .unknown => true
  | _ => false

def Task.effective : Task → Option Request
  | .call request _ phase => if phase.effective then some request else none
  | _ => none

/-- The call is among those that took effect, where its content went into a directory,
and those after it were admitted later. -/
def Recorded (initial : Files) (effects : List (Nat × Request)) (i : Nat) (request : Request) :
    Prop :=
  ∃ before later, effects = before ++ (i, request) :: later ∧
    (replay initial before).entry request.target.parent = some .directory ∧
    ∀ effect ∈ later, i < effect.1

structure Kept (initial : Files) (world : World) : Prop where
  locks : Locks world
  /-- One call at a time is on its way. -/
  single : ∀ i j, (world.tasks i).opened = true → (world.tasks j).opened = true → i = j
  tracked : ∀ i request existed phase, world.tasks i = .call request existed phase →
    Tracked world.files (replay initial world.effects) i request existed phase
  /-- Between calls the files are as they should be. -/
  settled : (∀ i, (world.tasks i).opened = false) →
    Agree world.files (replay initial world.effects)
  recorded : ∀ i request, (world.tasks i).announced = some request →
    Recorded initial world.effects i request
  begun : ∀ effect ∈ world.effects, effect.1 < world.begun
  order : ∀ i, (world.tasks i).opened = true → ∀ effect ∈ world.effects, effect.1 < i
  /-- Only calls that have not failed take effect. -/
  effective : ∀ effect ∈ world.effects, (world.tasks effect.1).effective = some effect.2

theorem tracked_of_not_opened (closed : phase.opened = false) :
    Tracked files spec i request existed phase := by
  cases phase with
  | finish | discard | unknownDiscard | unknownFinish | returned => trivial
  | staging | installing | measuring | emitting | rollState | release | remove | putBack =>
    cases closed

/-- While a call is on its way, nothing is said of the others. -/
theorem Kept.others_tracked (kept : Kept initial world) (opened : (world.tasks i).opened = true)
    (j : Nat) (other : j ≠ i) (request : Request) (existed : Bool) (phase : Phase)
    (task : world.tasks j = .call request existed phase) :
    Tracked files (replay initial world.effects) j request existed phase := by
  apply tracked_of_not_opened
  by_contra busy
  rw [Bool.not_eq_false] at busy
  exact other (kept.single j i (by simpa [task, Task.opened] using busy) opened)

/-- A task moves and no further call takes effect. -/
theorem Kept.put (kept : Kept initial world) (locks : Locks next)
    (tasks : next.tasks = update world.tasks i task) (older : world.begun ≤ next.begun)
    (effects : next.effects = world.effects)
    (opened : task.opened = true → (world.tasks i).opened = true)
    (tracked : ∀ request existed phase, task = .call request existed phase →
      Tracked next.files (replay initial world.effects) i request existed phase)
    (others : ∀ j, j ≠ i → ∀ request existed phase,
      world.tasks j = .call request existed phase →
      Tracked next.files (replay initial world.effects) j request existed phase)
    (settled : task.opened = false → (∀ j, j ≠ i → (world.tasks j).opened = false) →
      Agree next.files (replay initial world.effects))
    (announced : ∀ request, task.announced = some request →
      (world.tasks i).announced = some request)
    (effective : ∀ request, (world.tasks i).effective = some request →
      task.effective = some request) : Kept initial next := by
  have before : ∀ j, (next.tasks j).opened = true → (world.tasks j).opened = true := by
    intro j busy
    rw [tasks] at busy
    by_cases same : j = i
    · subst same
      rw [update_self] at busy
      exact opened busy
    · rwa [update_of_ne same] at busy
  constructor
  · exact locks
  · intro j k first second
    exact kept.single j k (before j first) (before k second)
  · intro j request existed phase found
    rw [tasks] at found
    rw [effects]
    by_cases same : j = i
    · subst same
      rw [update_self] at found
      exact tracked request existed phase found
    · rw [update_of_ne same] at found
      exact others j same request existed phase found
  · intro closed
    rw [effects]
    rw [tasks] at closed
    refine settled (by simpa using closed i) fun j other => ?_
    simpa [update_of_ne other] using closed j
  · intro j request found
    rw [tasks] at found
    rw [effects]
    by_cases same : j = i
    · subst same
      rw [update_self] at found
      exact kept.recorded j request (announced request found)
    · rw [update_of_ne same] at found
      exact kept.recorded j request found
  · intro effect member
    rw [effects] at member
    exact (kept.begun effect member).trans_le older
  · intro j busy effect member
    rw [effects] at member
    exact kept.order j (before j busy) effect member
  · intro effect member
    rw [effects] at member
    rw [tasks]
    by_cases same : effect.1 = i
    · rw [same, update_self]
      exact effective _ (same ▸ kept.effective effect member)
    · rw [update_of_ne same]
      exact kept.effective effect member

/-- A task that is no call on its way moves, and the files stay. -/
theorem Kept.rest (kept : Kept initial world) (locks : Locks next)
    (tasks : next.tasks = update world.tasks i task) (older : world.begun ≤ next.begun)
    (effects : next.effects = world.effects) (files : next.files = world.files)
    (was : (world.tasks i).opened = false) (closed : task.opened = false)
    (announced : ∀ request, task.announced = some request →
      (world.tasks i).announced = some request)
    (effective : ∀ request, (world.tasks i).effective = some request →
      task.effective = some request) : Kept initial next := by
  refine kept.put locks tasks older effects (by simp [closed]) ?_ ?_ ?_ announced effective
  · rintro request existed phase rfl
    exact tracked_of_not_opened closed
  · intro j _ request existed phase task
    rw [files]
    exact kept.tracked j request existed phase task
  · intro _ others
    rw [files]
    apply kept.settled
    intro j
    by_cases same : j = i
    · rw [same]
      exact was
    · exact others j same

theorem effective_of_opened (opened : phase.opened = true) : phase.effective = false := by
  cases phase with
  | staging | installing | measuring | emitting | rollState | release | remove | putBack => rfl
  | finish | discard | unknownDiscard | unknownFinish | returned => cases opened

section

variable (kept : Kept initial world)
include kept

/-- A call on its way moves on. -/
theorem Kept.proceed (task : world.tasks i = .call request existed phase)
    (opened : phase.opened = true) (locks : Locks next)
    (tasks : next.tasks = update world.tasks i (.call request existed' phase'))
    (begun : next.begun = world.begun) (effects : next.effects = world.effects)
    (silent : phase'.announced = false)
    (tracked : Tracked next.files (replay initial world.effects) i request existed' phase')
    (settled : phase'.opened = false → Agree next.files (replay initial world.effects)) :
    Kept initial next := by
  have busy : (world.tasks i).opened = true := by simpa [task, Task.opened] using opened
  refine kept.put locks tasks begun.ge effects (fun _ => busy) ?_ ?_ ?_ ?_ ?_
  · rintro request' existed'' phase'' ⟨⟩
    exact tracked
  · exact fun j other => kept.others_tracked busy j other
  · exact fun closed _ => settled closed
  · simp [Task.announced, silent]
  · simp [task, Task.effective, effective_of_opened opened]

/-- The sink has stored a call's change, or may have: the call takes effect. -/
theorem Kept.effect (task : world.tasks i = .call request existed (.emitting previous attempted))
    (closed : phase.opened = false) (effective : phase.effective = true) (locks : Locks next)
    (tasks : next.tasks = update world.tasks i (.call request existed phase))
    (begun : next.begun = world.begun) (effects : next.effects = world.effects ++ [(i, request)])
    (files : next.files = world.files) : Kept initial next := by
  have opened : (world.tasks i).opened = true := by simp [task, Task.opened, Phase.opened]
  obtain ⟨aside, filled⟩ := kept.tracked i request existed _ task
  -- No other call is on its way, and this one no longer is.
  have shut : ∀ j, (next.tasks j).opened = false := by
    intro j
    by_contra busy
    rw [Bool.not_eq_false, tasks] at busy
    obtain ⟨other, old⟩ := old_of_update busy (by simp [Task.opened, closed])
    exact other (kept.single j i old opened)
  constructor
  · exact locks
  · intro j k first _
    rw [shut j] at first
    cases first
  · intro j request' existed' phase' found
    apply tracked_of_not_opened
    have shut_j := shut j
    rwa [found] at shut_j
  · intro _
    rw [files, effects, replay_append]
    exact aside.effective filled
  · intro j request' found
    rw [tasks] at found
    rw [effects]
    by_cases same : j = i
    · subst same
      have itself : request' = request := by
        rw [update_self] at found
        simp only [Task.announced] at found
        split at found
        · exact (some.inj found).symm
        · cases found
      subst itself
      exact ⟨world.effects, [], rfl, aside.parent, by simp⟩
    · rw [update_of_ne same] at found
      obtain ⟨before, later, listed, parent, after⟩ := kept.recorded j request' found
      refine ⟨before, later ++ [(i, request)], by simp [listed], parent, ?_⟩
      intro effect member
      rcases mem_append.mp member with old | new
      · exact after effect old
      · rw [mem_singleton.mp new]
        exact kept.order i opened (j, request') (by simp [listed])
  · intro effect member
    rw [begun]
    rw [effects] at member
    rcases mem_append.mp member with old | new
    · exact kept.begun effect old
    · rw [mem_singleton.mp new]
      exact kept.locks.begun (by simp [task])
  · intro j busy
    rw [shut j] at busy
    cases busy
  · intro effect member
    rw [effects] at member
    rw [tasks]
    rcases mem_append.mp member with old | new
    · rw [update_of_ne (kept.order i opened effect old).ne]
      exact kept.effective effect old
    · rw [mem_singleton.mp new, update_self]
      simp [Task.effective, effective]

/-- A backup is thrown away. -/
theorem Kept.discard (task : world.tasks i = .call request existed phase)
    (was : phase.opened = false) (closed : phase'.opened = false)
    (announced : phase'.announced = true → phase.announced = true)
    (effective : phase'.effective = true) (locks : Locks ({ world with
      files := discardBackup world.files request existed i }.put i
        (.call request existed phase'))) :
    Kept initial ({ world with
      files := discardBackup world.files request existed i }.put i
        (.call request existed phase')) := by
  have same : ∀ path, .rollback i ∉ path →
      (discardBackup world.files request existed i).entry path = world.files.entry path := by
    intro path hidden
    unfold discardBackup
    split
    · exact removeAll_outside _ _ _ (request.target.backup_hidden i path hidden)
    · rfl
  refine kept.put locks rfl le_rfl rfl (by simp [Task.opened, closed]) ?_ ?_ ?_ ?_ ?_
  · rintro request' existed' phase'' ⟨⟩
    exact tracked_of_not_opened closed
  · intro j other request' existed' phase'' found
    exact (kept.tracked j request' existed' phase'' found).discarded other same
  · intro _ others path visible
    refine (same path (visible i)).trans (kept.settled ?_ path visible)
    intro j
    by_cases itself : j = i
    · rw [itself, task]
      exact was
    · exact others j itself
  · intro request' found
    rw [task]
    simp only [Task.announced] at found ⊢
    split at found
    · next new =>
      rw [if_pos (announced new)]
      exact found
    · cases found
  · intro request' found
    rw [task] at found
    simp only [Task.effective, effective, if_true] at found ⊢
    split at found
    · exact found
    · cases found

theorem Kept.callMoves (task : world.tasks i = .call request existed phase)
    (moved : CallMoves host world i request existed env phase next) : Kept initial next := by
  have locks := kept.locks.callMoves task moved
  have tracked := kept.tracked i request existed phase task
  cases moved with
  | absent nothing =>
    exact kept.proceed task rfl locks rfl rfl rfl rfl (aside_of_absent tracked.1 tracked.2 nothing)
      nofun
  | staged files moved =>
    exact kept.proceed task rfl locks rfl rfl rfl rfl (aside_of_move tracked.1 tracked.2 moved)
      nofun
  | notStaged => exact kept.proceed task rfl locks rfl rfl rfl rfl trivial fun _ => tracked.1
  | installed files installs =>
    exact kept.proceed task rfl locks rfl rfl rfl rfl (tracked.1.installed installs) nofun
  | notInstalled | notMeasured | released =>
    exact kept.proceed task rfl locks rfl rfl rfl rfl tracked.1 nofun
  | stored | unknown => exact kept.effect task rfl rfl locks rfl rfl rfl rfl
  | advanced | failed | stateRolled =>
    exact kept.proceed task rfl locks rfl rfl rfl rfl tracked nofun
  | removed =>
    obtain ⟨aside, emptied⟩ := Aside.removed tracked
    cases existed with
    | true => exact kept.proceed task rfl locks rfl rfl rfl rfl ⟨rfl, aside, emptied⟩ nofun
    | false =>
      exact kept.proceed task rfl locks rfl rfl rfl rfl trivial fun _ =>
        aside.agree_of_emptied emptied
  | restored =>
    obtain ⟨rfl, aside, emptied⟩ := tracked
    exact kept.proceed task rfl locks rfl rfl rfl rfl trivial fun _ => aside.putBack emptied
  | finished =>
    exact kept.rest locks rfl le_rfl rfl rfl (by simp [task, Task.opened, Phase.opened]) rfl
      (by simp [task, Task.announced, Phase.announced])
      (by simp [task, Task.effective, Phase.effective])
  | unknownFinished =>
    exact kept.rest locks rfl le_rfl rfl rfl (by simp [task, Task.opened, Phase.opened]) rfl
      (by simp [Task.announced, Phase.announced])
      (by simp [task, Task.effective, Phase.effective])
  | discarded => exact kept.discard task rfl rfl (fun _ => rfl) rfl locks
  | unknownDiscarded => exact kept.discard task rfl rfl (by simp [Phase.announced]) rfl locks

/-- A call is admitted while none is on its way. -/
theorem Kept.admitted (free : world.open = true)
    (parent : world.files.entry request.target.parent = some .directory)
    (orderly : ∀ i < world.begun, (world.tasks i).undoing = false)
    (locks : Locks ({ world with coordinator := some world.begun }.spawn
      (.call request false .staging))) :
    Kept initial ({ world with coordinator := some world.begun }.spawn
      (.call request false .staging)) := by
  obtain ⟨coordinator, pending, -⟩ := world.open_iff.mp free
  -- Who is on the way is in the coordinator, has the lane, or has its undo to do.
  have shut : ∀ i, (world.tasks i).opened = false := by
    intro i
    by_contra busy
    rw [Bool.not_eq_false] at busy
    have known : i < world.begun := by
      apply kept.locks.begun
      intro unused
      simp [unused, Task.opened] at busy
    have held : (world.tasks i).locked = true ∨ (world.tasks i).laned = true ∨
        (world.tasks i).undoing = true := by
      cases task : world.tasks i with
      | free | agent | ended => simp [task, Task.opened] at busy
      | call request existed phase =>
        rw [task] at busy
        cases phase <;> simp_all [Task.opened, Phase.opened, Task.locked, Phase.locked,
          Task.laned, Phase.laned, Task.undoing]
    rcases held with locked | laned | undoing
    · have owner := kept.locks.coordinator i locked
      rw [coordinator] at owner
      cases owner
    · have owner := kept.locks.lane i laned
      rw [pending] at owner
      cases owner
    · rw [orderly i known] at undoing
      cases undoing
  have agree := kept.settled shut
  have only : ∀ j, (update world.tasks world.begun
      (.call request false .staging) j).opened = true → j = world.begun := by
    intro j busy
    by_contra other
    rw [update_of_ne other, shut j] at busy
    cases busy
  constructor
  · exact locks
  · intro j k first second
    exact (only j first).trans (only k second).symm
  · intro j request' existed phase found
    change update world.tasks world.begun _ j = _ at found
    by_cases new : j = world.begun
    · subst new
      rw [update_self] at found
      cases found
      exact ⟨agree, (agree _ request.target.parent_visible).symm.trans parent⟩
    · rw [update_of_ne new] at found
      exact kept.tracked j request' existed phase found
  · exact fun _ => agree
  · intro j request' found
    exact kept.recorded j request' (old_of_update found
      (by simp [Task.announced, Phase.announced])).2
  · intro effect member
    exact (kept.begun effect member).trans (Nat.lt_succ_self _)
  · intro j busy effect member
    rw [only j busy]
    exact kept.begun effect member
  · intro effect member
    change (update world.tasks world.begun _ effect.1).effective = _
    rw [update_of_ne (kept.begun effect member).ne]
    exact kept.effective effect member

end

theorem step_kept (host : Host) (initial : Files) (world : World) (label : Label) (next : World)
    (kept : Kept initial world) (orderly : Orderly world label)
    (stepped : step host world label = some next) : Kept initial next := by
  have locks := step_locks kept.locks stepped
  have unused := kept.locks.fresh world.begun le_rfl
  cases step_moves host world next label stepped with
  | inPlace | enter =>
    exact kept.rest locks rfl (Nat.le_succ _) rfl rfl (by simp [unused, Task.opened]) rfl
      (by simp [Task.announced]) (by simp [unused, Task.effective])
  | admitted request token revision free parent valid target =>
    exact kept.admitted free parent orderly locks
  | agent i env change phase next task moved =>
    have was : (world.tasks i).opened = false := by simp [task, Task.opened]
    cases moved <;> exact kept.rest locks rfl le_rfl rfl rfl was rfl (by simp [Task.announced])
      (by simp [task, Task.effective])
  | call i env request existed phase next task moved => exact kept.callMoves task moved
  | restoring resolved env restoring next current moved =>
    cases moved <;> exact { kept with locks := locks }
  | begun | reported => exact { kept with locks := locks }

theorem start_kept (start : Start world) : Kept world.files world := by
  have shut : ∀ i, (world.tasks i).opened = false := by
    intro i
    rw [start.tasks i]
    rfl
  constructor
  · exact start_locks start
  · intro i j first _
    rw [shut i] at first
    cases first
  · intro i request existed phase task
    rw [start.tasks i] at task
    cases task
  · intro _ path _
    rw [start.effects]
    rfl
  · intro i request announced
    rw [start.tasks i] at announced
    cases announced
  · simp [start.effects]
  · simp [start.effects]
  · simp [start.effects]

/-- No call that is on its way has its target at the path or above it. -/
def Undisturbed (world : World) (path : Path) : Prop :=
  ∀ i request existed phase, world.tasks i = .call request existed phase →
    phase.opened = true → ¬ request.target.path <+: path

/-- Where all calls have returned or only clean up, no path is disturbed. -/
theorem Locks.undisturbed (locks : Locks world)
    (shut : ∀ i < world.begun, (world.tasks i).opened = false) (path : Path) :
    Undisturbed world path := by
  intro i request existed phase task opened
  have known : i < world.begun := locks.begun (by simp [task])
  have closed := shut i known
  rw [task] at closed
  exact absurd (opened.symm.trans closed) (by simp)

/-- A path that no call on its way disturbs is as it should be. -/
theorem Kept.agrees (kept : Kept initial world) (path : Path) (visible : Visible path)
    (undisturbed : Undisturbed world path) :
    world.files.entry path = (replay initial world.effects).entry path := by
  by_cases shut : ∀ i, (world.tasks i).opened = false
  · exact kept.settled shut path visible
  obtain ⟨i, busy⟩ := not_forall.mp shut
  rw [Bool.not_eq_false] at busy
  cases task : world.tasks i with
  | free | agent | ended =>
    rw [task] at busy
    cases busy
  | call request existed phase =>
    rw [task] at busy
    have outside := undisturbed i request existed phase task busy
    have tracked := kept.tracked i request existed phase task
    cases phase with
    | staging => exact tracked.1 path visible
    | installing | measuring | emitting | rollState | release =>
      exact tracked.1.outside path visible outside
    | remove => exact Aside.outside tracked path visible outside
    | putBack => exact tracked.2.1.outside path visible outside
    | finish | discard | unknownDiscard | unknownFinish | returned => cases busy

/-- A call that has returned success has installed its content for good, up to the calls
after it: those were admitted later and have not failed. -/
structure Lasting (initial : Files) (world : World) : Prop where
  /-- The calls that took effect have succeeded, or their outcome is unknown. -/
  effective : ∀ effect ∈ world.effects, (world.tasks effect.1).effective = some effect.2
  /-- What clients see is what these calls installed, one after the other. -/
  agrees : ∀ path, Visible path → Undisturbed world path →
    world.files.entry path = (replay initial world.effects).entry path
  /-- What a call installed is there wherever no later one of them has written. -/
  lasts : ∀ i request existed, world.tasks i = .call request existed (.returned .succeeded) →
    ∃ before later, world.effects = before ++ (i, request) :: later ∧
      (∀ effect ∈ later, i < effect.1) ∧
      ∀ rest, Visible rest → Undisturbed world (request.target.path ++ rest) →
        (∀ effect ∈ later, ¬ effect.2.target.path <+: request.target.path ++ rest) →
        world.files.entry (request.target.path ++ rest) = request.content.entry rest

theorem Kept.lasting (kept : Kept initial world) : Lasting initial world := by
  refine ⟨kept.effective, kept.agrees, ?_⟩
  intro i request existed task
  obtain ⟨before, later, listed, parent, after⟩ :=
    kept.recorded i request (by simp [task, Task.announced, Phase.announced])
  refine ⟨before, later, listed, after, ?_⟩
  intro rest visible undisturbed elsewhere
  calc world.files.entry (request.target.path ++ rest)
      = (replay initial world.effects).entry (request.target.path ++ rest) :=
        kept.agrees _ (request.target.path_visible rest visible) undisturbed
    _ = (replay (applyRequest (replay initial before) request) later).entry
          (request.target.path ++ rest) := by
        rw [listed, replay_append]
        rfl
    _ = (applyRequest (replay initial before) request).entry (request.target.path ++ rest) :=
        replay_outside _ elsewhere
    _ = request.content.entry rest := applyRequest_inside _ parent

/-- In every run in which no call is admitted before the undo of another one, what calls
have installed lasts. -/
theorem orderly_installs_last (host : Host) (start world : World) (labels : List Label)
    (initial : Start start) (orderly : Runs.Meets (step host) Orderly start labels)
    (ran : Runs.run (step host) start labels = some world) : Lasting start.files world := by
  have kept : Kept start.files world := Runs.run_invariant (Kept start.files)
    (step_kept host start.files) (start_kept initial) orderly ran
  exact kept.lasting

/-- Write the file `a` where the sample's first call may have put one. -/
def sampleOverwrite : Request := .writeText ⟨[], "a"⟩ (text "other") .upsert ""

/-- A call fails and undoes its file. Another one then writes it and succeeds. -/
theorem orderly_installs_last_after_failure : ∃ world,
    Runs.run (step sampleHost) sampleWorld
      [.call sampleWrite "first" "", .proceed 0 {}, .proceed 0 {},
        .proceed 0 { token := "second" }, .proceed 0 { commit := { outcome := .rolledBack } },
        .proceed 0 {}, .proceed 0 {}, .proceed 0 {},
        .call sampleOverwrite "first" "", .proceed 1 {}, .proceed 1 {},
        .proceed 1 { token := "third" }, .proceed 1 {}, .proceed 1 {}, .proceed 1 {}] =
      some world ∧
    world.tasks 1 = .call sampleOverwrite false (.returned .succeeded) ∧
    Lasting sampleWorld.files world := by
  refine ⟨_, rfl, rfl, ?_⟩
  apply orderly_installs_last sampleHost sampleWorld _ [.call sampleWrite "first" "",
    .proceed 0 {}, .proceed 0 {}, .proceed 0 { token := "second" },
    .proceed 0 { commit := { outcome := .rolledBack } }, .proceed 0 {}, .proceed 0 {},
    .proceed 0 {}, .call sampleOverwrite "first" "", .proceed 1 {}, .proceed 1 {},
    .proceed 1 { token := "third" }, .proceed 1 {}, .proceed 1 {}, .proceed 1 {}]
    sampleWorld_start _ rfl
  decide

/-- Replace the file `a` whose revision is `rev`. -/
def sampleReplace : Request := .writeText ⟨[], "a"⟩ (text "other") .upsert "rev"

/-- The sink refuses a call. Its token is in force again and the lane is free before its
file is removed; a second call gets in, replaces the file and succeeds. Then the first
one removes what the second one wrote. -/
theorem undo_removes_other_call : ∃ world,
    Start sampleWorld ∧
    Runs.run (step sampleHost) sampleWorld
      [.call sampleWrite "first" "", .proceed 0 {}, .proceed 0 {},
        .proceed 0 { token := "second" }, .proceed 0 { commit := { outcome := .rolledBack } },
        .proceed 0 {}, .proceed 0 {},
        .call sampleReplace "first" "rev", .proceed 1 {}, .proceed 1 {},
        .proceed 1 { token := "third" }, .proceed 1 {}, .proceed 1 {}, .proceed 1 {},
        .proceed 0 {}] = some world ∧
    world.tasks 0 = .call sampleWrite false (.returned .failed) ∧
    world.tasks 1 = .call sampleReplace true (.returned .succeeded) ∧
    world.effects = [(1, sampleReplace)] ∧
    world.files.entry sampleReplace.target.path = none ∧
    ¬ Lasting sampleWorld.files world := by
  refine ⟨_, sampleWorld_start, rfl, rfl, rfl, rfl, by decide, ?_⟩
  have locks : Locks _ := Runs.run_kept Locks (fun _ _ _ => step_locks)
    (start_locks sampleWorld_start) (show Runs.run (step sampleHost) sampleWorld
      [.call sampleWrite "first" "", .proceed 0 {}, .proceed 0 {},
        .proceed 0 { token := "second" }, .proceed 0 { commit := { outcome := .rolledBack } },
        .proceed 0 {}, .proceed 0 {},
        .call sampleReplace "first" "rev", .proceed 1 {}, .proceed 1 {},
        .proceed 1 { token := "third" }, .proceed 1 {}, .proceed 1 {}, .proceed 1 {},
        .proceed 0 {}] = some _ from rfl)
  intro lasting
  have there := lasting.agrees sampleReplace.target.path (by simp [Visible, path,
    parent]) (locks.undisturbed (by decide) _)
  revert there
  decide

end CodexRemote.Mutations
