import CodexRemote.Mutations

/-!
# Files do not change under a running agent

A mutation is admitted while no agent is registered. For that to mean that none is
running, the set of agents must not lose one, and none may join while a mutation still
has something to do to the files. Live transitions see to both: they wait for
coordinator and lane.

Three things do not. `Register` of a restore throws the registered agents away, with a
new token in force until `RestoreAgent` puts some of them back, or for good where the
branch restores none. A definite failure of the sink takes a start back although the
agent runs. And agents can be registered while a call is on its way: `RestoreAgent`
does not wait for the lane, and after the lane is free the undo of a failed call is
still to come.
-/
namespace CodexRemote.Mutations

open Protocol Workspace Codexes Function Finset Option Mutations.Task

variable {world next : World} {task : Task} {i : Nat} {env : Env}

/-- A call that has not returned. -/
def Task.inFlight : Task → Bool
  | .call _ _ (.returned _) => false
  | .call .. => true
  | _ => false

/-- The transition of an agent that a failing sink would still take back. -/
def Task.change : Task → Option Transition
  | .agent change .emitting | .agent change .undoing => some change
  | _ => none

/-- The states a failing sink would take a call's announcement back from. -/
def Task.states : Task → Option (WorkspaceAccessState × WorkspaceAccessState)
  | .call _ _ (.emitting previous attempted) => some (previous, attempted)
  | .call _ _ (.rollState previous attempted) => some (previous, attempted)
  | _ => none

def World.NoCall (world : World) : Prop :=
  ∀ i < world.begun, (world.tasks i).inFlight = false

instance (world : World) : Decidable world.NoCall :=
  inferInstanceAs (Decidable (∀ i < world.begun, _))

/-- Taking a start back is not for an agent that runs. -/
def UndoesCarefully (world : World) : Task → Prop
  | .agent change .undoing => change.started = true →
      world.workspace.state = change.attempted → change.agentID ∉ world.running
  | _ => True

instance (world : World) : (task : Task) → Decidable (UndoesCarefully world task)
  | .agent _ .undoing => inferInstanceAs (Decidable (_ → _ → _))
  | .agent _ .emitting | .agent _ .finishing => isTrue trivial
  | .free | .ended | .call .. => isTrue trivial

/-- `Register` keeps the agents, unless all of them are over, and `RestoreAgent` is done
only while no call is in flight. -/
def RestoresCarefully (world : World) (resolved : String) (env : Env) : Restoring → Prop
  | ⟨plan, none, agents⟩ =>
      (registeredWorkspace world ⟨plan, none, agents⟩ resolved env).agentIDs =
          world.workspace.agentIDs ∨
        world.workspace.agentIDs ⊆ world.reported
  | ⟨_, some _, _ :: _⟩ => world.NoCall
  | ⟨_, some _, []⟩ => True

instance (world : World) (resolved : String) (env : Env) :
    (restoring : Restoring) → Decidable (RestoresCarefully world resolved env restoring)
  | ⟨_, none, _⟩ => inferInstanceAs (Decidable (_ ∨ _))
  | ⟨_, some _, _ :: _⟩ => inferInstanceAs (Decidable world.NoCall)
  | ⟨_, some _, []⟩ => isTrue trivial

/-- The step throws no running agent away and starts none beside a call: a live start,
too, waits until no call is in flight. -/
def Careful (world : World) : Label → Prop
  | .agent _ started _ => started = true → world.NoCall
  | .proceed i _ => UndoesCarefully world (world.tasks i)
  | .proceedRestore resolved env =>
      ∀ restoring ∈ world.restoring, RestoresCarefully world resolved env restoring
  | .call .. | .restore .. | .report _ => True

instance (world : World) : (label : Label) → Decidable (Careful world label)
  | .agent .. => inferInstanceAs (Decidable (_ → _))
  | .proceed i _ => inferInstanceAs (Decidable (UndoesCarefully world (world.tasks i)))
  | .proceedRestore resolved env => inferInstanceAs (Decidable
      (∀ restoring ∈ world.restoring, RestoresCarefully world resolved env restoring))
  | .call .. | .restore .. | .report _ => isTrue trivial

/-- What `undoTransition` would leave of the agents. -/
def undone (agents : Finset String) (change : Transition) : Finset String :=
  if change.started then agents.erase change.agentID else insert change.agentID agents

/-- A transition on its way can be taken back: the state it would put back counts the
agents it would leave. -/
structure Undoable (world : World) (change : Transition) : Prop where
  generation : change.attempted.generation ≤ world.workspace.state.generation
  /-- A stopped agent is over and registered no more, or is there again with a later state. -/
  stops : change.started = false → world.workspace.state = change.attempted →
    change.agentID ∈ world.reported ∧ change.agentID ∉ world.workspace.agentIDs
  back : world.workspace.state = change.attempted →
    change.previous.activeAgentCount = (undone world.workspace.agentIDs change).card

structure Guarded (world : World) : Prop where
  locks : Locks world
  /-- The state counts the registered agents. -/
  count : world.workspace.state.activeAgentCount = world.workspace.agentIDs.card
  /-- Whoever runs is registered. -/
  covered : world.running ⊆ world.workspace.agentIDs
  /-- Beside a call, only agents that are over are registered. -/
  calm : ∀ i, (world.tasks i).inFlight = true → world.workspace.agentIDs ⊆ world.reported
  changes : ∀ i change, (world.tasks i).change = some change → Undoable world change
  calls : ∀ i previous attempted, (world.tasks i).states = some (previous, attempted) →
    previous.activeAgentCount = attempted.activeAgentCount

theorem Guarded.noCall (guarded : Guarded world) (none_left : world.NoCall) (i : Nat) :
    (world.tasks i).inFlight = false := by
  by_cases begun : i < world.begun
  · exact none_left i begun
  · rw [guarded.locks.fresh i (by omega)]
    rfl

variable {change : Transition}

/-- A task with a transition or a call on its way to the sink has the lane. -/
theorem Task.laned_of_change (some_change : task.change = some change) : task.laned = true := by
  cases task with
  | agent => rfl
  | free | ended | call => simp [Task.change] at some_change

/-- While the lane is free no transition is on its way. -/
theorem Locks.change_eq_none (locks : Locks world) (free : world.workspace.pending = none)
    (i : Nat) : (world.tasks i).change = none := by
  by_contra some_change
  obtain ⟨change, found⟩ := ne_none_iff_exists'.mp some_change
  have held := locks.lane i (laned_of_change found)
  rw [free] at held
  cases held

/-- While a task has the lane no other has a transition on its way. -/
theorem Locks.change_eq_none_of_ne (locks : Locks world) (held : (world.tasks i).laned = true)
    (other : j ≠ i) : (world.tasks j).change = none := by
  by_contra some_change
  obtain ⟨change, found⟩ := ne_none_iff_exists'.mp some_change
  have both := (locks.lane j (laned_of_change found)).symm.trans (locks.lane i held)
  exact other (some.inj both)

section

variable (guarded : Guarded world)
include guarded

/-- A task moves and the access state stays. -/
theorem Guarded.put (locks : Locks next) (tasks : next.tasks = update world.tasks i task)
    (state : next.workspace.state = world.workspace.state)
    (agents : next.workspace.agentIDs = world.workspace.agentIDs) (owed : next.owed = world.owed)
    (reported : next.reported = world.reported)
    (flight : task.inFlight = true → (world.tasks i).inFlight = true)
    (change : ∀ change, task.change = some change → (world.tasks i).change = some change)
    (states : ∀ states, task.states = some states → (world.tasks i).states = some states) :
    Guarded next := by
  -- Whatever the moved task says about itself, it said before.
  have before : ∀ j, ((next.tasks j).inFlight = true → (world.tasks j).inFlight = true) ∧
      (∀ change, (next.tasks j).change = some change →
        (world.tasks j).change = some change) ∧
      (∀ states, (next.tasks j).states = some states →
        (world.tasks j).states = some states) := by
    intro j
    rw [tasks]
    by_cases same : j = i
    · subst same
      rw [update_self]
      exact ⟨flight, change, states⟩
    · rw [update_of_ne same]
      exact ⟨id, fun _ => id, fun _ => id⟩
  constructor
  · exact locks
  · rw [state, agents]
    exact guarded.count
  · rw [World.running, owed, reported, agents]
    exact guarded.covered
  · intro j busy
    rw [agents, reported]
    exact guarded.calm j ((before j).1 busy)
  · intro j change' found
    have undoable := guarded.changes j change' ((before j).2.1 change' found)
    constructor
    · rw [state]
      exact undoable.generation
    · rw [state, agents, reported]
      exact undoable.stops
    · rw [state, agents]
      exact undoable.back
  · intro j previous attempted found
    exact guarded.calls j previous attempted ((before j).2.2 _ found)

/-- No task moves and only the workspace or the histories change. -/
theorem Guarded.frame (locks : Locks next) (tasks : next.tasks = world.tasks)
    (count : next.workspace.state.activeAgentCount = next.workspace.agentIDs.card)
    (covered : next.running ⊆ next.workspace.agentIDs)
    (calm : ∀ i, (world.tasks i).inFlight = true → next.workspace.agentIDs ⊆ next.reported)
    (changes : ∀ change, Undoable world change → Undoable next change) : Guarded next := by
  refine ⟨locks, count, covered, ?_, ?_, ?_⟩
  · rw [tasks]
    exact calm
  · rw [tasks]
    exact fun i change found => changes change (guarded.changes i change found)
  · rw [tasks]
    exact guarded.calls

/-- A registered agent is started again. -/
theorem Guarded.heard (none_left : world.NoCall) (agentID : String)
    (there : agentID ∈ world.workspace.agentIDs) :
    Guarded { world with reported := world.heard agentID true } := by
  refine guarded.frame { guarded.locks with } rfl guarded.count ?_ ?_ ?_
  · intro agent runs
    obtain ⟨owed, alive⟩ := mem_sdiff.mp runs
    by_cases same : agent = agentID
    · exact same ▸ there
    · refine guarded.covered (mem_sdiff.mpr ⟨owed, fun ended => alive ?_⟩)
      exact mem_erase.mpr ⟨same, ended⟩
  · intro i busy
    rw [guarded.noCall none_left i] at busy
    cases busy
  · intro change undoable
    refine { undoable with stops := ?_ }
    intro stopped current
    obtain ⟨ended, absent⟩ := undoable.stops stopped current
    refine ⟨mem_erase.mpr ⟨?_, ended⟩, absent⟩
    rintro rfl
    exact absent there

/-- An agent joins or leaves by a live transition. -/
theorem Guarded.entered (careful : Careful world (.agent agentID started env))
    (free : world.open = true) (stops : started = false → agentID ∈ world.reported)
    (entered : transition world.workspace agentID started world.begun env.token env.now =
      (ws, some change))
    (locks : Locks ({ world with
      workspace := ws, reported := world.heard agentID started }.spawn
        (.agent change .emitting))) :
    Guarded ({ world with
      workspace := ws, reported := world.heard agentID started }.spawn
        (.agent change .emitting)) := by
  obtain ⟨moves, agents, state, -, -, rfl⟩ := transition_some _ _ _ _ _ _ _ _ entered
  have unused := guarded.locks.fresh world.begun le_rfl
  have others : ∀ i, (world.tasks i).change = none :=
    guarded.locks.change_eq_none (world.open_iff.mp free).2.1
  refine ⟨locks, ?_, ?_, ?_, ?_, ?_⟩
  · change ws.state.activeAgentCount = ws.agentIDs.card
    rw [state]
    rfl
  · intro agent runs
    change agent ∈ ws.agentIDs
    obtain ⟨owed, alive⟩ := mem_sdiff.mp runs
    rw [agents]
    cases started with
    | true =>
      by_cases same : agent = agentID
      · exact same ▸ mem_insert_self _ _
      · refine mem_insert_of_mem (guarded.covered (mem_sdiff.mpr ⟨owed, fun ended => alive ?_⟩))
        exact mem_erase.mpr ⟨same, ended⟩
    | false =>
      refine mem_erase.mpr ⟨?_, guarded.covered (mem_sdiff.mpr ⟨owed, alive⟩)⟩
      rintro rfl
      exact alive (stops rfl)
  · intro i busy
    change ws.agentIDs ⊆ world.heard agentID started
    obtain ⟨-, old⟩ := old_of_update busy (by simp [inFlight])
    rw [agents]
    cases started with
    | true =>
      rw [guarded.noCall (careful rfl) i] at old
      cases old
    | false => exact (erase_subset _ _).trans (guarded.calm i old)
  · intro i change found
    by_cases new : i = world.begun
    · subst new
      simp only [World.spawn, World.put, update_self, Task.change, some.injEq] at found
      subst found
      refine ⟨le_rfl, ?_, fun _ => ?_⟩
      · rintro rfl -
        exact ⟨stops rfl, agents ▸ notMem_erase _ _⟩
      -- Taking the change back leaves the agents there were.
      change world.workspace.state.activeAgentCount = (undone ws.agentIDs _).card
      rw [guarded.count, agents]
      cases started with
      | true =>
        have absent : agentID ∉ world.workspace.agentIDs := by simpa using moves
        simp [undone, erase_insert absent]
      | false =>
        have there : agentID ∈ world.workspace.agentIDs := by simpa using moves
        simp [undone, insert_erase there]
    · simp only [World.spawn, World.put, update_of_ne new, others i] at found
      cases found
  · intro i previous attempted found
    exact guarded.calls i previous attempted (old_of_update found (by simp [states])).2

/-- A call announces its change, or takes the announcement back: the state changes and
counts the same agents. -/
theorem Guarded.restated (locks : Locks next) (tasks : next.tasks = update world.tasks i task)
    (count : next.workspace.state.activeAgentCount =
      world.workspace.state.activeAgentCount)
    (agents : next.workspace.agentIDs = world.workspace.agentIDs) (owed : next.owed = world.owed)
    (reported : next.reported = world.reported) (busy : (world.tasks i).inFlight = true)
    (still : task.change = none) (others : ∀ j, j ≠ i → (world.tasks j).change = none)
    (states : ∀ previous attempted, task.states = some (previous, attempted) →
      previous.activeAgentCount = attempted.activeAgentCount) : Guarded next := by
  refine ⟨locks, ?_, ?_, ?_, ?_, ?_⟩
  · rw [count, agents]
    exact guarded.count
  · rw [World.running, owed, reported, agents]
    exact guarded.covered
  · intro _ _
    rw [agents, reported]
    exact guarded.calm i busy
  · intro j change found
    rw [tasks] at found
    obtain ⟨other, old⟩ := old_of_update found (by simp [still])
    rw [others j other] at old
    cases old
  · intro j previous attempted found
    rw [tasks] at found
    by_cases same : j = i
    · subst same
      rw [update_self] at found
      exact states previous attempted found
    · rw [update_of_ne same] at found
      exact guarded.calls j previous attempted found

theorem Guarded.callMoves (task : world.tasks i = .call request existed phase)
    (moved : CallMoves host world i request existed env phase next) : Guarded next := by
  have locks := guarded.locks.callMoves task moved
  -- Most steps leave the access state alone and add nothing to be taken back.
  have quiet : ∀ after : World, ∀ existed' phase', Locks after →
      after.tasks = update world.tasks i (.call request existed' phase') →
      after.workspace.state = world.workspace.state →
      after.workspace.agentIDs = world.workspace.agentIDs →
      after.owed = world.owed → after.reported = world.reported →
      (world.tasks i).inFlight = true →
      (∀ states, (call request existed' phase').states = some states →
        (world.tasks i).states = some states) → Guarded after := by
    intro after existed' phase' locks tasks state agents owed reported busy states
    exact guarded.put locks tasks state agents owed reported (fun _ => busy)
      (by simp [change]) states
  have free : (finishPending world.workspace i).state = world.workspace.state ∧
      (finishPending world.workspace i).agentIDs = world.workspace.agentIDs := by
    rw [finishPending_eq]
    exact ⟨rfl, rfl⟩
  cases moved with
  | absent | staged | notStaged | installed | notInstalled | notMeasured | stored | unknown
  | discarded | unknownDiscarded | restored =>
    exact quiet _ _ _ locks rfl rfl rfl rfl rfl (by simp [task, inFlight])
      (by simp [states])
  | failed previous attempted m unlocked sunk =>
    exact quiet _ _ _ locks rfl rfl rfl rfl rfl (by simp [task, inFlight])
      (by simp [task, states])
  | finished | unknownFinished | released =>
    exact quiet _ _ _ locks rfl free.1 free.2 rfl rfl (by simp [task, inFlight])
      (by simp [states])
  | removed =>
    exact quiet _ _ _ locks rfl rfl rfl rfl rfl (by simp [task, inFlight])
      (by cases existed <;> simp [states])
  | advanced =>
    have pending : world.workspace.pending = none := by
      apply guarded.locks.apart
      rw [guarded.locks.coordinator i (by simp [task, locked, Phase.locked])]
      simp
    refine guarded.restated locks rfl rfl rfl rfl rfl (by simp [task, inFlight]) rfl
      (fun j _ => guarded.locks.change_eq_none pending j) ?_
    rintro previous attempted ⟨⟩
    rfl
  | stateRolled previous attempted =>
    have same := guarded.calls i previous attempted (by simp [task, states])
    have held : (world.tasks i).laned = true := by simp [task, laned, Phase.laned]
    refine guarded.restated locks rfl ?_ ?_ rfl rfl (by simp [task, inFlight]) rfl
      (fun j other => guarded.locks.change_eq_none_of_ne held other) (by simp [states])
    · change (rollbackState world.workspace attempted previous).state.activeAgentCount = _
      unfold rollbackState
      split
      · next current =>
        rw [current]
        exact same
      · rfl
    · change (rollbackState world.workspace attempted previous).agentIDs = _
      unfold rollbackState
      split <;> rfl

end

end CodexRemote.Mutations
