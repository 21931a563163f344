import CodexRemote.Library.Runs
import CodexRemote.Manager
import CodexRemote.Workspace

/-!
# A turn that is started and ended at once

`StartTurn` returns to the app-server's answer with three things to do: register the
turn as a workspace agent, mark the Codex as running, and publish the user's message.
The event loop meanwhile handles the turn's own notifications, the last of which ends
it: the view is cleared and the agent stopped. Each of these is its own critical
section, and a workspace transition is three, so the two goroutines interleave.

All storage succeeds in these runs; `applyAdapterEventLocked_stored` and its
neighbours show that then no operation fails, and a failed one is not continued.

The Codex ends up quiet exactly when the terminal event is applied after the start's
last step. Applied earlier, the terminal event finds nothing to end, and what the
start does afterwards is never undone.
-/
namespace CodexRemote.Codexes

open Protocol Workspace Activity

variable {m : Manager} {ws : WorkspaceState} {view : CurrentView}

/-- One thing a goroutine has to do. -/
inductive Op where
  | agent (agentID : String) (started : Bool)
  | running
  | accepted (parts : List UserMessagePart)
  | apply (event : AdapterEvent)
  deriving DecidableEq

/-- Where a goroutine stands in the workspace transition it is making. -/
inductive Phase where
  | idle
  | emitting (change : Transition)
  | finishing (lane : Nat)
  deriving DecidableEq

/-- A goroutine: what is left to do, the current operation included. -/
structure Actor where
  ops : List Op
  phase : Phase := .idle
  deriving DecidableEq

/-- What `StartTurn` does once the app-server has accepted the turn. -/
def startOps (turnID : String) (parts : List UserMessagePart) : List Op :=
  [.agent turnID true, .running, .accepted parts]

/-- What the event loop does with the terminal event. -/
def endOps (turnID : String) (last : AdapterEvent) : List Op :=
  [.apply last, .agent turnID false]

/-- Manager and workspace of one Codex, the two goroutines, and a supply of lanes. -/
structure World where
  manager : Manager
  workspace : WorkspaceState
  starter : Actor
  loop : Actor
  lanes : Nat := 0

/-- The turn all of this is about. -/
structure Turn where
  config : Config
  codexID : String
  turnID : String
  requestID : String
  parts : List UserMessagePart

/-- An operation of the Manager. Agents are not its business. -/
def perform (turn : Turn) (m : Manager) (now : Int) : Op → Manager × Except ManagerError Unit
  | .agent .. => (m, .ok ())
  | .running =>
      setRunning turn.config m turn.codexID turn.turnID turn.requestID now true (stored now)
        (stored now)
  | .accepted parts =>
      publishAcceptedUserMessage turn.config m turn.codexID turn.turnID parts turn.requestID now
        true (stored now)
  | .apply event =>
      applyAdapterEventLocked turn.config m event now true (stored now) (stored now)

/-- One step of a goroutine. Entering a transition waits for a free lane. -/
def advance (turn : Turn) (m : Manager) (ws : WorkspaceState) (lane : Nat) (actor : Actor)
    (now : Int) (token : String) : Option (Manager × WorkspaceState × Actor) :=
  match actor.phase, actor.ops with
  | .idle, [] => none
  | .idle, .agent agentID started :: rest =>
      if ws.pending = none ∧ ws.removed = false then
        match transition ws agentID started lane token now with
        | (ws, none) => some (m, ws, { ops := rest })
        | (ws, some change) => some (m, ws, { actor with phase := .emitting change })
      else none
  | .idle, op :: rest =>
      match perform turn m now op with
      | (m, .ok _) => some (m, ws, { ops := rest })
      | (_, .error _) => none
  | .emitting change, _ =>
      match commitWorkspaceState m turn.codexID change.attempted now (stored now) true true with
      | (m, .ok _) => some (m, ws, { actor with phase := .finishing change.lane })
      | (_, .error _) => none
  | .finishing lane, ops => some (m, finishPending ws lane, { ops := ops.tail })

/-- The scheduler's choice: which goroutine moves, at what time, and the token drawn
if one is. -/
structure Label where
  starts : Bool
  now : Int
  token : String

def turnStep (turn : Turn) (world : World) (label : Label) : Option World :=
  if label.starts then
    (advance turn world.manager world.workspace world.lanes world.starter label.now
      label.token).map fun (m, ws, actor) =>
        { world with manager := m, workspace := ws, starter := actor, lanes := world.lanes + 1 }
  else
    (advance turn world.manager world.workspace world.lanes world.loop label.now
      label.token).map fun (m, ws, actor) =>
        { world with manager := m, workspace := ws, loop := actor, lanes := world.lanes + 1 }

/-- What one step of a goroutine can be. -/
inductive Moves (turn : Turn) (m : Manager) (ws : WorkspaceState) (lane : Nat) (actor : Actor)
    (now : Int) (token : String) : Manager → WorkspaceState → Actor → Prop
  | inPlace (agentID : String) (started : Bool) (rest : List Op) (ws' : WorkspaceState)
      (phase : actor.phase = .idle) (ops : actor.ops = .agent agentID started :: rest)
      (free : ws.pending = none ∧ ws.removed = false)
      (entered : transition ws agentID started lane token now = (ws', none)) :
      Moves turn m ws lane actor now token m ws' { ops := rest }
  | enter (agentID : String) (started : Bool) (rest : List Op) (ws' : WorkspaceState)
      (change : Transition) (phase : actor.phase = .idle)
      (ops : actor.ops = .agent agentID started :: rest)
      (free : ws.pending = none ∧ ws.removed = false)
      (entered : transition ws agentID started lane token now = (ws', some change)) :
      Moves turn m ws lane actor now token m ws' { actor with phase := .emitting change }
  | perform (op : Op) (rest : List Op) (phase : actor.phase = .idle)
      (ops : actor.ops = op :: rest) (other : ∀ agentID started, op ≠ .agent agentID started)
      (succeeds : (perform turn m now op).2 = .ok ()) :
      Moves turn m ws lane actor now token (perform turn m now op).1 ws { ops := rest }
  | commit (change : Transition) (phase : actor.phase = .emitting change)
      (succeeds : (commitWorkspaceState m turn.codexID change.attempted now (stored now) true
        true).2 = .ok ()) :
      Moves turn m ws lane actor now token
        (commitWorkspaceState m turn.codexID change.attempted now (stored now) true true).1 ws
        { actor with phase := .finishing change.lane }
  | finish (held : Nat) (phase : actor.phase = .finishing held) :
      Moves turn m ws lane actor now token m (finishPending ws held) { ops := actor.ops.tail }

theorem advance_moves (moved : advance turn m ws lane actor now token = some (m', ws', actor')) :
    Moves turn m ws lane actor now token m' ws' actor' := by
  unfold advance at moved
  split at moved
  · cases moved
  · next agentID started rest phase ops =>
    split at moved
    · next free =>
      split at moved <;> cases moved
      · next after entered =>
        exact .inPlace agentID started rest _ phase ops free entered
      · next after change entered =>
        exact .enter agentID started rest _ change phase ops free entered
    · cases moved
  · next op rest other phase ops =>
    split at moved <;> cases moved
    next after performed =>
    have result := @Moves.perform turn m ws lane actor now token op rest phase ops other
      (by rw [performed])
    rwa [performed] at result
  · next change phase =>
    split at moved <;> cases moved
    next after committed =>
    have result := @Moves.commit turn m ws lane actor now token change phase (by rw [committed])
    rwa [committed] at result
  · next held phase =>
    cases moved
    exact .finish held phase

variable {label : Label}

/-- A step of the world is a step of one goroutine. -/
theorem turnStep_moves (stepped : turnStep turn world label = some next) :
    ∃ m ws actor,
      (label.starts = true ∧
        Moves turn world.manager world.workspace world.lanes world.starter label.now label.token
          m ws actor ∧
        next = { world with
          manager := m, workspace := ws, starter := actor, lanes := world.lanes + 1 }) ∨
      (label.starts = false ∧
        Moves turn world.manager world.workspace world.lanes world.loop label.now label.token
          m ws actor ∧
        next = { world with
          manager := m, workspace := ws, loop := actor, lanes := world.lanes + 1 }) := by
  unfold turnStep at stepped
  split at stepped
  · next starts =>
    obtain ⟨⟨m, ws, actor⟩, moved, rfl⟩ := Option.map_eq_some_iff.mp stepped
    exact ⟨m, ws, actor, .inl ⟨starts, advance_moves moved, rfl⟩⟩
  · next loops =>
    obtain ⟨⟨m, ws, actor⟩, moved, rfl⟩ := Option.map_eq_some_iff.mp stepped
    exact ⟨m, ws, actor, .inr ⟨by simpa using loops, advance_moves moved, rfl⟩⟩

/-- Who is in a transition has the agent's operation in front. -/
def Actor.Held (actor : Actor) : Prop :=
  actor.phase ≠ .idle → ∃ agentID started rest, actor.ops = .agent agentID started :: rest

section Moves

variable {turn : Turn} {m m' : Manager} {ws ws' : WorkspaceState} {lane : Nat}
  {actor actor' : Actor} {now : Int} {token : String}

section

variable (moved : Moves turn m ws lane actor now token m' ws' actor')
include moved

theorem Moves.held (held : actor.Held) : actor'.Held := by
  cases moved with
  | enter agentID started rest ws' change phase ops free entered =>
    intro _
    exact ⟨agentID, started, rest, ops⟩
  | commit change phase succeeds =>
    intro _
    apply held
    simp [phase]
  | inPlace | perform | finish => exact fun busy => absurd rfl busy

/-- A step finishes the operation in front or leaves it there. -/
theorem Moves.ops_or_tail : actor'.ops = actor.ops ∨ actor'.ops = actor.ops.tail := by
  cases moved with
  | inPlace agentID started rest ws' phase ops | perform op rest phase ops =>
    exact .inr (by simp [ops])
  | enter | commit => exact .inl rfl
  | finish => exact .inr rfl

theorem Moves.suffix : actor'.ops <:+ actor.ops := by
  rcases moved.ops_or_tail with same | dropped
  · rw [same]
  · rw [dropped]
    exact List.tail_suffix _

/-- A goroutine with nothing left to do does not move. -/
theorem Moves.ops_ne_nil (held : actor.Held) : actor.ops ≠ [] := by
  cases moved with
  | inPlace agentID started rest ws' phase ops | enter agentID started rest ws' change phase ops =>
    simp [ops]
  | perform op rest phase ops => simp [ops]
  | commit change phase | finish lane phase =>
    obtain ⟨agentID, started, rest, ops⟩ := held (by simp [phase])
    simp [ops]

end

/-- While an agent's operation is in front, a step leaves Codex and turn alone. -/
theorem Moves.agent_sameTurn (moved : Moves turn m ws lane actor now token m' ws' actor')
    (ops : actor.ops = .agent agentID started :: rest) (ready : Ready m turn.codexID view) :
    ∃ after, Ready m' turn.codexID after ∧ m'.byThread = m.byThread ∧ SameTurn view after := by
  cases moved with
  | inPlace | enter | finish => exact ⟨view, ready, rfl, rfl, rfl⟩
  | perform op rest' phase front other succeeds =>
    rw [ops] at front
    cases front
    exact absurd rfl (other agentID started)
  | commit change phase succeeds =>
    obtain ⟨after, -, committed, threads, same⟩ := commitWorkspaceState_stored change.attempted now
      now true true ready
    exact ⟨after, committed, threads, same⟩

/-- An operation of the Manager is one step. -/
theorem Moves.performs (moved : Moves turn m ws lane actor now token m' ws' actor')
    (held : actor.Held) (ops : actor.ops = op :: rest)
    (other : ∀ agentID started, op ≠ .agent agentID started) :
    actor.phase = .idle ∧ m' = (Codexes.perform turn m now op).1 ∧ ws' = ws ∧
      actor' = { ops := rest } := by
  have idle : actor.phase = .idle := by
    by_contra busy
    obtain ⟨agentID, started, others, front⟩ := held busy
    rw [ops] at front
    cases front
    exact other agentID started rfl
  cases moved with
  | perform op' rest' phase front =>
    rw [ops] at front
    cases front
    exact ⟨idle, rfl, rfl, rfl⟩
  | inPlace agentID started rest' ws' phase front
  | enter agentID started rest' ws' change phase front =>
    rw [ops] at front
    cases front
    exact absurd rfl (other agentID started)
  | commit change phase | finish lane phase => simp [idle] at phase

end Moves

/-- An operation of the Manager succeeds. A message leaves a turn, and a terminal
event leaves none. -/
theorem perform_stored (now : Int) (op : Op) (ready : Ready m turn.codexID view)
    (thread : ∀ event, op = .apply event → m.byThread event.threadID = some turn.codexID) :
    ∃ after, (perform turn m now op).2 = .ok () ∧
      Ready (perform turn m now op).1 turn.codexID after ∧
      (perform turn m now op).1.byThread = m.byThread ∧
      (∀ parts, op = .accepted parts → after.activeTurn.isSome) ∧
      (∀ event, op = .apply event → event.terminal = true → Quiet after) := by
  cases op with
  | agent agentID started => exact ⟨view, rfl, ready, rfl, by simp, by simp⟩
  | running =>
    have done := setRunning_stored turn.config turn.turnID turn.requestID now now now ready
    simp only [perform]
    exact ⟨_, done.1, done.2.1, done.2.2, by simp, by simp⟩
  | accepted parts =>
    have done := publishAcceptedUserMessage_stored turn.config turn.turnID turn.requestID parts now
      now ready
    simp only [perform]
    exact ⟨_, done.1, done.2.1, done.2.2, fun _ _ => rfl, by simp⟩
  | apply event =>
    have done := applyAdapterEventLocked_stored turn.config now now now ready (thread event rfl)
    simp only [perform]
    obtain ⟨after, succeeds, applied, threads, quiet⟩ := done
    refine ⟨after, succeeds, applied, threads, by simp, ?_⟩
    rintro _ ⟨⟩ terminal
    exact quiet terminal

/-- What the loop may have to do before the terminal event: notifications that end
nothing, and transitions of other agents. -/
def Early (turn : Turn) : Op → Prop
  | .agent agentID _ => agentID ≠ turn.turnID
  | .apply event => event.terminal = false
  | .running | .accepted _ => False

/-- The app-server has accepted the turn; neither goroutine has done anything yet. -/
structure Opening (turn : Turn) (last : AdapterEvent) (before : List Op) (world : World) :
    Prop where
  turnNamed : turn.turnID ≠ ""
  ready : ∃ view, Ready world.manager turn.codexID view
  threads : ∀ event, .apply event ∈ world.loop.ops →
    world.manager.byThread event.threadID = some turn.codexID
  starter : world.starter = { ops := startOps turn.turnID turn.parts }
  loop : world.loop = { ops := before ++ endOps turn.turnID last }
  early : ∀ op ∈ before, Early turn op
  terminal : last.terminal = true
  lastTurn : last.turnID = turn.turnID
  free : world.workspace.pending = none ∧ world.workspace.removed = false
  absent : turn.turnID ∉ world.workspace.agentIDs

/-- Both goroutines are through: the start has returned, the terminal event is
processed. -/
def World.finished (world : World) : Prop :=
  world.starter.ops = [] ∧ world.loop.ops = []

/-- No trace of the turn is left in the view or among the agents. -/
def Settled (turn : Turn) (world : World) : Prop :=
  (∃ view, world.manager.byID turn.codexID = some view ∧ Quiet view) ∧
    turn.turnID ∉ world.workspace.agentIDs

/-- The next thing the goroutine does is to apply a terminal event. -/
def Actor.closing (actor : Actor) : Bool :=
  match actor.phase, actor.ops with
  | .idle, .apply event :: _ => event.terminal
  | _, _ => false

/-- The loop applies a terminal event only when the start has nothing left to do. -/
def AfterStart (world : World) (label : Label) : Prop :=
  label.starts = false → world.loop.closing = true → world.starter.ops = []

instance (world : World) (label : Label) : Decidable (AfterStart world label) :=
  inferInstanceAs (Decidable (_ → _ → _))

/-- What holds of the start at all times. -/
structure Starting (turn : Turn) (world : World) : Prop where
  ready : ∃ view, Ready world.manager turn.codexID view
  starter : world.starter.ops <:+ startOps turn.turnID turn.parts
  starterHeld : world.starter.Held
  loopHeld : world.loop.Held

/-- The terminal event is still to be applied. -/
structure Open (turn : Turn) (last : AdapterEvent) (world : World) : Prop
    extends Starting turn world where
  threads : ∀ event, .apply event ∈ world.loop.ops →
    world.manager.byThread event.threadID = some turn.codexID
  loop : ∃ before, world.loop.ops = before ++ endOps turn.turnID last ∧
    ∀ op ∈ before, Early turn op

/-- The terminal event was applied before the start was through. What the start
leaves in the view at its end has nobody to remove it. -/
structure Missed (turn : Turn) (world : World) : Prop extends Starting turn world where
  loop : world.loop.ops <:+ [.agent turn.turnID false]
  stays : world.starter.ops = [] →
    ∃ view, world.manager.byID turn.codexID = some view ∧ view.activeTurn.isSome

/-- The terminal event was applied after the start. Only the agent is left to stop. -/
structure Closed (turn : Turn) (world : World) : Prop where
  ready : ∃ view, Ready world.manager turn.codexID view ∧ Quiet view
  starter : world.starter.ops = []
  starterHeld : world.starter.Held
  loopHeld : world.loop.Held
  loop : world.loop.ops <:+ [.agent turn.turnID false]
  stopped : world.loop.ops = [] ∨ world.loop.phase ≠ .idle →
    turn.turnID ∉ world.workspace.agentIDs

theorem Quiet.of_sameTurn (quiet : Quiet view) (same : SameTurn view after) :
    Quiet after :=
  ⟨same.2.trans quiet.activeTurn, fun codex present => quiet.codex codex (same.1 ▸ present)⟩

/-- A list that is a suffix of one operation is that operation or nothing. -/
theorem ops_of_suffix {ops : List Op} (short : ops <:+ [op]) (some_left : ops ≠ []) :
    ops = [op] := by
  rcases List.suffix_cons_iff.mp short with whole | none_left
  · exact whole
  · exact absurd (List.suffix_nil.mp none_left) some_left

/-- A transition that stops an agent leaves it out of the set, whether it was there
or not. -/
theorem transition_stopped (ws : WorkspaceState) (agentID : String) (lane : Nat) (token : String)
    (now : Int) : agentID ∉ (transition ws agentID false lane token now).1.agentIDs := by
  unfold transition
  split
  · next absent => simpa using absent
  · simp [WorkspaceState.withAgents]

theorem finishPending_agentIDs (ws : WorkspaceState) (lane : Nat) :
    (finishPending ws lane).agentIDs = ws.agentIDs := by
  unfold finishPending
  split <;> rfl

/-- Once closed, only the loop moves, and it stops the agent. -/
theorem step_closed (closed : Closed turn world)
    (stepped : turnStep turn world label = some next) : Closed turn next := by
  obtain ⟨view, ready, quiet⟩ := closed.ready
  obtain ⟨m, ws, actor, ⟨-, moved, rfl⟩ | ⟨-, moved, rfl⟩⟩ := turnStep_moves stepped
  · exact absurd closed.starter (moved.ops_ne_nil closed.starterHeld)
  have ops := ops_of_suffix closed.loop (moved.ops_ne_nil closed.loopHeld)
  obtain ⟨after, still, -, same⟩ := moved.agent_sameTurn ops ready
  refine ⟨⟨after, still, quiet.of_sameTurn same⟩, closed.starter, closed.starterHeld,
    moved.held closed.loopHeld, moved.suffix.trans closed.loop, ?_⟩
  -- The agent leaves the set when the transition is entered and nothing puts it back.
  cases moved with
  | inPlace agentID started rest ws' phase front free entered
  | enter agentID started rest ws' change phase front free entered =>
    rw [ops] at front
    cases front
    intro _
    have stopped := transition_stopped world.workspace turn.turnID world.lanes label.token label.now
    rwa [entered] at stopped
  | perform op rest phase front other succeeds =>
    rw [ops] at front
    cases front
    exact absurd rfl (other turn.turnID false)
  | commit change phase succeeds =>
    intro _
    exact closed.stopped (.inr (by simp [phase]))
  | finish held phase =>
    intro _
    rw [finishPending_agentIDs]
    exact closed.stopped (.inr (by simp [phase]))

/-- A step of the start keeps the Codex ready, and its last one leaves a turn in the
view. -/
theorem Starting.starter_moves (starting : Starting turn world)
    (moved : Moves turn world.manager world.workspace world.lanes world.starter label.now
      label.token m ws actor) :
    ∃ after, Ready m turn.codexID after ∧ m.byThread = world.manager.byThread ∧
      (actor.ops = [] → after.activeTurn.isSome) := by
  obtain ⟨view, ready⟩ := starting.ready
  have some_left := moved.ops_ne_nil starting.starterHeld
  -- The start is before its agent's transition, before the running view, or before
  -- the message.
  rcases List.suffix_cons_iff.mp starting.starter with ops | short
  · obtain ⟨after, still, threads, -⟩ := moved.agent_sameTurn ops ready
    refine ⟨after, still, threads, fun done => ?_⟩
    rcases moved.ops_or_tail with same | dropped
    · exact absurd (same.symm.trans done) some_left
    · simp [dropped, ops] at done
  rcases List.suffix_cons_iff.mp short with ops | shorter
  · obtain ⟨-, rfl, -, rfl⟩ := moved.performs starting.starterHeld ops (by simp)
    obtain ⟨after, -, still, threads, -⟩ := perform_stored label.now .running ready (by simp)
    exact ⟨after, still, threads, by simp⟩
  · have ops := ops_of_suffix shorter some_left
    obtain ⟨-, rfl, -, rfl⟩ := moved.performs starting.starterHeld ops (by simp)
    obtain ⟨after, -, still, threads, leaves, -⟩ := perform_stored label.now (.accepted turn.parts)
      ready (by simp)
    exact ⟨after, still, threads, fun _ => leaves turn.parts rfl⟩

/-- Once missed, the turn in the view stays: the loop's last operation is about the
agent only. -/
theorem step_missed (missed : Missed turn world)
    (stepped : turnStep turn world label = some next) : Missed turn next := by
  obtain ⟨m, ws, actor, ⟨-, moved, rfl⟩ | ⟨-, moved, rfl⟩⟩ := turnStep_moves stepped
  · obtain ⟨after, still, -, leaves⟩ := missed.toStarting.starter_moves moved
    exact
      { missed with
        ready := ⟨after, still⟩
        starter := moved.suffix.trans missed.starter
        starterHeld := moved.held missed.starterHeld
        stays := fun done => ⟨after, still.remembered, leaves done⟩ }
  · obtain ⟨view, ready⟩ := missed.ready
    have ops := ops_of_suffix missed.loop (moved.ops_ne_nil missed.loopHeld)
    obtain ⟨after, still, -, same⟩ := moved.agent_sameTurn ops ready
    refine
      { missed with
        ready := ⟨after, still⟩
        loopHeld := moved.held missed.loopHeld
        loop := moved.suffix.trans missed.loop
        stays := fun done => ⟨after, still.remembered, ?_⟩ }
    obtain ⟨old, remembered, some_turn⟩ := missed.stays done
    cases remembered.symm.trans ready.remembered
    rw [same.2]
    exact some_turn

/-- A step that does not apply the terminal event leaves it to be applied. -/
theorem step_open (opened : Open turn last world) (terminal : last.terminal = true)
    (other : label.starts = false → world.loop.closing = false)
    (stepped : turnStep turn world label = some next) : Open turn last next := by
  obtain ⟨m, ws, actor, ⟨-, moved, rfl⟩ | ⟨loops, moved, rfl⟩⟩ := turnStep_moves stepped
  · obtain ⟨after, still, threads, -⟩ := opened.toStarting.starter_moves moved
    exact
      { opened with
        ready := ⟨after, still⟩
        starter := moved.suffix.trans opened.starter
        starterHeld := moved.held opened.starterHeld
        threads := fun event member => threads ▸ opened.threads event member }
  obtain ⟨view, ready⟩ := opened.ready
  obtain ⟨before, ops, early⟩ := opened.loop
  have kept : (∃ after, Ready m turn.codexID after) ∧ m.byThread = world.manager.byThread ∧
      ∃ left, actor.ops = left ++ endOps turn.turnID last ∧ ∀ op ∈ left, Early turn op := by
    cases before with
    | nil =>
      -- The terminal event is in front, so this is the step that applies it.
      obtain ⟨idle, -⟩ := moved.performs opened.loopHeld ops (by simp)
      have closing : world.loop.closing = true := by
        simp [Actor.closing, idle, ops, endOps, terminal]
      rw [other loops] at closing
      cases closing
    | cons op rest =>
      have left : ∃ left, actor.ops = left ++ endOps turn.turnID last ∧
          ∀ op ∈ left, Early turn op := by
        rcases moved.ops_or_tail with same | dropped
        · exact ⟨op :: rest, same.trans ops, early⟩
        · exact ⟨rest, by rw [dropped, ops]; rfl, fun op member => early op (by simp [member])⟩
      cases op with
      | agent agentID started =>
        obtain ⟨after, still, threads, -⟩ := moved.agent_sameTurn ops ready
        exact ⟨⟨after, still⟩, threads, left⟩
      | apply event =>
        obtain ⟨-, rfl, -, rfl⟩ := moved.performs opened.loopHeld ops (by simp)
        obtain ⟨after, -, still, threads, -⟩ := perform_stored label.now (.apply event)
          ready fun event' same => by
            cases same
            exact opened.threads event (by simp [ops])
        exact ⟨⟨after, still⟩, threads, left⟩
      | running => exact (early .running (by simp)).elim
      | accepted parts => exact (early (.accepted parts) (by simp)).elim
  obtain ⟨still, threads, left⟩ := kept
  exact
    { opened with
      ready := still
      loopHeld := moved.held opened.loopHeld
      threads := fun event member =>
        threads ▸ opened.threads event (moved.suffix.subset member)
      loop := left }

/-- The step that applies the terminal event closes the turn if the start is through,
and misses it if not. -/
theorem step_closing (opened : Open turn last world) (terminal : last.terminal = true)
    (loops : label.starts = false) (closing : world.loop.closing = true)
    (stepped : turnStep turn world label = some next) :
    (world.starter.ops = [] → Closed turn next) ∧
      (world.starter.ops ≠ [] → Missed turn next) := by
  obtain ⟨m, ws, actor, ⟨starts, -, -⟩ | ⟨-, moved, rfl⟩⟩ := turnStep_moves stepped
  · rw [loops] at starts
    cases starts
  obtain ⟨view, ready⟩ := opened.ready
  obtain ⟨before, ops, early⟩ := opened.loop
  -- Nothing is left before the terminal event, since what comes before it ends nothing.
  have front : before = [] := by
    cases before with
    | nil => rfl
    | cons op rest =>
      have first := early op (by simp)
      cases op with
      | apply event =>
        simp only [Actor.closing, ops, List.cons_append] at closing
        split at closing
        · next same =>
          cases same
          rw [first] at closing
          cases closing
        · cases closing
      | agent agentID started => simp [Actor.closing, ops] at closing
      | running | accepted parts => exact first.elim
  subst front
  obtain ⟨-, rfl, rfl, rfl⟩ := moved.performs opened.loopHeld ops (by simp)
  obtain ⟨after, -, still, -, -, quiet⟩ := perform_stored label.now (.apply last)
    ready fun event same => by
      cases same
      exact opened.threads last (by simp [ops, endOps])
  constructor
  · intro through
    exact
      { ready := ⟨after, still, quiet last rfl terminal⟩
        starter := through
        starterHeld := opened.starterHeld
        loopHeld := moved.held opened.loopHeld
        loop := List.suffix_rfl
        stopped := by rintro (none_left | busy) <;> contradiction }
  · intro working
    exact
      { opened with
        ready := ⟨after, still⟩
        loopHeld := moved.held opened.loopHeld
        loop := List.suffix_rfl
        stays := fun through => absurd through working }

theorem Closed.settled (closed : Closed turn world)
    (finished : world.finished) : Settled turn world := by
  obtain ⟨view, ready, quiet⟩ := closed.ready
  exact ⟨⟨view, ready.remembered, quiet⟩, closed.stopped (.inl finished.2)⟩

theorem Missed.not_settled (missed : Missed turn world)
    (finished : world.finished) : ¬ Settled turn world := by
  rintro ⟨⟨view, remembered, quiet⟩, -⟩
  obtain ⟨other, remembered', some_turn⟩ := missed.stays finished.1
  cases remembered.symm.trans remembered'
  simp [quiet.activeTurn] at some_turn

/-- From a world in which the terminal event is still to be applied.

Proof: induction on the labels. Up to the terminal event every step meets the
condition; that event decides between `Closed` and `Missed`, and both are kept to the
end. -/
theorem open_settled_iff (turn : Turn) (last : AdapterEvent) (start final : World)
    (labels : List Label) (opened : Open turn last start) (terminal : last.terminal = true)
    (ran : Runs.run (turnStep turn) start labels = some final) (finished : final.finished) :
    Runs.Meets (turnStep turn) AfterStart start labels ↔ Settled turn final := by
  induction labels generalizing start with
  | nil =>
    obtain rfl : start = final := Option.some.inj ran
    obtain ⟨before, ops, -⟩ := opened.loop
    have none_left := finished.2
    simp [ops, endOps] at none_left
  | cons label rest ih =>
    obtain ⟨next, taken, following⟩ := Option.bind_eq_some_iff.mp ran
    rw [Runs.meets_cons_of_step _ _ taken]
    by_cases closes : label.starts = false ∧ start.loop.closing = true
    · obtain ⟨closed, missed⟩ := step_closing opened terminal closes.1 closes.2 taken
      by_cases through : start.starter.ops = []
      · have settled := (Runs.run_kept (Closed turn) (fun _ _ _ => step_closed)
          (closed through) following).settled finished
        have later := Runs.meets_of_invariant (turnStep turn) AfterStart (Closed turn)
          (fun _ _ _ => step_closed)
          (fun _ _ closed _ _ => closed.starter) next rest (closed through)
        exact iff_of_true ⟨fun _ _ => through, later⟩ settled
      · have unsettled := (Runs.run_kept (Missed turn) (fun _ _ _ => step_missed)
          (missed through) following).not_settled finished
        exact iff_of_false (fun meets => through (meets.1 closes.1 closes.2)) unsettled
    · have still := step_open opened terminal (fun loops => by simpa [loops] using closes) taken
      have first : AfterStart start label := fun loops closing => absurd ⟨loops, closing⟩ closes
      rw [← ih next still following]
      exact and_iff_right first

/-- When the start has returned and the terminal event is processed, no trace of the
turn is left if and only if the terminal event was applied after the start's last
step. -/
theorem finished_settled_iff (turn : Turn) (last : AdapterEvent) (before : List Op)
    (start final : World) (labels : List Label) (opening : Opening turn last before start)
    (ran : Runs.run (turnStep turn) start labels = some final) (finished : final.finished) :
    Runs.Meets (turnStep turn) AfterStart start labels ↔ Settled turn final := by
  apply open_settled_iff turn last start final labels _ opening.terminal ran finished
  exact
    { opening with
      starter := by rw [opening.starter]
      starterHeld := by rw [opening.starter]; exact fun busy => absurd rfl busy
      loopHeld := by rw [opening.loop]; exact fun busy => absurd rfl busy
      loop := ⟨before, by rw [opening.loop], opening.early⟩ }

def sampleTurn : Turn :=
  { config := sampleConfig, codexID := "cdx", turnID := "t", requestID := "req"
    parts := [.text (text "hi")] }

def sampleEnd : AdapterEvent :=
  { threadID := "thr", turnID := "t", body := .turnUpdated .completed 1 2 none }

def sampleStart : World :=
  { manager := sampleManager
    workspace :=
      { root := "/w", displayRoot := "/w"
        state := registeredState none "first" 1 }
    starter := { ops := startOps "t" [.text (text "hi")] }
    loop := { ops := endOps "t" sampleEnd } }

theorem sampleStart_opening : Opening sampleTurn sampleEnd [] sampleStart :=
  { turnNamed := by decide
    ready := ⟨{ codex := some sampleCodex }, by decide, rfl, rfl, rfl⟩
    threads := by
      intro event member
      rcases List.mem_cons.mp member with same | other
      · cases same
        rfl
      · simp at other
    starter := rfl
    loop := rfl
    early := by simp
    terminal := rfl
    lastTurn := rfl
    free := ⟨rfl, rfl⟩
    absent := by decide }

def starts : Label := ⟨true, 2, "second"⟩

def loops : Label := ⟨false, 3, "third"⟩

/-- The start runs to its end, then the loop ends the turn and stops its agent. -/
theorem finished_settled_in_order : ∃ final,
    Runs.run (turnStep sampleTurn) sampleStart
      [starts, starts, starts, starts, starts, loops, loops, loops, loops] = some final ∧
    final.finished ∧ Settled sampleTurn final := by
  refine ⟨_, rfl, ⟨rfl, rfl⟩, ?_⟩
  apply (finished_settled_iff sampleTurn sampleEnd [] sampleStart _
    [starts, starts, starts, starts, starts, loops, loops, loops, loops] sampleStart_opening rfl
    ⟨rfl, rfl⟩).mp
  decide

/-- The loop handles the terminal event before the start has registered its agent.
When both are through, the Codex runs a turn that is over, and the agent blocks the
workspace. -/
theorem early_end_leaves_turn : ∃ final view codex,
    Opening sampleTurn sampleEnd [] sampleStart ∧
    Runs.run (turnStep sampleTurn) sampleStart
      [loops, loops, starts, starts, starts, starts, starts] = some final ∧
    final.finished ∧ final.manager.byID "cdx" = some view ∧ view.codex = some codex ∧
    codex.activeTurnId = "t" ∧ codex.status = .running ∧ view.activeTurn.isSome ∧
    final.workspace.agentIDs = {"t"} ∧ ¬ Settled sampleTurn final := by
  refine ⟨_, _, _, sampleStart_opening, rfl, ⟨rfl, rfl⟩, rfl, rfl, rfl, rfl, rfl, by decide, ?_⟩
  rintro ⟨-, stopped⟩
  revert stopped
  decide

end CodexRemote.Codexes
