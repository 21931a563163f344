import CodexRemote.Library.FileTree
import CodexRemote.Library.Runs
import CodexRemote.Restore
import CodexRemote.Workspace

/-!
# Agents, restores and mutations of one workspace

The system around `internal/workspace/service.go`: any number of agent transitions and
of `WriteText` and `Upload` calls on one Codex, together with restores of it.

Three things keep them apart. The coordinator is held by a call from its admission
until its content is in place, and by every other locked section for one step. The lane
is held from a change of the access state until its sink has answered; agents and calls
wait for it, a restore does not. The commit lock is held by a whole restore and by
every sink.

Nothing keeps the undo of a failed call apart from the rest. It runs after coordinator
and lane are free.

Every step below is one locked section or one file-system call. What the source leaves
to its surroundings is part of a label: how storage and file system answer, the clock,
random tokens, and what the app-server says. Two fields are history and read by no
step: the calls whose change was announced or may have been, and the agents that were
registered when a restore began. An agent that was reported terminal may be started
again, and counts as running from then on.
-/
namespace CodexRemote.Mutations

open Protocol Workspace Codexes Function

variable {i : Nat}

/-- A name in the workspace. Rollback names are drawn at random by the source; here
they are a kind of their own, one for each call. -/
inductive Name where
  | visible (name : String)
  | rollback (call : Nat)
  deriving DecidableEq

abbrev Path := List Name

abbrev Files := FileTree Name Text

/-- Where a call writes, as its canonical relative path has it. -/
structure Target where
  directory : List String
  name : String
  deriving DecidableEq

def Target.parent (target : Target) : Path := target.directory.map .visible

def Target.path (target : Target) : Path := target.parent ++ [.visible target.name]

/-- Where `stageTarget` of a call puts what it finds. -/
def Target.backup (target : Target) (call : Nat) : Path := target.parent ++ [.rollback call]

inductive WriteCondition where
  | unspecified
  | createOnly
  | replaceOnly
  | upsert
  deriving DecidableEq

/-- A call that passed the checks that need no workspace. An archive is given by the
tree it extracts to. -/
inductive Request where
  | writeText (target : Target) (content : Text) (condition : WriteCondition)
      (expectedRevision : String)
  | uploadFile (target : Target) (content : Text)
  | uploadArchive (target : Target) (tree : Files)

def Request.target : Request → Target
  | .writeText target .. => target
  | .uploadFile target _ => target
  | .uploadArchive target _ => target

def Request.content : Request → Files
  | .writeText _ content .. => .single content
  | .uploadFile _ content => .single content
  | .uploadArchive _ tree => tree

/-- `validateMutationTarget` for a regular file. The revision is that of what is there. -/
def validateMutationTarget (files : Files) (target : Target) (condition : WriteCondition)
    (expected revision : String) : Bool :=
  let found := files.entry target.path
  let conditionHolds := match condition with
    | .unspecified => false
    | .createOnly => expected = "" ∧ found.isNone
    | .replaceOnly => expected ≠ "" ∧ found.isSome
    | .upsert => decide (expected = "") = found.isNone
  conditionHolds && match found with
    | none => true
    | some (.file _) => expected = "" ∨ revision = expected
    | some _ => false

/-- `validateUploadTarget`. -/
def validateUploadTarget (files : Files) (target : Target) : Bool :=
  match files.entry target.path with
  | some .other => false
  | _ => true

/-- The checks of a call that look at the files. -/
def Request.validTarget (files : Files) (revision : String) : Request → Bool
  | .writeText target _ condition expected =>
      validateMutationTarget files target condition expected revision
  | .uploadFile target _ => validateUploadTarget files target
  | .uploadArchive target _ => validateUploadTarget files target

/-- The renames that end `atomicFile` and `extractZIPAtomic` can be done: a file does
not replace a directory, while `replaceTree` moves whatever is there out of the way. -/
def installable (files : Files) : Request → Bool
  | .writeText target .. | .uploadFile target _ => files.entry target.path ≠ some .directory
  | .uploadArchive _ tree => tree.entry [] = some .directory

/-- `atomicFile` and `extractZIPAtomic`. -/
def install (files : Files) (request : Request) : Option Files :=
  if isDirectory : files.entry request.target.parent = some .directory then
    if installable files request then
      some (files.graft request.target.parent (.visible request.target.name) request.content
        isDirectory)
    else none
  else none

inductive CallOutcome where
  | succeeded
  | unknown
  | failed
  deriving DecidableEq

/-- What a call does next. The first three are inside the coordinator. -/
inductive Phase where
  | staging
  | installing
  | measuring
  | emitting (previous attempted : WorkspaceAccessState)
  | finish
  | discard
  | unknownDiscard
  | unknownFinish
  | rollState (previous attempted : WorkspaceAccessState)
  | release
  | remove
  | putBack
  | returned (outcome : CallOutcome)
  deriving DecidableEq

inductive AgentPhase where
  | emitting
  | undoing
  | finishing
  deriving DecidableEq

/-- A goroutine in a workspace operation. A call remembers whether `stageTarget` found
something. -/
inductive Task where
  | free
  | agent (change : Transition) (phase : AgentPhase)
  | call (request : Request) (existed : Bool) (phase : Phase)
  | ended

/-- A restore of the Codex: its plan, the access state it has come to, and the agents
it has yet to put back. -/
structure Restoring where
  plan : RestorePlan
  access : Option WorkspaceAccessState := none
  agents : List String

/-- The workspace of the Codex with its goroutines. `reported` are the agents of which
the last word is that they are over. -/
structure World where
  manager : Manager
  workspace : WorkspaceState
  files : Files
  coordinator : Option Nat := none
  restoring : Option Restoring := none
  tasks : Nat → Task := fun _ => .free
  begun : Nat := 0
  reported : Finset String := ∅
  effects : List (Nat × Request) := []
  owed : Finset String := ∅

/-- The Codex and the Manager's configuration. -/
structure Host where
  config : Config
  codexID : String

/-- What the surroundings answer to one step. -/
structure Env where
  succeeds : Bool := true
  now : Int := 0
  token : String := ""
  commit : Commit := {}
  reads : Bool := true
  reloads : Bool := true

inductive Label where
  | agent (agentID : String) (started : Bool) (env : Env)
  | call (request : Request) (token revision : String)
  | proceed (task : Nat) (env : Env)
  | restore (now : Int) (owner : String) (read : ThreadRead) (reads : Bool)
  | proceedRestore (resolved : String) (env : Env)
  | report (agentID : String)

/-- The agents a restore found registered and that are not over: they were never reported
terminal, or were started again since. -/
def World.running (world : World) : Finset String := world.owed \ world.reported

/-- Locked sections that wait for coordinator and lane. -/
def World.open (world : World) : Bool :=
  world.coordinator = none ∧ world.workspace.pending = none ∧ world.workspace.removed = false

/-- When an agent is started or stopped: stopping follows a terminal report. -/
def World.asks (world : World) (agentID : String) (started : Bool) : Bool :=
  if started then agentID ≠ "" else agentID ∈ world.reported

/-- The agents that are over, behind a start or a stop. -/
def World.heard (world : World) (agentID : String) (started : Bool) : Finset String :=
  if started then world.reported.erase agentID else world.reported

def World.put (world : World) (i : Nat) (task : Task) : World :=
  { world with tasks := update world.tasks i task }

/-- A new goroutine. -/
def World.spawn (world : World) (task : Task) : World :=
  { world.put world.begun task with begun := world.begun + 1 }

/-- How the sink answers. -/
inductive Sunk where
  | stored
  | unknown
  | failed
  deriving DecidableEq

/-- The Manager's sink. -/
def sink (host : Host) (m : Manager) (state : WorkspaceAccessState) (env : Env) :
    Manager × Sunk :=
  match commitWorkspaceState m host.codexID state env.now env.commit env.reads env.reloads with
  | (after, .ok _) => (after, .stored)
  | (after, .error error) => (after, if error.outcomeUnknown then .unknown else .failed)

/-- The rest of `AgentStarted` and `AgentStopped`. Only a definite failure is undone. -/
def proceedAgent (host : Host) (world : World) (i : Nat) (change : Transition)
    (env : Env) : AgentPhase → Option World
  | .emitting =>
      if world.restoring.isSome then none
      else
        match sink host world.manager change.attempted env with
        | (m, .failed) => some ({ world with manager := m }.put i (.agent change .undoing))
        | (m, _) => some ({ world with manager := m }.put i (.agent change .finishing))
  | .undoing =>
      some ({ world with workspace := undoTransition world.workspace change }.put i
        (.agent change .finishing))
  | .finishing =>
      some ({ world with workspace := finishPending world.workspace change.lane }.put i .ended)

/-- `discard` of the backup, if there is one. -/
def discardBackup (files : Files) (request : Request) (existed : Bool) (i : Nat) : Files :=
  if existed then files.removeAll (request.target.backup i) else files

/-- The rest of `WriteText` and `Upload`, one file-system call or locked section at a
time. `rollback` is `remove` and, if something was staged, `putBack`. -/
def proceedCall (host : Host) (world : World) (i : Nat) (request : Request) (existed : Bool)
    (env : Env) : Phase → Option World
  | .staging =>
      if env.succeeds ∧ world.files.entry request.target.path = none then
        some (world.put i (.call request false .installing))
      else
        match if env.succeeds then world.files.move request.target.path request.target.parent
            (.rollback i) else none with
        | some files =>
            some ({ world with files := files }.put i (.call request true .installing))
        | none => some ({ world with coordinator := none }.put i
            (.call request false (.returned .failed)))
  | .installing =>
      match if env.succeeds then install world.files request else none with
      | some files =>
          some ({ world with files := files }.put i (.call request existed .measuring))
      | none => some ({ world with coordinator := none }.put i (.call request existed .remove))
  | .measuring =>
      if env.succeeds then
        let advanced := advanceMutation world.workspace i env.token env.now
        some ({ world with workspace := advanced, coordinator := none }.put i
          (.call request existed (.emitting world.workspace.state advanced.state)))
      else some ({ world with coordinator := none }.put i (.call request existed .remove))
  | .emitting previous attempted =>
      if world.restoring.isSome then none
      else
        match sink host world.manager attempted env with
        | (m, .stored) => some ({ world with
            manager := m, effects := world.effects ++ [(i, request)] }.put i
              (.call request existed .finish))
        | (m, .unknown) => some ({ world with
            manager := m, effects := world.effects ++ [(i, request)] }.put i
              (.call request existed .unknownDiscard))
        | (m, .failed) => some ({ world with manager := m }.put i
            (.call request existed (.rollState previous attempted)))
  | .finish => some ({ world with workspace := finishPending world.workspace i }.put i
      (.call request existed .discard))
  | .discard => some ({ world with files := discardBackup world.files request existed i }.put i
      (.call request existed (.returned .succeeded)))
  | .unknownDiscard =>
      some ({ world with files := discardBackup world.files request existed i }.put i
        (.call request existed .unknownFinish))
  | .unknownFinish => some ({ world with workspace := finishPending world.workspace i }.put i
      (.call request existed (.returned .unknown)))
  | .rollState previous attempted =>
      some ({ world with workspace := rollbackState world.workspace attempted previous }.put i
        (.call request existed .release))
  | .release => some ({ world with workspace := finishPending world.workspace i }.put i
      (.call request existed .remove))
  | .remove => some ({ world with files := world.files.removeAll request.target.path }.put i
      (.call request existed (if existed then .putBack else .returned .failed)))
  | .putBack =>
      some ({ world with
        files := (world.files.move (request.target.backup i) request.target.parent
          (.visible request.target.name)).getD world.files }.put i
            (.call request existed (.returned .failed)))
  | .returned _ => none

/-- The rest of a restore: `Register`, one `RestoreAgent` after the other, and the end. -/
def proceedRestore (world : World) (restoring : Restoring) (resolved : String) (env : Env) :
    Option World :=
  match restoring.access, restoring.agents with
  | none, _ =>
      if world.coordinator ≠ none then none
      else if env.succeeds then
        let registered := register (some world.workspace) restoring.plan.record.cwd resolved
          restoring.plan.view.workspaceAccessState env.token env.now
        some { world with
          workspace := registered
          owed := world.owed ∪ world.workspace.agentIDs
          restoring := some { restoring with access := some registered.state } }
      else some { world with restoring := none }
  | some _, agentID :: rest =>
      if world.coordinator ≠ none ∨ world.workspace.removed = true then none
      else
        let restored := restoreAgent world.workspace agentID env.now
        some { world with
          workspace := restored
          reported := world.heard (restoredName agentID) true
          restoring := some { restoring with access := some restored.state, agents := rest } }
  | some access, [] =>
      some { world with
        manager := (finishRestore world.manager restoring.plan access env.succeeds).1
        restoring := none }

/-- One step. A call that is refused changes nothing and is no step. -/
def step (host : Host) (world : World) : Label → Option World
  | .agent agentID started env =>
      if world.open ∧ world.asks agentID started then
        match transition world.workspace agentID started world.begun env.token env.now with
        | (_, none) =>
            some ({ world with reported := world.heard agentID started }.spawn .ended)
        | (ws, some change) =>
            some ({ world with
              workspace := ws, reported := world.heard agentID started }.spawn
                (.agent change .emitting))
      else none
  | .call request token revision =>
      if world.open ∧ world.files.entry request.target.parent = some .directory ∧
          validateMutationState world.workspace token ∧
          request.validTarget world.files revision then
        some ({ world with coordinator := some world.begun }.spawn
          (.call request false .staging))
      else none
  | .proceed i env =>
      match world.tasks i with
      | .free | .ended => none
      | .agent change phase => proceedAgent host world i change env phase
      | .call request existed phase => proceedCall host world i request existed env phase
  | .restore now owner read reads =>
      match world.restoring, world.manager.events.disk.codexes host.codexID with
      | none, some row =>
          (restorePlan host.config now row owner read reads).map fun plan =>
            { world with restoring := some { plan := plan, agents := plan.agents } }
      | _, _ => none
  | .proceedRestore resolved env =>
      match world.restoring with
      | none => none
      | some restoring => proceedRestore world restoring resolved env
  | .report agentID => some { world with reported := insert agentID world.reported }

/-- What a step of a call can be. -/
inductive CallMoves (host : Host) (world : World) (i : Nat) (request : Request)
    (existed : Bool) (env : Env) : Phase → World → Prop
  | absent (nothing : world.files.entry request.target.path = none) :
      CallMoves host world i request existed env .staging
        (world.put i (.call request false .installing))
  | staged (files : Files)
      (moved : world.files.move request.target.path request.target.parent (.rollback i) =
        some files) :
      CallMoves host world i request existed env .staging
        ({ world with files := files }.put i (.call request true .installing))
  | notStaged :
      CallMoves host world i request existed env .staging
        ({ world with coordinator := none }.put i (.call request false (.returned .failed)))
  | installed (files : Files) (installs : install world.files request = some files) :
      CallMoves host world i request existed env .installing
        ({ world with files := files }.put i (.call request existed .measuring))
  | notInstalled :
      CallMoves host world i request existed env .installing
        ({ world with coordinator := none }.put i (.call request existed .remove))
  | advanced :
      CallMoves host world i request existed env .measuring
        ({ world with
          workspace := advanceMutation world.workspace i env.token env.now
          coordinator := none }.put i (.call request existed
            (.emitting world.workspace.state
              (advanceMutation world.workspace i env.token env.now).state)))
  | notMeasured :
      CallMoves host world i request existed env .measuring
        ({ world with coordinator := none }.put i (.call request existed .remove))
  | stored (previous attempted : WorkspaceAccessState) (m : Manager)
      (unlocked : world.restoring = none)
      (sunk : sink host world.manager attempted env = (m, .stored)) :
      CallMoves host world i request existed env (.emitting previous attempted)
        ({ world with manager := m, effects := world.effects ++ [(i, request)] }.put i
          (.call request existed .finish))
  | unknown (previous attempted : WorkspaceAccessState) (m : Manager)
      (unlocked : world.restoring = none)
      (sunk : sink host world.manager attempted env = (m, .unknown)) :
      CallMoves host world i request existed env (.emitting previous attempted)
        ({ world with manager := m, effects := world.effects ++ [(i, request)] }.put i
          (.call request existed .unknownDiscard))
  | failed (previous attempted : WorkspaceAccessState) (m : Manager)
      (unlocked : world.restoring = none)
      (sunk : sink host world.manager attempted env = (m, .failed)) :
      CallMoves host world i request existed env (.emitting previous attempted)
        ({ world with manager := m }.put i
          (.call request existed (.rollState previous attempted)))
  | finished :
      CallMoves host world i request existed env .finish
        ({ world with workspace := finishPending world.workspace i }.put i
          (.call request existed .discard))
  | discarded :
      CallMoves host world i request existed env .discard
        ({ world with files := discardBackup world.files request existed i }.put i
          (.call request existed (.returned .succeeded)))
  | unknownDiscarded :
      CallMoves host world i request existed env .unknownDiscard
        ({ world with files := discardBackup world.files request existed i }.put i
          (.call request existed .unknownFinish))
  | unknownFinished :
      CallMoves host world i request existed env .unknownFinish
        ({ world with workspace := finishPending world.workspace i }.put i
          (.call request existed (.returned .unknown)))
  | stateRolled (previous attempted : WorkspaceAccessState) :
      CallMoves host world i request existed env (.rollState previous attempted)
        ({ world with workspace := rollbackState world.workspace attempted previous }.put i
          (.call request existed .release))
  | released :
      CallMoves host world i request existed env .release
        ({ world with workspace := finishPending world.workspace i }.put i
          (.call request existed .remove))
  | removed :
      CallMoves host world i request existed env .remove
        ({ world with files := world.files.removeAll request.target.path }.put i
          (.call request existed (if existed then .putBack else .returned .failed)))
  | restored :
      CallMoves host world i request existed env .putBack
        ({ world with
          files := (world.files.move (request.target.backup i) request.target.parent
            (.visible request.target.name)).getD world.files }.put i
              (.call request existed (.returned .failed)))

variable {env : Env} {host : Host} {world next : World}

theorem proceedCall_moves (moved : proceedCall host world i request existed env phase = some next) :
    CallMoves host world i request existed env phase next := by
  cases phase with
  | staging =>
    simp only [proceedCall] at moved
    split at moved
    · next nothing =>
      cases moved
      exact .absent nothing.2
    · split at moved <;> cases moved
      · next files found =>
        split at found
        · exact .staged files found
        · cases found
      · exact .notStaged
  | installing =>
    simp only [proceedCall] at moved
    split at moved <;> cases moved
    · next files found =>
      split at found
      · exact .installed files found
      · cases found
    · exact .notInstalled
  | measuring =>
    simp only [proceedCall] at moved
    split at moved <;> cases moved
    · exact .advanced
    · exact .notMeasured
  | emitting previous attempted =>
    simp only [proceedCall] at moved
    split at moved
    · cases moved
    next unlocked =>
    rw [Option.not_isSome_iff_eq_none] at unlocked
    split at moved <;> cases moved
    · next m sunk =>
      exact .stored previous attempted m unlocked sunk
    · next m sunk =>
      exact .unknown previous attempted m unlocked sunk
    · next m sunk =>
      exact .failed previous attempted m unlocked sunk
  | finish => cases moved; exact .finished
  | discard => cases moved; exact .discarded
  | unknownDiscard => cases moved; exact .unknownDiscarded
  | unknownFinish => cases moved; exact .unknownFinished
  | rollState previous attempted => cases moved; exact .stateRolled previous attempted
  | release => cases moved; exact .released
  | remove => cases moved; exact .removed
  | putBack => cases moved; exact .restored
  | returned outcome => cases moved

/-- What a step of an agent transition can be. -/
inductive AgentMoves (host : Host) (world : World) (i : Nat) (change : Transition) (env : Env) :
    AgentPhase → World → Prop
  | kept (m : Manager) (answer : Sunk) (unlocked : world.restoring = none)
      (sunk : sink host world.manager change.attempted env = (m, answer))
      (lasting : answer ≠ .failed) :
      AgentMoves host world i change env .emitting
        ({ world with manager := m }.put i (.agent change .finishing))
  | failed (m : Manager) (unlocked : world.restoring = none)
      (sunk : sink host world.manager change.attempted env = (m, .failed)) :
      AgentMoves host world i change env .emitting
        ({ world with manager := m }.put i (.agent change .undoing))
  | undone :
      AgentMoves host world i change env .undoing
        ({ world with workspace := undoTransition world.workspace change }.put i
          (.agent change .finishing))
  | finished :
      AgentMoves host world i change env .finishing
        ({ world with workspace := finishPending world.workspace change.lane }.put i .ended)

theorem proceedAgent_moves (host : Host) (world next : World) (i : Nat) (change : Transition)
    (env : Env) (phase : AgentPhase)
    (moved : proceedAgent host world i change env phase = some next) :
    AgentMoves host world i change env phase next := by
  cases phase with
  | emitting =>
    simp only [proceedAgent] at moved
    split at moved
    · cases moved
    next unlocked =>
    rw [Option.not_isSome_iff_eq_none] at unlocked
    split at moved <;> cases moved
    · next m sunk =>
      exact .failed m unlocked sunk
    · next m answer lasting sunk =>
      exact .kept m answer unlocked sunk lasting
  | undoing => cases moved; exact .undone
  | finishing => cases moved; exact .finished

/-- The workspace after the `Register` of a restore. -/
def registeredWorkspace (world : World) (restoring : Restoring) (resolved : String)
    (env : Env) : WorkspaceState :=
  register (some world.workspace) restoring.plan.record.cwd resolved
    restoring.plan.view.workspaceAccessState env.token env.now

/-- What a step of a restore can be. -/
inductive RestoreMoves (world : World) (restoring : Restoring) (resolved : String)
    (env : Env) : World → Prop
  | registered (first : restoring.access = none) (unlocked : world.coordinator = none) :
      RestoreMoves world restoring resolved env { world with
        workspace := registeredWorkspace world restoring resolved env
        owed := world.owed ∪ world.workspace.agentIDs
        restoring := some { restoring with
          access := some (registeredWorkspace world restoring resolved env).state } }
  | notRegistered (first : restoring.access = none) (unlocked : world.coordinator = none) :
      RestoreMoves world restoring resolved env { world with restoring := none }
  | agentRestored (agentID : String) (rest : List String) (later : restoring.access ≠ none)
      (agents : restoring.agents = agentID :: rest) (unlocked : world.coordinator = none)
      (present : world.workspace.removed = false) :
      RestoreMoves world restoring resolved env { world with
        workspace := restoreAgent world.workspace agentID env.now
        reported := world.heard (restoredName agentID) true
        restoring := some { restoring with
          access := some (restoreAgent world.workspace agentID env.now).state
          agents := rest } }
  | ended (access : WorkspaceAccessState) (last : restoring.access = some access)
      (agents : restoring.agents = []) :
      RestoreMoves world restoring resolved env { world with
        manager := (finishRestore world.manager restoring.plan access env.succeeds).1
        restoring := none }

theorem proceedRestore_moves (moved : proceedRestore world restoring resolved env = some next) :
    RestoreMoves world restoring resolved env next := by
  unfold proceedRestore at moved
  split at moved
  · next first =>
    split at moved
    · cases moved
    next unlocked =>
    rw [not_not] at unlocked
    split at moved <;> cases moved
    · exact .registered first unlocked
    · exact .notRegistered first unlocked
  · next access agentID rest later agents =>
    split at moved
    · cases moved
    next guards =>
    rw [not_or, not_not, Bool.not_eq_true] at guards
    cases moved
    exact .agentRestored agentID rest (by simp [later]) agents guards.1 guards.2
  · next access last agents =>
    cases moved
    exact .ended access last agents

/-- What a step can be. -/
inductive Moves (host : Host) (world : World) : Label → World → Prop
  | inPlace (agentID : String) (started : Bool) (env : Env) (free : world.open = true)
      (there : decide (agentID ∈ world.workspace.agentIDs) = started) :
      Moves host world (.agent agentID started env)
        ({ world with reported := world.heard agentID started }.spawn .ended)
  | enter (agentID : String) (started : Bool) (env : Env) (ws : WorkspaceState)
      (change : Transition) (free : world.open = true)
      (stops : started = false → agentID ∈ world.reported)
      (entered : transition world.workspace agentID started world.begun env.token env.now =
        (ws, some change)) :
      Moves host world (.agent agentID started env)
        ({ world with workspace := ws, reported := world.heard agentID started }.spawn
          (.agent change .emitting))
  | admitted (request : Request) (token revision : String) (free : world.open = true)
      (parent : world.files.entry request.target.parent = some .directory)
      (valid : validateMutationState world.workspace token = true)
      (target : request.validTarget world.files revision = true) :
      Moves host world (.call request token revision)
        ({ world with coordinator := some world.begun }.spawn (.call request false .staging))
  | agent (i : Nat) (env : Env) (change : Transition) (phase : AgentPhase) (next : World)
      (task : world.tasks i = .agent change phase)
      (moved : AgentMoves host world i change env phase next) :
      Moves host world (.proceed i env) next
  | call (i : Nat) (env : Env) (request : Request) (existed : Bool) (phase : Phase)
      (next : World) (task : world.tasks i = .call request existed phase)
      (moved : CallMoves host world i request existed env phase next) :
      Moves host world (.proceed i env) next
  | begun (now : Int) (owner : String) (read : ThreadRead) (reads : Bool)
      (row : Persistence.CodexRecord) (plan : RestorePlan) (unlocked : world.restoring = none)
      (stored : world.manager.events.disk.codexes host.codexID = some row)
      (planned : restorePlan host.config now row owner read reads = some plan) :
      Moves host world (.restore now owner read reads)
        { world with restoring := some { plan := plan, agents := plan.agents } }
  | restoring (resolved : String) (env : Env) (restoring : Restoring) (next : World)
      (current : world.restoring = some restoring)
      (moved : RestoreMoves world restoring resolved env next) :
      Moves host world (.proceedRestore resolved env) next
  | reported (agentID : String) :
      Moves host world (.report agentID)
        { world with reported := insert agentID world.reported }

theorem step_moves (host : Host) (world next : World) (label : Label)
    (stepped : step host world label = some next) : Moves host world label next := by
  cases label with
  | agent agentID started env =>
    simp only [step] at stepped
    split at stepped
    · next guards =>
      split at stepped <;> cases stepped
      · next entered =>
        exact .inPlace agentID started env guards.1 (transition_none entered)
      · next ws change entered =>
        refine .enter agentID started env ws change guards.1 ?_ entered
        rintro rfl
        simpa [World.asks] using guards.2
    · cases stepped
  | call request token revision =>
    simp only [step] at stepped
    split at stepped <;> cases stepped
    next guards =>
    exact .admitted request token revision guards.1 guards.2.1 guards.2.2.1 guards.2.2.2
  | proceed i env =>
    simp only [step] at stepped
    split at stepped
    · cases stepped
    · cases stepped
    · next change phase task =>
      exact .agent i env change phase next task
        (proceedAgent_moves host world next i change env phase stepped)
    · next request existed phase task =>
      exact .call i env request existed phase next task (proceedCall_moves stepped)
  | restore now owner read reads =>
    simp only [step] at stepped
    split at stepped
    · next row unlocked stored =>
      obtain ⟨plan, planned, rfl⟩ := Option.map_eq_some_iff.mp stepped
      exact .begun now owner read reads row plan unlocked stored planned
    · cases stepped
  | proceedRestore resolved env =>
    simp only [step] at stepped
    split at stepped
    · cases stepped
    · next restoring current =>
      exact .restoring resolved env restoring next current (proceedRestore_moves stepped)
  | report agentID =>
    cases stepped
    exact .reported agentID

def Phase.locked : Phase → Bool
  | .staging | .installing | .measuring => true
  | _ => false

def Phase.laned : Phase → Bool
  | .emitting .. | .finish | .unknownDiscard | .unknownFinish | .rollState .. | .release => true
  | _ => false

/-- The task is inside the coordinator. -/
def Task.locked : Task → Bool
  | .call _ _ phase => phase.locked
  | _ => false

/-- The task holds the lane. -/
def Task.laned : Task → Bool
  | .agent .. => true
  | .call _ _ phase => phase.laned
  | _ => false

variable {task : Task}

/-- What is read off a task and not off the one that moved was there before. -/
theorem old_of_update {Value : Type} {tasks : Nat → Task} {j : Nat}
    {read : Task → Value} {value : Value} (found : read (update tasks i task j) = value)
    (new : read task ≠ value) : j ≠ i ∧ read (tasks j) = value := by
  have other : j ≠ i := by
    rintro rfl
    rw [update_self] at found
    exact new found
  rw [update_of_ne other] at found
  exact ⟨other, found⟩

/-- How the owner of a lock follows from what one task held and what it holds now. -/
inductive Passes (i : Nat) (held holds : Bool) : Option Nat → Option Nat → Prop
  | kept (owner : Option Nat) (still : holds = true → held = true) :
      Passes i held holds owner owner
  | released (owner : Option Nat) (was : held = true) (gone : holds = false) :
      Passes i held holds owner none
  | taken : Passes i held holds none (some i)

/-- Who holds a lock owns it, also after one task has moved. -/
theorem Passes.owns {tasks : Nat → Task} {holds : Task → Bool}
    {owner owner' : Option Nat} (passes : Passes i (holds (tasks i)) (holds task) owner owner')
    (owns : ∀ j, holds (tasks j) = true → owner = some j) (j : Nat)
    (held : holds (update tasks i task j) = true) : owner' = some j := by
  by_cases same : j = i
  · subst same
    rw [update_self] at held
    cases passes with
    | kept _ still => exact owns j (still held)
    | released _ was gone => simp [gone] at held
    | taken => rfl
  · rw [update_of_ne same] at held
    cases passes with
    | kept => exact owns j held
    | released _ was gone =>
      have both := (owns j held).symm.trans (owns i was)
      exact absurd (Option.some.inj both) same
    | taken => cases owns j held

/-- Coordinator and lane are where the tasks say, and never both taken. -/
structure Locks (world : World) : Prop where
  coordinator : ∀ i, (world.tasks i).locked = true → world.coordinator = some i
  lane : ∀ i, (world.tasks i).laned = true → world.workspace.pending = some i
  apart : world.coordinator ≠ none → world.workspace.pending = none
  own : ∀ i change phase, world.tasks i = .agent change phase → change.lane = i
  fresh : ∀ i, world.begun ≤ i → world.tasks i = .free

theorem Locks.put (locks : Locks world) (tasks : next.tasks = update world.tasks i task)
    (older : world.begun ≤ next.begun) (known : i < next.begun)
    (coordinator : Passes i (world.tasks i).locked task.locked world.coordinator
      next.coordinator) (lane : Passes i (world.tasks i).laned task.laned world.workspace.pending
      next.workspace.pending) (apart : next.coordinator ≠ none → next.workspace.pending = none)
    (own : ∀ change phase, task = .agent change phase → change.lane = i) : Locks next := by
  constructor
  · intro j held
    rw [tasks] at held
    exact coordinator.owns locks.coordinator j held
  · intro j held
    rw [tasks] at held
    exact lane.owns locks.lane j held
  · exact apart
  · intro j change phase there
    rw [tasks] at there
    by_cases same : j = i
    · subst same
      rw [update_self] at there
      exact own change phase there
    · rw [update_of_ne same] at there
      exact locks.own j change phase there
  · intro j unused
    rw [tasks, update_of_ne (by omega)]
    exact locks.fresh j (by omega)

/-- A step of no task leaves the locks to whom they belong. -/
theorem Locks.workspace (locks : Locks world) (pending : ws.pending = world.workspace.pending) :
    Locks { world with workspace := ws } := by
  refine { locks with lane := ?_, apart := ?_ }
  · rw [pending]
    exact locks.lane
  · rw [pending]
    exact locks.apart

variable {world : World}

/-- A task that exists was begun. -/
theorem Locks.begun (locks : Locks world) (task : world.tasks i ≠ .free) : i < world.begun := by
  by_contra unused
  exact task (locks.fresh i (by omega))

theorem World.open_iff (world : World) : world.open = true ↔ world.coordinator = none ∧
    world.workspace.pending = none ∧ world.workspace.removed = false := by
  simp [World.open]

/-- A call that has the lane gives it back. -/
theorem Locks.finishPending_pending (locks : Locks world)
    (held : (world.tasks i).laned = true) : (finishPending world.workspace i).pending = none := by
  simp [finishPending_eq, locks.lane i held]

theorem Locks.callMoves (locks : Locks world) (task : world.tasks i = .call request existed phase)
    (moved : CallMoves host world i request existed env phase next) : Locks next := by
  have known := locks.begun (i := i) (by simp [task])
  -- Inside the coordinator the lane is free; with the lane the coordinator is.
  have alone : phase.locked = true → world.workspace.pending = none := by
    intro held
    apply locks.apart
    rw [locks.coordinator i (by simpa [task, Task.locked] using held)]
    simp
  have kept : ∀ after : World, ∀ existed' phase',
      after.tasks = update world.tasks i (.call request existed' phase') →
      after.begun = world.begun → after.coordinator = world.coordinator →
      after.workspace.pending = world.workspace.pending →
      (phase'.locked = true → phase.locked = true) →
      (phase'.laned = true → phase.laned = true) → Locks after := by
    intro after existed' phase' tasks begun coordinator pending locked laned
    refine locks.put tasks begun.ge (begun ▸ known) ?_ ?_ ?_ (by simp)
    · rw [coordinator]
      exact .kept _ (by simpa [task, Task.locked] using locked)
    · rw [pending]
      exact .kept _ (by simpa [task, Task.laned] using laned)
    · rw [coordinator, pending]
      exact locks.apart
  have unlocked : ∀ after : World, ∀ existed' phase',
      after.tasks = update world.tasks i (.call request existed' phase') →
      after.begun = world.begun → after.coordinator = none →
      after.workspace.pending = world.workspace.pending →
      phase.locked = true → phase'.locked = false → phase'.laned = false → Locks after := by
    intro after existed' phase' tasks begun coordinator pending was locked laned
    refine locks.put tasks begun.ge (begun ▸ known) ?_ ?_ ?_ (by simp)
    · rw [coordinator]
      exact .released _ (by simpa [task, Task.locked] using was) locked
    · rw [pending]
      exact .kept _ (by simp [Task.laned, laned])
    · rw [pending]
      exact fun _ => alone was
  have freed : ∀ after : World, ∀ existed' phase',
      after.tasks = update world.tasks i (.call request existed' phase') →
      after.begun = world.begun → after.coordinator = world.coordinator →
      after.workspace.pending = (finishPending world.workspace i).pending →
      phase.laned = true → phase'.locked = false → phase'.laned = false → Locks after := by
    intro after existed' phase' tasks begun coordinator pending was locked laned
    have held : (world.tasks i).laned = true := by simpa [task, Task.laned] using was
    rw [locks.finishPending_pending held] at pending
    refine locks.put tasks begun.ge (begun ▸ known) ?_ ?_ (fun _ => pending) (by simp)
    · rw [coordinator]
      exact .kept _ (by simp [Task.locked, locked])
    · rw [pending]
      exact .released _ held laned
  cases moved with
  | absent | staged | installed | stored | unknown | failed | discarded | unknownDiscarded
  | restored => exact kept _ _ _ rfl rfl rfl rfl (by simp [Phase.locked]) (by simp [Phase.laned])
  | stateRolled =>
    exact kept _ _ _ rfl rfl rfl (rollbackState_pending ..) (by simp [Phase.locked]) (fun _ => rfl)
  | removed =>
    exact kept _ _ _ rfl rfl rfl rfl (by cases existed <;> simp [Phase.locked])
      (by cases existed <;> simp [Phase.laned])
  | notStaged | notInstalled | notMeasured => exact unlocked _ _ _ rfl rfl rfl rfl rfl rfl rfl
  | finished | unknownFinished | released => exact freed _ _ _ rfl rfl rfl rfl rfl rfl rfl
  | advanced =>
    refine locks.put rfl le_rfl known ?_ ?_ (fun taken => absurd rfl taken) (by simp)
    · exact .released _ (by simp [task, Task.locked, Phase.locked]) rfl
    · rw [alone rfl]
      exact .taken

theorem Locks.agentMoves (locks : Locks world) (task : world.tasks i = .agent change phase)
    (moved : AgentMoves host world i change env phase next) : Locks next := by
  have known := locks.begun (i := i) (by simp [task])
  have lane := locks.own i change phase task
  have held : (world.tasks i).laned = true := by simp [task, Task.laned]
  have own : ∀ phase' change' other, Task.agent change phase' = .agent change' other →
      change'.lane = i := by
    rintro phase' change' other ⟨⟩
    exact lane
  cases moved with
  | kept | failed =>
    exact locks.put rfl le_rfl known (.kept _ (by simp [Task.locked])) (.kept _ fun _ => held)
      locks.apart (own _)
  | undone =>
    refine locks.put rfl le_rfl known (.kept _ (by simp [Task.locked])) ?_ ?_ (own _)
    · change Passes i _ _ _ (undoTransition world.workspace change).pending
      rw [undoTransition_pending]
      exact .kept _ fun _ => held
    · intro taken
      exact (undoTransition_pending _ _).trans (locks.apart taken)
  | finished =>
    have free : (finishPending world.workspace change.lane).pending = none := by
      rw [lane]
      exact locks.finishPending_pending held
    refine locks.put rfl le_rfl known (.kept _ (by simp [Task.locked])) ?_ (fun _ => free) (by simp)
    change Passes i _ _ _ (finishPending world.workspace change.lane).pending
    rw [free]
    exact .released _ held rfl

/-- Coordinator and lane stay with their tasks through every step. -/
theorem step_locks (locks : Locks world) (stepped : step host world label = some next) :
    Locks next := by
  have unused := locks.fresh world.begun le_rfl
  cases step_moves host world next label stepped with
  | inPlace agentID started env free there =>
    exact locks.put rfl (Nat.le_succ _) (Nat.lt_succ_self _) (.kept _ (by simp [Task.locked]))
      (.kept _ (by simp [Task.laned])) locks.apart (by simp)
  | enter agentID started env ws change free stops entered =>
    obtain ⟨coordinator, pending, -⟩ := world.open_iff.mp free
    obtain ⟨-, -, -, taken, -, rfl⟩ := transition_some _ _ _ _ _ _ _ _ entered
    refine locks.put rfl (Nat.le_succ _) (Nat.lt_succ_self _) (.kept _ (by simp [Task.locked]))
      ?_ (fun held => absurd coordinator held) ?_
    · change Passes world.begun _ _ _ ws.pending
      rw [pending, taken]
      exact .taken
    · rintro change phase ⟨⟩
      rfl
  | admitted request token revision free parent valid target =>
    obtain ⟨coordinator, pending, -⟩ := world.open_iff.mp free
    refine locks.put rfl (Nat.le_succ _) (Nat.lt_succ_self _) ?_ (.kept _ (by simp [Task.laned,
      Phase.laned])) (fun _ => pending) (by simp)
    rw [coordinator]
    exact .taken
  | agent i env change phase next task moved => exact locks.agentMoves task moved
  | call i env request existed phase next task moved => exact locks.callMoves task moved
  | begun | reported => exact { locks with }
  | restoring resolved env restoring next current moved =>
    cases moved with
    | registered => exact { locks.workspace (register_pending _ _ _ _ _ _) with }
    | agentRestored => exact { locks.workspace (restoreAgent_pending _ _ _) with }
    | notRegistered | ended => exact { locks with }

/-- Nothing is in progress, and the access state counts the agents. -/
structure Start (world : World) : Prop where
  tasks : ∀ i, world.tasks i = .free
  coordinator : world.coordinator = none
  pending : world.workspace.pending = none
  restoring : world.restoring = none
  owed : world.owed = ∅
  effects : world.effects = []
  count : world.workspace.state.activeAgentCount = world.workspace.agentIDs.card

theorem start_locks (start : Start world) : Locks world := by
  constructor
  · intro i held
    simp [start.tasks i, Task.locked] at held
  · intro i held
    simp [start.tasks i, Task.laned] at held
  · exact fun _ => start.pending
  · intro i change phase task
    simp [start.tasks i] at task
  · exact fun i _ => start.tasks i

def sampleHost : Host := { config := sampleConfig, codexID := "cdx" }

/-- An empty workspace that was just registered. -/
def sampleWorld : World :=
  { manager := sampleManager
    workspace := register none "/w" "/w" none "first" 1
    files := .empty }

theorem sampleWorld_start : Start sampleWorld :=
  ⟨fun _ => rfl, rfl, rfl, rfl, rfl, rfl, rfl⟩

/-- Create the file `a`. -/
def sampleWrite : Request := .writeText ⟨[], "a"⟩ (text "new") .createOnly ""

/-- In every run at most one call is between its admission and its measuring, at most one task has
a state on its way to the sink, and never both. -/
theorem one_at_a_time (host : Host) (initial world : World) (labels : List Label)
    (start : Start initial) (ran : Runs.run (step host) initial labels = some world) (i j : Nat) :
    ((world.tasks i).locked = true → (world.tasks j).locked = true → i = j) ∧
      ((world.tasks i).laned = true → (world.tasks j).laned = true → i = j) ∧
      ¬ ((world.tasks i).locked = true ∧ (world.tasks j).laned = true) := by
  have locks : Locks world :=
    Runs.run_kept Locks (fun _ _ _ => step_locks) (start_locks start) ran
  refine ⟨?_, ?_, ?_⟩
  · intro first second
    exact Option.some.inj ((locks.coordinator i first).symm.trans (locks.coordinator j second))
  · intro first second
    exact Option.some.inj ((locks.lane i first).symm.trans (locks.lane j second))
  · rintro ⟨first, second⟩
    have free := locks.apart (by simp [locks.coordinator i first])
    cases free.symm.trans (locks.lane j second)

/-- The announcement of a call fails, and behind its lane another call is admitted, before the
first one has put its file back. -/
def sampleRace : List Label :=
  [.call sampleWrite "first" "", .proceed 0 {}, .proceed 0 {}, .proceed 0 { token := "second" },
    .proceed 0 { commit := { outcome := .rolledBack } }, .proceed 0 {}, .proceed 0 {},
    .call (.writeText ⟨[], "b"⟩ (text "new") .createOnly "") "first" ""]

/-- Of the two calls the second one alone is inside the coordinator, and nobody has the lane. The
file of the first one is still there. -/
theorem one_at_a_time_raced : ∃ world, Runs.run (step sampleHost) sampleWorld sampleRace =
      some world ∧ world.begun = 2 ∧
    world.files.entry sampleWrite.target.path = some (.file (text "new")) ∧
    (world.tasks 1).locked = true ∧
    ∀ j, ((world.tasks j).locked = true → 1 = j) ∧ (world.tasks j).laned = false := by
  have whole : (Runs.run (step sampleHost) sampleWorld sampleRace).map (fun world =>
      (world.begun, world.files.entry sampleWrite.target.path, (world.tasks 1).locked)) =
      some (2, some (.file (text "new")), true) := by
    decide +kernel
  obtain ⟨world, ran, facts⟩ := Option.map_eq_some_iff.mp whole
  simp only [Prod.mk.injEq] at facts
  obtain ⟨begun, file, locked⟩ := facts
  refine ⟨world, ran, begun, file, locked, fun j => ?_⟩
  obtain ⟨alone, -, apart⟩ := one_at_a_time sampleHost sampleWorld world sampleRace
    sampleWorld_start ran 1 j
  refine ⟨alone locked, ?_⟩
  simpa using fun laned => apart ⟨locked, laned⟩

end CodexRemote.Mutations
