import CodexRemote.Library.Runs
import CodexRemote.Workspace

/-!
# The access state agrees with the agents

All interleavings of the operations of `internal/workspace/service.go` on one workspace,
from the first `Register` on. `AgentStarted`, `AgentStopped`, `WriteText` and `Upload`
share one shape: a change made under the locks, a call of the sink without them, and after a
definite failure an undo that applies only where the state is still the one attempted. The
files of a mutation do not matter here, only whether its work on them succeeds.

At most one operation is between its entry and its end at any time: coordinator and lane see
to that. `Register` and `RestoreAgent` ignore the lane and may change state and agents under
it. They only ever raise the generation, and so an undo that finds its own state finds its own
agents too. Generations are numbers without a bound, and the sink answers what it likes.
-/
namespace CodexRemote.AccessStates

open Protocol Workspace Function List Option

variable {ws after : WorkspaceState} {i : Nat}

/-- `newToken` returns digits or a time, never the empty string. -/
abbrev Token := { token : String // token ≠ "" }

/-- What an operation changed before its sink is called. -/
inductive Change where
  | agent (change : Transition)
  | mutation (previous attempted : WorkspaceAccessState)
  deriving DecidableEq

def Change.attempted : Change → WorkspaceAccessState
  | .agent change => change.attempted
  | .mutation _ attempted => attempted

/-- What it does after a definite failure. -/
def Change.undo : Change → WorkspaceState → WorkspaceState
  | .agent change, ws => undoTransition ws change
  | .mutation previous attempted, ws => rollbackState ws attempted previous

/-- An operation that waits for the lane. A mutation holds the coordinator while it is
`entered` and, once its token was accepted, `admitted`. -/
inductive Task where
  | free
  | entered (token : String)
  | admitted
  | emitting (change : Change)
  | undoing (change : Change)
  | finishing
  | ended
  deriving DecidableEq

inductive Answer where
  | stored
  | unknown
  | failed
  deriving DecidableEq

structure World where
  workspace : Option WorkspaceState := none
  coordinator : Option Nat := none
  tasks : Nat → Task := fun _ => .free
  begun : Nat := 0

inductive Label where
  | register (root resolved : String) (persisted : Option WorkspaceAccessState) (token : Token)
      (now : Int)
  | restoreAgent (agentID : String) (now : Int)
  | agent (agentID : String) (started : Bool) (token : Token) (now : Int)
  | mutate (token : String)
  | proceed (task : Nat) (succeeds : Bool) (answer : Answer) (token : Token) (now : Int)

def World.put (world : World) (i : Nat) (task : Task) : World :=
  { world with tasks := update world.tasks i task }

def World.spawn (world : World) (task : Task) : World :=
  { world.put world.begun task with begun := world.begun + 1 }

/-- One locked section of the operation, or its call of the sink. A mutation is refused where
its path does not resolve or its token does not hold, and ends where its work on the files
fails. -/
def proceed (world : World) (ws : WorkspaceState) (i : Nat) (succeeds : Bool) (answer : Answer)
    (token : Token) (now : Int) : Task → Option World
  | .free | .ended => none
  | .entered presented =>
      if succeeds = true ∧ validateMutationState ws presented = true then
        some (world.put i .admitted)
      else some ({ world with coordinator := none }.put i .ended)
  | .admitted =>
      if succeeds then
        let advanced := advanceMutation ws i token.1 now
        some ({ world with workspace := some advanced, coordinator := none }.put i
          (.emitting (.mutation ws.state advanced.state)))
      else some ({ world with coordinator := none }.put i .ended)
  | .emitting change =>
      some (world.put i (if answer = .failed then .undoing change else .finishing))
  | .undoing change =>
      some ({ world with workspace := some (change.undo ws) }.put i .finishing)
  | .finishing =>
      some ({ world with workspace := some (finishPending ws i) }.put i .ended)

/-- One step. An operation that is refused at its entry changes nothing and is no step. -/
def step (world : World) (label : Label) : Option World :=
  match label, world.workspace with
  | .register root resolved persisted token now, none =>
      some { world with workspace := some (register none root resolved persisted token.1 now) }
  | _, none => none
  | .register root resolved persisted token now, some ws =>
      if world.coordinator = none then
        some { world with
          workspace := some (register (some ws) root resolved persisted token.1 now) }
      else none
  | .restoreAgent agentID now, some ws =>
      if world.coordinator = none ∧ ws.removed = false then
        some { world with workspace := some (restoreAgent ws agentID now) }
      else none
  | .agent agentID started token now, some ws =>
      if world.coordinator = none ∧ ws.pending = none ∧ ws.removed = false ∧
          (started = true → agentID ≠ "") then
        match transition ws agentID started world.begun token.1 now with
        | (_, none) => some (world.spawn .ended)
        | (changed, some change) =>
            some ({ world with workspace := some changed }.spawn (.emitting (.agent change)))
      else none
  | .mutate token, some ws =>
      if world.coordinator = none ∧ ws.pending = none ∧ ws.removed = false then
        some ({ world with coordinator := some world.begun }.spawn (.entered token))
      else none
  | .proceed i succeeds answer token now, some ws =>
      proceed world ws i succeeds answer token now (world.tasks i)

/-- The access state counts the agents, and admits a mutation just when there is none. -/
structure Counted (state : WorkspaceAccessState) (agents : Finset String) : Prop where
  count : state.activeAgentCount = agents.card
  allowed : state.mutationStatus = .allowed ↔ state.activeAgentCount = 0
  token : state.activeAgentCount = 0 ↔ state.quiescenceToken ≠ ""

theorem countedState_counted (state : WorkspaceAccessState) (now : Int)
    (given : agents = ∅ → token ≠ "") :
    Counted (countedState state agents token now) agents := by
  by_cases none : agents = ∅
  · subst none
    constructor <;> simp [countedState, given rfl]
  · constructor <;> simp [countedState, none]

/-- A quiescent state without agents. -/
theorem quiescent_counted (count : state.activeAgentCount = 0)
    (status : state.mutationStatus = .allowed) (token : state.quiescenceToken ≠ "") :
    Counted state ∅ :=
  ⟨count, by simp [count, status], by simp [count, token]⟩

theorem registeredState_counted (persisted : Option WorkspaceAccessState) (token : Token)
    (now : Int) : Counted (registeredState persisted token.1 now) ∅ := by
  unfold registeredState
  extract_lets quiescent
  have fresh : ∀ generation, Counted (quiescent generation) ∅ := fun generation =>
    quiescent_counted rfl rfl token.2
  split
  · exact fresh 1
  next state =>
  split
  · exact fresh 1
  split
  · exact fresh _
  · next trusted =>
    simp only [not_or, not_not] at trusted
    exact quiescent_counted trusted.1 trusted.2.1 trusted.2.2

/-- A change made under the lane by an operation that ignores it: state and agents stay, or
the generation rises. -/
def Lifts (ws after : WorkspaceState) : Prop :=
  (after.state = ws.state ∧ after.agentIDs = ws.agentIDs) ∨
    ws.state.generation < after.state.generation

theorem register_lifts (ws : WorkspaceState) (root resolved : String)
    (persisted : Option WorkspaceAccessState) (token : String) (now : Int) :
    Lifts ws (register (some ws) root resolved persisted token now) := by
  rcases register_cases ws root resolved persisted token now with same | ⟨later, _⟩
  · exact .inl same
  · exact .inr later

theorem register_counted (root resolved : String) (persisted : Option WorkspaceAccessState)
    (token : Token) (now : Int) (counted : Counted ws.state ws.agentIDs) :
    Counted (register (some ws) root resolved persisted token.1 now).state
      (register (some ws) root resolved persisted token.1 now).agentIDs := by
  simp only [register]
  split
  · exact registeredState_counted persisted token now
  · exact counted

theorem restoreAgent_lifts (ws : WorkspaceState) (agentID : String) (now : Int) :
    Lifts ws (restoreAgent ws agentID now) := by
  rcases restoreAgent_cases ws agentID now with ⟨-, same⟩ | ⟨-, added⟩
  · exact .inl (by simp [same])
  · rw [added]
    exact .inr (Nat.lt_succ_self _)

theorem restoreAgent_counted (agentID : String) (now : Int)
    (counted : Counted ws.state ws.agentIDs) :
    Counted (restoreAgent ws agentID now).state (restoreAgent ws agentID now).agentIDs := by
  rcases restoreAgent_cases ws agentID now with ⟨-, same⟩ | ⟨-, added⟩
  · rwa [same]
  rw [added]
  apply countedState_counted
  intro empty
  simp at empty

theorem transition_counted (ws after : WorkspaceState) (agentID : String) (started : Bool)
    (lane : Nat) (token : Token) (now : Int) (change : Transition)
    (entered : transition ws agentID started lane token.1 now = (after, some change)) :
    Counted after.state after.agentIDs := by
  obtain ⟨_, _, state, _⟩ :=
    transition_some ws after agentID started lane token.1 now change entered
  rw [state]
  exact countedState_counted _ _ fun _ => token.2

/-- A change that can still be taken back: the state has not fallen behind the one attempted,
and where it is that one, the undo leads to an agreeing state again. -/
structure Change.Undoable (change : Change) (ws : WorkspaceState) : Prop where
  reached : change.attempted.generation ≤ ws.state.generation
  undone : ws.state = change.attempted →
    Counted (change.undo ws).state (change.undo ws).agentIDs

theorem Change.undo_congr (change : Change) (state : after.state = ws.state)
    (agents : after.agentIDs = ws.agentIDs) :
    (change.undo after).state = (change.undo ws).state ∧
      (change.undo after).agentIDs = (change.undo ws).agentIDs := by
  cases change with
  | agent change =>
    simp only [undo, undoTransition, state, agents]
    split <;> simp_all
  | mutation previous attempted =>
    simp only [undo, rollbackState, state]
    split <;> simp_all

@[simp]
theorem Change.undo_pending (change : Change) (ws : WorkspaceState) :
    (change.undo ws).pending = ws.pending := by
  cases change <;> simp [undo]

theorem Change.Undoable.lift {change : Change} (undoable : change.Undoable ws)
    (lifts : Lifts ws after) : change.Undoable after := by
  rcases lifts with ⟨state, agents⟩ | later
  · obtain ⟨undone, left⟩ := change.undo_congr state agents
    constructor
    · rw [state]
      exact undoable.reached
    · intro same
      rw [undone, left]
      exact undoable.undone (state ▸ same)
  · have passed := Nat.lt_of_le_of_lt undoable.reached later
    constructor
    · exact Nat.le_of_lt passed
    · intro same
      rw [same] at passed
      exact absurd passed (Nat.lt_irrefl _)

/-- The undo applies to the state it attempted only. -/
theorem Change.Undoable.counted {change : Change} (undoable : change.Undoable ws)
    (counted : Counted ws.state ws.agentIDs) :
    Counted (change.undo ws).state (change.undo ws).agentIDs := by
  by_cases same : ws.state = change.attempted
  · exact undoable.undone same
  have kept : change.undo ws = ws := by
    cases change with
    | agent change | mutation previous attempted => exact if_neg same
  rwa [kept]

theorem transition_undoable (ws after : WorkspaceState) (agentID : String) (started : Bool)
    (lane : Nat) (token : String) (now : Int) (change : Transition)
    (counted : Counted ws.state ws.agentIDs)
    (entered : transition ws agentID started lane token now = (after, some change)) :
    (Change.agent change).Undoable after := by
  obtain ⟨moves, agents, _, _, _, rfl⟩ :=
    transition_some ws after agentID started lane token now change entered
  constructor
  · exact Nat.le_refl _
  intro _
  have back : (if started then after.agentIDs.erase agentID
      else insert agentID after.agentIDs) = ws.agentIDs := by
    cases started with
    | true =>
      have absent : agentID ∉ ws.agentIDs := by simpa using moves
      simp [agents, Finset.erase_insert absent]
    | false =>
      have present : agentID ∈ ws.agentIDs := by simpa using moves
      simp [agents, Finset.insert_erase present]
  simp only [Change.undo, undoTransition, if_true]
  rw [back]
  exact counted

theorem advanceMutation_undoable (lane : Nat) (token : String) (now : Int)
    (counted : Counted ws.state ws.agentIDs) :
    (Change.mutation ws.state (advanceMutation ws lane token now).state).Undoable
      (advanceMutation ws lane token now) := by
  constructor
  · exact Nat.le_refl _
  · intro _
    simp only [Change.undo, rollbackState, if_true]
    exact counted

/-- Where an operation is, lock and lane are its own and its change can be taken back. -/
def Task.Fits (coordinator : Option Nat) (workspace : Option WorkspaceState) (i : Nat) :
    Task → Prop
  | .free | .ended => True
  | .entered _ => coordinator = some i
  | .admitted => coordinator = some i ∧ ∃ ws, workspace = some ws ∧ ws.state.activeAgentCount = 0
  | .emitting change | .undoing change =>
      coordinator = none ∧ ∃ ws, workspace = some ws ∧ ws.pending = some i ∧ change.Undoable ws
  | .finishing => coordinator = none ∧ ∃ ws, workspace = some ws ∧ ws.pending = some i

/-- Not between entry and end. -/
def Task.idle : Task → Bool
  | .free | .ended => true
  | _ => false

variable {task : Task}

theorem Task.fits_of_idle (idle : task.idle = true) (coordinator : Option Nat)
    (workspace : Option WorkspaceState) (i : Nat) : task.Fits coordinator workspace i := by
  cases task with
  | free | ended => trivial
  | _ => cases idle

/-- An operation on its way holds the coordinator or, without it, the lane. -/
theorem Task.Fits.holds (fits : task.Fits coordinator workspace i) (active : task.idle = false) :
    coordinator = some i ∨
      coordinator = none ∧ ∃ ws, workspace = some ws ∧ ws.pending = some i := by
  cases task with
  | free | ended => cases active
  | entered token => exact .inl fits
  | admitted => exact .inl fits.1
  | emitting change | undoing change =>
    obtain ⟨free, ws, known, lane, _⟩ := fits
    exact .inr ⟨free, ws, known, lane⟩
  | finishing => exact .inr fits

structure Steady (world : World) : Prop where
  fresh : ∀ i, world.begun ≤ i → world.tasks i = .free
  counted : ∀ ws, world.workspace = some ws → Counted ws.state ws.agentIDs
  fits : ∀ i, (world.tasks i).Fits world.coordinator world.workspace i

section Steady

variable {world next : World} {ws : WorkspaceState}

section

variable (steady : Steady world)
include steady

/-- With the coordinator and the lane free, nothing is on its way. -/
theorem Steady.quiet (known : world.workspace = some ws) (unlocked : world.coordinator = none)
    (lane : ws.pending = none) (i : Nat) : (world.tasks i).idle = true := by
  by_contra active
  rcases (steady.fits i).holds (by simpa using active) with locked | ⟨_, other, same, taken⟩
  · rw [unlocked] at locked
    cases locked
  · cases known.symm.trans same
    rw [lane] at taken
    cases taken

/-- One operation on its way is the only one. -/
theorem Steady.alone (active : (world.tasks i).idle = false) (different : j ≠ i) :
    (world.tasks j).idle = true := by
  by_contra other
  have mine := (steady.fits i).holds active
  have theirs := (steady.fits j).holds (by simpa using other)
  grind

/-- A step of the only operation on its way. -/
theorem Steady.proceeds (active : (world.tasks i).idle = false)
    (begun : next.begun = world.begun) (tasks : next.tasks = update world.tasks i task)
    (counted : ∀ ws, next.workspace = some ws → Counted ws.state ws.agentIDs)
    (fits : task.Fits next.coordinator next.workspace i) : Steady next := by
  constructor
  · intro j beyond
    rw [begun] at beyond
    have different : j ≠ i := by
      rintro rfl
      rw [steady.fresh j beyond] at active
      cases active
    rw [tasks, update_of_ne different]
    exact steady.fresh j beyond
  · exact counted
  · intro j
    rw [tasks]
    by_cases same : j = i
    · subst same
      rwa [update_self]
    · rw [update_of_ne same]
      exact Task.fits_of_idle (steady.alone active same) ..

/-- A new operation where none is on its way. -/
theorem Steady.spawns (quiet : ∀ i, (world.tasks i).idle = true)
    (begun : next.begun = world.begun + 1)
    (tasks : next.tasks = update world.tasks world.begun task)
    (counted : ∀ ws, next.workspace = some ws → Counted ws.state ws.agentIDs)
    (fits : task.Fits next.coordinator next.workspace world.begun) : Steady next := by
  constructor
  · intro j beyond
    rw [begun] at beyond
    rw [tasks, update_of_ne (by omega)]
    exact steady.fresh j (by omega)
  · exact counted
  · intro j
    rw [tasks]
    by_cases same : j = world.begun
    · subst same
      rwa [update_self]
    · rw [update_of_ne same]
      exact Task.fits_of_idle (quiet j) ..

/-- A change under the lane, with the coordinator free. -/
theorem Steady.lifts (known : world.workspace = some ws)
    (unlocked : world.coordinator = none) (lifts : Lifts ws after)
    (lane : after.pending = ws.pending) (counted : Counted after.state after.agentIDs) :
    Steady { world with workspace := some after } := by
  constructor
  · exact steady.fresh
  · intro other same
    cases same
    exact counted
  · intro i
    have fits := steady.fits i
    cases task : world.tasks i with
    | free | ended => trivial
    | entered token =>
      rw [task] at fits
      exact fits
    | admitted =>
      rw [task] at fits
      exact absurd (fits.1.symm.trans unlocked) (by simp)
    | emitting change | undoing change =>
      rw [task] at fits
      obtain ⟨free, other, same, taken, undoable⟩ := fits
      cases known.symm.trans same
      exact ⟨free, after, rfl, lane.trans taken, undoable.lift lifts⟩
    | finishing =>
      rw [task] at fits
      obtain ⟨free, other, same, taken⟩ := fits
      cases known.symm.trans same
      exact ⟨free, after, rfl, lane.trans taken⟩

end

theorem proceed_active {next : World} {succeeds : Bool}
    (moved : proceed world ws i succeeds answer token now task = some next) :
    task.idle = false := by
  cases task with
  | free | ended => cases moved
  | _ => rfl

theorem proceed_steady (steady : Steady world) (known : world.workspace = some ws) {succeeds : Bool}
    (moved : proceed world ws i succeeds answer token now (world.tasks i) = some next) :
    Steady next := by
  have counted := steady.counted ws known
  have kept : ∀ other, world.workspace = some other → Counted other.state other.agentIDs :=
    steady.counted
  have active := proceed_active moved
  have fits := steady.fits i
  cases task : world.tasks i with
  | free | ended => simp [proceed, task] at moved
  | entered presented =>
    rw [task] at fits moved
    simp only [proceed] at moved
    split at moved <;> obtain rfl := some.inj moved
    · next valid =>
      have none : ws.state.activeAgentCount = 0 := by
        simp only [validateMutationState, decide_eq_true_eq] at valid
        exact valid.2.1
      exact steady.proceeds active rfl rfl kept ⟨fits, ws, known, none⟩
    · exact steady.proceeds active rfl rfl kept trivial
  | admitted =>
    rw [task] at fits moved
    simp only [proceed] at moved
    split at moved <;> obtain rfl := some.inj moved
    · obtain ⟨_, other, same, none⟩ := fits
      cases known.symm.trans same
      refine steady.proceeds active rfl rfl ?_ ?_
      · intro other same
        cases same
        exact { counted with token := by simp [advanceMutation, none, token.2] }
      · exact ⟨rfl, _, rfl, rfl, advanceMutation_undoable i token.1 now counted⟩
    · exact steady.proceeds active rfl rfl kept trivial
  | emitting change =>
    rw [task] at fits moved
    simp only [proceed] at moved
    cases moved
    refine steady.proceeds active rfl rfl kept ?_
    split
    · exact fits
    · obtain ⟨free, other, same, taken, _⟩ := fits
      exact ⟨free, other, same, taken⟩
  | undoing change =>
    rw [task] at fits moved
    simp only [proceed] at moved
    cases moved
    obtain ⟨free, other, same, taken, undoable⟩ := fits
    cases known.symm.trans same
    refine steady.proceeds active rfl rfl ?_ ?_
    · intro other same
      cases same
      exact undoable.counted counted
    · exact ⟨free, _, rfl, (change.undo_pending ws).trans taken⟩
  | finishing =>
    rw [task] at moved
    simp only [proceed] at moved
    cases moved
    refine steady.proceeds active rfl rfl ?_ trivial
    intro other same
    cases same
    rw [finishPending_eq]
    exact counted

/-- The first `Register`: nothing can have been on its way before it. -/
theorem first_steady (steady : Steady world) (unknown : world.workspace = none)
    (root resolved : String) (persisted : Option WorkspaceAccessState) (token : Token) (now : Int) :
    Steady { world with
      workspace := some (register none root resolved persisted token.1 now) } := by
  constructor
  · exact steady.fresh
  · intro ws same
    cases same
    exact registeredState_counted persisted token now
  · intro i
    have fits := steady.fits i
    rw [unknown] at fits
    cases task : world.tasks i <;> rw [task] at fits <;> simp_all [Task.Fits]

theorem agent_steady (steady : Steady world) (known : world.workspace = some ws)
    (quiet : ∀ i, (world.tasks i).idle = true) (agentID : String) (started : Bool)
    (unlocked : world.coordinator = none) (token : Token) (now : Int) (changed : WorkspaceState)
    (change : Transition)
    (entered : transition ws agentID started world.begun token.1 now = (changed, some change)) :
    Steady ({ world with workspace := some changed }.spawn (.emitting (.agent change))) := by
  have lane := (transition_some ws changed agentID started world.begun token.1 now change
    entered).2.2.2.1
  refine steady.spawns quiet rfl rfl ?_ ?_
  · intro other same
    cases same
    exact transition_counted ws changed agentID started world.begun token now change entered
  · have undoable := transition_undoable ws changed agentID started world.begun token.1 now change
      (steady.counted ws known) entered
    exact ⟨unlocked, changed, rfl, lane, undoable⟩

theorem step_steady {next : World} (steady : Steady world)
    (stepped : step world label = some next) :
    Steady next := by
  cases known : world.workspace with
  | none =>
    cases label <;> simp only [step, known, some.injEq, reduceCtorEq] at stepped
    exact stepped ▸ first_steady steady known ..
  | some ws =>
    have counted := steady.counted ws known
    cases label with
    | register root resolved persisted token now =>
      simp only [step, known] at stepped
      split at stepped <;> cases stepped
      next unlocked =>
      exact steady.lifts known unlocked (register_lifts ws root resolved persisted token.1 now)
        (register_pending ws root resolved persisted token.1 now)
        (register_counted root resolved persisted token now counted)
    | restoreAgent agentID now =>
      simp only [step, known] at stepped
      split at stepped <;> cases stepped
      next guard =>
      exact steady.lifts known guard.1 (restoreAgent_lifts ws agentID now)
        (restoreAgent_pending ws agentID now) (restoreAgent_counted agentID now counted)
    | agent agentID started token now =>
      simp only [step, known] at stepped
      split at stepped
      · next guard =>
        have quiet := steady.quiet known guard.1 guard.2.1
        split at stepped
        · cases stepped
          exact steady.spawns quiet rfl rfl steady.counted trivial
        next changed change entered =>
        cases stepped
        exact agent_steady steady known quiet agentID started guard.1 token now changed change
          entered
      · cases stepped
    | mutate token =>
      simp only [step, known] at stepped
      split at stepped <;> cases stepped
      next guard =>
      have quiet := steady.quiet known guard.1 guard.2.1
      exact steady.spawns quiet rfl rfl (fun other same => steady.counted other
        (known.trans same)) rfl
    | proceed i succeeds answer token now =>
      simp only [step, known] at stepped
      exact proceed_steady steady known stepped

end Steady

theorem start_steady : Steady {} := by
  constructor
  · exact fun _ _ => rfl
  · exact nofun
  · exact fun _ => trivial

/-- In every state that any interleaving reaches, with the sink answering as it likes, the
count is the number of agents, and the workspace admits mutations, has count 0 and has a token
all at the same time. -/
theorem state_counts_agents (labels : List Label) (last : World) (ws : WorkspaceState)
    (ran : Runs.run step {} labels = some last) (known : last.workspace = some ws) :
    ws.state.activeAgentCount = ws.agentIDs.card ∧
      (ws.state.mutationStatus = .allowed ↔ ws.state.activeAgentCount = 0) ∧
      (ws.state.activeAgentCount = 0 ↔ ws.state.quiescenceToken ≠ "") := by
  have steady := Runs.run_kept Steady (fun _ _ _ => step_steady) start_steady ran
  obtain ⟨count, allowed, token⟩ := steady.counted ws known
  exact ⟨count, allowed, token⟩

def sampleToken : Token := ⟨"second", by decide⟩

def firstToken : Token := ⟨"first", by decide⟩

/-- A write is on its way to a sink that fails when a restore puts an agent back. The undo
finds another state and leaves the agent alone. -/
def sampleRun : List Label :=
  [.register "/w" "/w" none firstToken 1, .mutate "first",
    .proceed 0 true .stored sampleToken 2, .proceed 0 true .stored sampleToken 2,
    .restoreAgent "turn" 3, .proceed 0 true .failed sampleToken 4,
    .proceed 0 true .failed sampleToken 5, .proceed 0 true .failed sampleToken 6]

theorem state_counts_agents_restored :
    ∃ last ws, Runs.run step {} sampleRun = some last ∧ last.workspace = some ws ∧
      ws.agentIDs = {"turn"} ∧ ws.state.activeAgentCount = ws.agentIDs.card ∧
      (ws.state.mutationStatus = .allowed ↔ ws.state.activeAgentCount = 0) ∧
      (ws.state.activeAgentCount = 0 ↔ ws.state.quiescenceToken ≠ "") := by
  have finished : ((Runs.run step {} sampleRun).bind World.workspace).map
      WorkspaceState.agentIDs = some {"turn"} := by decide +kernel
  obtain ⟨ws, known, agents⟩ := map_eq_some_iff.mp finished
  obtain ⟨last, ran, shown⟩ := bind_eq_some_iff.mp known
  exact ⟨last, ws, ran, shown, agents, state_counts_agents sampleRun last ws ran shown⟩

end CodexRemote.AccessStates
