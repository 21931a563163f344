import Mathlib.Data.Finset.Card
import CodexRemote.Protocol

/-!
# Workspace access

`internal/workspace/service.go`: who may change the files of one Codex. A workspace
has a set of active agents and an access state whose token admits a mutation while
the set is empty. Every change of the state gets a new generation.

A transition is three separate steps. Under the workspace's locks it changes the
state and occupies the lane; without them it hands the new state to the sink; then,
after a definite failure, it takes the change back if nothing came in between, and
frees the lane. Agents and mutations wait for a free lane. `Register` and
`RestoreAgent` do not: they run under the Manager's commit lock, which the sink of a
pending transition may itself be waiting for.

The functions below are the locked sections; the systems that interleave them are
in the modules on turns, restores and mutations. Lanes stand for the channels of the
source and are compared by identity. Tokens are drawn at random by the source and
are arguments here.
-/
namespace CodexRemote.Workspace

open Protocol

/-- One entry of the service's map. -/
structure WorkspaceState where
  root : String
  displayRoot : String
  state : WorkspaceAccessState
  agentIDs : Finset String := ∅
  pending : Option Nat := none
  removed : Bool := false
  deriving DecidableEq

/-- The state `Register` computes from a persisted one. A persisted state that does
not admit mutations is not trusted: its agents are gone with their process. -/
def registeredState (persisted : Option WorkspaceAccessState) (token : String) (now : Int) :
    WorkspaceAccessState :=
  let quiescent (generation : Nat) : WorkspaceAccessState :=
    { generation := generation, activeAgentCount := 0, mutationStatus := .allowed
      quiescenceToken := token, observedAtUnixMs := now }
  match persisted with
  | none => quiescent 1
  | some state =>
      if state.generation = 0 then quiescent 1
      else if state.activeAgentCount ≠ 0 ∨ state.mutationStatus ≠ .allowed ∨
          state.quiescenceToken = "" then quiescent (state.generation + 1)
      else state

/-- `Register` for a root that resolves. A state in memory gives way to a computed
one of a later generation only, and then loses its agents. -/
def register (known : Option WorkspaceState) (root resolved : String)
    (persisted : Option WorkspaceAccessState) (token : String) (now : Int) : WorkspaceState :=
  let state := registeredState persisted token now
  match known with
  | none => { root := resolved, displayRoot := root, state := state }
  | some ws =>
      let present := { ws with root := resolved, displayRoot := root, removed := false }
      if ws.state.generation < state.generation then
        { present with state := state, agentIDs := ∅ }
      else present

/-- The access state for a changed set of agents. -/
def countedState (state : WorkspaceAccessState) (agents : Finset String) (token : String)
    (now : Int) : WorkspaceAccessState :=
  { generation := state.generation + 1
    activeAgentCount := agents.card
    mutationStatus := if agents = ∅ then .allowed else .busy
    quiescenceToken := if agents = ∅ then token else ""
    observedAtUnixMs := now }

/-- What a transition carries between its steps. -/
structure Transition where
  lane : Nat
  agentID : String
  started : Bool
  attempted : WorkspaceAccessState
  previous : WorkspaceAccessState
  deriving DecidableEq

/-- A workspace with another set of agents. -/
def WorkspaceState.withAgents (ws : WorkspaceState) (agents : Finset String) (token : String)
    (now : Int) : WorkspaceState :=
  { ws with agentIDs := agents, state := countedState ws.state agents token now }

/-- The locked section of `AgentStarted` and `AgentStopped`: an agent that is
already in place changes nothing and emits nothing. Starting never needs a token. -/
def transition (ws : WorkspaceState) (agentID : String) (started : Bool) (lane : Nat)
    (token : String) (now : Int) : WorkspaceState × Option Transition :=
  if decide (agentID ∈ ws.agentIDs) = started then (ws, none)
  else
    let agents := if started then insert agentID ws.agentIDs else ws.agentIDs.erase agentID
    let changed := ws.withAgents agents token now
    ({ changed with pending := some lane },
      some { lane := lane, agentID := agentID, started := started
             attempted := changed.state, previous := ws.state })

def agentStarted (ws : WorkspaceState) (agentID : String) (lane : Nat) (now : Int) :
    WorkspaceState × Option Transition := transition ws agentID true lane "" now

def agentStopped (ws : WorkspaceState) (agentID : String) (lane : Nat) (token : String)
    (now : Int) : WorkspaceState × Option Transition := transition ws agentID false lane token now

/-- After a definite failure of the sink the change is taken back, unless the state
moved on. -/
def undoTransition (ws : WorkspaceState) (change : Transition) : WorkspaceState :=
  if ws.state = change.attempted then
    { ws with
      state := change.previous
      agentIDs := if change.started then ws.agentIDs.erase change.agentID
        else insert change.agentID ws.agentIDs }
  else ws

/-- `finishPending`: only the owner of the lane frees it. -/
def finishPending (ws : WorkspaceState) (lane : Nat) : WorkspaceState :=
  if ws.pending = some lane then { ws with pending := none } else ws

/-- The name under which `RestoreAgent` registers an agent. -/
def restoredName (agentID : String) : String :=
  if agentID = "" then "restore-unknown" else agentID

/-- `RestoreAgent`, which emits nothing and ignores the lane. -/
def restoreAgent (ws : WorkspaceState) (agentID : String) (now : Int) : WorkspaceState :=
  let agent := restoredName agentID
  if agent ∈ ws.agentIDs then ws else ws.withAgents (insert agent ws.agentIDs) "" now

/-- `validateMutationState`. -/
def validateMutationState (ws : WorkspaceState) (token : String) : Bool :=
  ws.state.activeAgentCount = 0 ∧ ws.state.mutationStatus = .allowed ∧ token ≠ "" ∧
    token = ws.state.quiescenceToken

/-- `advanceMutationLocked`: a mutation takes its token out of force. -/
def advanceMutation (ws : WorkspaceState) (lane : Nat) (token : String) (now : Int) :
    WorkspaceState :=
  { ws with
    pending := some lane
    state := { ws.state with
      generation := ws.state.generation + 1
      observedAtUnixMs := now
      quiescenceToken := token } }

/-- `rollbackState`. -/
def rollbackState (ws : WorkspaceState) (attempted previous : WorkspaceAccessState) :
    WorkspaceState :=
  if ws.state = attempted then { ws with state := previous } else ws

/-- A transition that is entered: the set of agents changes, the state follows it, and
the lane is taken. -/
theorem transition_some (ws after : WorkspaceState) (agentID : String) (started : Bool)
    (lane : Nat) (token : String) (now : Int) (change : Transition)
    (entered : transition ws agentID started lane token now = (after, some change)) :
    decide (agentID ∈ ws.agentIDs) ≠ started ∧
      after.agentIDs = (if started then insert agentID ws.agentIDs
        else ws.agentIDs.erase agentID) ∧
      after.state = countedState ws.state after.agentIDs token now ∧
      after.pending = some lane ∧ after.removed = ws.removed ∧
      change = { lane := lane, agentID := agentID, started := started
                 attempted := after.state, previous := ws.state } := by
  unfold transition at entered
  split at entered <;> cases entered
  next moves =>
  exact ⟨moves, rfl, rfl, rfl, rfl, rfl⟩

theorem transition_none (entered : transition ws agentID started lane token now = (after, none)) :
    decide (agentID ∈ ws.agentIDs) = started := by
  unfold transition at entered
  split at entered
  · assumption
  · cases entered

section Pending

variable (ws : WorkspaceState)

@[simp]
theorem undoTransition_pending (change : Transition) :
    (undoTransition ws change).pending = ws.pending := by
  unfold undoTransition
  split <;> rfl

@[simp]
theorem rollbackState_pending (attempted previous : WorkspaceAccessState) :
    (rollbackState ws attempted previous).pending = ws.pending := by
  unfold rollbackState
  split <;> rfl

/-- `RestoreAgent` finds its agent or adds one. -/
theorem restoreAgent_cases (agentID : String) (now : Int) :
    restoredName agentID ∈ ws.agentIDs ∧ restoreAgent ws agentID now = ws ∨
      restoredName agentID ∉ ws.agentIDs ∧ restoreAgent ws agentID now =
        ws.withAgents (insert (restoredName agentID) ws.agentIDs) "" now := by
  unfold restoreAgent
  by_cases there : restoredName agentID ∈ ws.agentIDs
  · exact .inl ⟨there, if_pos there⟩
  · exact .inr ⟨there, if_neg there⟩

@[simp]
theorem restoreAgent_pending (agentID : String) (now : Int) :
    (restoreAgent ws agentID now).pending = ws.pending := by
  rcases restoreAgent_cases ws agentID now with ⟨-, same⟩ | ⟨-, added⟩
  · rw [same]
  · rw [added]
    rfl

@[simp]
theorem register_pending (root resolved : String) (persisted : Option WorkspaceAccessState)
    (token : String) (now : Int) :
    (register (some ws) root resolved persisted token now).pending = ws.pending := by
  unfold register
  dsimp only
  split <;> rfl

/-- Freeing the lane changes nothing else. -/
theorem finishPending_eq (lane : Nat) :
    finishPending ws lane =
      { ws with pending := if ws.pending = some lane then none else ws.pending } := by
  unfold finishPending
  split <;> rfl

/-- `Register` on a workspace it knows: the state in memory stays with its agents, or a
later one without agents takes its place. -/
theorem register_cases (root resolved : String) (persisted : Option WorkspaceAccessState)
    (token : String) (now : Int) :
    let after := register (some ws) root resolved persisted token now
    (after.state = ws.state ∧ after.agentIDs = ws.agentIDs) ∨
      (ws.state.generation < after.state.generation ∧ after.agentIDs = ∅ ∧
        after.state.activeAgentCount = 0) := by
  have quiescent : (registeredState persisted token now).activeAgentCount = 0 := by
    unfold registeredState
    split
    · rfl
    split
    · rfl
    split
    · rfl
    · next trusted =>
      simp only [not_or, not_not] at trusted
      exact trusted.1
  simp only [register]
  split
  · next later => exact .inr ⟨later, rfl, quiescent⟩
  · exact .inl ⟨rfl, rfl⟩

end Pending

end CodexRemote.Workspace
