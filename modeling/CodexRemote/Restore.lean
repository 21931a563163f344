import CodexRemote.Manager

/-!
# Restoring a Codex

`restoreLocked` of `internal/codex/manager.go` and `restoreCollabAgents` of
`workspace.go`, for one row. What the app-server answers decides the branch; every
branch comes down to the same four things, which `RestorePlan` collects: the row as it
is registered, the view, the access state the workspace is registered with, and the
agents that are put back one by one. The plan is computed under the commit lock. How
registration and agents interleave with live transitions is the business of the
module on mutations.

The maps of observed child threads, which only decide which agent transitions later
notifications ask for, are not part of the Manager here.
-/
namespace CodexRemote.Codexes

open Protocol Persistence Activity Budget Function

/-- The Manager's reader, which also accepts the first protocol's shape. -/
def unmarshalCurrentView : Snapshot → Option CurrentView
  | .legacy view => some view
  | .readable view => some view
  | .absent | .unreadable => none

def codexFromRecord (r : CodexRecord) : Codex :=
  { codexId := r.codexID, threadId := r.threadID, cwd := r.cwd, title := r.title
    origin := r.origin, status := r.status, activeTurnId := r.activeTurnID
    managementState := r.managementState, managedUntilUnixMs := r.managedUntilUnixMS
    createdAtUnixMs := r.createdAtUnixMS, importedAtUnixMs := r.importedAtUnixMS
    lastActivityAtUnixMs := r.lastActivityAtUnixMS, warnings := [] }

/-- A collaboration item of a thread: the child threads it addresses and the states it
reports. -/
structure CollabAgentItem where
  itemID : String
  receiverThreadIDs : List String
  agentsStates : List (String × String)
  deriving DecidableEq

structure ThreadTurn where
  turnID : String
  status : TurnStatus
  collab : List CollabAgentItem := []
  deriving DecidableEq

structure Thread where
  name : Option Text := none
  turns : List ThreadTurn := []
  deriving DecidableEq

/-- The thread that `StartThread` returns for a lost one. -/
structure Replacement where
  threadID : String
  source : Option String
  cwd : String
  deriving DecidableEq

/-- How `ReadThread` ends, with the answers of the calls that may follow it: a failed
reading may be of a thread that has no history yet or of one that is not there, and
then `StartThread` may be called; a found thread is resumed. -/
inductive ThreadRead where
  | failed (unmaterialized missing : Bool) (replacement : Option Replacement)
  | found (thread : Thread) (resumes : Bool)
  deriving DecidableEq

def collabAgentActive (status : String) : Bool :=
  status = "pendingInit" || status = "running"

/-- Enter a child's state, keeping the children in order. -/
def putChild (child status : String) : List (String × String) → List (String × String)
  | [] => [(child, status)]
  | (other, old) :: rest =>
      if child = other then (child, status) :: rest
      else if child < other then (child, status) :: (other, old) :: rest
      else (other, old) :: putChild child status rest

/-- The children an item says something about. -/
def reportedChildren (item : CollabAgentItem) : List (String × String) :=
  (item.receiverThreadIDs ++ item.agentsStates.map Prod.fst).filterMap fun child =>
    if child = "" then none
    else (item.agentsStates.find? fun state => state.1 = child).map fun state =>
      (child, state.2)

/-- The last reported state of every child of a thread. -/
def latestChildren (thread : Thread) : List (String × String) :=
  (thread.turns.flatMap ThreadTurn.collab).foldl
    (fun latest item => (reportedChildren item).foldl
      (fun latest child => putChild child.1 child.2 latest) latest) []

/-- The agents `restoreCollabAgents` puts back. -/
def restoreCollabAgents (thread : Thread) : List String :=
  (latestChildren thread).filterMap fun child =>
    if collabAgentActive child.2 then some ("subagent:" ++ child.1) else none

/-- The turn that is still running, if the thread's last one is. -/
def runningTurn (thread : Thread) : Option String :=
  thread.turns.getLast?.bind fun last =>
    if last.status = .running then some last.turnID else none

structure RestorePlan where
  record : CodexRecord
  view : CurrentView
  agents : List String := []
  /-- The source and thread that a replaced Codex is no longer found under. -/
  dropped : Option (String × String) := none
  deriving DecidableEq

/-- Rows from before leases get one. -/
def leased (config : Config) (now : Int) (r : CodexRecord) : CodexRecord :=
  if r.managementState = .unspecified then
    { r with managementState := .managed, managedUntilUnixMS := now + config.leaseDuration
             warningDeadlineUnixMS := 0 }
  else r

/-- An unmanaged Codex is shown as it was stored, under the row's lease. -/
def unmanagedView (now : Int) (r : CodexRecord) : CurrentView :=
  match unmarshalCurrentView r.currentViewJSON with
  | none => { codex := some (codexFromRecord r), generatedAtUnixMs := now }
  | some view =>
      { view with codex := some (match view.codex with
          | none => codexFromRecord r
          | some codex =>
              { codex with managementState := r.managementState
                           managedUntilUnixMs := r.managedUntilUnixMS }) }

/-- `safeUnmaterializedRemoteCodex`: nothing of the Codex can be lost. -/
def safeUnmaterializedRemoteCodex (r : CodexRecord) : Bool :=
  r.origin = .remoteCreated && r.activeTurnID = "" &&
    match r.currentViewJSON with
    | .absent => true
    | stored =>
        match unmarshalCurrentView stored with
        | none => false
        | some view => view.activeTurn.isNone && view.pendingRequests.isEmpty &&
            view.codex.all fun codex => codex.activeTurnId = ""

def clearedPendingWarning (count : Nat) : Warning :=
  { code := .historyImportIncomplete
    message := text ("pending app-server requests from the previous runtime were cleared " ++
      "because their response RPC cannot be restored")
    metadata := [("cleared_pending_count", text (toString count))] }

/-- `noteUnrecoverablePending`: what a fresh view takes over from the stored one. -/
def noteUnrecoverablePending (stored : Snapshot) (codex : Codex) (view : CurrentView) :
    CurrentView :=
  match unmarshalCurrentView stored with
  | none => { view with codex := some codex }
  | some old =>
      let warnings := match old.codex with
        | none => codex.warnings
        | some before => before.warnings
      let completeness := mergeCompleteness view.completeness old.completeness
      let kept := { view with
        workspaceAccessState := old.workspaceAccessState.or view.workspaceAccessState }
      if old.pendingRequests = [] then
        { kept with
          codex := some { codex with warnings := warnings }
          completeness := completeness }
      else
        { kept with
          codex := some { codex with
            warnings := warnings ++ [clearedPendingWarning old.pendingRequests.length] }
          completeness := mergeCompleteness completeness (some
            { incomplete := true
              reason := text "pending response RPC state is not restartable" }) }

/-- The number of agents the stored view shows. -/
def persistedAgents (r : CodexRecord) : Nat :=
  match (unmarshalCurrentView r.currentViewJSON).bind CurrentView.workspaceAccessState with
  | none => 0
  | some state => state.activeAgentCount

/-- An unmaterialized Codex starts over; a replaced one on its new thread. -/
def freshPlan (now : Int) (r : CodexRecord) : RestorePlan :=
  let idle := { r with status := .idle, activeTurnID := "" }
  { record := idle
    view := { codex := some (codexFromRecord idle), generatedAtUnixMs := now } }

def replacedPlan (now : Int) (r : CodexRecord) (replacement : Replacement) : RestorePlan :=
  { freshPlan now { r with
      threadID := replacement.threadID
      sessionSource := normalizeSessionSource (replacement.source.getD r.sessionSource)
      cwd := if replacement.cwd = "" then r.cwd else replacement.cwd } with
    dropped := some (normalizeSessionSource r.sessionSource, r.threadID) }

/-- The thread cannot be read: the Codex is unavailable, and whatever it was running
is taken to be running still. -/
def unavailablePlan (now : Int) (r : CodexRecord) (stored : Snapshot) : RestorePlan :=
  let codex := { codexFromRecord r with status := .unavailable, activeTurnId := "" }
  { record := r
    view := noteUnrecoverablePending stored codex { generatedAtUnixMs := now }
    agents := if r.activeTurnID ≠ "" ∨ 0 < persistedAgents r then [r.activeTurnID] else [] }

/-- The thread is there: idle, unless its last turn is still running. -/
def resumedPlan (now : Int) (r : CodexRecord) (stored : Snapshot) (thread : Thread) :
    RestorePlan :=
  let codex := codexFromRecord r
  let titled := if r.manualTitleOverride then codex
    else { codex with title := thread.name.getD codex.title }
  let status : CodexStatus := if (runningTurn thread).isSome then .unavailable else .idle
  { record := r
    view := noteUnrecoverablePending stored { titled with status := status, activeTurnId := "" }
      { generatedAtUnixMs := now }
    agents := restoreCollabAgents thread ++ (runningTurn thread).toList }

/-- The row a plan is made from: with its owner and a lease. -/
def preparedRow (config : Config) (now : Int) (row : CodexRecord) (owner : String) : CodexRecord :=
  leased config now
    { row with logicalOwnerID := if row.logicalOwnerID = "" then owner else row.logicalOwnerID }

/-- The plan for one row, or the end of the restore with an error. The flag says
whether the stored view can be read once more. -/
def restorePlan (config : Config) (now : Int) (row : CodexRecord) (owner : String)
    (read : ThreadRead) (reads : Bool) : Option RestorePlan :=
  let stored := if reads then row.currentViewJSON else .absent
  let r := preparedRow config now row owner
  if r.managementState = .unmanaged then
    some { record := r, view := unmanagedView now r }
  else
    match read with
    | .found thread resumes =>
        if resumes then some (resumedPlan now r stored thread) else none
    | .failed unmaterialized missing replacement =>
        if unmaterialized && safeUnmaterializedRemoteCodex r then some (freshPlan now r)
        else if missing && safeUnmaterializedRemoteCodex r then
          match replacement with
          | none => none
          | some answer =>
              if answer.threadID = "" then none else some (replacedPlan now r answer)
        else some (unavailablePlan now r stored)

/-- The five branches of a restore. -/
inductive RestoreBranch (now : Int) (r : CodexRecord) (stored : Snapshot) : RestorePlan → Prop
  | unmanaged (state : r.managementState = .unmanaged) :
      RestoreBranch now r stored { record := r, view := unmanagedView now r }
  | resumed (thread : Thread) (state : r.managementState ≠ .unmanaged) :
      RestoreBranch now r stored (resumedPlan now r stored thread)
  | kept (state : r.managementState ≠ .unmanaged)
      (safe : safeUnmaterializedRemoteCodex r = true) :
      RestoreBranch now r stored (freshPlan now r)
  | replaced (answer : Replacement) (state : r.managementState ≠ .unmanaged)
      (safe : safeUnmaterializedRemoteCodex r = true) (named : answer.threadID ≠ "") :
      RestoreBranch now r stored (replacedPlan now r answer)
  | unavailable (state : r.managementState ≠ .unmanaged) :
      RestoreBranch now r stored (unavailablePlan now r stored)

theorem restorePlan_branch {read : ThreadRead}
    (planned : restorePlan config now row owner read reads = some plan) :
    RestoreBranch now (preparedRow config now row owner)
      (if reads then row.currentViewJSON else .absent) plan := by
  simp only [restorePlan] at planned
  generalize preparedRow config now row owner = r at planned ⊢
  split at planned
  · next state =>
    cases planned
    exact .unmanaged state
  next state =>
  cases read with
  | found thread resumes =>
    cases resumes with
    | false => cases planned
    | true =>
      cases planned
      exact .resumed thread state
  | failed unmaterialized missing replacement =>
    dsimp only at planned
    split at planned
    · next kept =>
      cases planned
      exact .kept state (by simp_all)
    split at planned
    · next lost =>
      cases replacement with
      | none => cases planned
      | some answer =>
        dsimp only at planned
        split at planned <;> cases planned
        next named =>
        exact .replaced answer state (by simp_all) named
    · cases planned
      exact .unavailable state

/-- `sessionKey`. -/
def sessionKey (source sessionID : String) : String :=
  normalizeSessionSource source ++ "\x00" ++ sessionID

/-- Take a replaced thread out of the tables, unless another Codex has it. -/
def Manager.dropThread (m : Manager) (codexID : String) (dropped : Option (String × String)) :
    Manager :=
  match dropped with
  | none => m
  | some (source, threadID) =>
      let key := sessionKey source threadID
      { m with
        byThread := if m.byThread threadID = some codexID
          then update m.byThread threadID none else m.byThread
        bySession := if m.bySession key = some codexID
          then update m.bySession key none else m.bySession }

/-- It changes these tables only. -/
theorem dropThread_tables (m : Manager) (codexID : String) (dropped : Option (String × String)) :
    ∃ threads sessions,
      m.dropThread codexID dropped = { m with byThread := threads, bySession := sessions } := by
  unfold Manager.dropThread
  split
  · exact ⟨m.byThread, m.bySession, rfl⟩
  · exact ⟨_, _, rfl⟩

/-- `registerRestored`. -/
def registerRestored (m : Manager) (r : CodexRecord) (view : CurrentView) : Manager :=
  { m with
    byID := update m.byID r.codexID (some view)
    byThread := update m.byThread r.threadID (some r.codexID)
    bySession := update m.bySession (sessionKey r.sessionSource r.threadID)
      (some r.codexID)
    sources := update m.sources r.codexID (normalizeSessionSource r.sessionSource)
    logicalOwners := update m.logicalOwners r.codexID r.logicalOwnerID
    manualTitle := update m.manualTitle r.codexID r.manualTitleOverride
    warningDeadline := update m.warningDeadline r.codexID r.warningDeadlineUnixMS }

/-- The end of a Codex's restore, with the access state its workspace has come to.
Memory keeps the view when storing it fails. -/
def finishRestore (m : Manager) (plan : RestorePlan) (access : WorkspaceAccessState)
    (writes : Bool) : Manager × Except ManagerError Unit :=
  let view := { plan.view with workspaceAccessState := some access }
  let registered := registerRestored (m.dropThread plan.record.codexID plan.dropped)
    plan.record view
  match persistState registered view writes with
  | none => (registered, .error .persist)
  | some stored => (stored, .ok ())

/-- In memory the Codex is registered in any case. -/
theorem finishRestore_registers (m : Manager) (plan : RestorePlan) (access : WorkspaceAccessState)
    (writes : Bool) : ∃ threads sessions events,
    (finishRestore m plan access writes).1 =
      { registerRestored { m with byThread := threads, bySession := sessions } plan.record
        { plan.view with workspaceAccessState := some access } with events := events } := by
  obtain ⟨threads, sessions, dropped⟩ := dropThread_tables m plan.record.codexID plan.dropped
  simp only [finishRestore, dropped]
  split
  · exact ⟨threads, sessions, _, rfl⟩
  · next stored done =>
    obtain ⟨events, rfl⟩ := persistState_events done
    exact ⟨threads, sessions, events, rfl⟩

end CodexRemote.Codexes
