import CodexRemote.Restore

/-!
# The life of a Codex

The operations of `internal/codex/manager.go` that begin, renew and end the lease of a
Codex. Each holds the commit lock from its first reading to its return, so it is one step
on memory and storage together.

`UnmanageCodex`, `renewLease` and `sweepLease` store the changed view, put it into memory
and announce it. When the announcement fails, two cases are told apart: a commit that is
known to have failed puts the old view back into memory and row, one with an unknown
outcome keeps the new view. `announceLifecycle` is that common part.

What `CreateCodex` and `ImportSession` ask of the app-server, and how the second chooses
between a listed and a forgotten session, is not part of the model; it comes down to the
`Session` that is saved.
-/
namespace CodexRemote.Codexes

open Protocol Persistence Activity Budget Function

/-- How the storage calls of one operation end: its write of the row, its one or two
event commits, and behind a failed one the second write of the row, the reading of the
stored view and the reload. An operation uses those it has. -/
structure Storage where
  writes : Bool := true
  commit : Commit := {}
  second : Commit := {}
  rewrites : Bool := true
  reads : Bool := true
  reloads : Bool := true

/-- `ReloadDurable`, with the event store inside the Manager. -/
def Manager.reload (m : Manager) (codexID : String) (reloads : Bool) : Manager :=
  { m with events := (reloadDurable m.events codexID reloads).1 }

/-- `rollbackLifecycleState`: memory has the old view before it is stored. -/
def rollbackLifecycleState (m : Manager) (codexID : String) (original : CurrentView)
    (warningDeadline : Int) (storage : Storage) : Manager :=
  let restored := (m.mark codexID warningDeadline).remember codexID original
  match persistState restored original storage.rewrites with
  | none => restored
  | some stored => stored.reload codexID storage.reloads

/-- `preserveLifecycleState`. -/
def preserveLifecycleState (m : Manager) (codexID : String) (snapshot : CurrentView)
    (warningDeadline : Int) (persist : Bool) (storage : Storage) : Manager :=
  let preserved := (m.mark codexID warningDeadline).remember codexID snapshot
  if persist then
    match persistState preserved snapshot storage.rewrites with
    | none => preserved
    | some stored => stored.reload codexID storage.reloads
  else preserved.reload codexID storage.reloads

def manualUnmanageBusy (view : CurrentView) : Bool :=
  match view.codex with
  | none => false
  | some codex =>
      codex.status = .running || codex.status = .waitingForApproval ||
        codex.status = .waitingForUserInput || codex.status = .interrupting ||
        codex.activeTurnId ≠ "" || view.activeTurn.isSome || !view.pendingRequests.isEmpty

def automaticUnmanageSafe (view : CurrentView) : Bool :=
  match view.codex with
  | none => false
  | some codex => codex.status = .idle && !manualUnmanageBusy view

def hasManagementWarning (warnings : List Warning) (deadline : Int) : Bool :=
  warnings.any fun warning =>
    warning.code = .managementExpiringSoon && warning.managedUntilUnixMs = deadline

/-- The common end of the three operations below: the changed view is stored, put into
memory and announced. The two markers are the one to set and the one to go back to; after
an unknown outcome the view is kept with a marker of its own, and stored again if asked. -/
def announceLifecycle (config : Config) (m : Manager) (codexID requestID : String) (now : Int)
    (original snapshot : CurrentView) (marker oldMarker keptMarker : Int) (persist : Bool)
    (storage : Storage) : Manager × Except ManagerError Unit :=
  let marked := m.mark codexID marker
  match persistState marked snapshot storage.writes, snapshot.codex with
  | some stored, some codex =>
      match publishCodex config (stored.remember codexID snapshot) codex requestID now
          storage.commit with
      | (after, .ok _) => (after, .ok ())
      | (after, .error error) =>
          (if error.outcomeUnknown then
              preserveLifecycleState after codexID snapshot keptMarker persist storage
            else rollbackLifecycleState after codexID original oldMarker storage,
            .error error)
  | _, _ => (marked.mark codexID oldMarker, .error .persist)

/-- The view of a Codex that is managed no longer. -/
def unmanagedFrom (now : Int) (view : CurrentView) : CurrentView :=
  { onCodex (fun codex =>
      { codex with managementState := .unmanaged, managedUntilUnixMs := 0 }) view with
    generatedAtUnixMs := now }

/-- The view of a Codex whose lease starts over. -/
def renewedView (now deadline : Int) (view : CurrentView) : CurrentView :=
  { onCodex (fun codex =>
      { codex with
        managementState := .managed
        managedUntilUnixMs := deadline
        lastActivityAtUnixMs := now }) view with
    generatedAtUnixMs := now }

/-- `UnmanageCodex`. -/
def unmanageCodex (config : Config) (m : Manager) (codexID requestID : String) (now : Int)
    (storage : Storage) : Manager × Except ManagerError Unit :=
  if codexID = "" then (m, .error .invalid)
  else match known m codexID with
  | .error error => (m, .error error)
  | .ok (view, codex) =>
      if codex.managementState = .unmanaged then (m, .ok ())
      else if manualUnmanageBusy view then (m, .error .busy)
      else announceLifecycle config m codexID requestID now view (unmanagedFrom now view) 0
        (m.warningDeadline codexID) 0 false storage

/-- `renewLease`. An unmanaged Codex has no lease to renew. -/
def renewLease (config : Config) (m : Manager) (codexID : String) (now : Int)
    (storage : Storage) : Manager × Except ManagerError Unit :=
  match known m codexID with
  | .error error => (m, .error error)
  | .ok (view, codex) =>
      if codex.managementState = .unmanaged then (m, .ok ())
      else announceLifecycle config m codexID "" now view
        (renewedView now (now + config.leaseDuration) view) 0 (m.warningDeadline codexID) 0 false
        storage

/-- The warning of a lease that ends soon. -/
def expiryWarning (deadline : Int) : Warning :=
  { code := .managementExpiringSoon, message := text "Codex management lease is expiring soon"
    managedUntilUnixMs := deadline
    metadata := [("managed_until_unix_ms", text (toString deadline))] }

/-- The view of a Codex whose lease ends soon, with the warning if it is due. -/
def expiringView (now deadline : Int) (due : Bool) (view : CurrentView) : CurrentView :=
  { onCodex (fun codex =>
      { codex with
        managementState := .expiringSoon
        warnings := if due && !hasManagementWarning codex.warnings deadline
          then codex.warnings ++ [expiryWarning deadline] else codex.warnings }) view with
    generatedAtUnixMs := now }

/-- The event of the warning. -/
def warningEvent (codexID : String) (now deadline : Int) : Event :=
  { codexId := codexID, occurredAtUnixMs := now, body := .warningRaised (expiryWarning deadline) }

/-- `sweepLease` once the Codex is announced as expiring: the warning follows as an event
of its own. Whatever becomes of it, the view stays. -/
def raiseWarning (m : Manager) (codexID : String) (now deadline : Int) (snapshot : CurrentView)
    (storage : Storage) : Manager × Except ManagerError Unit :=
  match publishEvent m (warningEvent codexID now deadline) snapshot storage.second with
  | (after, .ok _) => (after, .ok ())
  | (after, .error error) =>
      (if error.outcomeUnknown then
          preserveLifecycleState after codexID snapshot deadline false storage
        else preserveLifecycleState after codexID snapshot 0 true storage,
        .error error)

/-- What a sweep is going to store: the view, the marker of the last warning, and whether
a warning is due. -/
structure SweepPlan where
  snapshot : CurrentView
  marker : Int
  due : Bool
  deriving DecidableEq

/-- The decision of `sweepLease`. A lease that is over is given up if nothing runs;
otherwise, and shortly before its end, the Codex is shown as expiring and the warning of
its deadline is raised once. -/
def sweepPlan (config : Config) (view : CurrentView) (codex : Codex) (marker now : Int) :
    Option SweepPlan :=
  let deadline := codex.managedUntilUnixMs
  if (codex.managementState ≠ .managed ∧ codex.managementState ≠ .expiringSoon) ∨
      deadline ≤ 0 then none
  else if deadline ≤ now ∧ automaticUnmanageSafe view then
    some { snapshot := unmanagedFrom now view, marker := 0, due := false }
  else if now < deadline - config.leaseWarningBefore then none
  else if marker ≠ deadline then
    some { snapshot := expiringView now deadline true view, marker := deadline, due := true }
  else if codex.managementState = .expiringSoon then none
  else some { snapshot := expiringView now deadline false view, marker := marker, due := false }

/-- `sweepLease`. After an unknown outcome of the first commit a due warning is to be
tried again, so its marker is cleared. -/
def sweepLease (config : Config) (m : Manager) (codexID : String) (now : Int)
    (storage : Storage) : Manager × Except ManagerError Unit :=
  match known m codexID with
  | .error _ => (m, .ok ())
  | .ok (view, codex) =>
      match sweepPlan config view codex (m.warningDeadline codexID) now with
      | none => (m, .ok ())
      | some plan =>
          match announceLifecycle config m codexID "" now view plan.snapshot plan.marker
              (m.warningDeadline codexID) (if plan.due then 0 else plan.marker) plan.due
              storage with
          | (after, .ok _) =>
              if plan.due then
                raiseWarning after codexID now codex.managedUntilUnixMs plan.snapshot storage
              else (after, .ok ())
          | (after, .error error) => (after, .error error)

/-- `sweepLeases`, over ids in the order in which the table gives them. The first error ends
it. -/
def sweepLeases (config : Config) (now : Int) :
    Manager → List (String × Storage) → Manager × Except ManagerError Unit
  | m, [] => (m, .ok ())
  | m, (codexID, storage) :: rest =>
      match sweepLease config m codexID now storage with
      | (after, .ok _) => sweepLeases config now after rest
      | (after, .error error) => (after, .error error)

/-- The session a new Codex stands for, as the app-server and the table of forgotten
sessions give it. -/
structure Session where
  threadID : String
  source : String
  cwd : String
  title : Text
  ownerID : String
  deriving DecidableEq

/-- The Codex of `CreateCodex`. -/
def createdCodex (config : Config) (codexID : String) (session : Session) (now : Int) : Codex :=
  { codexId := codexID, threadId := session.threadID, cwd := session.cwd
    title := session.title, origin := .remoteCreated, status := .idle, activeTurnId := ""
    managementState := .managed, managedUntilUnixMs := now + config.leaseDuration
    createdAtUnixMs := now, importedAtUnixMs := 0, lastActivityAtUnixMs := now, warnings := [] }

/-- The Codex of `ImportSession`. -/
def importedCodex (config : Config) (codexID : String) (session : Session)
    (origin : CodexOrigin) (created now : Int) : Codex :=
  { createdCodex config codexID session now with
    origin := origin, createdAtUnixMs := created, importedAtUnixMs := now }

/-- `saveCodex`, with the access state its workspace is registered with, if it can be. -/
def saveCodex (config : Config) (m : Manager) (codex : Codex) (session : Session)
    (access : Option WorkspaceAccessState) (now : Int) (writes : Bool) :
    Manager × Except ManagerError Unit :=
  match access, writes with
  | none, _ => (m, .error .workspace)
  | some _, false => (m, .error .persist)
  | some state, true =>
      let view := boundCurrentView config.sizes config.contentBudget
        { codex := some codex, workspaceAccessState := some state, generatedAtUnixMs := now }
      let row := { recordFromCodex codex session.source with
        logicalOwnerID := session.ownerID, currentViewJSON := .readable view }
      let source := normalizeSessionSource session.source
      ({ m with
          events := { m.events with disk := upsertCodex m.events.disk row }
          byID := update m.byID codex.codexId (some view)
          byThread := update m.byThread codex.threadId (some codex.codexId)
          bySession := update m.bySession (sessionKey source codex.threadId)
            (some codex.codexId)
          sources := update m.sources codex.codexId source
          logicalOwners := update m.logicalOwners codex.codexId session.ownerID
          manualTitle := update m.manualTitle codex.codexId false
          warningDeadline := update m.warningDeadline codex.codexId 0 }, .ok ())

/-- `strings.TrimSpace`. -/
def trimSpace (value : String) : String :=
  String.ofList (trimmed value.toList)

/-- `RenameCodex`. Memory follows once the row is written, and keeps the title however
the announcement ends. -/
def renameCodex (config : Config) (m : Manager) (codexID title requestID : String) (now : Int)
    (storage : Storage) : Manager × Except ManagerError Unit :=
  if codexID = "" ∨ trimSpace title = "" then (m, .error .invalid)
  else match known m codexID with
  | .error error => (m, .error error)
  | .ok (view, codex) =>
      let renamed := { codex with title := text (trimSpace title) }
      let snapshot := { view with codex := some renamed, generatedAtUnixMs := now }
      let titled := { m with manualTitle := update m.manualTitle codexID true }
      match persistState titled snapshot storage.writes with
      | none => (m, .error .persist)
      | some stored =>
          let (after, result) := publishCodex config (stored.remember codexID snapshot) renamed
            requestID now storage.commit
          (after, result.map fun _ => ())

/-- The view without an answered request. The last answer lets the Codex go on. -/
def resolvedView (config : Config) (pendingID : String) (now : Int) (view : CurrentView) :
    CurrentView :=
  let rest := view.pendingRequests.filter fun pending => pendingIDOf pending ≠ pendingID
  let answered := if rest = [] then
      onCodex (fun codex =>
        { codex with status := if view.activeTurn.isSome then .running else .idle }) view
    else view
  boundCurrentView config.sizes config.contentBudget
    { answered with pendingRequests := rest, generatedAtUnixMs := now }

/-- `resolvePending`, with the answer that `saves` says could be recorded. Memory has the
new view before it is stored. -/
def resolvePending (config : Config) (m : Manager) (codexID pendingID : String)
    (resolved : PendingRequest) (requestID : String) (now : Int) (saves : Bool)
    (storage : Storage) : Manager × Except ManagerError Unit :=
  let (bounded, complete) :=
    boundPendingRequest config.sizes resolved (collectionBudget config.contentBudget)
  if saves then
    match m.byID codexID with
    | none => (m, .error .viewMissing)
    | some view =>
        let snapshot := resolvedView config pendingID now view
        let remembered := m.remember codexID snapshot
        match persistState remembered snapshot storage.writes with
        | none => (remembered, .error .persist)
        | some stored =>
            let event := boundCanonicalEvent config.sizes config.contentBudget
              { codexId := codexID, occurredAtUnixMs := now, causedByRequestId := requestID
                completeness := complete, body := .pendingRequestUpdated bounded }
            let (after, result) := publishEvent stored event snapshot storage.commit
            (after, result.map fun _ => ())
  else (m, .error .persist)

/-- The tables in memory without a Codex. Its threads are left to another Codex that has
them by now. -/
def Manager.drop (m : Manager) (codexID threadID : String) : Manager :=
  let key := sessionKey (m.sources codexID) threadID
  { m with
    byID := update m.byID codexID none
    byThread := if m.byThread threadID = some codexID
      then update m.byThread threadID none else m.byThread
    bySession := if m.bySession key = some codexID
      then update m.bySession key none else m.bySession
    sources := update m.sources codexID ""
    logicalOwners := update m.logicalOwners codexID ""
    manualTitle := update m.manualTitle codexID false
    warningDeadline := update m.warningDeadline codexID 0
    chunks := fun key =>
      if (codexID ++ "\x00").toList.isPrefixOf key.toList then 0 else m.chunks key }

/-- `ForgetCodex`. The flag says whether the forgotten session could be recorded. -/
def forgetCodex (m : Manager) (codexID requestID : String) (now : Int) (records : Bool)
    (outcome : CommitOutcome) (answers : Bool) : Manager × Except ManagerError Unit :=
  if codexID = "" then (m, .error .invalid)
  else match known m codexID with
  | .error error => (m, .error error)
  | .ok (_, codex) =>
      if codex.managementState ≠ .unmanaged then (m, .error .conflict)
      else if records then
        match forget m.events codexID requestID now outcome answers with
        | (events, .error error) => ({ m with events := events }, .error (.publish error))
        | (events, .ok _) => ({ m with events := events }.drop codexID codex.threadId, .ok ())
      else (m, .error .persist)

/-- What `ForgetCodex` can do: fail, without a change but to the event store, or take an
unmanaged Codex out of memory and database. -/
theorem forgetCodex_cases (m : Manager) (codexID requestID : String) (now : Int)
    (records : Bool) (outcome : CommitOutcome) (answers : Bool) :
    let result := forgetCodex m codexID requestID now records outcome answers
    (∃ events error, result = ({ m with events := events }, .error error) ∧
        (events.disk = m.events.disk ∨
          outcome = .unknown true ∧ events.disk = m.events.disk.remove codexID)) ∨
      ∃ events view codex, known m codexID = .ok (view, codex) ∧
        codex.managementState = .unmanaged ∧
        result = ({ m with events := events }.drop codexID codex.threadId, .ok ()) ∧
        events.disk = m.events.disk.remove codexID ∧ events.codex codexID = none := by
  intro result
  have refused : ∀ error, result = (m, .error error) →
      ∃ events error, result = ({ m with events := events }, .error error) ∧
        (events.disk = m.events.disk ∨
          outcome = .unknown true ∧ events.disk = m.events.disk.remove codexID) := by
    intro error same
    exact ⟨m.events, error, same, .inl rfl⟩
  by_cases blank : codexID = ""
  · exact .inl (refused .invalid (by simp [result, forgetCodex, blank]))
  cases found : known m codexID with
  | error error => exact .inl (refused error (by simp [result, forgetCodex, blank, found]))
  | ok pair =>
    obtain ⟨view, codex⟩ := pair
    by_cases managed : codex.managementState = .unmanaged
    case neg =>
      exact .inl (refused .conflict (by simp [result, forgetCodex, blank, found, managed]))
    cases records with
    | false => exact .inl (refused .persist (by simp [result, forgetCodex, blank, found, managed]))
    | true =>
      have forgotten := forget_cases m.events codexID requestID now outcome answers
      simp only [result, forgetCodex, blank, found, managed, if_false, if_true, ne_eq,
        not_true_eq_false]
      generalize forget m.events codexID requestID now outcome answers = answer at forgotten ⊢
      obtain ⟨events, answered⟩ := answer
      obtain ⟨rfl, error, rfl⟩ | ⟨st, -, -, -, -, ⟨error, rfl, -, -, kept⟩ |
        ⟨rfl, -, -, removed, streams⟩⟩ := forgotten
      · exact .inl ⟨m.events, .publish error, rfl, .inl rfl⟩
      · exact .inl ⟨events, .publish error, rfl, kept.imp_right fun lost => ⟨lost.1, lost.2.2⟩⟩
      · exact .inr ⟨events, view, codex, rfl, managed, rfl, removed, by simp_all⟩

/-- A new process on the same database. -/
def restartHost (m : Manager) (replayCapacity : Int) : Manager :=
  { events := newStore m.events.disk m.events.heap m.events.allocated replayCapacity
    byID := fun _ => none, byThread := fun _ => none, bySession := fun _ => none
    sources := fun _ => "", logicalOwners := fun _ => "", manualTitle := fun _ => false
    warningDeadline := fun _ => 0, chunks := fun _ => 0 }

/-- `restoreLocked` for one row. Memory changes only once the workspace is registered and
its agents are put back. -/
def restoreCodex (config : Config) (m : Manager) (row : CodexRecord) (now : Int)
    (owner : String) (read : ThreadRead) (reads : Bool) (access : Option WorkspaceAccessState)
    (writes : Bool) : Manager :=
  match restorePlan config now row owner read reads, access with
  | some plan, some state => (finishRestore m plan state writes).1
  | _, _ => m

end CodexRemote.Codexes
