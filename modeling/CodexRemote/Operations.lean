import CodexRemote.Library.Runs
import CodexRemote.Lifecycle

/-!
# The operations of a Host

All operations that write the view of a Codex, as one system. Every section under the
commit lock is one step. Most operations have one; the others keep what they go on with
in the state: `CreateCodex` and `ImportSession` save and then announce, and `StartTurn`,
once the app-server has accepted the turn, ends with a workspace commit, `setRunning` and
`publishAcceptedUserMessage`. `Restore` is a step for each row: it holds the lock for all
of them, so this allows more orders than there are. `publishCodex` after a save runs
outside the lock. `announce` is the case in which nothing comes between its reading of
memory and its commit; `Announcements` has the two steps.

The Host may stop between any two writes of an operation. `interruptions` lists the
databases it can leave behind, and a step may be cut short at one of them. Memory is then
lost, as after a restart between operations.

New ids are fresh. The app-server's answers, the clock and the outcome of every storage
call are part of a label.
-/
namespace CodexRemote.Host

open Protocol Persistence Activity Budget Codexes List Option

/-- A `StartTurn` that the app-server has accepted and that has not returned. -/
structure Call where
  codexID : String
  turnID : String
  requestID : String
  parts : List UserMessagePart
  running : Bool := false
  deriving DecidableEq

/-- The Manager with its database, the operations that are between two of their sections,
and the ids that were ever given to a Codex. -/
structure World where
  manager : Manager
  calls : List Call := []
  saved : List (Codex × String) := []
  issued : List String := []

inductive Operation where
  | create (codexID : String) (session : Session) (access : Option WorkspaceAccessState)
      (requestID : String)
  | importSession (codexID : String) (session : Session) (origin : CodexOrigin) (created : Int)
      (access : Option WorkspaceAccessState) (requestID : String)
  | announce (codex : Codex) (requestID : String)
  | startTurn (codexID requestID : String) (parts : List UserMessagePart)
      (answer : Option String)
  | setRunning (call : Call)
  | userMessage (call : Call)
  | workspace (codexID : String) (state : WorkspaceAccessState)
  | notify (event : AdapterEvent)
  | resolve (codexID pendingID : String) (resolved : PendingRequest) (requestID : String)
      (saves : Bool)
  | renew (codexID : String)
  | unmanage (codexID requestID : String)
  | sweep (codexID : String)
  | rename (codexID title requestID : String)
  | forget (codexID requestID : String) (records : Bool)
  | restore (codexID owner : String) (read : ThreadRead) (access : Option WorkspaceAccessState)
  | watch (codexID : String) (after : Option Nat) (queue : Int)
  | read (codexID : String)
  | restart (replayCapacity : Int)
  deriving DecidableEq

/-- An operation with the clock and the outcomes it meets. `crash` cuts it short behind
one of its writes; the Host comes back with the given replay capacity. -/
structure Label where
  operation : Operation
  now : Int
  storage : Storage := {}
  crash : Option (Nat × Int) := none

/-- An id that `newID` may return. -/
def World.Fresh (world : World) (codexID : String) : Prop :=
  codexID ≠ "" ∧ codexID ∉ world.issued ∧ (world.manager.byID codexID).isNone = true ∧
    (world.manager.events.disk.codexes codexID).isNone = true

instance (world : World) (codexID : String) : Decidable (world.Fresh codexID) := by
  unfold World.Fresh
  infer_instance

/-- The first section of `CreateCodex` and `ImportSession`. -/
def World.save (config : Config) (world : World) (codex : Codex) (session : Session)
    (access : Option WorkspaceAccessState) (requestID : String) (now : Int)
    (storage : Storage) : World :=
  match saveCodex config world.manager codex session access now storage.writes with
  | (m, .ok _) =>
      { world with
        manager := m, saved := (codex, requestID) :: world.saved
        issued := codex.codexId :: world.issued }
  | (m, .error _) => { world with manager := m, issued := codex.codexId :: world.issued }

/-- `StartTurn` up to the app-server's answer. Nothing is sent for a Codex that is not
idle, and nothing has changed when the answer is an error. -/
def World.startTurn (world : World) (codexID requestID : String) (parts : List UserMessagePart)
    (answer : Option String) : World :=
  match known world.manager codexID, answer with
  | .ok (_, codex), some turnID =>
      if codex.status = .idle then
        { world with
          calls := { codexID := codexID, turnID := turnID, requestID := requestID
                     parts := parts } :: world.calls }
      else world
  | _, _ => world

/-- `setRunning` for an accepted turn. `StartTurn` returns its error, or goes on. -/
def World.setRunning (config : Config) (world : World) (call : Call) (now : Int)
    (storage : Storage) : World :=
  match Codexes.setRunning config world.manager call.codexID call.turnID call.requestID now
      storage.writes storage.commit storage.second with
  | (m, .ok _) =>
      { world with
        manager := m, calls := { call with running := true } :: world.calls.erase call }
  | (m, .error _) => { world with manager := m, calls := world.calls.erase call }

/-- Replace the Manager. -/
def World.put (world : World) (m : Manager) : World := { world with manager := m }

instance : LawfulBEq (Codex × String) := inferInstance

/-- An operation that runs to its end. -/
def perform (config : Config) (world : World) (operation : Operation) (now : Int)
    (storage : Storage) : Option World :=
  let m := world.manager
  match operation with
  | .create codexID session access requestID =>
      if world.Fresh codexID then
        some (world.save config (createdCodex config codexID session now) session access
          requestID now storage)
      else none
  | .importSession codexID session origin created access requestID =>
      if world.Fresh codexID then
        some (world.save config (importedCodex config codexID session origin created now) session
          access requestID now storage)
      else none
  | .announce codex requestID =>
      if (codex, requestID) ∈ world.saved then
        some { world with
          manager := (publishCodex config m codex requestID now storage.commit).1
          saved := world.saved.erase (codex, requestID) }
      else none
  | .startTurn codexID requestID parts answer =>
      some (world.startTurn codexID requestID parts answer)
  | .setRunning call =>
      if call ∈ world.calls ∧ call.running = false then
        some (world.setRunning config call now storage)
      else none
  | .userMessage call =>
      if call ∈ world.calls ∧ call.running = true then
        some { world with
          manager := (publishAcceptedUserMessage config m call.codexID call.turnID call.parts
            call.requestID now storage.writes storage.commit).1
          calls := world.calls.erase call }
      else none
  | .workspace codexID state =>
      some (world.put (commitWorkspaceState m codexID state now storage.commit storage.reads
        storage.reloads).1)
  | .notify event =>
      some (world.put (applyAdapterEventLocked config m event now storage.writes storage.commit
        storage.second).1)
  | .resolve codexID pendingID resolved requestID saves =>
      some (world.put (resolvePending config m codexID pendingID resolved requestID now saves
        storage).1)
  | .renew codexID => some (world.put (renewLease config m codexID now storage).1)
  | .unmanage codexID requestID =>
      some (world.put (unmanageCodex config m codexID requestID now storage).1)
  | .sweep codexID => some (world.put (sweepLease config m codexID now storage).1)
  | .rename codexID title requestID =>
      some (world.put (renameCodex config m codexID title requestID now storage).1)
  | .forget codexID requestID records =>
      some (world.put (forgetCodex m codexID requestID now records storage.commit.outcome
        storage.commit.answers).1)
  | .restore codexID owner read access =>
      (m.events.disk.codexes codexID).map fun row =>
        world.put (restoreCodex config m row now owner read storage.reads access storage.writes)
  | .watch codexID after queue =>
      some (world.put { m with events := (watch m.events codexID after queue storage.reads).1 })
  | .read codexID =>
      some (world.put { m with events := (currentView m.events codexID storage.reads).1 })
  | .restart replayCapacity =>
      some { manager := restartHost m replayCapacity, issued := world.issued }

/-- The operations that run to their end, with what enables them. -/
inductive Performs (config : Config) (world : World) (now : Int) (storage : Storage) :
    Operation → World → Prop
  | create (codexID : String) (session : Session) (access : Option WorkspaceAccessState)
      (requestID : String) (fresh : world.Fresh codexID) :
      Performs config world now storage (.create codexID session access requestID)
        (world.save config (createdCodex config codexID session now) session access requestID now
          storage)
  | importSession (codexID : String) (session : Session) (origin : CodexOrigin) (created : Int)
      (access : Option WorkspaceAccessState) (requestID : String)
      (fresh : world.Fresh codexID) :
      Performs config world now storage
        (.importSession codexID session origin created access requestID)
        (world.save config (importedCodex config codexID session origin created now) session
          access requestID now storage)
  | announce (codex : Codex) (requestID : String) (saved : (codex, requestID) ∈ world.saved) :
      Performs config world now storage (.announce codex requestID)
        { world with
          manager := (publishCodex config world.manager codex requestID now storage.commit).1
          saved := world.saved.erase (codex, requestID) }
  | startTurn (codexID requestID : String) (parts : List UserMessagePart)
      (answer : Option String) :
      Performs config world now storage (.startTurn codexID requestID parts answer)
        (world.startTurn codexID requestID parts answer)
  | setRunning (call : Call) (accepted : call ∈ world.calls) (waits : call.running = false) :
      Performs config world now storage (.setRunning call)
        (world.setRunning config call now storage)
  | userMessage (call : Call) (accepted : call ∈ world.calls) (running : call.running = true) :
      Performs config world now storage (.userMessage call)
        { world with
          manager := (publishAcceptedUserMessage config world.manager call.codexID call.turnID
            call.parts call.requestID now storage.writes storage.commit).1
          calls := world.calls.erase call }
  | workspace (codexID : String) (state : WorkspaceAccessState) :
      Performs config world now storage (.workspace codexID state)
        (world.put (commitWorkspaceState world.manager codexID state now storage.commit
          storage.reads storage.reloads).1)
  | notify (event : AdapterEvent) :
      Performs config world now storage (.notify event)
        (world.put (applyAdapterEventLocked config world.manager event now storage.writes
          storage.commit storage.second).1)
  | resolve (codexID pendingID : String) (resolved : PendingRequest) (requestID : String)
      (saves : Bool) :
      Performs config world now storage (.resolve codexID pendingID resolved requestID saves)
        (world.put (resolvePending config world.manager codexID pendingID resolved requestID now
          saves storage).1)
  | renew (codexID : String) :
      Performs config world now storage (.renew codexID)
        (world.put (renewLease config world.manager codexID now storage).1)
  | unmanage (codexID requestID : String) :
      Performs config world now storage (.unmanage codexID requestID)
        (world.put (unmanageCodex config world.manager codexID requestID now storage).1)
  | sweep (codexID : String) :
      Performs config world now storage (.sweep codexID)
        (world.put (sweepLease config world.manager codexID now storage).1)
  | rename (codexID title requestID : String) :
      Performs config world now storage (.rename codexID title requestID)
        (world.put (renameCodex config world.manager codexID title requestID now storage).1)
  | forget (codexID requestID : String) (records : Bool) :
      Performs config world now storage (.forget codexID requestID records)
        (world.put (forgetCodex world.manager codexID requestID now records
          storage.commit.outcome storage.commit.answers).1)
  | restore (codexID owner : String) (read : ThreadRead) (access : Option WorkspaceAccessState)
      (row : CodexRecord) (stored : world.manager.events.disk.codexes codexID = some row) :
      Performs config world now storage (.restore codexID owner read access)
        (world.put (restoreCodex config world.manager row now owner read storage.reads access
          storage.writes))
  | watch (codexID : String) (after : Option Nat) (queue : Int) :
      Performs config world now storage (.watch codexID after queue)
        (world.put { world.manager with
          events := (watch world.manager.events codexID after queue storage.reads).1 })
  | read (codexID : String) :
      Performs config world now storage (.read codexID)
        (world.put { world.manager with
          events := (currentView world.manager.events codexID storage.reads).1 })
  | restart (replayCapacity : Int) :
      Performs config world now storage (.restart replayCapacity)
        { manager := restartHost world.manager replayCapacity, issued := world.issued }

theorem perform_performs {next : World}
    (performed : perform config world operation now storage = some next) :
    Performs config world now storage operation next := by
  cases operation with
  | create codexID session access requestID =>
    simp only [perform, ite_none_right_eq_some, some.injEq] at performed
    obtain ⟨fresh, rfl⟩ := performed
    exact .create codexID session access requestID fresh
  | importSession codexID session origin created access requestID =>
    simp only [perform, ite_none_right_eq_some, some.injEq] at performed
    obtain ⟨fresh, rfl⟩ := performed
    exact .importSession codexID session origin created access requestID fresh
  | announce codex requestID =>
    simp only [perform, ite_none_right_eq_some, some.injEq] at performed
    obtain ⟨saved, rfl⟩ := performed
    exact .announce codex requestID saved
  | setRunning call =>
    simp only [perform, ite_none_right_eq_some, some.injEq] at performed
    obtain ⟨⟨accepted, waits⟩, rfl⟩ := performed
    exact .setRunning call accepted waits
  | userMessage call =>
    simp only [perform, ite_none_right_eq_some, some.injEq] at performed
    obtain ⟨⟨accepted, running⟩, rfl⟩ := performed
    exact .userMessage call accepted running
  | restore codexID owner read access =>
    obtain ⟨row, stored, rfl⟩ := map_eq_some_iff.mp performed
    exact .restore codexID owner read access row stored
  | startTurn | workspace | notify | resolve | renew | unmanage | sweep | rename | forget | watch
  | read | restart =>
    cases performed
    constructor

@[simp]
theorem put_manager (world : World) (m : Manager) : (world.put m).manager = m := rfl

@[simp]
theorem save_manager (config : Config) (world : World) (codex : Codex) (session : Session)
    (access : Option WorkspaceAccessState) (requestID : String) (now : Int) (storage : Storage) :
    (world.save config codex session access requestID now storage).manager =
      (saveCodex config world.manager codex session access now storage.writes).1 := by
  unfold World.save
  split <;> next saved => simp [saved]

@[simp]
theorem startTurn_manager (world : World) (codexID requestID : String)
    (parts : List UserMessagePart) (answer : Option String) :
    (world.startTurn codexID requestID parts answer).manager = world.manager := by
  unfold World.startTurn
  split
  · split <;> rfl
  · rfl

@[simp]
theorem setRunning_manager (config : Config) (world : World) (call : Call) (now : Int)
    (storage : Storage) :
    (world.setRunning config call now storage).manager =
      (setRunning config world.manager call.codexID call.turnID call.requestID now
        storage.writes storage.commit storage.second).1 := by
  unfold World.setRunning
  split <;> next done => simp [done]

/-- Watching and reading leave the database alone. -/
theorem watch_disk_kept (m : Machine) (codexID : String) (after : Option Nat) (queue : Int)
    (answers : Bool) : (Activity.watch m codexID after queue answers).1.disk = m.disk := by
  obtain ⟨same, -⟩ | ⟨st, -, same, -⟩ := watch_cases m codexID after queue answers
  · rw [same]
  · rw [same]
    rfl

theorem currentView_disk_kept (m : Machine) (codexID : String) (answers : Bool) :
    (currentView m codexID answers).1.disk = m.disk := by
  unfold currentView
  split <;> rfl

/-- The operations that change the lease of a Codex and announce it. -/
inductive Lifecycle where
  | unmanage (requestID : String)
  | renew
  | sweep
  deriving DecidableEq

/-- What an operation is about to write. The marker `kept` is the one it keeps behind an unknown
outcome, and `again` says whether it then writes the row once more. -/
structure Draft where
  snapshot : CurrentView
  requestID : String := ""
  marker : Int := 0
  kept : Int := 0
  again : Bool := false

/-- The decision of each operation; none if it returns before its first write. -/
def Lifecycle.draft (config : Config) (m : Manager) (codexID : String) (now : Int) :
    Lifecycle → Option Draft
  | .unmanage requestID =>
      if codexID = "" then none
      else match known m codexID with
      | .error _ => none
      | .ok (view, codex) =>
          if codex.managementState = .unmanaged then none
          else if manualUnmanageBusy view then none
          else some { snapshot := unmanagedFrom now view, requestID := requestID }
  | .renew =>
      match known m codexID with
      | .error _ => none
      | .ok (view, codex) =>
          if codex.managementState = .unmanaged then none
          else some { snapshot := renewedView now (now + config.leaseDuration) view }
  | .sweep =>
      match known m codexID with
      | .error _ => none
      | .ok (view, codex) =>
          (sweepPlan config view codex (m.warningDeadline codexID) now).map fun plan =>
            { snapshot := plan.snapshot, marker := plan.marker
              kept := if plan.due then 0 else plan.marker, again := plan.due }

section Drafts

variable {config : Config} {m : Manager} {codexID : String} {now : Int} {draft : Draft}

theorem draft_renew (drafted : Lifecycle.renew.draft config m codexID now = some draft) :
    ∃ view codex, known m codexID = .ok (view, codex) ∧ codex.managementState ≠ .unmanaged ∧
      draft = { snapshot := renewedView now (now + config.leaseDuration) view } := by
  simp only [Lifecycle.draft] at drafted
  split at drafted
  · cases drafted
  next view codex found =>
  split at drafted
  · cases drafted
  next managed =>
  exact ⟨view, codex, found, managed, (some.inj drafted).symm⟩

theorem draft_unmanage
    (drafted : (Lifecycle.unmanage requestID).draft config m codexID now = some draft) :
    ∃ view codex, known m codexID = .ok (view, codex) ∧ codex.managementState ≠ .unmanaged ∧
      manualUnmanageBusy view = false ∧
      draft = { snapshot := unmanagedFrom now view, requestID := requestID } := by
  simp only [Lifecycle.draft] at drafted
  split at drafted
  · cases drafted
  split at drafted
  · cases drafted
  next view codex found =>
  rw [ite_none_left_eq_some, ite_none_left_eq_some] at drafted
  obtain ⟨managed, free, same⟩ := drafted
  exact ⟨view, codex, found, managed, eq_false_of_ne_true free, (some.inj same).symm⟩

end Drafts

/-- The databases behind the first two writes of a change that is announced. -/
def lifecyclePoints (config : Config) (m : Manager) (codexID requestID : String) (now : Int)
    (snapshot : CurrentView) (marker : Int) (storage : Storage) : List Disk :=
  match persistState (m.mark codexID marker) snapshot storage.writes, snapshot.codex with
  | some stored, some codex =>
      [stored.events.disk,
        (publishCodex config (stored.remember codexID snapshot) codex requestID now
          storage.commit).1.events.disk]
  | _, _ => []

/-- The databases behind the first two writes of a change of the lease, if there is one. -/
def draftPoints (config : Config) (m : Manager) (codexID : String) (now : Int)
    (draft : Option Draft) (storage : Storage) : List Disk :=
  draft.toList.flatMap fun draft =>
    lifecyclePoints config m codexID draft.requestID now draft.snapshot draft.marker storage

theorem mem_draftPoints {config : Config} {m : Manager} {codexID : String} {now : Int}
    {made : Option Draft} {storage : Storage} {disk : Disk} :
    disk ∈ draftPoints config m codexID now made storage ↔
      ∃ draft, made = some draft ∧
        disk ∈ lifecyclePoints config m codexID draft.requestID now draft.snapshot draft.marker
          storage := by
  simp only [draftPoints, mem_flatMap, mem_toList]

/-- The databases behind the first writes of a sweep, its warning included. -/
def sweepPoints (config : Config) (m : Manager) (codexID : String) (now : Int)
    (storage : Storage) : List Disk :=
  match known m codexID with
  | .error _ => []
  | .ok (view, codex) =>
      match sweepPlan config view codex (m.warningDeadline codexID) now with
      | none => []
      | some plan =>
          lifecyclePoints config m codexID "" now plan.snapshot plan.marker storage ++
            match announceLifecycle config m codexID "" now view plan.snapshot plan.marker
                (m.warningDeadline codexID) (if plan.due then 0 else plan.marker) plan.due
                storage with
            | (after, .ok _) =>
                if plan.due then
                  [(publishEvent after (warningEvent codexID now codex.managedUntilUnixMs)
                    plan.snapshot storage.second).1.events.disk]
                else []
            | (_, .error _) => []

/-- The database behind the write of a row that events are to follow, and behind the
first of them. -/
def storedPoints (m : Manager) (view : CurrentView) (events : List Event) (storage : Storage) :
    List Disk :=
  match persistState m view storage.writes with
  | none => []
  | some stored =>
      stored.events.disk ::
        events.map fun event => (publishEvent stored event view storage.commit).1.events.disk

/-- The databases an operation can leave behind when the Host stops in it. -/
def interruptions (config : Config) (m : Manager) (operation : Operation) (now : Int)
    (storage : Storage) : List Disk :=
  match operation with
  | .setRunning call =>
      match m.byID call.codexID with
      | none => []
      | some view =>
          storedPoints (m.mark call.codexID 0)
            (runningView config.sizes config.contentBudget call.turnID now
              (now + config.leaseDuration) view)
            [{ codexId := call.codexID, occurredAtUnixMs := now
               causedByRequestId := call.requestID
               body := .turnUpdated call.turnID .running now 0 none }] storage
  | .userMessage call =>
      match known m call.codexID with
      | .error _ => []
      | .ok (view, _) =>
          storedPoints m (acceptedView now call.turnID
            (acceptedItem config.sizes config.contentBudget call.turnID call.parts) view) []
            storage
  | .notify event =>
      match m.byThread event.threadID with
      | none => []
      | some codexID =>
          match m.byID codexID with
          | none => []
          | some old =>
              match applyEvent config.sizes config.contentBudget (m.manualTitle codexID)
                  (countChunk m codexID event).2 now codexID event old with
              | none => []
              | some (view, published) => storedPoints m view [published] storage
  | .resolve codexID pendingID _ _ true =>
      match m.byID codexID with
      | none => []
      | some view => storedPoints m (resolvedView config pendingID now view) [] storage
  | .renew codexID => draftPoints config m codexID now (Lifecycle.renew.draft config m codexID now)
      storage
  | .unmanage codexID requestID => draftPoints config m codexID now
      ((Lifecycle.unmanage requestID).draft config m codexID now) storage
  | .sweep codexID => sweepPoints config m codexID now storage
  | .rename codexID title _ =>
      match known m codexID with
      | .error _ => []
      | .ok (view, codex) =>
          if codexID = "" ∨ trimSpace title = "" then []
          else storedPoints
            { m with manualTitle := Function.update m.manualTitle codexID true }
            { view with
              codex := some { codex with title := text (trimSpace title) }
              generatedAtUnixMs := now } [] storage
  | _ => []

/-- The Manager's database replaced. -/
def withDisk (m : Manager) (disk : Disk) : Manager :=
  { m with events := { m.events with disk := disk } }

def step (config : Config) (world : World) (label : Label) : Option World :=
  match perform config world label.operation label.now label.storage, label.crash with
  | none, _ => none
  | some next, none => some next
  | some _, some (writes, replayCapacity) =>
      (interruptions config world.manager label.operation label.now label.storage)[writes]?.map
        fun disk =>
          { manager := restartHost (withDisk world.manager disk) replayCapacity
            issued := world.issued }

/-- The process ends in or with the step. -/
def Label.endsProcess (label : Label) : Bool :=
  label.crash.isSome || match label.operation with
    | .restart _ => true
    | _ => false

/-- A Host with an empty database. -/
def sampleHost : World :=
  { manager := restartHost (withDisk sampleManager Disk.empty) 8 }

def sampleSession : Session :=
  { threadID := "thr", source := "cli", cwd := "/w", title := [], ownerID := "own" }

def sampleAccess : WorkspaceAccessState :=
  { generation := 1, activeAgentCount := 0, mutationStatus := .allowed, quiescenceToken := "q"
    observedAtUnixMs := 1 }

/-- The first operation of a run on the sample Host. -/
def sampleCreate : Label :=
  { operation := .create "cdx" sampleSession (some sampleAccess) "create", now := 5 }

def sampleAnnounce : Label :=
  { operation := .announce (createdCodex sampleConfig "cdx" sampleSession 5) "create", now := 6 }

end CodexRemote.Host
