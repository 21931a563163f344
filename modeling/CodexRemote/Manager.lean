import CodexRemote.Activity
import CodexRemote.Views

/-!
# The Manager's commits

`internal/codex/manager.go` keeps the view of every Codex in memory and stores it in
its row and with its events. Each operation below holds the commit lock from its
first reading to its return, so it is one step on memory and storage together. How
each of its storage calls ends is an argument.

The operations differ in when memory follows storage: a notification changes memory
first and keeps the change when storing fails, a start keeps it on purpose, and a
workspace commit changes memory only after its event is committed.
-/
namespace CodexRemote.Codexes

open Protocol Persistence Activity Budget Function List Option

variable {codexID : String} {view : CurrentView}

/-- What an operation reads but never changes. Durations are in milliseconds. -/
structure Config where
  sizes : Sizes
  contentBudget : Int
  leaseDuration : Nat
  leaseWarningBefore : Nat

/-- The event store with its database, and the tables in memory. A string that is
not in a table reads as the empty one. -/
structure Manager where
  events : Machine
  byID : String → Option CurrentView
  byThread : String → Option String
  bySession : String → Option String
  sources : String → String
  logicalOwners : String → String
  manualTitle : String → Bool
  warningDeadline : String → Int
  chunks : String → Nat

/-- How one `Publish` goes. -/
structure Commit where
  outcome : CommitOutcome := .committed
  marshals : Bool := true
  answers : Bool := true
  reloads : Bool := true
  now : Int := 0

inductive ManagerError where
  | codexNotFound
  | viewMissing
  | persist
  | publish (error : StoreError)
  | notAdvanced
  | invalid
  | conflict
  | busy
  | workspace
  deriving DecidableEq

/-- The error stands for an event whose commit may have become durable. -/
def ManagerError.outcomeUnknown : ManagerError → Bool
  | .publish (.commit .outcomeUnknown) => true
  | _ => false

def recordFromCodex (codex : Codex) (source : String) : CodexRecord :=
  { codexID := codex.codexId, threadID := codex.threadId
    sessionSource := normalizeSessionSource source, logicalOwnerID := "", cwd := codex.cwd
    title := codex.title, origin := codex.origin, status := codex.status
    activeTurnID := codex.activeTurnId, runtimeVersion := ""
    managementState := codex.managementState, createdAtUnixMS := codex.createdAtUnixMs
    importedAtUnixMS := codex.importedAtUnixMs
    lastActivityAtUnixMS := codex.lastActivityAtUnixMs
    managedUntilUnixMS := codex.managedUntilUnixMs, warningDeadlineUnixMS := 0
    currentViewJSON := .absent, manualTitleOverride := false }

/-- The row `persistState` writes for a view with a Codex. -/
def stateRecord (m : Manager) (view : CurrentView) (codex : Codex) : CodexRecord :=
  { recordFromCodex codex (m.sources codex.codexId) with
    logicalOwnerID := m.logicalOwners codex.codexId
    manualTitleOverride := m.manualTitle codex.codexId
    warningDeadlineUnixMS := m.warningDeadline codex.codexId
    currentViewJSON := .readable view }

/-- `persistState`. The flag says whether view and row can be written. -/
def persistState (m : Manager) (view : CurrentView) (writes : Bool) : Option Manager :=
  match view.codex with
  | none => none
  | some codex =>
      if writes then
        some { m with
          events := { m.events with
            disk := upsertCodex m.events.disk (stateRecord m view codex) } }
      else none

/-- Put a view into memory. -/
def Manager.remember (m : Manager) (codexID : String) (view : CurrentView) : Manager :=
  { m with byID := update m.byID codexID (some view) }

/-- Set the marker of the last lease warning. -/
def Manager.mark (m : Manager) (codexID : String) (deadline : Int) : Manager :=
  { m with warningDeadline := update m.warningDeadline codexID deadline }

def publishEvent (m : Manager) (event : Event) (view : CurrentView) (commit : Commit) :
    Manager × Except ManagerError Event :=
  let (events, result) := publish m.events (some event) (some view) commit.now commit.marshals
    commit.outcome commit.answers commit.reloads
  ({ m with events := events }, result.mapError .publish)

/-- `publishCodex` publishes with the view that is in memory at that time. -/
def publishCodex (config : Config) (m : Manager) (codex : Codex) (requestID : String)
    (now : Int) (commit : Commit) : Manager × Except ManagerError Event :=
  match m.byID codex.codexId with
  | none => (m, .error .viewMissing)
  | some view =>
      publishEvent m
        (boundCanonicalEvent config.sizes config.contentBudget
          { codexId := codex.codexId, occurredAtUnixMs := now, causedByRequestId := requestID
            body := .codexUpdated codex }) view commit

/-- The second half of `publishCodex`. At the end of `CreateCodex` and `ImportSession` the view
was read without the commit lock, and may be an old one by now. -/
def publishRead (config : Config) (m : Manager) (codex : Codex) (view : CurrentView)
    (requestID : String) (now : Int) (commit : Commit) : Manager × Except ManagerError Event :=
  publishEvent m
    (boundCanonicalEvent config.sizes config.contentBudget
      { codexId := codex.codexId, occurredAtUnixMs := now, causedByRequestId := requestID
        body := .codexUpdated codex }) view commit

/-- A view that is still in memory makes both halves one `publishCodex`. -/
theorem publishCodex_of_read (config : Config) (m : Manager) (codex : Codex) (view : CurrentView)
    (requestID : String) (now : Int) (commit : Commit)
    (remembered : m.byID codex.codexId = some view) :
    publishCodex config m codex requestID now commit =
      publishRead config m codex view requestID now commit := by
  simp only [publishCodex, remembered, publishRead]

/-- The Codex of a view in memory, or the error every operation starts with. -/
def known (m : Manager) (codexID : String) : Except ManagerError (CurrentView × Codex) :=
  match m.byID codexID with
  | none => .error .codexNotFound
  | some view =>
      match view.codex with
      | none => .error .codexNotFound
      | some codex => .ok (view, codex)

/-- `setRunning`. Memory keeps the running view even when it cannot be stored,
because the turn has started. -/
def setRunning (config : Config) (m : Manager) (codexID turnID requestID : String) (now : Int)
    (writes : Bool) (turnCommit codexCommit : Commit) : Manager × Except ManagerError Unit :=
  match m.byID codexID with
  | none => (m, .error .codexNotFound)
  | some view =>
      let snapshot := runningView config.sizes config.contentBudget turnID now
        (now + config.leaseDuration) view
      let marked := m.mark codexID 0
      match persistState marked snapshot writes with
      | none => (marked.remember codexID snapshot, .error .persist)
      | some stored =>
          let event : Event :=
            { codexId := codexID, occurredAtUnixMs := now, causedByRequestId := requestID
              body := .turnUpdated turnID .running now 0 none }
          match publishEvent (stored.remember codexID snapshot) event snapshot turnCommit with
          | (after, .error error) => (after, .error error)
          | (after, .ok _) =>
              match snapshot.codex with
              | none => (after, .error .viewMissing)
              | some codex =>
                  let (last, result) := publishCodex config after codex requestID now codexCommit
                  (last, result.map fun _ => ())

/-- `publishAcceptedUserMessage`. -/
def publishAcceptedUserMessage (config : Config) (m : Manager) (codexID turnID : String)
    (parts : List UserMessagePart) (requestID : String) (now : Int) (writes : Bool)
    (commit : Commit) : Manager × Except ManagerError Unit :=
  match known m codexID with
  | .error error => (m, .error error)
  | .ok (view, _) =>
      let item := acceptedItem config.sizes config.contentBudget turnID parts
      let snapshot := acceptedView now turnID item view
      match persistState m snapshot writes with
      | none => (m, .error .persist)
      | some stored =>
          let event := boundCanonicalEvent config.sizes config.contentBudget
            { codexId := codexID, occurredAtUnixMs := now, causedByRequestId := requestID
              body := .itemCompleted item }
          let (after, result) :=
            publishEvent (stored.remember codexID snapshot) event snapshot commit
          (after, result.map fun _ => ())

/-- The key under which the deltas of an item are counted. -/
def chunkKey (codexID turnID itemID : String) : String :=
  codexID ++ "\x00" ++ turnID ++ "\x00" ++ itemID

/-- The chunk counters after an event, and the number the event gets. -/
def countChunk (m : Manager) (codexID : String) (event : AdapterEvent) : Manager × Nat :=
  match event.body with
  | .itemDelta .. =>
      let key := chunkKey codexID event.turnID event.itemID
      ({ m with chunks := update m.chunks key (m.chunks key + 1) }, m.chunks key + 1)
  | _ => (m, 0)

/-- `applyAdapterEventLocked`. An event of a thread without a Codex is dropped.
Memory has the new view before storing is tried. -/
def applyAdapterEventLocked (config : Config) (m : Manager) (event : AdapterEvent) (now : Int)
    (writes : Bool) (commit codexCommit : Commit) : Manager × Except ManagerError Unit :=
  match m.byThread event.threadID with
  | none => (m, .ok ())
  | some codexID =>
      match m.byID codexID with
      | none => (m, .ok ())
      | some old =>
          let (counted, chunk) := countChunk m codexID event
          match applyEvent config.sizes config.contentBudget (m.manualTitle codexID) chunk now
              codexID event old with
          | none => (counted, .ok ())
          | some (view, published) =>
              let remembered := counted.remember codexID view
              match persistState remembered view writes with
              | none => (remembered, .error .persist)
              | some stored =>
                  match publishEvent stored published view commit, event.body, view.codex with
                  | (after, .error error), _, _ => (after, .error error)
                  | (after, .ok _), .turnUpdated .., some codex =>
                      let (last, result) := publishCodex config after codex "" now codexCommit
                      (last, result.map fun _ => ())
                  | (after, .ok _), _, _ => (after, .ok ())

/-- The durable view of a Codex, where it can be read. -/
def durableView (m : Manager) (codexID : String) (reads : Bool) : Option CurrentView :=
  if reads then (m.events.disk.codexes codexID).bind fun row => row.currentViewJSON.decode
  else none

/-- The durable view shows the state. -/
def adopted (m : Manager) (codexID : String) (reads : Bool) (state : WorkspaceAccessState) :
    Bool :=
  match durableView m codexID reads with
  | some durable => durable.workspaceAccessState = some state
  | none => false

/-- The part of `commitWorkspaceState` that publishes. After an unknown outcome the
durable view, where it can be read, replaces the one in memory. -/
def publishWorkspaceState (m : Manager) (codexID : String) (state : WorkspaceAccessState)
    (view : CurrentView) (now : Int) (commit : Commit) (reads reloads : Bool) :
    Manager × Except ManagerError Unit :=
  let snapshot := { view with workspaceAccessState := some state, generatedAtUnixMs := now }
  let event : Event :=
    { codexId := codexID, occurredAtUnixMs := now
      body := .workspaceAccessStateUpdated state }
  match publishEvent m event snapshot commit with
  | (after, .ok published) =>
      (after.remember codexID { snapshot with headEventSeq := published.eventSeq }, .ok ())
  | (after, .error error) =>
      if error.outcomeUnknown then
        match durableView after codexID reads with
        | some durable =>
            let replaced := after.remember codexID durable
            ({ replaced with events := (reloadDurable replaced.events codexID reloads).1 },
              if durable.workspaceAccessState = some state then .ok () else .error .notAdvanced)
        | none => (after.remember codexID snapshot, .error error)
      else (after, .error error)

/-- `commitWorkspaceState`, the sink of workspace transitions. A state that a later
generation has overtaken, or that is durable already, is not published. -/
def commitWorkspaceState (m : Manager) (codexID : String) (state : WorkspaceAccessState)
    (now : Int) (commit : Commit) (reads reloads : Bool) : Manager × Except ManagerError Unit :=
  match known m codexID with
  | .error error => (m, .error error)
  | .ok (view, _) =>
      match view.workspaceAccessState with
      | some current =>
          if state.generation < current.generation then (m, .ok ())
          else if current = state ∧ adopted m codexID reads state = true then (m, .ok ())
          else publishWorkspaceState m codexID state view now commit reads reloads
      | none => publishWorkspaceState m codexID state view now commit reads reloads

variable {m : Manager}

theorem known_none (absent : m.byID codexID = none) : known m codexID = .error .codexNotFound := by
  simp [known, absent]

theorem known_remembered (found : known m codexID = .ok (view, codex)) :
    m.byID codexID = some view := by
  unfold known at found
  split at found
  · cases found
  next other remembered =>
  split at found
  · cases found
  · obtain ⟨rfl, -⟩ := Prod.mk.inj (Except.ok.inj found)
    exact remembered

theorem known_codex (found : known m codexID = .ok (view, codex)) :
    view.codex = some codex := by
  unfold known at found
  split at found
  · cases found
  split at found
  · cases found
  · next present =>
    obtain ⟨rfl, rfl⟩ := Prod.mk.inj (Except.ok.inj found)
    exact present

theorem durableView_row (read : durableView m codexID reads = some view) :
    ∃ row, m.events.disk.codexes codexID = some row ∧ row.currentViewJSON.decode = some view := by
  unfold durableView at read
  split at read
  · exact bind_eq_some_iff.mp read
  · cases read

/-- What a workspace commit publishes. -/
def accessEvent (codexID : String) (state : WorkspaceAccessState) (now : Int) : Event :=
  { codexId := codexID, occurredAtUnixMs := now, body := .workspaceAccessStateUpdated state }

def accessView (state : WorkspaceAccessState) (now : Int) (view : CurrentView) : CurrentView :=
  { view with workspaceAccessState := some state, generatedAtUnixMs := now }

section Sink

variable (m : Manager) (codexID : String) (state : WorkspaceAccessState) (now : Int)
  (commit : Commit) (reads reloads : Bool)

/-- How a workspace commit goes on from the answer of `publishEvent`. -/
inductive Settles (snapshot : CurrentView) (answer : Manager × Except ManagerError Event) :
    Manager × Except ManagerError Unit → Prop
  | told (event : Event) (done : answer.2 = .ok event) : Settles snapshot answer
      (answer.1.remember codexID { snapshot with headEventSeq := event.eventSeq }, .ok ())
  | reread (error : ManagerError) (durable : CurrentView) (failed : answer.2 = .error error)
      (unknown : error.outcomeUnknown = true)
      (read : durableView answer.1 codexID reads = some durable) : Settles snapshot answer
        ({ answer.1.remember codexID durable with
            events := (reloadDurable answer.1.events codexID reloads).1 },
          if durable.workspaceAccessState = some state then .ok () else .error .notAdvanced)
  | unread (error : ManagerError) (failed : answer.2 = .error error)
      (unknown : error.outcomeUnknown = true) :
      Settles snapshot answer (answer.1.remember codexID snapshot, .error error)
  | refused (error : ManagerError) (failed : answer.2 = .error error)
      (definite : error.outcomeUnknown = false) : Settles snapshot answer (answer.1, .error error)

/-- The ways a workspace commit can go. -/
inductive SinkMoves : Manager × Except ManagerError Unit → Prop
  | passed : SinkMoves (m, .ok ())
  | absent : SinkMoves (m, .error .codexNotFound)
  | published (view : CurrentView) (codex : Codex) (result : Manager × Except ManagerError Unit)
      (found : known m codexID = .ok (view, codex))
      (behind : ∀ current, view.workspaceAccessState = some current →
        current.generation ≤ state.generation)
      (settles : Settles codexID state reads reloads (accessView state now view)
        (publishEvent m (accessEvent codexID state now) (accessView state now view) commit)
          result) : SinkMoves result

theorem commitWorkspaceState_moves : SinkMoves m codexID state now commit reads reloads
    (commitWorkspaceState m codexID state now commit reads reloads) := by
  unfold commitWorkspaceState
  split
  · next error failed =>
    obtain rfl : error = .codexNotFound := by
      unfold known at failed
      split at failed
      · exact (Except.error.inj failed).symm
      split at failed
      · exact (Except.error.inj failed).symm
      · cases failed
    exact .absent
  next view codex found =>
  have settles : Settles codexID state reads reloads (accessView state now view)
      (publishEvent m (accessEvent codexID state now) (accessView state now view) commit)
      (publishWorkspaceState m codexID state view now commit reads reloads) := by
    simp only [publishWorkspaceState, accessEvent, accessView]
    generalize publishEvent m _ _ commit = answer
    obtain ⟨after, event | error⟩ := answer
    case ok => exact .told _ rfl
    dsimp only
    split
    · next unknown =>
      split
      · next durable read => exact .reread _ durable rfl unknown read
      · exact .unread _ rfl unknown
    · next definite => exact .refused _ rfl (by simpa using definite)
  have published := fun behind => SinkMoves.published view codex _ found behind settles
  split
  · next current shown =>
    split
    · exact .passed
    next overtakes =>
    split
    · exact .passed
    refine published ?_
    intro other same
    cases shown.symm.trans same
    exact Nat.le_of_not_lt overtakes
  · next none => exact published fun other same => nomatch none.symm.trans same

end Sink

/-- The Codex is in memory with this view, and has a row. -/
structure Ready (m : Manager) (codexID : String) (view : CurrentView) : Prop where
  named : codexID ≠ ""
  remembered : m.byID codexID = some view
  codex : view.codex.map Codex.codexId = some codexID
  row : (m.events.disk.codexes codexID).isSome

/-- Storing a view leaves the tables in memory alone. -/
theorem persistState_events {next : Manager} (done : persistState m view writes = some next) :
    ∃ events, next = { m with events := events } := by
  unfold persistState at done
  split at done
  · cases done
  split at done
  · exact ⟨_, (some.inj done).symm⟩
  · cases done

/-- A view with a Codex that can be written is. -/
theorem persistState_done (m : Manager) (view : CurrentView) (codex : Codex)
    (present : view.codex = some codex) :
    persistState m view true = some { m with
      events := { m.events with
        disk := upsertCodex m.events.disk (stateRecord m view codex) } } := by
  unfold persistState
  rw [present]
  rfl

theorem persistState_refused (m : Manager) (view : CurrentView) :
    persistState m view false = none := by
  unfold persistState
  split <;> rfl

variable (config : Config)

theorem publishCodex_events (m : Manager) (codex : Codex) (requestID : String)
    (now : Int) (commit : Commit) :
    ∃ events, (publishCodex config m codex requestID now commit).1 =
      { m with events := events } := by
  unfold publishCodex
  split
  · exact ⟨m.events, rfl⟩
  · exact ⟨_, rfl⟩

/-- A `Publish` at the given time that meets no error. -/
def stored (now : Int) : Commit := { now := now }

section

variable (ready : Ready m codexID view)
include ready

theorem Ready.remember (codex : shown.codex.map Codex.codexId = some codexID) :
    Ready (m.remember codexID shown) codexID shown :=
  { ready with remembered := update_self .., codex := codex }

theorem Ready.persist (codex : shown.codex.map Codex.codexId = some codexID) :
    ∃ next, persistState m shown true = some next ∧ Ready next codexID view ∧
      next.byThread = m.byThread := by
  obtain ⟨owner, present, rfl⟩ := map_eq_some_iff.mp codex
  refine ⟨_, persistState_done m shown owner present, { ready with row := ?_ }, rfl⟩
  simp [upsertCodex, stateRecord, recordFromCodex]

theorem Ready.publish (event : Event) (shown : CurrentView) (now : Int)
    (own : event.codexId = codexID) :
    ∃ next published, publishEvent m event shown (stored now) = (next, .ok published) ∧
      Ready next codexID view ∧ next.byThread = m.byThread := by
  subst own
  obtain ⟨⟨published, committed⟩, kept⟩ := publish_committed shown now true ready.named ready.row
  refine ⟨(publishEvent m event shown (stored now)).1, published, ?_,
    { ready with row := kept }, rfl⟩
  simp only [publishEvent, stored, committed]
  rfl

theorem Ready.publishCodex (requestID : String) {codex : Codex} (now later : Int)
    (named : codex.codexId = codexID) :
    ∃ next published,
      publishCodex config m codex requestID now (stored later) = (next, .ok published) ∧
      Ready next codexID view ∧ next.byThread = m.byThread := by
  subst named
  simp only [Codexes.publishCodex, ready.remembered]
  exact ready.publish _ view later (boundCanonicalEvent_codexId ..)

end

/-- A start whose storage calls succeed leaves the running view. -/
theorem setRunning_stored (turnID requestID : String)
    (now first second : Int) (ready : Ready m codexID view) :
    let running := runningView config.sizes config.contentBudget turnID now
      (now + config.leaseDuration) view
    let result := setRunning config m codexID turnID requestID now true (stored first)
      (stored second)
    result.2 = .ok () ∧ Ready result.1 codexID running ∧ result.1.byThread = m.byThread := by
  have codex : (runningView config.sizes config.contentBudget turnID now
      (now + config.leaseDuration) view).codex.map Codex.codexId = some codexID :=
    (runningView_keeps config.sizes config.contentBudget turnID now _ view).trans ready.codex
  simp only [setRunning, ready.remembered]
  generalize runningView _ _ _ _ _ _ = running at codex ⊢
  obtain ⟨owner, present, same⟩ := map_eq_some_iff.mp codex
  have marked : Ready (m.mark codexID 0) codexID view := { ready with }
  obtain ⟨next, persisted, kept, threads⟩ := marked.persist codex
  obtain ⟨after, event, published, still, same_threads⟩ := (kept.remember codex).publish
    { codexId := codexID, occurredAtUnixMs := now, causedByRequestId := requestID
      body := .turnUpdated turnID .running now 0 none } running first rfl
  obtain ⟨last, update, announced, final, last_threads⟩ := still.publishCodex config requestID now
    second same
  simp only [persisted, present, published, announced]
  exact ⟨rfl, final, last_threads.trans (same_threads.trans threads)⟩

theorem Ready.known (ready : Ready m codexID view) :
    ∃ codex, known m codexID = .ok (view, codex) := by
  obtain ⟨codex, present, -⟩ := map_eq_some_iff.mp ready.codex
  exact ⟨codex, by simp [Codexes.known, ready.remembered, present]⟩

/-- An accepted message whose storage calls succeed leaves its view. -/
theorem publishAcceptedUserMessage_stored (turnID requestID : String)
    (parts : List UserMessagePart) (now later : Int) (ready : Ready m codexID view) :
    let accepted := acceptedView now turnID
      (acceptedItem config.sizes config.contentBudget turnID parts) view
    let result := publishAcceptedUserMessage config m codexID turnID parts requestID now true
      (stored later)
    result.2 = .ok () ∧ Ready result.1 codexID accepted ∧ result.1.byThread = m.byThread := by
  obtain ⟨owner, found⟩ := ready.known
  simp only [publishAcceptedUserMessage, found]
  have codex : (acceptedView now turnID
      (acceptedItem config.sizes config.contentBudget turnID parts) view).codex.map
        Codex.codexId = some codexID := ready.codex
  generalize acceptedView _ _ _ _ = accepted at codex ⊢
  obtain ⟨next, persisted, kept, threads⟩ := ready.persist codex
  obtain ⟨after, event, published, final, same⟩ := (kept.remember codex).publish
    (boundCanonicalEvent config.sizes config.contentBudget
      { codexId := codexID, occurredAtUnixMs := now, causedByRequestId := requestID
        body := .itemCompleted (acceptedItem config.sizes config.contentBudget turnID parts) })
    accepted later (boundCanonicalEvent_codexId ..)
  simp only [persisted, published]
  exact ⟨rfl, final, same.trans threads⟩

theorem countChunk_fields (m : Manager) (codexID : String) (event : AdapterEvent) :
    ∃ chunks, (countChunk m codexID event).1 = { m with chunks := chunks } := by
  unfold countChunk
  split
  · exact ⟨_, rfl⟩
  · exact ⟨m.chunks, rfl⟩

/-- What a notification can make of the tables in memory: it counts a chunk, and it may replace
the view of the Codex that its thread belongs to. -/
inductive Applied (config : Config) (m : Manager) (event : AdapterEvent) (now : Int) :
    Manager → Prop where
  | kept (events : Machine) (chunks : String → Nat) :
      Applied config m event now { m with events := events, chunks := chunks }
  | changed (codexID : String) (old view : CurrentView) (made : Event) (events : Machine)
      (chunks : String → Nat) (thread : m.byThread event.threadID = some codexID)
      (remembered : m.byID codexID = some old)
      (applied : applyEvent config.sizes config.contentBudget (m.manualTitle codexID)
        (countChunk m codexID event).2 now codexID event old = some (view, made)) :
      Applied config m event now
        { m.remember codexID view with events := events, chunks := chunks }

/-- However its storage calls end. -/
theorem applyAdapterEventLocked_applied (m : Manager) (event : AdapterEvent)
    (now : Int) (writes : Bool) (commit codexCommit : Commit) :
    Applied config m event now
      (applyAdapterEventLocked config m event now writes commit codexCommit).1 := by
  unfold applyAdapterEventLocked
  split
  · exact .kept m.events m.chunks
  next codexID thread =>
  split
  · exact .kept m.events m.chunks
  next old remembered =>
  obtain ⟨chunks, counted⟩ := countChunk_fields m codexID event
  simp only [counted]
  split
  · exact .kept m.events chunks
  next view made applied =>
  have changed := fun events =>
    Applied.changed codexID old view made events chunks thread remembered applied
  split
  · exact changed m.events
  next stored persisted =>
  obtain ⟨events, rfl⟩ := persistState_events persisted
  split
  · next done =>
    obtain rfl := (Prod.mk.inj done).1
    exact changed _
  · next codex done _ _ =>
    obtain rfl := (Prod.mk.inj done).1
    obtain ⟨last, same⟩ := publishCodex_events config _ codex "" now codexCommit
    rw [same]
    exact changed last
  · next done _ =>
    obtain rfl := (Prod.mk.inj done).1
    exact changed _

/-- A notification whose storage calls succeed leaves what `applyEvent` computes. -/
theorem applyAdapterEventLocked_stored (now first second : Int) (ready : Ready m codexID view)
    (thread : m.byThread event.threadID = some codexID) :
    let result := applyAdapterEventLocked config m event now true (stored first) (stored second)
    ∃ after, result.2 = .ok () ∧ Ready result.1 codexID after ∧
      result.1.byThread = m.byThread ∧ (event.terminal = true → Quiet after) := by
  obtain ⟨chunks, counted⟩ := countChunk_fields m codexID event
  simp only [applyAdapterEventLocked, thread, ready.remembered, counted]
  generalize (countChunk m codexID event).2 = chunk
  cases applied : applyEvent config.sizes config.contentBudget (m.manualTitle codexID) chunk now
      codexID event view with
  | none =>
    refine ⟨view, rfl, { ready with }, rfl, ?_⟩
    intro terminal
    obtain ⟨after, published, some_applied, -⟩ := applyEvent_terminal config.sizes
      config.contentBudget (m.manualTitle codexID) chunk now codexID view terminal
    rw [applied] at some_applied
    cases some_applied
  | some pair =>
    obtain ⟨after, published⟩ := pair
    have codex : after.codex.map Codex.codexId = some codexID :=
      (applyEvent_same applied).trans ready.codex
    have named : published.codexId = codexID := applyEvent_codexId applied
    have quiet : event.terminal = true → Quiet after := by
      intro terminal
      obtain ⟨other, event', some_applied, quiet⟩ := applyEvent_terminal config.sizes
        config.contentBudget (m.manualTitle codexID) chunk now codexID view terminal
      obtain ⟨rfl, -⟩ := Prod.mk.inj (some.inj (applied.symm.trans some_applied))
      exact quiet
    obtain ⟨owner, present, same⟩ := map_eq_some_iff.mp codex
    have counting : Ready { m with chunks := chunks } codexID view := { ready with }
    obtain ⟨next, persisted, kept, threads⟩ := (counting.remember codex).persist codex
    obtain ⟨told, committed, done, still, same_threads⟩ := kept.publish published after first named
    obtain ⟨last, update, announced, final, last_threads⟩ := still.publishCodex config "" now second
      same
    refine ⟨after, ?_⟩
    simp only [persisted]
    cases event.body with
    | turnUpdated =>
      simp only [done, present, announced]
      exact ⟨rfl, final, last_threads.trans (same_threads.trans threads), quiet⟩
    | _ =>
      simp only [done, present]
      exact ⟨trivial, still, same_threads.trans threads, quiet⟩

/-- The views agree on Codex and turn. -/
def SameTurn (view after : CurrentView) : Prop :=
  after.codex = view.codex ∧ after.activeTurn = view.activeTurn

/-- A workspace commit whose storage calls succeed changes neither Codex nor turn. -/
theorem commitWorkspaceState_stored (state : WorkspaceAccessState) (now later : Int)
    (reads reloads : Bool) (ready : Ready m codexID view) :
    let result := commitWorkspaceState m codexID state now (stored later) reads reloads
    ∃ after, result.2 = .ok () ∧ Ready result.1 codexID after ∧
      result.1.byThread = m.byThread ∧ SameTurn view after := by
  obtain ⟨owner, found⟩ := ready.known
  have kept : ∃ after, (Except.ok () : Except ManagerError Unit) = .ok () ∧
      Ready m codexID after ∧ m.byThread = m.byThread ∧ SameTurn view after :=
    ⟨view, rfl, ready, rfl, rfl, rfl⟩
  have published : ∃ after,
      (publishWorkspaceState m codexID state view now (stored later) reads reloads).2 = .ok () ∧
      Ready (publishWorkspaceState m codexID state view now (stored later) reads reloads).1
        codexID after ∧
      (publishWorkspaceState m codexID state view now (stored later) reads reloads).1.byThread =
        m.byThread ∧ SameTurn view after := by
    obtain ⟨next, event, done, still, threads⟩ := ready.publish
      { codexId := codexID, occurredAtUnixMs := now
        body := .workspaceAccessStateUpdated state }
      { view with workspaceAccessState := some state, generatedAtUnixMs := now } later rfl
    simp only [publishWorkspaceState, done]
    exact ⟨_, trivial, still.remember ready.codex, threads, rfl, rfl⟩
  simp only [commitWorkspaceState, found]
  split
  · split
    · exact kept
    split
    · exact kept
    · exact published
  · exact published

/-- An idle Codex with its row, alone on its Host. -/
def sampleCodex : Codex :=
  { codexId := "cdx", threadId := "thr", cwd := "/w", title := [], origin := .remoteCreated
    status := .idle, activeTurnId := "", managementState := .managed
    managedUntilUnixMs := 100, createdAtUnixMs := 1, importedAtUnixMs := 0
    lastActivityAtUnixMs := 1, warnings := [] }

def sampleManager : Manager :=
  { events := newStore
      { codexes := fun id => if id = "cdx" then some (recordFromCodex sampleCodex "") else none
        eventHeads := fun _ => none } (fun _ => {}) 0 8
    byID := fun id => if id = "cdx" then some { codex := some sampleCodex } else none
    byThread := fun id => if id = "thr" then some "cdx" else none
    bySession := fun _ => none, sources := fun _ => "", logicalOwners := fun _ => ""
    manualTitle := fun _ => false, warningDeadline := fun _ => 0, chunks := fun _ => 0 }

/-- Every message counts as small, so nothing is clipped. -/
def sampleConfig : Config :=
  { sizes := ⟨fun _ => 0, fun _ => 0, fun _ => 0, fun _ => 0, fun _ => 0, fun _ => 0, fun _ => 0⟩
    contentBudget := 0, leaseDuration := 10, leaseWarningBefore := 1 }

end CodexRemote.Codexes
