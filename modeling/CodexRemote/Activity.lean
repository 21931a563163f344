import CodexRemote.Library.Runs
import CodexRemote.Persistence

/-!
# The event store

`internal/activity/store.go` keeps, for each Codex, the head of its event numbers,
a bounded suffix of its events, the last view and the registered watchers. Every
exported method holds the store's mutex from its first access to its return, so a
method is one step. Reads of the database may fail, and a commit may fail with an
outcome the caller cannot see; those choices are arguments.

Watchers live in a heap, because a client keeps its channel after the store has
removed the registration. A registration is the watcher's address; the source's
per-stream counter serves only as a map key. The registrations are visited in list
order, the source's map in any order; each visit touches one watcher, so the order
is not observable. The audit log is diagnostic, gates nothing and is left out.
-/
namespace CodexRemote.Activity

open Protocol Persistence Function

/-- Why a read of the durable event state gave nothing. -/
inductive LoadError where
  | noRows
  | failed
  deriving DecidableEq

/-- Errors of the store's methods. A refusal of the arguments carries its text. -/
inductive StoreError where
  | invalid (message : String)
  | codexNotFound (codexID : String)
  | load (error : LoadError)
  | commit (error : CommitError)
  | viewUnavailable (codexID : String)
  deriving DecidableEq

/-- A client's live channel and its slow signal. -/
structure Watcher where
  capacity : Nat := 0
  events : List Event := []
  closed : Bool := false
  slow : Bool := false
  deriving DecidableEq

/-- The cached state of one Codex. -/
structure Stream where
  head : Nat := 0
  events : List Event := []
  view : Option CurrentView := none
  replayUnsafe : Bool := false
  safeReplayFloor : Option Nat := none
  needsReload : Bool := false
  watchers : List Nat := []
  deriving DecidableEq

/-- The database, the store of the running process and its clients' channels. -/
structure Machine where
  disk : Disk
  capacity : Nat
  codex : String → Option Stream
  heap : Nat → Watcher
  allocated : Nat

/-- `NewStore` over an existing database; a capacity that is not positive selects
the default. -/
def newStore (disk : Disk) (heap : Nat → Watcher) (allocated : Nat)
    (replayCapacity : Int) : Machine :=
  { disk := disk
    capacity := if replayCapacity ≤ 0 then 1024 else replayCapacity.toNat
    codex := fun _ => none
    heap := heap
    allocated := allocated }

/-- Point the map at a stream; in the source streams are shared by reference. -/
def Machine.put (m : Machine) (codexID : String) (st : Stream) : Machine :=
  { m with codex := update m.codex codexID (some st) }

/-- The registered watchers of a Codex. -/
def Machine.registered (m : Machine) (codexID : String) : List Nat :=
  match m.codex codexID with
  | some st => st.watchers
  | none => []

/-- `LoadEventState` as the store calls it. The flag says whether the database
answers. -/
def load (disk : Disk) (codexID : String) (answers : Bool) :
    Except LoadError (Nat × Snapshot) :=
  if answers then
    match loadEventState disk codexID with
    | some state => .ok state
    | none => .error .noRows
  else .error .failed

/-- The stream `ensure` builds on first use. Replay is unsafe when the stored view
does not vouch for the head. -/
def Stream.opened (head : Nat) (raw : Snapshot) : Stream :=
  { head := head
    view := raw.decode
    replayUnsafe :=
      match raw with
      | .absent => decide (head ≠ 0)
      | .readable view => decide (view.headEventSeq ≠ head)
      | _ => true }

/-- `loadDurable`: head and view come from the database, or nothing changes. -/
def loadDurable (loaded : Except LoadError (Nat × Snapshot)) (st : Stream) :
    Except LoadError Stream :=
  match loaded with
  | .error error => .error error
  | .ok (head, raw) => .ok { st with head := head, view := raw.decode }

/-- `ensure`: the stream of a Codex, reloaded if an earlier reload failed and
opened if this process has none yet. A failure changes nothing. -/
def ensure (m : Machine) (codexID : String) (answers : Bool) : Except StoreError Stream :=
  match m.codex codexID with
  | some st =>
      if st.needsReload then
        match loadDurable (load m.disk codexID answers) st with
        | .error error => .error (.load error)
        | .ok loaded => .ok { loaded with needsReload := false, replayUnsafe := true }
      else .ok st
  | none =>
      match load m.disk codexID answers with
      | .error .noRows => .error (.codexNotFound codexID)
      | .error .failed => .error (.load .failed)
      | .ok (head, raw) => .ok (Stream.opened head raw)

/-- `reloadUnsafe`, also the body of `ReloadDurable`: the cached suffix is dropped
whether or not the database answers. -/
def reloadUnsafe (loaded : Except LoadError (Nat × Snapshot)) (st : Stream) : Stream :=
  let cleared := { st with events := [], replayUnsafe := true, safeReplayFloor := none }
  match loadDurable loaded cleared with
  | .error _ => { cleared with needsReload := true }
  | .ok fresh => { fresh with needsReload := false }

/-- The delivery loop of `Publish`: a full channel costs the watcher its
registration and raises its slow signal. -/
def offer (event : Event) : List Nat → (Nat → Watcher) → List Nat × (Nat → Watcher)
  | [], heap => ([], heap)
  | address :: rest, heap =>
      let watcher := heap address
      if watcher.events.length < watcher.capacity then
        let (kept, after) := offer event rest
          (update heap address { watcher with events := watcher.events ++ [event] })
        (address :: kept, after)
      else
        offer event rest (update heap address { watcher with slow := true })

/-- The view written with an event carries that event's number. Encoding may
fail; a written view reads back as itself. -/
def buildView (view : CurrentView) (marshals : Bool) (seq : Nat) : Option Snapshot :=
  if marshals then some (.readable { view with headEventSeq := seq }) else none

/-- The stream behind a successful commit: head and view advance, the event is
cached, and the cache is trimmed to its capacity. -/
def Stream.extended (st : Stream) (capacity : Nat) (view : CurrentView) (event : Event)
    (kept : List Nat) : Stream :=
  let cached := st.events ++ [event]
  { st with
    head := event.eventSeq
    view := some { view with headEventSeq := event.eventSeq }
    events := cached.drop (cached.length - capacity)
    watchers := kept }

/-- The part of `Publish` behind a successful commit. -/
def expose (m : Machine) (st : Stream) (view : CurrentView) (event : Event) : Machine :=
  let (kept, heap) := offer event st.watchers m.heap
  { m with heap := heap }.put event.codexId (st.extended m.capacity view event kept)

/-- `Publish`: commit the number with its view, then expose the event. After any
failed commit the cache is dropped, because the durable head may have moved. -/
def publish (m : Machine) (event : Option Event) (view : Option CurrentView) (now : Int)
    (marshals : Bool) (outcome : CommitOutcome) (answers reloads : Bool) :
    Machine × Except StoreError Event :=
  match event with
  | none => (m, .error (.invalid "event with codex id is required"))
  | some event =>
      if event.codexId = "" then (m, .error (.invalid "event with codex id is required"))
      else match view with
        | none => (m, .error (.invalid "event CurrentView is required"))
        | some view =>
            match ensure m event.codexId answers with
            | .error error => (m, .error error)
            | .ok st =>
                match commitEvent m.disk now event.codexId (buildView view marshals) outcome with
                | (disk, .error error) =>
                    ({ m with disk := disk }.put event.codexId
                      (reloadUnsafe (load disk event.codexId reloads) st),
                      .error (.commit error))
                | (disk, .ok seq) =>
                    (expose { m with disk := disk } st view { event with eventSeq := seq },
                      .ok { event with eventSeq := seq })

/-- The inner loop of `Forget`: the oldest queued events go until one more fits. -/
def makeRoom (capacity : Nat) : List Event → List Event
  | [] => []
  | oldest :: rest =>
      if (oldest :: rest).length < capacity then oldest :: rest else makeRoom capacity rest

/-- The delivery loop of `Forget`: every channel gets the terminal event and is
closed. -/
def terminate (event : Event) : List Nat → (Nat → Watcher) → (Nat → Watcher)
  | [], heap => heap
  | address :: rest, heap =>
      let watcher := heap address
      terminate event rest (update heap address
        { watcher with
          events := makeRoom watcher.capacity watcher.events ++ [event]
          closed := true })

/-- The event `Forget` announces. Its number follows the cached head and is never
written to the database. -/
def forgottenEvent (st : Stream) (codexID requestID : String) (now : Int) : Event :=
  { codexId := codexID
    eventSeq := st.head + 1
    occurredAtUnixMs := now
    causedByRequestId := requestID
    body := .codexForgotten }

/-- `Forget` with `DeleteCodex` as its destroy step, as the Manager calls it. The
event is delivered before the deletion is attempted. -/
def forget (m : Machine) (codexID requestID : String) (now : Int)
    (outcome : CommitOutcome) (answers : Bool) : Machine × Except StoreError Event :=
  if codexID = "" then
    (m, .error (.invalid "codex id and destroy callback are required"))
  else match ensure m codexID answers with
    | .error error => (m, .error error)
    | .ok st =>
        let event := forgottenEvent st codexID requestID now
        let delivered :=
          { m with heap := terminate event st.watchers m.heap }.put codexID
            { st with watchers := [] }
        match deleteCodex m.disk codexID outcome with
        | (disk, .error error) => ({ delivered with disk := disk }, .error (.commit error))
        | (disk, .ok _) =>
            ({ delivered with
                disk := disk, codex := update delivered.codex codexID none },
              .ok event)

/-- `ReloadDurable`: a Codex without a stream gets an empty one first. -/
def reloadDurable (m : Machine) (codexID : String) (answers : Bool) :
    Machine × Except StoreError Unit :=
  if codexID = "" then (m, .error (.invalid "codex id is required"))
  else
    let loaded := load m.disk codexID answers
    (m.put codexID (reloadUnsafe loaded ((m.codex codexID).getD {})),
      match loaded with
      | .error error => .error (.load error)
      | .ok _ => .ok ())

/-- How a watch answers a cursor. -/
inductive WatchMode where
  | resumed
  | reset
  deriving DecidableEq

inductive WatchResetReason where
  | unspecified
  | initialWatch
  | cursorUnavailable
  | cursorInvalid
  | hostRestarted
  deriving DecidableEq

structure WatchCodexResponse where
  codexId : String
  headEventSeq : Nat
  mode : WatchMode
  resetReason : WatchResetReason := .unspecified
  resetView : Option CurrentView := none
  replayFromEventSeq : Nat := 0
  deriving DecidableEq

/-- What a caller of `Watch` holds: the boundary, the replay before it, and the
address of its live channel behind it. -/
structure Watch where
  response : WatchCodexResponse
  replay : List Event
  address : Nat
  deriving DecidableEq

/-- `cloneView`: the view stamped with the head it is handed out at. -/
def cloneView (view : Option CurrentView) (head : Nat) : CurrentView :=
  match view with
  | none => { headEventSeq := head }
  | some view => { view with headEventSeq := head }

/-- The scan of `continuousReplayAvailable` behind its early return. -/
def scanReplay (start head : Nat) : Nat → List Event → Bool
  | _, [] => false
  | expected, event :: rest =>
      if event.eventSeq < start then scanReplay start head expected rest
      else if event.eventSeq ≠ expected then false
      else if head < expected + 1 then true
      else scanReplay start head (expected + 1) rest

/-- `continuousReplayAvailable`: the cache holds every number from `start` to the
head without a gap. -/
def continuousReplayAvailable (events : List Event) (start head : Nat) : Bool :=
  if head < start then true else scanReplay start head start events

/-- The four ways `watchLocked` answers, in the order it tries them. -/
def answer (codexID : String) (st : Stream) (after : Option Nat) :
    WatchCodexResponse × List Event :=
  let reset (reason : WatchResetReason) : WatchCodexResponse × List Event :=
    ({ codexId := codexID, headEventSeq := st.head, mode := .reset, resetReason := reason
       resetView := some (cloneView st.view st.head) }, [])
  match after with
  | none => reset .initialWatch
  | some cursor =>
      if st.replayUnsafe = true ∧ (∀ floor ∈ st.safeReplayFloor, cursor < floor) then
        reset .cursorUnavailable
      else if st.head < cursor then reset .cursorInvalid
      else if continuousReplayAvailable st.events (cursor + 1) st.head = false then
        reset .cursorUnavailable
      else
        ({ codexId := codexID, headEventSeq := st.head, mode := .resumed
           replayFromEventSeq := cursor + 1 },
          st.events.filter fun event =>
            decide (cursor + 1 ≤ event.eventSeq) && decide (event.eventSeq ≤ st.head))

/-- `watchLocked`: register a channel and answer at one boundary. Every RESET
makes its head a safe floor for later cursors. -/
def watchLocked (m : Machine) (codexID : String) (st : Stream) (after : Option Nat)
    (queue : Nat) : Machine × Watch :=
  let (response, replay) := answer codexID st after
  let floor := if response.mode = .reset then some response.headEventSeq
    else st.safeReplayFloor
  ({ m with
      heap := update m.heap m.allocated { capacity := queue }
      allocated := m.allocated + 1 }.put codexID
        { st with watchers := st.watchers ++ [m.allocated], safeReplayFloor := floor },
    { response := response, replay := replay, address := m.allocated })

/-- A queue size that is not positive selects the default. -/
def queueSize (queue : Int) : Nat := if queue ≤ 0 then 128 else queue.toNat

/-- `Watch`. -/
def watch (m : Machine) (codexID : String) (after : Option Nat) (queue : Int)
    (answers : Bool) : Machine × Except StoreError Watch :=
  if codexID = "" then (m, .error (.invalid "codex id is required"))
  else match ensure m codexID answers with
    | .error error => (m, .error error)
    | .ok st =>
        let (next, opened) := watchLocked m codexID st after (queueSize queue)
        (next, .ok opened)

/-- `ForceReset`: a watch without a cursor that reports the caller's reason. -/
def forceReset (m : Machine) (codexID : String) (reason : WatchResetReason) (queue : Int)
    (answers : Bool) : Machine × Except StoreError Watch :=
  match watch m codexID none queue answers with
  | (next, .ok opened) =>
      (next, .ok { opened with response := { opened.response with resetReason := reason } })
  | (next, .error error) => (next, .error error)

/-- `CurrentView`. The stream it ensures stays cached even when it has no view. -/
def currentView (m : Machine) (codexID : String) (answers : Bool) :
    Machine × Except StoreError CurrentView :=
  match ensure m codexID answers with
  | .error error => (m, .error error)
  | .ok st =>
      (m.put codexID st,
        match st.view with
        | none => .error (.viewUnavailable codexID)
        | some view => .ok view)

/-- The `Cancel` closure. Only a watcher that is still registered is closed, which
also makes a second call do nothing. -/
def cancel (m : Machine) (codexID : String) (address : Nat) : Machine :=
  match m.codex codexID with
  | none => m
  | some st =>
      let watcher := m.heap address
      if address ∈ st.watchers then
        { m with
          heap := update m.heap address { watcher with closed := true } }.put codexID
            { st with watchers := st.watchers.filter (· ≠ address) }
      else m

variable {m : Machine}

/-- What `ensure` can return: the cached stream, the cached stream with a fresh
boundary, or a newly opened one. -/
theorem ensure_cases {codexID : String} {answers : Bool} {st : Stream}
    (ensured : ensure m codexID answers = .ok st) :
    (m.codex codexID = some st ∧ st.needsReload = false) ∨
    (∃ old row, m.codex codexID = some old ∧ old.needsReload = true ∧
      m.disk.codexes codexID = some row ∧
      st = { old with
        head := m.disk.head codexID, view := row.currentViewJSON.decode
        needsReload := false, replayUnsafe := true }) ∨
    (∃ row, m.codex codexID = none ∧ m.disk.codexes codexID = some row ∧
      st = Stream.opened (m.disk.head codexID) row.currentViewJSON) := by
  unfold ensure at ensured
  cases cached : m.codex codexID with
  | some old =>
    simp only [cached] at ensured
    split at ensured
    case isTrue reload =>
      refine .inr (.inl ?_)
      cases stored : m.disk.codexes codexID with
      | none => cases answers <;> simp [load, loadEventState, stored, loadDurable] at ensured
      | some row =>
        cases answers with
        | false => simp [load, loadDurable] at ensured
        | true =>
          simp only [load, loadEventState, stored, loadDurable, if_true, Option.map_some,
            Except.ok.injEq] at ensured
          exact ⟨old, row, rfl, reload, rfl, ensured.symm⟩
    case isFalse ready =>
      cases ensured
      exact .inl ⟨rfl, by simpa using ready⟩
  | none =>
    refine .inr (.inr ?_)
    cases stored : m.disk.codexes codexID with
    | none => cases answers <;> simp [cached, load, loadEventState, stored] at ensured
    | some row =>
      cases answers with
      | false => simp [cached, load] at ensured
      | true =>
        simp only [cached, load, loadEventState, stored, if_true, Option.map_some,
          Except.ok.injEq] at ensured
        exact ⟨row, rfl, rfl, ensured.symm⟩

/-- Ensuring a stream keeps its registrations and leaves nothing to reload. -/
theorem ensure_registered (ensured : ensure m codexID answers = .ok st) :
    st.watchers = m.registered codexID ∧ st.needsReload = false := by
  obtain ⟨cached, ready⟩ | ⟨old, row, cached, -, -, rfl⟩ | ⟨row, cached, -, rfl⟩ :=
    ensure_cases ensured
  · exact ⟨by simp [Machine.registered, cached], ready⟩
  · exact ⟨by simp [Machine.registered, cached], rfl⟩
  · exact ⟨by simp [Machine.registered, cached, Stream.opened], rfl⟩

/-- A reload drops the cached events, keeps the registrations, and either has the
durable head or asks to be repeated. -/
theorem reloadUnsafe_fields (disk : Disk) (codexID : String) (answers : Bool) (st : Stream) :
    let reloaded := reloadUnsafe (load disk codexID answers) st
    reloaded.events = [] ∧ reloaded.watchers = st.watchers ∧
      (reloaded.needsReload = false → reloaded.head = disk.head codexID) := by
  cases answers with
  | false => simp [load, reloadUnsafe, loadDurable]
  | true =>
    cases stored : disk.codexes codexID <;>
      simp [load, loadEventState, stored, reloadUnsafe, loadDurable]

/-- What `Publish` can do: refuse without effect, drop the cache after a failed
commit, or expose the event under the number after the durable head. Only an
unknown outcome moves the durable head without exposing the event. -/
theorem publish_cases (m : Machine) (event : Option Event) (view : Option CurrentView)
    (now : Int) (marshals : Bool) (outcome : CommitOutcome) (answers reloads : Bool) :
    let result := publish m event view now marshals outcome answers reloads
    (result.1 = m ∧ ∃ error, result.2 = .error error) ∨
    ∃ given st, event = some given ∧ given.codexId ≠ "" ∧
      ensure m given.codexId answers = .ok st ∧
      ((∃ disk error,
          result = ({ m with disk := disk }.put given.codexId
            (reloadUnsafe (load disk given.codexId reloads) st), .error error) ∧
          (disk = m.disk ∨ outcome = .unknown true ∧ ∃ row raw,
            m.disk.codexes given.codexId = some row ∧
            disk = m.disk.writeEvent now given.codexId row
              (m.disk.head given.codexId + 1) raw)) ∨
        ∃ row raw shown, m.disk.codexes given.codexId = some row ∧
          result = (expose
            { m with
              disk := m.disk.writeEvent now given.codexId row
                (m.disk.head given.codexId + 1) raw } st shown
            { given with eventSeq := m.disk.head given.codexId + 1 },
            .ok { given with eventSeq := m.disk.head given.codexId + 1 })) := by
  intro result
  cases event with
  | none => exact .inl ⟨rfl, _, rfl⟩
  | some given =>
    by_cases blank : given.codexId = ""
    · exact .inl (by simp [result, publish, blank])
    cases view with
    | none => exact .inl (by simp [result, publish, blank])
    | some shown =>
      cases ensured : ensure m given.codexId answers with
      | error error => exact .inl (by simp [result, publish, blank, ensured])
      | ok st =>
        refine .inr ⟨given, st, rfl, blank, ensured, ?_⟩
        have commits := commitEvent_commits m.disk now given.codexId (buildView shown marshals)
          outcome
        simp only [result, publish, blank, ensured, if_false]
        generalize commitEvent _ _ _ _ _ = answer at commits
        cases commits with
        | failed | lost => exact .inl ⟨_, _, rfl, .inl rfl⟩
        | unknown row raw stored => exact .inl ⟨_, _, rfl, .inr ⟨rfl, row, raw, stored, rfl⟩⟩
        | done row raw stored => exact .inr ⟨row, raw, shown, stored, rfl⟩

theorem buildView_eq (built : buildView view marshals seq = some raw) :
    raw = .readable { view with headEventSeq := seq } := by
  unfold buildView at built
  split at built <;> cases built
  rfl

/-- The database behind a `Publish` is the one before it, or has the given view in the
row of the event's Codex. -/
theorem publish_disk (m : Machine) (event : Event) (view : CurrentView) (now : Int)
    (marshals : Bool) (outcome : CommitOutcome) (answers reloads : Bool) :
    let after := (publish m (some event) (some view) now marshals outcome answers reloads).1
    after.disk = m.disk ∨ ∃ row seq, m.disk.codexes event.codexId = some row ∧
      after.disk = m.disk.writeEvent now event.codexId row seq
        (.readable { view with headEventSeq := seq }) := by
  intro after
  by_cases blank : event.codexId = ""
  · exact .inl (by simp [after, publish, blank])
  cases ensured : ensure m event.codexId answers with
  | error error => exact .inl (by simp [after, publish, blank, ensured])
  | ok st =>
    have commits := commitEvent_commits m.disk now event.codexId (buildView view marshals) outcome
    simp only [after, publish, blank, ensured, if_false]
    generalize commitEvent _ _ _ _ _ = answer at commits
    cases commits with
    | failed | lost => exact .inl rfl
    | unknown row raw stored built | done row raw stored built =>
      rw [buildView_eq built]
      exact .inr ⟨row, _, stored, rfl⟩

/-- A `Publish` that is known to have failed leaves the database alone. -/
theorem publish_failed (m : Machine) (event : Event) (view : CurrentView) (now : Int)
    (marshals : Bool) (outcome : CommitOutcome) (answers reloads : Bool) (error : StoreError)
    (failed : (publish m (some event) (some view) now marshals outcome answers reloads).2 =
      .error error) (definite : error ≠ .commit .outcomeUnknown) :
    (publish m (some event) (some view) now marshals outcome answers reloads).1.disk =
      m.disk := by
  by_cases blank : event.codexId = ""
  · simp [publish, blank]
  cases ensured : ensure m event.codexId answers with
  | error refused => simp [publish, blank, ensured]
  | ok st =>
    have commits := commitEvent_commits m.disk now event.codexId (buildView view marshals) outcome
    simp only [publish, blank, ensured, if_false] at failed ⊢
    generalize commitEvent _ _ _ _ _ = answer at commits failed ⊢
    cases commits with
    | failed => rfl
    | done => cases failed
    | lost | unknown =>
      cases failed
      exact absurd rfl definite

/-- Opening a stream commits nothing, so it cannot fail like a commit. -/
theorem ensure_error (m : Machine) (codexID : String) (answers : Bool) (error : CommitError) :
    ensure m codexID answers ≠ .error (.commit error) := by
  unfold ensure
  split
  · split
    · split <;> nofun
    · nofun
  · split <;> nofun

/-- A `Publish` with an unknown outcome has tried the commit, and has reloaded the stream or is to
reload it. The database is the one before it, or has the given view in the row of the event's
Codex. -/
theorem publish_unknown (m : Machine) (event : Event) (view : CurrentView) (now : Int)
    (marshals : Bool) (outcome : CommitOutcome) (answers reloads : Bool)
    (failed : (publish m (some event) (some view) now marshals outcome answers reloads).2 =
      .error (.commit .outcomeUnknown)) :
    let after := (publish m (some event) (some view) now marshals outcome answers reloads).1
    event.codexId ≠ "" ∧ (∃ durable, outcome = .unknown durable) ∧
      (∃ st, after.codex event.codexId =
        some (reloadUnsafe (load after.disk event.codexId reloads) st)) ∧
      (outcome = .unknown false ∧ after.disk = m.disk ∨
        ∃ row seq, m.disk.codexes event.codexId = some row ∧
          after.disk = m.disk.writeEvent now event.codexId row seq
            (.readable { view with headEventSeq := seq })) := by
  by_cases blank : event.codexId = ""
  · simp [publish, blank] at failed
  cases ensured : ensure m event.codexId answers with
  | error refused =>
    simp only [publish, blank, ensured, if_false] at failed
    cases failed
    exact absurd ensured (ensure_error m event.codexId answers _)
  | ok st =>
    have commits := commitEvent_commits m.disk now event.codexId (buildView view marshals) outcome
    simp only [publish, blank, ensured, if_false] at failed ⊢
    generalize commitEvent _ _ _ _ _ = answer at commits failed ⊢
    cases commits with
    | failed | done => cases failed
    | lost => exact ⟨blank, ⟨_, rfl⟩, ⟨st, update_self ..⟩, .inl ⟨rfl, rfl⟩⟩
    | unknown row raw stored built =>
      rw [buildView_eq built]
      exact ⟨blank, ⟨_, rfl⟩, ⟨st, update_self ..⟩, .inr ⟨row, _, stored, rfl⟩⟩

/-- A database that answers opens the stream of every row. -/
theorem ensure_answered (m : Machine) (codexID : String)
    (row : (m.disk.codexes codexID).isSome) : ∃ st, ensure m codexID true = .ok st := by
  obtain ⟨record, stored⟩ := Option.isSome_iff_exists.mp row
  unfold ensure
  cases cached : m.codex codexID with
  | some st =>
    by_cases reload : st.needsReload = true <;>
      simp [reload, load, loadEventState, stored, loadDurable]
  | none => simp [load, loadEventState, stored]

/-- A `Publish` whose storage calls all succeed commits, and writes the row. -/
theorem publish_committed (view : CurrentView) (now : Int) (reloads : Bool)
    (named : event.codexId ≠ "") (row : (m.disk.codexes event.codexId).isSome) :
    let result := publish m (some event) (some view) now true .committed true reloads
    (∃ published, result.2 = .ok published) ∧
      (result.1.disk.codexes event.codexId).isSome := by
  obtain ⟨st, ensured⟩ := ensure_answered m event.codexId row
  obtain ⟨record, stored⟩ := Option.isSome_iff_exists.mp row
  simp [publish, named, ensured, commitEvent, nextEvent, stored, buildView, expose, Machine.put,
    Disk.writeEvent]

/-- What `Forget` can do: refuse without effect, or announce and then fail to
delete, or announce and delete an existing row. An error stands for a deletion only if that became
durable unnoticed. -/
theorem forget_cases (m : Machine) (codexID requestID : String) (now : Int)
    (outcome : CommitOutcome) (answers : Bool) :
    let result := forget m codexID requestID now outcome answers
    (result.1 = m ∧ ∃ error, result.2 = .error error) ∨
    ∃ st, ensure m codexID answers = .ok st ∧
      let event := forgottenEvent st codexID requestID now
      result.1.heap = terminate event st.watchers m.heap ∧
      result.1.allocated = m.allocated ∧ result.1.capacity = m.capacity ∧
      ((∃ error, result.2 = .error error ∧
          result.1.codex = update m.codex codexID (some { st with watchers := [] }) ∧
          (outcome = .committed → m.disk.codexes codexID = none) ∧
          (result.1.disk = m.disk ∨ outcome = .unknown true ∧
            (m.disk.codexes codexID).isSome ∧ result.1.disk = m.disk.remove codexID)) ∨
        (result.2 = .ok event ∧ outcome = .committed ∧
          (m.disk.codexes codexID).isSome ∧ result.1.disk = m.disk.remove codexID ∧
          result.1.codex = update m.codex codexID none)) := by
  intro result
  by_cases blank : codexID = ""
  · exact .inl (by simp [result, forget, blank])
  cases ensured : ensure m codexID answers with
  | error error => exact .inl (by simp [result, forget, blank, ensured])
  | ok st =>
    refine .inr ⟨st, rfl, ?_⟩
    cases stored : m.disk.codexes codexID with
    | none => simp [result, forget, blank, ensured, deleteCodex, stored, Machine.put]
    | some row =>
      cases outcome with
      | committed | rolledBack =>
        simp [result, forget, blank, ensured, deleteCodex, stored, Machine.put,
          CommitOutcome.durable]
      | unknown durable =>
        cases durable <;> simp [result, forget, blank, ensured, deleteCodex, stored, Machine.put,
            CommitOutcome.durable]

/-- What `Watch` can do: refuse without effect, or register and answer. -/
theorem watch_cases (m : Machine) (codexID : String) (after : Option Nat) (queue : Int)
    (answers : Bool) :
    let result := watch m codexID after queue answers
    (result.1 = m ∧ ∃ error, result.2 = .error error) ∨
    ∃ st, ensure m codexID answers = .ok st ∧
      result.1 = (watchLocked m codexID st after (queueSize queue)).1 ∧
      result.2 = .ok (watchLocked m codexID st after (queueSize queue)).2 := by
  intro result
  by_cases blank : codexID = ""
  · exact .inl (by simp [result, watch, blank])
  cases ensured : ensure m codexID answers with
  | error error => exact .inl (by simp [result, watch, blank, ensured])
  | ok st => exact .inr ⟨st, rfl, by simp [result, watch, blank, ensured],
      by simp [result, watch, blank, ensured]⟩

end CodexRemote.Activity
