import CodexRemote.Activity

/-!
# Runs of the event store

The store's methods as labels of one transition system, together with the history
that properties of runs speak about. A restart discards the process and keeps the
database; clients' old channels stay readable but nothing is registered.
-/
namespace CodexRemote.Activity

open Protocol Persistence Function

/-- The machine with the history no component stores: which events ever became
durable, which were shown to anyone, which Codexes lost their row, and for each
watcher the head it was opened at and what its client has read. -/
structure World where
  machine : Machine
  published : String → List Event
  exposed : String → List Event
  forgotten : List String
  base : Nat → Nat
  received : Nat → List Event

/-- One call of the store, one write of its owner, or one read of a client. -/
inductive Action where
  | upsertCodex (row : CodexRecord)
  | publish (event : Option Event) (view : Option CurrentView) (now : Int)
      (marshals : Bool) (outcome : CommitOutcome) (answers reloads : Bool)
  | watch (codexID : String) (after : Option Nat) (queue : Int) (answers : Bool)
  | forceReset (codexID : String) (reason : WatchResetReason) (queue : Int)
      (answers : Bool)
  | reloadDurable (codexID : String) (answers : Bool)
  | currentView (codexID : String) (answers : Bool)
  | cancel (codexID : String) (address : Nat)
  | receive (address : Nat)
  | forget (codexID requestID : String) (now : Int) (outcome : CommitOutcome)
      (answers : Bool)
  | restart (replayCapacity : Int)

/-- What the channels registered before a step hold after it. -/
def delivered (before after : Machine) (codexID : String) : List Event :=
  (before.registered codexID).flatMap fun address => (after.heap address).events

/-- Add to what clients of a Codex have been shown. -/
def World.reveal (world : World) (codexID : String) (events : List Event) :
    String → List Event :=
  update world.exposed codexID (world.exposed codexID ++ events)

/-- A successful watch exposes its replay and fixes the watcher's boundary. -/
def World.opened (world : World) (codexID : String)
    (result : Machine × Except StoreError Watch) : World :=
  match result with
  | (machine, .error _) => { world with machine := machine }
  | (machine, .ok opened) =>
      { world with
        machine := machine
        exposed := world.reveal codexID opened.replay
        base := update world.base opened.address opened.response.headEventSeq }

/-- A number that became durable is published, whatever its caller was told. -/
def World.afterPublish (world : World) (event : Option Event)
    (result : Machine × Except StoreError Event) : World :=
  match event with
  | none => { world with machine := result.1 }
  | some event =>
      let id := event.codexId
      let head := result.1.disk.head id
      { world with
        machine := result.1
        published :=
          if head = world.machine.disk.head id then world.published
          else update world.published id
            (world.published id ++ [{ event with eventSeq := head }])
        exposed := world.reveal id
          (result.2.toOption.toList ++ delivered world.machine result.1 id) }

/-- A forgotten Codex is one whose row was there and is gone. -/
def World.afterForget (world : World) (codexID : String)
    (result : Machine × Except StoreError Event) : World :=
  { world with
    machine := result.1
    exposed := world.reveal codexID
      (result.2.toOption.toList ++ delivered world.machine result.1 codexID)
    forgotten :=
      if (world.machine.disk.codexes codexID).isSome ∧
          (result.1.disk.codexes codexID).isNone then codexID :: world.forgotten
      else world.forgotten }

/-- One step. The single refusal is a row written under the identity of a deleted
Codex: identities are fresh random strings. -/
def step (world : World) : Action → Option World
  | .upsertCodex row =>
      if row.codexID ∈ world.forgotten then none
      else some { world with
        machine := { world.machine with disk := upsertCodex world.machine.disk row } }
  | .publish event view now marshals outcome answers reloads =>
      some (world.afterPublish event
        (publish world.machine event view now marshals outcome answers reloads))
  | .watch codexID after queue answers =>
      some (world.opened codexID (watch world.machine codexID after queue answers))
  | .forceReset codexID reason queue answers =>
      some (world.opened codexID (forceReset world.machine codexID reason queue answers))
  | .reloadDurable codexID answers =>
      some { world with machine := (reloadDurable world.machine codexID answers).1 }
  | .currentView codexID answers =>
      some { world with machine := (currentView world.machine codexID answers).1 }
  | .cancel codexID address =>
      some { world with machine := cancel world.machine codexID address }
  | .receive address =>
      let watcher := world.machine.heap address
      some { world with
        machine := { world.machine with
          heap := update world.machine.heap address
            { watcher with events := watcher.events.tail } }
        received := update world.received address
          (world.received address ++ watcher.events.head?.toList) }
  | .forget codexID requestID now outcome answers =>
      some (world.afterForget codexID
        (forget world.machine codexID requestID now outcome answers))
  | .restart replayCapacity =>
      some { world with
        machine := newStore world.machine.disk world.machine.heap world.machine.allocated
          replayCapacity }

/-- A Host about to start: any database, and any earlier history whose numbers
increase and do not pass the stored heads. -/
structure Start (world : World) : Prop where
  streams : ∀ codexID, world.machine.codex codexID = none
  ordered : ∀ codexID, (world.published codexID).Pairwise fun left right =>
    left.eventSeq < right.eventSeq
  bounded : ∀ codexID, ∀ event ∈ world.published codexID,
    event.eventSeq ≤ world.machine.disk.head codexID
  shown : ∀ codexID, ∀ event ∈ world.exposed codexID, event ∈ world.published codexID
  none_forgotten : world.forgotten = []
  unused : ∀ address, world.machine.allocated ≤ address →
    (world.machine.heap address).events = [] ∧ world.received address = []

/-- A Host on a database in which nothing is registered. -/
def emptyHost (replayCapacity : Int) : World :=
  { machine := newStore Disk.empty (fun _ => {}) 0 replayCapacity
    published := fun _ => []
    exposed := fun _ => []
    forgotten := []
    base := fun _ => 0
    received := fun _ => [] }

theorem emptyHost_start (replayCapacity : Int) : Start (emptyHost replayCapacity) := by
  refine ⟨fun _ => rfl, fun _ => List.Pairwise.nil, ?_, ?_, rfl, fun _ _ => ⟨rfl, rfl⟩⟩
  · intro codexID event member
    cases member
  · intro codexID event member
    cases member

/-- A row for worked runs. -/
def sampleRow : CodexRecord :=
  { codexID := "cdx", threadID := "thr", sessionSource := "cli", logicalOwnerID := "own"
    cwd := "/work", title := [], origin := .remoteCreated, status := .idle
    activeTurnID := "", runtimeVersion := "", managementState := .managed
    createdAtUnixMS := 1, importedAtUnixMS := 0, lastActivityAtUnixMS := 1
    managedUntilUnixMS := 10, warningDeadlineUnixMS := 0, currentViewJSON := .absent
    manualTitleOverride := false }

/-- A publication for worked runs, with every read of the database answered. -/
def samplePublish (turnId : String) (outcome : CommitOutcome) : Action :=
  .publish (some { codexId := "cdx", body := .turnUpdated turnId .running 1 0 none })
    (some {}) 5 true outcome true true

/-- The Codex an action names. A restart concerns every Codex, a client's read
none. -/
def Action.codexID : Action → Option String
  | .upsertCodex row => some row.codexID
  | .publish event _ _ _ _ _ _ => event.map Event.codexId
  | .watch codexID _ _ _ | .forceReset codexID _ _ _ | .reloadDurable codexID _
  | .currentView codexID _ | .cancel codexID _ | .forget codexID _ _ _ _ => some codexID
  | .receive _ | .restart _ => none

def Action.isRestart : Action → Bool
  | .restart _ => true
  | _ => false

def Action.isForget : Action → Bool
  | .forget _ _ _ _ _ => true
  | _ => false

/-- The stream that a call puts in the place of the one of its Codex: the same or the ensured one,
perhaps with other watchers, or one that was read again. -/
inductive Refreshed (m : Machine) (codexID : String) (st : Stream) : Prop
  | kept (old : Stream) (cached : m.codex codexID = some old) (events : st.events = old.events)
      (current : st.needsReload = old.needsReload ∧ st.head = old.head)
  | ensured (answers : Bool) (old : Stream) (is : ensure m codexID answers = .ok old)
      (events : st.events = old.events) (head : st.head = old.head)
  | reloaded (answers : Bool) (old : Stream)
      (is : st = reloadUnsafe (load m.disk codexID answers) old)

/-- An event under the number after the durable head. -/
def World.numbered (world : World) (event : Event) : Event :=
  { event with eventSeq := world.machine.disk.head event.codexId + 1 }

/-- What a step can do. Refused calls do nothing, or show the clients of a Codex once more what
their channels hold. `refreshed` stands for the calls that end with another stream, one of which
also closes a channel. A publication is `lost` behind its commit, or `exposed`; a deletion is
`announced` before it fails, or the Codex is `deleted`. -/
inductive Moves (world : World) : Action → World → Prop
  | wrote (row : CodexRecord) (fresh : row.codexID ∉ world.forgotten) :
      Moves world (.upsertCodex row)
        { world with machine := { world.machine with disk := upsertCodex world.machine.disk row } }
  | rested (action : Action) (running : action.isRestart = false) : Moves world action world
  | repeated (action : Action) (codexID : String) (named : action.codexID = some codexID) :
      Moves world action
        { world with
          exposed := world.reveal codexID (delivered world.machine world.machine codexID) }
  | refreshed (action : Action) (codexID : String) (st : Stream) (heap : Nat → Watcher)
      (named : action.codexID = some codexID) (refreshed : Refreshed world.machine codexID st)
      (fewer : st.watchers.Sublist (world.machine.registered codexID))
      (channels : ∀ address, heap address = world.machine.heap address ∨
        address ∈ world.machine.registered codexID ∧ address ∉ st.watchers ∧
          heap address = { world.machine.heap address with closed := true }) :
      Moves world action
        { world with machine := { world.machine with heap := heap }.put codexID st }
  | opened (action : Action) (codexID : String) (st : Stream) (after : Option Nat) (queue : Nat)
      (answers : Bool) (named : action.codexID = some codexID)
      (ensured : ensure world.machine codexID answers = .ok st) :
      Moves world action (world.opened codexID
        ((watchLocked world.machine codexID st after queue).1,
          .ok (watchLocked world.machine codexID st after queue).2))
  | lost (given : Event) (view : Option CurrentView) (now : Int) (marshals : Bool)
      (outcome : CommitOutcome) (answers reloads : Bool) (st : Stream) (disk : Disk)
      (error : StoreError) (ensured : ensure world.machine given.codexId answers = .ok st)
      (moved : disk = world.machine.disk ∨ outcome = .unknown true ∧ ∃ row raw,
        world.machine.disk.codexes given.codexId = some row ∧
        disk = world.machine.disk.writeEvent now given.codexId row
          (world.machine.disk.head given.codexId + 1) raw) :
      Moves world (.publish (some given) view now marshals outcome answers reloads)
        (world.afterPublish (some given) ({ world.machine with disk := disk }.put given.codexId
          (reloadUnsafe (load disk given.codexId reloads) st), .error error))
  | exposed (given : Event) (view : Option CurrentView) (now : Int) (marshals : Bool)
      (outcome : CommitOutcome) (answers reloads : Bool) (st : Stream) (row : CodexRecord)
      (raw : Snapshot) (shown : CurrentView)
      (ensured : ensure world.machine given.codexId answers = .ok st)
      (stored : world.machine.disk.codexes given.codexId = some row) :
      Moves world (.publish (some given) view now marshals outcome answers reloads)
        (world.afterPublish (some given) (expose
          { world.machine with
            disk := world.machine.disk.writeEvent now given.codexId row
              (world.machine.disk.head given.codexId + 1) raw } st shown (world.numbered given),
          .ok (world.numbered given)))
  | read (address : Nat) :
      Moves world (.receive address)
        { world with
          machine := { world.machine with
            heap := update world.machine.heap address
              { world.machine.heap address with
                events := (world.machine.heap address).events.tail } }
          received := update world.received address
            (world.received address ++ (world.machine.heap address).events.head?.toList) }
  | announced (codexID requestID : String) (now : Int) (outcome : CommitOutcome) (answers : Bool)
      (st : Stream) (after : Machine) (error : StoreError)
      (ensured : ensure world.machine codexID answers = .ok st)
      (heap : after.heap =
        terminate (forgottenEvent st codexID requestID now) st.watchers world.machine.heap)
      (allocated : after.allocated = world.machine.allocated)
      (streams : after.codex =
        update world.machine.codex codexID (some { st with watchers := [] }))
      (disk : after.disk = world.machine.disk ∨
        (world.machine.disk.codexes codexID).isSome ∧
          after.disk = world.machine.disk.remove codexID)
      (missing : outcome = .committed → world.machine.disk.codexes codexID = none) :
      Moves world (.forget codexID requestID now outcome answers)
        (world.afterForget codexID (after, .error error))
  | deleted (codexID requestID : String) (now : Int) (outcome : CommitOutcome) (answers : Bool)
      (st : Stream) (after : Machine)
      (ensured : ensure world.machine codexID answers = .ok st)
      (heap : after.heap =
        terminate (forgottenEvent st codexID requestID now) st.watchers world.machine.heap)
      (allocated : after.allocated = world.machine.allocated)
      (streams : after.codex = update world.machine.codex codexID none)
      (stored : (world.machine.disk.codexes codexID).isSome)
      (disk : after.disk = world.machine.disk.remove codexID) :
      Moves world (.forget codexID requestID now outcome answers)
        (world.afterForget codexID (after, .ok (forgottenEvent st codexID requestID now)))
  | restarted (replayCapacity : Int) :
      Moves world (.restart replayCapacity)
        { world with
          machine := newStore world.machine.disk world.machine.heap world.machine.allocated
            replayCapacity }

/-- A forced reset is, to everyone but the reader of its reason, a watch without a
cursor. -/
theorem step_forceReset (world : World) (codexID : String) (reason : WatchResetReason)
    (queue : Int) (answers : Bool) :
    step world (.forceReset codexID reason queue answers) =
      step world (.watch codexID none queue answers) := by
  simp only [step, forceReset]
  cases watch world.machine codexID none queue answers with
  | mk machine result => cases result <;> rfl

theorem watch_moves (named : action.codexID = some codexID) (running : action.isRestart = false)
    (stepped : step world (.watch codexID after queue answers) = some next) :
    Moves world action next := by
  cases stepped
  obtain ⟨same, error, refused⟩ | ⟨st, ensured, machine, opened⟩ :=
    watch_cases world.machine codexID after queue answers
  · rw [show watch world.machine codexID after queue answers = (world.machine, .error error) from
      Prod.ext same refused]
    exact .rested action running
  · rw [show watch world.machine codexID after queue answers = (_, .ok _) from
      Prod.ext machine opened]
    exact .opened action codexID st after _ answers named ensured

theorem cancel_moves (world : World) (codexID : String) (address : Nat) :
    Moves world (.cancel codexID address)
      { world with machine := cancel world.machine codexID address } := by
  unfold cancel
  split
  · exact .rested _ rfl
  next st cached =>
  split
  · next member =>
    have registered : world.machine.registered codexID = st.watchers := by
      simp [Machine.registered, cached]
    refine .refreshed _ codexID _ _ rfl (.kept st cached rfl ⟨rfl, rfl⟩) ?_ ?_
    · rw [registered]
      exact List.filter_sublist
    intro other
    by_cases same : other = address
    · subst same
      exact .inr ⟨registered ▸ member, by simp, update_self ..⟩
    · exact .inl (update_of_ne same _ _)
  · exact .rested _ rfl

theorem publish_moves (world : World) (event : Option Event) (view : Option CurrentView)
    (now : Int) (marshals : Bool) (outcome : CommitOutcome) (answers reloads : Bool) :
    Moves world (.publish event view now marshals outcome answers reloads) (world.afterPublish event
      (publish world.machine event view now marshals outcome answers reloads)) := by
  obtain ⟨same, error, refused⟩ | ⟨given, st, rfl, -, ensured, body⟩ :=
    publish_cases world.machine event view now marshals outcome answers reloads
  · rw [show publish world.machine event view now marshals outcome answers reloads =
      (world.machine, .error error) from Prod.ext same refused]
    cases event with
    | none => exact .rested _ rfl
    | some given =>
      simp only [World.afterPublish, if_true, Except.toOption, Option.toList, List.nil_append]
      exact .repeated _ given.codexId rfl
  · obtain ⟨disk, error, result, moved⟩ | ⟨row, raw, shown, stored, result⟩ := body
    · rw [result]
      exact .lost given view now marshals outcome answers reloads st disk error ensured moved
    · rw [result]
      exact .exposed given view now marshals outcome answers reloads st row raw shown ensured stored

theorem forget_moves (world : World) (codexID requestID : String) (now : Int)
    (outcome : CommitOutcome) (answers : Bool) :
    Moves world (.forget codexID requestID now outcome answers) (world.afterForget codexID
      (forget world.machine codexID requestID now outcome answers)) := by
  have cases_of := forget_cases world.machine codexID requestID now outcome answers
  generalize forget world.machine codexID requestID now outcome answers = result at cases_of ⊢
  obtain ⟨after, result⟩ := result
  obtain ⟨rfl, error, rfl⟩ | ⟨st, ensured, heap, allocated, -, body⟩ := cases_of
  · have same : world.afterForget codexID (world.machine, .error error) = { world with
          exposed := world.reveal codexID (delivered world.machine world.machine codexID) } := by
      cases stored : world.machine.disk.codexes codexID <;>
        simp [World.afterForget, stored, Except.toOption]
    rw [same]
    exact .repeated _ codexID rfl
  obtain ⟨error, rfl, streams, missing, disk⟩ | ⟨rfl, -, stored, disk, streams⟩ := body
  · exact .announced codexID requestID now outcome answers st after error ensured heap allocated
      streams (disk.imp_right And.right) missing
  · exact .deleted codexID requestID now outcome answers st after ensured heap allocated streams
      stored disk

/-- Every step is one of these. -/
theorem step_moves (world next : World) (action : Action)
    (stepped : step world action = some next) : Moves world action next := by
  cases action with
  | upsertCodex row =>
    simp only [step] at stepped
    split at stepped <;> cases stepped
    next fresh =>
    exact .wrote row fresh
  | publish event view now marshals outcome answers reloads =>
    cases stepped
    exact publish_moves world event view now marshals outcome answers reloads
  | watch codexID after queue answers => exact watch_moves rfl rfl stepped
  | forceReset codexID reason queue answers =>
    rw [step_forceReset] at stepped
    exact watch_moves rfl rfl stepped
  | reloadDurable codexID answers =>
    cases stepped
    unfold reloadDurable
    split
    · exact .rested _ rfl
    refine .refreshed _ codexID _ world.machine.heap rfl (.reloaded answers _ rfl) ?_ fun _ =>
      .inl rfl
    rw [(reloadUnsafe_fields world.machine.disk codexID answers _).2.1]
    cases cached : world.machine.codex codexID <;> simp [Machine.registered, cached]
  | currentView codexID answers =>
    cases stepped
    unfold currentView
    split
    · exact .rested _ rfl
    next st ensured =>
    refine .refreshed _ codexID st world.machine.heap rfl (.ensured answers st ensured rfl rfl) ?_
      fun _ => .inl rfl
    rw [(ensure_registered ensured).1]
  | cancel codexID address =>
    cases stepped
    exact cancel_moves world codexID address
  | receive address =>
    cases stepped
    exact .read address
  | forget codexID requestID now outcome answers =>
    cases stepped
    exact forget_moves world codexID requestID now outcome answers
  | restart replayCapacity =>
    cases stepped
    exact .restarted replayCapacity

/-- Row, head and stream of one Codex agree in two machines. -/
structure Agrees (m next : Machine) (codexID : String) : Prop where
  row : next.disk.codexes codexID = m.disk.codexes codexID
  head : next.disk.head codexID = m.disk.head codexID
  stream : next.codex codexID = m.codex codexID

/-- What a step leaves of a Codex it does not name. -/
structure Untouched (world next : World) (codexID : String) : Prop where
  machine : Agrees world.machine next.machine codexID
  published : next.published codexID = world.published codexID
  exposed : next.exposed codexID = world.exposed codexID
  forgotten : codexID ∈ next.forgotten ↔ codexID ∈ world.forgotten

section Untouched

variable (world : World) (other : String)

theorem afterPublish_untouched (given : Event) (result : Machine × Except StoreError Event)
    (distinct : other ≠ given.codexId) (agrees : Agrees world.machine result.1 other) :
    Untouched world (world.afterPublish (some given) result) other := by
  refine ⟨agrees, ?_, update_of_ne distinct _ _, Iff.rfl⟩
  simp only [World.afterPublish]
  split
  · rfl
  · exact update_of_ne distinct _ _

theorem afterForget_untouched (codexID : String) (result : Machine × Except StoreError Event)
    (distinct : other ≠ codexID) (disk : result.1.disk = world.machine.disk ∨
      result.1.disk = world.machine.disk.remove codexID)
    (stream : result.1.codex other = world.machine.codex other) :
    Untouched world (world.afterForget codexID result) other := by
  refine ⟨⟨?_, ?_, stream⟩, rfl, update_of_ne distinct _ _, ?_⟩
  · rcases disk with same | removed
    · exact congrArg (Disk.codexes · other) same
    · simp [World.afterForget, removed, Disk.remove, update_of_ne distinct]
  · rcases disk with same | removed
    · exact congrArg (Disk.head · other) same
    · simp [World.afterForget, removed, Disk.remove, Disk.head, update_of_ne distinct]
  · simp only [World.afterForget]
    split
    · simp [distinct]
    · exact Iff.rfl

end Untouched

/-- A step other than a restart changes only the Codex it names. -/
theorem step_untouched (stepped : step world action = some next)
    (running : action.isRestart = false) (elsewhere : action.codexID ≠ some other) :
    Untouched world next other := by
  have apart : ∀ codexID, action.codexID = some codexID → other ≠ codexID := by
    rintro codexID named rfl
    exact elsewhere named
  cases step_moves world next action stepped with
  | wrote row fresh =>
    have distinct := apart row.codexID rfl
    exact ⟨⟨by simp [upsertCodex, update_of_ne distinct], rfl, rfl⟩, rfl, rfl, Iff.rfl⟩
  | rested _ running => exact ⟨⟨rfl, rfl, rfl⟩, rfl, rfl, Iff.rfl⟩
  | repeated _ codexID named =>
    exact ⟨⟨rfl, rfl, rfl⟩, rfl, update_of_ne (apart codexID named) _ _, Iff.rfl⟩
  | refreshed _ codexID st heap named refreshed fewer channels =>
    exact ⟨⟨rfl, rfl, update_of_ne (apart codexID named) _ _⟩, rfl, rfl, Iff.rfl⟩
  | opened _ codexID st after queue answers named ensured =>
    have distinct := apart codexID named
    exact ⟨⟨rfl, rfl, update_of_ne distinct _ _⟩, rfl, update_of_ne distinct _ _, Iff.rfl⟩
  | lost given view now marshals outcome answers reloads st disk error ensured moved =>
    have distinct := apart given.codexId rfl
    refine afterPublish_untouched world other given _ distinct ?_
    obtain rfl | ⟨-, row, raw, -, rfl⟩ := moved
    · exact ⟨rfl, rfl, update_of_ne distinct _ _⟩
    · obtain ⟨row, head⟩ := writeEvent_other world.machine.disk now row
        (world.machine.disk.head given.codexId + 1) raw distinct
      exact ⟨row, head, update_of_ne distinct _ _⟩
  | exposed given view now marshals outcome answers reloads st row raw shown ensured stored =>
    have distinct := apart given.codexId rfl
    obtain ⟨row, head⟩ := writeEvent_other world.machine.disk now row
      (world.machine.disk.head given.codexId + 1) raw distinct
    exact afterPublish_untouched world other given _ distinct ⟨row, head, update_of_ne distinct _ _⟩
  | read address => exact ⟨⟨rfl, rfl, rfl⟩, rfl, rfl, Iff.rfl⟩
  | announced codexID requestID now outcome answers st after error _ _ _ streams disk _ =>
    have distinct := apart codexID rfl
    exact afterForget_untouched world other codexID _ distinct (disk.imp_right And.right)
      (by rw [streams, update_of_ne distinct])
  | deleted codexID requestID now outcome answers st after _ _ _ streams _ disk =>
    have distinct := apart codexID rfl
    exact afterForget_untouched world other codexID _ distinct (.inr disk)
      (by rw [streams, update_of_ne distinct])
  | restarted replayCapacity => cases running

end CodexRemote.Activity
