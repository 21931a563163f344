import CodexRemote.LeaseRules

/-!
# Three copies of a view

The view of a Codex is in the Manager's memory, in its row, and in the stream that the event
store caches for it and answers a RESET watch from. While all storage calls succeed the
copies are kept equal by one habit: an operation stores the view, puts it into memory and
publishes it last, and publishing writes row and cache with what it is given. `Holds` is a
Manager on the way through such an operation, `Backed` what a publication leaves.

`Restore` has no publication. It writes memory and row only, so a stream that is cached at
that time goes on showing what it showed before. An announcement behind a registration is not
under the lock: one that comes late publishes a view that memory has no longer. Everything else
keeps the copies equal.
-/
namespace CodexRemote.Host

open Protocol Persistence Activity Budget Codexes Leases Function
open Option (isSome_iff_exists map_eq_some_iff)

variable {m : Manager} {codexID : String} {view : CurrentView} {storage : Storage} {label : Label}

/-- A view apart from the event number it is stamped with. -/
def unnumbered (view : CurrentView) : CurrentView := { view with headEventSeq := 0 }

/-- The row and, if there is one, the cached stream have this view. -/
structure Backed (m : Manager) (codexID : String) (view : CurrentView) : Prop where
  row : ∃ row durable, m.events.disk.codexes codexID = some row ∧
    row.currentViewJSON = .readable durable ∧ unnumbered durable = unnumbered view
  cache : ∀ st, m.events.codex codexID = some st → st.needsReload = false ∧
    ∃ cached, st.view = some cached ∧ unnumbered cached = unnumbered view

/-- Nothing of another Codex differs. -/
def Elsewhere (m next : Manager) (codexID : String) : Prop :=
  ∀ other, other ≠ codexID → next.byID other = m.byID other ∧
    next.events.disk.codexes other = m.events.disk.codexes other ∧
    next.events.codex other = m.events.codex other

theorem Elsewhere.trans (first : Elsewhere m middle codexID)
    (second : Elsewhere middle next codexID) : Elsewhere m next codexID := by
  intro other distinct
  obtain ⟨views, rows, streams⟩ := first other distinct
  obtain ⟨laterViews, laterRows, laterStreams⟩ := second other distinct
  exact ⟨laterViews.trans views, laterRows.trans rows, laterStreams.trans streams⟩

theorem Backed.frame (backed : Backed m codexID view)
    (rows : next.events.disk.codexes codexID = m.events.disk.codexes codexID)
    (streams : next.events.codex codexID = m.events.codex codexID) : Backed next codexID view := by
  refine ⟨?_, ?_⟩
  · rw [rows]
    exact backed.row
  · rw [streams]
    exact backed.cache

/-- A `Publish` that meets no error. -/
structure Clean (commit : Commit) : Prop where
  committed : commit.outcome = .committed
  marshals : commit.marshals = true
  answers : commit.answers = true

/-- A publication that meets no error leaves its view in row and cache. -/
theorem publishEvent_backed (view : CurrentView) (clean : Clean commit) (named : event.codexId ≠ "")
    (row : (m.events.disk.codexes event.codexId).isSome) :
    ∃ events published,
      publishEvent m event view commit = ({ m with events := events }, .ok published) ∧
      Backed { m with events := events } event.codexId view ∧
      Elsewhere m { m with events := events } event.codexId := by
  obtain ⟨st, ensured⟩ := ensure_answered m.events event.codexId row
  obtain ⟨record, stored⟩ := isSome_iff_exists.mp row
  obtain ⟨-, ready⟩ := ensure_registered ensured
  have built : nextEvent m.events.disk commit.now event.codexId (buildView view true) =
      some (m.events.disk.head event.codexId + 1, m.events.disk.writeEvent commit.now
        event.codexId record (m.events.disk.head event.codexId + 1)
        (.readable { view with headEventSeq := m.events.disk.head event.codexId + 1 })) := by
    simp [nextEvent, stored, buildView]
  simp only [publishEvent, publish, named, if_false, clean.answers, ensured, clean.committed,
    clean.marshals, commitEvent, built]
  refine ⟨_, _, rfl, ⟨?_, ?_⟩, ?_⟩
  · exact ⟨_, _, update_self .., rfl, rfl⟩
  · intro cached found
    simp only [expose, Machine.put, update_self, Option.some.injEq] at found
    subst found
    exact ⟨ready, _, rfl, rfl⟩
  · intro other distinct
    exact ⟨rfl, update_of_ne distinct _ _, update_of_ne distinct _ _⟩

theorem upsertCodex_encodes (disk : Disk) (row : CodexRecord) :
    ∃ stored, (upsertCodex disk row).codexes row.codexID = some stored ∧
      stored.currentViewJSON = row.currentViewJSON := by
  refine ⟨_, update_self .., ?_⟩
  split <;> rfl

/-- Storing a view writes it into the row of its Codex and nothing else. -/
theorem persistState_encodes (m : Manager) (shows : Shows view codexID lease) :
    ∃ disk row, persistState m view true =
        some { m with events := { m.events with disk := disk } } ∧
      disk.codexes codexID = some row ∧ row.currentViewJSON = .readable view ∧
      ∀ other, other ≠ codexID → disk.codexes other = m.events.disk.codexes other := by
  obtain ⟨codex, present, rfl, -⟩ := shows.codex
  obtain ⟨row, stored, encoded⟩ := upsertCodex_encodes m.events.disk (stateRecord m view codex)
  refine ⟨upsertCodex m.events.disk (stateRecord m view codex), row,
    by simp [persistState, present], stored, encoded, ?_⟩
  intro other distinct
  exact update_of_ne distinct _ _

/-- On the way through an operation: memory has this view of the Codex, it has a row, and
nothing of another Codex differs from the beginning. -/
structure Holds (m next : Manager) (codexID : String) (view : CurrentView) : Prop where
  memory : next.byID codexID = some view
  row : (next.events.disk.codexes codexID).isSome
  elsewhere : Elsewhere m next codexID

section Chains

variable {m next : Manager} {codexID : String} {view shown : CurrentView}

section

variable (holds : Holds m next codexID view)
include holds

theorem Holds.frame (after : Manager) (views : after.byID = next.byID)
    (events : after.events = next.events) : Holds m after codexID view := by
  refine ⟨views ▸ holds.memory, events ▸ holds.row, ?_⟩
  intro other distinct
  rw [views, events]
  exact holds.elsewhere other distinct

theorem Holds.remember (shown : CurrentView) :
    Holds m (next.remember codexID shown) codexID shown := by
  refine ⟨update_self .., holds.row, ?_⟩
  intro other distinct
  obtain ⟨views, rest⟩ := holds.elsewhere other distinct
  exact ⟨(update_of_ne distinct _ _).trans views, rest⟩

theorem Holds.persist (shows : Shows shown codexID lease) :
    ∃ after, persistState next shown true = some after ∧ Holds m after codexID view := by
  obtain ⟨disk, row, done, present, -, others⟩ := persistState_encodes next shows
  refine ⟨_, done, holds.memory, ?_, ?_⟩
  · exact isSome_iff_exists.mpr ⟨row, present⟩
  · intro other distinct
    obtain ⟨views, rows, streams⟩ := holds.elsewhere other distinct
    exact ⟨views, (others other distinct).trans rows, streams⟩

theorem Holds.publish (event : Event) (shown : CurrentView) (commit : Commit) (clean : Clean commit)
    (named : codexID ≠ "") (owned : event.codexId = codexID) :
    ∃ after published, publishEvent next event shown commit = (after, .ok published) ∧
      Holds m after codexID view ∧ Backed after codexID shown := by
  subst owned
  obtain ⟨events, published, done, backed, elsewhere⟩ :=
    publishEvent_backed shown clean named holds.row
  refine ⟨_, published, done, ⟨holds.memory, ?_, holds.elsewhere.trans elsewhere⟩, backed⟩
  obtain ⟨row, -, present, -⟩ := backed.row
  exact isSome_iff_exists.mpr ⟨row, present⟩

theorem Holds.publishCodex (config : Config) (codex : Codex)
    (requestID : String) (now : Int) (commit : Commit) (clean : Clean commit)
    (named : codexID ≠ "") (owned : codex.codexId = codexID) :
    ∃ after published, publishCodex config next codex requestID now commit =
        (after, .ok published) ∧
      Holds m after codexID view ∧ Backed after codexID view := by
  simp only [Codexes.publishCodex, owned, holds.memory]
  exact holds.publish _ view commit clean named ((boundCanonicalEvent_codexId ..).trans rfl)

end

end Chains

/-- Memory, row and cache have one view of the Codex, and nothing of another Codex differs. -/
def Mirrors (m next : Manager) (codexID : String) : Prop :=
  ∃ view, Holds m next codexID view ∧ Backed next codexID view

/-- A Codex in memory whose copies agree, and its lease. -/
structure Sits (m : Manager) (codexID : String) (view : CurrentView) (lease : Lease) : Prop where
  holds : Holds m m codexID view
  backed : Backed m codexID view
  named : codexID ≠ ""
  shows : Shows view codexID lease
  marker : m.warningDeadline codexID = lease.warned

section Operations

variable {m : Manager} {codexID : String} {view : CurrentView} {lease : Lease}

section

variable (config : Config) (writes : storage.writes = true) (clean : Clean storage.commit)
include config writes clean

theorem announceLifecycle_mirrors (requestID : String) (now : Int)
    (marker oldMarker keptMarker : Int) (persist : Bool) (holds : Holds m m codexID view)
    (named : codexID ≠ "") (shows : Shows snapshot codexID lease) :
    ∃ after, announceLifecycle config m codexID requestID now view snapshot marker oldMarker
        keptMarker persist storage = (after, .ok ()) ∧
      Holds m after codexID snapshot ∧ Backed after codexID snapshot := by
  obtain ⟨codex, present, owned, -⟩ := shows.codex
  obtain ⟨stored, persisted, kept⟩ := (holds.frame (m.mark codexID marker) rfl rfl).persist shows
  obtain ⟨after, published, done, final, backed⟩ := (kept.remember snapshot).publishCodex config
    codex requestID now storage.commit clean named owned
  refine ⟨after, ?_, final, backed⟩
  simp only [announceLifecycle, writes, persisted, present, done]

theorem unmanageCodex_mirrors (requestID : String) (now : Int) (sits : Sits m codexID view lease) :
    Mirrors m (unmanageCodex config m codexID requestID now storage).1 codexID := by
  obtain ⟨holds, backed, named, shows, -⟩ := sits
  obtain ⟨codex, found, -⟩ := known_eq holds.memory shows
  have same : Mirrors m m codexID := ⟨view, holds, backed⟩
  simp only [unmanageCodex, named, if_false, found]
  split
  · exact same
  split
  · exact same
  obtain ⟨after, done, final⟩ := announceLifecycle_mirrors config writes clean requestID now 0
    (m.warningDeadline codexID) 0 false holds named (unmanagedFrom_shows now shows)
  rw [done]
  exact ⟨_, final⟩

theorem renewLease_mirrors (now : Int) (sits : Sits m codexID view lease) :
    Mirrors m (renewLease config m codexID now storage).1 codexID := by
  obtain ⟨holds, backed, named, shows, -⟩ := sits
  obtain ⟨codex, found, -⟩ := known_eq holds.memory shows
  have renewed : Shows (renewedView now (now + config.leaseDuration) view) codexID
      ⟨.managed, now + config.leaseDuration, 0⟩ :=
    shows.onCodex _ ⟨.managed, _, 0⟩ (fun _ => rfl) (fun _ _ => rfl) fun _ _ => rfl
  simp only [renewLease, found]
  split
  · exact ⟨view, holds, backed⟩
  obtain ⟨after, done, final⟩ := announceLifecycle_mirrors config writes clean "" now 0
    (m.warningDeadline codexID) 0 false holds named renewed
  rw [done]
  exact ⟨_, final⟩

theorem sweepLease_mirrors (now : Int) (sits : Sits m codexID view lease)
    (second : Clean storage.second) :
    Mirrors m (sweepLease config m codexID now storage).1 codexID := by
  obtain ⟨holds, backed, named, shows, marker⟩ := sits
  obtain ⟨codex, found, -, state, deadline⟩ := known_eq holds.memory shows
  simp only [sweepLease, found, marker]
  cases planned : sweepPlan config view codex lease.warned now with
  | none => exact ⟨view, holds, backed⟩
  | some plan =>
    obtain ⟨shown, after⟩ : ∃ shown, Shows plan.snapshot codexID shown := by
      obtain ⟨-, -, ended, -⟩ | ⟨-, -, expiring, -⟩ := sweepPlan_cases shows state deadline planned
      · exact ⟨_, ended⟩
      · exact ⟨_, expiring⟩
    obtain ⟨last, done, final, backedThen⟩ := announceLifecycle_mirrors config writes clean "" now
      plan.marker lease.warned (if plan.due then 0 else plan.marker) plan.due holds named after
    dsimp only
    rw [done]
    dsimp only
    split
    · obtain ⟨raised, event, published, held, warned⟩ := final.publish
        (warningEvent codexID now codex.managedUntilUnixMs) plan.snapshot storage.second second
        named rfl
      simp only [raiseWarning, published]
      exact ⟨_, held, warned⟩
    · exact ⟨_, final, backedThen⟩

theorem setRunning_mirrors (turnID requestID : String) (now : Int)
    (sits : Sits m codexID view lease) (second : Clean storage.second) :
    Mirrors m (setRunning config m codexID turnID requestID now storage.writes storage.commit
      storage.second).1 codexID := by
  obtain ⟨holds, backed, named, shows, -⟩ := sits
  have running := runningView_shows config turnID now (now + config.leaseDuration) shows
  simp only [setRunning, holds.memory, writes]
  generalize runningView _ _ _ _ _ _ = snapshot at running ⊢
  obtain ⟨codex, present, owned, -⟩ := running.codex
  obtain ⟨stored, persisted, kept⟩ := (holds.frame (m.mark codexID 0) rfl rfl).persist running
  obtain ⟨after, event, published, final, -⟩ := (kept.remember snapshot).publish
    { codexId := codexID, occurredAtUnixMs := now, causedByRequestId := requestID
      body := .turnUpdated turnID .running now 0 none } snapshot storage.commit clean named rfl
  obtain ⟨last, announced, done, held, backed⟩ := final.publishCodex config codex requestID now
    storage.second second named owned
  simp only [persisted, published, present, done]
  exact ⟨snapshot, held, backed⟩

theorem publishAcceptedUserMessage_mirrors (turnID requestID : String)
    (parts : List UserMessagePart) (now : Int) (sits : Sits m codexID view lease) :
    Mirrors m (publishAcceptedUserMessage config m codexID turnID parts requestID now
      storage.writes storage.commit).1 codexID := by
  obtain ⟨holds, backed, named, shows, -⟩ := sits
  obtain ⟨codex, found, -⟩ := known_eq holds.memory shows
  have accepted : Shows (acceptedView now turnID
      (acceptedItem config.sizes config.contentBudget turnID parts) view) codexID lease := shows
  simp only [publishAcceptedUserMessage, found, writes]
  generalize acceptedView _ _ _ _ = snapshot at accepted ⊢
  obtain ⟨stored, persisted, kept⟩ := holds.persist accepted
  obtain ⟨after, event, published, final, backed⟩ := (kept.remember snapshot).publish
    (boundCanonicalEvent config.sizes config.contentBudget
      { codexId := codexID, occurredAtUnixMs := now, causedByRequestId := requestID
        body := .itemCompleted (acceptedItem config.sizes config.contentBudget turnID parts) })
    snapshot storage.commit clean named (boundCanonicalEvent_codexId ..)
  simp only [persisted, published]
  exact ⟨snapshot, final, backed⟩

theorem applyAdapterEventLocked_mirrors (now : Int)
    (thread : m.byThread event.threadID = some codexID) (sits : Sits m codexID view lease)
    (second : Clean storage.second) :
    Mirrors m (applyAdapterEventLocked config m event now storage.writes storage.commit
      storage.second).1 codexID := by
  obtain ⟨holds, backed, named, shows, -⟩ := sits
  obtain ⟨chunks, counted⟩ := countChunk_fields m codexID event
  have frame : Holds m { m with chunks := chunks } codexID view := holds.frame _ rfl rfl
  simp only [applyAdapterEventLocked, thread, holds.memory, counted, writes]
  cases applied : applyEvent config.sizes config.contentBudget (m.manualTitle codexID)
      (countChunk m codexID event).2 now codexID event view with
  | none => exact ⟨view, frame, backed.frame rfl rfl⟩
  | some pair =>
    obtain ⟨after, published⟩ := pair
    have owned := applyEvent_codexId applied
    have kept := applyEvent_shows shows applied
    obtain ⟨codex, present, identified, -⟩ := kept.codex
    obtain ⟨stored, persisted, held⟩ := (frame.remember after).persist kept
    obtain ⟨last, committed, done, final, backedThen⟩ := held.publish published after
      storage.commit clean named owned
    obtain ⟨announced, update, told, again, backedAgain⟩ := final.publishCodex config codex "" now
      storage.second second named identified
    dsimp only
    rw [persisted]
    dsimp only
    rw [done, present]
    cases event.body with
    | turnUpdated =>
      dsimp only
      rw [told]
      exact ⟨after, again, backedAgain⟩
    | _ => exact ⟨after, final, backedThen⟩

theorem resolvePending_mirrors (pendingID requestID : String) (resolved : PendingRequest)
    (now : Int) (sits : Sits m codexID view lease) :
    Mirrors m (resolvePending config m codexID pendingID resolved requestID now true
      storage).1 codexID := by
  obtain ⟨holds, backed, named, shows, -⟩ := sits
  have answered := resolvedView_shows config pendingID now shows
  obtain ⟨stored, persisted, kept⟩ :=
    (holds.remember (resolvedView config pendingID now view)).persist answered
  simp only [resolvePending, holds.memory, if_true, writes, persisted]
  obtain ⟨after, event, published, final, backed⟩ := kept.publish
    (boundCanonicalEvent config.sizes config.contentBudget
      { codexId := codexID, occurredAtUnixMs := now, causedByRequestId := requestID
        completeness := (boundPendingRequest config.sizes resolved
          (collectionBudget config.contentBudget)).2
        body := .pendingRequestUpdated (boundPendingRequest config.sizes resolved
          (collectionBudget config.contentBudget)).1 })
    (resolvedView config pendingID now view) storage.commit clean named
    (boundCanonicalEvent_codexId ..)
  rw [published]
  exact ⟨_, final, backed⟩

theorem renameCodex_mirrors (title requestID : String) (now : Int)
    (sits : Sits m codexID view lease) :
    Mirrors m (renameCodex config m codexID title requestID now storage).1 codexID := by
  obtain ⟨holds, backed, named, shows, -⟩ := sits
  obtain ⟨codex, found, present, -⟩ := known_eq holds.memory shows
  obtain ⟨other, again, owned, -⟩ := shows.codex
  cases present.symm.trans again
  have renamed := shows.renamed present (text (trimSpace title)) now
  unfold renameCodex
  split
  · exact ⟨view, holds, backed⟩
  simp only [found, writes]
  generalize CurrentView.mk _ _ _ _ _ _ _ = snapshot at renamed ⊢
  obtain ⟨stored, persisted, kept⟩ := (holds.frame
    { m with manualTitle := update m.manualTitle codexID true } rfl rfl).persist renamed
  obtain ⟨after, event, published, final, backedThen⟩ := (kept.remember snapshot).publishCodex
    config { codex with title := text (trimSpace title) } requestID now storage.commit clean named
    owned
  simp only [persisted, published]
  exact ⟨snapshot, final, backedThen⟩

end

theorem commitWorkspaceState_mirrors (state : WorkspaceAccessState) (now : Int)
    (sits : Sits m codexID view lease) (clean : Clean storage.commit) :
    Mirrors m (commitWorkspaceState m codexID state now storage.commit storage.reads
      storage.reloads).1 codexID := by
  obtain ⟨holds, backed, named, shows, -⟩ := sits
  obtain ⟨codex, found, -⟩ := known_eq holds.memory shows
  have same : Mirrors m m codexID := ⟨view, holds, backed⟩
  have published : Mirrors m (publishWorkspaceState m codexID state view now storage.commit
      storage.reads storage.reloads).1 codexID := by
    obtain ⟨after, event, done, final, backedThen⟩ := holds.publish
      { codexId := codexID, occurredAtUnixMs := now
        body := .workspaceAccessStateUpdated state }
      { view with workspaceAccessState := some state, generatedAtUnixMs := now } storage.commit
      clean named rfl
    simp only [publishWorkspaceState, done]
    refine ⟨_, final.remember _, ?_⟩
    exact { backedThen with }
  simp only [commitWorkspaceState, found]
  split
  · split
    · exact same
    split
    · exact same
    · exact published
  · exact published

end Operations

/-- What holds of the copies between operations. A Codex without a row has no stream. -/
structure Copies (m : Manager) : Prop where
  nonblank : ∀ codexID row, m.events.disk.codexes codexID = some row → codexID ≠ ""
  backed : ∀ codexID view, m.byID codexID = some view → Backed m codexID view
  streams : ∀ codexID, m.events.disk.codexes codexID = none → m.events.codex codexID = none
  ready : ∀ codexID st, m.events.codex codexID = some st → st.needsReload = false

section Copies

variable {m next : Manager} {codexID : String}

theorem Copies.mirrors (copies : Copies m) (named : codexID ≠ "")
    (mirrors : Mirrors m next codexID) : Copies next := by
  obtain ⟨view, holds, backed⟩ := mirrors
  constructor
  · intro other row present
    by_cases same : other = codexID
    · exact same ▸ named
    · rw [(holds.elsewhere other same).2.1] at present
      exact copies.nonblank other row present
  · intro other shown remembered
    by_cases same : other = codexID
    · subst same
      cases holds.memory.symm.trans remembered
      exact backed
    · obtain ⟨views, rows, streams⟩ := holds.elsewhere other same
      rw [views] at remembered
      exact (copies.backed other shown remembered).frame rows streams
  · intro other absent
    by_cases same : other = codexID
    · subst same
      have row := holds.row
      simp [absent] at row
    · obtain ⟨-, rows, streams⟩ := holds.elsewhere other same
      rw [streams]
      exact copies.streams other (rows ▸ absent)
  · intro other st cached
    by_cases same : other = codexID
    · subst same
      exact (backed.cache st cached).1
    · rw [(holds.elsewhere other same).2.2] at cached
      exact copies.ready other st cached

/-- An operation on one Codex: nothing happens without its view, and with it the copies
come to agree. -/
theorem Copies.onCodex (copies : Copies m) (aligned : Aligned m) (codexID : String)
    (absent : m.byID codexID = none → next = m)
    (present : ∀ view lease, Sits m codexID view lease → Mirrors m next codexID) : Copies next := by
  cases remembered : m.byID codexID with
  | none => exact absent remembered ▸ copies
  | some view =>
    obtain ⟨lease, settled, shows⟩ := aligned.memory codexID view remembered
    obtain ⟨row, stored, -⟩ := rowShows_own settled.row
    have named := copies.nonblank codexID row stored
    have holds : Holds m m codexID view :=
      ⟨remembered, isSome_iff_exists.mpr ⟨row, stored⟩, fun _ _ => ⟨rfl, rfl, rfl⟩⟩
    exact copies.mirrors named (present view lease
      ⟨holds, copies.backed codexID view remembered, named, shows, settled.marker⟩)

/-- The stream of a Codex in memory, cached or newly opened, has its view. -/
theorem Copies.ensured (copies : Copies m) (backed : Backed m codexID view)
    (ensured : ensure m.events codexID true = .ok st) :
    ∃ shown, st.view = some shown ∧ unnumbered shown = unnumbered view := by
  obtain ⟨old, -⟩ | ⟨old, -, cached, reloads, -⟩ | ⟨row, -, stored, opened⟩ := ensure_cases ensured
  · exact (backed.cache st old).2
  · have settled := copies.ready codexID old cached
    simp [reloads] at settled
  · obtain ⟨found, durable, present, encoded, agrees⟩ := backed.row
    cases stored.symm.trans present
    exact ⟨durable, by rw [opened, encoded]; rfl, agrees⟩

/-- A stream that is opened or used shows what the row shows. -/
theorem Copies.stream (copies : Copies m) (st after : Activity.Stream) (events : Machine)
    (ensured : ensure m.events codexID true = .ok st) (view : after.view = st.view)
    (reload : after.needsReload = st.needsReload) (disk : events.disk = m.events.disk)
    (streams : events.codex = update m.events.codex codexID (some after)) :
    Copies { m with events := events } := by
  have ready := (ensure_registered ensured).2
  have row : ∃ row, m.events.disk.codexes codexID = some row := by
    cases stored : m.events.disk.codexes codexID with
    | some row => exact ⟨row, rfl⟩
    | none => simp [ensure, copies.streams codexID stored, load, loadEventState, stored] at ensured
  constructor
  · exact disk ▸ copies.nonblank
  · intro other shown remembered
    have before := copies.backed other shown remembered
    refine ⟨?_, ?_⟩
    · rw [disk]
      exact before.row
    rw [streams]
    intro cached found
    by_cases same : other = codexID
    · subst same
      rw [update_self] at found
      cases found
      refine ⟨reload.trans ready, ?_⟩
      rw [view]
      exact copies.ensured before ensured
    · rw [update_of_ne same] at found
      exact before.cache cached found
  · intro other absent
    rw [disk] at absent
    rw [streams]
    by_cases same : other = codexID
    · obtain ⟨record, stored⟩ := row
      rw [same, stored] at absent
      cases absent
    · rw [update_of_ne same]
      exact copies.streams other absent
  · intro other cached found
    rw [streams] at found
    by_cases same : other = codexID
    · subst same
      rw [update_self] at found
      cases found
      exact reload.trans ready
    · rw [update_of_ne same] at found
      exact copies.ready other cached found

/-- A registered Codex that had no stream. -/
theorem Copies.appeared (copies : Copies m) (named : codexID ≠ "") (view : CurrentView)
    (row : CodexRecord) (encoded : row.currentViewJSON = .readable view)
    (memory : next.byID codexID = some view) (stored : next.events.disk.codexes codexID = some row)
    (streams : next.events.codex = m.events.codex) (elsewhere : Elsewhere m next codexID)
    (cached : ∀ st, m.events.codex codexID = some st →
      ∃ shown, st.view = some shown ∧ unnumbered shown = unnumbered view) : Copies next := by
  refine copies.mirrors named ⟨view, ⟨memory, ?_, elsewhere⟩, ⟨row, view, stored, encoded, rfl⟩, ?_⟩
  · exact isSome_iff_exists.mpr ⟨row, stored⟩
  · rw [streams]
    intro st found
    exact ⟨copies.ready codexID st found, cached st found⟩

/-- Nothing is in memory and no stream is open. -/
theorem Copies.restarted (views : next.byID = fun _ => none)
    (streams : next.events.codex = fun _ => none)
    (nonblank : ∀ codexID row, next.events.disk.codexes codexID = some row → codexID ≠ "") :
    Copies next := by
  refine ⟨nonblank, ?_, ?_, ?_⟩
  · intro codexID view remembered
    rw [views] at remembered
    cases remembered
  · intro codexID _
    rw [streams]
  · intro codexID st cached
    rw [streams] at cached
    cases cached

end Copies

/-- All storage calls of the step succeed. -/
structure Succeeds (label : Label) : Prop where
  writes : label.storage.writes = true
  rewrites : label.storage.rewrites = true
  reads : label.storage.reads = true
  commit : Clean label.storage.commit
  second : Clean label.storage.second
  saves : ∀ codexID pendingID resolved requestID saves,
    label.operation = .resolve codexID pendingID resolved requestID saves → saves = true

theorem Succeeds.stored (succeeds : Succeeds label) : Stored label :=
  { succeeds with deletes := fun _ _ _ _ => by simp [succeeds.commit.committed] }

/-- A row is restored only while the event store has no stream of the Codex, as behind a start of
the Host. -/
def uncached (m : Manager) (label : Label) : Bool :=
  match label.operation with
  | .restore codexID _ _ _ => (m.events.codex codexID).isNone
  | _ => true

section Steps

variable {config : Config} {world next : World} {label : Label} {m : Manager} {codexID : String}

/-- A restore changes memory and row of one Codex and no stream. -/
theorem restoreCodex_copies (copies : Copies m) {row : CodexRecord} {now : Int} {owner : String}
    {read : ThreadRead} {reads : Bool} {access : Option WorkspaceAccessState}
    (own : Own row codexID) (named : codexID ≠ "") (unstale : m.events.codex codexID = none) :
    Copies (restoreCodex config m row now owner read reads access true) := by
  unfold restoreCodex
  cases planned : restorePlan config now row owner read reads with
  | none => exact copies
  | some plan =>
    obtain ⟨owned, -, shows⟩ := restorePlan_shows own planned
    cases access with
    | none => exact copies
    | some state =>
      have shown : Shows { plan.view with workspaceAccessState := some state } codexID
          (rowLease (leased config now row)) := shows
      obtain ⟨threads, sessions, dropped⟩ := dropThread_tables m plan.record.codexID plan.dropped
      let registered := registerRestored { m with byThread := threads, bySession := sessions }
        plan.record { plan.view with workspaceAccessState := some state }
      obtain ⟨disk, written, persisted, stored, encoded, others⟩ := persistState_encodes
        registered shown
      simp only [finishRestore, dropped, registered, persisted]
      have memory : registered.byID codexID =
          some { plan.view with workspaceAccessState := some state } := owned ▸ update_self ..
      refine copies.appeared named _ written encoded memory stored rfl ?_ ?_
      · intro other distinct
        refine ⟨?_, others other distinct, rfl⟩
        rw [← owned] at distinct
        exact update_of_ne distinct _ _
      · intro st cached
        rw [unstale] at cached
        cases cached

/-- A new Codex has no stream, since it had no row. -/
theorem saveCodex_copies (copies : Copies m) (session : Session)
    (access : Option WorkspaceAccessState) (now : Int) (named : codex.codexId ≠ "")
    (absent : m.events.disk.codexes codex.codexId = none) :
    Copies (saveCodex config m codex session access now true).1 := by
  cases access with
  | none => exact copies
  | some state =>
    obtain ⟨row, stored, encoded⟩ := upsertCodex_encodes m.events.disk
      { recordFromCodex codex session.source with
        logicalOwnerID := session.ownerID
        currentViewJSON := .readable (boundCurrentView config.sizes config.contentBudget
          { codex := some codex, workspaceAccessState := some state
            generatedAtUnixMs := now }) }
    refine copies.appeared named _ row encoded (update_self ..) stored rfl ?_ ?_
    · intro other distinct
      exact ⟨update_of_ne distinct _ _, update_of_ne distinct _ _, rfl⟩
    · intro st cached
      rw [copies.streams codex.codexId absent] at cached
      cases cached

/-- A Codex that is forgotten leaves no copy. -/
theorem forgetCodex_copies (copies : Copies m) (requestID : String) (now : Int) (records : Bool) :
    Copies (forgetCodex m codexID requestID now records .committed true).1 := by
  unfold forgetCodex
  split
  · exact copies
  next named =>
  split
  · exact copies
  next view codex found =>
  split
  · exact copies
  split
  case isFalse => exact copies
  obtain ⟨row, -, present, -⟩ := (copies.backed codexID view (known_remembered found)).row
  obtain ⟨st, ensured⟩ := ensure_answered m.events codexID (by simp [present])
  simp only [forget, named, if_false, ensured, deleteCodex, present, CommitOutcome.durable, if_true]
  constructor
  · intro other record kept
    by_cases same : other = codexID
    · exact same ▸ named
    · exact copies.nonblank other record ((update_of_ne same _ _).symm.trans kept)
  · intro other shown remembered
    by_cases same : other = codexID
    · subst same
      cases (update_self ..).symm.trans remembered
    · have before := copies.backed other shown ((update_of_ne same _ _).symm.trans remembered)
      refine before.frame (update_of_ne same _ _) ?_
      exact (update_of_ne same _ _).trans (update_of_ne same _ _)
  · intro other absent
    by_cases same : other = codexID
    · exact same ▸ update_self ..
    · refine ((update_of_ne same _ _).trans (update_of_ne same _ _)).trans ?_
      exact copies.streams other ((update_of_ne same _ _).symm.trans absent)
  · intro other cached kept
    by_cases same : other = codexID
    · subst same
      cases (update_self ..).symm.trans kept
    · exact copies.ready other cached
        (((update_of_ne same _ _).trans (update_of_ne same _ _)).symm.trans kept)

/-- Every operation that runs to its end keeps the copies equal. -/
theorem perform_copies (aligned : Aligned world.manager) (copies : Copies world.manager)
    (succeeds : Succeeds label) (unstale : uncached world.manager label = true)
    (performed : perform config world label.operation label.now label.storage = some next) :
    Copies next.manager := by
  obtain ⟨writes, -, reads, clean, second, saves⟩ := succeeds
  have performs := perform_performs performed
  generalize operation : label.operation = op at performs
  cases performs with
  | create codexID session access requestID fresh
  | importSession codexID session origin created access requestID fresh =>
    obtain ⟨named, -, -, absent⟩ := fresh
    rw [save_manager, writes]
    exact saveCodex_copies copies session access label.now named
      (Option.isNone_iff_eq_none.mp absent)
  | announce codex requestID saved =>
    refine copies.onCodex aligned codex.codexId (fun absent => by simp [publishCodex, absent]) ?_
    intro view lease sits
    obtain ⟨after, event, done, final⟩ := sits.holds.publishCodex config codex requestID label.now
      label.storage.commit clean sits.named rfl
    simp only [done]
    exact ⟨view, final⟩
  | startTurn codexID requestID parts answer => exact (startTurn_manager _ _ _ _ _).symm ▸ copies
  | setRunning call accepted waits =>
    rw [setRunning_manager]
    refine copies.onCodex aligned call.codexID (fun absent => by simp [setRunning, absent]) ?_
    intro view lease sits
    exact setRunning_mirrors config writes clean call.turnID call.requestID label.now sits second
  | userMessage call accepted running =>
    refine copies.onCodex aligned call.codexID
      (fun absent => by simp [publishAcceptedUserMessage, known_none absent]) ?_
    intro view lease sits
    exact publishAcceptedUserMessage_mirrors config writes clean call.turnID call.requestID
      call.parts label.now sits
  | workspace codexID state =>
    refine copies.onCodex aligned codexID
      (fun absent => by simp [commitWorkspaceState, known_none absent]) ?_
    intro view lease sits
    exact commitWorkspaceState_mirrors state label.now sits clean
  | notify event =>
    cases thread : world.manager.byThread event.threadID with
    | none => simpa [applyAdapterEventLocked, thread] using copies
    | some codexID =>
      refine copies.onCodex aligned codexID
        (fun absent => by simp [applyAdapterEventLocked, thread, absent]) ?_
      intro view lease sits
      exact applyAdapterEventLocked_mirrors config writes clean label.now thread sits second
  | resolve codexID pendingID resolved requestID saved =>
    obtain rfl := saves codexID pendingID resolved requestID saved operation
    refine copies.onCodex aligned codexID (fun absent => by simp [resolvePending, absent]) ?_
    intro view lease sits
    exact resolvePending_mirrors config writes clean pendingID requestID resolved label.now sits
  | renew codexID =>
    refine copies.onCodex aligned codexID (fun absent => by simp [renewLease, known_none absent]) ?_
    intro view lease sits
    exact renewLease_mirrors config writes clean label.now sits
  | unmanage codexID requestID =>
    refine copies.onCodex aligned codexID (fun absent => ?_) ?_
    · simp only [put_manager, unmanageCodex, known_none absent]
      split <;> rfl
    intro view lease sits
    exact unmanageCodex_mirrors config writes clean requestID label.now sits
  | sweep codexID =>
    refine copies.onCodex aligned codexID (fun absent => by simp [sweepLease, known_none absent]) ?_
    intro view lease sits
    exact sweepLease_mirrors config writes clean label.now sits second
  | rename codexID title requestID =>
    refine copies.onCodex aligned codexID (fun absent => ?_) ?_
    · simp only [put_manager, renameCodex, known_none absent]
      split <;> rfl
    intro view lease sits
    exact renameCodex_mirrors config writes clean title requestID label.now sits
  | forget codexID requestID records =>
    rw [put_manager, clean.committed, clean.answers]
    exact forgetCodex_copies copies requestID label.now records
  | restore codexID owner read access row stored =>
    rw [put_manager, writes]
    refine restoreCodex_copies copies (aligned.rows codexID row stored)
      (copies.nonblank codexID row stored) ?_
    simpa [uncached, operation] using unstale
  | watch codexID after queue =>
    rw [put_manager, reads]
    obtain ⟨same, -⟩ | ⟨st, ensured, opened, -⟩ :=
      watch_cases world.manager.events codexID after queue true
    · rw [same]
      exact copies
    rw [opened]
    exact copies.stream st { st with
      watchers := st.watchers ++ [world.manager.events.allocated]
      safeReplayFloor := if (answer codexID st after).1.mode = .reset
        then some (answer codexID st after).1.headEventSeq else st.safeReplayFloor }
      _ ensured rfl rfl rfl rfl
  | read codexID =>
    rw [put_manager, reads]
    unfold currentView
    split
    · exact copies
    · next st ensured => exact copies.stream st st _ ensured rfl rfl rfl rfl
  | restart replayCapacity => exact Copies.restarted rfl rfl copies.nonblank

/-- Rows are under ids that were not blank before or are fresh. -/
theorem step_nonblank (aligned : Aligned world.manager) (storage : Stored label)
    (nonblank : ∀ codexID row, world.manager.events.disk.codexes codexID = some row →
      codexID ≠ "") (stepped : step config world label = some next) (codexID : String)
    (row : CodexRecord) (present : next.manager.events.disk.codexes codexID = some row) :
    codexID ≠ "" := by
  have effect := step_effect aligned storage stepped
  have settled : ∀ {id lease}, Settled world.manager id lease → id ≠ "" := by
    intro id lease settled
    obtain ⟨old, stored, -⟩ := rowShows_own settled.row
    exact nonblank id old stored
  generalize next.manager = after at effect present
  cases effect with
  | same _ _ _ rows | restarted _ _ rows => exact nonblank codexID row (rows ▸ present)
  | sets id _ _ _ _ _ known _ _ set =>
    by_cases touched : codexID = id
    · exact touched ▸ settled known
    · exact nonblank codexID row ((set.others codexID touched).2.2 ▸ present)
  | created id _ named _ _ set =>
    by_cases touched : codexID = id
    · exact touched ▸ named
    · exact nonblank codexID row ((set.others codexID touched).2.2 ▸ present)
  | restored id old _ stored set =>
    by_cases touched : codexID = id
    · exact touched ▸ nonblank id old stored
    · exact nonblank codexID row ((set.others codexID touched).2.2 ▸ present)
  | dropped id _ _ gone others =>
    by_cases touched : codexID = id
    · subst touched
      rw [gone] at present
      cases present
    · exact nonblank codexID row ((others codexID touched).2.2 ▸ present)
  | crashed id _ _ _ _ _ _ known _ _ stored _ _ rows =>
    by_cases touched : codexID = id
    · exact touched ▸ settled known
    · rw [rows, stored.others codexID touched] at present
      exact nonblank codexID row present

theorem step_copies (aligned : Aligned world.manager) (copies : Copies world.manager)
    (succeeds : Succeeds label) (unstale : uncached world.manager label = true)
    (stepped : step config world label = some next) : Copies next.manager := by
  have nonblank := step_nonblank aligned succeeds.stored copies.nonblank stepped
  unfold step at stepped
  split at stepped
  · cases stepped
  · next performed _ =>
    cases stepped
    exact perform_copies aligned copies succeeds unstale performed
  · obtain ⟨disk, -, rfl⟩ := map_eq_some_iff.mp stepped
    exact Copies.restarted rfl rfl nonblank

end Steps

/-- Memory, the durable view and the view a RESET watch returns are one view, up to the
number it is stamped with. -/
def Agree (m : Manager) (codexID : String) (view : CurrentView) : Prop :=
  ∃ durable, durableView m codexID true = some durable ∧ unnumbered durable = unnumbered view ∧
    ∀ queue, ∃ opened shown, (watch m.events codexID none queue true).2 = .ok opened ∧
      opened.response.resetView = some shown ∧ unnumbered shown = unnumbered view

theorem Copies.agree (copies : Copies m) (remembered : m.byID codexID = some view) :
    Agree m codexID view := by
  have backed := copies.backed codexID view remembered
  obtain ⟨row, durable, stored, encoded, same⟩ := backed.row
  have named := copies.nonblank codexID row stored
  refine ⟨durable, by simp [durableView, stored, encoded, Snapshot.decode], same, ?_⟩
  intro queue
  obtain ⟨st, ensured⟩ := ensure_answered m.events codexID (by simp [stored])
  obtain ⟨shown, cached, agrees⟩ := copies.ensured backed ensured
  have opened : (watch m.events codexID none queue true).2 =
      .ok (watchLocked m.events codexID st none (queueSize queue)).2 := by
    simp only [watch, named, if_false, ensured]
  refine ⟨_, { shown with headEventSeq := st.head }, opened, ?_, agrees⟩
  simp [watchLocked, answer, cloneView, cached]

/-- A Host before its first restore, with nothing but rows under their own ids. -/
structure Rows (world : World) : Prop where
  views : world.manager.byID = fun _ => none
  streams : world.manager.events.codex = fun _ => none
  own : ∀ codexID row, world.manager.events.disk.codexes codexID = some row →
    Own row codexID ∧ codexID ≠ ""

/-- Storage succeeds, no stream is cached where a row is restored, and no announcement comes
late. -/
def Synchronous (world : Announcements.World) (label : Announcements.Label) : Prop :=
  Announcements.Timely world label ∧ ∀ performed, label.onHost = some performed →
    Succeeds performed ∧ uncached world.host.manager performed = true

/-- In every run whose storage calls succeed, whose restores find no cached stream and whose
announcements do not come late, the three copies of every view agree in the state that is
reached. -/
theorem copies_agree (config : Config) (start last : Announcements.World)
    (labels : List Announcements.Label) (rows : Rows start.host)
    (synchronous : Runs.Meets (Announcements.step config) Synchronous start labels)
    (ran : Runs.run (Announcements.step config) start labels = some last) :
    ∀ codexID view, last.host.manager.byID codexID = some view →
      Agree last.host.manager codexID view := by
  have initially : Aligned start.host.manager ∧ Copies start.host.manager :=
    ⟨Aligned.rowsOnly rows.views fun id row present => (rows.own id row present).1,
      Copies.restarted rows.views rows.streams fun id row present => (rows.own id row present).2⟩
  have kept : Aligned last.host.manager ∧ Copies last.host.manager := by
    refine Runs.run_invariant
      (fun world => Aligned world.host.manager ∧ Copies world.host.manager) ?_ initially
      synchronous ran
    intro world label next holds condition stepped
    refine Announcements.step_keeps config (fun m => Aligned m ∧ Copies m)
      (fun m performed => Succeeds performed ∧ uncached m performed = true) ?_ world next label
      holds condition.1 condition.2 stepped
    intro host performed after both allowed taken
    exact ⟨step_aligned both.1 allowed.1.stored taken,
      step_copies both.1 both.2 allowed.1 allowed.2 taken⟩
  intro codexID view remembered
  exact kept.2.agree remembered

theorem sampleHost_rows : Rows sampleHost := by
  refine ⟨rfl, rfl, ?_⟩
  intro codexID row present
  simp [sampleHost, restartHost, withDisk, newStore, Disk.empty] at present

/-- A label none of whose storage calls fails, other than an answer to a request. -/
theorem succeeds_of_default (storage : label.storage = {})
    (other : ∀ codexID pendingID resolved requestID saves,
      label.operation ≠ .resolve codexID pendingID resolved requestID saves) : Succeeds label := by
  refine ⟨by rw [storage], by rw [storage], by rw [storage], ?_, ?_, ?_⟩
  · rw [storage]
    exact ⟨rfl, rfl, rfl⟩
  · rw [storage]
    exact ⟨rfl, rfl, rfl⟩
  · intro codexID pendingID resolved requestID saves resolves
    exact absurd resolves (other codexID pendingID resolved requestID saves)

def sampleRestore : Label :=
  { operation := .restore "cdx" "own" (.found {} true) (some sampleAccess), now := 9 }

/-- A Codex is created, announced and watched, and the Host restarts on its database. -/
def sampleRestart : List Announcements.Label :=
  Announcements.sampleReading ++ [.commit Announcements.sampleRead 6 {},
    .host { operation := .watch "cdx" none 0, now := 7 },
    .host { operation := .restart 8, now := 8 }, .host sampleRestore,
    .host { operation := .rename "cdx" "other" "rename", now := 10 }]

/-- Behind a restart no stream is cached, so the restored view and the new title reach all
copies. -/
theorem copies_agree_restarted : ∃ last view,
    Runs.run (Announcements.step sampleConfig) ⟨sampleHost, []⟩ sampleRestart = some last ∧
    last.host.manager.byID "cdx" = some view ∧ Agree last.host.manager "cdx" view := by
  have succeeds : ∀ label ∈ sampleRestart, ∀ performed, label.onHost = some performed →
      Succeeds performed := by
    intro label member
    simp only [sampleRestart, Announcements.sampleReading, sampleCreate, sampleRestore,
      List.cons_append, List.nil_append, List.mem_cons, List.not_mem_nil, or_false] at member
    obtain rfl | rfl | rfl | rfl | rfl | rfl | rfl := member <;> rintro performed ⟨⟩ <;>
      exact succeeds_of_default rfl (by simp)
  have timely : Runs.Meets (Announcements.step sampleConfig) Announcements.Timely
      ⟨sampleHost, []⟩ sampleRestart := by decide +kernel
  have restored : Runs.Meets (Announcements.step sampleConfig) (fun world label =>
      ∀ performed ∈ label.onHost, uncached world.host.manager performed = true) ⟨sampleHost, []⟩
      sampleRestart := by decide +kernel
  have synchronous : Runs.Meets (Announcements.step sampleConfig) Synchronous ⟨sampleHost, []⟩
      sampleRestart := by
    refine Runs.meets_mono _ _ _ ?_ _ _ (Runs.meets_and _ _ _ _ _ timely (Runs.meets_and _ _ _ _ _
      (Runs.meets_of_forall _ _ succeeds) restored))
    intro world label holds
    exact ⟨holds.1, fun performed is => ⟨holds.2.1 performed is, holds.2.2 performed is⟩⟩
  have remembers : (Runs.run (Announcements.step sampleConfig) ⟨sampleHost, []⟩
      sampleRestart).map (fun last => (last.host.manager.byID "cdx").isSome) = some true := by
    decide +kernel
  obtain ⟨last, ran, present⟩ := map_eq_some_iff.mp remembers
  obtain ⟨view, remembered⟩ := isSome_iff_exists.mp present
  exact ⟨last, view, ran, remembered, copies_agree sampleConfig ⟨sampleHost, []⟩ last sampleRestart
    sampleHost_rows synchronous ran "cdx" view remembered⟩

/-- A turn runs when the app-server reconnects, and is not running behind that. -/
def sampleReconnect : List Label :=
  [sampleCreate, sampleAnnounce,
    { operation := .startTurn "cdx" "turn" [] (some "turn"), now := 7 },
    { operation := .setRunning sampleCall, now := 8 }, sampleRestore,
    { operation := .sweep "cdx", now := 9 }]

/-- The status of the Codex in the view that a RESET watch returns. -/
def watchedStatus (m : Manager) (codexID : String) : Option CodexStatus :=
  match (watch m.events codexID none 0 true).2 with
  | .ok opened => (opened.response.resetView.bind CurrentView.codex).map Codex.status
  | .error _ => none

/-- The restore of a Codex whose stream is cached: memory shows it idle, and a RESET watch
goes on showing the turn that is over. -/
theorem reconnect_shows_finished_turn : ∃ last view,
    Rows sampleHost ∧
    Runs.run (Announcements.step sampleConfig) ⟨sampleHost, []⟩ (sampleReconnect.map .host) =
      some last ∧
    (∀ label ∈ sampleReconnect, Succeeds label) ∧ last.host.manager.byID "cdx" = some view ∧
    view.codex.map Codex.status = some .idle ∧
    watchedStatus last.host.manager "cdx" = some .running ∧
    ¬ Agree last.host.manager "cdx" view := by
  have statuses : (Runs.run (Announcements.step sampleConfig) ⟨sampleHost, []⟩
      (sampleReconnect.map .host)).map
      (fun last => ((last.host.manager.byID "cdx").map fun view => view.codex.map Codex.status,
        watchedStatus last.host.manager "cdx")) = some (some (some .idle), some .running) := by
    decide +kernel
  obtain ⟨last, ran, both⟩ := map_eq_some_iff.mp statuses
  obtain ⟨remembers, watched⟩ := Prod.mk.inj both
  obtain ⟨view, remembered, idle⟩ := map_eq_some_iff.mp remembers
  refine ⟨last, view, sampleHost_rows, ran, ?_, remembered, idle, watched, ?_⟩
  · intro label member
    simp only [sampleReconnect, sampleCreate, sampleAnnounce, sampleRestore, List.mem_cons,
      List.not_mem_nil, or_false] at member
    obtain rfl | rfl | rfl | rfl | rfl | rfl := member <;> exact succeeds_of_default rfl (by simp)
  · rintro ⟨durable, -, -, watches⟩
    obtain ⟨opened, shown, opens, reset, same⟩ := watches 0
    have codex : (unnumbered shown).codex = (unnumbered view).codex := by rw [same]
    have codexes : shown.codex = view.codex := codex
    simp [watchedStatus, opens, reset, codexes, idle] at watched

end CodexRemote.Host
