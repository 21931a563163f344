import CodexRemote.Effects
import CodexRemote.Mirrors

/-!
# Lifecycle changes whose announcement fails

`UnmanageCodex`, `renewLease` and `sweepLease` write the row, put the changed view into memory
and announce it with a `CodexUpdated` event. A row that cannot be written leaves everything as
it was. Behind the row write, `rollbackLifecycleState` undoes the change if the commit of the
event has definitely failed, and `preserveLifecycleState` keeps it if the outcome is unknown.

A rollback writes the row again from memory and reloads the stream from the row. So it brings
back what memory and row agreed on, and a RESET watch shows that afterwards. Before the call the
watch may have shown something else: the stream of the event store can be older than the row.
-/
namespace CodexRemote.Host

open Protocol Persistence Activity Budget Codexes Leases Function List Option

variable {m : Manager} {codexID : String} {row : CodexRecord} {config : Config} {codex : Codex}
  {now : Int} {view : CurrentView}

/-- The row an upsert leaves where there was one. -/
def overwritten (old row : CodexRecord) : CodexRecord :=
  { row with
    sessionSource := normalizeSessionSource row.sessionSource
    createdAtUnixMS := old.createdAtUnixMS }

theorem upsertCodex_over (disk : Disk) (old row : CodexRecord)
    (present : disk.codexes row.codexID = some old) :
    (upsertCodex disk row).codexes row.codexID = some (overwritten old row) := by
  simp only [upsertCodex, present, update_self]
  rfl

/-- A stored view apart from its event number. -/
def unnumberedSnapshot : Snapshot → Snapshot
  | .readable view => .readable (unnumbered view)
  | other => other

/-- A row apart from the number of its view and from its last activity. -/
def comparable (row : CodexRecord) : CodexRecord :=
  { row with
    lastActivityAtUnixMS := 0
    currentViewJSON := unnumberedSnapshot row.currentViewJSON }

/-- Memory and row of a Codex agree: to write the one over the other changes nothing but the
number of the view and the last activity. -/
structure Agreed (m : Manager) (codexID : String) (view : CurrentView) (codex : Codex)
    (row : CodexRecord) : Prop where
  memory : m.byID codexID = some view
  shown : view.codex = some codex
  owned : codex.codexId = codexID
  stored : m.events.disk.codexes codexID = some row
  same : comparable (overwritten row (stateRecord m view codex)) = comparable row

/-- The view a RESET watch returns, if the database answers. -/
def resetView (m : Manager) (codexID : String) : Option CurrentView :=
  match (watch m.events codexID none 0 true).2 with
  | .ok opened => opened.response.resetView
  | .error _ => none

theorem resetView_ensured (named : codexID ≠ "") (ensured : ensure m.events codexID true = .ok st) :
    resetView m codexID = some (cloneView st.view st.head) := by
  simp only [resetView, watch, named, if_false, ensured, watchLocked, answer]

theorem resetView_blank (m : Manager) (blank : codexID = "") : resetView m codexID = none := by
  simp only [resetView, watch, blank, if_true]

/-- A stream that was reloaded from the row, or is to be, shows the view of the row. -/
theorem resetView_reloaded (named : codexID ≠ "") (stream : m.events.codex codexID =
      some (reloadUnsafe (load m.events.disk codexID answers) st))
    (present : m.events.disk.codexes codexID = some row)
    (encoded : row.currentViewJSON = .readable durable) :
    resetView m codexID =
      some { durable with headEventSeq := m.events.disk.head codexID } := by
  have loaded : load m.events.disk codexID true =
      .ok (m.events.disk.head codexID, .readable durable) := by
    simp [load, loadEventState, present, encoded]
  have ensured : ∃ ready, ensure m.events codexID true = .ok ready ∧
      ready.view = some durable ∧ ready.head = m.events.disk.head codexID := by
    unfold ensure
    rw [stream]
    cases answers with
    | true => simp [loaded, reloadUnsafe, loadDurable, Snapshot.decode]
    | false =>
      simp [reloadUnsafe, loadDurable, load, loadEventState, present, encoded, Snapshot.decode]
  obtain ⟨ready, opened, shown, head⟩ := ensured
  rw [resetView_ensured named opened, shown, head]
  rfl

/-- Behind `ReloadDurable`, whether or not it could read the row at that time. -/
theorem resetView_reload (reloads : Bool) (named : codexID ≠ "")
    (present : m.events.disk.codexes codexID = some row)
    (encoded : row.currentViewJSON = .readable durable) :
    resetView (m.reload codexID reloads) codexID =
      some { durable with headEventSeq := m.events.disk.head codexID } := by
  have events : (m.reload codexID reloads).events = m.events.put codexID
        (reloadUnsafe (load m.events.disk codexID reloads) ((m.events.codex codexID).getD {})) := by
    simp only [Manager.reload, reloadDurable, named, if_false]
  have disk : (m.reload codexID reloads).events.disk = m.events.disk := by
    rw [events]
    rfl
  rw [← disk]
  apply resetView_reloaded named
  · rw [disk, events]
    exact update_self ..
  · rw [disk]
    exact present
  · exact encoded

/-! ## The three operations -/

/-- The operation as the Host makes it. -/
def Lifecycle.perform (config : Config) (m : Manager) (codexID : String) (now : Int)
    (storage : Storage) : Lifecycle → Manager × Except ManagerError Unit
  | .unmanage requestID => unmanageCodex config m codexID requestID now storage
  | .renew => renewLease config m codexID now storage
  | .sweep => sweepLease config m codexID now storage

/-- The management state and the deadline an operation leads to. -/
def Lifecycle.LeadsTo (config : Config) (now : Int) (codex : Codex) (state : ManagementState)
    (deadline : Int) : Lifecycle → Prop
  | .unmanage _ => state = .unmanaged ∧ deadline = 0
  | .renew => state = .managed ∧ deadline = now + config.leaseDuration
  | .sweep => state = .unmanaged ∧ deadline = 0 ∨
      state = .expiringSoon ∧ deadline = codex.managedUntilUnixMs

/-- The commit of the `CodexUpdated` event, reached once the row is written. -/
def announcement (config : Config) (m : Manager) (codexID : String) (now : Int) (draft : Draft)
    (storage : Storage) : Option (Manager × Except ManagerError Event) :=
  match persistState (m.mark codexID draft.marker) draft.snapshot storage.writes,
      draft.snapshot.codex with
  | some stored, some codex =>
      some (publishCodex config (stored.remember codexID draft.snapshot) codex draft.requestID
        now storage.commit)
  | _, _ => none

section Drafts

variable {config : Config} {m : Manager} {codexID : String} {now : Int} {storage : Storage}
  {operation : Lifecycle} {draft : Draft} {view : CurrentView} {codex : Codex}
  {row : CodexRecord}

/-- An operation that gets as far as its first write announces its change, and returns with the
announcement if that fails. -/
theorem perform_draft (found : known m codexID = .ok (view, codex))
    (drafted : operation.draft config m codexID now = some draft) :
    let announced := announceLifecycle config m codexID draft.requestID now view draft.snapshot
      draft.marker (m.warningDeadline codexID) draft.kept draft.again storage
    ∀ error, announced.2 = .error error →
      (operation.perform config m codexID now storage).1 = announced.1 := by
  intro announced error failed
  cases operation with
  | unmanage requestID =>
    simp only [Lifecycle.draft, found, ite_none_left_eq_some] at drafted
    obtain ⟨blank, managed, free, same⟩ := drafted
    cases same
    simp only [Lifecycle.perform, unmanageCodex, blank, found, managed, free, if_false]
    rfl
  | renew =>
    simp only [Lifecycle.draft, found, ite_none_left_eq_some] at drafted
    obtain ⟨managed, same⟩ := drafted
    cases same
    simp only [Lifecycle.perform, renewLease, found, managed, if_false]
    rfl
  | sweep =>
    simp only [Lifecycle.draft, found] at drafted
    obtain ⟨plan, planned, rfl⟩ := map_eq_some_iff.mp drafted
    have returned : announceLifecycle config m codexID "" now view plan.snapshot plan.marker
        (m.warningDeadline codexID) (if plan.due then 0 else plan.marker) plan.due storage =
        (announced.1, .error error) := Prod.ext rfl failed
    simp only [Lifecycle.perform, sweepLease, found, planned, returned]

/-- The changed view is of the same Codex and shows what the operation leads to. -/
theorem draft_face (agreed : Agreed m codexID view codex row)
    (drafted : operation.draft config m codexID now = some draft) :
    ∃ state deadline, operation.LeadsTo config now codex state deadline ∧
      face draft.snapshot = some (codexID, state, deadline) := by
  have found : known m codexID = .ok (view, codex) := by
    simp [known, agreed.memory, agreed.shown]
  have shows : Shows view codexID ⟨codex.managementState, codex.managedUntilUnixMs,
      m.warningDeadline codexID⟩ := by
    simp [Shows, face, agreed.shown, agreed.owned]
  cases operation with
  | unmanage requestID =>
    simp only [Lifecycle.draft, found, ite_none_left_eq_some] at drafted
    obtain ⟨-, -, -, same⟩ := drafted
    cases same
    exact ⟨.unmanaged, 0, ⟨rfl, rfl⟩, unmanagedFrom_shows now shows⟩
  | renew =>
    simp only [Lifecycle.draft, found, ite_none_left_eq_some] at drafted
    obtain ⟨-, same⟩ := drafted
    cases same
    refine ⟨.managed, now + config.leaseDuration, ⟨rfl, rfl⟩, ?_⟩
    simp [face, renewedView, onCodex, agreed.shown, agreed.owned]
  | sweep =>
    simp only [Lifecycle.draft, found] at drafted
    obtain ⟨plan, planned, rfl⟩ := map_eq_some_iff.mp drafted
    obtain ⟨-, -, ended, -⟩ | ⟨-, -, expiring, -⟩ := sweepPlan_cases shows rfl rfl planned
    · exact ⟨.unmanaged, 0, .inl ⟨rfl, rfl⟩, ended⟩
    · exact ⟨.expiringSoon, codex.managedUntilUnixMs, .inr ⟨rfl, rfl⟩, expiring⟩

end Drafts

/-! ## The row cannot be written -/

theorem mark_back (m : Manager) (codexID : String) (marker : Int) :
    (m.mark codexID marker).mark codexID (m.warningDeadline codexID) = m := by
  simp [Manager.mark]

/-- Without its row write an announcement leaves the Manager as it is. -/
theorem announceLifecycle_refused (config : Config) (m : Manager) (codexID requestID : String)
    (now : Int) (original snapshot : CurrentView) (marker kept : Int) (again : Bool)
    (refused : storage.writes = false) :
    announceLifecycle config m codexID requestID now original snapshot marker
      (m.warningDeadline codexID) kept again storage = (m, .error .persist) := by
  simp only [announceLifecycle, refused, persistState_refused, mark_back]

/-! ## The commit has definitely failed -/

section Endings

variable {config : Config} {m after : Manager} {codexID : String} {now : Int}
  {storage : Storage} {draft : Draft} {view : CurrentView} {codex changed : Codex}
  {row : CodexRecord} {error : ManagerError}

/-- What the announcement has written when its commit begins. -/
def written (m : Manager) (codexID : String) (draft : Draft) (changed : Codex) : Manager :=
  { m.mark codexID draft.marker with
    events := { m.events with
      disk := upsertCodex m.events.disk
        (stateRecord (m.mark codexID draft.marker) draft.snapshot changed) } }.remember codexID
          draft.snapshot

theorem announcement_written (present : draft.snapshot.codex = some changed)
    (writes : storage.writes = true) :
    announcement config m codexID now draft storage =
      some (publishCodex config (written m codexID draft changed) changed draft.requestID now
        storage.commit) := by
  simp only [announcement, persistState, present, writes, if_true]
  rfl

/-- The announcement ends as its commit says. -/
theorem announceLifecycle_failed (original : CurrentView) (oldMarker : Int)
    (failed : announcement config m codexID now draft storage = some (after, .error error)) :
    announceLifecycle config m codexID draft.requestID now original draft.snapshot draft.marker
        oldMarker draft.kept draft.again storage =
      (if error.outcomeUnknown then
          preserveLifecycleState after codexID draft.snapshot draft.kept draft.again storage
        else rollbackLifecycleState after codexID original oldMarker storage, .error error) := by
  unfold announcement at failed
  split at failed
  · next persisted present =>
    simp only [announceLifecycle, persisted, present, some.inj failed]
  · cases failed

/-- A commit that has definitely failed leaves the database and everything in memory but the
stream as they were before it. -/
theorem publishCodex_failed
    (failed : publishCodex config m codex requestID now commit = (after, .error error))
    (definite : error.outcomeUnknown = false) :
    ∃ events, after = { m with events := events } ∧ events.disk = m.events.disk := by
  unfold publishCodex at failed
  split at failed
  · cases failed
    exact ⟨_, rfl, rfl⟩
  next shown remembered =>
  simp only [publishEvent] at failed
  obtain ⟨same, reported⟩ := Prod.mk.inj failed
  obtain ⟨cause, result, rfl⟩ := publish_error reported
  refine ⟨_, same.symm, ?_⟩
  refine publish_failed m.events _ shown commit.now commit.marshals commit.outcome
    commit.answers commit.reloads cause result ?_
  rintro rfl
  cases definite

/-- Memory, marker and row are as before, up to the number of the stored view and the last
activity. A RESET watch shows the view of memory under the durable number, which is what it
showed before if that agreed with memory. -/
structure Restored (m after : Manager) (codexID : String) (view : CurrentView)
    (row : CodexRecord) : Prop where
  memory : after.byID codexID = some view
  marker : after.warningDeadline codexID = m.warningDeadline codexID
  row : ∃ restored, after.events.disk.codexes codexID = some restored ∧
    comparable restored = comparable row
  shows : codexID ≠ "" → resetView after codexID =
    some { view with headEventSeq := m.events.disk.head codexID }
  reset : (∀ shown, resetView m codexID = some shown → unnumbered shown = unnumbered view) →
    (resetView after codexID).map unnumbered = (resetView m codexID).map unnumbered

/-- A rollback whose writes succeed brings back what memory and row agreed on.

Proof: the row is written from the restored tables over the row of the announcement. Nothing
of the latter is left, as an upsert keeps the creation time only. -/
theorem rollback_restores (agreed : Agreed m codexID view codex row)
    (present : draft.snapshot.codex = some changed) (owned : changed.codexId = codexID)
    (writes : storage.writes = true) (rewrites : storage.rewrites = true)
    (failed : announcement config m codexID now draft storage = some (after, .error error))
    (definite : error.outcomeUnknown = false) :
    Restored m (rollbackLifecycleState after codexID view (m.warningDeadline codexID) storage)
      codexID view row := by
  obtain ⟨memory, shown, rfl, stored, same⟩ := agreed
  rw [announcement_written present writes] at failed
  obtain ⟨events, rfl, disk⟩ := publishCodex_failed (some.inj failed) definite
  let restored := ({ written m codex.codexId draft changed with events := events }.mark
    codex.codexId (m.warningDeadline codex.codexId)).remember codex.codexId view
  let final : Manager :=
    { restored with
      events := { events with disk := upsertCodex events.disk (stateRecord m view codex) } }
  have record : stateRecord restored view codex = stateRecord m view codex := by
    simp [restored, stateRecord, written, Manager.mark, Manager.remember]
  have persisted : persistState restored view true = some final := by
    simp only [persistState, shown, record, if_true]
    rfl
  have rolled : rollbackLifecycleState { written m codex.codexId draft changed with
      events := events } codex.codexId view (m.warningDeadline codex.codexId) storage =
      final.reload codex.codexId storage.reloads := by
    simp only [rollbackLifecycleState, rewrites]
    rw [show persistState _ view true = some final from persisted]
  have announced : events.disk.codexes codex.codexId =
      some (overwritten row (stateRecord (m.mark codex.codexId draft.marker) draft.snapshot
        changed)) := by
    rw [disk, ← owned]
    refine upsertCodex_over m.events.disk row _ ?_
    rw [← stored, ← owned]
    rfl
  have back : final.events.disk.codexes codex.codexId =
      some (overwritten row (stateRecord m view codex)) := by
    have elapsed := upsertCodex_over events.disk (overwritten row _) (stateRecord m view codex)
      announced
    exact elapsed
  have head : final.events.disk.head codex.codexId = m.events.disk.head codex.codexId := by
    have heads : events.disk.eventHeads = m.events.disk.eventHeads := by
      rw [disk]
      rfl
    exact congrArg (fun table => (table codex.codexId).getD 0) heads
  have shows : codex.codexId ≠ "" →
      resetView (final.reload codex.codexId storage.reloads) codex.codexId =
        some { view with headEventSeq := m.events.disk.head codex.codexId } := by
    intro named
    rw [resetView_reload storage.reloads named back rfl, head]
  rw [rolled]
  constructor
  · exact update_self ..
  · exact update_self ..
  · rw [reload_disk]
    exact ⟨_, back, same⟩
  · exact shows
  intro agrees
  by_cases named : codex.codexId = ""
  · rw [resetView_blank _ named, resetView_blank _ named]
  obtain ⟨st, ensured⟩ := ensure_answered m.events codex.codexId (by simp [stored])
  have before := resetView_ensured named ensured
  rw [shows named, before, map_some, map_some, agrees _ before]
  rfl

/-! ## The outcome of the commit is unknown -/

/-- The row of the Codex has this view, up to its number, and its lease. -/
def Written (disk : Disk) (codexID : String) (view : CurrentView) (codex : Codex) : Prop :=
  ∃ row durable, disk.codexes codexID = some row ∧
    row.managementState = codex.managementState ∧
    row.managedUntilUnixMS = codex.managedUntilUnixMs ∧
    row.currentViewJSON = .readable durable ∧ unnumbered durable = unnumbered view

theorem upsertCodex_stateRecord (disk : Disk) (m : Manager) (view : CurrentView) (codex : Codex) :
    Written (upsertCodex disk (stateRecord m view codex)) codex.codexId view codex := by
  refine ⟨_, view, update_self .., ?_⟩
  split <;> exact ⟨rfl, rfl, rfl, rfl⟩

/-- An event commit with the view keeps it, however it ends. -/
theorem publish_written {m : Machine} (now : Int) (marshals : Bool) (outcome : CommitOutcome)
    (answers reloads : Bool) (wrote : Written m.disk event.codexId view codex) :
    Written (publish m (some event) (some view) now marshals outcome answers reloads).1.disk
      event.codexId view codex := by
  obtain same | ⟨row, seq, stored, same⟩ :=
    publish_disk m event view now marshals outcome answers reloads
  · rw [same]
    exact wrote
  obtain ⟨old, durable, present, state, deadline, -⟩ := wrote
  cases stored.symm.trans present
  rw [same]
  exact ⟨_, _, update_self .., state, deadline, rfl, rfl⟩

/-- Memory, row and RESET view show the new view, the row also in its columns. -/
structure Kept (after : Manager) (codexID : String) (view : CurrentView) (codex : Codex) :
    Prop where
  memory : after.byID codexID = some view
  row : Written after.events.disk codexID view codex
  reset : ∃ shown, resetView after codexID = some shown ∧ unnumbered shown = unnumbered view

/-- A commit with an unknown outcome, as `preserveLifecycleState` finds it. -/
theorem publishCodex_unknown (remembered : m.byID codex.codexId = some view)
    (wrote : Written m.events.disk codex.codexId view codex)
    (failed : publishCodex config m codex requestID now commit = (after, .error error))
    (unknown : error.outcomeUnknown = true) :
    codex.codexId ≠ "" ∧ Written after.events.disk codex.codexId view codex ∧
      ∃ st, after.events.codex codex.codexId =
        some (reloadUnsafe (load after.events.disk codex.codexId commit.reloads) st) := by
  simp only [publishCodex, remembered] at failed
  have owned := boundCanonicalEvent_codexId config.sizes config.contentBudget
    { codexId := codex.codexId, occurredAtUnixMs := now, causedByRequestId := requestID
      body := .codexUpdated codex }
  generalize boundCanonicalEvent _ _ _ = event at failed owned
  have named : event.codexId = codex.codexId := owned
  rw [← named] at wrote ⊢
  have kept := publish_written commit.now commit.marshals commit.outcome commit.answers
    commit.reloads wrote
  simp only [publishEvent] at failed
  obtain ⟨same, reported⟩ := Prod.mk.inj failed
  obtain ⟨cause, result, rfl⟩ := publish_error reported
  obtain rfl := cause_of_unknown unknown
  obtain ⟨nonblank, -, stream, -⟩ := publish_unknown _ _ _ _ _ _ _ _ result
  rw [← same]
  exact ⟨nonblank, kept, stream⟩

/-- Behind an unknown outcome the change is kept, also if it cannot be written again and if the
stream cannot be reloaded at once.

Proof: the row has the new view since before the commit, and the commit and a second write put
the same view there. The stream was dropped with the failed commit, so it shows the row. -/
theorem preserve_keeps (present : draft.snapshot.codex = some changed)
    (owned : changed.codexId = codexID) (writes : storage.writes = true)
    (failed : announcement config m codexID now draft storage = some (after, .error error))
    (unknown : error.outcomeUnknown = true) :
    Kept (preserveLifecycleState after codexID draft.snapshot draft.kept draft.again storage)
      codexID draft.snapshot changed := by
  subst owned
  rw [announcement_written present writes] at failed
  obtain ⟨named, wrote, st, stream⟩ := publishCodex_unknown (update_self ..)
    (upsertCodex_stateRecord ..) (some.inj failed) unknown
  let preserved := (after.mark changed.codexId draft.kept).remember changed.codexId draft.snapshot
  have remembered : preserved.byID changed.codexId = some draft.snapshot := update_self ..
  have reloaded : ∀ next : Manager, next.byID changed.codexId = some draft.snapshot →
      Written next.events.disk changed.codexId draft.snapshot changed →
      Kept (next.reload changed.codexId storage.reloads) changed.codexId draft.snapshot
        changed := by
    intro next memory there
    refine ⟨memory, by rw [reload_disk]; exact there, ?_⟩
    obtain ⟨row, durable, stored, -, -, encoded, same⟩ := there
    exact ⟨_, resetView_reload storage.reloads named stored encoded, same⟩
  simp only [preserveLifecycleState]
  split
  · split
    · -- the second write fails, and the stream is as the failed commit left it
      refine ⟨remembered, wrote, ?_⟩
      obtain ⟨row, durable, stored, -, -, encoded, same⟩ := wrote
      exact ⟨_, resetView_reloaded named stream stored encoded, same⟩
    · next stored persisted =>
      simp only [persistState, present] at persisted
      split at persisted <;> cases persisted
      exact reloaded _ remembered (upsertCodex_stateRecord ..)
  · exact reloaded preserved remembered wrote

end Endings

/-! ## The three operations together -/

/-- How an operation ends that gets as far as its first write, on a Codex whose memory and row
agree. If the row cannot be written, nothing changes. If the commit of its event has definitely
failed and the row can be written once more, memory, marker and row are as before, and so is the
RESET view if it agreed with memory. If the outcome of that commit is unknown, memory, row and
RESET view show the new management state and deadline. -/
theorem failed_announcement (config : Config) (m : Manager) (codexID : String) (now : Int)
    (storage : Storage) (view : CurrentView) (codex : Codex) (row : CodexRecord)
    (agreed : Agreed m codexID view codex row) (operation : Lifecycle) (draft : Draft)
    (drafted : operation.draft config m codexID now = some draft) :
    let last := (operation.perform config m codexID now storage).1
    (storage.writes = false → last = m) ∧
    ∀ after error, storage.writes = true →
      announcement config m codexID now draft storage = some (after, .error error) →
      (error.outcomeUnknown = false → storage.rewrites = true →
        Restored m last codexID view row) ∧
      (error.outcomeUnknown = true → ∃ changed state deadline,
        operation.LeadsTo config now codex state deadline ∧ changed.managementState = state ∧
        changed.managedUntilUnixMs = deadline ∧ draft.snapshot.codex = some changed ∧
        Kept last codexID draft.snapshot changed) := by
  intro last
  have found : known m codexID = .ok (view, codex) := by
    simp [known, agreed.memory, agreed.shown]
  obtain ⟨state, deadline, leads, face⟩ := draft_face agreed drafted
  obtain ⟨changed, present, same⟩ := map_eq_some_iff.mp face
  obtain ⟨owned, rest⟩ := Prod.mk.inj same
  obtain ⟨newState, newDeadline⟩ := Prod.mk.inj rest
  constructor
  · intro refused
    have ended := announceLifecycle_refused config m codexID draft.requestID now view draft.snapshot
      draft.marker draft.kept draft.again refused
    have result := perform_draft found drafted .persist (congrArg Prod.snd ended)
    exact result.trans (congrArg Prod.fst ended)
  · intro after error writes failed
    have ended := announceLifecycle_failed view (m.warningDeadline codexID) failed
    have result := perform_draft found drafted error (congrArg Prod.snd ended)
    have reached : last = _ := result.trans (congrArg Prod.fst ended)
    rw [reached]
    constructor
    · intro definite rewrites
      rw [definite]
      exact rollback_restores agreed present owned writes rewrites failed definite
    · intro unknown
      rw [unknown]
      exact ⟨changed, state, deadline, leads, newState, newDeadline, present,
        preserve_keeps present owned writes failed unknown⟩

instance (m : Manager) (codexID : String) (view : CurrentView) (codex : Codex)
    (row : CodexRecord) : Decidable (Agreed m codexID view codex row) :=
  decidable_of_iff
    (m.byID codexID = some view ∧ view.codex = some codex ∧ codex.codexId = codexID ∧
      m.events.disk.codexes codexID = some row ∧
      comparable (overwritten row (stateRecord m view codex)) = comparable row)
    ⟨fun ⟨memory, shown, owned, stored, same⟩ => ⟨memory, shown, owned, stored, same⟩,
      fun ⟨memory, shown, owned, stored, same⟩ => ⟨memory, shown, owned, stored, same⟩⟩

/-- The Codex of a Manager with its view and row, if they agree. -/
def agreement (m : Manager) (codexID : String) : Option (CurrentView × Codex × CodexRecord) :=
  match m.byID codexID, m.events.disk.codexes codexID with
  | some view, some row =>
      match view.codex with
      | some codex => if Agreed m codexID view codex row then some (view, codex, row) else none
      | none => none
  | _, _ => none

theorem agreement_agreed (found : agreement m codexID = some (view, codex, row)) :
    Agreed m codexID view codex row := by
  unfold agreement at found
  split at found
  · split at found
    · split at found <;> cases found
      next agreed =>
      exact agreed
    · cases found
  · cases found

/-- How the announcement of a drafted change fails: whether its outcome is unknown. -/
def failure (config : Config) (m : Manager) (codexID : String) (now : Int)
    (operation : Lifecycle) (storage : Storage) : Option Bool :=
  match operation.draft config m codexID now with
  | none => none
  | some draft =>
      match announcement config m codexID now draft storage with
      | some (_, .error error) => some error.outcomeUnknown
      | _ => none

theorem failure_announcement
    (failed : failure config m codexID now operation storage = some unknown) :
    ∃ draft after error, operation.draft config m codexID now = some draft ∧
      announcement config m codexID now draft storage = some (after, .error error) ∧
      error.outcomeUnknown = unknown := by
  unfold failure at failed
  split at failed
  · cases failed
  next draft drafted =>
  split at failed
  · next after error announced =>
    exact ⟨draft, after, error, drafted, announced, some.inj failed⟩
  · cases failed

/-- Storage that takes every row and refuses the commit of an event. -/
def refusing : Storage := { commit := { outcome := .rolledBack } }

/-- A Codex that was created and announced stays managed when the commit of its `UnmanageCodex`
fails. -/
theorem failed_announcement_unmanaged : ∃ world view codex row,
    Runs.run (step sampleConfig) sampleHost [sampleCreate, sampleAnnounce] = some world ∧
    Agreed world.manager "cdx" view codex row ∧ codex.managementState = .managed ∧
    Restored world.manager
      ((Lifecycle.unmanage "request").perform sampleConfig world.manager "cdx" 9 refusing).1 "cdx"
      view row := by
  have facts : (Runs.run (step sampleConfig) sampleHost [sampleCreate, sampleAnnounce]).map
      (fun world => ((agreement world.manager "cdx").map fun found =>
          found.2.1.managementState,
        failure sampleConfig world.manager "cdx" 9 (.unmanage "request") refusing)) =
      some (some .managed, some false) := by decide +kernel
  obtain ⟨world, ran, both⟩ := map_eq_some_iff.mp facts
  obtain ⟨agrees, fails⟩ := Prod.mk.inj both
  obtain ⟨⟨view, codex, row⟩, found, managed⟩ := map_eq_some_iff.mp agrees
  have agreed := agreement_agreed found
  obtain ⟨draft, after, error, drafted, announced, definite⟩ := failure_announcement fails
  have ends := failed_announcement sampleConfig world.manager "cdx" 9 refusing view codex row
    agreed (.unmanage "request") draft drafted
  exact ⟨world, view, codex, row, ran, agreed, managed,
    (ends.2 after error rfl announced).1 definite rfl⟩

/-- Memory and row show a Codex idle that was restored by a reconnect, and its stream still
shows the turn that is over. The rollback of a failed `UnmanageCodex` reloads the stream, so the
RESET view is not what it was before the call. -/
theorem rollback_changes_reset_view : ∃ world view codex row draft after error,
    Runs.run (step sampleConfig) sampleHost sampleReconnect = some world ∧
    Agreed world.manager "cdx" view codex row ∧
    (Lifecycle.unmanage "request").draft sampleConfig world.manager "cdx" 10 = some draft ∧
    announcement sampleConfig world.manager "cdx" 10 draft refusing =
      some (after, .error error) ∧ error.outcomeUnknown = false ∧
    watchedStatus world.manager "cdx" = some .running ∧
    watchedStatus ((Lifecycle.unmanage "request").perform sampleConfig world.manager "cdx" 10
      refusing).1 "cdx" = some .idle := by
  have facts : (Runs.run (step sampleConfig) sampleHost sampleReconnect).map
      (fun world => ((agreement world.manager "cdx").isSome,
        failure sampleConfig world.manager "cdx" 10 (.unmanage "request") refusing,
        watchedStatus world.manager "cdx",
        watchedStatus ((Lifecycle.unmanage "request").perform sampleConfig world.manager "cdx" 10
          refusing).1 "cdx")) =
      some (true, some false, some .running, some .idle) := by decide +kernel
  obtain ⟨world, ran, all⟩ := map_eq_some_iff.mp facts
  obtain ⟨agrees, rest⟩ := Prod.mk.inj all
  obtain ⟨fails, views⟩ := Prod.mk.inj rest
  obtain ⟨before, afterwards⟩ := Prod.mk.inj views
  obtain ⟨⟨view, codex, row⟩, found⟩ := isSome_iff_exists.mp agrees
  obtain ⟨draft, after, error, drafted, announced, definite⟩ := failure_announcement fails
  exact ⟨world, view, codex, row, draft, after, error, ran, agreement_agreed found, drafted,
    announced, definite, before, afterwards⟩

end CodexRemote.Host
