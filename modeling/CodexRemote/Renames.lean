import CodexRemote.Rollback

/-!
# Renames that fail

`RenameCodex` writes the row with the new title and the flag that protects it, puts the view into
memory and announces it. Only a row that cannot be written undoes anything: the flag is put back,
and memory was not touched yet. Behind the row write nothing is undone, so a rename whose event is
rolled back is reported as failed and in force everywhere.
-/
namespace CodexRemote.Host

open Protocol Persistence Activity Budget Codexes Leases Function

/-- Title and manual-title flag of a Codex in all places that keep them: memory, the row with its
columns and its view, and what a RESET watch shows. -/
structure Titles where
  memory : Option Text
  manual : Bool
  row : Option (Text × Bool × Option Text)
  reset : Option Text
  deriving DecidableEq

def viewTitle (view : CurrentView) : Option Text := view.codex.map Codex.title

def titles (m : Manager) (codexID : String) : Titles :=
  { memory := (m.byID codexID).bind viewTitle
    manual := m.manualTitle codexID
    row := (m.events.disk.codexes codexID).map fun row =>
      (row.title, row.manualTitleOverride, row.currentViewJSON.decode.bind viewTitle)
    reset := (resetView m codexID).bind viewTitle }

/-- The same title everywhere, as one that was set by hand. -/
def Titles.uniform (title : Text) : Titles :=
  { memory := some title, manual := true, row := some (title, true, some title)
    reset := some title }

variable {config : Config} {m after : Manager} {codexID title requestID : String} {now : Int}
  {storage : Storage} {error : ManagerError}

/-- Where opening a stream fails, a later attempt reads it from the row. -/
theorem ensure_refused (failed : ensure machine codexID answers = .error refused)
    (present : machine.disk.codexes codexID = some row)
    (encoded : row.currentViewJSON = .readable durable) :
    ∃ ready, ensure machine codexID true = .ok ready ∧ ready.view = some durable := by
  unfold ensure at failed ⊢
  split at failed
  · split at failed
    · next reload =>
      simp [reload, load, loadEventState, present, encoded, loadDurable, Snapshot.decode]
    · cases failed
  · simp [load, loadEventState, present, encoded, Stream.opened, Snapshot.decode]

/-- Behind a `Publish` that has definitely failed a RESET watch shows the view of the row. -/
theorem reset_of_failed (event : Event) (view : CurrentView) (commit : Commit)
    (named : event.codexId ≠ "") (present : m.events.disk.codexes event.codexId = some row)
    (encoded : row.currentViewJSON = .readable durable)
    (failed : (publishEvent m event view commit).2 = .error error)
    (definite : error.outcomeUnknown = false) :
    ((resetView (publishEvent m event view commit).1 event.codexId).bind viewTitle) =
      viewTitle durable := by
  simp only [publishEvent] at failed
  obtain ⟨cause, result, rfl⟩ := publish_error failed
  have disk := publish_failed m.events event view commit.now commit.marshals commit.outcome
    commit.answers commit.reloads cause result (by rintro rfl; cases definite)
  cases ensured : ensure m.events event.codexId commit.answers with
  | error refused =>
    have same : (publishEvent m event view commit).1 = m := by
      simp only [publishEvent, publish, named, if_false, ensured]
    obtain ⟨ready, opened, shown⟩ := ensure_refused ensured present encoded
    rw [same, resetView_ensured named opened, shown]
    rfl
  | ok st =>
    have stream : ∃ st, (publishEvent m event view commit).1.events.codex event.codexId =
        some (reloadUnsafe (load (publishEvent m event view commit).1.events.disk event.codexId
          commit.reloads) st) := by
      simp only [publish, named, if_false, ensured] at result
      simp only [publishEvent, publish, named, if_false, ensured]
      cases committed : commitEvent m.events.disk commit.now event.codexId
          (buildView view commit.marshals) commit.outcome with
      | mk written answer =>
        simp only [committed] at result ⊢
        cases answer with
        | ok seq => cases result
        | error reported => exact ⟨st, update_self _ _ _⟩
    obtain ⟨st, stream⟩ := stream
    rw [resetView_reloaded named stream (disk ▸ present) encoded]
    rfl

/-- Where a rename announces from: the row and memory have the Codex as renamed. -/
def retitled (m : Manager) (view : CurrentView) (renamed : Codex) (now : Int) : Manager :=
  let snapshot := { view with codex := some renamed, generatedAtUnixMs := now }
  let titled := { m with manualTitle := update m.manualTitle renamed.codexId true }
  let disk := upsertCodex m.events.disk (stateRecord titled snapshot renamed)
  { titled with events := { m.events with disk := disk } }.remember renamed.codexId snapshot

theorem retitled_row (m : Manager) (view : CurrentView) (renamed : Codex) (now : Int) :
    ∃ row, (retitled m view renamed now).events.disk.codexes renamed.codexId = some row ∧
      row.title = renamed.title ∧ row.manualTitleOverride = true ∧ row.currentViewJSON =
        .readable { view with codex := some renamed, generatedAtUnixMs := now } := by
  obtain ⟨created, row⟩ := upsertCodex_written m.events.disk (stateRecord
    { m with manualTitle := update m.manualTitle renamed.codexId true }
    { view with codex := some renamed, generatedAtUnixMs := now } renamed)
  exact ⟨_, row, rfl, update_self .., rfl⟩

/-- A failed announcement leaves the title set everywhere.

Proof: it changes neither the row nor memory. The stream is reloaded from the row. -/
theorem retitled_failed
    (failed : publishCodex config (retitled m view renamed now) renamed requestID now commit =
      (after, .error error)) (definite : error.outcomeUnknown = false)
    (named : renamed.codexId ≠ "") : titles after renamed.codexId = .uniform renamed.title := by
  obtain ⟨row, present, title, manual, encoded⟩ := retitled_row m view renamed now
  have shown : (retitled m view renamed now).byID renamed.codexId =
      some { view with codex := some renamed, generatedAtUnixMs := now } :=
    update_self ..
  have same := boundCanonicalEvent_codexId config.sizes config.contentBudget
    { codexId := renamed.codexId, occurredAtUnixMs := now, causedByRequestId := requestID
      body := .codexUpdated renamed }
  have reset : (resetView after renamed.codexId).bind viewTitle = some renamed.title := by
    simp only [publishCodex, shown] at failed
    have shows := reset_of_failed (m := retitled m view renamed now) _ _ commit (same ▸ named)
      (same ▸ present) encoded (congrArg Prod.snd failed) definite
    rwa [failed, same] at shows
  obtain ⟨events, rfl, disk⟩ := publishCodex_failed failed definite
  simp only [titles, Titles.uniform, reset, shown, disk, present, Option.map_some, title, manual,
    encoded]
  simp [viewTitle, Snapshot.decode, retitled, Manager.remember]

/-- The rename fails before the row is written. -/
def RefusedBefore (m : Manager) (codexID title : String) (storage : Storage) : Prop :=
  codexID = "" ∨ trimSpace title = "" ∨ (∃ refused, known m codexID = .error refused) ∨
    storage.writes = false

/-- A rename ends before the row is written, with nothing changed, or with the announcement. -/
theorem renameCodex_cases (owned : ∀ view, m.byID codexID = some view → Names codexID view)
    (failed : renameCodex config m codexID title requestID now storage = (after, .error error)) :
    (RefusedBefore m codexID title storage ∧ after = m) ∨
      ¬ RefusedBefore m codexID title storage ∧
      ∃ view renamed, renamed.codexId = codexID ∧ renamed.title = text (trimSpace title) ∧
        publishCodex config (retitled m view renamed now) renamed requestID now storage.commit =
          (after, .error error) := by
  unfold renameCodex at failed
  split at failed
  · next blank =>
    cases failed
    exact .inl ⟨blank.elim .inl (.inr ∘ .inl), rfl⟩
  next filled =>
  obtain ⟨named, given⟩ := not_or.mp filled
  split at failed
  · next refused =>
    cases failed
    exact .inl ⟨.inr (.inr (.inl ⟨_, refused⟩)), rfl⟩
  next view codex found =>
  obtain rfl := owned view (known_remembered found) codex (known_codex found)
  dsimp only at failed
  cases writes : storage.writes with
  | false =>
    rw [writes, persistState_refused] at failed
    cases failed
    exact .inl ⟨.inr (.inr (.inr writes)), rfl⟩
  | true =>
    let renamed := { codex with title := text (trimSpace title) }
    refine .inr ⟨?_, view, renamed, rfl, rfl, ?_⟩
    · rintro (blank | blank | ⟨refused, missing⟩ | blocked)
      · exact named blank
      · exact given blank
      · cases found.symm.trans missing
      · cases writes.symm.trans blocked
    · rw [writes, persistState_done _ _ _ rfl] at failed
      change ((publishCodex config (retitled m view renamed now) renamed requestID now
        storage.commit).1, Except.map _ (publishCodex config (retitled m view renamed now) renamed
        requestID now storage.commit).2) = _ at failed
      generalize publishCodex config (retitled m view renamed now) renamed requestID now
        storage.commit = answer at failed ⊢
      obtain ⟨last, reason | event⟩ := answer
      · cases failed
        rfl
      · cases failed

/-- A rename with a definite error leaves title and flag alone in memory, in the row and in what
a RESET watch shows exactly if it failed before the row was written, or everything had the title
by hand already. Views in memory stand under the id of their Codex (`step_filed`). -/
theorem renameCodex_failed_unchanged_iff
    (owned : ∀ view, m.byID codexID = some view → Names codexID view)
    (failed : renameCodex config m codexID title requestID now storage = (after, .error error))
    (definite : error.outcomeUnknown = false) :
    titles after codexID = titles m codexID ↔
      RefusedBefore m codexID title storage ∨
        titles m codexID = .uniform (text (trimSpace title)) := by
  obtain ⟨refused, rfl⟩ | ⟨begun, view, renamed, rfl, title, announced⟩ :=
    renameCodex_cases owned failed
  · exact ⟨fun _ => .inl refused, fun _ => rfl⟩
  have written := retitled_failed announced definite fun blank => begun (.inl blank)
  rw [written, title]
  constructor
  · intro same
    exact .inr same.symm
  · rintro (refused | same)
    · exact absurd refused begun
    · exact same.symm

/-- A Codex without a title that was just created. -/
def sampleSaved : Manager :=
  (saveCodex sampleConfig sampleHost.manager (createdCodex sampleConfig "cdx" sampleSession 5)
    sampleSession (some sampleAccess) 5 true).1

def sampleRename (storage : Storage) : Manager × Except ManagerError Unit :=
  renameCodex sampleConfig sampleSaved "cdx" "new" "rename" 6 storage

/-- The event of the rename is rolled back, and the title is in force everywhere. -/
theorem rolled_back_rename_in_force :
    let tried := sampleRename { commit := { outcome := .rolledBack } }
    tried.2 = .error (.publish (.commit .failed)) ∧
      titles tried.1 "cdx" = .uniform (text "new") ∧
      titles sampleSaved "cdx" =
        { memory := some [], manual := false, row := some ([], false, some [])
          reset := some [] } := by
  decide +kernel

/-- The row cannot be written. -/
theorem renameCodex_failed_unchanged_iff_unwritten :
    titles (sampleRename { writes := false }).1 "cdx" = titles sampleSaved "cdx" := by
  have reported : (sampleRename { writes := false }).2 = .error .persist := by
    decide +kernel
  have names : (sampleSaved.byID "cdx").all fun view =>
      view.codex.all fun codex => codex.codexId = "cdx" := by
    decide +kernel
  refine (renameCodex_failed_unchanged_iff ?_ (Prod.ext rfl reported) rfl).mpr
    (.inl (.inr (.inr (.inr rfl))))
  intro view remembered codex shown
  rw [remembered] at names
  simpa [shown] using names

end CodexRemote.Host
