import CodexRemote.Effects

/-!
# What a restore keeps

`Restore` of `internal/codex/manager.go` builds the view of every Codex anew and writes its row
with it. Six branches mix the columns of the row, the view stored in it and what the app-server
says. Two things are to come through: the lease with its warning marker, and the identity of the
Codex, which is its id, owner, thread, source, working directory and, if it was set by hand, its
title.

The lease always comes through, as every branch takes it from the columns. So does the identity
of a managed Codex, but for the thread, source and directory of one that is replaced. An
unmanaged Codex is shown as it was stored, and its columns are then written from that view. Its
identity comes through exactly if stored view and columns agree on it.

All operations under the commit lock write the two together. The end of `CreateCodex` and
`ImportSession` does not: `publishCodex` reads the view without that lock and stores it with its
event later, whatever has been written in between.
-/
namespace CodexRemote.Identities

open Protocol Persistence Activity Budget Codexes Leases Host Function List Option
open Option (map_eq_some_iff map_some)

/-! ## Identities -/

/-- What identifies a Codex. The title belongs to it if it was set by hand. -/
structure Identity where
  codexID : String
  threadID : String
  source : String
  cwd : String
  owner : String
  manualTitle : Bool
  title : Option Text
  deriving DecidableEq

def identityOf (codex : Codex) (source owner : String) (manualTitle : Bool) : Identity :=
  { codexID := codex.codexId, threadID := codex.threadId, source := source, cwd := codex.cwd
    owner := owner, manualTitle := manualTitle
    title := if manualTitle then some codex.title else none }

/-- The identity that the tables in memory show. -/
def memoryIdentity (m : Manager) (codexID : String) : Option Identity :=
  ((m.byID codexID).bind CurrentView.codex).map fun codex =>
    identityOf codex (m.sources codexID) (m.logicalOwners codexID) (m.manualTitle codexID)

/-- The identity that the columns of a row show. -/
def rowIdentity (row : CodexRecord) : Identity :=
  identityOf (codexFromRecord row) row.sessionSource row.logicalOwnerID row.manualTitleOverride

/-- Memory and row show this identity, with a source as it is stored. -/
structure Bears (m : Manager) (codexID : String) (identity : Identity) : Prop where
  memory : memoryIdentity m codexID = some identity
  row : (m.events.disk.codexes codexID).map rowIdentity = some identity
  source : normalizeSessionSource identity.source = identity.source

/-- The lease that memory shows. -/
def memoryLease (m : Manager) (codexID : String) : Option Lease :=
  ((m.byID codexID).bind CurrentView.codex).map fun codex =>
    ⟨codex.managementState, codex.managedUntilUnixMs, m.warningDeadline codexID⟩

/-- The identity apart from what a replacement of the thread may change. -/
def Identity.unplaced (identity : Identity) : Identity :=
  { identity with threadID := "", source := "", cwd := "" }

/-- One identity is the other, but for the place of a Codex whose thread is replaced. -/
def SameIdentity (replaced : Bool) (first second : Identity) : Prop :=
  if replaced then first.unplaced = second.unplaced else first = second

/-- Memory and row show the lease of the row and its identity. -/
structure Unchanged (m : Manager) (row : CodexRecord) (replaced : Bool) : Prop where
  identity : ∃ identity, Bears m row.codexID identity ∧
    SameIdentity replaced identity (rowIdentity row)
  memory : memoryLease m row.codexID = some (rowLease row)
  row : (m.events.disk.codexes row.codexID).map rowLease = some (rowLease row)

/-! ## One row -/

/-- What every row has that is written here: its stored view is of the same Codex, it has an
owner, and its source is a normalized one. -/
structure Durable (row : CodexRecord) : Prop where
  own : Own row row.codexID
  owner : row.logicalOwnerID ≠ ""
  source : normalizeSessionSource row.sessionSource = row.sessionSource

/-- The stored view of an unmanaged Codex shows the identity that the columns show. -/
def Coherent (row : CodexRecord) : Prop :=
  row.managementState = .unmanaged → ∀ view codex,
    unmarshalCurrentView row.currentViewJSON = some view → view.codex = some codex →
      codex.threadId = row.threadID ∧ codex.cwd = row.cwd ∧
        (row.manualTitleOverride = true → codex.title = row.title)

/-- The identity of a plan. -/
def planIdentity (plan : RestorePlan) (codex : Codex) : Identity :=
  identityOf codex (normalizeSessionSource plan.record.sessionSource) plan.record.logicalOwnerID
    plan.record.manualTitleOverride

section Rows

variable {config : Config} {now : Int} {row : CodexRecord} {owner : String} {read : ThreadRead}
  {reads : Bool} {plan : RestorePlan}

/-- A row with an owner and a lease is restored as it is. -/
theorem preparedRow_durable (durable : Durable row) (leased : row.managementState ≠ .unspecified) :
    preparedRow config now row owner = row := by
  simp only [preparedRow, Codexes.leased, durable.owner, leased, if_false]

theorem noteUnrecoverablePending_codex (stored : Snapshot) (codex : Codex) (view : CurrentView) :
    ∃ warnings, (noteUnrecoverablePending stored codex view).codex =
      some { codex with warnings := warnings } := by
  unfold noteUnrecoverablePending
  split
  · exact ⟨codex.warnings, rfl⟩
  · dsimp only
    split <;> exact ⟨_, rfl⟩

theorem identityOf_eq_iff (first second : Codex) (source owner : String) (manual : Bool) :
    identityOf first source owner manual = identityOf second source owner manual ↔
      first.codexId = second.codexId ∧ first.threadId = second.threadId ∧
        first.cwd = second.cwd ∧ (manual = true → first.title = second.title) := by
  cases manual <;> simp [identityOf]

theorem coherent_of_managed (managed : row.managementState ≠ .unmanaged) : Coherent row :=
  fun unmanaged => absurd unmanaged managed

/-- Every plan shows the identity of the row, unless it is of an unmanaged Codex whose stored
view shows another one.

Proof: by cases on the branch. A managed Codex is built from the columns, with a title from
elsewhere only if the title is not part of the identity. -/
theorem plan_identity (durable : Durable row) (specified : row.managementState ≠ .unspecified)
    (planned : restorePlan config now row owner read reads = some plan) :
    plan.record.codexID = row.codexID ∧ ∃ codex, plan.view.codex = some codex ∧
      codex.codexId = row.codexID ∧
      (SameIdentity plan.dropped.isSome (planIdentity plan codex) (rowIdentity row) ↔
        Coherent row) := by
  have branch := restorePlan_branch planned
  rw [preparedRow_durable durable specified] at branch
  cases branch with
  | unmanaged state =>
    refine ⟨rfl, ?_⟩
    have columns : SameIdentity false (planIdentity { record := row, view := unmanagedView now row }
        (codexFromRecord row)) (rowIdentity row) := by
      simp [SameIdentity, planIdentity, rowIdentity, durable.source]
    unfold unmanagedView
    cases stored : unmarshalCurrentView row.currentViewJSON with
    | none =>
      refine ⟨codexFromRecord row, rfl, rfl, iff_of_true columns ?_⟩
      intro _ view codex found
      rw [stored] at found
      cases found
    | some view =>
      cases present : view.codex with
      | none =>
        refine ⟨codexFromRecord row, by simp [present], rfl, iff_of_true columns ?_⟩
        intro _ other codex found shown
        cases stored.symm.trans found
        cases present.symm.trans shown
      | some codex =>
        have own : codex.codexId = row.codexID := durable.own.stored view codex stored present
        refine ⟨{ codex with
          managementState := row.managementState
          managedUntilUnixMs := row.managedUntilUnixMS }, by simp only [present], own, ?_⟩
        have agree : SameIdentity false (planIdentity { record := row, view := view } { codex with
              managementState := row.managementState
              managedUntilUnixMs := row.managedUntilUnixMS }) (rowIdentity row) ↔
            codex.threadId = row.threadID ∧ codex.cwd = row.cwd ∧
              (row.manualTitleOverride = true → codex.title = row.title) := by
          simp [SameIdentity, planIdentity, rowIdentity, durable.source, identityOf_eq_iff, own,
            codexFromRecord]
        refine agree.trans ⟨?_, fun coherent => coherent state view codex stored present⟩
        intro same _ other shown found is
        cases stored.symm.trans found
        cases present.symm.trans is
        exact same
  | resumed thread state =>
    obtain ⟨warnings, shown⟩ := noteUnrecoverablePending_codex
      (if reads then row.currentViewJSON else .absent)
      { (if row.manualTitleOverride then codexFromRecord row
          else { codexFromRecord row with
            title := thread.name.getD (codexFromRecord row).title }) with
        status := if (runningTurn thread).isSome then .unavailable else .idle
        activeTurnId := "" } { generatedAtUnixMs := now }
    refine ⟨rfl, _, shown, by split <;> rfl, iff_of_true ?_ (coherent_of_managed state)⟩
    cases manual : row.manualTitleOverride <;>
      simp [SameIdentity, planIdentity, rowIdentity, resumedPlan, identityOf, manual,
        codexFromRecord, durable.source]
  | kept state =>
    refine ⟨rfl, _, rfl, rfl, iff_of_true ?_ (coherent_of_managed state)⟩
    cases manual : row.manualTitleOverride <;>
      simp [SameIdentity, planIdentity, rowIdentity, freshPlan, identityOf, manual,
        codexFromRecord, durable.source]
  | replaced answer state =>
    refine ⟨rfl, _, rfl, rfl, iff_of_true ?_ (coherent_of_managed state)⟩
    cases manual : row.manualTitleOverride <;>
      simp [SameIdentity, planIdentity, rowIdentity, replacedPlan, freshPlan, identityOf, manual,
        codexFromRecord, Identity.unplaced]
  | unavailable state =>
    obtain ⟨warnings, shown⟩ := noteUnrecoverablePending_codex
      (if reads then row.currentViewJSON else .absent)
      { codexFromRecord row with status := .unavailable, activeTurnId := "" }
      { generatedAtUnixMs := now }
    refine ⟨rfl, _, shown, rfl, iff_of_true ?_ (coherent_of_managed state)⟩
    cases manual : row.manualTitleOverride <;>
      simp [SameIdentity, planIdentity, rowIdentity, unavailablePlan, identityOf, manual,
        codexFromRecord, durable.source]

end Rows

/-- What the app-server, the workspaces and the database answer while a row is restored. -/
structure Answers where
  now : Int
  owner : String
  read : ThreadRead
  reads : Bool := true
  access : Option WorkspaceAccessState
  writes : Bool := true

/-- The body of the loop of `restoreLocked`, and whether it goes on to the next row. -/
def restoreRow (config : Config) (m : Manager) (row : CodexRecord) (answers : Answers) :
    Manager × Bool :=
  match restorePlan config answers.now row answers.owner answers.read answers.reads,
      answers.access with
  | some plan, some state =>
      let (restored, result) := finishRestore m plan state answers.writes
      (restored, result.toBool)
  | _, _ => (m, false)

/-- The thread of the row is replaced. -/
def replaces (config : Config) (row : CodexRecord) (answers : Answers) : Bool :=
  (restorePlan config answers.now row answers.owner answers.read answers.reads).any fun plan =>
    plan.dropped.isSome

/-- Nothing of this Codex differs. -/
structure Aside (m n : Manager) (codexID : String) : Prop where
  view : n.byID codexID = m.byID codexID
  row : n.events.disk.codexes codexID = m.events.disk.codexes codexID
  source : n.sources codexID = m.sources codexID
  owner : n.logicalOwners codexID = m.logicalOwners codexID
  title : n.manualTitle codexID = m.manualTitle codexID
  marker : n.warningDeadline codexID = m.warningDeadline codexID

theorem Aside.refl (m : Manager) (codexID : String) : Aside m m codexID :=
  ⟨rfl, rfl, rfl, rfl, rfl, rfl⟩

theorem Aside.trans (first : Aside m n codexID) (second : Aside n last codexID) :
    Aside m last codexID :=
  ⟨second.view.trans first.view, second.row.trans first.row, second.source.trans first.source,
    second.owner.trans first.owner, second.title.trans first.title,
    second.marker.trans first.marker⟩

section Frames

variable {m n : Manager} {codexID : String} {row : CodexRecord} {identity : Identity}

theorem Aside.memoryIdentity_eq (aside : Aside m n codexID) :
    memoryIdentity n codexID = memoryIdentity m codexID := by
  simp only [memoryIdentity, aside.view, aside.source, aside.owner, aside.title]

theorem Aside.bears_iff (aside : Aside m n codexID) :
    Bears n codexID identity ↔ Bears m codexID identity := by
  constructor
  · rintro ⟨memory, stored, source⟩
    exact ⟨aside.memoryIdentity_eq ▸ memory, aside.row ▸ stored, source⟩
  · rintro ⟨memory, stored, source⟩
    exact ⟨aside.memoryIdentity_eq ▸ memory, aside.row ▸ stored, source⟩

end Frames

variable {rows : List (CodexRecord × Answers)}

section Passes

variable {config : Config} {m n : Manager} {codexID : String} {row : CodexRecord}
  {answers : Answers}

/-- The end of a restore leaves the other Codexes alone. -/
theorem finishRestore_aside (state : WorkspaceAccessState) (writes : Bool)
    (named : Names plan.record.codexID plan.view) (other : codexID ≠ plan.record.codexID) :
    Aside m (finishRestore m plan state writes).1 codexID := by
  have registered : Aside m (registerRestored (m.dropThread plan.record.codexID plan.dropped)
      plan.record { plan.view with workspaceAccessState := some state }) codexID := by
    obtain ⟨threads, sessions, dropped⟩ := dropThread_tables m plan.record.codexID plan.dropped
    rw [dropped]
    refine ⟨?_, rfl, ?_, ?_, ?_, ?_⟩ <;> exact update_of_ne other _ _
  unfold finishRestore
  dsimp only
  split
  · exact registered
  next stored done =>
  obtain ⟨events, rfl⟩ := persistState_events done
  refine registered.trans ⟨rfl, ?_, rfl, rfl, rfl, rfl⟩
  obtain same | ⟨of, -⟩ := persistState_codexes done codexID
  · exact same
  · exact absurd (of _ named).symm other

theorem restoreRow_aside (config : Config) (m : Manager) (answers : Answers)
    (own : Own row row.codexID) (other : codexID ≠ row.codexID) :
    Aside m (restoreRow config m row answers).1 codexID := by
  unfold restoreRow
  split
  · next plan state planned _ =>
    obtain ⟨is, -, shows⟩ := restorePlan_shows own planned
    refine finishRestore_aside state answers.writes ?_ (is ▸ other)
    intro codex present
    obtain ⟨shown, same, of, -⟩ := shows.codex
    cases present.symm.trans same
    exact of.trans is.symm
  · exact .refl m codexID

/-- The identity an upsert leaves in the row. -/
theorem upsertCodex_identity (disk : Disk) (row : CodexRecord) :
    ∃ stored, (upsertCodex disk row).codexes row.codexID = some stored ∧
      rowIdentity stored = rowIdentity
        { row with sessionSource := normalizeSessionSource row.sessionSource } := by
  obtain ⟨created, written⟩ := upsertCodex_written disk row
  exact ⟨_, written, rfl⟩

/-- A row that is restored has in memory and storage what its plan shows. -/
theorem finishRestore_bears (state : WorkspaceAccessState) (present : plan.view.codex = some codex)
    (named : codex.codexId = plan.record.codexID) :
    Bears (finishRestore m plan state true).1 plan.record.codexID (planIdentity plan codex) := by
  let view := { plan.view with workspaceAccessState := some state }
  let registered := registerRestored (m.dropThread plan.record.codexID plan.dropped) plan.record
    view
  have persisted : finishRestore m plan state true = ({ registered with
      events := { registered.events with
        disk := upsertCodex registered.events.disk (stateRecord registered view codex) } },
      .ok ()) := by
    unfold finishRestore
    dsimp only
    rw [persistState_done registered view codex present]
  have record : (stateRecord registered view codex).codexID = plan.record.codexID := named
  rw [persisted]
  constructor
  · simp [memoryIdentity, registered, registerRestored, view, present, planIdentity]
  · rw [← record]
    obtain ⟨stored, found, same⟩ := upsertCodex_identity registered.events.disk
      (stateRecord registered view codex)
    simp only [found, map_some, same]
    simp [rowIdentity, stateRecord, recordFromCodex, registered, registerRestored, planIdentity,
      identityOf, codexFromRecord, named, normalizeSessionSource_idem]
  · exact normalizeSessionSource_idem _

/-- Memory and row show the lease that a restore sets. -/
theorem leases_of_sets (sets : Sets m n codexID lease lease) :
    memoryLease n codexID = some lease ∧
      (n.events.disk.codexes codexID).map rowLease = some lease := by
  obtain ⟨view, remembered, shows⟩ := sets.view
  obtain ⟨codex, present, -, state, deadline⟩ := shows.codex
  obtain ⟨row, durable, stored, -, leased, -⟩ := sets.row
  constructor
  · simp [memoryLease, remembered, present, state, deadline, sets.marker]
  · rw [stored, map_some, leased]

/-- A row that is restored with success. Its lease is unchanged, and its identity is the one of
the plan. -/
theorem restoreRow_restored (durable : Durable row) (specified : row.managementState ≠ .unspecified)
    (restored : restoreRow config m row answers = (n, true)) :
    memoryLease n row.codexID = some (rowLease row) ∧
      (n.events.disk.codexes row.codexID).map rowLease = some (rowLease row) ∧
      ∃ identity, Bears n row.codexID identity ∧
        (SameIdentity (replaces config row answers) identity (rowIdentity row) ↔
          Coherent row) := by
  unfold restoreRow at restored
  split at restored
  · next plan state planned _ =>
    obtain ⟨writes, rfl⟩ : answers.writes = true ∧ n = (finishRestore m plan state true).1 := by
      cases writes : answers.writes with
      | true =>
        rw [writes] at restored
        exact ⟨rfl, (congrArg Prod.fst restored).symm⟩
      | false =>
        have failed : (finishRestore m plan state false).2 = .error .persist := by
          unfold finishRestore
          dsimp only
          rw [persistState_refused]
        have result := congrArg Prod.snd restored
        rw [writes] at result
        dsimp only at result
        rw [failed] at result
        cases result
    obtain ⟨is, codex, present, own, same⟩ := plan_identity durable specified planned
    have kept : leased config answers.now row = row := by simp only [leased, specified, if_false]
    obtain ⟨-, recorded, shows⟩ := restorePlan_shows durable.own planned
    rw [kept] at recorded shows
    obtain ⟨memory, stored⟩ := leases_of_sets (finishRestore_sets m state is recorded shows)
    have replacing : replaces config row answers = plan.dropped.isSome := by
      simp only [replaces, planned, any_some]
    refine ⟨memory, stored, planIdentity plan codex, ?_, replacing ▸ same⟩
    rw [← is]
    exact finishRestore_bears state present (own.trans is.symm)
  · cases restored

/-- `restoreLocked`, over the rows in the order in which the table gives them. The first error
ends it. -/
def restoreLocked (config : Config) : Manager → List (CodexRecord × Answers) → Manager × Bool
  | m, [] => (m, true)
  | m, (row, answers) :: rest =>
      match restoreRow config m row answers with
      | (restored, true) => restoreLocked config restored rest
      | (restored, false) => (restored, false)

theorem restoreLocked_cons (restored : restoreLocked config m (entry :: rest) = (n, true)) :
    ∃ middle, restoreRow config m entry.1 entry.2 = (middle, true) ∧
      restoreLocked config middle rest = (n, true) := by
  unfold restoreLocked at restored
  split at restored
  · next middle done => exact ⟨middle, done, restored⟩
  · cases restored

/-- Rows of other Codexes change nothing of this one. -/
theorem restoreLocked_aside (own : ∀ entry ∈ rows, Own entry.1 entry.1.codexID)
    (other : ∀ entry ∈ rows, codexID ≠ entry.1.codexID)
    (restored : restoreLocked config m rows = (n, true)) : Aside m n codexID := by
  induction rows generalizing m with
  | nil =>
    cases restored
    exact .refl _ codexID
  | cons entry rest ih =>
    obtain ⟨middle, first, following⟩ := restoreLocked_cons restored
    have here : Aside m middle codexID := by
      have aside := restoreRow_aside config m entry.2 (own entry (by simp)) (other entry (by simp))
      rw [first] at aside
      exact aside
    exact here.trans (ih (fun row member => own row (by simp [member]))
      (fun row member => other row (by simp [member])) following)

/-- What `restoreLocked` leaves of each of its rows.

Proof: induction on the rows. Where the row stands it is restored, and the rows behind it are
of other Codexes. -/
theorem restoreLocked_restored (durable : ∀ entry ∈ rows, Durable entry.1)
    (distinct : (rows.map fun entry => entry.1.codexID).Nodup)
    (restored : restoreLocked config m rows = (n, true)) (member : (row, answers) ∈ rows)
    (specified : row.managementState ≠ .unspecified) :
    memoryLease n row.codexID = some (rowLease row) ∧
      (n.events.disk.codexes row.codexID).map rowLease = some (rowLease row) ∧
      ∃ identity, Bears n row.codexID identity ∧
        (SameIdentity (replaces config row answers) identity (rowIdentity row) ↔
          Coherent row) := by
  induction rows generalizing m with
  | nil => cases member
  | cons entry rest ih =>
    obtain ⟨middle, first, following⟩ := restoreLocked_cons restored
    rw [map_cons, nodup_cons] at distinct
    rcases mem_cons.mp member with rfl | later
    · obtain ⟨memory, stored, identity, bears, same⟩ :=
        restoreRow_restored (durable (row, answers) (by simp)) specified first
      have aside : Aside middle n row.codexID := by
        refine restoreLocked_aside (fun other there => (durable other (by simp [there])).own)
          ?_ following
        intro other there equal
        exact distinct.1 (equal ▸ mem_map_of_mem there)
      refine ⟨?_, aside.row ▸ stored, identity, aside.bears_iff.mpr bears, same⟩
      simpa only [memoryLease, aside.view, aside.marker] using memory
    · exact ih (fun other there => durable other (by simp [there])) distinct.2 following later

end Passes

/-! ## The sweep behind a restore -/

section Sweeps

variable {config : Config} {m n next : Manager} {codexID id : String} {identity : Identity}
  {view snapshot original : CurrentView} {codex : Codex}

/-- The view shows this identity. -/
def Fits (view : CurrentView) (identity : Identity) : Prop :=
  ∃ codex, view.codex = some codex ∧
    identityOf codex identity.source identity.owner identity.manualTitle = identity

/-- The view is of one Codex, and if that is the one in question, it shows its identity. -/
structure Suits (view : CurrentView) (id codexID : String) (identity : Identity) : Prop where
  named : ∃ codex, view.codex = some codex ∧ codex.codexId = id
  fits : id = codexID → Fits view identity

/-- The identity in memory is the one of the view and of the tables. -/
theorem memoryIdentity_eq_some :
    memoryIdentity m codexID = some identity ↔
      (∃ view, m.byID codexID = some view ∧ Fits view identity) ∧
        m.sources codexID = identity.source ∧ m.logicalOwners codexID = identity.owner ∧
        m.manualTitle codexID = identity.manualTitle := by
  constructor
  · intro memory
    obtain ⟨codex, found, rfl⟩ := map_eq_some_iff.mp memory
    obtain ⟨view, remembered, present⟩ := bind_eq_some_iff.mp found
    exact ⟨⟨view, remembered, codex, present, rfl⟩, rfl, rfl, rfl⟩
  · rintro ⟨⟨view, remembered, codex, present, shows⟩, source, owner, manual⟩
    simp only [memoryIdentity, remembered, bind_some, present, map_some, source,
      owner, manual, shows]

theorem Bears.suits (bears : Bears m codexID identity) (filed : Filed m)
    (found : known m id = .ok (view, codex)) : Suits view id codexID identity := by
  have present := known_codex found
  have remembered := known_remembered found
  refine ⟨⟨codex, present, filed.memory id view remembered codex present⟩, ?_⟩
  rintro rfl
  obtain ⟨⟨shown, there, fits⟩, -⟩ := memoryIdentity_eq_some.mp bears.memory
  cases remembered.symm.trans there
  exact fits

/-- A change of the Codex that leaves its identity alone. -/
theorem Suits.onCodex (suits : Suits view id codexID identity) (change : Codex → Codex)
    (same : ∀ codex, (change codex).codexId = codex.codexId ∧
      (change codex).threadId = codex.threadId ∧ (change codex).cwd = codex.cwd ∧
      (change codex).title = codex.title) (now : Int) :
    Suits { onCodex change view with generatedAtUnixMs := now } id codexID identity := by
  obtain ⟨⟨codex, present, named⟩, fits⟩ := suits
  have changed : (Budget.onCodex change view).codex = some (change codex) := by
    simp [Budget.onCodex, present]
  refine ⟨⟨change codex, changed, (same codex).1.trans named⟩, ?_⟩
  intro here
  obtain ⟨shown, is, shows⟩ := fits here
  cases present.symm.trans is
  refine ⟨change codex, changed, Eq.trans ?_ shows⟩
  obtain ⟨ids, threads, directories, titles⟩ := same codex
  exact (identityOf_eq_iff ..).mpr ⟨ids, threads, directories, fun _ => titles⟩

section

variable (bears : Bears n codexID identity)
include bears

theorem Bears.mark (id : String) (marker : Int) : Bears (n.mark id marker) codexID identity :=
  { bears with }

theorem Bears.remember (suits : Suits view id codexID identity) :
    Bears (n.remember id view) codexID identity := by
  refine ⟨?_, bears.row, bears.source⟩
  obtain ⟨there, tables⟩ := memoryIdentity_eq_some.mp bears.memory
  refine memoryIdentity_eq_some.mpr ⟨?_, tables⟩
  by_cases same : id = codexID
  · subst same
    exact ⟨view, update_self .., suits.fits rfl⟩
  · obtain ⟨shown, remembered, fits⟩ := there
    exact ⟨shown, (update_of_ne (Ne.symm same) _ _).trans remembered, fits⟩

theorem Bears.persist (suits : Suits view id codexID identity)
    (done : persistState n view writes = some next) : Bears next codexID identity := by
  obtain ⟨codex, present, named⟩ := suits.named
  cases writes with
  | false =>
    rw [persistState_refused] at done
    cases done
  | true =>
    rw [persistState_done n view codex present] at done
    cases done
    refine { bears with row := ?_ }
    by_cases same : id = codexID
    · obtain ⟨-, source, owner, manual⟩ := memoryIdentity_eq_some.mp bears.memory
      obtain ⟨shown, is, shows⟩ := suits.fits same
      cases present.symm.trans is
      obtain ⟨stored, found, identified⟩ := upsertCodex_identity n.events.disk
        (stateRecord n view codex)
      have here : (stateRecord n view codex).codexID = codexID := named.trans same
      rw [here] at found
      rw [found, map_some, identified]
      subst here
      simp only [rowIdentity, stateRecord, recordFromCodex] at source owner manual ⊢
      rw [source, owner, manual, normalizeSessionSource_idem, bears.source]
      exact congrArg some shows
    · have other : codexID ≠ (stateRecord n view codex).codexID := by
        rintro rfl
        exact same named.symm
      have kept : (upsertCodex n.events.disk (stateRecord n view codex)).codexes codexID =
          n.events.disk.codexes codexID := update_of_ne other _ _
      rw [kept]
      exact bears.row

/-- An event commit writes no column of the identity. -/
theorem Bears.publish (event : Event) (view : CurrentView)
    (commit : Commit) : Bears (publishEvent n event view commit).1 codexID identity := by
  refine { bears with row := ?_ }
  obtain same | ⟨row, seq, present, written⟩ := publish_disk n.events event view commit.now
    commit.marshals commit.outcome commit.answers commit.reloads
  · exact (congrArg (fun disk => (disk.codexes codexID).map rowIdentity) same).trans bears.row
  refine (congrArg (fun disk => (disk.codexes codexID).map rowIdentity) written).trans ?_
  by_cases here : codexID = event.codexId
  · subst here
    have stored := bears.row
    rw [present] at stored
    simp only [Disk.writeEvent, update_self]
    exact stored
  · rw [(writeEvent_other _ _ _ _ _ here).1]
    exact bears.row

theorem Bears.reload (id : String) (reloads : Bool) :
    Bears (n.reload id reloads) codexID identity := by
  refine { bears with row := ?_ }
  rw [reload_disk]
  exact bears.row

theorem Bears.preserve (suits : Suits snapshot id codexID identity) (marker : Int) (persist : Bool)
    (storage : Storage) :
    Bears (preserveLifecycleState n id snapshot marker persist storage) codexID identity := by
  have remembered := (bears.mark id marker).remember suits
  unfold preserveLifecycleState
  dsimp only
  split
  · split
    · exact remembered
    · next stored done => exact (remembered.persist suits done).reload id storage.reloads
  · exact remembered.reload id storage.reloads

end

theorem announceLifecycle_bears (config : Config) (requestID : String)
    (now marker oldMarker keptMarker : Int) (persist : Bool) (storage : Storage)
    (bears : Bears m codexID identity)
    (before : Suits original id codexID identity) (after : Suits snapshot id codexID identity) :
    Bears (announceLifecycle config m id requestID now original snapshot marker oldMarker
      keptMarker persist storage).1 codexID identity := by
  unfold announceLifecycle
  dsimp only
  split
  · next stored codex done present =>
    have persisted := ((bears.mark id marker).persist after done).remember after
    have published : Bears (publishCodex config (stored.remember id snapshot) codex requestID now
        storage.commit).1 codexID identity := by
      unfold publishCodex
      split
      · exact persisted
      · exact persisted.publish ..
    generalize publishCodex config _ codex requestID now storage.commit = answer at published ⊢
    obtain ⟨last, outcome⟩ := answer
    cases outcome with
    | ok event => exact published
    | error error =>
      dsimp only
      split
      · exact published.preserve after keptMarker persist storage
      have restored := (published.mark id oldMarker).remember before
      unfold rollbackLifecycleState
      dsimp only
      split
      · exact restored
      · next stored done => exact (restored.persist before done).reload id storage.reloads
  · exact (bears.mark id marker).mark id oldMarker

theorem sweepPlan_suits (suits : Suits view id codexID identity)
    (planned : sweepPlan config view codex marker now = some plan) :
    Suits plan.snapshot id codexID identity := by
  unfold sweepPlan at planned
  dsimp only at planned
  split at planned
  · cases planned
  split at planned
  · cases planned
    refine suits.onCodex _ ?_ now
    exact fun _ => ⟨rfl, rfl, rfl, rfl⟩
  split at planned
  · cases planned
  split at planned
  · cases planned
    refine suits.onCodex _ ?_ now
    exact fun _ => ⟨rfl, rfl, rfl, rfl⟩
  split at planned <;> cases planned
  refine suits.onCodex _ ?_ now
  exact fun _ => ⟨rfl, rfl, rfl, rfl⟩

/-- A sweep changes the lease of a Codex at most, never an identity. -/
theorem sweepLease_bears (config : Config) (id : String) (now : Int) (storage : Storage)
    (bears : Bears m codexID identity) (filed : Filed m) :
    Bears (sweepLease config m id now storage).1 codexID identity := by
  unfold sweepLease
  split
  · exact bears
  next view codex found =>
  have before := bears.suits filed found
  split
  · exact bears
  next plan planned =>
  have after := sweepPlan_suits before planned
  have announced := announceLifecycle_bears config "" now plan.marker
    (m.warningDeadline id) (if plan.due then 0 else plan.marker) plan.due storage bears before
    after
  generalize announceLifecycle config m id "" now view plan.snapshot _ _ _ _ storage = answer
    at announced ⊢
  obtain ⟨last, outcome⟩ := answer
  cases outcome with
  | error error => exact announced
  | ok _ =>
    dsimp only
    split
    · have published := announced.publish
        (warningEvent id now codex.managedUntilUnixMs) plan.snapshot storage.second
      unfold raiseWarning
      generalize publishEvent last _ plan.snapshot storage.second = raised at published ⊢
      obtain ⟨final, result⟩ := raised
      cases result with
      | ok event => exact published
      | error error =>
        dsimp only
        split <;> exact published.preserve after _ _ storage
    · exact announced

theorem sweepLease_filed (config : Config) (id : String) (now : Int) (storage : Storage)
    (filed : Filed m) : Filed (sweepLease config m id now storage).1 := by
  refine filed.kept (Edited m) (fun _ => False)
    (fun other => (sweepLease_edits config m id now storage).edited_brings filed other) ?_
  rintro other view ⟨old, remembered, edits⟩
  exact edits.names (filed.memory other old remembered)

theorem sweepLeases_bears (now : Int) (sweeps : List (String × Storage))
    (bears : Bears m codexID identity) (filed : Filed m) :
    Bears (sweepLeases config now m sweeps).1 codexID identity := by
  induction sweeps generalizing m with
  | nil => exact bears
  | cons sweep rest ih =>
    obtain ⟨id, storage⟩ := sweep
    have swept := sweepLease_bears config id now storage bears filed
    have still := sweepLease_filed config id now storage filed
    unfold sweepLeases
    split
    · next after done =>
      rw [done] at swept still
      exact ih swept still
    · next after error done =>
      rw [done] at swept
      exact swept

end Sweeps

/-! ## The property -/

section Property

variable {config : Config} {m n : Manager} {row : CodexRecord} {answers : Answers}

theorem restoreRow_filed (config : Config) (answers : Answers) (filed : Filed m)
    (own : Own row row.codexID) : Filed (restoreRow config m row answers).1 := by
  unfold restoreRow
  split
  · next plan state planned _ =>
    obtain ⟨-, named⟩ := restorePlan_named own planned
    refine filed.kept _ (fun _ => False) (finishRestore_brings m state answers.writes named) ?_
    rintro codexID view ⟨rfl, rfl⟩
    exact named
  · exact filed

theorem restoreLocked_filed (filed : Filed m) (own : ∀ entry ∈ rows, Own entry.1 entry.1.codexID)
    (restored : restoreLocked config m rows = (n, true)) : Filed n := by
  induction rows generalizing m with
  | nil =>
    cases restored
    exact filed
  | cons entry rest ih =>
    obtain ⟨middle, first, following⟩ := restoreLocked_cons restored
    have here := restoreRow_filed config entry.2 filed (own entry (by simp))
    rw [first] at here
    exact ih here (fun row member => own row (by simp [member])) following

/-- A restore that succeeds leaves lease and identity of a row unchanged, in memory and in the
row, exactly if the row is coherent. The lease sweep that follows it leaves the identities
alone. -/
theorem restore_keeps_iff (config : Config) (m n : Manager)
    (rows : List (CodexRecord × Answers)) (row : CodexRecord) (answers : Answers)
    (filed : Filed m) (durable : ∀ entry ∈ rows, Durable entry.1)
    (distinct : (rows.map fun entry => entry.1.codexID).Nodup)
    (restored : restoreLocked config m rows = (n, true)) (member : (row, answers) ∈ rows)
    (specified : row.managementState ≠ .unspecified) :
    (Unchanged n row (replaces config row answers) ↔ Coherent row) ∧
      ∀ now sweeps, (∃ identity,
        Bears (sweepLeases config now n sweeps).1 row.codexID identity ∧
          SameIdentity (replaces config row answers) identity (rowIdentity row)) ↔
        Coherent row := by
  obtain ⟨memory, stored, identity, bears, same⟩ :=
    restoreLocked_restored durable distinct restored member specified
  have only : ∀ last other, Bears last row.codexID identity → Bears last row.codexID other →
      other = identity := by
    intro last other first second
    exact some.inj (second.memory.symm.trans first.memory)
  constructor
  · constructor
    · rintro ⟨⟨other, bearing, shown⟩, -, -⟩
      exact same.mp (only n other bears bearing ▸ shown)
    · intro coherent
      exact ⟨⟨identity, bears, same.mpr coherent⟩, memory, stored⟩
  · intro now sweeps
    have swept : Bears (sweepLeases config now n sweeps).1 row.codexID identity :=
      sweepLeases_bears now sweeps bears (restoreLocked_filed filed
        (fun entry there => (durable entry there).own) restored)
    constructor
    · rintro ⟨other, bearing, shown⟩
      exact same.mp (only _ other swept bearing ▸ shown)
    · intro coherent
      exact ⟨identity, swept, same.mpr coherent⟩

end Property

instance (row : CodexRecord) : Decidable (Durable row) :=
  decidable_of_iff
    ((∀ codex ∈ (unmarshalCurrentView row.currentViewJSON).bind CurrentView.codex,
        codex.codexId = row.codexID) ∧ row.logicalOwnerID ≠ "" ∧
      normalizeSessionSource row.sessionSource = row.sessionSource)
    ⟨fun ⟨own, owner, source⟩ =>
        ⟨⟨rfl, fun _ codex stored present => own codex (by simp [stored, present])⟩, owner, source⟩,
      fun ⟨own, owner, source⟩ => by
        refine ⟨?_, owner, source⟩
        intro codex found
        obtain ⟨view, stored, present⟩ := Option.bind_eq_some_iff.mp found
        exact own.stored view codex stored present⟩

instance (row : CodexRecord) : Decidable (Coherent row) :=
  decidable_of_iff
    (row.managementState = .unmanaged →
      ∀ codex ∈ (unmarshalCurrentView row.currentViewJSON).bind CurrentView.codex,
        codex.threadId = row.threadID ∧ codex.cwd = row.cwd ∧
          (row.manualTitleOverride = true → codex.title = row.title))
    ⟨fun agrees state _ codex stored present => agrees state codex (by simp [stored, present]),
      fun coherent state codex found => by
        obtain ⟨view, stored, present⟩ := Option.bind_eq_some_iff.mp found
        exact coherent state view codex stored present⟩

/-- The answers for an unmanaged Codex: its thread is not asked for. -/
def sampleAnswers : Answers :=
  { now := 20, owner := "other", read := .failed false false none, access := some sampleAccess }

/-- A Codex that gets a title by hand and is then left to itself, up to a restart of the Host. -/
def sampleTitled : List Label :=
  [sampleCreate, sampleAnnounce, { operation := .rename "cdx" "mine" "rename", now := 7 },
    { operation := .unmanage "cdx" "unmanage", now := 8 }, { operation := .restart 8, now := 9 }]

/-- The restore behind the restart keeps it as it is. -/
theorem restore_keeps_titled : ∃ world row n,
    Runs.run (step sampleConfig) sampleHost sampleTitled = some world ∧
    world.manager.events.disk.codexes "cdx" = some row ∧ row.manualTitleOverride = true ∧
    row.managementState = .unmanaged ∧
    restoreLocked sampleConfig world.manager [(row, sampleAnswers)] = (n, true) ∧
    Unchanged n row false := by
  have facts : (Runs.run (step sampleConfig) sampleHost sampleTitled).map (fun world =>
      (world.manager.events.disk.codexes "cdx").map fun row =>
        (decide (Durable row ∧ Coherent row ∧ row.codexID = "cdx" ∧
            row.manualTitleOverride = true ∧ row.managementState = .unmanaged),
          (restoreLocked sampleConfig world.manager [(row, sampleAnswers)]).2,
          replaces sampleConfig row sampleAnswers)) = some (some (true, true, false)) := by
    decide +kernel
  obtain ⟨world, ran, found⟩ := map_eq_some_iff.mp facts
  obtain ⟨row, stored, all⟩ := map_eq_some_iff.mp found
  obtain ⟨decided, rest⟩ := Prod.mk.inj all
  obtain ⟨succeeded, kept⟩ := Prod.mk.inj rest
  obtain ⟨durable, coherent, -, manual, unmanaged⟩ := of_decide_eq_true decided
  have filed : Filed world.manager := Runs.run_kept (fun world => Filed world.manager)
      (fun _ _ _ => step_filed) sampleHost_filed ran
  have holds := restore_keeps_iff sampleConfig world.manager
    (restoreLocked sampleConfig world.manager [(row, sampleAnswers)]).1 [(row, sampleAnswers)] row
    sampleAnswers filed (by simpa using durable) (by simp) (Prod.ext rfl succeeded) (by simp)
    (by rw [unmanaged]; nofun)
  exact ⟨world, row, _, ran, stored, manual, unmanaged, Prod.ext rfl succeeded,
    kept ▸ holds.1.mpr coherent⟩

/-! ## An announcement that comes late -/

/-- `CreateCodex` has read the view for its announcement; the Codex is renamed and unmanaged;
then the announcement is committed. -/
def overtaken : Manager :=
  let codex := createdCodex sampleConfig "cdx" sampleSession 5
  let created := (saveCodex sampleConfig sampleHost.manager codex sampleSession
    (some sampleAccess) 5 true).1
  let renamed := (renameCodex sampleConfig created "cdx" "mine" "rename" 6 {}).1
  let unmanaged := (unmanageCodex sampleConfig renamed "cdx" "unmanage" 7 {}).1
  match created.byID "cdx" with
  | none => unmanaged
  | some view => (publishRead sampleConfig unmanaged codex view "create" 8 {}).1

/-- The restore behind the next restart takes the title from the stored view, where the late
announcement has put back the old one. -/
theorem late_announcement_loses_title : ∃ row n,
    overtaken.events.disk.codexes "cdx" = some row ∧ Durable row ∧
    row.managementState = .unmanaged ∧ row.manualTitleOverride = true ∧
    row.title = text "mine" ∧
    restoreLocked sampleConfig (restartHost overtaken 8) [(row, sampleAnswers)] = (n, true) ∧
    memoryIdentity n "cdx" = some { rowIdentity row with title := some [] } := by
  have facts : (overtaken.events.disk.codexes "cdx").map (fun row =>
      (decide (Durable row ∧ row.managementState = .unmanaged ∧ row.manualTitleOverride = true ∧
          row.title = text "mine" ∧
          memoryIdentity (restoreLocked sampleConfig (restartHost overtaken 8)
            [(row, sampleAnswers)]).1 "cdx" = some { rowIdentity row with title := some [] }),
        (restoreLocked sampleConfig (restartHost overtaken 8) [(row, sampleAnswers)]).2)) =
      some (true, true) := by
    decide +kernel
  obtain ⟨row, stored, both⟩ := map_eq_some_iff.mp facts
  obtain ⟨decided, succeeded⟩ := Prod.mk.inj both
  obtain ⟨durable, unmanaged, manual, title, shown⟩ := of_decide_eq_true decided
  exact ⟨row, _, stored, durable, unmanaged, manual, title, Prod.ext rfl succeeded, shown⟩

end CodexRemote.Identities
