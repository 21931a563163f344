import CodexRemote.Leases
import CodexRemote.Operations

/-!
# What the operations of the Manager write

Most operations on a Codex come down to four actions, in some order and any number: they
change a table that only they read, they put a view into memory, they write a row, and they
publish an event with a view. `Acts` says this once for all of them, and for each place at which
the Host can stop in them. The views are those in memory and what the operation makes of them
(`Revises`). Such a view differs from the one in memory, but never in which Codex and which
thread it is of, nor in the access state of the workspace: it is `Edited`.

The other operations are the ones that bring something else in: a new Codex, a workspace commit,
a restore, and the end of a Codex. `Brings` says of one Codex where the views that it has after
an operation come from, and `step_brings` says it for every step of the Host.
-/
namespace CodexRemote.Host

open Protocol Persistence Activity Budget Codexes Leases Function List Option
open List (mem_map mem_singleton)

variable {event : AdapterEvent} {view old : CurrentView} {now : Int} {codex : Codex}
  {storage : Storage} {operation : Operation} {codexID : String}
  {Allowed : String → CurrentView → Prop}

/-- What the plain operations leave alone in a view: Codex, thread and access state. -/
def core (view : CurrentView) : Option (String × String) × Option WorkspaceAccessState :=
  (view.codex.map fun codex => (codex.codexId, codex.threadId), view.workspaceAccessState)

/-- The second view is a new one of the same Codex. -/
def Edits (old new : CurrentView) : Prop := core new = core old

variable (sizes : Sizes) (configured : Int)

section Views

theorem Edits.refl (view : CurrentView) : Edits view view := rfl

theorem Edits.trans (left : Edits first second) (right : Edits second third) : Edits first third :=
  Eq.trans right left

theorem edits_of_keeps {after : CurrentView} (kept : Keeps view after) : Edits view after := by
  have through : ∀ codex : Option Codex, codex.map (fun codex => (codex.codexId, codex.threadId)) =
        (codex.map bareCodex).map fun codex => (codex.codexId, codex.threadId) := by
    rintro (_ | codex) <;> rfl
  unfold Edits core
  rw [through, kept.codex, ← through, kept.access]

theorem edits_bound (view : CurrentView) :
    Edits view (boundCurrentView sizes configured view) :=
  edits_of_keeps (boundCurrentView_keeps sizes configured view)

theorem edits_onCodex (change : Codex → Codex) (view : CurrentView)
    (same : ∀ codex, (change codex).codexId = codex.codexId ∧
      (change codex).threadId = codex.threadId) : Edits view (onCodex change view) := by
  unfold Edits core
  cases codex : view.codex <;> simp [onCodex, codex, same]

theorem edits_running (turnID : String) (now deadline : Int)
    (view : CurrentView) : Edits view (runningView sizes configured turnID now deadline view) := by
  refine Edits.trans (edits_onCodex _ view ?_) (edits_bound sizes configured _)
  exact fun _ => ⟨rfl, rfl⟩

theorem edits_resolved (config : Config) (pendingID : String) (now : Int) (view : CurrentView) :
    Edits view (resolvedView config pendingID now view) := by
  refine Edits.trans ?_ (edits_bound config.sizes config.contentBudget _)
  split
  · refine edits_onCodex _ view ?_
    exact fun _ => ⟨rfl, rfl⟩
  · exact Edits.refl view

theorem edits_changes (changes : Changes now event view changed) :
    Edits view changed := by
  cases changes with
  | worked => exact Edits.refl view
  | params | ended => exact edits_onCodex _ view fun _ => ⟨rfl, rfl⟩
  | asked => exact edits_onCodex _ _ fun _ => ⟨rfl, rfl⟩
  | warned => exact edits_onCodex _ view fun _ => ⟨rfl, rfl⟩

/-- Sharing the message of an event edits the view at most. -/
theorem edits_entering (event : Event) (view : CurrentView) :
    Edits view (entering sizes configured event view) := by
  unfold entering
  extract_lets bounded shared
  have into : Edits view shared := by
    dsimp only [shared, shareInto]
    split <;> exact Edits.refl view
  split
  · exact into
  refine into.trans (edits_onCodex _ _ ?_)
  intro codex
  unfold addBudgetWarning
  split <;> exact ⟨rfl, rfl⟩

theorem edits_clipBoth (event : Event) (view : CurrentView) :
    Edits view (clipBoth sizes configured event view).1 :=
  (edits_entering sizes configured event view).trans (edits_bound sizes configured _)

theorem edits_applyEvent {sizes : Sizes} {configured : Int} {after : CurrentView}
    (applied : applyEvent sizes configured manualTitle chunk now codexID event view =
      some (after, published)) : Edits view after := by
  obtain ⟨⟨changed, body, complete⟩, placed, clipped⟩ := map_eq_some_iff.mp applied
  have clip := edits_clipBoth sizes configured
    { codexId := codexID, occurredAtUnixMs := now, completeness := complete, body := body }
    { changed with generatedAtUnixMs := now }
  dsimp only at clipped
  rw [clipped] at clip
  exact (edits_changes (applyBody_changes placed)).trans clip

/-- The views of the lease operations: only the Codex changes, and neither in identity nor in
status. -/
inductive Leased (view : CurrentView) : CurrentView → Prop
  | onCodex (now : Int) (change : Codex → Codex)
      (kept : ∀ codex, (change codex).codexId = codex.codexId ∧
        (change codex).threadId = codex.threadId ∧ (change codex).status = codex.status ∧
        (change codex).activeTurnId = codex.activeTurnId) :
      Leased view { Budget.onCodex change view with generatedAtUnixMs := now }

theorem leased_unmanaged (now : Int) (view : CurrentView) : Leased view (unmanagedFrom now view) :=
  .onCodex now _ fun _ => ⟨rfl, rfl, rfl, rfl⟩

theorem leased_renewed (now deadline : Int) (view : CurrentView) :
    Leased view (renewedView now deadline view) :=
  .onCodex now _ fun _ => ⟨rfl, rfl, rfl, rfl⟩

theorem leased_sweep (planned : sweepPlan config view codex marker now = some plan) :
    Leased view plan.snapshot := by
  have expiring : ∀ deadline due, Leased view (expiringView now deadline due view) :=
    fun _ _ => .onCodex now _ fun _ => ⟨rfl, rfl, rfl, rfl⟩
  unfold sweepPlan at planned
  dsimp only at planned
  split at planned
  · cases planned
  split at planned
  · cases planned
    exact leased_unmanaged now view
  split at planned
  · cases planned
  split at planned
  · cases planned
    exact expiring _ true
  split at planned <;> cases planned
  exact expiring _ false

theorem renamed_edits (title : Text) (now : Int) (present : view.codex = some codex) :
    Edits view { view with
      codex := some { codex with title := title }, generatedAtUnixMs := now } := by
  simp [Edits, core, present]

end Views

/-- The view a Codex is registered with. -/
def registeredView (config : Config) (codex : Codex) (state : WorkspaceAccessState) (now : Int) :
    CurrentView :=
  boundCurrentView config.sizes config.contentBudget
    { codex := some codex, workspaceAccessState := some state, generatedAtUnixMs := now }

/-- How a plain operation changes the view of a Codex. -/
inductive Revises (config : Config) (m : Manager) (now : Int) :
    Operation → String → CurrentView → CurrentView → Prop
  | running (call : Call) (old : CurrentView) :
      Revises config m now (.setRunning call) call.codexID old
        (runningView config.sizes config.contentBudget call.turnID now
          (now + config.leaseDuration) old)
  | accepted (call : Call) (old : CurrentView) (item : Item) :
      Revises config m now (.userMessage call) call.codexID old
        (acceptedView now call.turnID item old)
  | applied {event : AdapterEvent} {codexID : String} {old view : CurrentView} {made : Event}
      (thread : m.byThread event.threadID = some codexID)
      (applied : applyEvent config.sizes config.contentBudget (m.manualTitle codexID)
        (countChunk m codexID event).2 now codexID event old = some (view, made)) :
      Revises config m now (.notify event) codexID old view
  | resolved (codexID pendingID : String) (resolved : PendingRequest) (requestID : String)
      (saves : Bool) (old : CurrentView) :
      Revises config m now (.resolve codexID pendingID resolved requestID saves) codexID old
        (resolvedView config pendingID now old)
  | leased {operation : Operation} {codexID : String} {old view : CurrentView}
      (quiet : ∀ event, operation ≠ .notify event) (leased : Leased old view) :
      Revises config m now operation codexID old view
  | renamed {codexID : String} {old : CurrentView} {codex : Codex} (title : String) (name : Text)
      (requestID : String) (present : old.codex = some codex) :
      Revises config m now (.rename codexID title requestID) codexID old
        { old with codex := some { codex with title := name }, generatedAtUnixMs := now }

/-- The views an operation can put somewhere: those in memory, and what it makes of them. -/
def Drawn (config : Config) (m : Manager) (now : Int) (operation : Operation)
    (codexID : String) (view : CurrentView) : Prop :=
  m.byID codexID = some view ∨
    ∃ old, m.byID codexID = some old ∧ Revises config m now operation codexID old view

/-- The Managers that the actions of plain operations lead to, with the views they may use. -/
inductive Acts (Allowed : String → CurrentView → Prop) (m : Manager) : Manager → Prop
  | start : Acts Allowed m m
  | tables {n : Manager} (titles : String → Bool) (markers : String → Int)
      (chunks : String → Nat) (before : Acts Allowed m n) :
      Acts Allowed m
        { n with manualTitle := titles, warningDeadline := markers, chunks := chunks }
  | remember {n : Manager} {codexID : String} {view : CurrentView}
      (allowed : Allowed codexID view) (before : Acts Allowed m n) :
      Acts Allowed m (n.remember codexID view)
  | persist {n next : Manager} {codexID : String} {view : CurrentView} {writes : Bool}
      (allowed : Allowed codexID view) (done : persistState n view writes = some next)
      (before : Acts Allowed m n) : Acts Allowed m next
  | publish {n : Manager} {view : CurrentView} (event : Event) (commit : Commit)
      (allowed : Allowed event.codexId view) (before : Acts Allowed m n) :
      Acts Allowed m (publishEvent n event view commit).1
  | reload {n : Manager} {codexID : String} {view : CurrentView} (reloads : Bool)
      (allowed : Allowed codexID view) (before : Acts Allowed m n) :
      Acts Allowed m (n.reload codexID reloads)
  | watch {n : Manager} (codexID : String) (after : Option Nat) (queue : Int) (answers : Bool)
      (before : Acts Allowed m n) :
      Acts Allowed m
        { n with events := (Activity.watch n.events codexID after queue answers).1 }
  | read {n : Manager} (codexID : String) (answers : Bool) (before : Acts Allowed m n) :
      Acts Allowed m { n with events := (currentView n.events codexID answers).1 }

/-- What plain operations give a Codex is an edit of its own view. -/
def Edited (m : Manager) (codexID : String) (view : CurrentView) : Prop :=
  ∃ old, m.byID codexID = some old ∧ Edits old view

theorem Revises.edits (revises : Revises config m now operation codexID old view) :
    Edits old view := by
  cases revises with
  | running => exact edits_running ..
  | accepted => exact Edits.refl old
  | applied thread applied => exact edits_applyEvent applied
  | resolved _ pendingID => exact edits_resolved config pendingID now old
  | leased _ leased =>
    obtain ⟨stamp, change, kept⟩ := leased
    exact edits_onCodex change old fun codex => ⟨(kept codex).1, (kept codex).2.1⟩
  | renamed _ name _ present => exact renamed_edits name now present

/-- What a plain operation draws up is an edit of the view in memory. -/
theorem drawn_edited (operation : Operation) (codexID : String) (view : CurrentView)
    (drawn : Drawn config m now operation codexID view) : Edited m codexID view := by
  rcases drawn with remembered | ⟨old, remembered, revises⟩
  · exact ⟨view, remembered, Edits.refl view⟩
  · exact ⟨old, remembered, revises.edits⟩

section Actions

variable {config : Config} {m n next : Manager} {codexID : String} {now : Int}
  {view original snapshot : CurrentView} {Allowed : String → CurrentView → Prop}

theorem Acts.mono (weaker : ∀ id view, Allowed id view → Weaker id view) (acts : Acts Allowed m n) :
    Acts Weaker m n := by
  induction acts with
  | start => exact .start
  | tables titles markers chunks _ ih => exact .tables titles markers chunks ih
  | remember allowed _ ih => exact .remember (weaker _ _ allowed) ih
  | persist allowed done _ ih => exact .persist (weaker _ _ allowed) done ih
  | publish event commit allowed _ ih => exact .publish event commit (weaker _ _ allowed) ih
  | reload reloads allowed _ ih => exact .reload reloads (weaker _ _ allowed) ih
  | watch id after queue answers _ ih => exact .watch id after queue answers ih
  | read id answers _ ih => exact .read id answers ih

section

variable (acts : Acts Allowed m n)
include acts

/-- Memory holds what it held, or a view that was put there. -/
theorem Acts.memory (found : n.byID codexID = some view) :
    m.byID codexID = some view ∨ Allowed codexID view := by
  induction acts generalizing view with
  | start => exact .inl found
  | tables _ _ _ _ ih => exact ih found
  | remember allowed before ih =>
    next n' id shown =>
    by_cases same : codexID = id
    · subst same
      have is : shown = view := by simpa [Manager.remember] using found
      exact .inr (is ▸ allowed)
    · exact ih (by simpa [Manager.remember, update_of_ne same] using found)
  | persist _ done _ ih =>
    obtain ⟨events, rfl⟩ := persistState_events done
    exact ih found
  | publish _ _ _ _ ih | reload _ _ _ ih | watch _ _ _ _ _ ih | read _ _ _ ih => exact ih found

theorem Acts.mark (id : String) (marker : Int) : Acts Allowed m (n.mark id marker) :=
  .tables _ _ _ acts

theorem Acts.rollback (allowed : Allowed codexID view) (marker : Int) (storage : Storage) :
    Acts Allowed m (rollbackLifecycleState n codexID view marker storage) := by
  have restored : Acts Allowed m ((n.mark codexID marker).remember codexID view) :=
    .remember allowed (acts.mark codexID marker)
  unfold rollbackLifecycleState
  dsimp only
  split
  · exact restored
  · next stored done => exact .reload _ allowed (.persist allowed done restored)

theorem Acts.preserve (allowed : Allowed codexID view) (marker : Int)
    (persist : Bool) (storage : Storage) :
    Acts Allowed m (preserveLifecycleState n codexID view marker persist storage) := by
  have preserved : Acts Allowed m ((n.mark codexID marker).remember codexID view) :=
    .remember allowed (acts.mark codexID marker)
  unfold preserveLifecycleState
  dsimp only
  split
  · split
    · exact preserved
    · next stored done => exact .reload _ allowed (.persist allowed done preserved)
  · exact .reload _ allowed preserved

theorem Acts.raiseWarning (allowed : Allowed codexID snapshot)
    (now deadline : Int) (storage : Storage) :
    Acts Allowed m (raiseWarning n codexID now deadline snapshot storage).1 := by
  have published : Acts Allowed m
      (publishEvent n (warningEvent codexID now deadline) snapshot storage.second).1 :=
    .publish _ _ allowed acts
  unfold Codexes.raiseWarning
  generalize publishEvent n _ snapshot storage.second = answer at published ⊢
  obtain ⟨after, outcome⟩ := answer
  cases outcome with
  | ok event => exact published
  | error error =>
    dsimp only
    split
    · exact published.preserve allowed deadline false storage
    · exact published.preserve allowed 0 true storage

end

section Announcements

variable (remembered : ∀ id view, m.byID id = some view → Allowed id view)

include remembered

theorem Acts.publishCodex (acts : Acts Allowed m n) (config : Config) (codex : Codex)
    (requestID : String) (now : Int) (commit : Commit) :
    Acts Allowed m (publishCodex config n codex requestID now commit).1 := by
  unfold Codexes.publishCodex
  split
  · exact acts
  next view found =>
  refine .publish _ commit ?_ acts
  rw [boundCanonicalEvent_codexId]
  exact (acts.memory found).elim (remembered _ view) id

theorem announceLifecycle_acts (requestID : String) (now marker oldMarker keptMarker : Int)
    (persist : Bool) (storage : Storage) (before : Allowed codexID original)
    (allowed : Allowed codexID snapshot) :
    Acts Allowed m (announceLifecycle config m codexID requestID now original snapshot marker
      oldMarker keptMarker persist storage).1 := by
  unfold announceLifecycle
  dsimp only
  split
  · next stored codex persisted _ =>
    have shown : Acts Allowed m (stored.remember codexID snapshot) :=
      .remember allowed (.persist allowed persisted (Acts.start.mark _ _))
    have published := shown.publishCodex remembered config codex requestID now storage.commit
    split
    · next last event done =>
      rw [done] at published
      exact published
    · next last error done =>
      rw [done] at published
      split
      · exact published.preserve allowed keptMarker persist storage
      · exact published.rollback before oldMarker storage
  · exact (Acts.start.mark _ _).mark _ _

end Announcements

/-- Views in memory may be put anywhere. -/
theorem drawn_remembered (operation : Operation) (id : String) (view : CurrentView)
    (found : m.byID id = some view) : Drawn config m now operation id view :=
  .inl found

/-- What an operation on the lease makes of the view. -/
theorem drawn_leased (found : known m codexID = .ok (old, codex))
    (quiet : ∀ event, operation ≠ .notify event) (leased : Leased old view) :
    Drawn config m now operation codexID view :=
  .inr ⟨old, known_remembered found, .leased quiet leased⟩

theorem unmanageCodex_acts (requestID : String) (storage : Storage) :
    Acts (Drawn config m now (.unmanage codexID requestID)) m
      (unmanageCodex config m codexID requestID now storage).1 := by
  unfold unmanageCodex
  split
  · exact .start
  split
  · exact .start
  next view codex found =>
  split
  · exact .start
  split
  · exact .start
  refine announceLifecycle_acts (drawn_remembered _) requestID now _ _ _ _ storage
    (.inl (known_remembered found)) ?_
  exact drawn_leased found (by simp) (leased_unmanaged now view)

theorem renewLease_acts (storage : Storage) :
    Acts (Drawn config m now (.renew codexID)) m
      (renewLease config m codexID now storage).1 := by
  unfold renewLease
  split
  · exact .start
  next view codex found =>
  split
  · exact .start
  refine announceLifecycle_acts (drawn_remembered _) "" now _ _ _ _ storage
    (.inl (known_remembered found)) ?_
  exact drawn_leased found (by simp) (leased_renewed now _ view)

theorem drawn_plan (found : known m codexID = .ok (view, codex))
    (planned : sweepPlan config view codex (m.warningDeadline codexID) now = some plan) :
    Drawn config m now (.sweep codexID) codexID plan.snapshot :=
  drawn_leased found (by simp) (leased_sweep planned)

/-- The first part of a sweep, up to the warning. -/
theorem sweep_announces (storage : Storage) (found : known m codexID = .ok (view, codex))
    (planned : sweepPlan config view codex (m.warningDeadline codexID) now = some plan) :
    Acts (Drawn config m now (.sweep codexID)) m
      (announceLifecycle config m codexID "" now view plan.snapshot plan.marker
        (m.warningDeadline codexID) (if plan.due then 0 else plan.marker) plan.due storage).1 :=
  announceLifecycle_acts (drawn_remembered _) "" now _ _ _ _ storage
    (.inl (known_remembered found)) (drawn_plan found planned)

theorem sweepLease_acts (storage : Storage) :
    Acts (Drawn config m now (.sweep codexID)) m
      (sweepLease config m codexID now storage).1 := by
  unfold sweepLease
  split
  · exact .start
  next view codex found =>
  split
  · exact .start
  next plan planned =>
  have drawn : Drawn config m now (.sweep codexID) codexID plan.snapshot :=
    drawn_plan found planned
  have announced := sweep_announces storage found planned
  generalize announceLifecycle config m codexID "" now view plan.snapshot _ _ _ _ storage = answer
    at announced ⊢
  obtain ⟨last, outcome⟩ := answer
  cases outcome with
  | error error => exact announced
  | ok _ =>
    dsimp only
    split
    · exact announced.raiseWarning drawn now _ storage
    · exact announced

theorem drawn_renamed (title requestID : String) (name : Text)
    (found : known m codexID = .ok (view, codex)) :
    Drawn config m now (.rename codexID title requestID) codexID
      { view with codex := some { codex with title := name }, generatedAtUnixMs := now } :=
  .inr ⟨view, known_remembered found, .renamed title name requestID (known_codex found)⟩

theorem renameCodex_acts (title requestID : String) (storage : Storage) :
    Acts (Drawn config m now (.rename codexID title requestID)) m
      (renameCodex config m codexID title requestID now storage).1 := by
  unfold renameCodex
  split
  · exact .start
  split
  · exact .start
  next view codex found =>
  have drawn : Drawn config m now (.rename codexID title requestID) codexID _ :=
    drawn_renamed title requestID (text (trimSpace title)) found
  dsimp only
  split
  · exact .start
  · next stored persisted =>
    have shown := Acts.remember drawn (.persist drawn persisted (.tables _ _ _ .start))
    exact shown.publishCodex (drawn_remembered _) config _ requestID now storage.commit

theorem drawn_resolved (pendingID requestID : String) (resolved : PendingRequest) (saves : Bool)
    (remembered : m.byID codexID = some view) :
    Drawn config m now (.resolve codexID pendingID resolved requestID saves) codexID
      (resolvedView config pendingID now view) :=
  .inr ⟨view, remembered, .resolved codexID pendingID resolved requestID saves view⟩

theorem resolvePending_acts (pendingID requestID : String) (resolved : PendingRequest)
    (saves : Bool) (storage : Storage) :
    Acts (Drawn config m now (.resolve codexID pendingID resolved requestID saves)) m
      (resolvePending config m codexID pendingID resolved requestID now saves storage).1 := by
  unfold resolvePending
  dsimp only
  split
  · split
    · exact .start
    next view remembered =>
    have drawn : Drawn config m now (.resolve codexID pendingID resolved requestID saves)
        codexID (resolvedView config pendingID now view) :=
      drawn_resolved pendingID requestID resolved saves remembered
    have answered := Acts.remember drawn (Acts.start : Acts _ m m)
    split
    · exact answered
    next stored persisted =>
    refine .publish _ storage.commit ?_ (.persist drawn persisted answered)
    rw [boundCanonicalEvent_codexId]
    exact drawn
  · exact .start

theorem drawn_accepted (found : known m call.codexID = .ok (view, codex)) :
    Drawn config m now (.userMessage call) call.codexID
      (acceptedView now call.turnID
        (acceptedItem config.sizes config.contentBudget call.turnID call.parts) view) :=
  .inr ⟨view, known_remembered found, .accepted call view _⟩

theorem publishAcceptedUserMessage_acts (call : Call) (writes : Bool) (commit : Commit) :
    Acts (Drawn config m now (.userMessage call)) m
      (publishAcceptedUserMessage config m call.codexID call.turnID call.parts call.requestID now
        writes commit).1 := by
  unfold publishAcceptedUserMessage
  split
  · exact .start
  next view codex found =>
  have drawn : Drawn config m now (.userMessage call) call.codexID _ := drawn_accepted found
  dsimp only
  split
  · exact .start
  next stored persisted =>
  refine .publish _ commit ?_ (.remember drawn (.persist drawn persisted .start))
  rw [boundCanonicalEvent_codexId]
  exact drawn

theorem drawn_running (remembered : m.byID call.codexID = some view) :
    Drawn config m now (.setRunning call) call.codexID
      (runningView config.sizes config.contentBudget call.turnID now
        (now + config.leaseDuration) view) :=
  .inr ⟨view, remembered, .running call view⟩

theorem setRunning_acts (call : Call) (writes : Bool) (turnCommit codexCommit : Commit) :
    Acts (Drawn config m now (.setRunning call)) m
      (setRunning config m call.codexID call.turnID call.requestID now writes turnCommit
        codexCommit).1 := by
  unfold setRunning
  split
  · exact .start
  next view remembered =>
  have drawn : Drawn config m now (.setRunning call) call.codexID _ :=
    drawn_running remembered
  dsimp only
  split
  · exact .remember drawn (Acts.start.mark _ _)
  next stored persisted =>
  have shown := Acts.remember drawn (.persist drawn persisted (Acts.start.mark _ _))
  have published := Acts.publish
    { codexId := call.codexID, occurredAtUnixMs := now, causedByRequestId := call.requestID
      body := .turnUpdated call.turnID .running now 0 none } turnCommit drawn shown
  generalize publishEvent _ _ _ turnCommit = answer at published ⊢
  obtain ⟨after, outcome⟩ := answer
  cases outcome with
  | error error => exact published
  | ok event =>
    dsimp only
    split
    · exact published
    · next codex _ =>
      exact published.publishCodex (drawn_remembered _) config codex call.requestID now codexCommit

theorem drawn_applied (thread : m.byThread event.threadID = some codexID)
    (remembered : m.byID codexID = some old)
    (applied : applyEvent config.sizes config.contentBudget (m.manualTitle codexID)
      (countChunk m codexID event).2 now codexID event old = some (view, made)) :
    Drawn config m now (.notify event) codexID view :=
  .inr ⟨old, remembered, .applied thread applied⟩

theorem applyAdapterEventLocked_acts (event : AdapterEvent) (writes : Bool)
    (commit codexCommit : Commit) :
    Acts (Drawn config m now (.notify event)) m
      (applyAdapterEventLocked config m event now writes commit codexCommit).1 := by
  unfold applyAdapterEventLocked
  split
  · exact .start
  next codexID thread =>
  split
  · exact .start
  next old remembered =>
  obtain ⟨chunks, counted⟩ := countChunk_fields m codexID event
  have begun : Acts (Drawn config m now (.notify event)) m
      (countChunk m codexID event).1 := by
    rw [counted]
    exact .tables _ _ _ .start
  dsimp only
  split
  · exact begun
  next view made applied =>
  have drawn : Drawn config m now (.notify event) codexID view :=
    drawn_applied thread remembered applied
  have named := applyEvent_codexId applied
  have shown := Acts.remember drawn begun
  split
  · exact shown
  next stored persisted =>
  have published := Acts.publish made commit (named ▸ drawn) (.persist drawn persisted shown)
  split
  · next done =>
    rw [done] at published
    exact published
  · next codex done _ _ =>
    rw [done] at published
    exact published.publishCodex (drawn_remembered _) config codex "" now codexCommit
  · next done _ =>
    rw [done] at published
    exact published

end Actions

section Points

variable {config : Config} {m n : Manager} {codexID : String} {view : CurrentView} {now : Int}
  {Allowed : String → CurrentView → Prop}

/-- The database is one that the actions lead to. -/
def Stops (Allowed : String → CurrentView → Prop) (m : Manager) (disk : Disk) : Prop :=
  ∃ n, Acts Allowed m n ∧ n.events.disk = disk

theorem storedPoints_stops (acts : Acts Allowed m n) (allowed : Allowed codexID view)
    (storage : Storage) (named : ∀ event ∈ events, event.codexId = codexID) :
    ∀ disk ∈ storedPoints n view events storage, Stops Allowed m disk := by
  intro disk member
  unfold storedPoints at member
  split at member
  · cases member
  next stored persisted =>
  have wrote := Acts.persist allowed persisted acts
  rcases mem_cons.mp member with rfl | later
  · exact ⟨stored, wrote, rfl⟩
  obtain ⟨event, among, rfl⟩ := mem_map.mp later
  refine ⟨_, .publish _ storage.commit ?_ wrote, rfl⟩
  rw [named event among]
  exact allowed

theorem lifecyclePoints_stops (remembered : ∀ id view, m.byID id = some view → Allowed id view)
    (requestID : String) (now marker : Int) (storage : Storage) (allowed : Allowed codexID view) :
    ∀ disk ∈ lifecyclePoints config m codexID requestID now view marker storage,
      Stops Allowed m disk := by
  intro disk member
  unfold lifecyclePoints at member
  split at member
  · next stored codex persisted _ =>
    have wrote : Acts Allowed m stored :=
      .persist allowed persisted (Acts.start.mark codexID marker)
    simp only [mem_cons, not_mem_nil, or_false] at member
    rcases member with rfl | rfl
    · exact ⟨stored, wrote, rfl⟩
    · have shown := Acts.remember allowed wrote
      exact ⟨_, shown.publishCodex remembered config codex requestID now storage.commit, rfl⟩
  · cases member

theorem sweepPoints_stops (storage : Storage) :
    ∀ disk ∈ sweepPoints config m codexID now storage,
      Stops (Drawn config m now (.sweep codexID)) m disk := by
  intro disk member
  unfold sweepPoints at member
  split at member
  · cases member
  next view codex found =>
  split at member
  · cases member
  next plan planned =>
  have drawn : Drawn config m now (.sweep codexID) codexID plan.snapshot :=
    drawn_plan found planned
  rcases mem_append.mp member with first | last
  · exact lifecyclePoints_stops (drawn_remembered _) "" now plan.marker storage drawn disk first
  have announced := sweep_announces storage found planned
  split at last
  · next after done =>
    rw [done] at announced
    split at last
    · obtain rfl := mem_singleton.mp last
      exact ⟨_, .publish _ storage.second drawn announced, rfl⟩
    · cases last
  · cases last

/-- Wherever the Host stops in an operation, the database is one that its actions lead to. -/
theorem interruptions_stops (operation : Operation) (storage : Storage) :
    ∀ disk ∈ interruptions config m operation now storage,
      Stops (Drawn config m now operation) m disk := by
  intro disk member
  unfold interruptions at member
  split at member
  · next call =>
    split at member
    · cases member
    next view remembered =>
    refine storedPoints_stops (Acts.start.mark _ _) (drawn_running remembered) storage ?_
      disk member
    simp
  · next call =>
    split at member
    · cases member
    next view codex found =>
    refine storedPoints_stops .start (drawn_accepted found) storage ?_ disk member
    simp
  · next event =>
    split at member
    · cases member
    next id thread =>
    split at member
    · cases member
    next old remembered =>
    split at member
    · cases member
    next view made applied =>
    have named := applyEvent_codexId applied
    refine storedPoints_stops .start (drawn_applied thread remembered applied) storage ?_ disk
      member
    simpa using named
  · next id pendingID _ _ =>
    split at member
    · cases member
    next view remembered =>
    refine storedPoints_stops .start (drawn_resolved pendingID _ _ _ remembered) storage ?_ disk
      member
    simp
  · next id =>
    obtain ⟨draft, drafted, member⟩ := mem_draftPoints.mp member
    obtain ⟨view, codex, found, -, rfl⟩ := draft_renew drafted
    refine lifecyclePoints_stops (drawn_remembered _) "" now 0 storage ?_ disk member
    exact drawn_leased found (by simp) (leased_renewed now _ view)
  · next id requestID =>
    obtain ⟨draft, drafted, member⟩ := mem_draftPoints.mp member
    obtain ⟨view, codex, found, -, -, rfl⟩ := draft_unmanage drafted
    refine lifecyclePoints_stops (drawn_remembered _) requestID now 0 storage ?_ disk member
    exact drawn_leased found (by simp) (leased_unmanaged now view)
  · exact sweepPoints_stops storage disk member
  · next id title _ =>
    split at member
    · cases member
    next view codex found =>
    split at member
    · cases member
    refine storedPoints_stops (.tables _ _ _ .start) (drawn_renamed title _ _ found) storage ?_
      disk member
    simp
  · cases member

end Points

/-- The operations that bring nothing new in. -/
def Operation.plain : Operation → Bool
  | .create .. | .importSession .. | .workspace .. | .forget .. | .restore .. | .restart _ => false
  | _ => true

section Plain

variable {config : Config} {m : Manager} {now : Int}

theorem perform_acts {next : World}
    (performs : Performs config world now storage operation next) (plain : operation.plain = true) :
    Acts (Drawn config world.manager now operation) world.manager next.manager := by
  cases performs with
  | create | importSession | workspace | forget | restore | restart => cases plain
  | announce codex requestID =>
    exact Acts.start.publishCodex (drawn_remembered _) config codex requestID now _
  | startTurn => exact startTurn_manager .. ▸ .start
  | setRunning call => exact setRunning_manager .. ▸ setRunning_acts call _ _ _
  | userMessage call => exact publishAcceptedUserMessage_acts call _ _
  | notify => exact applyAdapterEventLocked_acts ..
  | resolve => exact resolvePending_acts ..
  | renew => exact renewLease_acts _
  | unmanage => exact unmanageCodex_acts ..
  | sweep => exact sweepLease_acts _
  | rename => exact renameCodex_acts ..
  | watch => exact .watch _ _ _ _ .start
  | read => exact .read _ _ .start

theorem perform_edits {next : World} (performs : Performs config world now storage operation next)
    (plain : operation.plain = true) : Acts (Edited world.manager) world.manager next.manager :=
  (perform_acts performs plain).mono (drawn_edited operation)

theorem sweepLease_edits (config : Config) (m : Manager) (codexID : String) (now : Int)
    (storage : Storage) : Acts (Edited m) m (sweepLease config m codexID now storage).1 :=
  (sweepLease_acts storage).mono (drawn_edited _)

/-- The operations in which the Host can stop are plain ones. -/
theorem interruptions_plain (member : disk ∈ interruptions config m operation now storage) :
    operation.plain = true := by
  cases operation with
  | create | importSession | workspace | forget | restore | restart => cases member
  | _ => rfl

theorem interruptions_edits (operation : Operation) (storage : Storage) :
    ∀ disk ∈ interruptions config m operation now storage, Stops (Edited m) m disk := by
  intro disk member
  obtain ⟨n, acts, same⟩ := interruptions_stops operation storage disk member
  exact ⟨n, acts.mono (drawn_edited operation), same⟩

end Plain

/-- The view is of this Codex, if of any. -/
def Names (codexID : String) (view : CurrentView) : Prop :=
  ∀ codex, view.codex = some codex → codex.codexId = codexID

/-- Views and rows stand under the id of their Codex. -/
structure Filed (m : Manager) : Prop where
  memory : ∀ codexID view, m.byID codexID = some view → Names codexID view
  rows : ∀ codexID row, m.events.disk.codexes codexID = some row → Own row codexID

/-- What the second Manager has of a Codex: a view in memory that was there before, or is a
given one, or, where storage is read again, is the stored one; a row that was there before, or
has a given view. -/
structure Brings (m n : Manager) (codexID : String) (Given : CurrentView → Prop)
    (Rereads : Prop) : Prop where
  memory : ∀ view, n.byID codexID = some view → m.byID codexID = some view ∨ Given view ∨
    Rereads ∧
      ∃ row, n.events.disk.codexes codexID = some row ∧ row.currentViewJSON.decode = some view
  row : ∀ row, n.events.disk.codexes codexID = some row →
    m.events.disk.codexes codexID = some row ∨
      row.codexID = codexID ∧ ∃ view, row.currentViewJSON = .readable view ∧ Given view

section Brings

variable {m n : Manager} {codexID : String} {Given : CurrentView → Prop} {Rereads : Prop}

theorem decode_readable {stored : Snapshot} (decoded : stored.decode = some view) :
    stored = .readable view := by
  cases stored with
  | readable shown => exact congrArg Snapshot.readable (some.inj decoded)
  | _ => cases decoded

theorem decode_unmarshal {stored : Snapshot} (decoded : stored.decode = some view) :
    unmarshalCurrentView stored = some view := by
  rw [decode_readable decoded]
  rfl

theorem Brings.mono (brings : Brings m n codexID Given Rereads)
    (implied : ∀ view, Given view → Weaker view) (reads : Rereads → Again) :
    Brings m n codexID Weaker Again := by
  constructor
  · intro view shown
    exact (brings.memory view shown).imp_right (Or.imp (implied view) (And.imp_left reads))
  intro row present
  refine (brings.row row present).imp_right ?_
  rintro ⟨named, view, stored, given⟩
  exact ⟨named, view, stored, implied view given⟩

/-- Nothing new is in memory or in the database. -/
theorem brings_of_less (memory : ∀ view, n.byID codexID = some view → m.byID codexID = some view)
    (rows : ∀ row, n.events.disk.codexes codexID = some row →
      m.events.disk.codexes codexID = some row) : Brings m n codexID Given Rereads :=
  ⟨fun view shown => .inl (memory view shown), fun row present => .inl (rows row present)⟩

theorem reload_disk (m : Manager) (codexID : String) (reloads : Bool) :
    (m.reload codexID reloads).events.disk = m.events.disk := by
  unfold Manager.reload reloadDurable
  split <;> rfl

theorem Brings.reload (brings : Brings m n codexID Given Rereads) (id : String) (reloads : Bool) :
    Brings m (n.reload id reloads) codexID Given Rereads := by
  constructor
  · rw [reload_disk]
    exact brings.memory
  · rw [reload_disk]
    exact brings.row

theorem Brings.remember {id : String} (brings : Brings m n codexID Given Rereads)
    (given : codexID = id → Given view ∨ Rereads ∧ ∃ row,
      n.events.disk.codexes codexID = some row ∧ row.currentViewJSON.decode = some view) :
    Brings m (n.remember id view) codexID Given Rereads := by
  refine ⟨?_, brings.row⟩
  intro shown found
  by_cases same : codexID = id
  · obtain rfl : view = shown := by simpa [Manager.remember, same] using found
    exact .inr (given same)
  · exact brings.memory shown (by simpa [Manager.remember, same] using found)

theorem upsertCodex_codexes (disk : Disk) (row : CodexRecord) (codexID : String) :
    (upsertCodex disk row).codexes codexID = disk.codexes codexID ∨
      codexID = row.codexID ∧ ∃ stored, (upsertCodex disk row).codexes codexID = some stored ∧
        stored.codexID = codexID ∧ stored.currentViewJSON = row.currentViewJSON := by
  by_cases same : codexID = row.codexID
  · subst same
    obtain ⟨created, written⟩ := upsertCodex_written disk row
    exact .inr ⟨rfl, _, written, rfl, rfl⟩
  · exact .inl (update_of_ne same _ _)

/-- Only the row of the view's own Codex is written. -/
theorem persistState_codexes {next : Manager} (done : persistState n view writes = some next)
    (codexID : String) :
    next.events.disk.codexes codexID = n.events.disk.codexes codexID ∨
      (∀ id, Names id view → id = codexID) ∧
        ∃ row, next.events.disk.codexes codexID = some row ∧ row.codexID = codexID ∧
          row.currentViewJSON = .readable view := by
  unfold persistState at done
  split at done
  · cases done
  next codex present =>
  split at done <;> cases done
  refine (upsertCodex_codexes n.events.disk (stateRecord n view codex) codexID).imp_right ?_
  rintro ⟨same, written⟩
  exact ⟨fun id named => (named codex present).symm.trans same.symm, written⟩

/-- An event commit keeps the row of its Codex, with the view, and leaves the others alone. -/
theorem publishEvent_codexes (m : Manager) (event : Event) (view : CurrentView) (commit : Commit)
    (codexID : String) :
    (publishEvent m event view commit).1.events.disk.codexes codexID =
        m.events.disk.codexes codexID ∨
      event.codexId = codexID ∧ ∃ old seq, m.events.disk.codexes codexID = some old ∧
        (publishEvent m event view commit).1.events.disk.codexes codexID =
          some { old with
            currentViewJSON := .readable { view with headEventSeq := seq }
            lastActivityAtUnixMS := commit.now } := by
  obtain same | ⟨old, seq, present, written⟩ := publish_disk m.events event view commit.now
    commit.marshals commit.outcome commit.answers commit.reloads
  · exact .inl (congrFun (congrArg Disk.codexes same) codexID)
  have disk : (publishEvent m event view commit).1.events.disk = m.events.disk.writeEvent
      commit.now event.codexId old seq (.readable { view with headEventSeq := seq }) := written
  rw [disk]
  by_cases same : codexID = event.codexId
  · subst same
    exact .inr ⟨rfl, old, seq, present, update_self ..⟩
  · exact .inl (writeEvent_other _ _ _ _ _ same).1

theorem Edits.names (edits : Edits old view) (named : Names codexID old) : Names codexID view := by
  intro codex present
  have same := congrArg Prod.fst edits
  simp only [core, present, map_some] at same
  obtain ⟨before, was, shown⟩ := map_eq_some_iff.mp same.symm
  rw [← named before was]
  exact (congrArg Prod.fst shown).symm

/-- The view with some event number. -/
def Numbered (Given : CurrentView → Prop) (view : CurrentView) : Prop :=
  ∃ base seq, Given base ∧ view = { base with headEventSeq := seq }

theorem numbered_of (given : Given view) : Numbered Given view :=
  ⟨view, view.headEventSeq, given, rfl⟩

/-- Proof: induction on the actions. A write of a row and an event commit each concern the
Codex that the view is of, and for the other actions the database stays. -/
theorem Acts.brings (filed : Filed m) (named : ∀ id view, Allowed id view → Names id view)
    (acts : Acts Allowed m n) (codexID : String) :
    Brings m n codexID (Numbered (Allowed codexID)) False := by
  constructor
  · intro view shown
    exact (acts.memory shown).imp_right fun allowed => .inl (numbered_of allowed)
  induction acts with
  | start => exact fun row present => .inl present
  | tables _ _ _ _ ih | remember _ _ ih => exact ih
  | persist allowed done _ ih =>
    intro row present
    obtain same | ⟨of, stored, written, own, encoded⟩ := persistState_codexes done codexID
    · exact ih row (same ▸ present)
    · cases written.symm.trans present
      obtain rfl := of _ (named _ _ allowed)
      exact .inr ⟨own, _, encoded, numbered_of allowed⟩
  | @publish n view event commit allowed _ ih =>
    intro row present
    obtain same | ⟨rfl, old, seq, before, written⟩ :=
      publishEvent_codexes n event view commit codexID
    · exact ih row (same ▸ present)
    cases written.symm.trans present
    refine .inr ⟨?_, _, rfl, view, seq, allowed, rfl⟩
    rcases ih old before with kept | ⟨same, -⟩
    · exact (filed.rows _ old kept).named
    · exact same
  | reload reloads _ _ ih =>
    intro row present
    exact ih row (reload_disk _ _ reloads ▸ present)
  | watch id after queue answers _ ih =>
    intro row present
    exact ih row (watch_disk_kept _ id after queue answers ▸ present)
  | read id answers _ ih =>
    intro row present
    exact ih row (currentView_disk_kept _ id answers ▸ present)

theorem Edited.names (filed : Filed m) (id : String) (view : CurrentView)
    (edited : Edited m id view) : Names id view := by
  obtain ⟨old, remembered, edits⟩ := edited
  exact edits.names (filed.memory id old remembered)

theorem Acts.edited_brings (acts : Acts (Edited m) m n) (filed : Filed m) (codexID : String) :
    Brings m n codexID (Edited m codexID) False := by
  refine (acts.brings filed (Edited.names filed) codexID).mono ?_ id
  rintro view ⟨base, seq, edited, rfl⟩
  exact edited

theorem registeredView_names (config : Config) (codex : Codex) (state : WorkspaceAccessState)
    (now : Int) : Names codex.codexId (registeredView config codex state now) := by
  refine (edits_bound config.sizes config.contentBudget _).names ?_
  rintro _ ⟨⟩
  rfl

/-- What `saveCodex` gives. -/
theorem saveCodex_gives (config : Config) (m : Manager) (codex : Codex) (session : Session)
    (access : Option WorkspaceAccessState) (now : Int) (writes : Bool) (codexID : String) :
    Brings m (saveCodex config m codex session access now writes).1 codexID (fun view =>
      codexID = codex.codexId ∧ ∃ state, access = some state ∧
        view = registeredView config codex state now) False := by
  unfold saveCodex
  split
  · exact brings_of_less (fun _ shown => shown) fun _ present => present
  · exact brings_of_less (fun _ shown => shown) fun _ present => present
  next _ state =>
  have registered : boundCurrentView config.sizes config.contentBudget
      { codex := some codex, workspaceAccessState := some state, generatedAtUnixMs := now } =
        registeredView config codex state now := rfl
  rw [registered]
  generalize registeredView config codex state now = view at registered ⊢
  constructor
  · intro shown found
    by_cases same : codexID = codex.codexId
    · have is : view = shown := by simpa [same] using found
      exact .inr (.inl ⟨same, state, rfl, is.symm.trans registered.symm⟩)
    · exact .inl (by simpa [update_of_ne same] using found)
  · intro stored present
    obtain before | ⟨same, written, is, named, encoded⟩ := upsertCodex_codexes m.events.disk
      { recordFromCodex codex session.source with
        logicalOwnerID := session.ownerID, currentViewJSON := .readable view } codexID
    · exact .inl (before.symm.trans present)
    · cases is.symm.trans present
      exact .inr ⟨named, view, encoded, same, state, rfl, registered.symm⟩

theorem saveCodex_brings (config : Config) (m : Manager) (codex : Codex) (session : Session)
    (access : Option WorkspaceAccessState) (now : Int) (writes : Bool) (codexID : String) :
    Brings m (saveCodex config m codex session access now writes).1 codexID (fun view =>
      codexID = codex.codexId ∧ Names codexID view ∧ access.isSome ∧
        view.workspaceAccessState = access) False := by
  refine (saveCodex_gives config m codex session access now writes codexID).mono ?_ id
  rintro view ⟨rfl, state, rfl, rfl⟩
  exact ⟨rfl, registeredView_names config codex state now, rfl,
    congrArg Prod.snd (edits_bound config.sizes config.contentBudget _)⟩

/-- An event that is published with a view. -/
theorem publishEvent_brings (filed : Filed m) (event : Event) (view : CurrentView)
    (commit : Commit) (codexID : String) :
    Brings m (publishEvent m event view commit).1 codexID (fun shown =>
      codexID = event.codexId ∧ ∃ seq, shown = { view with headEventSeq := seq }) False := by
  refine ⟨fun _ shown => .inl shown, ?_⟩
  intro row present
  obtain same | ⟨rfl, old, seq, was, written⟩ := publishEvent_codexes m event view commit codexID
  · exact .inl (same.symm.trans present)
  · cases written.symm.trans present
    exact .inr ⟨(filed.rows _ old was).named, _, rfl, rfl, seq, rfl⟩

/-- The view a workspace commit gives, of the Codex it has found. -/
def Committed (m : Manager) (codexID : String) (state : WorkspaceAccessState)
    (view : CurrentView) : Prop :=
  ∃ old, m.byID codexID = some old ∧ view.codex = old.codex ∧
    view.workspaceAccessState = some state

/-- The views a workspace commit can give: the one it has found with the new access state,
under some number. -/
def Advanced (old : CurrentView) (state : WorkspaceAccessState) (now : Int) (view : CurrentView) :
    Prop :=
  ∃ seq, view = { old with workspaceAccessState := some state, generatedAtUnixMs := now
                           headEventSeq := seq }

section

variable (filed : Filed m) (id : String) (state : WorkspaceAccessState)
include filed id state

/-- A workspace commit of a Codex that is not in memory, or of a state that is not news, does
nothing. -/
theorem commitWorkspaceState_gives (now : Int) (commit : Commit) (reads reloads : Bool)
    (codexID : String) :
    Brings m (commitWorkspaceState m id state now commit reads reloads).1 codexID
      (fun view => codexID = id ∧ ∃ old codex, known m id = .ok (old, codex) ∧
        Advanced old state now view) (codexID = id) := by
  have moves := commitWorkspaceState_moves m id state now commit reads reloads
  generalize commitWorkspaceState m _ _ _ _ _ _ = result at moves ⊢
  cases moves with
  | passed | absent => exact brings_of_less (fun _ shown => shown) fun _ present => present
  | published old codex _ found behind settles =>
    have given : ∀ seq, ∃ view codex, known m id = .ok (view, codex) ∧
        Advanced view state now { accessView state now old with headEventSeq := seq } :=
      fun seq => ⟨old, codex, found, seq, rfl⟩
    have tells : Brings m (publishEvent m (accessEvent id state now) (accessView state now old)
        commit).1 codexID (fun view => codexID = id ∧ ∃ old codex, known m id = .ok (old, codex) ∧
          Advanced old state now view) (codexID = id) := by
      refine (publishEvent_brings filed _ _ commit codexID).mono ?_ False.elim
      rintro _ ⟨same, seq, rfl⟩
      exact ⟨same, given seq⟩
    generalize publishEvent m _ _ commit = answer at tells settles
    cases settles with
    | told event => exact tells.remember fun same => .inl ⟨same, given event.eventSeq⟩
    | reread error durable failed unknown read =>
      obtain ⟨row, present, decoded⟩ := durableView_row read
      exact (tells.remember fun same => .inr ⟨same, row, same ▸ present, decoded⟩).reload id reloads
    | unread => exact tells.remember fun same => .inl ⟨same, given old.headEventSeq⟩
    | refused => exact tells

theorem commitWorkspaceState_brings (now : Int) (commit : Commit) (reads reloads : Bool)
    (codexID : String) :
    Brings m (commitWorkspaceState m id state now commit reads reloads).1 codexID
      (fun view => codexID = id ∧ Committed m id state view) (codexID = id) := by
  refine (commitWorkspaceState_gives filed id state now commit reads reloads codexID).mono ?_
    (fun same => same)
  rintro view ⟨same, old, codex, found, seq, rfl⟩
  exact ⟨same, old, known_remembered found, rfl, rfl⟩

end

/-- An error of `publishEvent` is one of the event store. -/
theorem publish_error {result : Except StoreError Event}
    (reported : result.mapError ManagerError.publish = .error error) :
    ∃ cause, result = .error cause ∧ error = .publish cause := by
  cases result with
  | ok event => cases reported
  | error cause =>
    cases reported
    exact ⟨cause, rfl, rfl⟩

theorem cause_of_unknown (unknown : (ManagerError.publish cause).outcomeUnknown = true) :
    cause = .commit .outcomeUnknown := by
  unfold ManagerError.outcomeUnknown at unknown
  split at unknown
  · next same => exact ManagerError.publish.inj same
  · cases unknown

/-- An outcome is unknown only if storage leaves it so. -/
theorem publishEvent_outcome {event : Event}
    (failed : (publishEvent m event view commit).2 = .error error)
    (unknown : error.outcomeUnknown = true) : ∃ durable, commit.outcome = .unknown durable := by
  obtain ⟨cause, result, rfl⟩ := publish_error failed
  obtain rfl := cause_of_unknown unknown
  exact (publish_unknown _ _ _ _ _ _ _ _ result).2.1

/-- The actions of a workspace commit: it publishes the view with the new access state, and
remembers it or, behind an unknown outcome, the view that it reads back. -/
theorem commitWorkspaceState_acts {id : String} (reads reloads : Bool)
    (advanced : ∀ old codex view, known m id = .ok (old, codex) → Advanced old state now view →
      Allowed id view)
    (reread : ∀ n row view durable, commit.outcome = .unknown durable → Acts Allowed m n →
      n.events.disk.codexes id = some row → row.currentViewJSON.decode = some view →
        Allowed id view) :
    Acts Allowed m (commitWorkspaceState m id state now commit reads reloads).1 := by
  have moves := commitWorkspaceState_moves m id state now commit reads reloads
  generalize commitWorkspaceState m _ _ _ _ _ _ = result at moves ⊢
  cases moves with
  | passed | absent => exact .start
  | published old codex _ found behind settles =>
    have given := fun seq => advanced old codex _ found ⟨seq, rfl⟩
    have acts : Acts Allowed m (publishEvent m (accessEvent id state now)
        (accessView state now old) commit).1 :=
      .publish _ commit (given old.headEventSeq) .start
    cases settles with
    | told event => exact .remember (given event.eventSeq) acts
    | reread error durable failed unknown read =>
      obtain ⟨stored, outcome⟩ := publishEvent_outcome failed unknown
      obtain ⟨row, present, decoded⟩ := durableView_row read
      have allowed := reread _ row durable stored outcome acts present decoded
      exact .reload reloads allowed (.remember allowed acts)
    | unread => exact .remember (given old.headEventSeq) acts
    | refused => exact acts

theorem forgetCodex_brings (m : Manager) (id requestID : String) (now : Int) (records : Bool)
    (outcome : CommitOutcome) (answers : Bool) (codexID : String) (Given : CurrentView → Prop) :
    Brings m (forgetCodex m id requestID now records outcome answers).1 codexID Given False := by
  obtain ⟨events, error, done, disk⟩ | ⟨events, view, codex, -, -, done, disk, -⟩ :=
    forgetCodex_cases m id requestID now records outcome answers
  · rw [done]
    refine brings_of_less (fun _ shown => shown) ?_
    intro row present
    rcases disk with same | ⟨-, gone⟩
    · exact same ▸ present
    · exact remove_codexes (gone ▸ present)
  · rw [done]
    refine brings_of_less ?_ ?_
    · intro view shown
      by_cases same : codexID = id
      · simp [Manager.drop, same] at shown
      · simpa [Manager.drop, update_of_ne same] using shown
    · exact fun row present => remove_codexes (disk ▸ present)

/-- What the end of a restore gives: the plan's view with the access state. -/
theorem finishRestore_brings (m : Manager) (access : WorkspaceAccessState) (writes : Bool)
    (named : Names plan.record.codexID plan.view) (codexID : String) :
    Brings m (finishRestore m plan access writes).1 codexID (fun view =>
      codexID = plan.record.codexID ∧
        view = { plan.view with workspaceAccessState := some access }) False := by
  obtain ⟨threads, sessions, dropped⟩ := dropThread_tables m plan.record.codexID plan.dropped
  unfold finishRestore
  rw [dropped]
  extract_lets _ view registered
  have memory : ∀ shown, registered.byID codexID = some shown → m.byID codexID = some shown ∨
      codexID = plan.record.codexID ∧ shown = view := by
    intro shown found
    by_cases same : codexID = plan.record.codexID
    · exact .inr ⟨same, by simpa [registered, registerRestored, same] using found.symm⟩
    · exact .inl (by simpa [registered, registerRestored, update_of_ne same] using found)
  split
  · exact ⟨fun shown found => (memory shown found).imp_right .inl,
      fun row present => .inl present⟩
  next stored done =>
  constructor
  · intro shown found
    obtain ⟨events, rfl⟩ := persistState_events done
    exact (memory shown found).imp_right .inl
  · intro row present
    obtain same | ⟨of, written, is, own, encoded⟩ := persistState_codexes done codexID
    · exact .inl (same.symm.trans present)
    · cases is.symm.trans present
      exact .inr ⟨own, view, encoded, (of _ named).symm, rfl⟩

/-- A new process has nothing in memory. -/
theorem restartHost_gives (filed : Filed m) (named : ∀ id view, Allowed id view → Names id view)
    (stops : Stops Allowed m disk) (replayCapacity : Int) (codexID : String) :
    Brings m (restartHost (withDisk m disk) replayCapacity) codexID
      (Numbered (Allowed codexID)) False := by
  obtain ⟨n, acts, rfl⟩ := stops
  have disk : (restartHost (withDisk m n.events.disk) replayCapacity).events.disk =
      n.events.disk := rfl
  constructor
  · intro view shown
    have gone : (restartHost (withDisk m n.events.disk) replayCapacity).byID codexID = none := rfl
    rw [gone] at shown
    cases shown
  · rw [disk]
    exact (acts.brings filed named codexID).row

/-- The plan for a row is about the row's Codex. -/
theorem restorePlan_named {read : ThreadRead} {id : String} (own : Own row id)
    (planned : restorePlan config now row owner read reads = some plan) :
    plan.record.codexID = id ∧ Names plan.record.codexID plan.view := by
  obtain ⟨is, -, shows⟩ := restorePlan_shows own planned
  refine ⟨is, ?_⟩
  intro codex present
  obtain ⟨shown, same, of, -⟩ := shows.codex
  cases present.symm.trans same
  exact of.trans is.symm

theorem Filed.kept (filed : Filed m) (Given : String → CurrentView → Prop) (Rereads : String → Prop)
    (brings : ∀ codexID, Brings m n codexID (Given codexID) (Rereads codexID))
    (named : ∀ codexID view, Given codexID view → Names codexID view) : Filed n := by
  have rows : ∀ codexID row, n.events.disk.codexes codexID = some row → Own row codexID := by
    intro codexID row present
    rcases (brings codexID).row row present with before | ⟨own, view, encoded, given⟩
    · exact filed.rows codexID row before
    refine ⟨own, ?_⟩
    intro stored codex decoded of
    rw [encoded] at decoded
    cases decoded
    exact named codexID _ given codex of
  refine ⟨?_, rows⟩
  intro codexID view shown
  rcases (brings codexID).memory view shown with before | given | ⟨-, row, present, decoded⟩
  · exact filed.memory codexID view before
  · exact named codexID view given
  · intro codex of
    exact (rows codexID row present).stored view codex (decode_unmarshal decoded) of

end Brings

/-- Actions that use views under the id of their Codex. -/
theorem Acts.filed (filed : Filed m) (acts : Acts Names m n) : Filed n := by
  refine filed.kept (fun id => Numbered (Names id)) (fun _ => False)
    (acts.brings filed fun _ _ => id) ?_
  rintro codexID _ ⟨base, seq, named, rfl⟩
  exact named

/-- Where a view comes from that a step gives a Codex. -/
inductive Origin (world : World) (label : Label) (codexID : String) (view : CurrentView) : Prop
  | edited (edited : Edited world.manager codexID view)
  | saved (access : Option WorkspaceAccessState) (given : access.isSome)
      (operation :
        (∃ session requestID, label.operation = .create codexID session access requestID) ∨
        ∃ session origin created requestID,
          label.operation = .importSession codexID session origin created access requestID)
      (named : Names codexID view)
  | committed (state : WorkspaceAccessState)
      (operation : label.operation = .workspace codexID state)
      (committed : Committed world.manager codexID state view)
  | restored (owner : String) (read : ThreadRead) (access : WorkspaceAccessState)
      (operation : label.operation = .restore codexID owner read (some access))
      (named : Names codexID view)

/-- The step may read the stored view of the Codex again. -/
def Rereads (label : Label) (codexID : String) : Prop :=
  ∃ state, label.operation = .workspace codexID state

section Steps

variable {config : Config} {world next : World} {label : Label}

section

variable (filed : Filed world.manager)
include filed

theorem Origin.names (origin : Origin world label codexID view) : Names codexID view := by
  cases origin with
  | edited edited => exact edited.names filed
  | saved _ _ _ named => exact named
  | committed state _ committed =>
    obtain ⟨old, remembered, same, -⟩ := committed
    intro codex present
    exact filed.memory codexID old remembered codex (same ▸ present)
  | restored _ _ _ _ named => exact named

theorem perform_brings
    (performs : Performs config world label.now label.storage label.operation next)
    (codexID : String) :
    Brings world.manager next.manager codexID (Origin world label codexID)
      (Rereads label codexID) := by
  by_cases plain : label.operation.plain = true
  · exact ((perform_edits performs plain).edited_brings filed codexID).mono (fun _ => .edited)
      False.elim
  generalize operation : label.operation = performed at performs plain
  cases performs with
  | create id session access requestID =>
    rw [save_manager]
    refine (saveCodex_brings ..).mono ?_ False.elim
    rintro view ⟨rfl, named, given, -⟩
    exact .saved access given (.inl ⟨session, requestID, operation⟩) named
  | importSession id session origin created access requestID =>
    rw [save_manager]
    refine (saveCodex_brings ..).mono ?_ False.elim
    rintro view ⟨rfl, named, given, -⟩
    exact .saved access given (.inr ⟨session, origin, created, requestID, operation⟩) named
  | workspace id state =>
    refine (commitWorkspaceState_brings filed id state _ _ _ _ codexID).mono ?_ ?_
    · rintro view ⟨rfl, committed⟩
      exact .committed state operation committed
    · rintro rfl
      exact ⟨state, operation⟩
  | forget => exact (forgetCodex_brings ..).mono (fun _ => id) False.elim
  | restore id owner read access row stored =>
    rw [put_manager]
    unfold restoreCodex
    split
    · next plan state planned =>
      obtain ⟨is, named⟩ := restorePlan_named (filed.rows id row stored) planned
      refine (finishRestore_brings world.manager state _ named codexID).mono ?_ False.elim
      rintro view ⟨rfl, rfl⟩
      exact .restored owner read state (is ▸ operation) named
    · exact brings_of_less (fun _ shown => shown) fun _ present => present
  | restart replayCapacity =>
    exact brings_of_less (fun _ shown => nomatch shown) fun _ present => present
  | _ => exact absurd rfl plain

theorem step_brings (stepped : step config world label = some next) (codexID : String) :
    Brings world.manager next.manager codexID (Origin world label codexID)
      (Rereads label codexID) := by
  unfold step at stepped
  split at stepped
  · cases stepped
  · next performed _ =>
    cases stepped
    exact perform_brings filed (perform_performs performed) codexID
  · obtain ⟨disk, at_point, rfl⟩ := map_eq_some_iff.mp stepped
    have stops := interruptions_edits label.operation label.storage disk (mem_of_getElem? at_point)
    refine (restartHost_gives filed (Edited.names filed) stops _ codexID).mono ?_ False.elim
    rintro view ⟨base, seq, edited, rfl⟩
    exact .edited edited

end

/-- Ids stay issued. -/
theorem perform_issued (performs : Performs config world now storage operation next)
    (issued : codexID ∈ world.issued) : codexID ∈ next.issued := by
  have saved : ∀ codex session access requestID,
      codexID ∈ (world.save config codex session access requestID now storage).issued := by
    intro codex session access requestID
    unfold World.save
    split <;> exact mem_cons_of_mem _ issued
  cases performs with
  | create | importSession => exact saved ..
  | startTurn =>
    unfold World.startTurn
    split
    · split <;> exact issued
    · exact issued
  | setRunning =>
    unfold World.setRunning
    split <;> exact issued
  | _ => exact issued

theorem step_issued (stepped : step config world label = some next)
    (issued : codexID ∈ world.issued) : codexID ∈ next.issued := by
  unfold step at stepped
  split at stepped
  · cases stepped
  · next performed _ =>
    cases stepped
    exact perform_issued (perform_performs performed) issued
  · obtain ⟨disk, -, rfl⟩ := map_eq_some_iff.mp stepped
    exact issued

theorem step_filed (filed : Filed world.manager)
    (stepped : step config world label = some next) : Filed next.manager :=
  filed.kept (Origin world label) (Rereads label) (step_brings filed stepped)
    fun _ _ => Origin.names filed

end Steps

theorem sampleHost_empty (codexID : String) : sampleHost.manager.byID codexID = none ∧
    sampleHost.manager.events.disk.codexes codexID = none :=
  ⟨rfl, rfl⟩

theorem sampleHost_filed : Filed sampleHost.manager := by
  constructor
  · intro codexID view shown
    exact nomatch (sampleHost_empty codexID).1.symm.trans shown
  · intro codexID row stored
    exact nomatch (sampleHost_empty codexID).2.symm.trans stored

/-- No run of operations, failures, crashes and restarts puts a view under the id of another Codex,
in memory or in a row. -/
theorem views_stay_filed (config : Config) (start world : World) (labels : List Label)
    (filed : Filed start.manager) (ran : Runs.run (step config) start labels = some world) :
    Filed world.manager :=
  Runs.run_kept (fun world => Filed world.manager) (fun _ _ _ => step_filed) filed ran

theorem views_stay_filed_created : ∃ world, Runs.run (step sampleConfig) sampleHost
      [sampleCreate, sampleAnnounce] = some world ∧ Filed world.manager :=
  ⟨_, rfl, views_stay_filed sampleConfig sampleHost _ [sampleCreate, sampleAnnounce]
    sampleHost_filed rfl⟩

end CodexRemote.Host
