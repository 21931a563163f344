import CodexRemote.Clipping
import CodexRemote.TurnStarts

/-!
# What the status of a Codex goes by

A view shows an active turn, its id, a status and the requests that wait for an answer.
Notifications, answers and `StartTurn` each write some of these, and nothing computes the status
from the rest: a request sets it when it arrives, the end of any turn resets it, and an answer
changes it only if no request is left.

The first part is about the end of a turn, which is taken for the end of whatever turn is active.
The second follows one view through any order of notifications, answers and starts. Storing the
view is not part of it.
-/
namespace CodexRemote.Statuses

open Protocol Budget Codexes Clipping Host Option
open Option (map_eq_some_iff)

variable {view : CurrentView} {now : Int} {event : AdapterEvent} {config : Config}

/-! ## The end of a turn -/

def activeTurn (m : Manager) (codexID : String) : Option TurnSnapshot :=
  (m.byID codexID).bind CurrentView.activeTurn

/-- Active turn, its id and the status, as memory has them. -/
def shownTurn (m : Manager) (codexID : String) :
    Option (Option TurnSnapshot × Option (String × CodexStatus)) :=
  (m.byID codexID).map fun view =>
    (view.activeTurn, view.codex.map fun codex => (codex.activeTurnId, codex.status))

section Ends

variable {m : Manager} {codexID : String} {writes : Bool} {commit codexCommit : Commit}

/-- Memory has the view of a notification however it is stored. -/
theorem notified_view (thread : m.byThread event.threadID = some codexID)
    (remembered : m.byID codexID = some old)
    (applied : applyEvent config.sizes config.contentBudget (m.manualTitle codexID)
      (countChunk m codexID event).2 now codexID event old = some (view, made)) :
    (applyAdapterEventLocked config m event now writes commit codexCommit).1.byID codexID =
      some view := by
  obtain ⟨chunks, counted⟩ := countChunk_fields m codexID event
  have shown : ∀ events, ({ ({ m with chunks := chunks } : Manager).remember codexID view with
      events := events }).byID codexID = some view := fun _ => Function.update_self ..
  simp only [applyAdapterEventLocked, thread, remembered, applied, counted]
  split
  · exact shown m.events
  next stored persisted =>
  obtain ⟨events, rfl⟩ := persistState_events persisted
  split
  · next done =>
    obtain rfl := (Prod.mk.inj done).1
    exact shown _
  · next codex done _ _ =>
    obtain rfl := (Prod.mk.inj done).1
    obtain ⟨last, same⟩ := publishCodex_events config _ codex "" now codexCommit
    rw [same]
    exact shown last
  · next done _ =>
    obtain rfl := (Prod.mk.inj done).1
    exact shown _

/-- The end of a turn leaves every Codex alone that has another active turn exactly if the Codex of
its thread has none. -/
theorem end_spares_others_iff (ends : event.terminal = true) :
    (∀ codexID turn, activeTurn m codexID = some turn → turn.turnId ≠ event.turnID →
        shownTurn (applyAdapterEventLocked config m event now writes commit codexCommit).1 codexID =
          shownTurn m codexID) ↔
      ∀ codexID turn, m.byThread event.threadID = some codexID →
        activeTurn m codexID = some turn → turn.turnId = event.turnID := by
  constructor
  · intro spares codexID turn thread active
    by_contra other
    have same := spares codexID turn active other
    obtain ⟨old, remembered, running⟩ := bind_eq_some_iff.mp active
    obtain ⟨after, made, applied, quiet⟩ := applyEvent_terminal config.sizes config.contentBudget
      (m.manualTitle codexID) (countChunk m codexID event).2 now codexID old ends
    simp only [shownTurn, notified_view thread remembered applied, remembered, map_some,
      quiet.activeTurn, running] at same
    cases same
  · intro only codexID turn active other
    have applied := applyAdapterEventLocked_applied config m event now writes commit codexCommit
    generalize (applyAdapterEventLocked config m event now writes commit codexCommit).1 = after
      at applied ⊢
    cases applied with
    | kept events chunks => rfl
    | changed id old view made events chunks thread remembered applied =>
      have distinct : codexID ≠ id := by
        rintro rfl
        exact other (only codexID turn thread active)
      simp [shownTurn, Manager.remember, Function.update_of_ne distinct]

end Ends

def sampleStart (turnID : String) (now : Int) : List Label :=
  [{ operation := .startTurn "cdx" turnID [] (some turnID), now := now },
    { operation := .setRunning
        { codexID := "cdx", turnID := turnID, requestID := turnID, parts := [] }
      now := now }]

/-- The thread is reported idle before the end of its turn, and the next turn starts. -/
def sampleOvertaken : List Label :=
  sampleCreate :: sampleStart "one" 7 ++
    { operation := .notify { threadID := "thr", body := .codexUpdated ⟨none, some .idle⟩ }
      now := 8 } :: sampleStart "two" 9

/-- The end of the first turn then ends the second. -/
theorem first_end_ends_second : ∃ before after,
    Runs.run (Host.step sampleConfig) sampleHost sampleOvertaken = some before ∧
    (activeTurn before.manager "cdx").map TurnSnapshot.turnId = some "two" ∧
    (shownTurn before.manager "cdx").bind Prod.snd = some ("two", .running) ∧
    Host.step sampleConfig before (sampleEnd "one") = some after ∧
    (activeTurn after.manager "cdx").map TurnSnapshot.turnId = none ∧
    (shownTurn after.manager "cdx").bind Prod.snd = some ("", .idle) := by
  let shown := fun world : World => ((activeTurn world.manager "cdx").map TurnSnapshot.turnId,
    (shownTurn world.manager "cdx").bind Prod.snd)
  have results : (Runs.run (Host.step sampleConfig) sampleHost sampleOvertaken).bind
      (fun before => (Host.step sampleConfig before (sampleEnd "one")).map fun after =>
        (shown before, shown after)) =
      some ((some "two", some ("two", .running)), none, some ("", .idle)) := by
    decide +kernel
  obtain ⟨before, ran, rest⟩ := bind_eq_some_iff.mp results
  obtain ⟨after, stepped, facts⟩ := map_eq_some_iff.mp rest
  obtain ⟨first, second⟩ := Prod.mk.inj facts
  obtain ⟨turn, status⟩ := Prod.mk.inj first
  obtain ⟨none, idle⟩ := Prod.mk.inj second
  exact ⟨before, after, ran, turn, status, stepped, none, idle⟩

def sampleLast : AdapterEvent :=
  { threadID := "thr", turnID := "one", body := .turnUpdated .completed 0 0 none }

/-- The end of the only active turn. -/
theorem end_spares_others_iff_own : ∃ before,
    Runs.run (Host.step sampleConfig) sampleHost (sampleCreate :: sampleStart "one" 7) =
      some before ∧ (activeTurn before.manager "cdx").map TurnSnapshot.turnId = some "one" ∧
    ∀ codexID turn, activeTurn before.manager codexID = some turn → turn.turnId ≠ "one" →
      shownTurn (applyAdapterEventLocked sampleConfig before.manager sampleLast 8 true {} {}).1
        codexID = shownTurn before.manager codexID := by
  have results : (Runs.run (Host.step sampleConfig) sampleHost
      (sampleCreate :: sampleStart "one" 7)).map (fun before => (before.manager.byThread "thr",
        (activeTurn before.manager "cdx").map TurnSnapshot.turnId)) =
      some (some "cdx", some "one") := by
    decide +kernel
  obtain ⟨before, ran, facts⟩ := map_eq_some_iff.mp results
  obtain ⟨thread, running⟩ := Prod.mk.inj facts
  have ends : sampleLast.terminal = true := rfl
  refine ⟨before, ran, running, (end_spares_others_iff ends).mpr ?_⟩
  intro codexID turn found active
  cases found.symm.trans thread
  rw [active] at running
  exact some.inj running

/-! ## Requests -/

/-- The turn a request belongs to. -/
def turnOf : PendingRequest → String
  | .approval request => request.turnId
  | .userInput request => request.turnId

/-- A view, and the turns whose end has been applied to it. -/
structure Progress where
  view : CurrentView
  ended : List String := []

inductive Arrival where
  | notify (event : AdapterEvent) (manualTitle : Bool) (chunk : Nat)
  | answer (pendingID : String)
  | running (turnID : String) (deadline : Int)

/-- The view behind a notification, `resolvePending` or `setRunning`. -/
def step (config : Config) (codexID : String) (state : Progress) (label : Arrival × Int) :
    Option Progress :=
  match label with
  | (.notify event manualTitle chunk, now) =>
      (applyEvent config.sizes config.contentBudget manualTitle chunk now codexID event
        state.view).map fun (view, _) =>
          { view := view
            ended := if event.terminal then event.turnID :: state.ended else state.ended }
  | (.answer pendingID, now) =>
      some { state with view := resolvedView config pendingID now state.view }
  | (.running turnID deadline, now) =>
      some { state with
        view := runningView config.sizes config.contentBudget turnID now deadline state.view }

def status (view : CurrentView) : Option CodexStatus := view.codex.map Codex.status

/-- What a request waits for, and its turn. -/
def askOf (pending : PendingRequest) : CodexStatus × String := (waitsFor pending, turnOf pending)

def asks (view : CurrentView) : List (CodexStatus × String) := view.pendingRequests.map askOf

structure Consistent (state : Progress) : Prop where
  approval : status state.view = some .waitingForApproval →
    ∃ request, .approval request ∈ state.view.pendingRequests
  userInput : status state.view = some .waitingForUserInput →
    ∃ request, .userInput request ∈ state.view.pendingRequests
  ended : ∀ pending ∈ state.view.pendingRequests, turnOf pending ∉ state.ended

/-- The two statuses that stand for a request. -/
def Waits (kind : CodexStatus) : Prop := kind = .waitingForApproval ∨ kind = .waitingForUserInput

/-- The law looks at the status and at what the requests ask only. -/
theorem consistent_iff (state : Progress) :
    Consistent state ↔
      (∀ kind, Waits kind → status state.view = some kind →
        ∃ ask ∈ asks state.view, ask.1 = kind) ∧
      ∀ ask ∈ asks state.view, ask.2 ∉ state.ended := by
  constructor
  · intro consistent
    refine ⟨?_, List.forall_mem_map.mpr consistent.ended⟩
    rintro kind (rfl | rfl) waits
    · obtain ⟨request, member⟩ := consistent.approval waits
      exact ⟨_, List.mem_map_of_mem member, rfl⟩
    · obtain ⟨request, member⟩ := consistent.userInput waits
      exact ⟨_, List.mem_map_of_mem member, rfl⟩
  · rintro ⟨named, ended⟩
    refine ⟨?_, ?_, fun pending member => ended _ (List.mem_map_of_mem member)⟩
    · intro waits
      obtain ⟨_, member, kind⟩ := named _ (.inl rfl) waits
      obtain ⟨request | request, found, rfl⟩ := List.mem_map.mp member
      · exact ⟨request, found⟩
      · cases kind
    · intro waits
      obtain ⟨_, member, kind⟩ := named _ (.inr rfl) waits
      obtain ⟨request | request, found, rfl⟩ := List.mem_map.mp member
      · cases kind
      · exact ⟨request, found⟩

theorem askOf_congr (same : pendingFrame other = pendingFrame pending) :
    pendingIDOf other = pendingIDOf pending ∧ askOf other = askOf pending := by
  cases pending <;> cases other <;> simp_all [pendingFrame, pendingIDOf, askOf, waitsFor, turnOf]

/-- What the frame of a request says of the turn it belongs to. -/
def ask : PendingFrame → CodexStatus × String
  | .approval _ turnId _ _ => (.waitingForApproval, turnId)
  | .userInput _ turnId _ _ => (.waitingForUserInput, turnId)

theorem asks_bound (sizes : Sizes) (configured : Int) (view : CurrentView) :
    asks (boundCurrentView sizes configured view) = asks view := by
  have framed : ∀ view, asks view = (viewFrame view).pendingRequests.map ask := by
    intro view
    simp only [asks, viewFrame, List.map_map]
    refine List.map_congr_left ?_
    rintro (request | request) _ <;> rfl
  rw [framed, framed, boundCurrentView_frame]

theorem status_of_bare (bare : after.codex.map bareCodex = view.codex.map bareCodex) :
    status after = status view := by
  have through : ∀ codex : Option Codex, codex.map Codex.status =
      (codex.map bareCodex).map Codex.status := by
    rintro (_ | codex) <;> rfl
  rw [status, through, bare, ← through]
  rfl

/-- The event of a request carries the request that was put in, and no other event has one. -/
theorem applyBody_pending (placed : applyBody budget manualTitle chunk now event view =
      some (changed, .pendingRequestUpdated pending, complete)) :
    changed.pendingRequests = upsertPending pending view.pendingRequests := by
  unfold applyBody at placed
  split at placed
  · obtain ⟨codex, -, rest⟩ := map_eq_some_iff.mp placed
    cases rest
  · split at placed <;> cases placed
  all_goals cases placed
  rfl

/-- The clipped event shares its request with the view, which asks the same. -/
theorem asks_shareInto (sizes : Sizes) (configured : Int) (event : Event) (view : CurrentView)
    (placed : ∀ pending, event.body = .pendingRequestUpdated pending →
      ∃ values, view.pendingRequests = upsertPending pending values) :
    asks (shareInto (boundCanonicalEvent sizes configured event).body view) = asks view := by
  have framed := congrArg EventFrame.body (boundCanonicalEvent_frame sizes configured event)
  simp only [eventFrame] at framed
  cases bounded : (boundCanonicalEvent sizes configured event).body with
  | pendingRequestUpdated other =>
    rw [bounded] at framed
    cases body : event.body with
    | pendingRequestUpdated pending =>
      rw [body] at framed
      obtain ⟨values, is⟩ := placed pending body
      obtain ⟨named, alike⟩ := askOf_congr (BodyFrame.pendingRequestUpdated.inj framed)
      simp only [asks, shareInto, is]
      exact map_upsertBy_upsertBy values named alike
    | _ => simp [body, bodyFrame] at framed
  | _ => rfl

/-- A notification changes status and requests in one of the ways of `Changes`. -/
theorem applyEvent_asks
    (applied : applyEvent config.sizes config.contentBudget manualTitle chunk now codexID event
      view = some (after, made)) :
    ∃ changed, Changes now event view changed ∧ status after = status changed ∧
      asks after = asks changed := by
  obtain ⟨⟨changed, body, complete⟩, placed, clipped⟩ := map_eq_some_iff.mp applied
  dsimp only at clipped
  let raw : Event :=
    { codexId := codexID, occurredAtUnixMs := now, completeness := complete, body := body }
  let stamped := { changed with generatedAtUnixMs := now }
  refine ⟨changed, applyBody_changes placed, ?_, ?_⟩
  · have kept := clipBoth_keeps config.sizes config.contentBudget raw stamped
    rw [clipped] at kept
    exact status_of_bare kept.1
  · have shared := asks_shareInto config.sizes config.contentBudget raw stamped (by
      rintro pending rfl
      have put := applyBody_pending placed
      exact ⟨_, put⟩)
    obtain rfl := congrArg Prod.fst clipped
    simp only [clipBoth]
    rw [asks_bound]
    unfold entering
    dsimp only
    split
    · exact shared
    · exact shared

/-- A turn ends after its requests are gone, no request arrives for a turn that has ended, and an
answer leaves no request or one of the kind that the status names. -/
def Orderly (state : Progress) (label : Arrival × Int) : Prop :=
  match label.1 with
  | .notify event _ _ =>
      (event.terminal = true → ∀ ask ∈ asks state.view, ask.2 ≠ event.turnID) ∧
        match event.body with
        | .pendingRequestUpdated pending => turnOf pending ∉ state.ended
        | _ => True
  | .answer pendingID =>
      let rest := state.view.pendingRequests.filter fun pending => pendingIDOf pending ≠ pendingID
      rest = [] ∨ ∀ ask ∈ asks state.view, status state.view = some ask.1 →
        ∃ other ∈ rest, waitsFor other = ask.1
  | .running _ _ => True

instance (state : Progress) (label : Arrival × Int) : Decidable (Orderly state label) := by
  unfold Orderly
  split
  · exact @instDecidableAnd _ _ _ (by split <;> infer_instance)
  · infer_instance
  · infer_instance

variable {state next : Progress}

/-- Requests and ended turns stay, and the status stays or names no request. -/
theorem Consistent.steady (consistent : Consistent state)
    (same : asks next.view = asks state.view) (ended : next.ended = state.ended)
    (shown : ∀ kind, Waits kind → status next.view = some kind → status state.view = some kind) :
    Consistent next := by
  obtain ⟨named, unended⟩ := (consistent_iff state).mp consistent
  refine (consistent_iff next).mpr ?_
  rw [same, ended]
  exact ⟨fun kind waits is => named kind waits (shown kind waits is), unended⟩

/-- A status that stands for a request was there before unless the change has set it. -/
theorem waits_onCodex
    (keeps : ∀ codex, Waits (change codex).status → (change codex).status = codex.status)
    (waits : Waits kind) (shown : status (onCodex change view) = some kind) :
    status view = some kind := by
  rw [status, onCodex, map_map] at shown
  obtain ⟨codex, found, rfl⟩ := map_eq_some_iff.mp shown
  rw [status, found]
  exact congrArg some (keeps codex waits).symm

/-- A notification that arrives in order. -/
theorem changes_consistent (changes : Changes now event state.view changed)
    (consistent : Consistent state)
    (clear : event.terminal = true → ∀ ask ∈ asks state.view, ask.2 ≠ event.turnID)
    (arrives : ∀ pending, event.body = .pendingRequestUpdated pending →
      turnOf pending ∉ state.ended) (shown : status next.view = status changed)
    (asked : asks next.view = asks changed) (ended : next.ended =
      if event.terminal then event.turnID :: state.ended else state.ended) : Consistent next := by
  cases changes with
  | params params title is =>
    have goes : event.terminal = false := by simp [AdapterEvent.terminal, is]
    refine consistent.steady asked (by simpa [goes] using ended) ?_
    intro kind waits named
    refine waits_onCodex ?_ waits (shown.symm.trans named)
    -- A notice keeps the status or sets one that stands for no request.
    intro codex
    simp only [applyCodexParams, Waits]
    rcases params.status with _ | (_ | _ | _) <;> grind
  | worked turn complete same goes =>
    refine consistent.steady asked (by simpa [goes] using ended) ?_
    exact fun kind waits named => shown.symm.trans named
  | warned warning goes =>
    refine consistent.steady asked (by simpa [goes] using ended) ?_
    intro kind waits named
    refine waits_onCodex ?_ waits (shown.symm.trans named)
    exact fun _ _ => rfl
  | ended outcome ends =>
    obtain ⟨named, unended⟩ := (consistent_iff state).mp consistent
    rw [ends, if_pos rfl] at ended
    refine (consistent_iff next).mpr ⟨?_, ?_⟩
    · intro kind waits is
      have before : status state.view = some kind := by
        refine waits_onCodex ?_ waits (shown.symm.trans is)
        intro codex
        simp only [Waits]
        split <;> grind
      rw [asked]
      exact named kind waits before
    · rw [asked, ended]
      intro ask member own
      rcases List.mem_cons.mp own with own | own
      · exact clear ends ask member own
      · exact unended ask member own
  | asked pending is =>
    obtain ⟨-, unended⟩ := (consistent_iff state).mp consistent
    have goes : event.terminal = false := by simp [AdapterEvent.terminal, is]
    simp only [goes, Bool.false_eq_true, if_false] at ended
    have members := upsertBy_subset pendingIDOf pending state.view.pendingRequests
    refine (consistent_iff next).mpr ⟨?_, ?_⟩
    · intro kind waits named
      rw [asked]
      refine ⟨askOf pending, List.mem_map_of_mem (mem_upsertBy_self ..), ?_⟩
      rw [shown, status, onCodex, map_map] at named
      obtain ⟨codex, -, set⟩ := map_eq_some_iff.mp named
      exact set
    · rw [asked, ended]
      refine List.forall_mem_map.mpr ?_
      intro other member
      rcases List.mem_cons.mp (members member) with rfl | old
      · exact arrives other is
      · exact unended _ (List.mem_map_of_mem old)

/-- An answer that leaves no request or one of the kind the status names. -/
theorem answer_consistent (consistent : Consistent state)
    (orderly : Orderly state (.answer pendingID, now)) :
    Consistent { state with view := resolvedView config pendingID now state.view } := by
  obtain ⟨named, unended⟩ := (consistent_iff state).mp consistent
  have kept := boundCurrentView_keeps config.sizes config.contentBudget
  refine (consistent_iff _).mpr ?_
  simp only [resolvedView]
  rw [status_of_bare (kept _).codex, asks_bound]
  simp only [Orderly] at orderly
  constructor
  · intro kind waits is
    split at is
    · -- The last answer sets a status that stands for no request.
      obtain ⟨codex, shown, rfl⟩ := map_eq_some_iff.mp is
      obtain ⟨old, -, rfl⟩ := map_eq_some_iff.mp shown
      simp only [Waits] at waits
      split at waits <;> grind
    · next left =>
      obtain ⟨ask, member, rfl⟩ := named kind waits is
      obtain ⟨other, found, same⟩ := orderly.resolve_left left ask member is
      exact ⟨askOf other, List.mem_map_of_mem found, same⟩
  · refine List.forall_mem_map.mpr ?_
    intro other member
    exact unended _ (List.mem_map_of_mem (List.mem_of_mem_filter member))

theorem running_consistent (consistent : Consistent state) :
    Consistent { state with
      view := runningView config.sizes config.contentBudget turnID now deadline state.view } := by
  have kept := boundCurrentView_keeps config.sizes config.contentBudget
  refine consistent.steady (asks_bound ..) rfl ?_
  intro kind waits shown
  simp only [runningView] at shown
  rw [status_of_bare (kept _).codex] at shown
  refine waits_onCodex ?_ waits shown
  -- A start leaves a status that stands for a request alone.
  intro codex
  simp only [Waits]
  split <;> grind

theorem step_consistent (consistent : Consistent state) (orderly : Orderly state label)
    (stepped : step config codexID state label = some next) : Consistent next := by
  obtain ⟨arrival, now⟩ := label
  cases arrival with
  | notify event manualTitle chunk =>
    obtain ⟨⟨after, made⟩, applied, rfl⟩ := map_eq_some_iff.mp stepped
    obtain ⟨changed, changes, shown, asked⟩ := applyEvent_asks applied
    refine changes_consistent changes consistent orderly.1 ?_ shown asked rfl
    intro pending is
    have arrives := orderly.2
    simp only [is] at arrives
    exact arrives
  | answer pendingID =>
    cases stepped
    exact answer_consistent consistent orderly
  | running turnID deadline =>
    cases stepped
    exact running_consistent consistent

/-- Along any orderly run, a status that names a request stands for one, and no request of an ended
turn is left. -/
theorem orderly_run_consistent (config : Config) (codexID : String) (start last : Progress)
    (labels : List (Arrival × Int)) (initial : Consistent start)
    (orderly : Runs.Meets (step config codexID) Orderly start labels)
    (ran : Runs.run (step config codexID) start labels = some last) : Consistent last :=
  Runs.run_invariant Consistent (fun _ _ _ => step_consistent) initial orderly ran

def sampleView : Progress := { view := { codex := some sampleCodex } }

def sampleApproval : Arrival :=
  .notify
    { threadID := "thr", turnID := "one"
      body := .pendingRequestUpdated (.approval
        { approvalId := "apr", turnId := "one", itemId := "", kind := "", status := .pending
          title := [], explanation := [], command := [], allowedDecisions := []
          resolvedDecision := .unspecified, createdAtUnixMs := 0, resolvedAtUnixMs := 0 }) }
    false 0

def sampleInput : Arrival :=
  .notify
    { threadID := "thr", turnID := "one"
      body := .pendingRequestUpdated (.userInput
        { userInputRequestId := "inp", turnId := "one", itemId := "", questions := []
          createdAtUnixMs := 0, resolved := false, resolvedAtUnixMs := 0, resolvedAnswers := []
          completeness := none }) }
    false 0

def sampleFinish : Arrival := .notify sampleLast false 0

theorem sampleView_consistent : Consistent sampleView := by
  constructor <;> simp [sampleView, sampleCodex, status]

/-- The answer to the later of two requests leaves its status behind, and the end of a turn leaves
its request. -/
theorem answer_and_end_inconsistent :
    (∃ last, Runs.run (step sampleConfig "cdx") sampleView
        [(sampleApproval, 1), (sampleInput, 2), (.answer "inp", 3)] = some last ∧
      status last.view = some .waitingForUserInput ∧
      ∀ request, .userInput request ∉ last.view.pendingRequests) ∧
    ∃ last, Runs.run (step sampleConfig "cdx") sampleView
        [(.running "one" 100, 1), (sampleApproval, 2), (sampleFinish, 3)] = some last ∧
      "one" ∈ last.ended ∧ ∃ pending ∈ last.view.pendingRequests, turnOf pending = "one" := by
  have answered : (Runs.run (step sampleConfig "cdx") sampleView
      [(sampleApproval, 1), (sampleInput, 2), (.answer "inp", 3)]).map (fun last =>
        (status last.view, asks last.view)) =
      some (some .waitingForUserInput, [(.waitingForApproval, "one")]) := by
    decide +kernel
  have finished : (Runs.run (step sampleConfig "cdx") sampleView
      [(.running "one" 100, 1), (sampleApproval, 2), (sampleFinish, 3)]).map (fun last =>
        (last.ended, asks last.view)) =
      some (["one"], [(.waitingForApproval, "one")]) := by
    decide +kernel
  constructor
  · obtain ⟨last, ran, facts⟩ := map_eq_some_iff.mp answered
    obtain ⟨shown, left⟩ := Prod.mk.inj facts
    refine ⟨last, ran, shown, ?_⟩
    intro request member
    have asked : (.waitingForUserInput, request.turnId) ∈ asks last.view :=
      List.mem_map_of_mem member
    rw [left] at asked
    simp at asked
  · obtain ⟨last, ran, facts⟩ := map_eq_some_iff.mp finished
    obtain ⟨ended, left⟩ := Prod.mk.inj facts
    have asked : (.waitingForApproval, "one") ∈ asks last.view := by
      rw [left]
      exact List.mem_singleton_self _
    obtain ⟨pending, member, is⟩ := List.mem_map.mp asked
    exact ⟨last, ran, by simp [ended], pending, member, congrArg Prod.snd is⟩

/-- A turn whose request is answered before it ends. -/
theorem orderly_run_consistent_answered : ∃ last,
    Runs.run (step sampleConfig "cdx") sampleView [(.running "one" 100, 1), (sampleApproval, 2),
      (.answer "apr", 3), (sampleFinish, 4)] = some last ∧ Consistent last := by
  have orderly : Runs.Meets (step sampleConfig "cdx") Orderly sampleView
      [(.running "one" 100, 1), (sampleApproval, 2), (.answer "apr", 3), (sampleFinish, 4)] := by
    decide +kernel
  have runs : (Runs.run (step sampleConfig "cdx") sampleView [(.running "one" 100, 1),
      (sampleApproval, 2), (.answer "apr", 3), (sampleFinish, 4)]).isSome := by
    decide +kernel
  obtain ⟨last, ran⟩ := isSome_iff_exists.mp runs
  exact ⟨last, ran, orderly_run_consistent sampleConfig "cdx" sampleView last _
    sampleView_consistent orderly ran⟩

end CodexRemote.Statuses
