import CodexRemote.Effects
import CodexRemote.LeaseRules

/-!
# One turn at a time

`StartTurn` sends a turn to the app-server only while memory shows the Codex idle. Once the
app-server has accepted one, memory is what keeps a second one from being sent, whatever
becomes of the writes behind it: `setRunning` keeps the running view in memory even when it
cannot be stored.

The accepted turns are noted beside the run until something that is known to end them has
been applied. Of memory only two things are followed, the status and whether a turn is
active: `Busy` needs both, because the last answer to a request reads the second to decide
the first. Storage calls end in any way here.

Two ways lead from a busy view to an idle one while the turn is still open. A workspace
commit with an unknown outcome replaces memory by the stored view, which is an older one if
the running view could not be stored; and the end of some other turn is taken for the end
of this one. `Honest` excludes the two.

A section under the commit lock is one step here. An announcement of a new Codex has no lock,
and one that commits in the middle of a workspace commit, before that has updated memory or read
the stored view back, is not covered.
-/
namespace CodexRemote.Host

open Protocol Persistence Activity Budget Codexes Leases Function List Option

variable {view after : CurrentView} {now : Int} {codexID : String} {world : World}
  {storage : Storage}

/-- The view shows a Codex that is busy with a turn. -/
def Busy (view : CurrentView) : Prop :=
  view.codex.map Codex.status ≠ some .idle ∧ view.activeTurn.isSome = true

instance (view : CurrentView) : Decidable (Busy view) :=
  inferInstanceAs (Decidable (_ ∧ _))

/-- The views agree on status and on whether a turn is active. -/
def Still (view after : CurrentView) : Prop :=
  after.codex.map Codex.status = view.codex.map Codex.status ∧
    after.activeTurn.isSome = view.activeTurn.isSome

theorem Still.busy (still : Still view after) (busy : Busy view) : Busy after := by
  unfold Busy
  rw [still.1, still.2]
  exact busy

/-- Clipping keeps status and turn. -/
theorem still_of_bare (codex : after.codex.map bareCodex = view.codex.map bareCodex)
    (turn : after.activeTurn.map bareTurn = view.activeTurn.map bareTurn) : Still view after := by
  have through : ∀ found : Option Codex, found.map Codex.status =
      (found.map bareCodex).map Codex.status := by
    rintro (_ | found) <;> rfl
  have present : ∀ found : Option TurnSnapshot, found.isSome = (found.map bareTurn).isSome := by
    rintro (_ | found) <;> rfl
  exact ⟨by rw [through, codex, ← through], by rw [present, turn, ← present]⟩

theorem still_onCodex (change : Codex → Codex) (view : CurrentView)
    (same : ∀ codex, (change codex).status = codex.status) : Still view (onCodex change view) := by
  refine ⟨?_, rfl⟩
  cases codex : view.codex <;> simp [onCodex, codex, same]

theorem runningView_busy (config : Config) (turnID : String) (now deadline : Int)
    (view : CurrentView) :
    Busy (runningView config.sizes config.contentBudget turnID now deadline view) := by
  have kept := boundCurrentView_keeps config.sizes config.contentBudget
  refine (still_of_bare (kept _).codex (kept _).turn).busy ⟨?_, rfl⟩
  cases codex : view.codex with
  | none => simp [onCodex, codex]
  | some found =>
    simp only [onCodex, codex, map_some]
    split
    · next waits => rcases waits with waits | waits <;> simp [waits]
    · simp

theorem acceptedView_busy (now : Int) (turnID : String) (item : Item) (busy : Busy view) :
    Busy (acceptedView now turnID item view) :=
  ⟨busy.1, rfl⟩

theorem resolvedView_busy (config : Config) (pendingID : String) (now : Int) (busy : Busy view) :
    Busy (resolvedView config pendingID now view) := by
  have kept := boundCurrentView_keeps config.sizes config.contentBudget
  refine (still_of_bare (kept _).codex (kept _).turn).busy ?_
  obtain ⟨status, turn⟩ := busy
  split
  · refine ⟨?_, turn⟩
    cases codex : view.codex <;> simp [onCodex, codex]
  · exact ⟨status, turn⟩

/-- A notice that shows the thread as idle. -/
def idles (event : AdapterEvent) : Bool :=
  match event.body with
  | .codexUpdated params => params.status = some .idle
  | _ => false

theorem changes_busy (changes : Changes now event view changed) (busy : Busy view)
    (runs : event.terminal = false) (active : idles event = false) : Busy changed := by
  obtain ⟨status, turn⟩ := busy
  cases changes with
  | worked => exact ⟨status, rfl⟩
  | ended _ ends => simp [ends] at runs
  | warned => exact Still.busy (still_onCodex _ view fun _ => rfl) ⟨status, turn⟩
  | asked pending =>
    refine ⟨?_, turn⟩
    cases found : view.codex <;> cases pending <;> simp [onCodex, waitsFor]
  | params params title is =>
    refine ⟨?_, turn⟩
    cases found : view.codex with
    | none => simp [onCodex, found]
    | some old =>
      rw [found] at status
      simp only [onCodex, found, map_some, applyCodexParams]
      cases notice : params.status with
      | none => simpa using status
      | some word =>
        cases word with
        | idle => simp [idles, is, notice] at active
        | active =>
          simp only [ne_eq, some.injEq]
          split
          · simp
          · assumption
        | error => simp

theorem applyEvent_busy {config : Config} (busy : Busy view) (runs : event.terminal = false)
    (active : idles event = false)
    (applied : applyEvent config.sizes config.contentBudget manualTitle chunk now codexID event
      view = some (after, published)) : Busy after := by
  obtain ⟨⟨changed, body, complete⟩, placed, clipped⟩ := map_eq_some_iff.mp applied
  have kept := clipBoth_keeps config.sizes config.contentBudget
    { codexId := codexID, occurredAtUnixMs := now, completeness := complete, body := body }
    { changed with generatedAtUnixMs := now }
  dsimp only at clipped
  rw [clipped] at kept
  have busy : Busy changed := changes_busy (applyBody_changes placed) busy runs active
  exact (still_of_bare kept.1 kept.2).busy busy

/-- Whatever memory shows of the Codex, it shows it busy. -/
def Occupied (m : Manager) (codexID : String) : Prop :=
  ∀ view, m.byID codexID = some view → Busy view

section Memory

variable {config : Config} {m next : Manager} {codexID id : String} {now : Int}
  {operation : Operation}

theorem Occupied.frame (occupied : Occupied m codexID)
    (same : next.byID codexID = m.byID codexID) : Occupied next codexID := by
  unfold Occupied
  rw [same]
  exact occupied

theorem Occupied.known (occupied : Occupied m codexID)
    (found : known m codexID = .ok (view, codex)) : Busy view :=
  occupied view (known_remembered found)

theorem occupied_remember (others : codexID ≠ id → Occupied m codexID)
    (busy : codexID = id → Busy view) : Occupied (m.remember id view) codexID := by
  by_cases same : codexID = id
  · intro found remembered
    have shown : (m.remember id view).byID id = some view := update_self ..
    rw [same, shown] at remembered
    exact some.inj remembered ▸ busy same
  · exact (others same).frame (update_of_ne same _ _)

theorem occupied_publish (occupied : Occupied m codexID) (event : Event) (view : CurrentView)
    (commit : Commit) : Occupied (publishEvent m event view commit).1 codexID :=
  occupied.frame rfl

/-- Actions that use busy views only keep a Codex busy. -/
theorem Acts.occupied (acts : Acts Allowed m next) (occupied : Occupied m codexID)
    (busy : ∀ view, Allowed codexID view → Busy view) :
    Occupied next codexID := by
  intro view found
  rcases acts.memory found with before | allowed
  · exact occupied view before
  · exact busy view allowed

theorem Revises.busy (revises : Revises config m now operation codexID old view) (busy : Busy old)
    (goes : ∀ event, operation = .notify event → m.byThread event.threadID = some codexID →
      event.terminal = false ∧ idles event = false) : Busy view := by
  cases revises with
  | running call => exact runningView_busy config call.turnID now _ old
  | accepted call _ item => exact acceptedView_busy now call.turnID item busy
  | applied thread applied =>
    obtain ⟨runs, active⟩ := goes _ rfl thread
    exact applyEvent_busy busy runs active applied
  | resolved _ pendingID => exact resolvedView_busy config pendingID now busy
  | leased _ leased =>
    obtain ⟨stamp, change, kept⟩ := leased
    exact (still_onCodex change old fun codex => (kept codex).2.2.1).busy busy
  | renamed _ _ _ present =>
    obtain ⟨status, turn⟩ := busy
    rw [present] at status
    exact ⟨status, turn⟩

/-- A plain operation keeps a busy Codex busy, unless it is a notification that ends its turn or
shows the thread as idle. -/
theorem perform_occupied {after : World}
    (performs : Performs config world now storage operation after) (plain : operation.plain = true)
    (occupied : Occupied world.manager codexID) (goes : ∀ event, operation = .notify event →
      world.manager.byThread event.threadID = some codexID →
        event.terminal = false ∧ idles event = false) : Occupied after.manager codexID := by
  apply (perform_acts performs plain).occupied occupied
  rintro view (remembered | ⟨old, remembered, revises⟩)
  · exact occupied view remembered
  · exact revises.busy (occupied old remembered) goes

/-- `setRunning` leaves its Codex busy even when it was idle before. -/
theorem setRunning_busy (turnID requestID : String) (writes : Bool)
    (turnCommit codexCommit : Commit) :
    Occupied (setRunning config m codexID turnID requestID now writes turnCommit codexCommit).1
      codexID := by
  unfold setRunning
  split
  · next absent =>
    intro view remembered
    rw [absent] at remembered
    cases remembered
  next view remembered =>
  have shown : ∀ marked : Manager, Occupied (marked.remember codexID (runningView config.sizes
      config.contentBudget turnID now (now + config.leaseDuration) view)) codexID :=
    fun marked => occupied_remember (fun other => absurd rfl other)
      fun _ => runningView_busy config turnID now _ view
  dsimp only
  split
  · exact shown _
  next stored persisted =>
  have published := occupied_publish (shown stored)
    { codexId := codexID, occurredAtUnixMs := now, causedByRequestId := requestID
      body := .turnUpdated turnID .running now 0 none }
    (runningView config.sizes config.contentBudget turnID now (now + config.leaseDuration) view)
    turnCommit
  generalize publishEvent _ _ _ turnCommit = answer at published ⊢
  obtain ⟨after, outcome⟩ := answer
  cases outcome with
  | error error => exact published
  | ok event =>
    dsimp only
    split
    · exact published
    unfold publishCodex
    split
    · exact published
    · exact occupied_publish published _ _ codexCommit

/-- A workspace commit keeps a Codex busy unless it is lost with an unknown outcome and an idle
view is stored: then that one replaces the view in memory. -/
theorem commitWorkspaceState_occupied (state : WorkspaceAccessState) (now : Int)
    (occupied : Occupied m codexID)
    (durable : codexID = id → storage.commit.outcome = .unknown false →
      ∀ stored, durableView m id storage.reads = some stored → Busy stored) :
    Occupied (commitWorkspaceState m id state now storage.commit storage.reads
      storage.reloads).1 codexID := by
  have moves := commitWorkspaceState_moves m id state now storage.commit storage.reads
    storage.reloads
  generalize commitWorkspaceState m _ _ _ _ _ _ = result at moves ⊢
  cases moves with
  | passed | absent => exact occupied
  | published view codex _ found behind settles =>
    have busy : codexID = id → Busy view := fun same => (same ▸ occupied).known found
    have published := occupied_publish occupied (accessEvent id state now)
      (accessView state now view) storage.commit
    cases settles with
    | told | unread => exact occupied_remember (fun _ => published) busy
    | reread error stored failed lost read =>
      -- The stored view is the one before the commit, or the one the commit wrote.
      refine Occupied.frame (occupied_remember (fun _ => published)
        (?_ : codexID = id → Busy stored)) rfl
      intro same
      obtain ⟨cause, result, rfl⟩ := publish_error failed
      obtain rfl := cause_of_unknown lost
      obtain ⟨-, -, -, ⟨missed, kept⟩ | ⟨row, seq, -, written⟩⟩ :=
        publish_unknown _ _ _ _ _ _ _ _ result
      · refine durable same missed stored ?_
        simpa only [durableView, publishEvent, kept] using read
      · obtain ⟨now', present, decoded⟩ := durableView_row read
        simp only [publishEvent, written] at present
        simp only [accessEvent, Disk.writeEvent, update_self, some.injEq] at present
        subst present
        cases decoded
        exact busy same
    | refused => exact published

end Memory

/-- `StartTurn` gets as far as sending the turn to the app-server. -/
def sends (m : Manager) (codexID : String) : Bool :=
  match known m codexID with
  | .ok (_, codex) => decide (codex.status = .idle)
  | .error _ => false

theorem Occupied.silent (occupied : Occupied m codexID) :
    sends m codexID = false := by
  unfold sends
  split
  · next view codex found =>
    have status := (occupied.known found).1
    simpa [known_codex found] using status
  · rfl

/-- The open turn of each Codex: the last one that the app-server accepted, if nothing has
ended it. -/
abbrev Opens := String → Option String

/-- What is taken to end the open turn of a Codex. A restore is one of the Codex that its row
names, and an id that is handed out names another Codex than before. -/
def closes (world : World) (label : Label) (codexID turnID : String) : Bool :=
  label.crash.isSome ||
    match label.operation with
    | .notify event =>
        decide (world.manager.byThread event.threadID = some codexID) &&
          (idles event || event.terminal && decide (event.turnID = turnID))
    | .restore id _ _ _ =>
        (world.manager.events.disk.codexes id).any fun row => decide (row.codexID = codexID)
    | .restart _ => true
    | .create id _ _ _ => decide (id = codexID)
    | .importSession id _ _ _ _ _ => decide (id = codexID)
    | _ => false

/-- The app-server accepts this turn of the Codex. -/
def accepts (world : World) (label : Label) (codexID : String) : Option String :=
  match label.operation with
  | .startTurn id _ _ answer => if id = codexID ∧ sends world.manager id then answer else none
  | _ => none

/-- A step, with the open turns beside it. -/
def openStep (config : Config) (state : World × Opens) (label : Label) : Option (World × Opens) :=
  (step config state.1 label).map fun next =>
    (next, fun codexID =>
      (accepts state.1 label codexID).or
        ((state.2 codexID).filter fun turnID => !closes state.1 label codexID turnID))

/-- A `StartTurn` of the Codex has not yet come to `setRunning`. -/
def Waiting (world : World) (codexID : String) : Prop :=
  ∃ call ∈ world.calls, call.codexID = codexID ∧ call.running = false

instance (world : World) (codexID : String) : Decidable (Waiting world codexID) := by
  unfold Waiting
  infer_instance

/-- While a turn is open and its start is over, no idle view is stored that a lost workspace
commit would bring back, and the only turn that ends is the open one. -/
def Honest (state : World × Opens) (label : Label) : Prop :=
  let m := state.1.manager
  match label.operation with
  | .workspace codexID _ =>
      label.storage.commit.outcome = .unknown false → (state.2 codexID).isSome = true →
        ¬ Waiting state.1 codexID →
        ∀ stored ∈ durableView m codexID label.storage.reads, Busy stored
  | .notify event =>
      ∀ codexID ∈ m.byThread event.threadID, ∀ turnID ∈ state.2 codexID,
        ¬ Waiting state.1 codexID → event.terminal = true → event.turnID = turnID
  | _ => True

instance (state : World × Opens) (label : Label) : Decidable (Honest state label) := by
  obtain ⟨operation, now, storage⟩ := label
  cases operation <;> dsimp only [Honest] <;> infer_instance

/-- A Codex with an open turn is shown busy, once the start of the turn is over. -/
def Guarded (state : World × Opens) : Prop :=
  ∀ codexID, (state.2 codexID).isSome = true →
    Waiting state.1 codexID ∨ Occupied state.1.manager codexID

theorem Waiting.of_calls {next : World} (waiting : Waiting world codexID)
    (kept : ∀ call ∈ world.calls, call.running = false → call.codexID = codexID →
      call ∈ next.calls) : Waiting next codexID := by
  obtain ⟨call, member, named, waits⟩ := waiting
  exact ⟨call, kept call member waits named, named, waits⟩

/-- An accepted turn waits for its own section. -/
theorem startTurn_waiting {id : String} {answer : Option String}
    (accepted : (if id = codexID ∧ sends world.manager id then answer else none) = some turnID) :
    Waiting (world.startTurn id requestID parts answer) codexID := by
  obtain ⟨⟨rfl, sent⟩, rfl⟩ := ite_none_right_eq_some.mp accepted
  unfold sends at sent
  split at sent
  · next view codex found =>
    have idle : codex.status = .idle := of_decide_eq_true sent
    refine ⟨{ codexID := id, turnID := turnID, requestID := requestID, parts := parts }, ?_, rfl,
      rfl⟩
    simp [World.startTurn, found, idle]
  · cases sent

theorem startTurn_calls (world : World) (id requestID : String) (parts : List UserMessagePart)
    (answer : Option String) :
    ∀ call ∈ world.calls, call ∈ (world.startTurn id requestID parts answer).calls := by
  intro call member
  unfold World.startTurn
  split
  · split
    · exact mem_cons_of_mem _ member
    · exact member
  · exact member

theorem save_calls (config : Config) (world : World) (codex : Codex) (session : Session)
    (access : Option WorkspaceAccessState) (requestID : String) (now : Int) (storage : Storage) :
    (world.save config codex session access requestID now storage).calls = world.calls := by
  unfold World.save
  split <;> rfl

/-- Only the call itself leaves the waiting ones. -/
theorem setRunning_calls (config : Config) (world : World) (call : Call) (now : Int)
    (storage : Storage) :
    ∀ other ∈ world.calls, other ≠ call →
      other ∈ (world.setRunning config call now storage).calls := by
  intro other member distinct
  have kept : other ∈ world.calls.erase call := (mem_erase_of_ne distinct).mpr member
  unfold World.setRunning
  split
  · exact mem_cons_of_mem _ kept
  · exact kept

theorem saveCodex_others (config : Config) (m : Manager) (session : Session)
    (access : Option WorkspaceAccessState) (now : Int) (writes : Bool)
    (distinct : codexID ≠ codex.codexId) :
    (saveCodex config m codex session access now writes).1.byID codexID = m.byID codexID := by
  obtain same | ⟨-, set⟩ := saveCodex_sets config m codex session access now writes
  · rw [same]
  · exact (set.others codexID distinct).1

theorem leased_codexID (config : Config) (now : Int) (row : CodexRecord) :
    (leased config now row).codexID = row.codexID := by
  unfold leased
  split <;> rfl

theorem restorePlan_codexID {read : ThreadRead}
    (planned : restorePlan config now row owner read reads = some plan) :
    plan.record.codexID = row.codexID := by
  have prepared : (preparedRow config now row owner).codexID = row.codexID :=
    leased_codexID config now _
  have branch := restorePlan_branch planned
  rw [← prepared]
  generalize preparedRow config now row owner = r at branch
  cases branch <;> rfl

theorem restoreCodex_others (config : Config) (m : Manager) (now : Int) (owner : String)
    (read : ThreadRead) (reads : Bool) (access : Option WorkspaceAccessState) (writes : Bool)
    (distinct : codexID ≠ row.codexID) :
    (restoreCodex config m row now owner read reads access writes).byID codexID =
      m.byID codexID := by
  unfold restoreCodex
  split
  · next plan state planned =>
    rw [← restorePlan_codexID planned] at distinct
    obtain ⟨threads, sessions, events, same⟩ := finishRestore_registers m plan state writes
    rw [same]
    exact update_of_ne distinct _ _
  · rfl

theorem forgetCodex_occupied (id requestID : String) (now : Int) (records : Bool)
    (outcome : CommitOutcome) (answers : Bool) (occupied : Occupied m codexID) :
    Occupied (forgetCodex m id requestID now records outcome answers).1 codexID := by
  obtain ⟨events, error, done, -⟩ | ⟨events, view, codex, -, -, done, -⟩ :=
    forgetCodex_cases m id requestID now records outcome answers
  · rw [done]
    exact occupied.frame rfl
  rw [done]
  by_cases same : codexID = id
  · intro found remembered
    have gone : ({ m with events := events }.drop id codex.threadId).byID id = none :=
      update_self ..
    rw [same, gone] at remembered
    cases remembered
  · exact occupied.frame (update_of_ne same _ _)

section Steps

variable {config : Config} {world next : World} {opens : Opens} {label : Label}
  {codexID turnID : String}

/-- An operation that does not end the open turn leaves its Codex waiting or busy. -/
theorem perform_guarded
    (performs : Performs config world label.now label.storage label.operation next)
    (honest : Honest (world, opens) label) (opened : opens codexID = some turnID)
    (goes : closes world label codexID turnID = false)
    (held : Waiting world codexID ∨ Occupied world.manager codexID) :
    Waiting next codexID ∨ Occupied next.manager codexID := by
  obtain ⟨operation, now, storage, crash⟩ := label
  obtain ⟨-, goes⟩ := Bool.or_eq_false_iff.mp goes
  -- Most operations leave the calls alone and keep a busy Codex busy.
  have onMemory : ∀ after : World, after.calls = world.calls →
      (¬ Waiting world codexID → Occupied world.manager codexID →
        Occupied after.manager codexID) →
      Waiting after codexID ∨ Occupied after.manager codexID := by
    intro after calls kept
    by_cases waiting : Waiting world codexID
    · refine .inl (waiting.of_calls ?_)
      intro call member _ _
      rw [calls]
      exact member
    · exact .inr (kept waiting (held.resolve_left waiting))
  have plainly : operation.plain = true → next.calls = world.calls →
      (∀ event, operation = .notify event → ¬ Waiting world codexID →
        world.manager.byThread event.threadID = some codexID →
          event.terminal = false ∧ idles event = false) →
      Waiting next codexID ∨ Occupied next.manager codexID := by
    intro plain calls runs
    refine onMemory next calls fun started occupied => ?_
    exact perform_occupied performs plain occupied fun event is => runs event is started
  cases performs with
  | create id session access requestID fresh
  | importSession id session origin created access requestID fresh =>
    have distinct : codexID ≠ id := Ne.symm (of_decide_eq_false goes)
    refine onMemory _ (save_calls ..) fun _ occupied => occupied.frame ?_
    rw [save_manager]
    exact saveCodex_others config world.manager session access now _ distinct
  | startTurn id requestID parts answer =>
    refine held.imp (fun waiting => ?_) fun occupied => ?_
    · exact waiting.of_calls fun call member _ _ =>
        startTurn_calls world id requestID parts answer call member
    · rw [startTurn_manager]
      exact occupied
  | setRunning call accepted waits =>
    by_cases same : codexID = call.codexID
    · rw [setRunning_manager, same]
      exact .inr (setRunning_busy call.turnID call.requestID _ _ _)
    refine held.imp (fun waiting => ?_) fun occupied => ?_
    · refine waiting.of_calls fun other member _ named => ?_
      refine setRunning_calls config world call now storage other member ?_
      rintro rfl
      exact same named.symm
    · exact perform_occupied (.setRunning call accepted waits) rfl occupied (by simp)
  | userMessage call accepted running =>
    refine held.imp (fun waiting => ?_) fun occupied => ?_
    · refine waiting.of_calls fun other member waits _ => ?_
      refine (mem_erase_of_ne ?_).mpr member
      rintro rfl
      simp [running] at waits
    · exact perform_occupied (.userMessage call accepted running) rfl occupied (by simp)
  | workspace id state =>
    refine onMemory _ rfl fun started occupied => ?_
    refine commitWorkspaceState_occupied state now occupied ?_
    rintro rfl lost stored read
    exact honest lost (congrArg isSome opened) started stored read
  | notify event =>
    refine plainly rfl rfl ?_
    rintro _ ⟨⟩ started thread
    have runs : (idles event || event.terminal && decide (event.turnID = turnID)) = false := by
      simpa [thread] using goes
    obtain ⟨active, other⟩ := Bool.or_eq_false_iff.mp runs
    refine ⟨?_, active⟩
    cases terminal : event.terminal with
    | false => rfl
    | true =>
      have ended : event.turnID = turnID := honest codexID thread turnID opened started terminal
      simp [terminal, ended] at other
  | forget id requestID records =>
    refine onMemory _ rfl fun _ occupied => ?_
    exact forgetCodex_occupied id requestID now records _ _ occupied
  | restore id owner read access row stored =>
    have distinct : codexID ≠ row.codexID := by
      rintro rfl
      simp [stored] at goes
    refine onMemory _ rfl fun _ occupied => occupied.frame ?_
    exact restoreCodex_others config world.manager now owner read _ access _ distinct
  | restart replayCapacity => cases goes
  | _ => exact plainly rfl rfl (by rintro _ ⟨⟩)

theorem openStep_guarded {after : World × Opens} (guarded : Guarded state)
    (honest : Honest state label) (stepped : openStep config state label = some after) :
    Guarded after := by
  obtain ⟨world, opens⟩ := state
  obtain ⟨next, taken, rfl⟩ := map_eq_some_iff.mp stepped
  intro codexID opened
  cases accepted : accepts world label codexID with
  | some turnID =>
    obtain ⟨operation, now, storage, crash⟩ := label
    cases operation with
    | startTurn id requestID parts answer =>
      have next_eq : next = world.startTurn id requestID parts answer := by
        unfold step at taken
        cases crash with
        | none => exact (some.inj taken).symm
        | some point => simp [perform, interruptions] at taken
      subst next_eq
      exact .inl (startTurn_waiting accepted)
    | _ => cases accepted
  | none =>
    simp only [accepted, none_or] at opened
    obtain ⟨turnID, kept⟩ := isSome_iff_exists.mp opened
    obtain ⟨before, goes⟩ := filter_eq_some_iff.mp kept
    have goes : closes world label codexID turnID = false := by simpa using goes
    have held := guarded codexID (congrArg isSome before)
    unfold step at taken
    cases performed : perform config world label.operation label.now label.storage with
    | none => simp [performed] at taken
    | some done =>
      cases crash : label.crash with
      | some point => simp [closes, crash] at goes
      | none =>
        simp only [performed, crash, some.injEq] at taken
        subst taken
        exact perform_guarded (perform_performs performed) honest before goes held

end Steps

/-- In every run in which no lost workspace commit brings back an idle view and only the open
turn ends, a `StartTurn` that begins after the earlier ones of its Codex have returned sends a
turn only if none is open. Row writes, event commits and workspace commits end in any way. -/
theorem no_second_start (config : Config) (start last : World) (opens : Opens)
    (labels : List Label)
    (honest : Runs.Meets (openStep config) Honest (start, fun _ => none) labels)
    (ran : Runs.run (openStep config) (start, fun _ => none) labels = some (last, opens))
    (codexID : String) (sequential : ∀ call ∈ last.calls, call.codexID ≠ codexID)
    (sent : sends last.manager codexID = true) : opens codexID = none := by
  have initially : Guarded (start, fun _ => none) := by
    intro id opened
    cases opened
  have guarded : Guarded (last, opens) := Runs.run_invariant Guarded
      (fun _ _ _ => openStep_guarded) initially
      honest ran
  by_contra opened
  obtain ⟨call, member, named, -⟩ | occupied := guarded codexID
    (isSome_iff_ne_none.mpr opened)
  · exact sequential call member named
  · rw [occupied.silent] at sent
    cases sent

/-- A turn is accepted and its running view cannot be stored. -/
def sampleTurn : List Label :=
  [sampleCreate, sampleAnnounce,
    { operation := .startTurn "cdx" "turn" [] (some "turn"), now := 7 },
    { operation := .setRunning sampleCall, now := 8, storage := { writes := false } }]

/-- The end of a turn of the sample thread. -/
def sampleEnd (turnID : String) : Label :=
  { operation := .notify
      { threadID := "thr", turnID := turnID, body := .turnUpdated .completed 0 0 none }
    now := 10 }

/-- The turn whose view could not be stored is protected until it ends. -/
theorem no_second_start_unstored : ∃ running last opens,
    Runs.run (openStep sampleConfig) (sampleHost, fun _ => none) sampleTurn = some running ∧
    running.2 "cdx" = some "turn" ∧ sends running.1.manager "cdx" = false ∧
    Runs.run (openStep sampleConfig) (sampleHost, fun _ => none)
      (sampleTurn ++ [sampleEnd "turn"]) = some (last, opens) ∧
    sends last.manager "cdx" = true ∧ opens "cdx" = none := by
  have before : (Runs.run (openStep sampleConfig) (sampleHost, fun _ => none) sampleTurn).map
      (fun state => (state.2 "cdx", sends state.1.manager "cdx")) = some (some "turn", false) := by
    decide +kernel
  have after : (Runs.run (openStep sampleConfig) (sampleHost, fun _ => none)
      (sampleTurn ++ [sampleEnd "turn"])).map (fun state =>
        (state.1.calls, sends state.1.manager "cdx")) = some ([], true) := by decide +kernel
  have honest : Runs.Meets (openStep sampleConfig) Honest (sampleHost, fun _ => none)
      (sampleTurn ++ [sampleEnd "turn"]) := by decide +kernel
  obtain ⟨running, started, kept⟩ := map_eq_some_iff.mp before
  obtain ⟨opened, silent⟩ := Prod.mk.inj kept
  obtain ⟨⟨last, opens⟩, ran, facts⟩ := map_eq_some_iff.mp after
  obtain ⟨returned, sent⟩ := Prod.mk.inj facts
  refine ⟨running, last, opens, started, opened, silent, ran, sent, ?_⟩
  refine no_second_start sampleConfig sampleHost last opens _ honest ran "cdx" ?_ sent
  intro call member
  rw [returned] at member
  cases member

/-- The running view could not be stored, and a workspace commit is lost without effect: the
stored view shows the Codex idle. -/
def sampleLost : Label :=
  { operation := .workspace "cdx" { sampleAccess with generation := 2 }, now := 9
    storage := { commit := { outcome := .unknown false } } }

/-- Behind the step, nothing is in progress, a turn is open and another one would be sent. -/
def SendsAgain (after : Label) : Prop :=
  ∃ last opens, Runs.run (openStep sampleConfig) (sampleHost, fun _ => none)
      (sampleTurn ++ [after]) = some (last, opens) ∧
    last.calls = [] ∧ opens "cdx" = some "turn" ∧ sends last.manager "cdx" = true

/-- Twice a second turn is sent while the first is open: behind a row that could not be written
and a workspace commit with an unknown outcome, and behind the end of another turn. -/
theorem second_start_sent : SendsAgain sampleLost ∧ SendsAgain (sampleEnd "other") := by
  have again : ∀ after, (Runs.run (openStep sampleConfig) (sampleHost, fun _ => none)
      (sampleTurn ++ [after])).map (fun state =>
        (state.1.calls, state.2 "cdx", sends state.1.manager "cdx")) =
      some ([], some "turn", true) → SendsAgain after := by
    intro after results
    obtain ⟨⟨last, opens⟩, ran, facts⟩ := map_eq_some_iff.mp results
    obtain ⟨returned, rest⟩ := Prod.mk.inj facts
    obtain ⟨opened, sent⟩ := Prod.mk.inj rest
    exact ⟨last, opens, ran, returned, opened, sent⟩
  exact ⟨again _ (by decide +kernel), again _ (by decide +kernel)⟩

end CodexRemote.Host
