import Mathlib.Data.List.Infix
import CodexRemote.Budget

/-!
# How operations change a current view

The pure part of the Manager: what `StartTurn`'s steps and the events of the
app-server do to the view of a Codex, before anything is stored. An adapter event is
given after its JSON was read. Clock readings inside one operation agree.

The source shares messages by reference. An item or pending request is in the event
and in the view at once, so clipping either clips both; `shareInto` and `shareFrom`
carry the change over.
-/
namespace CodexRemote.Codexes

open Protocol Budget List Option

variable {Value : Type} {view after : CurrentView} {manualTitle : Bool} {chunk : Nat}
  {now configured : Int} {sizes : Sizes} {codexID : String} {published : Event}

/-- What a delta is about, from the app-server's method. -/
inductive Semantic where
  | unknown
  | agentText
  | reasoningText
  | reasoningSummary
  | commandOutput
  | fileChangeOutput
  | processOutput
  | planDelta
  | planUpdated
  | diffUpdated
  deriving DecidableEq

/-- The status words `applyCodexParams` knows. -/
inductive ThreadStatus where
  | idle
  | active
  | error
  deriving DecidableEq

/-- A change of a thread's own fields. -/
structure CodexParams where
  title : Option Text
  status : Option ThreadStatus
  deriving DecidableEq

inductive AdapterBody where
  | codexUpdated (params : CodexParams)
  | turnUpdated (status : TurnStatus) (started completed : Int) (failure : Option Error)
  | itemStarted (item : Item)
  | itemUpdated (item : Item)
  | itemCompleted (item : Item)
  | itemDelta (semantic : Semantic) (method : String) (stream : OutputStream) (content : Text)
  | pendingRequestUpdated (pending : PendingRequest)
  | warningRaised (message : Text) (method : String)
  | other
  deriving DecidableEq

/-- A notification of the app-server. -/
structure AdapterEvent where
  threadID : String
  turnID : String := ""
  itemID : String := ""
  body : AdapterBody
  deriving DecidableEq

/-- The status of a turn event that ends its turn. -/
def AdapterEvent.terminal (event : AdapterEvent) : Bool :=
  match event.body with
  | .turnUpdated status _ _ _ => status ≠ .running
  | _ => false

/-- The active turn, replaced by a new one unless it has the given id. -/
def activeTurnFor (now : Int) (turnID : String) (view : CurrentView) : TurnSnapshot :=
  match view.activeTurn with
  | some turn =>
      if turn.turnId = turnID then turn
      else { turnId := turnID, status := .running, startedAtUnixMs := now }
  | none => { turnId := turnID, status := .running, startedAtUnixMs := now }

def ensureActiveTurn (now : Int) (turnID : String) (view : CurrentView) : CurrentView :=
  { view with activeTurn := some (activeTurnFor now turnID view) }

/-- Replace the first member with the key of the new one, or append. -/
def upsertBy {Value : Type} (key : Value → String) (value : Value) : List Value → List Value
  | [] => [value]
  | old :: rest => if key old = key value then value :: rest else old :: upsertBy key value rest

open AdapterEvent

theorem upsertBy_subset (key : Value → String) (value : Value) (values : List Value) :
    upsertBy key value values ⊆ value :: values := by
  induction values with
  | nil => exact fun _ => id
  | cons old rest ih =>
    unfold upsertBy
    split
    · exact cons_subset_cons value (subset_cons_self old rest)
    intro other member
    rcases mem_cons.mp member with rfl | member
    · simp
    · rcases mem_cons.mp (ih member) with rfl | member <;> simp [*]

theorem mem_upsertBy_self (key : Value → String) (value : Value) (values : List Value) :
    value ∈ upsertBy key value values := by
  induction values with
  | nil => exact mem_singleton_self value
  | cons old rest ih =>
    unfold upsertBy
    split
    · exact mem_cons_self
    · exact mem_cons_of_mem old ih

/-- A member that looks like the one just put in takes its place. -/
theorem map_upsertBy_upsertBy {Look : Type} {look : Value → Look} (values : List Value)
    (named : key other = key value) (alike : look other = look value) :
    (upsertBy key other (upsertBy key value values)).map look =
      (upsertBy key value values).map look := by
  induction values with
  | nil => simp [upsertBy, named, alike]
  | cons old rest ih =>
    by_cases found : key old = key value
    · simp [upsertBy, found, named, alike]
    · simp [upsertBy, found, named, ih]

def upsertItem : Item → List Item → List Item := upsertBy Item.itemId

def pendingIDOf : PendingRequest → String
  | .approval request => request.approvalId
  | .userInput request => request.userInputRequestId

def upsertPending : PendingRequest → List PendingRequest → List PendingRequest :=
  upsertBy pendingIDOf

/-- A change of the items and completeness of the active turn. -/
def onTurn (change : TurnSnapshot → TurnSnapshot) (view : CurrentView) : CurrentView :=
  { view with activeTurn := view.activeTurn.map change }

/-- An item enters the turn it belongs to, and its completeness turn and view. -/
def placeItem (now : Int) (turnID : String) (item : Item) (view : CurrentView) : CurrentView :=
  let placed := onTurn (fun turn =>
    { turn with
      items := upsertItem item turn.items
      completeness := mergeCompleteness turn.completeness item.completeness })
    (ensureActiveTurn now turnID view)
  { placed with completeness := mergeCompleteness placed.completeness item.completeness }

/-- The size of the rune a text starts with. -/
def runeSize (value : Text) : Option Nat :=
  [1, 2, 3, 4].find? fun size => decide (size ≤ value.length) && Utf8.valid (value.take size)

/-- What encoding to JSON and back makes of a text: each byte outside a rune becomes
the replacement character. -/
def replaceInvalid : Nat → Text → Text
  | 0, _ => []
  | _, [] => []
  | fuel + 1, byte :: rest =>
      match runeSize (byte :: rest) with
      | some size => (byte :: rest).take size ++ replaceInvalid fuel ((byte :: rest).drop size)
      | none => [0xEF, 0xBF, 0xBD] ++ replaceInvalid fuel rest

def jsonText (value : Text) : Text := replaceInvalid value.length value

/-- The content a delta without an item starts with. -/
def deltaContent (semantic : Semantic) (method : String) (content : Text) : ItemContent :=
  if "usermessage".toList <:+: method.toLower.toList then
    .userMessage (if content = [] then [] else [.text content])
  else match semantic with
    | .reasoningText | .reasoningSummary => .reasoningSummary content
    | .commandOutput | .processOutput => .command [] [] content none
    | .fileChangeOutput => .fileChange [] content
    | _ => .agentMessage content

/-- The text of an item that deltas extend, and the content with another text. -/
def deltaTarget : ItemContent → Option (Text × (Text → ItemContent))
  | .agentMessage content => some (content, .agentMessage)
  | .reasoningSummary content => some (content, .reasoningSummary)
  | .command argv cwd output exitCode =>
      some (output, fun output => .command argv cwd output exitCode)
  | .fileChange changes unifiedDiff => some (unifiedDiff, .fileChange changes)
  | _ => none

/-- An item extended by a delta, as far as the budget goes. -/
def extendItem (budget : Nat) (content : Text) (item : Item) : Item :=
  match deltaTarget item.content with
  | none => item
  | some (target, rebuild) =>
      let original := target.length + content.length
      let extended :=
        { item with
          content := rebuild (target ++ validUTF8Prefix content (budget - target.length)) }
      if original ≤ budget then extended
      else
        { extended with
          completeness := some
            { truncated := true, incomplete := true, originalSizeBytes := original
              reason := text "content exceeds C/S frame budget" } }

/-- The item `applyItemDelta` appends when the turn has none under the id. -/
def deltaItem (budget : Nat) (turnID itemID : String) (semantic : Semantic) (method : String)
    (content : Text) : Item :=
  let (bounded, complete) := boundString (jsonText content) budget
  { itemId := itemID, turnId := turnID, status := .running
    content := deltaContent semantic method bounded
    completeness := complete, provenance := .liveWire }

/-- `applyItemDelta` on the items of a turn, with the text the event carries: none
at all when the item holds no text of its own. -/
def applyItemDelta (budget : Nat) (turnID itemID : String) (semantic : Semantic)
    (method : String) (content : Text) : List Item → List Item × Text
  | [] => ([deltaItem budget turnID itemID semantic method content], clip budget content)
  | item :: rest =>
      if item.itemId = itemID then
        (extendItem budget content item :: rest,
          if (deltaTarget item.content).isSome then clip budget content else [])
      else
        let (rest, carried) := applyItemDelta budget turnID itemID semantic method content rest
        (item :: rest, carried)

def findItem (itemID : String) (view : CurrentView) : Option Item :=
  view.activeTurn.bind fun turn => turn.items.find? fun item => item.itemId = itemID

def applyCodexParams (params : CodexParams) (codex : Codex) : Codex :=
  { codex with
    title := params.title.getD codex.title
    status := match params.status with
      | some .idle => .idle
      | some .active => if codex.status = .idle then .running else codex.status
      | some .error => .error
      | none => codex.status }

/-- The clipped message of an event goes back to the view that shares it. -/
def shareInto (body : EventBody) (view : CurrentView) : CurrentView :=
  match body with
  | .itemStarted item | .itemUpdated item | .itemCompleted item =>
      onTurn (fun turn => { turn with items := upsertItem item turn.items }) view
  | .pendingRequestUpdated pending =>
      { view with pendingRequests := upsertPending pending view.pendingRequests }
  | _ => view

/-- The message of an event as the clipped view left it. -/
def shareFrom (view : CurrentView) (body : EventBody) : EventBody :=
  match body with
  | .itemStarted item => .itemStarted ((findItem item.itemId view).getD item)
  | .itemUpdated item => .itemUpdated ((findItem item.itemId view).getD item)
  | .itemCompleted item => .itemCompleted ((findItem item.itemId view).getD item)
  | .pendingRequestUpdated pending =>
      .pendingRequestUpdated ((view.pendingRequests.find? fun other =>
        pendingIDOf other = pendingIDOf pending).getD pending)
  | body => body

/-- The view that is clipped behind its event: it shares the message of the clipped event, and
says so if that one is incomplete. -/
def entering (sizes : Sizes) (configured : Int) (event : Event) (view : CurrentView) :
    CurrentView :=
  let bounded := boundCanonicalEvent sizes configured event
  let shared := shareInto bounded.body view
  match bounded.completeness with
  | none => shared
  | some complete =>
      onCodex (addBudgetWarning · "canonical_event")
        { shared with completeness := mergeCompleteness shared.completeness complete }

/-- The common end of `applyAdapterEventLocked` before it stores anything: event,
then view are clipped. -/
def clipBoth (sizes : Sizes) (configured : Int) (event : Event) (view : CurrentView) :
    CurrentView × Event :=
  let bounded := boundCanonicalEvent sizes configured event
  let clipped := boundCurrentView sizes configured (entering sizes configured event view)
  (clipped, { bounded with body := shareFrom clipped bounded.body })

/-- The view after a turn event that ends its turn. -/
def endedView (status : TurnStatus) (now : Int) (view : CurrentView) : CurrentView :=
  { onCodex (fun codex =>
      { codex with
        status := if status = .failed then .error else .idle
        activeTurnId := ""
        lastActivityAtUnixMs := now }) view with
    activeTurn := none }

/-- What `applyAdapterEventLocked` does to the view and the event it makes of a
notification, before clipping. `chunk` numbers the deltas of one item. -/
def applyBody (budget : Nat) (manualTitle : Bool) (chunk : Nat) (now : Int)
    (event : AdapterEvent) (view : CurrentView) :
    Option (CurrentView × EventBody × Option Completeness) :=
  match event.body with
  | .codexUpdated params =>
      let updated := onCodex (fun codex =>
        let applied := applyCodexParams params codex
        { applied with
          title := if manualTitle then codex.title else applied.title
          lastActivityAtUnixMs := now }) view
      updated.codex.map fun codex => (updated, .codexUpdated codex, none)
  | .turnUpdated status started completed failure =>
      let body := .turnUpdated event.turnID status started completed failure
      if status = .running then
        some (onTurn (fun turn =>
            { turn with
              startedAtUnixMs := if started = 0 then turn.startedAtUnixMs else started })
          (ensureActiveTurn now event.turnID view), body, none)
      else
        some (endedView status now view, body, none)
  | .itemStarted item =>
      some (placeItem now event.turnID item view, .itemStarted item, item.completeness)
  | .itemUpdated item =>
      some (placeItem now event.turnID item view, .itemUpdated item, item.completeness)
  | .itemCompleted item =>
      some (placeItem now event.turnID item view, .itemCompleted item, item.completeness)
  | .itemDelta semantic method stream content =>
      let turn := activeTurnFor now event.turnID view
      let (items, carried) :=
        applyItemDelta budget turn.turnId event.itemID semantic method content turn.items
      let extended := { view with activeTurn := some { turn with items := items } }
      let lost := (findItem event.itemID extended).bind Item.completeness
      let marked := onTurn (fun turn =>
        { turn with completeness := mergeCompleteness turn.completeness lost }) extended
      let delta := match semantic with
        | .commandOutput | .processOutput => .commandOutput stream carried
        | _ => .text carried
      some ({ marked with completeness := mergeCompleteness marked.completeness lost },
        .itemDelta event.turnID event.itemID chunk delta, (boundString content budget).2)
  | .pendingRequestUpdated pending =>
      some (onCodex (fun codex =>
          { codex with
            status := match pending with
              | .approval _ => .waitingForApproval
              | .userInput _ => .waitingForUserInput })
        { view with pendingRequests := upsertPending pending view.pendingRequests },
        .pendingRequestUpdated pending, none)
  | .warningRaised message method =>
      let warning : Warning :=
        { code := .unspecified, message := message
          metadata := [("vendor_method", text method)] }
      some (onCodex (fun codex => { codex with warnings := codex.warnings ++ [warning] }) view,
        .warningRaised warning, none)
  | .other => none

/-- The view and the event of a notification, ready to be stored. -/
def applyEvent (sizes : Sizes) (configured : Int) (manualTitle : Bool) (chunk : Nat) (now : Int)
    (codexID : String) (event : AdapterEvent) (view : CurrentView) :
    Option (CurrentView × Event) :=
  (applyBody (contentBudget configured) manualTitle chunk now event view).map
    fun (changed, body, complete) =>
      clipBoth sizes configured
        { codexId := codexID, occurredAtUnixMs := now, completeness := complete, body := body }
        { changed with generatedAtUnixMs := now }

/-- The view `setRunning` stores. -/
def runningView (sizes : Sizes) (configured : Int) (turnID : String) (now deadline : Int)
    (view : CurrentView) : CurrentView :=
  let managed := onCodex (fun codex =>
    { codex with
      status := if codex.status = .waitingForApproval ∨ codex.status = .waitingForUserInput
        then codex.status else .running
      activeTurnId := turnID
      lastActivityAtUnixMs := now
      managementState := .managed
      managedUntilUnixMs := deadline }) view
  let turn := activeTurnFor now turnID view
  boundCurrentView sizes configured
    { managed with
      activeTurn := some
        { turn with
          status := .running
          startedAtUnixMs := if turn.startedAtUnixMs = 0 then now else turn.startedAtUnixMs }
      generatedAtUnixMs := now }

/-- The item `publishAcceptedUserMessage` records for the user's input. -/
def acceptedItem (sizes : Sizes) (configured : Int) (turnID : String)
    (parts : List UserMessagePart) : Item :=
  (boundItem sizes
    { itemId := turnID ++ ":user-message", turnId := turnID, status := .completed
      content := .userMessage parts, completeness := none, provenance := .liveWire }
    (contentBudget configured)).1

/-- The view `publishAcceptedUserMessage` stores. -/
def acceptedView (now : Int) (turnID : String) (item : Item) (view : CurrentView) :
    CurrentView :=
  { placeItem now turnID item view with generatedAtUnixMs := now }

/-- Clipping an event and its view changes the Codex's and the turn's presentation
only. -/
theorem clipBoth_keeps (sizes : Sizes) (configured : Int) (event : Event) (view : CurrentView) :
    (clipBoth sizes configured event view).1.codex.map bareCodex = view.codex.map bareCodex ∧
      (clipBoth sizes configured event view).1.activeTurn.map bareTurn =
        view.activeTurn.map bareTurn := by
  have shared : ∀ body : EventBody, (shareInto body view).codex = view.codex ∧
      (shareInto body view).activeTurn.map bareTurn = view.activeTurn.map bareTurn := by
    intro body
    have placed : ∀ item : Item, (onTurn (fun turn =>
        { turn with items := upsertItem item turn.items }) view).activeTurn.map bareTurn =
          view.activeTurn.map bareTurn := by
      intro item
      cases turn : view.activeTurn <;> simp [onTurn, turn, bareTurn]
    cases body with
    | itemStarted item | itemUpdated item | itemCompleted item => exact ⟨rfl, placed item⟩
    | _ => exact ⟨rfl, rfl⟩
  dsimp only [clipBoth, entering]
  have clipped := boundCurrentView_keeps sizes configured
  obtain ⟨codex, turn⟩ := shared (boundCanonicalEvent sizes configured event).body
  split
  · exact ⟨(clipped _).codex.trans (by rw [codex]), (clipped _).turn.trans turn⟩
  have warned := onCodex_keeps (addBudgetWarning · "canonical_event")
  refine ⟨(clipped _).codex.trans ((warned _ fun codex =>
    addBudgetWarning_bare codex _).codex.trans ?_), (clipped _).turn.trans turn⟩
  rw [codex]

/-- Two views of the same Codex. -/
def SameCodex (view after : CurrentView) : Prop :=
  after.codex.map Codex.codexId = view.codex.map Codex.codexId

theorem sameCodex_of_bare (bare : after.codex.map bareCodex = view.codex.map bareCodex) :
    SameCodex view after := by
  unfold SameCodex
  cases before : view.codex <;> cases later : after.codex <;> simp_all [bareCodex]

theorem onCodex_same (view : CurrentView) (same : ∀ codex, (change codex).codexId = codex.codexId) :
    SameCodex view (onCodex change view) := by
  unfold SameCodex
  cases codex : view.codex <;> simp [onCodex, codex, same]

/-- What no notification changes of a Codex. -/
def fixedCodex (codex : Codex) : Codex :=
  { bareCodex codex with status := .idle, activeTurnId := "", lastActivityAtUnixMs := 0 }

theorem onCodex_fixed (view : CurrentView)
    (fixed : ∀ codex, fixedCodex (change codex) = fixedCodex codex) :
    (onCodex change view).codex.map fixedCodex = view.codex.map fixedCodex := by
  cases codex : view.codex <;> simp [onCodex, codex, fixed]

/-- The status that the arrival of a request sets. -/
def waitsFor : PendingRequest → CodexStatus
  | .approval _ => .waitingForApproval
  | .userInput _ => .waitingForUserInput

/-- The ways in which a notification changes a view. Items, deltas and the start of a turn all
put a turn of the notification's id in the place of the active one. -/
inductive Changes (now : Int) (event : AdapterEvent) (view : CurrentView) : CurrentView → Prop
  | params (params : CodexParams) (title : Codex → Text) (is : event.body = .codexUpdated params) :
      Changes now event view (onCodex (fun codex =>
        { applyCodexParams params codex with
          title := title codex, lastActivityAtUnixMs := now }) view)
  | worked (turn : TurnSnapshot) (complete : Option Completeness)
      (same : turn.turnId = event.turnID) (goes : event.terminal = false) :
      Changes now event view { view with activeTurn := some turn, completeness := complete }
  | ended (status : TurnStatus) (ends : event.terminal = true) :
      Changes now event view (endedView status now view)
  | asked (pending : PendingRequest) (is : event.body = .pendingRequestUpdated pending) :
      Changes now event view (onCodex (fun codex => { codex with status := waitsFor pending })
        { view with pendingRequests := upsertPending pending view.pendingRequests })
  | warned (warning : Warning) (goes : event.terminal = false) :
      Changes now event view
        (onCodex (fun codex => { codex with warnings := codex.warnings ++ [warning] }) view)

theorem activeTurnFor_turnId (now : Int) (turnID : String) (view : CurrentView) :
    (activeTurnFor now turnID view).turnId = turnID := by
  unfold activeTurnFor
  split
  · split
    · assumption
    · rfl
  · rfl

variable {event : AdapterEvent}

theorem applyBody_changes {body : EventBody}
    (placed : applyBody budget manualTitle chunk now event view =
      some (changed, body, complete)) : Changes now event view changed := by
  have turn := activeTurnFor_turnId now event.turnID view
  unfold applyBody at placed
  split at placed
  · next params is =>
    obtain ⟨codex, -, rest⟩ := map_eq_some_iff.mp placed
    cases rest
    exact .params params _ is
  · next status started completed failure is =>
    split at placed <;> obtain ⟨rfl, -⟩ := Prod.mk.inj (some.inj placed)
    · next runs => exact .worked _ _ turn (by simp [terminal, is, runs])
    · next ends => exact .ended status (by simp [terminal, is, ends])
  · next pending is =>
    cases placed
    exact .worked _ _ turn (by simp [terminal, is])
  · next pending is =>
    cases placed
    exact .worked _ _ turn (by simp [terminal, is])
  · next pending is =>
    cases placed
    exact .worked _ _ turn (by simp [terminal, is])
  · next is =>
    cases placed
    exact .worked _ _ turn (by simp [terminal, is])
  · next pending is =>
    cases placed
    exact .asked pending is
  · next is =>
    cases placed
    exact .warned _ (by simp [terminal, is])
  · cases placed

theorem Changes.fixed (changes : Changes now event view changed) :
    changed.codex.map fixedCodex = view.codex.map fixedCodex := by
  cases changes with
  | worked => rfl
  | params | ended => exact onCodex_fixed view fun _ => rfl
  | asked => exact onCodex_fixed _ fun _ => rfl
  | warned => exact onCodex_fixed view fun _ => rfl

section

variable (applied : applyEvent sizes configured manualTitle chunk now codexID event view =
  some (after, published))
include applied

/-- A notification leaves identity, origin and lease of the Codex alone. -/
theorem applyEvent_fixed : after.codex.map fixedCodex = view.codex.map fixedCodex := by
  obtain ⟨⟨changed, body, complete⟩, placed, clipped⟩ := map_eq_some_iff.mp applied
  have clip := (clipBoth_keeps sizes configured
    { codexId := codexID, occurredAtUnixMs := now, completeness := complete, body := body }
    { changed with generatedAtUnixMs := now }).1
  dsimp only at clipped
  rw [clipped] at clip
  -- Clipping keeps more than is claimed here: status and activity as well.
  have through : ∀ codex : Option Codex, codex.map fixedCodex =
      (codex.map bareCodex).map fixedCodex := by
    rintro (_ | codex) <;> rfl
  rw [through after.codex, clip, ← through]
  exact (applyBody_changes placed).fixed

/-- A notification never changes which Codex a view is of. -/
theorem applyEvent_same : SameCodex view after := by
  have fixed := applyEvent_fixed applied
  have through : ∀ codex : Option Codex, codex.map Codex.codexId =
      (codex.map fixedCodex).map Codex.codexId := by
    rintro (_ | codex) <;> rfl
  unfold SameCodex
  rw [through, fixed, ← through]

/-- The event made of a notification is one of the Codex it was applied to. -/
theorem applyEvent_codexId : published.codexId = codexID := by
  obtain ⟨⟨changed, body, complete⟩, -, clipped⟩ := map_eq_some_iff.mp applied
  cases clipped
  exact boundCanonicalEvent_codexId sizes configured _

end

/-- Marking a Codex as running keeps it the same Codex, with an active turn. -/
theorem runningView_keeps (sizes : Sizes) (configured : Int) (turnID : String)
    (now deadline : Int) (view : CurrentView) :
    SameCodex view (runningView sizes configured turnID now deadline view) := by
  have kept := boundCurrentView_keeps sizes configured
  refine (sameCodex_of_bare (kept _).codex).trans ?_
  exact onCodex_same view fun _ => rfl

/-- No turn is active and the Codex does not look busy with one. -/
structure Quiet (view : CurrentView) : Prop where
  activeTurn : view.activeTurn = none
  codex : ∀ codex, view.codex = some codex →
    codex.activeTurnId = "" ∧ codex.status ≠ .running

/-- A view that differs from an ended one in presentation is quiet. -/
theorem ended_quiet
    (codex : after.codex.map bareCodex = (endedView status now view).codex.map bareCodex)
    (turn : after.activeTurn.map bareTurn =
      (endedView status now view).activeTurn.map bareTurn) : Quiet after := by
  refine ⟨map_eq_none_iff.mp turn, ?_⟩
  intro later present
  rw [present] at codex
  cases original : view.codex with
  | none => simp [endedView, onCodex, original] at codex
  | some old =>
    simp only [endedView, onCodex, original, map_some, some.injEq, bareCodex,
      Codex.mk.injEq] at codex
    obtain ⟨-, -, -, -, -, status, turnID, -⟩ := codex
    refine ⟨turnID, ?_⟩
    rw [status]
    split <;> decide

/-- A terminal event leaves a quiet view. -/
theorem applyEvent_terminal (sizes : Sizes) (configured : Int) (manualTitle : Bool) (chunk : Nat)
    (now : Int) (codexID : String) (view : CurrentView) (terminal : event.terminal = true) :
    ∃ after published, applyEvent sizes configured manualTitle chunk now codexID event view =
      some (after, published) ∧ Quiet after := by
  unfold AdapterEvent.terminal at terminal
  split at terminal
  · next status started completed failure body =>
    have ended : status ≠ .running := of_decide_eq_true terminal
    let published : Event :=
      { codexId := codexID, occurredAtUnixMs := now
        body := .turnUpdated event.turnID status started completed failure }
    let stamped := { endedView status now view with generatedAtUnixMs := now }
    have applied : applyEvent sizes configured manualTitle chunk now codexID event view =
        some (clipBoth sizes configured published stamped) := by
      simp only [applyEvent, applyBody, body, ended, if_false, map_some]
      rfl
    obtain ⟨codex, turn⟩ := clipBoth_keeps sizes configured published stamped
    exact ⟨_, _, applied, ended_quiet codex turn⟩
  · cases terminal

end CodexRemote.Codexes
