import CodexRemote.Views

/-!
# The texts of views and events

ProtoJSON encodes a message exactly when every string in it is valid UTF-8. Identities are
strings and valid as such; the texts of a message are listed here, so that "every string"
is a statement about one list.

Clipping is the easy half: whatever it is given, each text it leaves is one it was given,
an empty one, a literal of the program, or one cut at a valid boundary. That is `Trims`, and
it needs no assumption. The other half is `applyBody`, where texts come in: a delta is put
behind the text an item has, and both have to be valid.
-/
namespace CodexRemote.Protocol

open List Option Completeness

def Completeness.texts (complete : Completeness) : List Text := [complete.reason]

def Warning.texts (warning : Warning) : List Text :=
  warning.message :: warning.metadata.map Prod.snd

def Error.texts (failure : Error) : List Text := failure.message :: failure.metadata.map Prod.snd

def Codex.texts (codex : Codex) : List Text :=
  codex.title :: codex.warnings.flatMap Warning.texts

def UserMessagePart.texts : UserMessagePart → List Text
  | .text content => [content]
  | .image descriptor => [descriptor.filename]

def PlanStep.texts (step : PlanStep) : List Text := [step.text, step.status]

def FileChange.texts (change : FileChange) : List Text :=
  [change.path, change.oldPath, change.newPath]

def ItemContent.texts : ItemContent → List Text
  | .userMessage parts => parts.flatMap UserMessagePart.texts
  | .agentMessage message => [message]
  | .reasoningSummary summary => [summary]
  | .plan steps => steps.flatMap PlanStep.texts
  | .command argv cwd output _ => cwd :: output :: argv
  | .tool toolName summary resultSummary => [toolName, summary, resultSummary]
  | .fileChange changes unifiedDiff => unifiedDiff :: changes.flatMap FileChange.texts

/-- The texts of a message that may be absent. -/
def textsOf {Message : Type} (texts : Message → List Text) (message : Option Message) :
    List Text :=
  message.toList.flatMap texts

def Item.texts (item : Item) : List Text :=
  item.content.texts ++ textsOf Completeness.texts item.completeness

def TurnSnapshot.texts (turn : TurnSnapshot) : List Text :=
  textsOf Error.texts turn.failure ++ turn.items.flatMap Item.texts ++
    textsOf Completeness.texts turn.completeness

def Approval.texts (request : Approval) : List Text :=
  request.title :: request.explanation :: request.command

def UserInputOption.texts (option : UserInputOption) : List Text :=
  [option.label, option.description]

def UserInputQuestion.texts (question : UserInputQuestion) : List Text :=
  question.header :: question.prompt :: question.options.flatMap UserInputOption.texts

def UserInputRequestState.texts (request : UserInputRequestState) : List Text :=
  request.questions.flatMap UserInputQuestion.texts ++
    request.resolvedAnswers.map UserInputAnswer.freeFormText ++
    textsOf Completeness.texts request.completeness

def PendingRequest.texts : PendingRequest → List Text
  | .approval request => request.texts
  | .userInput request => request.texts

def CurrentView.texts (view : CurrentView) : List Text :=
  textsOf Codex.texts view.codex ++ textsOf TurnSnapshot.texts view.activeTurn ++
    view.pendingRequests.flatMap PendingRequest.texts ++
    textsOf Completeness.texts view.completeness

def ItemDeltaContent.texts : ItemDeltaContent → List Text
  | .text content => [content]
  | .commandOutput _ content => [content]

def EventBody.texts : EventBody → List Text
  | .codexUpdated codex => codex.texts
  | .turnUpdated _ _ _ _ failure => textsOf Error.texts failure
  | .itemStarted item | .itemUpdated item | .itemCompleted item => item.texts
  | .itemDelta _ _ _ content => content.texts
  | .pendingRequestUpdated request => request.texts
  | .warningRaised warning => warning.texts
  | .workspaceAccessStateUpdated _ | .codexForgotten => []

def Event.texts (event : Event) : List Text :=
  textsOf Completeness.texts event.completeness ++ event.body.texts

end CodexRemote.Protocol

namespace CodexRemote.Encoding

open Protocol Budget Codexes List Option Completeness
open List (forall_mem_cons mem_append mem_flatMap)

variable {Value Message : Type} {codex : Codex} {view : CurrentView}
  {change : TurnSnapshot → TurnSnapshot} {content : Text} {item : Item} {manualTitle : Bool}
  {chunk : Nat} {now : Int} {event : AdapterEvent}

/-- Every text is valid UTF-8. -/
def Valid (texts : List Text) : Prop := ∀ value ∈ texts, Utf8.valid value = true

theorem valid_append_iff (first second : List Text) :
    Valid (first ++ second) ↔ Valid first ∧ Valid second :=
  forall_mem_append

theorem Valid.append (left : Valid first) (right : Valid second) :
    Valid (first ++ second) :=
  (valid_append_iff ..).mpr ⟨left, right⟩

/-- `protojson.Marshal` of a view succeeds. -/
def encodes (view : CurrentView) : Bool := view.texts.all Utf8.valid

theorem encodes_iff (view : CurrentView) : encodes view = true ↔ Valid view.texts :=
  all_eq_true

/-- Each of the later texts is one of the earlier or valid. -/
def Trims (before after : List Text) : Prop :=
  ∀ value ∈ after, value ∈ before ∨ Utf8.valid value = true

section Trims

variable {before after first second third fourth : List Text}

theorem Trims.of_subset (subset : after ⊆ before) : Trims before after :=
  fun _ member => .inl (subset member)

theorem Trims.refl (texts : List Text) : Trims texts texts := .of_subset fun _ => id

theorem Trims.of_valid (valid : Valid after) : Trims before after :=
  fun value member => .inr (valid value member)

theorem Trims.nil : Trims before [] := .of_subset (nil_subset before)

theorem Trims.trans (left : Trims first second) (right : Trims second third) :
    Trims first third := by
  intro value member
  obtain kept | valid := right value member
  · exact left value kept
  · exact .inr valid

theorem Trims.append (left : Trims first second) (right : Trims third fourth) :
    Trims (first ++ third) (second ++ fourth) := by
  intro value member
  rcases mem_append.mp member with member | member
  · exact (left value member).imp_left (mem_append_left third)
  · exact (right value member).imp_left (mem_append_right first)

theorem Trims.both (left : Trims before first) (right : Trims before second) :
    Trims before (first ++ second) := by
  intro value member
  rcases mem_append.mp member with member | member
  · exact left value member
  · exact right value member

/-- A part of the texts that is trimmed beside others, with texts from outside. -/
theorem Trims.within (left right : List Text) (part : Trims (outside ++ before) after) :
    Trims (outside ++ (left ++ before ++ right)) (left ++ after ++ right) := by
  intro value member
  have found := part value
  simp only [mem_append] at member found ⊢
  grind

theorem Trims.cons {new : Text} (head : old = new ∨ Utf8.valid new = true)
    (rest : Trims before after) : Trims (old :: before) (new :: after) := by
  intro value member
  rcases mem_cons.mp member with rfl | member
  · rcases head with rfl | valid
    · exact .inl mem_cons_self
    · exact .inr valid
  · exact (rest value member).imp_left (mem_cons_of_mem old)

theorem Trims.valid (trims : Trims before after) (valid : Valid before) : Valid after := by
  intro value member
  obtain kept | valid' := trims value member
  · exact valid value kept
  · exact valid'

/-- A list each of whose members is trimmed. -/
theorem Trims.map (texts : Value → List Text) (change : Value → Value) (values : List Value)
    (each : ∀ value, Trims (texts value) (texts (change value))) :
    Trims (values.flatMap texts) ((values.map change).flatMap texts) := by
  induction values with
  | nil => exact .nil
  | cons value rest ih => exact .append (each value) ih

/-- Members that are left out. -/
theorem Trims.members (texts : Value → List Text) {kept : List Value} (subset : kept ⊆ values) :
    Trims (values.flatMap texts) (kept.flatMap texts) := by
  refine .of_subset ?_
  intro value member
  obtain ⟨owner, kept, found⟩ := mem_flatMap.mp member
  exact mem_flatMap.mpr ⟨owner, subset kept, found⟩

theorem Trims.option (texts : Message → List Text) (change : Message → Message)
    (message : Option Message) (each : ∀ value, Trims (texts value) (texts (change value))) :
    Trims (textsOf texts message) (textsOf texts (message.map change)) := by
  cases message with
  | none => exact .nil
  | some value => exact .append (each value) .nil

end Trims

theorem valid_literal (literal : String) : Utf8.valid (text literal) = true :=
  Utf8.valid_string ..

variable (value : Text) (sizes : Sizes) (configured : Int) (pending : PendingRequest)
  (body : EventBody) (budget : Nat)

/-- Stepping back ends at a valid boundary. -/
theorem stepBack_valid (length : Nat) :
    Utf8.valid (stepBack value length) = true := by
  induction length with
  | zero => rfl
  | succ length ih =>
    unfold stepBack
    split
    · assumption
    · exact ih

theorem validUTF8Prefix_valid :
    value = validUTF8Prefix value budget ∨ Utf8.valid (validUTF8Prefix value budget) = true := by
  unfold validUTF8Prefix
  split
  · exact .inl rfl
  · exact .inr (stepBack_valid ..)

theorem boundString_valid :
    value = (boundString value budget).1 ∨ Utf8.valid (boundString value budget).1 = true := by
  unfold boundString
  dsimp only
  split
  · exact .inl rfl
  · exact validUTF8Prefix_valid ..

theorem clip_valid (value : Text) :
    value = clip budget value ∨ Utf8.valid (clip budget value) = true :=
  boundString_valid ..

theorem clip_trims (value : Text) : Trims [value] [clip budget value] :=
  .cons (clip_valid ..) .nil

/-- What is said of a text that is cut. -/
theorem boundString_remark :
    Valid (textsOf Completeness.texts (boundString value budget).2) := by
  unfold boundString
  dsimp only
  split
  · intro remark member
    cases member
  · simpa [Valid, textsOf, texts] using valid_literal _

theorem mergeCompleteness_trims (dst src : Option Completeness) :
    Trims (textsOf Completeness.texts dst ++ textsOf Completeness.texts src)
      (textsOf Completeness.texts (mergeCompleteness dst src)) := by
  refine .of_subset ?_
  cases src with
  | none => simp [mergeCompleteness]
  | some src =>
    cases dst with
    | none => simp [mergeCompleteness]
    | some dst =>
      simp only [mergeCompleteness]
      split <;> simp [textsOf, texts]

/-- Completeness that is merged with a valid one. -/
theorem mergeCompleteness_with (dst : Option Completeness)
    (valid : Valid (textsOf Completeness.texts src)) :
    Trims (textsOf Completeness.texts dst)
      (textsOf Completeness.texts (mergeCompleteness dst src)) :=
  .trans (.both (.refl _) (.of_valid valid)) (mergeCompleteness_trims dst src)

/-- Completeness that is merged with a remark of the program's own. -/
theorem mergeCompleteness_own (dst : Option Completeness) (own : Completeness)
    (valid : Utf8.valid own.reason = true) :
    Trims (textsOf Completeness.texts dst)
      (textsOf Completeness.texts (mergeCompleteness dst (some own))) := by
  refine mergeCompleteness_with dst ?_
  simpa [Valid, textsOf, texts] using valid

theorem budgetCompleteness_valid (original : Nat) (reason : String) :
    Utf8.valid (budgetCompleteness original reason).reason = true :=
  valid_literal ..

theorem boundedProtoPrefix_subset (values : List Value) (minimum : Nat) (fits : List Value → Bool) :
    boundedProtoPrefix values minimum fits ⊆ values := by
  unfold boundedProtoPrefix
  dsimp only
  split
  · exact fun _ => id
  split
  · exact take_subset _ _
  · exact take_subset _ _

/-- A list of texts clipped one by one. -/
theorem clips_trims (values : List Text) :
    Trims values (values.map (clip budget)) := by
  induction values with
  | nil => exact .nil
  | cons value rest ih => exact .cons (clip_valid budget value) ih

theorem clipPart_trims (part : UserMessagePart) :
    Trims part.texts (clipPart budget part).texts := by
  cases part with
  | text content => exact clip_trims budget content
  | image descriptor => exact .refl _

theorem clipContent_trims (perField : Nat) (fits : ItemContent → Bool) (content : ItemContent) :
    Trims content.texts (clipContent perField fits content).texts := by
  have clipped := clip_valid perField
  cases content with
  | userMessage parts =>
    refine .trans ?_ (.members UserMessagePart.texts (boundedProtoPrefix_subset ..))
    exact .map UserMessagePart.texts _ parts (clipPart_trims perField)
  | agentMessage message => exact clip_trims perField message
  | reasoningSummary summary => exact clip_trims perField summary
  | plan steps =>
    have each : ∀ step : PlanStep, Trims step.texts
        [clip perField step.text, clip (max (perField / 2) 1) step.status] := by
      intro step
      exact .cons (clipped step.text) (clip_trims _ step.status)
    refine .trans ?_ (.members PlanStep.texts (boundedProtoPrefix_subset ..))
    exact .map PlanStep.texts _ steps each
  | command argv cwd output exitCode =>
    refine .cons (clipped cwd) (.cons (clipped output) ?_)
    exact .trans (clips_trims perField argv) (.of_subset (boundedProtoPrefix_subset ..))
  | tool toolName summary resultSummary =>
    exact .cons (clipped toolName) (.cons (clipped summary) (clip_trims perField resultSummary))
  | fileChange changes unifiedDiff =>
    have each : ∀ change : FileChange, Trims change.texts
        [clip perField change.path, clip perField change.oldPath,
          clip perField change.newPath] := by
      intro change
      exact .cons (clipped change.path) (.cons (clipped change.oldPath)
        (clip_trims perField change.newPath))
    refine .cons (clipped unifiedDiff) ?_
    refine .trans ?_ (.members FileChange.texts (boundedProtoPrefix_subset ..))
    exact .map FileChange.texts _ changes each

/-- The message a bound leaves, and what it says of completeness, bring in nothing invalid. -/
def Bounds {Message : Type} (texts : Message → List Text) (message : Message)
    (bounded : Message × Option Completeness) : Prop :=
  Trims (texts message) (texts bounded.1) ∧ Valid (textsOf Completeness.texts bounded.2)

theorem bounds_none (texts : Message → List Text) (message : Message) :
    Bounds texts message (message, none) :=
  ⟨.refl _, fun _ member => by cases member⟩

theorem bounds_budget {texts : Message → List Text} (original : Nat) (reason : String)
    (trims : Trims (texts message) (texts bounded)) :
    Bounds texts message (bounded, some (budgetCompleteness original reason)) := by
  refine ⟨trims, ?_⟩
  simpa [Valid, textsOf, Completeness.texts] using budgetCompleteness_valid ..

theorem boundItem_bounds (item : Item) (budget : Nat) :
    Bounds Item.texts item (boundItem sizes item budget) := by
  unfold boundItem
  split
  · exact bounds_none _ _
  have marked := mergeCompleteness_own item.completeness
    (budgetCompleteness (sizes.item item) "item fields or collection exceed C/S frame budget")
    (budgetCompleteness_valid _ _)
  refine bounds_budget _ _ (.append ?_ marked)
  dsimp only
  apply clipContent_trims

theorem firstByte_valid :
    value = firstByte value ∨ Utf8.valid (firstByte value) = true :=
  validUTF8Prefix_valid ..

theorem firstWord_trims (words : List Text) : Trims words (firstWord words) := by
  cases words with
  | nil => exact .nil
  | cons word rest => exact .cons (firstByte_valid word) (.refl rest)

/-- One of two messages, as a condition decides. -/
theorem Trims.either (texts : Message → List Text) (condition : Prop) [Decidable condition]
    (left : Trims before (texts first)) (right : Trims before (texts second)) :
    Trims before (texts (if condition then first else second)) := by
  split
  · exact left
  · exact right

theorem boundApproval_trims (request : Approval) (budget : Nat) :
    Trims request.texts (boundApproval sizes request budget).texts := by
  unfold boundApproval
  extract_lets perField clipped cut
  have shorter : Trims request.texts cut.texts := by
    refine .cons (clip_valid _ _) (.cons (clip_valid _ _) ?_)
    refine .trans (clips_trims perField request.command) (.of_subset ?_)
    dsimp only [cut]
    apply boundedProtoPrefix_subset
  refine .either Approval.texts _ shorter (shorter.trans ?_)
  exact .cons (firstByte_valid _) (.cons (firstByte_valid _) (firstWord_trims _))

theorem bareQuestion_trims (question : UserInputQuestion) :
    Trims question.texts (bareQuestion question).texts := by
  refine .cons (.inr rfl) (.cons (.inr rfl) ?_)
  refine .map UserInputOption.texts _ question.options ?_
  intro option
  exact .cons (.inl rfl) (.cons (.inr rfl) .nil)

theorem clipQuestion_trims (question : UserInputQuestion) :
    Trims question.texts (clipQuestion budget question).texts := by
  refine .cons (clip_valid _ _) (.cons (clip_valid _ _) ?_)
  refine .map UserInputOption.texts _ question.options ?_
  intro option
  exact .cons (clip_valid _ _) (clip_trims _ _)

/-- The reason of a completeness replaced by a literal. -/
theorem reason_trims (complete : Option Completeness) (literal : String) :
    Trims (textsOf Completeness.texts complete) (textsOf Completeness.texts
      (complete.map fun complete => { complete with reason := text literal })) := by
  refine .option texts _ complete ?_
  intro value
  exact .cons (.inr (valid_literal ..)) .nil

theorem boundUserInput_trims (request : UserInputRequestState) (budget : Nat)
    (valid : Utf8.valid complete.reason = true) :
    Trims request.texts (boundUserInput sizes request budget complete).texts := by
  unfold boundUserInput
  extract_lets perField clipped bare
  have answers : Trims (request.resolvedAnswers.map UserInputAnswer.freeFormText)
      (clipped.resolvedAnswers.map UserInputAnswer.freeFormText) := by
    have each := clips_trims perField (request.resolvedAnswers.map UserInputAnswer.freeFormText)
    simp only [clipped, List.map_map] at each ⊢
    exact each
  have shorter : Trims request.texts clipped.texts :=
    .append (.append (.map UserInputQuestion.texts _ _ (clipQuestion_trims perField))
      answers) (mergeCompleteness_own request.completeness complete valid)
  have barer : Trims clipped.texts bare.texts := by
    refine .either UserInputRequestState.texts _ (.refl _) ?_
    exact .append (.append (.map UserInputQuestion.texts _ _ bareQuestion_trims)
      (.refl _)) (.refl _)
  refine (shorter.trans barer).trans (.either UserInputRequestState.texts _ (.refl _) ?_)
  exact .append (.refl _) (reason_trims _ _)

theorem boundPendingRequest_bounds :
    Bounds PendingRequest.texts pending (boundPendingRequest sizes pending budget) := by
  unfold boundPendingRequest
  split
  · exact bounds_none _ _
  refine bounds_budget _ _ ?_
  cases pending with
  | approval request => exact boundApproval_trims sizes request budget
  | userInput request =>
    exact boundUserInput_trims sizes request budget (budgetCompleteness_valid _ _)

theorem clipMetadata_trims (metadata : List (String × Text)) :
    Trims (metadata.map Prod.snd) ((clipMetadata budget metadata).map Prod.snd) := by
  have same := clips_trims budget (metadata.map Prod.snd)
  rw [List.map_map] at same
  unfold clipMetadata
  rw [List.map_map]
  exact same

theorem boundWarning_bounds (warning : Warning) (budget : Nat) :
    Bounds Warning.texts warning (boundWarning sizes warning budget) := by
  have clipped : Trims warning.texts (clip (max (budget / 3) 1) warning.message ::
      (clipMetadata (max (budget / 8) 1) warning.metadata).map Prod.snd) :=
    .cons (clip_valid _ _) (clipMetadata_trims _ _)
  unfold boundWarning
  split
  · exact bounds_none _ _
  refine bounds_budget _ _ ?_
  split
  · exact clipped
  · exact .cons (clip_valid _ _) .nil

theorem boundError_bounds (failure : Error) (budget : Nat) :
    Bounds Error.texts failure (boundError sizes failure budget) := by
  unfold boundError
  split
  · exact bounds_none _ _
  · refine bounds_budget _ _ ?_
    exact .cons (clip_valid _ _) (clipMetadata_trims _ _)

theorem boundCodex_bounds (codex : Codex) (budget : Nat) :
    Bounds Codex.texts codex (boundCodex sizes codex budget) := by
  have warnings := Trims.map Warning.texts
    (fun warning => (boundWarning sizes warning (max (budget / 4) 1)).1) codex.warnings
    fun warning => (boundWarning_bounds ..).1
  unfold boundCodex
  split
  · exact bounds_none _ _
  refine bounds_budget _ _ ?_
  split
  · exact .cons (clip_valid _ _) warnings
  · exact .cons (clip_valid _ _) .nil

theorem boundBody_bounds (target : Nat) :
    Bounds EventBody.texts body (boundBody sizes body target) := by
  unfold boundBody
  split
  · exact boundItem_bounds sizes _ target
  · exact boundItem_bounds sizes _ target
  · exact boundItem_bounds sizes _ target
  · exact ⟨.cons (boundString_valid _ _) .nil, boundString_remark _ _⟩
  · exact ⟨.cons (boundString_valid _ _) .nil, boundString_remark _ _⟩
  · exact boundPendingRequest_bounds sizes _ target
  · exact boundWarning_bounds sizes _ target
  · next failure =>
    obtain ⟨trims, valid⟩ := boundError_bounds sizes failure target
    exact ⟨.append trims .nil, valid⟩
  · exact boundCodex_bounds sizes _ target
  · exact bounds_none _ _

theorem strictBody_bounds (strict : Nat) :
    Bounds EventBody.texts body (strictBody sizes body strict) := by
  unfold strictBody
  split
  · exact bounds_none _ _
  · exact bounds_none _ _
  · exact bounds_none _ _
  · exact boundBody_bounds ..

theorem mergeCompleteness_valid (left : Valid (textsOf Completeness.texts dst))
    (right : Valid (textsOf Completeness.texts src)) :
    Valid (textsOf Completeness.texts (mergeCompleteness dst src)) :=
  (mergeCompleteness_with dst right).valid left

theorem boundCanonicalEvent_trims (event : Event) :
    Trims event.texts (boundCanonicalEvent sizes configured event).texts := by
  unfold boundCanonicalEvent
  extract_lets budget
  refine .either Event.texts _ (.refl _) ?_
  have once := boundBody_bounds sizes event.body (max (budget - 512) (budget / 2))
  generalize boundBody sizes event.body _ = bounded at once ⊢
  obtain ⟨body, remark⟩ := bounded
  dsimp only
  have twice : Bounds EventBody.texts event.body
      (if sizes.event { event with body := body } ≤ budget then (body, remark)
        else ((strictBody sizes body (max (budget / 4) 1)).1,
          mergeCompleteness remark (strictBody sizes body (max (budget / 4) 1)).2)) := by
    split
    · exact once
    · obtain ⟨trims, valid⟩ := strictBody_bounds sizes body (max (budget / 4) 1)
      exact ⟨once.1.trans trims, mergeCompleteness_valid once.2 valid⟩
  generalize (if sizes.event _ ≤ budget then (body, remark) else _) = bounded at twice ⊢
  obtain ⟨body, remark⟩ := bounded
  obtain ⟨trims, valid⟩ := twice
  have noted : Valid (textsOf texts (mergeCompleteness remark (some
      (budgetCompleteness (sizes.event event) "canonical event exceeds C/S frame budget")))) := by
    refine mergeCompleteness_valid valid ?_
    simpa [Valid, textsOf, texts] using budgetCompleteness_valid _ _
  have marked := mergeCompleteness_with event.completeness noted
  refine .either Event.texts _ (.append marked trims) ?_
  exact .append (marked.trans (reason_trims _ _)) trims

theorem addBudgetWarning_trims (codex : Codex) (scope : String) :
    Trims codex.texts (addBudgetWarning codex scope).texts := by
  unfold addBudgetWarning
  refine .either Codex.texts _ (.refl _) ?_
  refine .cons (.inl rfl) ?_
  rw [flatMap_append]
  refine .both (.refl _) (.of_valid ?_)
  simp [Valid, Warning.texts, valid_literal]

/-- A Codex that loses warnings. -/
theorem warnings_trims (subset : kept ⊆ codex.warnings) :
    Trims codex.texts { codex with warnings := kept }.texts :=
  .cons (.inl rfl) (.members Warning.texts subset)

theorem minimizePendingPresentation_trims :
    Trims pending.texts (minimizePendingPresentation pending).texts := by
  cases pending with
  | approval request =>
    refine .cons (firstByte_valid _) (.cons (firstByte_valid _) ?_)
    exact .trans (.of_subset (take_subset _ _)) (firstWord_trims _)
  | userInput request =>
    exact .append (.append (.map UserInputQuestion.texts _ _ bareQuestion_trims)
      (.refl _)) (.refl _)

/-- The first member of a list, emptied. -/
theorem onlyFirst_trims {texts : Value → List Text} (values : List Value)
    (each : ∀ value, Trims (texts value) (texts (empty value))) :
    Trims (values.flatMap texts) ((onlyFirst empty values).flatMap texts) :=
  .trans (.members texts (take_subset 1 values)) (.map texts empty _ each)

theorem minimizeContent_trims (content : ItemContent) :
    Trims content.texts (minimizeContent content).texts := by
  have gone : ∀ {old : Text} {before after}, Trims before after →
      Trims (old :: before) ([] :: after) := fun rest => .cons (.inr rfl) rest
  cases content with
  | userMessage parts =>
    refine onlyFirst_trims parts ?_
    intro part
    cases part with
    | text content => exact gone .nil
    | image descriptor => exact .refl _
  | agentMessage message | reasoningSummary summary => exact gone .nil
  | plan steps =>
    refine onlyFirst_trims steps ?_
    intro step
    exact gone (.refl _)
  | command argv cwd output exitCode =>
    refine gone (gone (.of_valid ?_))
    intro value member
    obtain ⟨word, -, rfl⟩ := mem_map.mp member
    rfl
  | tool toolName summary resultSummary => exact .cons (.inl rfl) (gone (gone .nil))
  | fileChange changes unifiedDiff =>
    refine gone (onlyFirst_trims changes ?_)
    intro change
    exact gone (gone (gone .nil))

theorem minimizeItemPresentation_trims (item : Item) :
    Trims item.texts (minimizeItemPresentation item).texts :=
  .append (minimizeContent_trims item.content)
    (mergeCompleteness_own item.completeness _ (valid_literal "frame budget"))

/-- Members bounded in order, with what is said of them. -/
theorem boundEach_trims {texts : Value → List Text}
    (each : ∀ value, Bounds texts value (bound value)) (values : List Value)
    (complete : Option Completeness) :
    Trims (values.flatMap texts) ((boundEach bound values complete).1.flatMap texts) ∧
      Trims (textsOf Completeness.texts complete)
        (textsOf Completeness.texts (boundEach bound values complete).2) := by
  induction values generalizing complete with
  | nil => exact ⟨.nil, .refl _⟩
  | cons value rest ih =>
    obtain ⟨members, remarks⟩ := ih (mergeCompleteness complete (bound value).2)
    refine ⟨.append (each value).1 members, ?_⟩
    exact (mergeCompleteness_with complete (each value).2).trans remarks

/-- A view whose parts are trimmed one by one. -/
theorem view_trims {view after : CurrentView}
    (codex : Trims (textsOf Codex.texts view.codex) (textsOf Codex.texts after.codex))
    (turn : Trims (textsOf TurnSnapshot.texts view.activeTurn)
      (textsOf TurnSnapshot.texts after.activeTurn))
    (pendings : Trims (view.pendingRequests.flatMap PendingRequest.texts)
      (after.pendingRequests.flatMap PendingRequest.texts))
    (complete : Trims (textsOf Completeness.texts view.completeness)
      (textsOf Completeness.texts after.completeness)) : Trims view.texts after.texts := by
  have messages := codex.append turn
  exact (messages.append pendings).append complete

/-- A change of the Codex trims the view if it trims the Codex. -/
theorem onCodex_trims {change : Codex → Codex} (view : CurrentView)
    (each : ∀ codex, Trims codex.texts (change codex).texts) :
    Trims view.texts (onCodex change view).texts := by
  have codex := Trims.option Codex.texts change view.codex each
  exact view_trims codex (.refl _) (.refl _) (.refl _)

/-- A change of the active turn, likewise. -/
theorem onTurn_trims {change : TurnSnapshot → TurnSnapshot} (view : CurrentView)
    (each : ∀ turn, Trims turn.texts (change turn).texts) :
    Trims view.texts { view with activeTurn := view.activeTurn.map change }.texts := by
  have turn := Trims.option TurnSnapshot.texts change view.activeTurn each
  exact view_trims (.refl _) turn (.refl _) (.refl _)

theorem completeness_trims (trims : Trims (textsOf Completeness.texts view.completeness)
      (textsOf Completeness.texts complete)) :
    Trims view.texts { view with completeness := complete }.texts :=
  view_trims (.refl _) (.refl _) (.refl _) trims

theorem whileOver_trims {pass : CurrentView → CurrentView}
    (passed : Trims view.texts (pass view).texts) :
    Trims view.texts (whileOver sizes budget pass view).texts :=
  .either CurrentView.texts _ (.refl _) passed

theorem boundPendings_trims (view : CurrentView)
    (each : ∀ pending, Bounds PendingRequest.texts pending (bound pending)) :
    Trims view.texts (boundPendings bound view).texts := by
  obtain ⟨members, remarks⟩ := boundEach_trims each view.pendingRequests view.completeness
  exact view_trims (.refl _) (.refl _) members remarks

theorem boundTurnItems_trims (view : CurrentView) :
    Trims view.texts (boundTurnItems sizes budget view).texts := by
  refine onTurn_trims view ?_
  intro turn
  obtain ⟨members, remarks⟩ := boundEach_trims (fun item => boundItem_bounds ..)
    turn.items turn.completeness
  exact .append (.append (.refl _) members) remarks

theorem minimizeView_trims (original : Nat) (view : CurrentView) :
    Trims view.texts (minimizeView sizes budget original view).texts := by
  refine .trans (boundPendings_trims view ?_) (onTurn_trims _ ?_)
  · intro pending
    obtain ⟨trims, valid⟩ := boundPendingRequest_bounds sizes pending
      (max (pendingShare budget view / 2) 1)
    exact ⟨trims.trans (minimizePendingPresentation_trims _), valid⟩
  · intro turn
    refine .append (.append (.refl _) ?_) ?_
    · exact .map Item.texts _ turn.items minimizeItemPresentation_trims
    · exact mergeCompleteness_own turn.completeness _ (budgetCompleteness_valid _ _)

/-- Clipping a view brings in no invalid text. -/
theorem boundCurrentView_trims (view : CurrentView) :
    Trims view.texts (boundCurrentView sizes configured view).texts := by
  unfold boundCurrentView
  extract_lets budget
  refine .either CurrentView.texts _ (.refl _) ?_
  refine .trans ?_ (whileOver_trims _ _ (completeness_trims (reason_trims _ _)))
  refine .trans ?_ (whileOver_trims _ _ (onCodex_trims _ fun codex =>
    warnings_trims ?_))
  refine .trans ?_ (whileOver_trims _ _ (minimizeView_trims _ _ _ _))
  refine .trans ?_ (whileOver_trims _ _ (onCodex_trims _ fun codex =>
    .cons (clip_valid _ _) (.refl _)))
  refine .trans ?_ (whileOver_trims _ _ (onCodex_trims _ fun codex =>
    warnings_trims filter_sublist.subset))
  refine .trans ?_ (boundPendings_trims _ fun pending =>
    boundPendingRequest_bounds sizes pending _)
  refine .trans ?_ (boundTurnItems_trims sizes _ _)
  refine .trans ?_ (onCodex_trims _ fun codex => addBudgetWarning_trims codex _)
  · exact completeness_trims (mergeCompleteness_own _ _ (budgetCompleteness_valid _ _))
  · intro warning member
    have reversed := mem_reverse.mp member
    exact mem_reverse.mp (eraseP_subset reversed)

/-- An item put into the turn. -/
theorem upsertItem_trims (item : Item) (turn : TurnSnapshot) :
    Trims (item.texts ++ turn.texts) { turn with items := upsertItem item turn.items }.texts := by
  have members : Trims ((item :: turn.items).flatMap Item.texts)
      ((upsertItem item turn.items).flatMap Item.texts) :=
    .members Item.texts (upsertBy_subset Item.itemId item ..)
  exact .within (textsOf Error.texts turn.failure) _ members

/-- Texts that come from outside may be added to those of the view. -/
theorem onTurn_brings (view : CurrentView)
    (each : ∀ turn, Trims (outside ++ turn.texts) (change turn).texts) :
    Trims (outside ++ view.texts) { view with activeTurn := view.activeTurn.map change }.texts := by
  have changed : Trims (outside ++ textsOf TurnSnapshot.texts view.activeTurn)
      (textsOf TurnSnapshot.texts (view.activeTurn.map change)) := by
    cases view.activeTurn with
    | none => exact .nil
    | some turn => simpa [textsOf] using each turn
  exact .within [] _ (.within (textsOf Codex.texts view.codex) _ changed)

/-- A pending request put into the view. -/
theorem upsertPending_trims (view : CurrentView) :
    Trims (pending.texts ++ view.texts)
      { view with pendingRequests := upsertPending pending view.pendingRequests }.texts := by
  have members : Trims ((pending :: view.pendingRequests).flatMap PendingRequest.texts)
      ((upsertPending pending view.pendingRequests).flatMap PendingRequest.texts) :=
    .members PendingRequest.texts (upsertBy_subset pendingIDOf pending ..)
  exact .within (textsOf Codex.texts view.codex ++ textsOf TurnSnapshot.texts view.activeTurn) _
    members

theorem shareInto_trims (view : CurrentView) :
    Trims (body.texts ++ view.texts) (shareInto body view).texts := by
  have kept : Trims (body.texts ++ view.texts) view.texts :=
    .of_subset (subset_append_right _ _)
  have placed : ∀ item : Item, Trims (item.texts ++ view.texts) (onTurn (fun turn =>
      { turn with items := upsertItem item turn.items }) view).texts := fun item =>
    onTurn_brings view (upsertItem_trims item)
  cases body with
  | itemStarted item | itemUpdated item | itemCompleted item => exact placed item
  | pendingRequestUpdated pending => exact upsertPending_trims pending view
  | _ => exact kept

theorem findItem_subset (found : findItem itemID view = some item) :
    item.texts ⊆ view.texts := by
  obtain ⟨turn, active, listed⟩ := bind_eq_some_iff.mp found
  intro value inside
  have among : value ∈ turn.items.flatMap Item.texts :=
    mem_flatMap.mpr ⟨item, mem_of_find?_eq_some listed, inside⟩
  simp only [CurrentView.texts, active, textsOf, toList_some, flatMap_cons,
    TurnSnapshot.texts, mem_append]
  grind

theorem findItem_trims (itemID : String) (view : CurrentView) (item : Item) :
    Trims (item.texts ++ view.texts) ((findItem itemID view).getD item).texts := by
  cases found : findItem itemID view with
  | none => exact .of_subset (subset_append_left _ _)
  | some other =>
    exact .of_subset (List.Subset.trans (findItem_subset found) (subset_append_right _ _))

theorem shareFrom_trims (view : CurrentView) :
    Trims (body.texts ++ view.texts) (shareFrom view body).texts := by
  have kept : Trims (body.texts ++ view.texts) body.texts :=
    .of_subset (subset_append_left _ _)
  cases body with
  | itemStarted item | itemUpdated item | itemCompleted item =>
    exact findItem_trims item.itemId view item
  | pendingRequestUpdated pending =>
    dsimp only [shareFrom]
    cases found : view.pendingRequests.find? fun other =>
        pendingIDOf other = pendingIDOf pending with
    | none => exact kept
    | some other =>
      have member := mem_of_find?_eq_some found
      refine .of_subset ?_
      intro value inside
      have among : value ∈ view.pendingRequests.flatMap PendingRequest.texts :=
        mem_flatMap.mpr ⟨other, member, inside⟩
      simp only [CurrentView.texts, mem_append]
      grind
  | _ => exact kept

/-- The view that shares the clipped message of an event. -/
theorem entering_valid (event : Event) (view : CurrentView)
    (eventValid : Valid event.texts) (viewValid : Valid view.texts) :
    Valid (entering sizes configured event view).texts := by
  unfold entering
  extract_lets clipped shared
  have bounded : Valid clipped.texts :=
    (boundCanonicalEvent_trims sizes configured event).valid eventValid
  obtain ⟨remark, body⟩ := (valid_append_iff _ _).mp bounded
  have sharedValid : Valid shared.texts :=
    (shareInto_trims clipped.body view).valid (body.append viewValid)
  split
  · exact sharedValid
  next complete noted =>
  rw [noted] at remark
  refine (onCodex_trims _ fun codex => addBudgetWarning_trims codex _).valid ?_
  exact (completeness_trims (mergeCompleteness_with _ remark)).valid sharedValid

/-- Event and view are clipped together without bringing in an invalid text. -/
theorem clipBoth_valid (event : Event) (view : CurrentView)
    (eventValid : Valid event.texts) (viewValid : Valid view.texts) :
    Valid (clipBoth sizes configured event view).1.texts ∧
      Valid (clipBoth sizes configured event view).2.texts := by
  unfold clipBoth
  extract_lets clipped last
  have bounded : Valid clipped.texts :=
    (boundCanonicalEvent_trims sizes configured event).valid eventValid
  obtain ⟨remark, body⟩ := (valid_append_iff _ _).mp bounded
  have lastValid : Valid last.texts :=
    (boundCurrentView_trims sizes configured _).valid
      (entering_valid sizes configured event view eventValid viewValid)
  refine ⟨lastValid, Valid.append remark ?_⟩
  exact (shareFrom_trims clipped.body last).valid (body.append lastValid)

theorem runeSize_valid {value : Text} (found : runeSize value = some size) :
    Utf8.valid (value.take size) = true := by
  have accepted := find?_some found
  simp only [Bool.and_eq_true] at accepted
  exact accepted.2

/-- What JSON makes of a text is valid, whatever it was. -/
theorem jsonText_valid : Utf8.valid (jsonText value) = true := by
  have replaced : ∀ fuel (rest : Text), Utf8.valid (replaceInvalid fuel rest) = true := by
    intro fuel
    induction fuel with
    | zero => exact fun _ => rfl
    | succ fuel ih =>
      intro rest
      cases rest with
      | nil => rfl
      | cons byte rest =>
        unfold replaceInvalid
        split
        · next size found => exact Utf8.valid_append (runeSize_valid found) (ih _)
        · exact Utf8.valid_append (by decide) (ih rest)
  exact replaced value.length value

/-- The item that a delta starts. -/
theorem deltaItem_valid (turnID itemID : String) (semantic : Semantic)
    (method : String) (content : Text) :
    Valid (deltaItem budget turnID itemID semantic method content).texts := by
  have bounded : Utf8.valid (boundString (jsonText content) budget).1 = true := by
    obtain same | valid := boundString_valid (jsonText content) budget
    · exact same ▸ jsonText_valid content
    · exact valid
  refine Valid.append ?_ (boundString_remark (jsonText content) budget)
  dsimp only [deltaItem]
  generalize (boundString (jsonText content) budget).1 = shown at bounded ⊢
  unfold deltaContent
  split
  · split <;> simp [ItemContent.texts, UserMessagePart.texts, Valid, bounded]
  · cases semantic <;> simp [ItemContent.texts, Valid, bounded, Utf8.valid_nil]

/-- A delta behind the text of an item: here both texts have to be valid. -/
theorem extendItem_valid (valid : Utf8.valid content = true)
    (itemValid : Valid item.texts) : Valid (extendItem budget content item).texts := by
  have bounded : ∀ length, Utf8.valid (validUTF8Prefix content length) = true := by
    intro length
    obtain same | cut := validUTF8Prefix_valid content length
    · exact same ▸ valid
    · exact cut
  obtain ⟨contentValid, remark⟩ := (valid_append_iff _ _).mp itemValid
  unfold extendItem
  cases target : deltaTarget item.content with
  | none => exact itemValid
  | some found =>
    obtain ⟨before, rebuild⟩ := found
    dsimp only
    have extended : Valid (rebuild (before ++
        validUTF8Prefix content (budget - before.length))).texts := by
      cases shape : item.content <;> rw [shape] at target contentValid <;>
        simp only [deltaTarget, some.injEq, Prod.mk.injEq, reduceCtorEq] at target
      all_goals
        obtain ⟨rfl, rfl⟩ := target
        simp only [ItemContent.texts, Valid, mem_cons, not_mem_nil, or_false,
          forall_eq_or_imp, forall_eq] at contentValid ⊢
      · exact Utf8.valid_append contentValid (bounded _)
      · exact Utf8.valid_append contentValid (bounded _)
      · exact ⟨contentValid.1, Utf8.valid_append contentValid.2.1 (bounded _), contentValid.2.2⟩
      · exact ⟨Utf8.valid_append contentValid.1 (bounded _), contentValid.2⟩
    split
    · exact extended.append remark
    · refine extended.append ?_
      simpa [Valid, textsOf, texts] using valid_literal _

theorem applyItemDelta_valid (turnID itemID : String) (semantic : Semantic) (method : String)
    (valid : Utf8.valid content = true) (itemsValid : Valid (items.flatMap Item.texts)) :
    Valid ((applyItemDelta budget turnID itemID semantic method content items).1.flatMap
        Item.texts) ∧
      Utf8.valid (applyItemDelta budget turnID itemID semantic method content items).2 = true := by
  have carried : Utf8.valid (clip budget content) = true := by
    obtain same | cut := clip_valid budget content
    · exact same ▸ valid
    · exact cut
  induction items with
  | nil =>
    refine ⟨?_, carried⟩
    simpa [applyItemDelta] using deltaItem_valid budget turnID itemID semantic method content
  | cons item rest ih =>
    obtain ⟨first, later⟩ := (valid_append_iff item.texts (rest.flatMap Item.texts)).mp itemsValid
    unfold applyItemDelta
    split
    · refine ⟨(extendItem_valid budget valid first).append later, ?_⟩
      split
      · exact carried
      · rfl
    · obtain ⟨members, text⟩ := ih later
      exact ⟨first.append members, text⟩

/-- The texts that a notification brings. -/
def AdapterBody.texts : AdapterBody → List Text
  | .codexUpdated params => params.title.toList
  | .turnUpdated _ _ _ failure => textsOf Error.texts failure
  | .itemStarted item | .itemUpdated item | .itemCompleted item => item.texts
  | .itemDelta _ _ _ content => [content]
  | .pendingRequestUpdated pending => pending.texts
  | .warningRaised message _ => [message]
  | .other => []

theorem ensureActiveTurn_trims (now : Int) (turnID : String) (view : CurrentView) :
    Trims view.texts (ensureActiveTurn now turnID view).texts := by
  refine view_trims (.refl _) ?_ (.refl _) (.refl _)
  unfold ensureActiveTurn activeTurnFor
  split
  · next turn active =>
    split
    · rw [active]
      exact .refl _
    · exact .nil
  · exact .nil

/-- A view with another turn in it. -/
theorem turn_valid (view : CurrentView) (turn : Option TurnSnapshot) (valid : Valid view.texts)
    (turnValid : Valid (textsOf TurnSnapshot.texts turn)) :
    Valid { view with activeTurn := turn }.texts := by
  refine Trims.valid ?_ valid
  exact view_trims (.refl _) (.of_valid turnValid) (.refl _) (.refl _)

theorem activeTurn_valid (valid : Valid view.texts) (active : view.activeTurn = some turn) :
    Valid turn.texts := by
  unfold CurrentView.texts at valid
  simp only [valid_append_iff] at valid
  simpa [active, textsOf] using valid.1.1.2

theorem onTurn_valid (valid : Valid view.texts)
    (each : ∀ turn, Valid turn.texts → Valid (change turn).texts) :
    Valid (onTurn change view).texts := by
  refine turn_valid view _ valid ?_
  cases active : view.activeTurn with
  | none => exact fun _ member => by cases member
  | some turn => simpa [textsOf] using each turn (activeTurn_valid valid active)

theorem placeItem_valid (now : Int) (turnID : String) (itemValid : Valid item.texts)
    (valid : Valid view.texts) : Valid (placeItem now turnID item view).texts := by
  have remark := ((valid_append_iff _ _).mp itemValid).2
  have placed : Valid (onTurn (fun turn =>
      { turn with
        items := upsertItem item turn.items
        completeness := mergeCompleteness turn.completeness item.completeness })
      (ensureActiveTurn now turnID view)).texts := by
    refine onTurn_valid ((ensureActiveTurn_trims now turnID view).valid valid) ?_
    intro turn turnValid
    have entered := (upsertItem_trims item turn).valid (itemValid.append turnValid)
    obtain ⟨members, complete⟩ := (valid_append_iff _ _).mp entered
    exact members.append (mergeCompleteness_valid complete remark)
  exact (completeness_trims (mergeCompleteness_with _ remark)).valid placed

theorem codex_valid (valid : Valid view.texts) (found : view.codex = some codex) :
    Valid codex.texts := by
  unfold CurrentView.texts at valid
  simp only [valid_append_iff] at valid
  simpa [found, textsOf] using valid.1.1.1

/-- A change of the Codex that gives it valid texts. -/
theorem onCodex_valid {change : Codex → Codex} (valid : Valid view.texts)
    (each : ∀ codex, Valid codex.texts → Valid (change codex).texts) :
    Valid (onCodex change view).texts := by
  refine Trims.valid ?_ valid
  refine view_trims (.of_valid ?_) (.refl _) (.refl _) (.refl _)
  cases codex : view.codex with
  | none => exact fun _ member => by simp [onCodex, codex, textsOf] at member
  | some found => simpa [onCodex, codex, textsOf] using each found (codex_valid valid codex)

theorem applyCodexParams_valid (brought : Valid params.title.toList) (valid : Valid codex.texts) :
    Valid (applyCodexParams params codex).texts := by
  obtain ⟨title, warnings⟩ := forall_mem_cons.mp valid
  refine forall_mem_cons.mpr ⟨?_, warnings⟩
  unfold applyCodexParams
  cases given : params.title with
  | none => exact title
  | some new => exact brought new (by simp [given])

theorem retitled_valid (manualTitle : Bool) (now : Int) (brought : Valid params.title.toList)
    (valid : Valid view.texts) :
    Valid (onCodex (fun codex =>
      let applied := applyCodexParams params codex
      { applied with
        title := if manualTitle then codex.title else applied.title
        lastActivityAtUnixMs := now }) view).texts := by
  refine onCodex_valid valid ?_
  intro codex before
  have applied := applyCodexParams_valid brought before
  obtain ⟨title, warnings⟩ := forall_mem_cons.mp applied
  refine forall_mem_cons.mpr ⟨?_, warnings⟩
  split
  · exact before _ mem_cons_self
  · exact title

theorem endedView_valid (status : TurnStatus) (now : Int) (valid : Valid view.texts) :
    Valid (endedView status now view).texts := by
  refine turn_valid _ none (onCodex_valid valid ?_) ?_
  · exact fun codex before => before
  · exact fun _ member => by cases member

theorem warned_valid (brought : Valid warning.texts) (valid : Valid view.texts) :
    Valid (onCodex (fun codex => { codex with warnings := codex.warnings ++ [warning] })
      view).texts := by
  refine onCodex_valid valid ?_
  intro codex before
  obtain ⟨title, warnings⟩ := forall_mem_cons.mp before
  refine forall_mem_cons.mpr ⟨title, ?_⟩
  rw [flatMap_append]
  exact Valid.append warnings (by simpa using brought)

theorem findItem_valid (itemID : String) (valid : Valid view.texts) :
    Valid (textsOf Completeness.texts ((findItem itemID view).bind Item.completeness)) := by
  cases found : findItem itemID view with
  | none => exact fun _ member => by cases member
  | some item =>
    have itemValid : Valid item.texts := fun value inside =>
      valid value (findItem_subset found inside)
    exact ((valid_append_iff _ _).mp itemValid).2

/-- What a notification leaves is valid: the view, the body of its event and the remark on it. -/
def ValidOutcome (outcome : CurrentView × EventBody × Option Completeness) : Prop :=
  Valid outcome.1.texts ∧ Valid outcome.2.1.texts ∧
    Valid (textsOf Completeness.texts outcome.2.2)

theorem validOutcome_item (now : Int) (turnID : String) {body : EventBody}
    (same : body.texts = item.texts) (itemValid : Valid item.texts) (valid : Valid view.texts) :
    ValidOutcome (placeItem now turnID item view, body, item.completeness) :=
  ⟨placeItem_valid now turnID itemValid valid, same ▸ itemValid,
    ((valid_append_iff _ _).mp itemValid).2⟩

/-- The one place where a text of the notification is put behind one of the view. -/
theorem validOutcome_delta {budget : Nat}
    (kind : event.body = .itemDelta semantic method stream content)
    (contentValid : Utf8.valid content = true) (valid : Valid view.texts)
    (placed : applyBody budget manualTitle chunk now event view = some outcome) :
    ValidOutcome outcome := by
  simp only [applyBody, kind] at placed
  cases placed
  have ensured := (ensureActiveTurn_trims now event.turnID view).valid valid
  have turnValid : Valid (activeTurnFor now event.turnID view).texts := activeTurn_valid ensured rfl
  generalize activeTurnFor now event.turnID view = turn at turnValid
  obtain ⟨earlier, turnRemark⟩ := (valid_append_iff _ _).mp turnValid
  obtain ⟨failure, items⟩ := (valid_append_iff _ _).mp earlier
  obtain ⟨members, carried⟩ := applyItemDelta_valid budget turn.turnId event.itemID semantic method
    contentValid items
  have extended := turn_valid view (some { turn with
      items := (applyItemDelta budget turn.turnId event.itemID semantic method content
        turn.items).1 }) valid
    (by simpa [textsOf, TurnSnapshot.texts] using (failure.append members).append turnRemark)
  have lost := findItem_valid event.itemID extended
  refine ⟨?_, ?_, ?_⟩
  · refine (completeness_trims (mergeCompleteness_with _ lost)).valid ?_
    refine onTurn_valid extended ?_
    intro other otherValid
    obtain ⟨before, remark⟩ := (valid_append_iff _ _).mp otherValid
    exact before.append (mergeCompleteness_valid remark lost)
  · cases semantic <;> simpa [EventBody.texts, ItemDeltaContent.texts, Valid] using carried
  · exact boundString_remark content budget

/-- What a notification makes of a valid view is valid if the texts it brings are. -/
theorem applyBody_valid {budget : Nat} (valid : Valid view.texts)
    (brought : Valid (AdapterBody.texts event.body))
    (placed : applyBody budget manualTitle chunk now event view = some outcome) :
    ValidOutcome outcome := by
  have nothing : Valid (textsOf texts none) := fun _ member => by cases member
  cases kind : event.body with
  | codexUpdated params =>
    rw [kind] at brought
    simp only [applyBody, kind] at placed
    obtain ⟨codex, found, rfl⟩ := map_eq_some_iff.mp placed
    have updated := retitled_valid manualTitle now brought valid
    exact ⟨updated, codex_valid updated found, nothing⟩
  | turnUpdated status started completed failure =>
    rw [kind] at brought
    simp only [applyBody, kind] at placed
    split at placed <;> obtain rfl := some.inj placed
    · refine ⟨?_, brought, nothing⟩
      exact onTurn_valid ((ensureActiveTurn_trims now event.turnID view).valid valid)
        fun turn turnValid => turnValid
    · exact ⟨endedView_valid status now valid, brought, nothing⟩
  | itemStarted item | itemUpdated item | itemCompleted item =>
    rw [kind] at brought
    simp only [applyBody, kind] at placed
    cases placed
    exact validOutcome_item now event.turnID rfl brought valid
  | itemDelta semantic method stream content =>
    rw [kind] at brought
    exact validOutcome_delta kind (brought content mem_cons_self) valid placed
  | pendingRequestUpdated pending =>
    rw [kind] at brought
    simp only [applyBody, kind] at placed
    cases placed
    refine ⟨?_, brought, nothing⟩
    have entered := (upsertPending_trims pending view).valid (brought.append valid)
    exact onCodex_valid entered fun codex before => before
  | warningRaised message method =>
    rw [kind] at brought
    simp only [applyBody, kind] at placed
    cases placed
    have given : Utf8.valid message = true := brought message mem_cons_self
    have warning : Valid (Warning.texts
        { code := .unspecified, message := message,
          metadata := [("vendor_method", text method)] }) := by
      simp [Valid, Warning.texts, given, valid_literal]
    exact ⟨warned_valid warning valid, warning, nothing⟩
  | other => simp [applyBody, kind] at placed

/-- A notification whose texts are valid keeps the view valid, and so is its event. -/
theorem applyEvent_valid {sizes : Sizes} {configured : Int} (valid : Valid view.texts)
    (brought : Valid (AdapterBody.texts event.body))
    (applied : applyEvent sizes configured manualTitle chunk now codexID event view =
      some (changed, made)) : Valid changed.texts ∧ Valid made.texts := by
  obtain ⟨⟨after, body, complete⟩, placed, same⟩ := map_eq_some_iff.mp applied
  obtain ⟨viewValid, bodyValid, remark⟩ := applyBody_valid valid brought placed
  have clipped := clipBoth_valid sizes configured
    { codexId := codexID, occurredAtUnixMs := now, completeness := complete, body := body }
    { after with generatedAtUnixMs := now } (remark.append bodyValid) viewValid
  dsimp only at same
  rw [same] at clipped
  exact clipped

end CodexRemote.Encoding
