import CodexRemote.Encoding
import CodexRemote.Library.Runs
import CodexRemote.Truncation

/-!
# The text of deltas

A delta reaches a client twice: as an event that carries its text, and as part of the item that the
view holds. `applyItemDelta` cuts both, the event's text at the content budget and the item's at
what the budget leaves behind the text that is there already. The event is then clipped as a whole
by `boundCanonicalEvent`, the item by `boundCurrentView`.

The text of a delta is what `eventText` decoded. How it is decoded is part of the translation.
-/
namespace CodexRemote.Deltas

open Protocol Budget Codexes Truncation List Option
open Option (map_eq_some_iff)

variable {sizes : Sizes} {configured : Int} {budget limit : Nat} {value content : Text}

/-! ## Cutting a text -/

theorem stepBack_take (value : Text) (length : Nat) :
    ∃ size ≤ length, stepBack value length = value.take size := by
  induction length with
  | zero => exact ⟨0, le_rfl, rfl⟩
  | succ length ih =>
    unfold stepBack
    split
    · exact ⟨length + 1, le_rfl, rfl⟩
    · obtain ⟨size, small, same⟩ := ih
      exact ⟨size, Nat.le_succ_of_le small, same⟩

/-- A cut text is a beginning of the whole that keeps to the limit. -/
theorem validUTF8Prefix_spec (value : Text) (limit : Nat) :
    validUTF8Prefix value limit <+: value ∧ (validUTF8Prefix value limit).length ≤ limit := by
  unfold validUTF8Prefix
  split
  · next fits => exact ⟨List.prefix_rfl, fits⟩
  · obtain ⟨size, small, same⟩ := stepBack_take value limit
    rw [same]
    exact ⟨List.take_prefix _ _, (length_take_le _ _).trans small⟩

theorem boundString_begins (value : Text) (limit : Nat) :
    (boundString value limit).1 <+: value := by
  dsimp only [boundString]
  split
  · exact List.prefix_rfl
  · exact (validUTF8Prefix_spec value _).1

theorem contentBudget_pos (configured : Int) : 0 < contentBudget configured := by
  unfold contentBudget
  split <;> omega

/-- A text that is cut says so. -/
theorem boundString_cases (value : Text) (configured : Int) :
    value.length ≤ contentBudget configured ∧
        boundString value (contentBudget configured) = (value, none) ∨
      contentBudget configured < value.length ∧
        (boundString value (contentBudget configured)).1.length ≤ contentBudget configured ∧
        Marked (boundString value (contentBudget configured)).2 := by
  have limit : max (contentBudget configured) 1 = contentBudget configured :=
    max_eq_left (contentBudget_pos configured)
  dsimp only [boundString]
  rw [limit]
  split
  · next fits => exact .inl ⟨fits, rfl⟩
  · next long =>
    exact .inr ⟨Nat.lt_of_not_le long, (validUTF8Prefix_spec value _).2, _, rfl, rfl, rfl⟩

/-- A text begins with a rune. -/
theorem runeSize_some (accepted : Utf8.valid value = true) (nonempty : value ≠ []) :
    ∃ size, runeSize value = some size ∧ 1 ≤ size ∧ size ≤ value.length ∧
      Utf8.valid (value.take size) = true := by
  obtain ⟨size, least, most, inside, whole⟩ := Utf8.valid_first accepted nonempty
  have found : (runeSize value).isSome = true := by
    refine find?_isSome.mpr ⟨size, ?_, by simp [inside, whole]⟩
    simp only [mem_cons, not_mem_nil, or_false]
    omega
  obtain ⟨first, first_found⟩ := isSome_iff_exists.mp found
  have short := find?_some first_found
  simp only [Bool.and_eq_true, decide_eq_true_eq] at short
  have listed : first = 1 ∨ first = 2 ∨ first = 3 ∨ first = 4 := by
    simpa using mem_of_find?_eq_some first_found
  exact ⟨first, first_found, by omega, short⟩

theorem replaceInvalid_valid (accepted : Utf8.valid value = true) (enough : value.length ≤ fuel) :
    replaceInvalid fuel value = value := by
  induction fuel generalizing value with
  | zero => rw [length_eq_zero_iff.mp (Nat.le_zero.mp enough), replaceInvalid]
  | succ fuel ih =>
    cases value with
    | nil => rfl
    | cons byte rest =>
      obtain ⟨size, first, least, inside, whole⟩ := runeSize_some accepted (cons_ne_nil _ _)
      simp only [replaceInvalid, first]
      rw [ih (Utf8.valid_drop accepted whole) (by rw [length_drop]; omega)]
      exact take_append_drop _ _

/-- Encoding to JSON and back changes nothing of a valid text. -/
theorem jsonText_of_valid (accepted : Utf8.valid value = true) : jsonText value = value :=
  replaceInvalid_valid accepted le_rfl

/-! ## The event -/

def deltaText : ItemDeltaContent → Text
  | .text content => content
  | .commandOutput _ content => content

/-- The event carries the text of the delta, or a beginning of it and a remark. -/
def Carries (content : Text) (published : Event) : Prop :=
  ∃ turnId itemId chunkSeq delta, published.body = .itemDelta turnId itemId chunkSeq delta ∧
    (deltaText delta = content ∨
      deltaText delta <+: content ∧ deltaText delta ≠ content ∧ Marked published.completeness)

/-- The kind of a stored item takes deltas. -/
def Takes (items : List Item) (itemID : String) : Prop :=
  ∀ item ∈ items.find? fun item => decide (item.itemId = itemID),
    (deltaTarget item.content).isSome = true

theorem applyItemDelta_carried (budget : Nat) (content : Text) (turnID itemID method : String)
    (semantic : Semantic) (items : List Item) :
    (applyItemDelta budget turnID itemID semantic method content items).2 = clip budget content ∧
        Takes items itemID ∨
      (applyItemDelta budget turnID itemID semantic method content items).2 = [] ∧
        ¬ Takes items itemID := by
  induction items with
  | nil => exact .inl ⟨rfl, nofun⟩
  | cons item rest ih =>
    by_cases own : item.itemId = itemID
    · by_cases target : (deltaTarget item.content).isSome = true
      · exact .inl (by simp [applyItemDelta, Takes, own, target])
      · exact .inr (by simp [applyItemDelta, Takes, own, target])
    · simpa [applyItemDelta, Takes, own] using ih

section Event

variable {event : Event} {turnId itemId : String} {chunkSeq : Nat} {delta : ItemDeltaContent}
  (shown : event.body = .itemDelta turnId itemId chunkSeq delta)
include shown

/-- Clipping an event leaves a beginning of its delta. -/
theorem boundCanonicalEvent_delta (sizes : Sizes) (configured : Int) :
    ∃ cut, (boundCanonicalEvent sizes configured event).body =
      .itemDelta turnId itemId chunkSeq cut ∧ deltaText cut <+: deltaText delta := by
  have first : ∀ target, ∃ cut, (boundBody sizes event.body target).1 =
      .itemDelta turnId itemId chunkSeq cut ∧ deltaText cut <+: deltaText delta := by
    intro target
    rw [shown]
    cases delta with
    | text content => exact ⟨.text _, rfl, boundString_begins _ _⟩
    | commandOutput stream content => exact ⟨.commandOutput stream _, rfl, boundString_begins _ _⟩
  obtain ⟨cut, bounded, shorter⟩ :=
    first (max (collectionBudget configured - 512) (collectionBudget configured / 2))
  have strict : ∀ budget, (strictBody sizes (.itemDelta turnId itemId chunkSeq cut) budget).1 =
      .itemDelta turnId itemId chunkSeq cut := fun _ => rfl
  dsimp only [boundCanonicalEvent]
  by_cases fits : sizes.event event ≤ collectionBudget configured
  · rw [if_pos fits]
    exact ⟨delta, shown, List.prefix_rfl⟩
  · rw [if_neg fits]
    refine ⟨cut, ?_, shorter⟩
    simp only [apply_ite Event.body, ite_self, apply_ite Prod.fst, bounded, strict]

/-- What is published of a delta is its event, clipped. -/
theorem clipBoth_delta (view : CurrentView) :
    (clipBoth sizes configured event view).2 = boundCanonicalEvent sizes configured event := by
  obtain ⟨cut, bounded, -⟩ := boundCanonicalEvent_delta shown sizes configured
  have shared : ∀ clipped, shareFrom clipped (boundCanonicalEvent sizes configured event).body =
      (boundCanonicalEvent sizes configured event).body := by
    intro clipped
    rw [bounded]
    rfl
  dsimp only [clipBoth]
  rw [shared]

/-- An event that starts with the text, cut at the content budget. -/
theorem carries_cut (whole : deltaText delta = clip (contentBudget configured) content)
    (complete : event.completeness = (boundString content (contentBudget configured)).2) :
    Carries content (boundCanonicalEvent sizes configured event) := by
  obtain ⟨cut, bounded, shorter⟩ := boundCanonicalEvent_delta shown sizes configured
  rw [whole] at shorter
  refine ⟨_, _, _, cut, bounded, ?_⟩
  by_cases same : deltaText cut = content
  · exact .inl same
  refine .inr ⟨shorter.trans (boundString_begins _ _), same, ?_⟩
  obtain ⟨-, fits⟩ | marked := boundCanonicalEvent_marks sizes configured event
  · rw [fits] at bounded ⊢
    cases shown.symm.trans bounded
    rw [complete]
    refine ((boundString_cases content configured).resolve_left fun uncut => same ?_).2.2
    rw [whole, clip, uncut.2]
  · exact marked

/-- An event that starts with nothing. -/
theorem carries_nothing (nothing : deltaText delta = [])
    (complete : event.completeness = (boundString content (contentBudget configured)).2) :
    Carries content (boundCanonicalEvent sizes configured event) ↔
      content = [] ∨ contentBudget configured < content.length ∨
        collectionBudget configured < sizes.event { event with completeness := none } := by
  obtain ⟨cut, bounded, shorter⟩ := boundCanonicalEvent_delta shown sizes configured
  have gone : deltaText cut = [] := List.prefix_nil.mp (nothing ▸ shorter)
  have marked_iff : Carries content (boundCanonicalEvent sizes configured event) ↔
      content = [] ∨ Marked (boundCanonicalEvent sizes configured event).completeness := by
    constructor
    · rintro ⟨_, _, _, delta, again, text⟩
      cases bounded.symm.trans again
      rw [gone] at text
      exact text.imp Eq.symm fun cut => cut.2.2
    · intro either
      refine ⟨_, _, _, cut, bounded, ?_⟩
      rw [gone]
      by_cases empty : content = []
      · exact .inl empty.symm
      · exact .inr ⟨List.nil_prefix, Ne.symm empty, either.resolve_left empty⟩
  rw [marked_iff]
  refine or_congr_right ?_
  have remark := boundCanonicalEvent_marks sizes configured event
  obtain ⟨short, uncut⟩ | ⟨long, -, marked⟩ := boundString_cases content configured
  · rw [uncut] at complete
    have plain : { event with completeness := none } = event := by
      cases event
      cases complete
      rfl
    rw [or_iff_right (Nat.not_lt_of_le short), plain]
    constructor
    · intro marked
      by_contra fits
      simp only [boundCanonicalEvent, Nat.le_of_not_lt fits, if_true, complete] at marked
      obtain ⟨remark, shown, -⟩ := marked
      cases shown
    · intro long
      exact remark.resolve_left fun fits => absurd fits.1 (Nat.not_le_of_lt long)
  · refine iff_of_true ?_ (.inl long)
    obtain ⟨-, fits⟩ | marked := remark
    · rw [fits, complete]
      exact marked
    · exact marked

end Event

/-- The event `applyAdapterEventLocked` makes of a delta, before it is clipped. -/
def deltaEvent (codexID turnID itemID : String) (chunk : Nat) (now : Int) (semantic : Semantic)
    (stream : OutputStream) (carried : Text) (complete : Option Completeness) : Event :=
  { codexId := codexID, occurredAtUnixMs := now, completeness := complete
    body := .itemDelta turnID itemID chunk (match semantic with
      | .commandOutput | .processOutput => .commandOutput stream carried
      | _ => .text carried) }

theorem deltaEvent_text (codexID turnID itemID : String) (chunk : Nat) (now : Int)
    (semantic : Semantic) (stream : OutputStream) (carried : Text)
    (complete : Option Completeness) :
    ∃ delta, (deltaEvent codexID turnID itemID chunk now semantic stream carried complete).body =
      .itemDelta turnID itemID chunk delta ∧ deltaText delta = carried := by
  refine ⟨_, rfl, ?_⟩
  cases semantic <;> rfl

/-- A delta's text is published, or a beginning of it with a remark, exactly if the stored item's
kind takes deltas, or nothing is lost, or the event is marked for its size: the text is over the
content budget, or the event without it is over its own. -/
theorem delta_carried_iff (sizes : Sizes) (configured : Int) (manualTitle : Bool) (chunk : Nat)
    (now : Int) (codexID method : String) (event : AdapterEvent) (semantic : Semantic)
    (stream : OutputStream) (content : Text) (view after : CurrentView) (published : Event)
    (delta : event.body = .itemDelta semantic method stream content)
    (applied : applyEvent sizes configured manualTitle chunk now codexID event view =
      some (after, published)) :
    Carries content published ↔
      Takes (activeTurnFor now event.turnID view).items event.itemID ∨ content = [] ∨
        contentBudget configured < content.length ∨
        collectionBudget configured < sizes.event
          (deltaEvent codexID event.turnID event.itemID chunk now semantic stream [] none) := by
  simp only [applyEvent, applyBody, delta, map_some, some.injEq] at applied
  have second := (congrArg Prod.snd applied).symm.trans (clipBoth_delta rfl _)
  have made : published = boundCanonicalEvent sizes configured
      (deltaEvent codexID event.turnID event.itemID chunk now semantic stream
        (applyItemDelta (contentBudget configured) (activeTurnFor now event.turnID view).turnId
          event.itemID semantic method content (activeTurnFor now event.turnID view).items).2
        (boundString content (contentBudget configured)).2) := second
  obtain ⟨carried, takes⟩ | ⟨carried, refuses⟩ := applyItemDelta_carried
    (contentBudget configured) content (activeTurnFor now event.turnID view).turnId event.itemID
    method semantic (activeTurnFor now event.turnID view).items
  · obtain ⟨start, shown, whole⟩ := deltaEvent_text codexID event.turnID event.itemID chunk now
      semantic stream (clip (contentBudget configured) content)
      (boundString content (contentBudget configured)).2
    rw [made, carried]
    exact iff_of_true (carries_cut shown whole rfl) (.inl takes)
  · obtain ⟨start, shown, nothing⟩ := deltaEvent_text codexID event.turnID event.itemID chunk now
      semantic stream [] (boundString content (contentBudget configured)).2
    rw [made, carried, or_iff_right refuses]
    exact carries_nothing shown nothing rfl

/-- A plan stands under the id of the delta. -/
def samplePlanned : CurrentView :=
  { activeTurn := some { turnId := "turn", status := .running, startedAtUnixMs := 1
                         items := [{ itemId := "item", turnId := "turn", status := .running
                                     content := .plan [], completeness := none
                                     provenance := .liveWire }] } }

def sampleDelta (content : Text) : AdapterEvent :=
  { threadID := "thr", turnID := "turn", itemID := "item"
    body := .itemDelta .planDelta "item/plan/delta" .stdout content }

/-- Sizes under which everything fits. -/
def smallSizes : Sizes :=
  { item := fun _ => 0, pending := fun _ => 0, warning := fun _ => 0, failure := fun _ => 0
    codex := fun _ => 0, event := fun _ => 0, view := fun _ => 0 }

theorem delta_carried_iff_new : ∃ after published,
    applyEvent smallSizes 0 false 1 2 "cdx" (sampleDelta (text "ab")) {} =
      some (after, published) ∧ Carries (text "ab") published := by
  refine ⟨_, _, rfl, ?_⟩
  refine (delta_carried_iff smallSizes 0 false 1 2 "cdx" "item/plan/delta"
    (sampleDelta (text "ab")) .planDelta .stdout (text "ab") {} _ _ rfl rfl).mpr (.inl ?_)
  rintro item ⟨⟩

/-- The delta of a plan that was stored before is published without its text, and nothing says
so. -/
theorem plan_delta_dropped : ∃ after published,
    applyEvent smallSizes 0 false 1 2 "cdx" (sampleDelta (text "ab")) samplePlanned =
      some (after, published) ∧
    published.body = .itemDelta "turn" "item" 1 (.text []) ∧ published.completeness = none ∧
    ¬ Carries (text "ab") published := by
  have whole : (applyEvent smallSizes 0 false 1 2 "cdx" (sampleDelta (text "ab"))
      samplePlanned).map (fun made => (made.2.body, made.2.completeness)) =
      some (.itemDelta "turn" "item" 1 (.text []), none) := by
    decide +kernel
  obtain ⟨⟨after, published⟩, applied, facts⟩ := map_eq_some_iff.mp whole
  obtain ⟨body, unmarked⟩ := Prod.mk.inj facts
  refine ⟨after, published, applied, body, unmarked, ?_⟩
  rintro ⟨_, _, _, delta, shown, same | ⟨-, -, remark, marked, -⟩⟩
  · cases body.symm.trans shown
    exact absurd same (by decide +kernel)
  · cases unmarked.symm.trans marked

/-! ## The item -/

/-- The item that deltas are for. -/
structure Source where
  codexID : String
  threadID : String
  turnID : String
  itemID : String
  semantic : Semantic
  method : String
  manualTitle : Bool

/-- The kind of item that the first delta begins takes deltas. -/
def Source.Plain (source : Source) : Prop :=
  (deltaTarget (deltaContent source.semantic source.method [])).isSome = true

structure Chunk where
  number : Nat
  now : Int
  stream : OutputStream
  content : Text

/-- The view, and the deltas so far in one text. -/
structure Progress where
  view : CurrentView
  joined : Text := []

def Source.event (source : Source) (chunk : Chunk) : AdapterEvent :=
  { threadID := source.threadID, turnID := source.turnID, itemID := source.itemID
    body := .itemDelta source.semantic source.method chunk.stream chunk.content }

def step (sizes : Sizes) (configured : Int) (source : Source) (state : Progress) (chunk : Chunk) :
    Option Progress :=
  (applyEvent sizes configured source.manualTitle chunk.number chunk.now source.codexID
    (source.event chunk) state.view).map fun made =>
      { view := made.1, joined := state.joined ++ chunk.content }

/-- The items of the turn that a delta extends. -/
def Source.items (source : Source) (now : Int) (view : CurrentView) : List Item :=
  (activeTurnFor now source.turnID view).items

def findIn (items : List Item) (itemID : String) : Option Item :=
  items.find? fun item => decide (item.itemId = itemID)

/-- The item's text is a beginning of the deltas, keeps to the budget, and is marked exactly if it
is shorter. -/
def Faithful (budget : Nat) (joined : Text) (item : Item) : Prop :=
  ∃ held rebuild, deltaTarget item.content = some (held, rebuild) ∧ held <+: joined ∧
    held.length ≤ budget ∧ (Marked item.completeness ↔ held.length < joined.length)

/-- The view with the delta in it, before it is clipped. -/
def extendedView (sizes : Sizes) (configured : Int) (source : Source) (state : Progress)
    (chunk : Chunk) : Option CurrentView :=
  (unbounded configured source.manualTitle chunk.number chunk.now source.codexID
    (source.event chunk) state.view).map fun (made, changed) => entering sizes configured made changed

/-- The view with the delta fits the frame, and an item that was cut gets nothing more. -/
def Orderly (sizes : Sizes) (configured : Int) (source : Source) (state : Progress)
    (chunk : Chunk) : Prop :=
  (∀ view ∈ extendedView sizes configured source state chunk,
    sizes.view view ≤ collectionBudget configured) ∧
  ∀ item ∈ findIn (source.items chunk.now state.view) source.itemID, Marked item.completeness →
    ∀ held rebuild, deltaTarget item.content = some (held, rebuild) →
      validUTF8Prefix chunk.content (contentBudget configured - held.length) = []

section Item

variable {source : Source} {state next : Progress} {chunk : Chunk} {item : Item}

theorem deltaContent_target (plain : (deltaTarget (deltaContent semantic method [])).isSome = true)
    (content : Text) :
    ∃ rebuild, deltaTarget (deltaContent semantic method content) = some (content, rebuild) := by
  unfold deltaContent at plain ⊢
  split at plain
  · cases plain
  · next other =>
    rw [if_neg other]
    cases semantic <;> exact ⟨_, rfl⟩

theorem extendItem_itemId (budget : Nat) (content : Text) (item : Item) :
    (extendItem budget content item).itemId = item.itemId := by
  unfold extendItem
  split
  · rfl
  · dsimp only
    split <;> rfl

/-- A delta begins an item or extends the one that is there. -/
theorem applyItemDelta_find (budget : Nat) (turnID itemID method : String) (semantic : Semantic)
    (content : Text) (items : List Item) :
    findIn (applyItemDelta budget turnID itemID semantic method content items).1 itemID =
      some (match findIn items itemID with
        | none => deltaItem budget turnID itemID semantic method content
        | some item => extendItem budget content item) := by
  induction items with
  | nil => simp [applyItemDelta, findIn, deltaItem]
  | cons item rest ih =>
    by_cases own : item.itemId = itemID
    · simp [applyItemDelta, findIn, own, extendItem_itemId]
    · simpa [applyItemDelta, findIn, own] using ih

/-- The first delta of an item. -/
theorem deltaItem_faithful (plain : source.Plain) (accepted : Utf8.valid content = true) :
    Faithful (contentBudget configured) content (deltaItem (contentBudget configured) source.turnID
      source.itemID source.semantic source.method content) := by
  obtain ⟨rebuild, target⟩ := deltaContent_target plain
    (boundString content (contentBudget configured)).1
  dsimp only [deltaItem]
  rw [jsonText_of_valid accepted]
  refine ⟨_, rebuild, target, boundString_begins _ _, ?_⟩
  obtain ⟨short, uncut⟩ | ⟨long, cut, marked⟩ := boundString_cases content configured
  · rw [uncut]
    exact ⟨short, iff_of_false (by rintro ⟨_, ⟨⟩, -⟩) (lt_irrefl _)⟩
  · exact ⟨cut, iff_of_true marked (cut.trans_lt long)⟩

theorem deltaTarget_rebuild {content : ItemContent}
    (target : deltaTarget content = some (held, rebuild)) (other : Text) :
    deltaTarget (rebuild other) = some (other, rebuild) := by
  cases content <;> cases target <;> rfl

/-- A later delta. Proof: a text that was never cut is extended by the delta or by a beginning of
it; a text that was cut stays. -/
theorem extendItem_faithful (faithful : Faithful budget joined item)
    (still : Marked item.completeness → ∀ held rebuild,
      deltaTarget item.content = some (held, rebuild) →
        validUTF8Prefix content (budget - held.length) = []) :
    Faithful budget (joined ++ content) (extendItem budget content item) := by
  obtain ⟨held, rebuild, target, ⟨lost, rfl⟩, short, marked_iff⟩ := faithful
  obtain ⟨⟨left, cut⟩, room⟩ := validUTF8Prefix_spec content (budget - held.length)
  have within : (held ++ validUTF8Prefix content (budget - held.length)).length ≤ budget := by
    rw [length_append]
    omega
  have shown := deltaTarget_rebuild target (held ++ validUTF8Prefix content (budget - held.length))
  have begins : held ++ validUTF8Prefix content (budget - held.length) <+:
      held ++ lost ++ content := by
    by_cases whole : lost = []
    · rw [whole, append_nil]
      exact List.prefix_append_right_inj held |>.mpr ⟨left, cut⟩
    have marked := marked_iff.mpr (by
      rw [length_append]
      exact Nat.lt_add_of_pos_right (length_pos_iff.mpr whole))
    rw [still marked held rebuild target, append_nil, append_assoc]
    exact List.prefix_append _ _
  simp only [extendItem, target]
  split
  · next fits =>
    -- The whole delta fits, so that the text is shorter only if it was before.
    refine ⟨_, rebuild, shown, begins, within, marked_iff.trans ?_⟩
    have full : validUTF8Prefix content (budget - held.length) = content := by
      rw [validUTF8Prefix, if_pos (by omega)]
    simp only [full, length_append]
    omega
  · next long =>
    refine ⟨_, rebuild, shown, begins, within, iff_of_true ⟨_, rfl, rfl, rfl⟩ ?_⟩
    simp only [length_append] at long within ⊢
    omega

/-- The item of the source in the view, with what is said of its text. -/
def Begun (budget : Nat) (source : Source) (state : Progress) : Prop :=
  ∃ item, findItem source.itemID state.view = some item ∧ Faithful budget state.joined item ∧
    ∀ now, findIn (source.items now state.view) source.itemID = some item

/-- The event of a delta brings nothing else into the view. -/
theorem entering_delta (event : Event) (turnId itemId : String) (chunkSeq : Nat)
    (delta : ItemDeltaContent) (shown : event.body = .itemDelta turnId itemId chunkSeq delta)
    (view : CurrentView) : (entering sizes configured event view).activeTurn = view.activeTurn := by
  obtain ⟨cut, bounded, -⟩ := boundCanonicalEvent_delta shown sizes configured
  dsimp only [entering]
  rw [bounded]
  split <;> rfl

/-- What a delta leaves of its turn, if the view with it fits: the items with the delta. -/
theorem step_turn (stepped : step sizes configured source state chunk = some next)
    (fits : ∀ view ∈ extendedView sizes configured source state chunk,
      sizes.view view ≤ collectionBudget configured) :
    ∃ turn, next.view.activeTurn = some turn ∧ turn.turnId = source.turnID ∧
      turn.items = (applyItemDelta (contentBudget configured) source.turnID source.itemID
        source.semantic source.method chunk.content (source.items chunk.now state.view)).1 := by
  obtain ⟨made, applied, rfl⟩ := map_eq_some_iff.mp stepped
  obtain ⟨⟨changed, body, complete⟩, bodied, rfl⟩ := map_eq_some_iff.mp applied
  let event : Event :=
    { codexId := source.codexID, occurredAtUnixMs := chunk.now, completeness := complete
      body := body }
  let stamped := { changed with generatedAtUnixMs := chunk.now }
  have small : sizes.view (entering sizes configured event stamped) ≤
      collectionBudget configured := by
    apply fits
    simp only [extendedView, unbounded, bodied, map_some]
    rfl
  have whole : (clipBoth sizes configured event stamped).1 =
      entering sizes configured event stamped := if_pos small
  simp only [applyBody, Source.event, some.injEq, Prod.mk.injEq] at bodied
  obtain ⟨turned, shown, -⟩ := bodied
  have active : (clipBoth sizes configured event stamped).1.activeTurn = changed.activeTurn := by
    rw [whole]
    exact entering_delta event _ _ _ _ shown.symm stamped
  refine ⟨_, active.trans (by rw [← turned]; rfl), ?_, ?_⟩
  · exact activeTurnFor_turnId ..
  · simp only [activeTurnFor_turnId]
    rfl

/-- What is found of the item behind a delta: it begins with the delta or is extended by it. -/
theorem step_found (stepped : step sizes configured source state chunk = some next)
    (fits : ∀ view ∈ extendedView sizes configured source state chunk,
      sizes.view view ≤ collectionBudget configured)
    (item : Item) (found : findIn (applyItemDelta (contentBudget configured) source.turnID
      source.itemID source.semantic source.method chunk.content
        (source.items chunk.now state.view)).1 source.itemID = some item) :
    findItem source.itemID next.view = some item ∧
      (∀ now, findIn (source.items now next.view) source.itemID = some item) ∧
      next.joined = state.joined ++ chunk.content := by
  obtain ⟨turn, active, same, items⟩ := step_turn stepped fits
  rw [← items] at found
  refine ⟨?_, ?_, ?_⟩
  · rw [findItem, active]
    exact found
  · intro now
    simpa [Source.items, activeTurnFor, active, same] using found
  · obtain ⟨made, -, rfl⟩ := map_eq_some_iff.mp stepped
    rfl

/-- In every run of valid deltas to an item, in which the view with the delta fits the frame and an
item that was cut gets nothing more, the text the view holds is a beginning of the deltas, keeps to
the budget, and is marked exactly if it is shorter. The item may be there before its first delta,
with nothing in it.

Proof: the first delta begins the item or is put into the empty one, and every later one keeps what
is said of it. -/
theorem deltas_held (sizes : Sizes) (configured : Int) (source : Source) (start last : Progress)
    (chunks : List Chunk) (plain : source.Plain) (blank : start.joined = [])
    (fresh : ∀ now, ∀ item ∈ findIn (source.items now start.view) source.itemID,
      Faithful (contentBudget configured) [] item)
    (given : chunks ≠ []) (accepted : ∀ chunk ∈ chunks, Utf8.valid chunk.content = true)
    (orderly : Runs.Meets (step sizes configured source) (Orderly sizes configured source) start
      chunks)
    (ran : Runs.run (step sizes configured source) start chunks = some last) :
    ∃ item, findItem source.itemID last.view = some item ∧
      Faithful (contentBudget configured) last.joined item := by
  have extends_item : ∀ state chunk next item,
      findIn (source.items chunk.now state.view) source.itemID = some item →
      Faithful (contentBudget configured) state.joined item →
      Orderly sizes configured source state chunk →
      step sizes configured source state chunk = some next →
      Begun (contentBudget configured) source next := by
    intro state chunk next item found faithful condition stepped
    obtain ⟨shown, later, joined⟩ := step_found stepped condition.1 _
      ((applyItemDelta_find ..).trans (by rw [found]))
    exact ⟨_, shown, joined ▸ extendItem_faithful faithful (condition.2 item found), later⟩
  have begun : Begun (contentBudget configured) source last := by
    cases chunks with
    | nil => exact absurd rfl given
    | cons first rest =>
      obtain ⟨next, taken, following⟩ := bind_eq_some_iff.mp ran
      have begins : Begun (contentBudget configured) source next := by
        cases found : findIn (source.items first.now start.view) source.itemID with
        | some item =>
          exact extends_item start first next item found
            (blank ▸ fresh first.now item found) orderly.1 taken
        | none =>
          obtain ⟨shown, later, joined⟩ := step_found taken orderly.1.1 _
            ((applyItemDelta_find ..).trans (by rw [found]))
          refine ⟨_, shown, ?_, later⟩
          rw [joined, blank]
          exact deltaItem_faithful plain (accepted first mem_cons_self)
      refine Runs.run_invariant (Begun (contentBudget configured) source) ?_ begins
        (orderly.2 next taken) following
      rintro state chunk after ⟨item, -, faithful, found⟩ condition stepped
      exact extends_item state chunk after item (found chunk.now) faithful condition stepped
  obtain ⟨item, shown, faithful, -⟩ := begun
  exact ⟨item, shown, faithful⟩

end Item

def sampleSource : Source :=
  { codexID := "cdx", threadID := "thr", turnID := "turn", itemID := "item", semantic := .agentText
    method := "item/agentMessage/delta", manualTitle := false }

def sampleChunk (content : Text) : Chunk :=
  { number := 1, now := 2, stream := .stdout, content := content }

/-- An answer of the agent with nothing in it yet, as `item/started` leaves it. -/
def sampleItem (held : Text) : Item :=
  { itemId := "item", turnId := "turn", status := .running, content := .agentMessage held
    completeness := none, provenance := .liveWire }

/-- The answer is started. -/
def sampleStarted : Progress :=
  { view := { activeTurn := some { turnId := "turn", status := .running, startedAtUnixMs := 1
                                   items := [sampleItem []] } } }

/-- With a budget of four bytes the last character does not fit. -/
theorem deltas_held_cut : ∃ last item,
    Runs.run (step smallSizes 4 sampleSource) sampleStarted [sampleChunk (text "abcé")] =
      some last ∧
    findItem "item" last.view = some item ∧ item.content = .agentMessage (text "abc") ∧
    Faithful 4 (text "abcé") item := by
  have whole : ((step smallSizes 4 sampleSource sampleStarted (sampleChunk (text "abcé"))).bind
      fun last => (findItem "item" last.view).map fun item => (item.content, last.joined)) =
      some (.agentMessage (text "abc"), text "abcé") := by
    decide +kernel
  obtain ⟨last, stepped, whole⟩ := bind_eq_some_iff.mp whole
  obtain ⟨item, shown, facts⟩ := map_eq_some_iff.mp whole
  obtain ⟨content, joined⟩ := Prod.mk.inj facts
  have ran : Runs.run (step smallSizes 4 sampleSource) sampleStarted
      [sampleChunk (text "abcé")] = some last := by
    simp [Runs.run, stepped]
  have empty : Faithful (contentBudget 4) [] (sampleItem []) :=
    ⟨[], _, rfl, List.prefix_rfl, by decide, iff_of_false (by rintro ⟨_, ⟨⟩, -⟩) (lt_irrefl _)⟩
  have orderly : Orderly smallSizes 4 sampleSource sampleStarted (sampleChunk (text "abcé")) := by
    refine ⟨fun _ _ => Nat.zero_le _, ?_⟩
    rintro item ⟨⟩ ⟨_, ⟨⟩, -⟩
  have plain : sampleSource.Plain := by
    unfold Source.Plain
    decide +kernel
  obtain ⟨found, again, faithful⟩ := deltas_held smallSizes 4 sampleSource sampleStarted last
    [sampleChunk (text "abcé")] plain rfl (by rintro now item ⟨⟩; exact empty) (by simp)
    (by simpa [sampleChunk] using Encoding.valid_literal "abcé") ⟨orderly, fun _ _ => trivial⟩ ran
  cases shown.symm.trans again
  exact ⟨last, item, ran, shown, content, joined ▸ faithful⟩

/-- As many letters as leave one byte of a budget of 4096. -/
def sampleLetters : Text := replicate 4095 97

/-- A delta to an answer without a remark. -/
theorem step_answer (held content : Text) (state : Progress) (item : Item)
    (found : ∀ now, findIn (sampleSource.items now state.view) "item" = some item)
    (answer : item.content = .agentMessage held) :
    ∃ next after, step smallSizes 4096 sampleSource state (sampleChunk content) = some next ∧
      (∀ now, findIn (sampleSource.items now next.view) "item" = some after) ∧
      findItem "item" next.view = some after ∧
      after.content = .agentMessage (held ++ validUTF8Prefix content (4096 - held.length)) ∧
      next.joined = state.joined ++ content := by
  obtain ⟨next, stepped⟩ : ∃ next,
      step smallSizes 4096 sampleSource state (sampleChunk content) = some next := ⟨_, rfl⟩
  have here : findIn (sampleSource.items (sampleChunk content).now state.view)
      sampleSource.itemID = some item := found _
  obtain ⟨shown, later, joined⟩ := step_found stepped (fun _ _ => Nat.zero_le _) _
    ((applyItemDelta_find ..).trans (by rw [here]))
  refine ⟨next, _, stepped, later, shown, ?_, joined⟩
  simp only [extendItem, answer, deltaTarget]
  split <;> rfl

/-- A character does not fit behind the text, and the next delta is put in its place. -/
theorem deltas_held_torn : ∃ last item,
    Runs.run (step smallSizes 4096 sampleSource) sampleStarted
      [sampleChunk sampleLetters, sampleChunk (text "é"), sampleChunk (text "d")] = some last ∧
    last.joined = sampleLetters ++ text "éd" ∧ findItem "item" last.view = some item ∧
    item.content = .agentMessage (sampleLetters ++ text "d") ∧
    ¬ sampleLetters ++ text "d" <+: sampleLetters ++ text "éd" := by
  have letters : sampleLetters.length = 4095 := length_replicate
  obtain ⟨first, one, begun, found, -, content, joined⟩ := step_answer [] sampleLetters
    sampleStarted (sampleItem []) (fun _ => rfl) rfl
  have whole : validUTF8Prefix sampleLetters (4096 - ([] : Text).length) = sampleLetters :=
    if_pos (by rw [letters]; decide)
  rw [whole, nil_append] at content
  obtain ⟨second, two, goes, found, -, content, joined'⟩ := step_answer sampleLetters (text "é")
    first one found content
  have nothing : validUTF8Prefix (text "é") (4096 - sampleLetters.length) = [] := by
    rw [letters]
    decide +kernel
  rw [nothing, append_nil] at content
  obtain ⟨last, item, ends, -, shown, content, joined''⟩ := step_answer sampleLetters (text "d")
    second two found content
  have fits : validUTF8Prefix (text "d") (4096 - sampleLetters.length) = text "d" := by
    rw [letters]
    decide +kernel
  rw [fits] at content
  refine ⟨last, item, ?_, ?_, shown, content, ?_⟩
  · simp [Runs.run, begun, goes, ends]
  · have both : text "éd" = text "é" ++ text "d" := by decide +kernel
    rw [joined'', joined', joined, both, append_assoc]
    rfl
  · rw [List.prefix_append_right_inj]
    decide +kernel

end CodexRemote.Deltas
