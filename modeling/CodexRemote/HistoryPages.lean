import CodexRemote.Paging

/-!
# Reading a thread page by page

`ListHistory` of `internal/codex/manager.go` with `turnSnapshot`, `boundTurnSnapshot` and
`boundHistoryPage`. A page is cut by count first and then by its encoded size; the token of the
next page is written again when the second cut shortened it.

A client follows the tokens until a page has none. Each page starts where the one before
ended, so the pages cover the thread if every page on the way holds at least one turn. A turn
that does not fit on a page of its own ends this: the page is empty and its token leads back to
it. `read_through_iff` says that this, together with an offset that wraps, is all that can keep
a client from reading the thread through.

The encoded size of a message is a parameter, as in the module on the budget.
-/
namespace CodexRemote.Paging

open Protocol Adapter Translation Budget List Option Int64
open List (length_drop length_map length_take)

variable {start : Nat} {token : String}

/-! ## Snapshots of turns -/

structure AdapterTurnError where
  message : String
  additionalDetails : Option String := none
  codexErrorInfo : Json := .null

/-- A turn as the app-server tells it. -/
structure AdapterTurn where
  id : String
  status : String
  startedAt : Option Int := none
  completedAt : Option Int := none
  error : Option AdapterTurnError := none
  items : List Params := []
  itemsView : String := ""

structure HistoryPage where
  codexId : String
  turns : List TurnSnapshot := []
  nextPageToken : String := ""
  historyComplete : Bool := true
  completeness : Option Completeness := none
  deriving DecidableEq

/-- What `ListHistory` needs of the Host. `turnSize` and `pageBytes` are `protoJSONSize`. -/
structure HistoryHost where
  json : TokenJSON
  library : Library
  resolver : Resolver
  turnSize : TurnSnapshot → Nat
  pageBytes : HistoryPage → Nat
  contentBudget : Int := 0
  maxPage : UInt32 := 100

def HistoryHost.budget (host : HistoryHost) : Nat := collectionBudget host.contentBudget

def boundTurnSnapshot (host : HistoryHost) (turn : TurnSnapshot) : TurnSnapshot :=
  if host.turnSize turn ≤ host.budget then turn
  else
    let marked := { turn with
      completeness := mergeCompleteness turn.completeness (some (budgetCompleteness
        (host.turnSize turn) "turn item collection exceeds C/S frame budget")) }
    let cut := { marked with
      items := boundedProtoPrefix marked.items 0 fun items =>
        host.turnSize { marked with items := items } ≤ host.budget }
    if host.budget < host.turnSize cut then
      { cut with
        failure := cut.failure.map fun failure =>
          { failure with
            message := clip (max (host.budget / 4) 1) failure.message
            metadata := clipMetadata (max (host.budget / 8) 1) failure.metadata } }
    else cut

/-- The failure of a turn, put together as `turnFailure` expects it. -/
def failureOf (library : Library) (error : AdapterTurnError) : Option Error :=
  turnFailure library (some (.object ([("message", .string error.message),
      ("codexErrorInfo", error.codexErrorInfo)] ++
    (error.additionalDetails.map fun details =>
      ("additionalDetails", Json.string details)).toList)))

/-- The item of a turn's history. An item without an id is named after its place. -/
def historyItem (host : HistoryHost) (turnID : String) (index : Nat) (raw : Params) : Item :=
  let given := firstString (rawObject raw) ["id", "itemId"]
  let itemID := if given = "" then turnID ++ "-" ++ toString index else given
  translateItem host.library (some host.resolver) raw turnID itemID "imported" .unknown .completed
    (Budget.contentBudget host.contentBudget) .importedHistory

def turnSnapshot (host : HistoryHost) (turn : AdapterTurn) : TurnSnapshot :=
  let failure := turn.error.bind (failureOf host.library)
  let status := turnStatus host.library turn.status
  let items := turn.items.mapIdx (historyItem host turn.id)
  let given : Option Completeness :=
    if turn.itemsView = "full" then none
    else
      some { incomplete := true
             reason := text ("app-server did not provide full turn items" ++
               if turn.itemsView = "" then "" else " (itemsView=" ++ turn.itemsView ++ ")") }
  boundTurnSnapshot host
    { turnId := turn.id
      status := if turn.error.isSome ∧ status = .completed then .failed else status
      startedAtUnixMs := (turn.startedAt.map unixMillis).getD 0
      completedAtUnixMs := (turn.completedAt.map unixMillis).getD 0
      failure := failure, items := items, provenance := .importedHistory
      completeness := items.foldl (fun kept item => mergeCompleteness kept item.completeness)
        given }

/-! ## Pages -/

/-- The body of the loop that fills a page. -/
def addTurn (page : HistoryPage) (turn : TurnSnapshot) : HistoryPage :=
  match turn.completeness with
  | none => { page with turns := page.turns ++ [turn] }
  | some complete =>
      if complete.truncated || complete.incomplete then
        { page with
          turns := page.turns ++ [turn], historyComplete := false
          completeness := mergeCompleteness page.completeness (some complete) }
      else { page with turns := page.turns ++ [turn] }

/-- A page that is too long, marked as such. -/
def markPage (host : HistoryHost) (page : HistoryPage) : HistoryPage :=
  { page with
    historyComplete := false
    completeness := mergeCompleteness page.completeness (some (budgetCompleteness
      (host.pageBytes page) "history collection exceeds C/S frame budget")) }

def boundHistoryPage (host : HistoryHost) (page : HistoryPage) : HistoryPage :=
  if host.pageBytes page ≤ host.budget then page
  else
    let marked := markPage host page
    { marked with
      turns := boundedProtoPrefix marked.turns 0 fun turns =>
        host.pageBytes { marked with turns := turns } ≤ host.budget }

def historyToken (host : HistoryHost) (codexId : String) (offset : Int64) : String :=
  encodePageToken host.json { operation := "history", query := codexId, offset := offset }

/-- The page between two bounds, before it is cut by size. -/
def filledPage (host : HistoryHost) (codexId : String) (turns : List AdapterTurn)
    (stop length : Int64) : HistoryPage :=
  { (turns.map (turnSnapshot host)).foldl addTurn { codexId := codexId } with
    nextPageToken := if stop < length then historyToken host codexId stop else "" }

/-- The page of a thread from an offset; none is a panic. -/
def historyPage (host : HistoryHost) (codexId : String) (turns : Slice AdapterTurn)
    (start limit : Int64) : Option HistoryPage :=
  let bounds := pageBounds start limit turns.len
  (turns.between bounds.1 bounds.2).map fun shown =>
    let filled := filledPage host codexId shown bounds.2 turns.len
    let bounded := boundHistoryPage host filled
    if bounded.turns.length < filled.turns.length then
      { bounded with
        nextPageToken :=
          historyToken host codexId (bounds.1 + Int64.ofNat bounded.turns.length) }
    else bounded

/-- How reading the thread ends. An error may say that the thread has no history yet. -/
inductive HistoryRead where
  | failed (unmaterialized : Bool) (code : ErrorCode) (message : String)
  | found (turns : Slice AdapterTurn)

/-- `ListHistory`, given what the registry, the runtime and the app-server answer. -/
def listHistory (host : HistoryHost) (lookup : Except (ErrorCode × String) Unit)
    (runtime : Except String Unit) (read : HistoryRead) (codexId : String)
    (request : Option PageRequest) : Outcome HistoryPage :=
  match lookup with
  | .error (code, message) => .refused code message
  | .ok () =>
      match page host.json request host.maxPage "history" codexId with
      | .error message => .refused .invalidRequest message
      | .ok (start, limit) =>
          match runtime with
          | .error message => .refused .runtimeUnavailable message
          | .ok () =>
              match read with
              | .failed true _ _ => .answered { codexId := codexId }
              | .failed false code message => .refused code message
              | .found turns =>
                  match historyPage host codexId turns start limit with
                  | none => .panicked
                  | some page => .answered page

/-- `ListHistory` slices out of range exactly when the token is accepted, the thread is read,
and the sum wraps. -/
theorem listHistory_panics (host : HistoryHost) (lookup : Except (ErrorCode × String) Unit)
    (runtime : Except String Unit) (read : HistoryRead) (codexId : String)
    (request : Option PageRequest) :
    listHistory host lookup runtime read codexId request = .panicked ↔
      ∃ turns start limit, lookup = .ok () ∧ runtime = .ok () ∧ read = .found turns ∧
        page host.json request host.maxPage "history" codexId = .ok (start, limit) ∧
        Wraps start limit := by
  cases lookup with
  | error refusal => simp [listHistory]
  | ok =>
    cases accepted : page host.json request host.maxPage "history" codexId with
    | error message => simp [listHistory, accepted]
    | ok bounds =>
      obtain ⟨start, limit⟩ := bounds
      obtain ⟨low, size⟩ := page_bounds accepted
      cases runtime with
      | error message => simp [listHistory, accepted]
      | ok =>
        cases read with
        | failed unmaterialized code message =>
          cases unmaterialized <;> simp [listHistory, accepted]
        | found turns =>
          have sliced : listHistory host (.ok ()) (.ok ()) (.found turns) codexId request =
              .panicked ↔ historyPage host codexId turns start limit = none := by
            simp only [listHistory, accepted]
            cases historyPage host codexId turns start limit with
            | none | some page => simp
          rw [sliced, historyPage, map_eq_none_iff, pageBounds_panics turns low size]
          simp

/-! ## The cut by size -/

/-- The loop of `boundedProtoPrefix` without fuel: from two lengths to the one it finds, with the
number of its probes. -/
inductive Searches (fits : Nat → Bool) : Nat → Nat → Nat → Nat → Prop
  | done (met : high ≤ low) : Searches fits low high low 0
  | longer (apart : low < high) (middle : low + (high - low + 1) / 2 = mid) (fit : fits mid)
      (later : Searches fits mid high found probes) : Searches fits low high found (probes + 1)
  | shorter (apart : low < high) (middle : low + (high - low + 1) / 2 = mid) (long : ¬ fits mid)
      (later : Searches fits low (mid - 1) found probes) :
      Searches fits low high found (probes + 1)

/-- Every round halves the distance, so the fuel lasts and the probes are few. -/
theorem widen_searches (fits : Nat → Bool) (fuel low high : Nat) (enough : high - low ≤ fuel) :
    ∃ probes, Searches fits low high (widen fits fuel low high) probes ∧
      2 ^ probes ≤ max 1 (2 * (high - low)) := by
  induction fuel generalizing low high with
  | zero => exact ⟨0, .done (by omega), by omega⟩
  | succ fuel later =>
    simp only [widen]
    split
    · generalize middle : low + (high - low + 1) / 2 = mid
      split
      · obtain ⟨probes, searches, few⟩ := later mid high (by omega)
        exact ⟨probes + 1, .longer ‹_› middle ‹_› searches, by omega⟩
      · obtain ⟨probes, searches, few⟩ := later low (mid - 1) (by omega)
        exact ⟨probes + 1, .shorter ‹_› middle ‹_› searches, by omega⟩
    · exact ⟨0, .done (by omega), by omega⟩

/-- Where longer is never better, the loop finds the largest length that fits.

Proof: by induction on the rounds. The lower length fits, and nothing beyond the upper one does. -/
theorem Searches.largest (shrinks : ∀ short long, short ≤ long → fits long → fits short)
    (searches : Searches fits low high found probes) (ordered : low ≤ high) (start : fits low)
    (beyond : ∀ length, high < length → ¬ fits length) :
    low ≤ found ∧ found ≤ high ∧ fits found ∧ ∀ length, found < length → ¬ fits length := by
  induction searches with
  | done => exact ⟨le_rfl, ordered, start, fun length longer => beyond length (by omega)⟩
  | longer _ middle fit _ later =>
    obtain ⟨above, rest⟩ := later (by omega) fit beyond
    exact ⟨by omega, rest⟩
  | shorter _ middle long _ later =>
    obtain ⟨above, below, rest⟩ := later (by omega) start fun length longer =>
      mt (shrinks _ length (by omega)) long
    exact ⟨above, by omega, rest⟩

section

variable {Value : Type} {values : List Value} {fits : List Value → Bool}

/-- A call of `boundedProtoPrefix` with what it returns and the number of its probes. -/
inductive Cuts (values : List Value) (fits : List Value → Bool) (least : Nat) :
    List Value → Nat → Prop
  | empty (nothing : values = []) : Cuts values fits least values 0
  | whole (fit : fits values) : Cuts values fits least values 1
  | short (tooLong : ¬ fits values) (long : ¬ fits (values.take least)) :
      Cuts values fits least (values.take least) 2
  | searched (tooLong : ¬ fits values) (fit : fits (values.take least))
      (searches : Searches (fun length => fits (values.take length)) least values.length found
        probes) : Cuts values fits least (values.take found) (probes + 2)

theorem boundedProtoPrefix_cuts (values : List Value) (minimum : Nat) (fits : List Value → Bool) :
    ∃ probes, Cuts values fits (min minimum values.length)
        (boundedProtoPrefix values minimum fits) probes ∧
      probes ≤ (2 * values.length).log2 + 2 := by
  unfold boundedProtoPrefix
  split
  · next kept =>
    by_cases nothing : values = []
    · exact ⟨0, .empty nothing, by omega⟩
    · exact ⟨1, .whole (by simpa [nothing] using kept), by omega⟩
  · next cut =>
    rw [List.isEmpty_iff, not_or] at cut
    dsimp only
    split
    · next long => exact ⟨2, .short cut.2 (by simp [long]), by omega⟩
    · next fit =>
      obtain ⟨probes, searches, few⟩ := widen_searches
        (fun length => fits (values.take length)) _ (min minimum values.length) values.length le_rfl
      have positive := length_pos_iff.mpr cut.1
      have bound : probes ≤ (2 * values.length).log2 :=
        (Nat.le_log2 (by omega)).mpr (by omega)
      exact ⟨probes + 2, .searched cut.2 (by simpa using fit) searches, by omega⟩

/-- The cut is a beginning of the list. -/
theorem Cuts.begins (cuts : Cuts values fits least kept probes) :
    ∃ length, kept = values.take length := by
  cases cuts with
  | empty | whole => exact ⟨_, take_length.symm⟩
  | short | searched => exact ⟨_, rfl⟩

variable (shrinks : ∀ short long, short ≤ long → fits (values.take long) → fits (values.take short))
include shrinks

theorem Cuts.longest (within : least ≤ values.length)
    (cuts : Cuts values fits least kept probes) :
    ∃ length, kept = values.take length ∧ least ≤ length ∧ length ≤ values.length ∧
      (¬ fits (values.take length) → length = least) ∧
      ∀ longer, length < longer → longer ≤ values.length → ¬ fits (values.take longer) := by
  cases cuts with
  | empty nothing =>
    have none : values.length = 0 := by rw [nothing]; rfl
    exact ⟨_, take_length.symm, within, le_rfl, by omega, by omega⟩
  | whole fit =>
    exact ⟨_, take_length.symm, within, le_rfl, by simp [fit], by omega⟩
  | short tooLong long =>
    exact ⟨least, rfl, le_rfl, within, fun _ => rfl, fun longer above _ =>
      mt (shrinks least longer above.le) long⟩
  | searched tooLong fit searches =>
    obtain ⟨above, below, fit, best⟩ := searches.largest shrinks within fit fun length longer => by
      rwa [take_of_length_le longer.le]
    exact ⟨_, rfl, above, below, absurd fit, fun longer above _ => best longer above⟩

/-- Something survives the cut exactly when the first member does. -/
theorem boundedProtoPrefix_ne_nil (some : values ≠ []) :
    boundedProtoPrefix values 0 fits ≠ [] ↔ fits (values.take 1) := by
  obtain ⟨_, cuts, -⟩ := boundedProtoPrefix_cuts values 0 fits
  obtain ⟨length, cut, -, -, least, longest⟩ := cuts.longest shrinks (by omega)
  have kept : values.take length ≠ [] ↔ 0 < length := by simp [some, Nat.pos_iff_ne_zero]
  rw [cut, kept]
  constructor
  · intro nonempty
    refine shrinks 1 length nonempty ?_
    by_contra long
    have none := least long
    omega
  · intro first
    by_contra none
    exact longest 1 (by omega) (length_pos_iff.mpr some) first

/-- Of the beginnings with at least `minimum` members the longest that fits is kept; where the
shortest of them is too long, it is kept. -/
theorem longest_cut_found (minimum : Int) :
    ∃ length probes, boundedProtoPrefix values minimum.toNat fits = values.take length ∧
      let least := min (max minimum 0).toNat values.length
      least ≤ length ∧ length ≤ values.length ∧
      (¬ fits (values.take least) → length = least) ∧
      (fits (values.take least) → fits (values.take length) ∧
        ∀ longer, length < longer → longer ≤ values.length → ¬ fits (values.take longer)) ∧
      Cuts values fits least (values.take length) probes ∧
      probes ≤ (2 * values.length).log2 + 2 := by
  have same : min minimum.toNat values.length = min (max minimum 0).toNat values.length := by omega
  obtain ⟨probes, cuts, few⟩ := boundedProtoPrefix_cuts values minimum.toNat fits
  rw [same] at cuts
  obtain ⟨length, cut, above, below, short, longest⟩ := cuts.longest shrinks (by omega)
  refine ⟨length, probes, cut, above, below, ?_, ?_, cut ▸ cuts, few⟩
  · exact fun long => short (mt (shrinks _ length above) long)
  · intro fit
    refine ⟨?_, longest⟩
    by_contra long
    rw [short long] at long
    exact long fit

end

theorem longest_cut_found_two : ∃ length probes,
    boundedProtoPrefix [1, 2, 3] 1 (fun kept => kept.length ≤ 2) = [1, 2, 3].take length ∧
      1 ≤ length ∧ length ≤ 3 ∧ probes ≤ 4 := by
  obtain ⟨length, probes, cut, above, below, -, -, -, few⟩ :=
    @longest_cut_found Nat [1, 2, 3] (fun kept => kept.length ≤ 2)
      (by intro short long; simp; omega) 1
  exact ⟨length, probes, cut, above, below, few⟩

theorem addTurn_turns (page : HistoryPage) (turn : TurnSnapshot) :
    (addTurn page turn).turns = page.turns ++ [turn] := by
  unfold addTurn
  split
  · rfl
  · split
    · rfl
    · rfl

theorem addTurns_turns (snapshots : List TurnSnapshot) (page : HistoryPage) :
    (snapshots.foldl addTurn page).turns = page.turns ++ snapshots := by
  induction snapshots generalizing page with
  | nil => simp
  | cons turn rest later => simp [later, addTurn_turns]

/-- The turns of a filled page are the snapshots of the turns shown. -/
theorem filledPage_turns (host : HistoryHost) (codexId : String) (shown : List AdapterTurn)
    (stop length : Int64) :
    (filledPage host codexId shown stop length).turns = shown.map (turnSnapshot host) := by
  simp [filledPage, addTurns_turns]

/-- The cut keeps the beginning of a page, and the token when it cuts nothing. -/
theorem boundHistoryPage_keeps (host : HistoryHost) (page : HistoryPage) :
    (∃ length, (boundHistoryPage host page).turns = page.turns.take length) ∧
      (boundHistoryPage host page).nextPageToken = page.nextPageToken := by
  simp only [boundHistoryPage]
  split
  · exact ⟨⟨page.turns.length, take_length.symm⟩, rfl⟩
  · obtain ⟨_, cuts, -⟩ := boundedProtoPrefix_cuts (markPage host page).turns 0 fun turns =>
      decide (host.pageBytes { markPage host page with turns := turns } ≤ host.budget)
    exact ⟨cuts.begins, rfl⟩

/-- The encoded size of a page grows with each turn. -/
def Grows (pageBytes : HistoryPage → Nat) : Prop :=
  ∀ (page : HistoryPage) (turns : List TurnSnapshot) (turn : TurnSnapshot),
    pageBytes { page with turns := turns } ≤ pageBytes { page with turns := turns ++ [turn] }

/-- A shorter beginning is not larger. -/
theorem Grows.take (grows : Grows pageBytes) (page : HistoryPage) (turns : List TurnSnapshot)
    (short long : Nat) (ordered : short ≤ long) :
    pageBytes { page with turns := turns.take short } ≤
      pageBytes { page with turns := turns.take long } := by
  induction long, ordered using Nat.le_induction with
  | base => exact Nat.le_refl _
  | succ long _ earlier =>
    refine Nat.le_trans earlier ?_
    by_cases more : long < turns.length
    · rw [take_succ_eq_append_getElem more]
      exact grows page _ _
    · rw [take_of_length_le (by omega : turns.length ≤ long),
        take_of_length_le (by omega : turns.length ≤ long + 1)]

/-- A page keeps a turn if it fits as it is, or if its first turn fits on the marked page. -/
def FirstFits (host : HistoryHost) (page : HistoryPage) : Prop :=
  host.pageBytes page ≤ host.budget ∨
    host.pageBytes { markPage host page with turns := page.turns.take 1 } ≤ host.budget

instance (host : HistoryHost) (page : HistoryPage) : Decidable (FirstFits host page) :=
  inferInstanceAs (Decidable (_ ∨ _))

theorem boundHistoryPage_ne_nil {host : HistoryHost} (grows : Grows host.pageBytes)
    {page : HistoryPage} (some : page.turns ≠ []) :
    (boundHistoryPage host page).turns ≠ [] ↔ FirstFits host page := by
  unfold boundHistoryPage FirstFits
  by_cases fits : host.pageBytes page ≤ host.budget
  · simp [fits, some]
  rw [if_neg fits]
  simp only [fits, false_or]
  refine (boundedProtoPrefix_ne_nil ?_ some).trans decide_eq_true_iff
  intro short long ordered
  simp only [decide_eq_true_eq]
  exact Nat.le_trans (grows.take (markPage host page) _ short long ordered)

/-! ## Following the tokens -/

section Reading

variable (host : HistoryHost) (codexId : String) (turns : Slice AdapterTurn) (size : UInt32)

/-- The page length of a client that asks for `size` turns. -/
def limitOf : Int64 := pageSize (some { pageSize := size }) host.maxPage

/-- The answer to a token, while the thread stays as it is. -/
def answerTo (token : String) : Option HistoryPage :=
  match listHistory host (.ok ()) (.ok ()) (.found turns) codexId
      (some { pageSize := size, pageToken := token }) with
  | .answered page => some page
  | _ => none

/-- A client follows the tokens: all pages up to the one that has no token, if it comes to one
within `fuel` requests. -/
def follow : Nat → String → Option (List HistoryPage)
  | 0, _ => none
  | fuel + 1, token => do
      let page ← answerTo host codexId turns size token
      if page.nextPageToken = "" then some [page]
      else
        let more ← follow fuel page.nextPageToken
        some (page :: more)

/-- Where the page from an offset ends, before it is cut by size. -/
def stopAt (start : Nat) : Nat := min (start + (limitOf host size).toInt.toNat) turns.1.length

/-- The page from an offset before it is cut by size. -/
def fullPage (start : Nat) : HistoryPage :=
  filledPage host codexId ((turns.1.take (stopAt host turns size start)).drop start)
    (Int64.ofNat (stopAt host turns size start)) turns.len

/-- How many turns the page from an offset has in the end. -/
def kept (start : Nat) : Nat :=
  (boundHistoryPage host (fullPage host codexId turns size start)).turns.length

/-- The token that a client asks for the page from an offset with. -/
inductive Asks : String → Nat → Prop where
  | first : Asks "" 0
  | token (start : Nat) : Asks (historyToken host codexId (Int64.ofNat start)) start

/-- The offsets a client comes to. -/
inductive Visited : Nat → Prop where
  | first : Visited 0
  | next (start : Nat) : Visited start →
      start + kept host codexId turns size start < turns.1.length →
      Visited (start + kept host codexId turns size start)

end Reading

theorem pageSize_pos (request : Option PageRequest) (max : UInt32) :
    0 < (pageSize request max).toInt := by
  have exact : ∀ size : UInt32, 0 < size → 0 < (ofNat size.toNat).toInt := by
    intro size positive
    rw [toInt_ofNat_of_lt (Nat.lt_trans size.toNat_lt (by decide))]
    have : 0 < size.toNat := UInt32.lt_iff_toNat_lt.mp positive
    omega
  have limited : ∀ asked : UInt32, 0 < asked →
      0 < (if 0 < max ∧ max < asked then max else asked) := by
    intro asked positive
    split
    · rename_i lower
      exact lower.1
    · exact positive
  cases request with
  | none => exact exact _ (limited 50 (by decide))
  | some request =>
    apply exact
    apply limited
    show 0 < if 0 < request.pageSize then request.pageSize else 50
    split
    · assumption
    · decide

section Reading

variable {host : HistoryHost} {codexId : String} {turns : Slice AdapterTurn} {size : UInt32}

theorem ofNat_toInt (within : start ≤ turns.1.length) : (Int64.ofNat start).toInt = start :=
  toInt_ofNat_of_lt (Nat.lt_of_le_of_lt within turns.2)

theorem stopAt_le (host : HistoryHost) (turns : Slice AdapterTurn) (size : UInt32)
    (start : Nat) : stopAt host turns size start ≤ turns.1.length :=
  Nat.min_le_right _ _

theorem le_stopAt (host : HistoryHost) (size : UInt32) (within : start ≤ turns.1.length) :
    start ≤ stopAt host turns size start :=
  Nat.le_min.mpr ⟨Nat.le_add_right _ _, within⟩

/-- The bounds of the page from an offset whose sum does not wrap. -/
theorem pageBounds_at (within : start ≤ turns.1.length)
    (fits : ¬ Wraps (Int64.ofNat start) (limitOf host size)) :
    pageBounds (Int64.ofNat start) (limitOf host size) turns.len =
      (Int64.ofNat start, Int64.ofNat (stopAt host turns size start)) := by
  have exact := ofNat_toInt within
  have stop := ofNat_toInt (stopAt_le host turns size start)
  have limit := pageSize_bounds (some { pageSize := size }) host.maxPage
  have sum : (ofNat start + limitOf host size).toInt = start + (limitOf host size).toInt := by
    rcases sum_toInt (by omega : 0 ≤ (ofNat start).toInt) limit with ⟨-, sum⟩ | ⟨wraps, -⟩
    · rw [← exact]
      exact sum
    · exact absurd wraps fits
  have low : (if turns.len < ofNat start then turns.len else ofNat start) =
      ofNat start := by
    rw [if_neg]
    rw [lt_iff_toInt_lt, turns.len_toInt, exact]
    omega
  have high : min (ofNat start + limitOf host size) turns.len =
      ofNat (stopAt host turns size start) := by
    rw [← toInt_inj, min_toInt, sum, turns.len_toInt, stop, stopAt]
    have : 0 ≤ (limitOf host size).toInt := limit.1
    omega
  rw [pageBounds, low, high]

/-- The page from an offset: what survives the cut of the full page, with the token of the
offset where it ends. -/
theorem historyPage_at (codexId : String) (within : start ≤ turns.1.length)
    (fits : ¬ Wraps (Int64.ofNat start) (limitOf host size)) :
    ∃ page, historyPage host codexId turns (Int64.ofNat start) (limitOf host size) = some page ∧
      page.turns = (boundHistoryPage host (fullPage host codexId turns size start)).turns ∧
      page.nextPageToken =
        if start + kept host codexId turns size start < turns.1.length then
          historyToken host codexId (Int64.ofNat (start + kept host codexId turns size start))
        else "" := by
  have low := ofNat_toInt within
  have high := ofNat_toInt (stopAt_le host turns size start)
  have ordered := le_stopAt host size within
  have below := stopAt_le host turns size start
  have shown : turns.between (ofNat start) (ofNat (stopAt host turns size start)) =
      some ((turns.1.take (stopAt host turns size start)).drop start) := by
    have first : (0 : Int64).toInt = 0 := rfl
    rw [Slice.between, if_pos]
    · rw [low, high]
      rfl
    · simp only [le_iff_toInt_le, turns.len_toInt, low, high, first]
      omega
  have requested : (fullPage host codexId turns size start).turns.length =
      stopAt host turns size start - start := by
    rw [fullPage, filledPage_turns]
    simp only [length_map, length_drop, length_take]
    omega
  obtain ⟨⟨length, cut⟩, token⟩ :=
    boundHistoryPage_keeps host (fullPage host codexId turns size start)
  have least : kept host codexId turns size start ≤ stopAt host turns size start - start := by
    rw [kept, cut, length_take, requested]
    omega
  simp only [historyPage, pageBounds_at within fits, shown, map_some]
  refine ⟨_, rfl, ?_⟩
  have full : filledPage host codexId ((turns.1.take (stopAt host turns size start)).drop start)
      (ofNat (stopAt host turns size start)) turns.len =
        fullPage host codexId turns size start := rfl
  rw [full]
  split
  · rename_i shorter
    refine ⟨rfl, ?_⟩
    rw [requested] at shorter
    have more : start + kept host codexId turns size start < turns.1.length := by
      have : kept host codexId turns size start < stopAt host turns size start - start := shorter
      omega
    rw [if_pos more, ofNat_add]
    rfl
  · rename_i whole
    refine ⟨rfl, ?_⟩
    rw [requested] at whole
    have all : start + kept host codexId turns size start = stopAt host turns size start := by
      have : ¬ kept host codexId turns size start < stopAt host turns size start - start := whole
      omega
    rw [token, all, fullPage, filledPage]
    simp only [lt_iff_toInt_lt, turns.len_toInt, high, Int.ofNat_lt]

/-- What is kept lies before the stop. -/
theorem kept_le (host : HistoryHost) (codexId : String) (size : UInt32)
    (within : start ≤ turns.1.length) :
    start + kept host codexId turns size start ≤ turns.1.length := by
  have ordered := le_stopAt host size within
  have below := stopAt_le host turns size start
  obtain ⟨⟨length, cut⟩, -⟩ := boundHistoryPage_keeps host (fullPage host codexId turns size start)
  rw [kept, cut, fullPage, filledPage_turns]
  simp only [length_take, length_map, length_drop]
  omega

/-- The turns of the page from an offset are the next ones of the thread. -/
theorem page_turns (start : Nat) :
    (boundHistoryPage host (fullPage host codexId turns size start)).turns =
      ((turns.1.map (turnSnapshot host)).drop start).take
        (kept host codexId turns size start) := by
  obtain ⟨⟨length, cut⟩, -⟩ := boundHistoryPage_keeps host (fullPage host codexId turns size start)
  have requested : (fullPage host codexId turns size start).turns =
      ((turns.1.map (turnSnapshot host)).drop start).take
        (stopAt host turns size start - start) := by
    rw [fullPage, filledPage_turns, ← map_drop, ← map_take, drop_take]
  rw [kept, cut, requested, take_take, length_take, take_eq_take_iff]
  simp only [length_drop, length_map]
  omega

/-- The client's token leads to the page from its offset. -/
theorem answerTo_asks (size : UInt32) (reads : ∀ offset ≤ turns.1.length, host.json.Reads
      { operation := "history", query := codexId, offset := Int64.ofNat offset })
    (asks : Asks host codexId token start) (within : start ≤ turns.1.length) :
    answerTo host codexId turns size token =
      historyPage host codexId turns (Int64.ofNat start) (limitOf host size) := by
  have accepted : page host.json (some { pageSize := size, pageToken := token }) host.maxPage
      "history" codexId = .ok (ofNat start, limitOf host size) := by
    cases asks with
    | first => rfl
    | token =>
      have nonneg : 0 ≤ (ofNat start).toInt := by
        rw [ofNat_toInt within]
        omega
      exact page_encodePageToken (reads start within) nonneg rfl size host.maxPage
  simp only [answerTo, listHistory, accepted]
  cases historyPage host codexId turns (ofNat start) (limitOf host size) with
  | none | some page => rfl

/-- A client at an offset gets on: the bounds are right, and the page keeps a turn. -/
def Advances (host : HistoryHost) (codexId : String) (turns : Slice AdapterTurn) (size : UInt32)
    (start : Nat) : Prop :=
  ¬ Wraps (Int64.ofNat start) (limitOf host size) ∧
    FirstFits host (fullPage host codexId turns size start)

theorem kept_pos (grows : Grows host.pageBytes) (more : start < turns.1.length) :
    0 < kept host codexId turns size start ↔
      FirstFits host (fullPage host codexId turns size start) := by
  have positive := pageSize_pos (some { pageSize := size }) host.maxPage
  have some : (fullPage host codexId turns size start).turns ≠ [] := by
    rw [fullPage, filledPage_turns, ← length_pos_iff]
    simp only [length_map, length_drop, length_take, stopAt]
    have : 0 < (limitOf host size).toInt := positive
    omega
  rw [kept, length_pos_iff]
  exact boundHistoryPage_ne_nil grows some

/-- The first offset does not wrap. -/
theorem not_wraps_first : ¬ Wraps (Int64.ofNat 0) (limitOf host size) := by
  have limit := (pageSize_bounds (some { pageSize := size }) host.maxPage).2
  have first : (ofNat 0).toInt = 0 := rfl
  rw [Wraps, first]
  have : (limitOf host size).toInt < 2 ^ 32 := limit
  omega

section Following

variable (reads : ∀ offset ≤ turns.1.length, host.json.Reads
  { operation := "history", query := codexId, offset := Int64.ofNat offset })
include reads

/-- One request of a client: the page from its offset, and the next request if the thread goes
on. -/
theorem follow_succ (asks : Asks host codexId token start) (within : start ≤ turns.1.length)
    (fits : ¬ Wraps (Int64.ofNat start) (limitOf host size)) (fuel : Nat) :
    ∃ page : HistoryPage,
      page.turns = ((turns.1.map (turnSnapshot host)).drop start).take
        (kept host codexId turns size start) ∧
      follow host codexId turns size (fuel + 1) token =
        if start + kept host codexId turns size start < turns.1.length then
          (follow host codexId turns size fuel (historyToken host codexId
            (Int64.ofNat (start + kept host codexId turns size start)))).map fun more =>
              page :: more
        else some [page] := by
  obtain ⟨page, found, shown, next⟩ := historyPage_at codexId within fits
  refine ⟨page, shown.trans (page_turns start), ?_⟩
  have answer := answerTo_asks size reads asks within
  simp only [follow, answer, found, next, bind_eq_bind, bind_some]
  by_cases more : start + kept host codexId turns size start < turns.1.length
  · have written : historyToken host codexId
        (ofNat (start + kept host codexId turns size start)) ≠ "" :=
      encodePageToken_ne_empty (reads _ (Nat.le_of_lt more))
    rw [if_pos more, if_pos more, if_neg written]
    cases follow host codexId turns size fuel (historyToken host codexId
      (ofNat (start + kept host codexId turns size start))) with
    | none | some pages => rfl
  · rw [if_neg more, if_neg more, if_pos rfl]

/-- A client that gets on everywhere reads the rest of the thread. -/
theorem follow_covers (grows : Grows host.pageBytes)
    (advances : ∀ start, Visited host codexId turns size start → start < turns.1.length →
      Advances host codexId turns size start) (left : Nat) (asks : Asks host codexId token start)
    (visited : Visited host codexId turns size start) (more : start < turns.1.length)
    (bound : turns.1.length - start ≤ left) :
    ∃ pages, follow host codexId turns size left token = some pages ∧
      pages.flatMap HistoryPage.turns = (turns.1.map (turnSnapshot host)).drop start := by
  -- Every page keeps a turn, so what is left gets shorter.
  induction left generalizing token start with
  | zero => omega
  | succ left later =>
    obtain ⟨fits, first⟩ := advances start visited more
    have step := (kept_pos grows more).mpr first
    obtain ⟨page, shown, followed⟩ := follow_succ reads asks (Nat.le_of_lt more) fits left
    rw [followed]
    by_cases goes : start + kept host codexId turns size start < turns.1.length
    · obtain ⟨pages, rest, covered⟩ := later
        (Asks.token (start + kept host codexId turns size start))
        (Visited.next start visited goes) goes (by omega)
      refine ⟨page :: pages, by rw [if_pos goes, rest]; rfl, ?_⟩
      rw [flatMap_cons, covered, shown, ← drop_drop, take_append_drop]
    · refine ⟨[page], by rw [if_neg goes], ?_⟩
      have whole := kept_le host codexId size (Nat.le_of_lt more)
      rw [flatMap_cons, flatMap_nil, append_nil, shown, take_of_length_le]
      rw [length_drop, length_map]
      omega

/-- A request whose bounds are wrong is not answered. -/
theorem follow_wraps (within : start ≤ turns.1.length)
    (wraps : Wraps (Int64.ofNat start) (limitOf host size)) (fuel : Nat)
    (asks : Asks host codexId token start) : follow host codexId turns size fuel token = none := by
  cases fuel with
  | zero => rfl
  | succ fuel =>
    have exact := ofNat_toInt within
    have panics : historyPage host codexId turns (ofNat start) (limitOf host size) =
        none := by
      rw [historyPage, map_eq_none_iff]
      exact (pageBounds_panics turns (by omega)
        (pageSize_bounds (some { pageSize := size }) host.maxPage)).mpr wraps
    simp only [follow, answerTo_asks size reads asks within, panics]
    rfl

/-- A client that cannot get on from an offset never comes to an end. -/
theorem follow_stuck (grows : Grows host.pageBytes) (more : start < turns.1.length)
    (stuck : ¬ Advances host codexId turns size start) (fuel : Nat)
    (asks : Asks host codexId token start) : follow host codexId turns size fuel token = none := by
  induction fuel generalizing token with
  | zero => rfl
  | succ fuel later =>
    by_cases wraps : Wraps (ofNat start) (limitOf host size)
    · exact follow_wraps reads (Nat.le_of_lt more) wraps (fuel + 1) asks
    -- The page is empty, so its token asks for the same offset.
    have empty : kept host codexId turns size start = 0 := by
      by_contra kept
      exact stuck ⟨wraps, (kept_pos grows more).mp (Nat.pos_of_ne_zero kept)⟩
    obtain ⟨page, -, followed⟩ := follow_succ reads asks (Nat.le_of_lt more) wraps fuel
    rw [followed, empty, Nat.add_zero, if_pos more, later (Asks.token start)]
    rfl

/-- A client that comes to an end has asked for every offset it comes to. -/
theorem follow_visits (done : follow host codexId turns size fuel "" = some pages)
    (visited : Visited host codexId turns size start) :
    start ≤ turns.1.length ∧ ∃ fuel token pages, Asks host codexId token start ∧
      follow host codexId turns size fuel token = some pages := by
  induction visited with
  | first => exact ⟨Nat.zero_le _, fuel, "", pages, Asks.first, done⟩
  | next start _ goes earlier =>
    obtain ⟨within, fuel, token, pages, asks, done⟩ := earlier
    refine ⟨Nat.le_of_lt goes, ?_⟩
    cases fuel with
    | zero => cases done
    | succ fuel =>
      by_cases wraps : Wraps (ofNat start) (limitOf host size)
      · rw [follow_wraps reads within wraps (fuel + 1) asks] at done
        cases done
      obtain ⟨page, -, followed⟩ := follow_succ reads asks within wraps fuel
      rw [followed, if_pos goes] at done
      obtain ⟨more, rest, -⟩ := map_eq_some_iff.mp done
      exact ⟨fuel, _, more, Asks.token _, rest⟩

end Following

end Reading

/-- Following the tokens from the first page comes to an end with every turn of the thread
exactly once and in order, if and only if at every offset the client comes to the sum of offset
and page size does not wrap and the page can keep its first turn. -/
theorem read_through_iff (host : HistoryHost) (codexId : String) (turns : Slice AdapterTurn)
    (size : UInt32) (grows : Grows host.pageBytes)
    (reads : ∀ offset ≤ turns.1.length, host.json.Reads
      { operation := "history", query := codexId, offset := Int64.ofNat offset }) :
    (∃ fuel pages, follow host codexId turns size fuel "" = some pages ∧
        pages.flatMap HistoryPage.turns = turns.1.map (turnSnapshot host)) ↔
      ∀ start, Visited host codexId turns size start → start < turns.1.length →
        Advances host codexId turns size start := by
  constructor
  · rintro ⟨fuel, pages, done, -⟩ start visited more
    by_contra stuck
    obtain ⟨-, fuel, token, pages, asks, done⟩ := follow_visits reads done visited
    rw [follow_stuck reads grows more stuck fuel asks] at done
    cases done
  · intro advances
    by_cases empty : turns.1 = []
    · -- The first page of an empty thread is its only one.
      obtain ⟨page, shown, followed⟩ :=
        follow_succ reads Asks.first (Nat.zero_le _) not_wraps_first 0
      rw [if_neg (by simp [empty])] at followed
      refine ⟨1, [page], followed, ?_⟩
      simp [shown, empty]
    · obtain ⟨pages, done, covered⟩ := follow_covers reads grows advances turns.1.length
        Asks.first Visited.first (length_pos_iff.mpr empty) (by omega)
      exact ⟨turns.1.length, pages, done, covered⟩

/-- `ListDirectories`, `ListHistory` and `ListWorkspaceEntries` slice within their list if and
only if no request that gets as far as slicing has an accepted offset whose sum with the page
size wraps. -/
theorem listings_in_range_iff {Entry : Type} (host : HistoryHost)
    (join : String → String → String) (normalized : Except String String)
    (entries : Except String (Slice (String × Bool)))
    (lookup : Except (ErrorCode × String) Unit) (runtime : Except String Unit)
    (thread : HistoryRead) (metadata : String → Except (ErrorCode × String) Entry)
    (names : Except (ErrorCode × String) (Slice String)) (codexId relative : String)
    (request : Option PageRequest) :
    (listDirectories host.json host.maxPage join normalized entries request ≠ .panicked ↔
      ∀ parent listed start limit, normalized = .ok parent → entries = .ok listed →
        page host.json request host.maxPage "directories" parent = .ok (start, limit) →
        ¬ Wraps start limit) ∧
    (listHistory host lookup runtime thread codexId request ≠ .panicked ↔
      ∀ turns start limit, lookup = .ok () → runtime = .ok () → thread = .found turns →
        page host.json request host.maxPage "history" codexId = .ok (start, limit) →
        ¬ Wraps start limit) ∧
    (listWorkspaceEntries host.json host.maxPage metadata names codexId relative request ≠
        .panicked ↔
      ∀ dir start size, codexId ≠ "" → names = .ok dir →
        page host.json request host.maxPage "workspace_list" (codexId ++ "\x00" ++ relative) =
          .ok (start, size) →
        start.toInt ≤ dir.1.length → ¬ Wraps start size) := by
  refine ⟨?_, ?_, ?_⟩
  · rw [Ne, listDirectories_panics]
    simp only [not_exists, not_and]
  · rw [Ne, listHistory_panics]
    simp only [not_exists, not_and]
  · rw [Ne, listWorkspaceEntries_panics]
    simp only [not_exists, not_and]

/-! ## Two tokens that go wrong -/

/-- The text of a token whose strings need no escapes. -/
def plainText (token : PageToken) : Text :=
  text ("\x7b\"op\":\"" ++ token.operation ++ "\",\"query\":\"" ++ token.query ++ "\"" ++
    (if token.offset = 0 then "" else ",\"offset\":" ++ toString token.offset.toInt) ++
    (if token.cursor = "" then "" else ",\"cursor\":\"" ++ token.cursor ++ "\"") ++ "\x7d")

/-- JSON as far as the texts of some tokens. -/
def plainJSON (known : List PageToken) : TokenJSON where
  marshal := plainText
  parse raw :=
    if raw = [] then none
    else (known.find? fun token => plainText token = raw).map tokenObject
  empty := rfl

/-- A Host whose turns are all of one size. -/
def evenHost (known : List PageToken) (turnBytes : Nat) : HistoryHost where
  json := plainJSON known
  library := { lower := id, marshal := fun _ => "", sprint := fun _ => "", int64 := fun _ => 0
               int32 := fun _ => 0 }
  resolver := sampleResolver
  turnSize := fun _ => turnBytes
  pageBytes := fun page => 100 + turnBytes * page.turns.length

theorem evenHost_grows (known : List PageToken) (turnBytes : Nat) :
    Grows (evenHost known turnBytes).pageBytes := by
  intro page turns turn
  simp only [evenHost, length_append]
  exact Nat.add_le_add_left (Nat.mul_le_mul_left _ (Nat.le_add_right _ _)) _

theorem plainJSON_reads {known : List PageToken} {token : PageToken}
    (found : (plainText token ≠ []) ∧
      known.find? (fun other => plainText other = plainText token) = some token) :
    (plainJSON known).Reads token := by
  simp only [TokenJSON.Reads, plainJSON, if_neg found.1, found.2, map_some]

/-- The tokens of a thread of three turns. -/
def threeTokens : List PageToken :=
  (List.range 4).map fun offset =>
    { operation := "history", query := "c", offset := Int64.ofNat offset }

theorem threeTokens_read (turnBytes : Nat) : ∀ offset ≤ 3,
    (evenHost threeTokens turnBytes).json.Reads
      { operation := "history", query := "c", offset := Int64.ofNat offset } := by
  have known : ∀ offset ≤ 3,
      (plainText { operation := "history", query := "c", offset := ofNat offset } ≠ []) ∧
      threeTokens.find? (fun other => plainText other =
        plainText { operation := "history", query := "c", offset := ofNat offset }) =
          some { operation := "history", query := "c", offset := ofNat offset } := by
    decide +kernel
  exact fun offset small => plainJSON_reads (known offset small)

/-- A thread of three turns. -/
def threeTurns : Slice AdapterTurn :=
  ⟨[{ id := "1", status := "completed" }, { id := "2", status := "completed" },
    { id := "3", status := "completed" }], by decide⟩

instance (start limit : Int64) : Decidable (Wraps start limit) :=
  inferInstanceAs (Decidable (_ ≤ _))

instance (host : HistoryHost) (codexId : String) (turns : Slice AdapterTurn) (size : UInt32)
    (start : Nat) : Decidable (Advances host codexId turns size start) :=
  inferInstanceAs (Decidable (_ ∧ _))

/-- Three turns of which two do not fit on one page are read on three pages. -/
theorem read_through_three : ∃ fuel pages,
    follow (evenHost threeTokens 300000) "c" threeTurns 2 fuel "" = some pages ∧
      pages.flatMap HistoryPage.turns =
        threeTurns.1.map (turnSnapshot (evenHost threeTokens 300000)) := by
  refine (read_through_iff _ "c" threeTurns 2 (evenHost_grows _ _) (threeTokens_read 300000)).mpr ?_
  have all : ∀ start < 3, Advances (evenHost threeTokens 300000) "c" threeTurns 2 start := by
    decide +kernel
  exact fun start _ more => all start more

/-- Turns within the budget that do not fit on a page of their own, with the page's envelope:
the first page is empty, and a client that follows its token never comes to an end. -/
theorem history_never_ends :
    (∀ turn ∈ threeTurns.1, (evenHost threeTokens 523200).turnSize
        (turnSnapshot (evenHost threeTokens 523200) turn) ≤
      (evenHost threeTokens 523200).budget) ∧
    ∀ fuel, follow (evenHost threeTokens 523200) "c" threeTurns 2 fuel "" = none := by
  have stuck : ¬ Advances (evenHost threeTokens 523200) "c" threeTurns 2 0 := by
    decide +kernel
  refine ⟨by decide +kernel, fun fuel => ?_⟩
  have reads : ∀ offset ≤ threeTurns.1.length, (evenHost threeTokens 523200).json.Reads
      { operation := "history", query := "c", offset := ofNat offset } :=
    threeTokens_read 523200
  exact follow_stuck reads (evenHost_grows _ _) (by decide) stuck fuel Asks.first

/-- The largest offset in a token makes `ListDirectories` and `ListHistory` slice out of
range. -/
theorem largest_offset_panics :
    listDirectories (plainJSON [{ operation := "directories", query := "/w"
                                  offset := Int64.maxValue }]) 100
        (fun parent name => parent ++ "/" ++ name) (.ok "/w") (.ok ⟨[("a", true)], by decide⟩)
        (some { pageToken :=
          "eyJvcCI6ImRpcmVjdG9yaWVzIiwicXVlcnkiOiIvdyIsIm9mZnNldCI6OTIy" ++
          "MzM3MjAzNjg1NDc3NTgwN30" }) = .panicked ∧
      listHistory (evenHost [{ operation := "history", query := "c"
                               offset := Int64.maxValue }] 100) (.ok ()) (.ok ())
        (.found threeTurns) "c"
        (some { pageToken :=
          "eyJvcCI6Imhpc3RvcnkiLCJxdWVyeSI6ImMiLCJvZmZzZXQiOjkyMjMzNzIw" ++
          "MzY4NTQ3NzU4MDd9" }) = .panicked := by
  decide +kernel

end CodexRemote.Paging
