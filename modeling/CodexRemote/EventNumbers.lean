import CodexRemote.Registry
import CodexRemote.Replay

/-!
# One event for each number

Clients identify an event by its Codex and its number. Numbers come from two
places: a publication takes the one its transaction allocated, a `Forget` takes
the cached head plus one and writes nothing. The second is safe as long as nothing
can be published behind it, that is, when the deletion that follows succeeds.

`Forget` delivers first and deletes afterwards. When the deletion fails, a watcher
holds a terminal event under a number the next publication takes again. And when the
deletion is durable but reported as failed, `ForgetCodex` keeps the Codex: its next
row is written without a head, and the numbers start from one. The law is proved for
runs in which every `Forget` deletes or has no watcher to tell and no deleted row is
written again, and two runs show that both conditions are needed.
-/
namespace CodexRemote.Activity

open Protocol Persistence Function List Option Machine
open List (mem_append)

variable {world next : World} {action : Action} {codexID : String}

/-- No number stands for two events. -/
def Agreed (events : List Event) : Prop :=
  ∀ left ∈ events, ∀ right ∈ events, left.eventSeq = right.eventSeq → left = right

/-- Showing known events again, or one event under a number above all others,
keeps numbers unambiguous. -/
theorem agreed_append (agreed : Agreed old) (above : ∀ entry ∈ old, entry.eventSeq < event.eventSeq)
    (known : ∀ entry ∈ new, entry ∈ old ∨ entry = event) : Agreed (old ++ new) := by
  have origin : ∀ entry ∈ old ++ new, entry ∈ old ∨ entry = event := by
    intro entry member
    rcases mem_append.mp member with earlier | later
    · exact .inl earlier
    · exact known entry later
  intro left left_member right right_member same
  rcases origin left left_member with left_old | rfl
  · rcases origin right right_member with right_old | rfl
    · exact agreed left left_old right right_old same
    · have below := above left left_old
      omega
  · rcases origin right right_member with right_old | rfl
    · have below := above right right_old
      omega
    · rfl

/-- Showing only known events adds nothing. -/
theorem agreed_known (agreed : Agreed old) (known : ∀ entry ∈ new, entry ∈ old) :
    Agreed (old ++ new) := by
  have origin : ∀ entry ∈ old ++ new, entry ∈ old := by
    intro entry member
    rcases mem_append.mp member with earlier | later
    · exact earlier
    · exact known entry later
  intro left left_member right right_member same
  exact agreed left (origin left left_member) right (origin right right_member) same

/-- A delivered channel holds what it held and the event. -/
theorem offer_events (event : Event) (addresses : List Nat) (heap : Nat → Watcher) (address : Nat)
    (entry : Event) (held : entry ∈ ((offer event addresses heap).2 address).events) :
    entry ∈ (heap address).events ∨ entry = event := by
  induction addresses generalizing heap with
  | nil => exact .inl held
  | cons first rest ih =>
    unfold offer at held
    simp only at held
    split at held
    all_goals
      rcases ih _ held with earlier | same
      · by_cases visited : address = first
        · subst visited
          simp_all
        · rw [update_of_ne visited] at earlier
          exact .inl earlier
      · exact .inr same

theorem makeRoom_suffix (capacity : Nat) (events : List Event) :
    makeRoom capacity events <:+ events := by
  induction events with
  | nil => exact suffix_refl []
  | cons oldest rest ih =>
    unfold makeRoom
    split
    · exact suffix_refl _
    · exact ih.trans (suffix_cons oldest rest)

/-- A terminated channel holds some of what it held and the terminal event. -/
theorem terminate_events (event : Event) (addresses : List Nat) (heap : Nat → Watcher)
    (address : Nat) (entry : Event)
    (held : entry ∈ (terminate event addresses heap address).events) :
    entry ∈ (heap address).events ∨ entry = event := by
  induction addresses generalizing heap with
  | nil => exact .inl held
  | cons first rest ih =>
    unfold terminate at held
    simp only at held
    rcases ih _ held with earlier | same
    · by_cases visited : address = first
      · subst visited
        rw [update_self] at earlier
        rcases mem_append.mp earlier with kept | last
        · exact .inl ((makeRoom_suffix _ _).subset kept)
        · exact .inr (mem_singleton.mp last)
      · rw [update_of_ne visited] at earlier
        exact .inl earlier
    · exact .inr same

/-- A step puts into a channel only events of the Codex it names, and only while the
channel is registered for that Codex. -/
theorem step_entries (address : Nat) (stepped : step world action = some next) :
    ∀ entry ∈ (next.machine.heap address).events,
      entry ∈ (world.machine.heap address).events ∨
        action.codexID = some entry.codexId ∧
          address ∈ world.machine.registered entry.codexId := by
  intro entry held
  -- Both delivery loops add their event to the channels of the ensured stream.
  have told : ∀ codexID st answers (event : Event), event.codexId = codexID →
      ensure world.machine codexID answers = .ok st →
      (address ∉ st.watchers → entry ∈ (world.machine.heap address).events) →
      (entry ∈ (world.machine.heap address).events ∨ entry = event) →
      entry ∈ (world.machine.heap address).events ∨
        some codexID = some entry.codexId ∧ address ∈ world.machine.registered entry.codexId := by
    rintro codexID st answers event rfl ensured other (earlier | rfl)
    · exact .inl earlier
    by_cases visited : address ∈ st.watchers
    · rw [(ensure_registered ensured).1] at visited
      exact .inr ⟨rfl, visited⟩
    · exact .inl (other visited)
  cases step_moves world next action stepped with
  | wrote | rested | repeated | lost | restarted => exact .inl held
  | refreshed _ codexID st heap named refreshed fewer channels =>
    left
    rcases channels address with same | ⟨-, -, closed⟩
    · exact same ▸ held
    · simpa only [put, closed] using held
  | opened _ codexID st after queue answers named ensured =>
    left
    by_cases fresh : address = world.machine.allocated
    · simp [World.opened, watchLocked, put, fresh] at held
    · simpa [World.opened, watchLocked, put, update_of_ne fresh] using held
  | exposed given view now marshals outcome answers reloads st row raw shown ensured stored =>
    refine told given.codexId st answers (world.numbered given) rfl ensured ?_
      (offer_events _ _ _ _ _ held)
    intro unvisited
    simpa only [World.afterPublish, expose, put, offer_other _ _ unvisited] using held
  | read reading =>
    left
    by_cases same : address = reading
    · subst same
      simp only [update_self] at held
      exact mem_of_mem_tail held
    · simpa only [update_of_ne same] using held
  | announced codexID requestID now outcome answers st after error ensured heap
  | deleted codexID requestID now outcome answers st after ensured heap =>
    simp only [World.afterForget, heap] at held
    refine told codexID st answers _ rfl ensured ?_ (terminate_events _ _ _ _ _ held)
    intro unvisited
    rwa [terminate_other _ _ unvisited] at held

/-- The channels of a Codex that a step does not name gain nothing: registrations of
different Codexes are different addresses. -/
theorem step_channel_elsewhere (registry : Registry world.machine)
    (stepped : step world action = some next) (elsewhere : action.codexID ≠ some codexID)
    (member : address ∈ world.machine.registered codexID) :
    ∀ entry ∈ (next.machine.heap address).events,
      entry ∈ (world.machine.heap address).events := by
  intro entry held
  rcases step_entries address stepped entry held with
    earlier | ⟨named, listed⟩
  · exact earlier
  · have same := registry.separate codexID entry.codexId address member listed
    exact absurd (same ▸ named) elsewhere

/-- Everything a client may still be shown has been shown under its number, and
new numbers lie above all of them. -/
structure Numbered (world : World) : Prop where
  replayable : Replayable world
  registry : Registry world.machine
  agreed : ∀ codexID, Agreed (world.exposed codexID)
  bounded : ∀ codexID, codexID ∉ world.forgotten → ∀ event ∈ world.exposed codexID,
    event.eventSeq ≤ world.machine.disk.head codexID
  cached : ∀ codexID st, world.machine.codex codexID = some st →
    ∀ event ∈ st.events, event ∈ world.exposed codexID
  queued : ∀ codexID, ∀ address ∈ world.machine.registered codexID,
    ∀ event ∈ (world.machine.heap address).events, event ∈ world.exposed codexID

/-- The part of the law that concerns one Codex. -/
structure NumberedAt (world : World) (codexID : String) : Prop where
  agreed : Agreed (world.exposed codexID)
  bounded : codexID ∉ world.forgotten → ∀ event ∈ world.exposed codexID,
    event.eventSeq ≤ world.machine.disk.head codexID
  cached : ∀ st, world.machine.codex codexID = some st →
    ∀ event ∈ st.events, event ∈ world.exposed codexID
  queued : ∀ address ∈ world.machine.registered codexID,
    ∀ event ∈ (world.machine.heap address).events, event ∈ world.exposed codexID

theorem numbered_at (world : World) (kept : Numbered world) (codexID : String) :
    NumberedAt world codexID :=
  ⟨kept.agreed codexID, kept.bounded codexID, kept.cached codexID, kept.queued codexID⟩

theorem numbered_of_at (replayable : Replayable world) (registry : Registry world.machine)
    (each : ∀ codexID, NumberedAt world codexID) : Numbered world :=
  ⟨replayable, registry, fun codexID => (each codexID).agreed,
    fun codexID => (each codexID).bounded, fun codexID => (each codexID).cached,
    fun codexID => (each codexID).queued⟩

theorem start_numbered (start : Start world) : Numbered world := by
  refine ⟨start_replayable start, start_registry start, ?_, ?_, ?_, ?_⟩
  · intro codexID left left_member right right_member same
    have ordered := start.ordered codexID
    by_contra different
    rcases List.Pairwise.forall_of_forall_of_flip (R := fun a b : Event =>
        a = b ∨ a.eventSeq < b.eventSeq ∨ b.eventSeq < a.eventSeq)
        (fun _ _ => .inl rfl) (ordered.imp fun less => .inr (.inl less))
        (ordered.imp fun less => .inr (.inr less))
        (start.shown codexID left left_member)
        (start.shown codexID right right_member) with equal | less | more
    · exact different equal
    · omega
    · omega
  · intro codexID _ event member
    exact start.bounded codexID event (start.shown codexID event member)
  · intro codexID st cached
    rw [start.streams codexID] at cached
    cases cached
  · intro codexID address member
    simp [start_registered start] at member

/-- An ensured stream caches what the Codex had cached, or nothing. -/
theorem ensure_events (ensured : ensure m codexID answers = .ok st) :
    ∀ event ∈ st.events, ∃ old, m.codex codexID = some old ∧ event ∈ old.events := by
  intro event member
  obtain ⟨cached, -⟩ | ⟨old, row, cached, -, -, rfl⟩ | ⟨row, -, -, rfl⟩ := ensure_cases ensured
  · exact ⟨st, cached, member⟩
  · exact ⟨old, cached, member⟩
  · cases member

/-- A stream that a call puts in place caches what the Codex had cached, or nothing. -/
theorem Refreshed.events (refreshed : Refreshed m codexID st) :
    ∀ event ∈ st.events, ∃ old, m.codex codexID = some old ∧ event ∈ old.events := by
  intro event member
  cases refreshed with
  | kept old cached events current => exact ⟨old, cached, events ▸ member⟩
  | ensured answers old is events head => exact ensure_events is event (events ▸ member)
  | reloaded answers old is =>
    rw [is, (reloadUnsafe_fields m.disk codexID answers old).1] at member
    cases member

/-- Every `Forget` either deletes an existing row or has no watcher to tell. -/
def TellsOnlyDeletions (world : World) : Action → Prop
  | .forget codexID _ _ outcome _ =>
      (outcome = .committed ∧ (world.machine.disk.codexes codexID).isSome) ∨
        world.machine.registered codexID = []
  | _ => True

/-- What a step may show of one Codex: known events again, or known events and one
whose number lies above all numbers shown and, while the row exists, is the head. -/
def Originates (world next : World) (codexID : String) (new : List Event) : Prop :=
  (∀ entry ∈ new, entry ∈ world.exposed codexID) ∨
    ∃ event, (∀ entry ∈ world.exposed codexID, entry.eventSeq < event.eventSeq) ∧
      (∀ entry ∈ new, entry ∈ world.exposed codexID ∨ entry = event) ∧
      (codexID ∉ next.forgotten → event.eventSeq ≤ next.machine.disk.head codexID)

theorem numberedAt_grow (world next : World) (codexID : String) (new : List Event)
    (before : NumberedAt world codexID)
    (exposed : next.exposed codexID = world.exposed codexID ++ new)
    (origin : Originates world next codexID new)
    (heads : codexID ∉ next.forgotten → codexID ∉ world.forgotten ∧
      world.machine.disk.head codexID ≤ next.machine.disk.head codexID)
    (cached : ∀ st, next.machine.codex codexID = some st → ∀ entry ∈ st.events,
      entry ∈ world.exposed codexID ∨ entry ∈ new)
    (queued : ∀ address ∈ next.machine.registered codexID,
      ∀ entry ∈ (next.machine.heap address).events,
        entry ∈ world.exposed codexID ∨ entry ∈ new) : NumberedAt next codexID := by
  refine ⟨?_, ?_, ?_, ?_⟩
  · rw [exposed]
    rcases origin with known | ⟨event, above, known, -⟩
    · exact agreed_known before.agreed known
    · exact agreed_append before.agreed above known
  · intro remembered entry member
    obtain ⟨earlier, moved⟩ := heads remembered
    have old : ∀ entry ∈ world.exposed codexID,
        entry.eventSeq ≤ next.machine.disk.head codexID :=
      fun entry shown => Nat.le_trans (before.bounded earlier entry shown) moved
    rw [exposed] at member
    rcases mem_append.mp member with shown | added
    · exact old entry shown
    rcases origin with known | ⟨event, -, known, limit⟩
    · exact old entry (known entry added)
    · rcases known entry added with shown | rfl
      · exact old entry shown
      · exact limit remembered
  · intro st stream entry member
    rw [exposed]
    exact mem_append.mpr (cached st stream entry member)
  · intro address member entry held
    rw [exposed]
    exact mem_append.mpr (queued address member entry held)

/-- What the registered channels hold before a step was shown. -/
theorem delivered_known {next : Machine} (before : NumberedAt world codexID)
    (heap : next.heap = world.machine.heap) :
    ∀ entry ∈ delivered world.machine next codexID, entry ∈ world.exposed codexID := by
  intro entry member
  obtain ⟨address, registered, held⟩ := mem_flatMap.mp member
  rw [heap] at held
  exact before.queued address registered entry held

/-- A publication or a deletion, which shows what it returns and what the registered channels hold
then, and registers nobody. -/
theorem numberedAt_told (world next : World) (codexID : String) (returned : List Event)
    (before : NumberedAt world codexID) (exposed : next.exposed codexID = world.exposed codexID ++
      (returned ++ delivered world.machine next.machine codexID))
    (fewer : (next.machine.registered codexID).Sublist (world.machine.registered codexID))
    (origin : Originates world next codexID
      (returned ++ delivered world.machine next.machine codexID))
    (heads : codexID ∉ next.forgotten → codexID ∉ world.forgotten ∧
      world.machine.disk.head codexID ≤ next.machine.disk.head codexID)
    (cached : ∀ st, next.machine.codex codexID = some st → ∀ entry ∈ st.events,
      entry ∈ world.exposed codexID ∨ entry ∈ returned) : NumberedAt next codexID := by
  refine numberedAt_grow world next codexID _ before exposed origin heads ?_ ?_
  · intro st stream entry member
    exact (cached st stream entry member).imp_right (mem_append_left _)
  · intro address member entry held
    exact .inr (mem_append_right _ (mem_flatMap.mpr ⟨address, fewer.subset member, held⟩))

/-- A delivery to the registered channels shows them what they held, and its event. -/
theorem delivered_new {next : Machine} (before : NumberedAt world codexID)
    (held : ∀ address, ∀ entry ∈ (next.heap address).events,
      entry ∈ (world.machine.heap address).events ∨ entry = event) :
    ∀ entry ∈ [event] ++ delivered world.machine next codexID,
      entry ∈ world.exposed codexID ∨ entry = event := by
  intro entry member
  rcases mem_append.mp member with returned | live
  · exact .inr (mem_singleton.mp returned)
  · obtain ⟨address, registered, listed⟩ := mem_flatMap.mp live
    exact (held address entry listed).imp_left (before.queued address registered entry)

theorem answer_replay (codexID : String) (st : Stream) (after : Option Nat) :
    ∀ entry ∈ (answer codexID st after).2, entry ∈ st.events := by
  unfold answer
  cases after with
  | none => exact fun _ member => by cases member
  | some cursor =>
    simp only
    split
    · exact fun _ member => by cases member
    split
    · exact fun _ member => by cases member
    split
    · exact fun _ member => by cases member
    · exact fun _ member => mem_of_mem_filter member

/-- A step that shows nothing and moves no head keeps the law of a Codex whose
cache and channels only lost events. -/
theorem numberedAt_quiet (before : NumberedAt world codexID)
    (exposed : next.exposed codexID = world.exposed codexID)
    (forgotten : codexID ∉ next.forgotten → codexID ∉ world.forgotten)
    (head : next.machine.disk.head codexID = world.machine.disk.head codexID)
    (cached : ∀ st, next.machine.codex codexID = some st → ∀ entry ∈ st.events,
      ∃ old, world.machine.codex codexID = some old ∧ entry ∈ old.events)
    (queued : ∀ address ∈ next.machine.registered codexID,
      address ∈ world.machine.registered codexID ∧
      ∀ entry ∈ (next.machine.heap address).events,
        entry ∈ (world.machine.heap address).events) : NumberedAt next codexID := by
  refine numberedAt_grow world next codexID [] before (by simp [exposed])
    (.inl fun _ member => by cases member)
    (fun remembered => ⟨forgotten remembered, Nat.le_of_eq head.symm⟩) ?_ ?_
  · intro st stream entry member
    obtain ⟨old, held, listed⟩ := cached st stream entry member
    exact .inl (before.cached old held entry listed)
  · intro address member entry held
    obtain ⟨registered, fewer⟩ := queued address member
    exact .inl (before.queued address registered entry (fewer entry held))

/-- The Codex an action names keeps the law.

Proof: a publication that exposes an event found the row, so the Codex is not forgotten and all
numbers shown are at most the head before it. Under the condition a deletion shows its terminal
event only where the Codex is gone afterwards. -/
theorem step_named_numbered (kept : Numbered world) (tells : TellsOnlyDeletions world action)
    (stepped : step world action = some next) (named : action.codexID = some codexID) :
    NumberedAt next codexID := by
  have before := numbered_at world kept codexID
  have remembered : (world.machine.disk.codexes codexID).isSome → codexID ∉ world.forgotten := by
    intro stored gone
    rw [kept.replayable.removed _ gone] at stored
    cases stored
  have shown : ∀ st, Refreshed world.machine codexID st →
      ∀ entry ∈ st.events, entry ∈ world.exposed codexID := by
    intro st refreshed entry member
    obtain ⟨old, cached, listed⟩ := refreshed.events entry member
    exact before.cached old cached entry listed
  have fewer : next.machine.allocated = world.machine.allocated →
      (next.machine.registered codexID).Sublist (world.machine.registered codexID) := by
    intro allocated
    obtain ⟨-, fewer⟩ | ⟨-, grown, -⟩ := step_registered world next action stepped
    · exact fewer codexID
    · omega
  cases step_moves world next action stepped with
  | wrote => exact { before with }
  | rested => exact before
  | repeated _ id is =>
    obtain rfl := some.inj (is.symm.trans named)
    refine numberedAt_told world _ id [] before (update_self ..) (fewer rfl)
      (.inl (delivered_known before rfl)) (fun absent => ⟨absent, Nat.le_refl _⟩) ?_
    exact fun st cached entry member => .inl (before.cached st cached entry member)
  | refreshed _ id st heap is refreshed sublist channels =>
    obtain rfl := some.inj (is.symm.trans named)
    refine numberedAt_quiet before rfl (fun absent => absent) rfl ?_ ?_
    · intro stream cached
      simp only [put, update_self, some.injEq] at cached
      exact cached ▸ refreshed.events
    · intro address member
      rw [registered_put, if_pos rfl] at member
      refine ⟨sublist.subset member, ?_⟩
      intro entry held
      rcases channels address with same | ⟨-, closed, -⟩
      · exact same ▸ held
      · exact absurd member closed
  | opened _ id st after queue answers is ensured =>
    obtain rfl := some.inj (is.symm.trans named)
    have cachedBefore := shown st (.ensured answers st ensured rfl rfl)
    refine numberedAt_grow world _ id _ before (update_self ..) (.inl ?_)
      (fun absent => ⟨absent, Nat.le_refl _⟩) ?_ ?_
    · exact fun entry member => cachedBefore entry (answer_replay id st after entry member)
    · intro stream cached entry member
      simp only [World.opened, watchLocked, put, update_self, some.injEq] at cached
      rw [← cached] at member
      exact .inl (cachedBefore entry member)
    · intro address member entry held
      have registered : address ∈ world.machine.registered id ++ [world.machine.allocated] := by
        simpa [World.opened, watchLocked, registered_put,
          (ensure_registered ensured).1] using member
      rcases mem_append.mp registered with earlier | last
      · have older := kept.registry.allocated id address earlier
        refine .inl (before.queued address earlier entry ?_)
        simpa [World.opened, watchLocked, put, update_of_ne (Nat.ne_of_lt older)] using held
      · obtain rfl := mem_singleton.mp last
        simp [World.opened, watchLocked, put] at held
  | lost given view now marshals outcome answers reloads st disk error ensured moved =>
    cases named
    refine numberedAt_told world _ given.codexId [] before (update_self ..)
      (fewer rfl) (.inl (delivered_known before rfl))
      (fun absent => ⟨absent, ?_⟩) ?_
    · obtain rfl | ⟨-, row, raw, -, rfl⟩ := moved
      · exact Nat.le_refl _
      · simp [World.afterPublish, put]
    · intro stream cached entry member
      simp only [World.afterPublish, put, update_self, some.injEq] at cached
      rw [← cached, (reloadUnsafe_fields disk given.codexId reloads st).1] at member
      cases member
  | exposed given view now marshals outcome answers reloads st row raw shownView ensured stored =>
    cases named
    have there := remembered (by rw [stored]; rfl)
    have head : (world.machine.disk.writeEvent now given.codexId row
        (world.machine.disk.head given.codexId + 1) raw).head given.codexId =
        world.machine.disk.head given.codexId + 1 := writeEvent_head ..
    refine numberedAt_told world _ given.codexId [world.numbered given] before
      (update_self ..) (fewer rfl) (.inr ⟨world.numbered given, ?_,
        delivered_new before fun address entry =>
          offer_events _ _ _ address entry, fun _ => Nat.le_of_eq head.symm⟩)
      (fun _ => ⟨there, Nat.le_trans (Nat.le_succ _) (Nat.le_of_eq head.symm)⟩) ?_
    · intro entry member
      exact Nat.lt_succ_of_le (before.bounded there entry member)
    intro stream cached entry member
    simp only [World.afterPublish, expose, put, World.numbered, update_self,
      some.injEq] at cached
    rw [← cached] at member
    rcases mem_append.mp (mem_of_mem_drop member) with earlier | last
    · exact .inl (shown st (.ensured answers st ensured rfl rfl) entry earlier)
    · exact .inr last
  | announced id requestID now outcome answers st after error ensured heap allocated streams disk
      missing =>
    obtain rfl := some.inj named
    have earlier := mt (step_forgotten world _ _ id stepped)
    have unwatched : world.machine.registered id = [] := by
      rcases tells with ⟨committed, stored⟩ | unwatched
      · rw [missing committed] at stored
        cases stored
      · exact unwatched
    refine numberedAt_told world _ id [] before (update_self ..) (fewer allocated)
      (.inl ?_) (fun absent => ⟨earlier absent, ?_⟩) ?_
    · simp [delivered, unwatched]
    · rcases disk with same | ⟨stored, gone⟩
      · simp [World.afterForget, same]
      · exact absurd (forget_recorded world id _ stored gone) absent
    · intro stream cached entry member
      simp only [World.afterForget, streams, update_self, some.injEq] at cached
      exact .inl (shown stream (cached ▸ .ensured answers st ensured rfl rfl) entry member)
  | deleted id requestID now outcome answers st after ensured heap allocated streams stored gone =>
    obtain rfl := some.inj named
    have there := remembered stored
    have recorded := fun result : Except StoreError Event =>
      forget_recorded world id (after, result) stored gone
    have current := (ensure_cached (kept.replayable.coherent id there) ensured).2
    refine numberedAt_told world _ id [forgottenEvent st id requestID now] before
      (update_self ..) (fewer allocated)
      (.inr ⟨forgottenEvent st id requestID now, ?_, ?_,
        fun absent => absurd (recorded _) absent⟩) (fun absent => absurd (recorded _) absent) ?_
    · intro entry member
      have below := before.bounded there entry member
      simp only [forgottenEvent]
      omega
    · refine delivered_new before ?_
      intro address entry held
      simp only [World.afterForget, heap] at held
      exact terminate_events _ _ _ _ _ held
    · intro stream cached
      simp [World.afterForget, streams] at cached
  | read | restarted => cases named

/-- Every step under the condition keeps the law. -/
theorem step_numbered (world : World) (action : Action) (next : World)
    (kept : Numbered world) (tells : TellsOnlyDeletions world action)
    (stepped : step world action = some next) : Numbered next := by
  refine numbered_of_at (step_replayable kept.replayable stepped)
    (step_registry kept.registry stepped) ?_
  intro codexID
  have before := numbered_at world kept codexID
  by_cases restarts : action.isRestart = true
  · cases action with
    | restart replayCapacity =>
      cases stepped
      refine ⟨before.agreed, before.bounded, ?_, ?_⟩
      · intro st cached
        cases cached
      · intro address member
        cases member
    | _ => cases restarts
  by_cases named : action.codexID = some codexID
  · exact step_named_numbered kept tells stepped named
  have same := step_untouched stepped (by simpa using restarts) named
  have registered : next.machine.registered codexID = world.machine.registered codexID := by
    simp only [registered, same.machine.stream]
  refine numberedAt_quiet before same.exposed
    (fun absent member => absent (same.forgotten.mpr member)) same.machine.head ?_ ?_
  · intro st cached entry member
    rw [same.machine.stream] at cached
    exact ⟨st, cached, member⟩
  · intro address member
    rw [registered] at member
    exact ⟨member, step_channel_elsewhere kept.registry stepped named member⟩

/-- What a publication that succeeds promises: its event carries the number after
the durable head, and that number becomes the head. -/
def TakesNextNumber (m : Machine) : Prop :=
  ∀ event view now marshals outcome answers reloads next exposed,
    publish m event view now marshals outcome answers reloads = (next, .ok exposed) →
    exposed.eventSeq = m.disk.head exposed.codexId + 1 ∧
      next.disk.head exposed.codexId = exposed.eventSeq

theorem publish_takes_next (m : Machine) : TakesNextNumber m := by
  intro event view now marshals outcome answers reloads next exposed published
  obtain ⟨-, error, refused⟩ | ⟨given, st, rfl, -, -, body⟩ :=
    publish_cases m event view now marshals outcome answers reloads
  · rw [published] at refused
    cases refused
  obtain ⟨disk, error, result, -⟩ | ⟨row, raw, shown, -, result⟩ := body
  · rw [published] at result
    cases (Prod.mk.inj result).2
  rw [published] at result
  obtain ⟨rfl, same⟩ := Prod.mk.inj result
  cases same
  exact ⟨rfl, writeEvent_head ..⟩

/-- A step that may write the row of a deleted Codex again. `ForgetCodex` keeps the
Codex in its tables when the deletion is reported as failed, also if it is durable,
and the next `persistState` of the Codex is an upsert. -/
def rewritingStep (world : World) : Action → Option World
  | .upsertCodex row =>
      some { world with
        machine := { world.machine with disk := upsertCodex world.machine.disk row } }
  | action => step world action

/-- Every `Forget` deletes an existing row or has no watcher to tell, and the row of
a deleted Codex is not written again. -/
def DeletesForGood (world : World) : Action → Prop
  | .upsertCodex row => row.codexID ∉ world.forgotten
  | action => TellsOnlyDeletions world action

/-- Under the condition the step is the one of the Store. -/
theorem rewritingStep_eq (world : World) (action : Action)
    (deletes : DeletesForGood world action) : rewritingStep world action = step world action := by
  cases action with
  | upsertCodex row =>
    have present : row.codexID ∉ world.forgotten := deletes
    simp [rewritingStep, step, present]
  | _ => rfl

theorem DeletesForGood.tells {world : World} {action : Action}
    (deletes : DeletesForGood world action) : TellsOnlyDeletions world action := by
  cases action with
  | upsertCodex row => trivial
  | _ => exact deletes

/-- In every run in which each `Forget` deletes its Codex or has no watcher to
tell and no deleted row is written again, no number of a Codex is ever shown for two
events, and every publication takes the number after the durable head. -/
theorem numbers_identify_events (start world : World) (actions : List Action)
    (initial : Start start) (deletes : Runs.Meets rewritingStep DeletesForGood start actions)
    (ran : Runs.run rewritingStep start actions = some world) :
    (∀ codexID, Agreed (world.exposed codexID)) ∧ TakesNextNumber world.machine := by
  have kept : Numbered world := by
    refine Runs.run_invariant Numbered ?_ (start_numbered initial) deletes ran
    intro before action after numbered deletes stepped
    rw [rewritingStep_eq before action deletes] at stepped
    exact step_numbered before action after numbered deletes.tells stepped
  exact ⟨kept.agreed, publish_takes_next world.machine⟩

/-- A watched Codex is published to and then deleted. -/
theorem numbers_identify_events_deleted : ∃ world,
    Runs.run rewritingStep (emptyHost 8) [.upsertCodex sampleRow, .watch "cdx" none 4 true,
      samplePublish "one" .committed, .forget "cdx" "req" 9 .committed true] = some world ∧
    (world.exposed "cdx").map Event.eventSeq = [1, 1, 2, 1, 2] ∧
    (∀ codexID, Agreed (world.exposed codexID)) ∧ TakesNextNumber world.machine := by
  refine ⟨_, rfl, rfl, ?_⟩
  refine numbers_identify_events (emptyHost 8) _ [.upsertCodex sampleRow,
    .watch "cdx" none 4 true, samplePublish "one" .committed,
    .forget "cdx" "req" 9 .committed true] (emptyHost_start 8) ?_ rfl
  refine ⟨not_mem_nil, fun first created => ⟨trivial, fun second watched => ⟨trivial,
    fun third published => ⟨.inl ⟨rfl, ?_⟩, fun _ _ => trivial⟩⟩⟩⟩
  cases created
  cases watched
  cases published
  rfl

/-- A deletion fails after its terminal event was delivered under number two, and the
next publication takes number two as well. And without any watcher: a deletion is
durable but reported as failed, the row is written again, and the next publication
takes number one once more. -/
theorem failed_forget_reuses_number :
    (∃ world,
      Runs.run rewritingStep (emptyHost 8) [.upsertCodex sampleRow, .watch "cdx" none 4 true,
        samplePublish "one" .committed, .forget "cdx" "req" 9 .rolledBack true,
        samplePublish "two" .committed] = some world ∧
      (∃ left ∈ world.exposed "cdx", ∃ right ∈ world.exposed "cdx",
        left.eventSeq = 2 ∧ right.eventSeq = 2 ∧ left.body = .codexForgotten ∧
        right.body = .turnUpdated "two" .running 1 0 none) ∧
      ¬ Agreed (world.exposed "cdx")) ∧
    ∃ world,
      Runs.run rewritingStep (emptyHost 8) [.upsertCodex sampleRow,
        samplePublish "one" .committed, .forget "cdx" "req" 9 (.unknown true) true,
        .upsertCodex sampleRow, samplePublish "two" .committed] = some world ∧
      (∃ left ∈ world.exposed "cdx", ∃ right ∈ world.exposed "cdx",
        left.eventSeq = 1 ∧ right.eventSeq = 1 ∧
        left.body = .turnUpdated "one" .running 1 0 none ∧
        right.body = .turnUpdated "two" .running 1 0 none) ∧
      ¬ Agreed (world.exposed "cdx") := by
  constructor
  · refine ⟨_, rfl, by decide, ?_⟩
    unfold Agreed
    decide
  · refine ⟨_, rfl, by decide, ?_⟩
    unfold Agreed
    decide

end CodexRemote.Activity
