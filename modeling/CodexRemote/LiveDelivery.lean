import CodexRemote.Registry
import CodexRemote.Replay

/-!
# Live delivery to registered watchers

A watcher is opened at a head. As long as it is registered, what its client has
read and what its channel still holds should be numbered from that head on, and
reach the durable head. A publication keeps this: it appends the next number to
every channel with room, and takes the registration of every other watcher and
raises its slow signal.

A commit whose outcome is unknown but which became durable moves the head without
a delivery, and the reload that follows keeps the registrations. The next
publication then skips a number in an open channel. The law is therefore proved
for runs in which no such commit meets a registered watcher, and one run shows
that the condition is needed.
-/
namespace CodexRemote.Activity

open Protocol Persistence Numbering Function List Option

variable {world next : World} {address : Nat} {codexID : String} {st : Stream}

/-- What a watcher's client has been handed: what it read, then what its channel
still holds. -/
def handed (world : World) (address : Nat) : List Event :=
  world.received address ++ (world.machine.heap address).events

/-- A watcher of a Codex that has missed nothing since it was opened. -/
structure InStep (world : World) (codexID : String) (address : Nat) : Prop where
  open_channel : (world.machine.heap address).slow = false ∧
    (world.machine.heap address).closed = false
  numbered : Consecutive Event.eventSeq (world.base address + 1) (handed world address)
  complete : codexID ∉ world.forgotten →
    world.base address + (handed world address).length = world.machine.disk.head codexID

/-- Every registered watcher is in step. -/
structure Delivering (world : World) : Prop where
  replayable : Replayable world
  registry : Registry world.machine
  unused : ∀ address, world.machine.allocated ≤ address → handed world address = []
  in_step : ∀ codexID, ∀ address ∈ world.machine.registered codexID,
    InStep world codexID address

theorem start_delivering (start : Start world) : Delivering world := by
  refine ⟨start_replayable start, start_registry start, ?_, ?_⟩
  · intro address free
    obtain ⟨empty, unread⟩ := start.unused address free
    simp [handed, empty, unread]
  · intro codexID address member
    simp [start_registered start] at member

/-- A channel and its history as a step found them, up to what its client has moved
from one to the other. -/
structure SameChannel (world next : World) (address : Nat) : Prop where
  slow : (next.machine.heap address).slow = (world.machine.heap address).slow
  closed : (next.machine.heap address).closed = (world.machine.heap address).closed
  handed : handed next address = handed world address
  base : next.base address = world.base address

theorem sameChannel_of_heap (heap : next.machine.heap address = world.machine.heap address)
    (received : next.received = world.received) (base : next.base = world.base) :
    SameChannel world next address :=
  ⟨by rw [heap], by rw [heap], by simp [Activity.handed, heap, received], by rw [base]⟩

/-- A watcher whose channel and head a step leaves alone stays in step. -/
theorem InStep.same (before : InStep world codexID address) (same : SameChannel world next address)
    (head : next.machine.disk.head codexID = world.machine.disk.head codexID)
    (forgotten : codexID ∈ world.forgotten → codexID ∈ next.forgotten) :
    InStep next codexID address := by
  refine ⟨?_, ?_, ?_⟩
  · rw [same.slow, same.closed]
    exact before.open_channel
  · rw [same.base, same.handed]
    exact before.numbered
  · intro remembered
    rw [same.base, same.handed, head]
    exact before.complete fun earlier => remembered (forgotten earlier)

/-- Free and registered addresses are the ones the law is about. -/
def Watched (world next : World) (address : Nat) : Prop :=
  (∃ codexID, address ∈ next.machine.registered codexID) ∨ world.machine.allocated ≤ address

section Steps

variable {world next : World} {action : Action}

/-- A step that delivers nothing keeps every watcher in step, provided it moves no
head under a watcher. -/
theorem delivering_quiet (kept : Delivering world) (stepped : step world action = some next)
    (allocated : next.machine.allocated = world.machine.allocated)
    (channels : ∀ address, Watched world next address → SameChannel world next address)
    (heads : ∀ codexID, next.machine.registered codexID ≠ [] →
      next.machine.disk.head codexID = world.machine.disk.head codexID) : Delivering next := by
  refine ⟨step_replayable kept.replayable stepped, step_registry kept.registry stepped, ?_, ?_⟩
  · intro address above
    rw [allocated] at above
    rw [(channels address (.inr above)).handed, kept.unused address above]
  · intro codexID address member
    obtain ⟨-, fewer⟩ | ⟨-, grown, -⟩ := step_registered world next action stepped
    · exact (kept.in_step codexID address ((fewer codexID).subset member)).same
        (channels address (.inl ⟨codexID, member⟩)) (heads codexID (ne_nil_of_mem member))
        (step_forgotten world next action codexID stepped)
    · omega

/-- No unknown commit becomes durable while the Codex has a registered watcher. -/
def KnownWhileWatched (world : World) : Action → Prop
  | .publish (some event) _ _ _ outcome _ _ =>
      outcome = .unknown true → world.machine.registered event.codexId = []
  | _ => True

/-- A publication that succeeds hands its event to every watcher it leaves
registered. -/
theorem exposed_delivering (kept : Delivering world)
    (watchers : st.watchers = world.machine.registered given.codexId)
    (stored : world.machine.disk.codexes given.codexId = some row)
    (is : next = world.afterPublish (some given) (expose
      { world.machine with
        disk := world.machine.disk.writeEvent now given.codexId row
          (world.machine.disk.head given.codexId + 1) raw } st shown (world.numbered given),
      .ok (world.numbered given))) (stepped : step world action = some next) : Delivering next := by
  have replayable := step_replayable kept.replayable stepped
  have registry := step_registry kept.registry stepped
  have heap : next.machine.heap =
      (offer (world.numbered given) st.watchers world.machine.heap).2 := by
    rw [is]
    rfl
  have registered : ∀ codexID, next.machine.registered codexID = if codexID = given.codexId then
        (offer (world.numbered given) st.watchers world.machine.heap).1
      else world.machine.registered codexID := by
    intro codexID
    rw [is]
    simp only [World.afterPublish, expose, registered_put]
    rfl
  have same : ∀ address, address ∉ st.watchers → SameChannel world next address := by
    intro address outside
    refine sameChannel_of_heap ?_ (by rw [is]; rfl) (by rw [is]; rfl)
    rw [heap, offer_other _ _ outside]
  refine ⟨replayable, registry, ?_, ?_⟩
  · intro address above
    have free : world.machine.allocated ≤ address := by
      rw [is] at above
      exact above
    have outside : address ∉ st.watchers := by
      intro member
      have below := kept.registry.allocated given.codexId address (watchers ▸ member)
      omega
    rw [(same address outside).handed, kept.unused address free]
  · intro codexID address member
    rw [registered] at member
    split at member
    · next named =>
      subst named
      have visited := (offer_sublist ..).subset member
      have before := kept.in_step given.codexId address (watchers ▸ visited)
      have remembered : given.codexId ∉ world.forgotten := by
        intro gone
        cases (kept.replayable.removed _ gone).symm.trans stored
      obtain ⟨-, delivered⟩ | ⟨lost, -⟩ := offer_member (world.numbered given) world.machine.heap
        (watchers ▸ kept.registry.distinct given.codexId) visited
      · have grown : handed next address = handed world address ++ [world.numbered given] := by
          simp only [handed, heap, delivered, ← append_assoc]
          rw [is]
          rfl
        have base : next.base address = world.base address := by
          rw [is]
          rfl
        have count := before.complete remembered
        refine ⟨?_, ?_, ?_⟩
        · rw [heap, delivered]
          exact before.open_channel
        · rw [base, grown]
          refine consecutive_snoc before.numbered ?_
          simp only [World.numbered]
          omega
        · intro _
          have head : next.machine.disk.head given.codexId =
              world.machine.disk.head given.codexId + 1 := by
            rw [is]
            exact writeEvent_head ..
          rw [base, grown, head, length_append, length_singleton]
          omega
      · exact (lost member).elim
    · next distinct =>
      refine (kept.in_step codexID address member).same (same address ?_) ?_ ?_
      · intro visited
        exact distinct (kept.registry.separate codexID given.codexId address member
          (watchers ▸ visited))
      · rw [is]
        exact (writeEvent_other _ _ _ _ _ distinct).2
      · exact step_forgotten world next action codexID stepped

theorem answer_head (codexID : String) (st : Stream) (after : Option Nat) :
    (answer codexID st after).1.headEventSeq = st.head := by
  unfold answer
  cases after with
  | none => rfl
  | some cursor =>
    simp only
    split
    · rfl
    split
    · rfl
    split <;> rfl

/-- A watcher opens at the durable head with nothing handed to it. -/
theorem opened_delivering (kept : Delivering world) {after : Option Nat}
    (ensured : ensure world.machine codexID answers = .ok st)
    (is : next = world.opened codexID ((watchLocked world.machine codexID st after queue).1,
      .ok (watchLocked world.machine codexID st after queue).2))
    (stepped : step world action = some next) : Delivering next := by
  have replayable := step_replayable kept.replayable stepped
  have registry := step_registry kept.registry stepped
  have watchers := (ensure_registered ensured).1
  have same : ∀ address, address ≠ world.machine.allocated →
      SameChannel world next address := by
    intro address apart
    subst is
    constructor <;>
      simp [Activity.handed, World.opened, watchLocked, Machine.put, update_of_ne apart]
  refine ⟨replayable, registry, ?_, ?_⟩
  · intro address above
    have free : world.machine.allocated + 1 ≤ address := by
      rw [is] at above
      exact above
    rw [(same address (by omega)).handed, kept.unused address (by omega)]
  · intro other address member
    have carried : address ∈ world.machine.registered other → InStep next other address := by
      intro earlier
      exact (kept.in_step other address earlier).same
        (same address (Nat.ne_of_lt (kept.registry.allocated other address earlier)))
        (by rw [is]; rfl) (by rw [is]; exact id)
    subst is
    simp only [World.opened, watchLocked, registered_put] at member
    split at member
    · next named =>
      subst named
      rw [watchers] at member
      rcases mem_append.mp member with earlier | last
      · exact carried earlier
      obtain rfl := mem_singleton.mp last
      have unread : world.received world.machine.allocated = [] :=
        (append_eq_nil_iff.mp (kept.unused _ (Nat.le_refl _))).1
      refine ⟨?_, ?_, ?_⟩
      · simp [World.opened, watchLocked, Machine.put]
      · simp [handed, World.opened, watchLocked, Machine.put, unread, consecutive_nil]
      intro remembered
      have coherent := kept.replayable.coherent other remembered
      have current := (ensure_cached coherent ensured).2
      simp [handed, World.opened, watchLocked, Machine.put, unread, answer_head, current]
    · exact carried member

/-- Forgetting a Codex ends its watchers and is not seen by others. -/
theorem ended_delivering (kept : Delivering world)
    (watchers : st.watchers = world.machine.registered codexID)
    (named : action.codexID = some codexID) (running : action.isRestart = false)
    (heap : next.machine.heap = terminate event st.watchers world.machine.heap)
    (allocated : next.machine.allocated = world.machine.allocated)
    (streams : next.machine.codex = update world.machine.codex codexID stream)
    (ended : ∀ st, stream = some st → st.watchers = []) (received : next.received = world.received)
    (base : next.base = world.base) (stepped : step world action = some next) :
    Delivering next := by
  have registered := fun other =>
    ended_registered other streams ended
  refine delivering_quiet kept stepped allocated ?_ ?_
  · intro address watched
    refine sameChannel_of_heap ?_ received base
    rw [heap]
    refine terminate_other _ _ fun visited => ?_
    have own := watchers ▸ visited
    rcases watched with ⟨other, member⟩ | free
    · rw [registered] at member
      split at member
      · cases member
      · next distinct =>
        exact distinct (kept.registry.separate other codexID address member own)
    · have below := kept.registry.allocated codexID address own
      omega
  · intro other watched
    have distinct : other ≠ codexID := by
      rintro rfl
      exact watched (by rw [registered, if_pos rfl])
    exact (step_untouched stepped running
      (named ▸ fun same => distinct (some.inj same).symm)).machine.head

/-- A client's read moves an event from the channel to what it has received. -/
theorem receive_handed (watching : Nat) (stepped : step world (.receive address) = some next) :
    SameChannel world next watching := by
  cases stepped
  by_cases same : watching = address
  · subst same
    refine ⟨by simp, by simp, ?_, rfl⟩
    cases queued : (world.machine.heap watching).events with
    | nil | cons first rest => simp [handed, queued]
  · exact ⟨by simp [update_of_ne same], by simp [update_of_ne same],
      by simp [handed, update_of_ne same], rfl⟩

end Steps

/-- Every step under the condition keeps every watcher in step. -/
theorem step_delivering (world : World) (action : Action) (next : World)
    (kept : Delivering world) (known : KnownWhileWatched world action)
    (stepped : step world action = some next) : Delivering next := by
  cases step_moves world next action stepped with
  | rested => exact kept
  | wrote | repeated | restarted =>
    exact delivering_quiet kept stepped rfl (fun _ _ => sameChannel_of_heap rfl rfl rfl)
      fun _ _ => rfl
  | refreshed _ codexID st heap named refreshed fewer channels =>
    refine delivering_quiet kept stepped rfl ?_ fun _ _ => rfl
    intro address watched
    rcases channels address with same | ⟨own, closed, -⟩
    · exact sameChannel_of_heap same rfl rfl
    -- A channel that was closed is neither registered any more nor free.
    rcases watched with ⟨other, member⟩ | free
    · rw [registered_put] at member
      split at member
      · exact absurd member closed
      · next distinct =>
        exact absurd (kept.registry.separate other codexID address member own) distinct
    · have below := kept.registry.allocated codexID address own
      omega
  | opened _ codexID st after queue answers named ensured =>
    exact opened_delivering kept ensured rfl stepped
  | lost given view now marshals outcome answers reloads st disk error ensured moved =>
    refine delivering_quiet kept stepped rfl (fun _ _ => sameChannel_of_heap rfl rfl rfl) ?_
    intro codexID watched
    by_cases named : codexID = given.codexId
    · subst named
      obtain rfl | ⟨unnoticed, -⟩ := moved
      · rfl
      refine (watched ?_).elim
      simp only [World.afterPublish, registered_put, if_true]
      rw [(reloadUnsafe_fields disk given.codexId reloads st).2.1,
        (ensure_registered ensured).1, known unnoticed]
    · exact (step_untouched stepped rfl fun same => named (some.inj same).symm).machine.head
  | exposed given view now marshals outcome answers reloads st row raw shown ensured stored =>
    exact exposed_delivering kept (ensure_registered ensured).1 stored rfl stepped
  | read address =>
    exact delivering_quiet kept stepped rfl
      (fun watching _ => receive_handed watching stepped) fun _ _ => rfl
  | announced codexID requestID now outcome answers st after error ensured heap allocated streams =>
    exact ended_delivering kept (ensure_registered ensured).1 rfl rfl heap allocated streams
      (by rintro _ ⟨⟩; rfl) rfl rfl stepped
  | deleted codexID requestID now outcome answers st after ensured heap allocated streams =>
    exact ended_delivering kept (ensure_registered ensured).1 rfl rfl heap allocated streams
      (by rintro _ ⟨⟩) rfl rfl stepped

/-- What live delivery promises about one state: every open watcher has been handed
the numbers behind its boundary, without gap or repetition and up to the durable
head. -/
def NothingSkipped (world : World) : Prop :=
  ∀ codexID, ∀ address ∈ world.machine.registered codexID,
    (handed world address).map Event.eventSeq =
      List.range' (world.base address + 1) (handed world address).length ∧
    (codexID ∉ world.forgotten →
      world.base address + (handed world address).length = world.machine.disk.head codexID)

/-- What a publication that succeeds promises about every open watcher: it has the
event, or it lost its registration and its slow signal is raised. -/
def HandsOver (m : Machine) : Prop :=
  ∀ event view now marshals outcome answers reloads next exposed,
    publish m event view now marshals outcome answers reloads = (next, .ok exposed) →
    ∀ address ∈ m.registered exposed.codexId,
      (address ∈ next.registered exposed.codexId ∧
        (next.heap address).events = (m.heap address).events ++ [exposed]) ∨
      (address ∉ next.registered exposed.codexId ∧ (next.heap address).slow = true)

theorem registry_hands_over (registry : Registry m) : HandsOver m := by
  intro event view now marshals outcome answers reloads next exposed published address member
  obtain ⟨-, error, refused⟩ | ⟨given, st, rfl, -, ensured, body⟩ :=
    publish_cases m event view now marshals outcome answers reloads
  · rw [published] at refused
    cases refused
  obtain ⟨disk, error, result, -⟩ | ⟨row, raw, shown, -, result⟩ := body
  · rw [published] at result
    cases (Prod.mk.inj result).2
  rw [published] at result
  obtain ⟨rfl, same⟩ := Prod.mk.inj result
  cases same
  have watchers := (ensure_registered ensured).1
  have visited : address ∈ st.watchers := watchers ▸ member
  have distinct : st.watchers.Nodup := watchers ▸ registry.distinct given.codexId
  obtain ⟨stays, delivered⟩ | ⟨leaves, raised⟩ := offer_member
    { given with eventSeq := m.disk.head given.codexId + 1 } m.heap distinct visited
  · refine .inl ⟨?_, ?_⟩
    · simpa [expose, registered_put, Stream.extended] using stays
    · simp only [expose, Machine.put, delivered]
  · refine .inr ⟨?_, ?_⟩
    · simpa [expose, registered_put, Stream.extended] using leaves
    · simp only [expose, Machine.put, raised]

/-- In every run in which no unknown commit becomes durable under a registered
watcher, no open watcher is ever skipped, and every publication either reaches a
watcher or ends its registration with the slow signal. -/
theorem live_delivery_complete (start world : World) (actions : List Action)
    (initial : Start start) (known : Runs.Meets step KnownWhileWatched start actions)
    (ran : Runs.run step start actions = some world) :
    NothingSkipped world ∧ HandsOver world.machine := by
  have kept : Delivering world := Runs.run_invariant Delivering step_delivering
    (start_delivering initial) known ran
  refine ⟨?_, registry_hands_over kept.registry⟩
  intro codexID address member
  have in_step := kept.in_step codexID address member
  exact ⟨in_step.numbered, in_step.complete⟩

/-- A watcher opened on an empty stream holds both events published after it. -/
theorem live_delivery_complete_two : ∃ world,
    Runs.run step (emptyHost 8) [.upsertCodex sampleRow, .watch "cdx" none 4 true,
      samplePublish "one" .committed, samplePublish "two" .committed] = some world ∧
    0 ∈ world.machine.registered "cdx" ∧ (handed world 0).length = 2 ∧
    NothingSkipped world ∧ HandsOver world.machine := by
  refine ⟨_, rfl, by decide, rfl, ?_⟩
  refine live_delivery_complete (emptyHost 8) _ [.upsertCodex sampleRow,
    .watch "cdx" none 4 true, samplePublish "one" .committed,
    samplePublish "two" .committed] (emptyHost_start 8) ?_ rfl
  refine ⟨trivial, fun _ _ => ⟨trivial, fun _ _ => ⟨?_, fun _ _ => ⟨?_, fun _ _ => trivial⟩⟩⟩⟩
  · intro unnoticed
    cases unnoticed
  · intro unnoticed
    cases unnoticed

/-- A commit reported as unknown but durable takes number one. The watcher stays
open, and the next publication hands it number two. -/
theorem unknown_commit_skips_watcher : ∃ world,
    Runs.run step (emptyHost 8) [.upsertCodex sampleRow, .watch "cdx" none 4 true,
      samplePublish "one" (.unknown true), samplePublish "two" .committed] = some world ∧
    0 ∈ world.machine.registered "cdx" ∧ (world.machine.heap 0).slow = false ∧
    (world.machine.heap 0).closed = false ∧ world.base 0 = 0 ∧
    (handed world 0).map Event.eventSeq = [2] ∧ ¬ NothingSkipped world := by
  refine ⟨_, rfl, by decide, rfl, rfl, rfl, rfl, ?_⟩
  intro nothing_skipped
  have first := (nothing_skipped "cdx" 0 (by decide)).1
  revert first
  decide

end CodexRemote.Activity
