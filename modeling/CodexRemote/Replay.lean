import CodexRemote.History
import CodexRemote.Library.Numbering

/-!
# A resumed watch replays exactly what was published

The cache of a Codex is a suffix of its published history whose numbers run
without a gap up to the durable head, or it is empty and waits for a reload. This
law is kept by every method of the store, by every outcome of a commit and by
restarts, as long as the row of the Codex exists.

From it follows the meaning of a watch: RESUMED hands out exactly the published
events behind the cursor, and every other answer is a RESET at the durable head.
-/
namespace CodexRemote.Activity

open Protocol Persistence Numbering Function List Option

variable {head : Nat} {st : Stream} {published : List Event} {codexID : String} {world next : World}
  {action : Action}

/-- The cached stream of a Codex fits its durable head and published history. -/
structure Cached (head : Nat) (published : List Event) (st : Stream) : Prop where
  current : st.needsReload = false → st.head = head
  suffix : st.events <:+ published
  numbered : ∃ first, Consecutive Event.eventSeq first st.events ∧
    first + st.events.length = head + 1

/-- History and cache of one Codex. -/
structure Coherent (head : Nat) (published : List Event) (stream : Option Stream) :
    Prop where
  ordered : published.Pairwise fun left right => left.eventSeq < right.eventSeq
  bounded : ∀ event ∈ published, event.eventSeq ≤ head
  cached : ∀ st, stream = some st → Cached head published st

/-- An empty cache fits any history. -/
theorem cached_empty (published : List Event) (empty : st.events = [])
    (current : st.needsReload = false → st.head = head) : Cached head published st := by
  refine ⟨current, ?_, head + 1, ?_, ?_⟩
  · rw [empty]
    exact nil_suffix
  · rw [empty]
    exact consecutive_nil _ _
  · rw [empty]
    rfl

/-- Registrations, floors and views are no part of the law. -/
theorem cached_congr (cached : Cached head published st) (events : other.events = st.events)
    (current : other.needsReload = false → other.head = head) :
    Cached head published other := by
  obtain ⟨-, suffix, first, numbered, ends⟩ := cached
  exact ⟨current, events ▸ suffix, first, events ▸ numbered, events ▸ ends⟩

/-- Ensuring a stream keeps the law, and the ensured stream stands at the durable
head.

Proof: a cached stream is taken as it is; one that waited for its reload receives
the durable head and keeps its events; a new one caches nothing. -/
theorem ensure_cached (coherent : Coherent (m.disk.head codexID) published (m.codex codexID))
    (ensured : ensure m codexID answers = .ok st) :
    Cached (m.disk.head codexID) published st ∧ st.head = m.disk.head codexID := by
  obtain ⟨cached, ready⟩ | ⟨old, row, cached, -, -, rfl⟩ | ⟨row, -, -, rfl⟩ := ensure_cases ensured
  · have law := coherent.cached st cached
    exact ⟨law, law.current ready⟩
  · have law := coherent.cached old cached
    exact ⟨cached_congr law rfl fun _ => rfl, rfl⟩
  · exact ⟨cached_empty _ rfl fun _ => rfl, rfl⟩

/-- A reload fits the head it reads, whatever happened before. -/
theorem reload_cached (disk : Disk) (codexID : String) (answers : Bool) (st : Stream)
    (published : List Event) :
    Cached (disk.head codexID) published (reloadUnsafe (load disk codexID answers) st) := by
  obtain ⟨empty, -, current⟩ := reloadUnsafe_fields disk codexID answers st
  exact cached_empty _ empty current

/-- The history grows by the next number. -/
theorem published_snoc (head : Nat) (published : List Event) (event : Event)
    (ordered : published.Pairwise fun left right => left.eventSeq < right.eventSeq)
    (bounded : ∀ event ∈ published, event.eventSeq ≤ head) (next : event.eventSeq = head + 1) :
    ((published ++ [event]).Pairwise fun left right => left.eventSeq < right.eventSeq) ∧
      ∀ entry ∈ published ++ [event], entry.eventSeq ≤ head + 1 := by
  constructor
  · refine pairwise_append.mpr ⟨ordered, pairwise_singleton _ _, ?_⟩
    intro earlier member last isLast
    obtain rfl := mem_singleton.mp isLast
    have below := bounded earlier member
    omega
  · intro entry member
    rcases mem_append.mp member with earlier | last
    · have below := bounded entry earlier
      omega
    · obtain rfl := mem_singleton.mp last
      omega

/-- Appending the next event and trimming to any capacity keeps the law.

Proof: the extended cache is a numbered suffix of the extended history, and so is
what remains after dropping from its front. -/
theorem extended_cached (head : Nat) (published : List Event) (st : Stream)
    (capacity : Nat) (view : CurrentView) (event : Event) (kept : List Nat)
    (cached : Cached head published st) (next : event.eventSeq = head + 1) :
    Cached (head + 1) (published ++ [event]) (st.extended capacity view event kept) := by
  obtain ⟨-, suffix, first, consecutive, ends⟩ := cached
  have extended : Consecutive Event.eventSeq first (st.events ++ [event]) :=
    consecutive_snoc consecutive (by omega)
  refine ⟨fun _ => next, ?_, ?_⟩
  · obtain ⟨before, rfl⟩ := suffix
    refine (drop_suffix _ _).trans ⟨before, ?_⟩
    simp only [append_assoc]
  · refine ⟨_, consecutive_drop _ extended, ?_⟩
    simp only [Stream.extended, length_drop, length_append, length_singleton]
    omega

/-- The law of every Codex whose row was not deleted, and a deleted row stays
deleted. -/
structure Replayable (world : World) : Prop where
  coherent : ∀ codexID, codexID ∉ world.forgotten →
    Coherent (world.machine.disk.head codexID) (world.published codexID)
      (world.machine.codex codexID)
  removed : ∀ codexID, codexID ∈ world.forgotten →
    world.machine.disk.codexes codexID = none

theorem start_replayable (start : Start world) : Replayable world := by
  constructor
  · intro codexID _
    refine ⟨start.ordered codexID, start.bounded codexID, ?_⟩
    intro st cached
    rw [start.streams codexID] at cached
    cases cached
  · intro codexID member
    rw [start.none_forgotten] at member
    cases member

/-- One stream replaced by another that fits leaves the Codex coherent. -/
theorem coherent_stream (coherent : Coherent head published stream)
    (cached : Cached head published st) : Coherent head published (some st) := by
  refine { coherent with cached := ?_ }
  intro other same
  exact some.inj same ▸ cached

/-- A stream that a call puts in place keeps its Codex coherent. -/
theorem Refreshed.coherent (refreshed : Refreshed m codexID st)
    (coherent : Coherent (m.disk.head codexID) published (m.codex codexID)) :
    Coherent (m.disk.head codexID) published (some st) := by
  refine coherent_stream coherent ?_
  cases refreshed with
  | kept old cached events current =>
    have law := coherent.cached old cached
    exact cached_congr law events fun ready =>
      current.2.trans (law.current (current.1.symm.trans ready))
  | ensured answers old is events head =>
    have law := ensure_cached coherent is
    exact cached_congr law.1 events fun _ => head.trans law.2
  | reloaded answers old is =>
    subst is
    exact reload_cached m.disk codexID answers old published

/-- A publication that is exposed, or became durable unnoticed, moves head and history by one. -/
theorem grown_coherent (coherent : Coherent (world.machine.disk.head given.codexId)
      (world.published given.codexId) (world.machine.codex given.codexId))
    (cached : Cached (world.machine.disk.head given.codexId + 1)
      (world.published given.codexId ++ [world.numbered given]) st) :
    Coherent (world.machine.disk.head given.codexId + 1)
      (world.published given.codexId ++ [world.numbered given]) (some st) := by
  obtain ⟨ordered, bounded⟩ := published_snoc _ _ (world.numbered given) coherent.ordered
    coherent.bounded rfl
  exact ⟨ordered, bounded, fun other same => some.inj same ▸ cached⟩

/-- A deletion that took effect is recorded. -/
theorem forget_recorded (world : World) (codexID : String)
    (result : Machine × Except StoreError Event)
    (stored : (world.machine.disk.codexes codexID).isSome)
    (gone : result.1.disk = world.machine.disk.remove codexID) :
    codexID ∈ (world.afterForget codexID result).forgotten := by
  have empty : (result.1.disk.codexes codexID).isNone := by
    rw [gone]
    simp [Disk.remove]
  simp [World.afterForget, stored, empty]

/-- The Codex an action names stays coherent unless the action deleted its row.

Proof: a publication leaves the durable head, and then history and head are as before, or moves
it by one, and then the history gains that number whether or not the caller learns of it. Only a
known success reaches the cache. -/
theorem step_named_coherent
    (coherent : Coherent (world.machine.disk.head codexID) (world.published codexID)
      (world.machine.codex codexID)) (stepped : step world action = some next)
    (named : action.codexID = some codexID) (remembered : codexID ∉ next.forgotten) :
    Coherent (next.machine.disk.head codexID) (next.published codexID)
      (next.machine.codex codexID) := by
  cases step_moves world next action stepped with
  | wrote | rested | repeated => exact coherent
  | refreshed _ id st heap is refreshed fewer channels =>
    cases is.symm.trans named
    simpa [Machine.put] using refreshed.coherent coherent
  | opened _ id st after queue answers is ensured =>
    cases is.symm.trans named
    simp only [World.opened, watchLocked, Machine.put, update_self]
    exact Refreshed.coherent (.ensured answers st ensured rfl rfl) coherent
  | lost given view now marshals outcome answers reloads st disk error ensured moved =>
    cases named
    obtain rfl | ⟨-, row, raw, -, rfl⟩ := moved
    · simpa [World.afterPublish, Machine.put] using
        (Refreshed.reloaded reloads st rfl).coherent coherent
    have reloaded := reload_cached (world.machine.disk.writeEvent now given.codexId row
      (world.machine.disk.head given.codexId + 1) raw) given.codexId reloads st
      (world.published given.codexId ++ [world.numbered given])
    rw [writeEvent_head] at reloaded
    simpa [World.afterPublish, Machine.put, World.numbered] using grown_coherent coherent reloaded
  | exposed given view now marshals outcome answers reloads st row raw shown ensured stored =>
    cases named
    have law := ensure_cached coherent ensured
    have extended := extended_cached _ _ st world.machine.capacity shown (world.numbered given)
      (offer (world.numbered given) st.watchers world.machine.heap).1 law.1 rfl
    simpa [World.afterPublish, expose, Machine.put, World.numbered] using
      grown_coherent coherent extended
  | announced id requestID now outcome answers st after error ensured _ _ streams disk _ =>
    cases named
    rcases disk with same | ⟨stored, gone⟩
    · simp only [World.afterForget, streams, same, update_self]
      exact Refreshed.coherent (.ensured answers st ensured rfl rfl) coherent
    · exact absurd (forget_recorded world _ _ stored gone) remembered
  | deleted id requestID now outcome answers st after ensured _ _ _ stored gone =>
    cases named
    exact absurd (forget_recorded world _ _ stored gone) remembered
  | read | restarted => cases named

theorem writeEvent_missing {disk : Disk} (now : Int) {target : String} {row : CodexRecord}
    (seq : Nat) (raw : Snapshot) (stored : disk.codexes target = some row)
    (missing : disk.codexes codexID = none) :
    (disk.writeEvent now target row seq raw).codexes codexID = none := by
  have distinct : codexID ≠ target := by
    rintro rfl
    cases missing.symm.trans stored
  rw [(writeEvent_other disk now row seq raw distinct).1, missing]

theorem afterForget_removed (disk : result.1.disk = world.machine.disk ∨
      result.1.disk = world.machine.disk.remove target)
    (removed : codexID ∈ world.forgotten → world.machine.disk.codexes codexID = none)
    (member : codexID ∈ (world.afterForget target result).forgotten) :
    result.1.disk.codexes codexID = none := by
  by_cases earlier : codexID ∈ world.forgotten
  · have missing := removed earlier
    rcases disk with same | gone
    · rw [same, missing]
    · by_cases same : codexID = target <;> simp [gone, Disk.remove, same, missing]
  · simp only [World.afterForget] at member
    split at member
    · next deleted =>
      obtain rfl | listed := mem_cons.mp member
      · exact isNone_iff_eq_none.mp deleted.2
      · exact (earlier listed).elim
    · exact (earlier member).elim

/-- A deleted row stays deleted. -/
theorem step_removed (kept : Replayable world) (stepped : step world action = some next)
    (member : codexID ∈ next.forgotten) : next.machine.disk.codexes codexID = none := by
  have removed := kept.removed codexID
  cases step_moves world next action stepped with
  | wrote row fresh =>
    have distinct : codexID ≠ row.codexID := fun same => fresh (same ▸ member)
    simpa [upsertCodex, update_of_ne distinct] using removed member
  | rested | repeated | refreshed | opened | read | restarted => exact removed member
  | lost given view now marshals outcome answers reloads st disk error ensured moved =>
    obtain rfl | ⟨-, row, raw, stored, rfl⟩ := moved
    · exact removed member
    · exact writeEvent_missing _ _ raw stored (removed member)
  | exposed given view now marshals outcome answers reloads st row raw shown ensured stored =>
    exact writeEvent_missing _ _ raw stored (removed member)
  | announced id requestID now outcome answers st after error _ _ _ _ disk _ =>
    exact afterForget_removed (disk.imp_right And.right) removed member
  | deleted id requestID now outcome answers st after _ _ _ _ _ disk =>
    exact afterForget_removed (.inr disk) removed member

/-- A step never takes an identity out of the forgotten ones. -/
theorem step_forgotten (world next : World) (action : Action) (codexID : String)
    (stepped : step world action = some next) (member : codexID ∈ world.forgotten) :
    codexID ∈ next.forgotten := by
  cases step_moves world next action stepped with
  | announced | deleted =>
    simp only [World.afterForget]
    split
    · exact mem_cons_of_mem _ member
    · exact member
  | _ => exact member

/-- Every step keeps the law. -/
theorem step_replayable (kept : Replayable world) (stepped : step world action = some next) :
    Replayable next := by
  refine ⟨?_, fun codexID => step_removed kept stepped⟩
  intro codexID remembered
  have before : codexID ∉ world.forgotten := fun member =>
    remembered (step_forgotten world next action codexID stepped member)
  have coherent := kept.coherent codexID before
  by_cases restarts : action.isRestart = true
  · cases action with
    | restart replayCapacity =>
      cases stepped
      exact { coherent with cached := fun st cached => by cases cached }
    | _ => cases restarts
  by_cases named : action.codexID = some codexID
  · exact step_named_coherent coherent stepped named remembered
  · have same := step_untouched stepped (by simpa using restarts) named
    rw [same.machine.head, same.machine.stream, same.published]
    exact coherent

/-- The law holds in every state a run reaches. -/
theorem run_replayable (initial : Start start) (ran : Runs.run step start actions = some world) :
    Replayable world :=
  Runs.run_kept Replayable (fun _ _ _ => step_replayable)
    (start_replayable initial) ran

/-- A successful scan of a numbered cache starts no later than the first number
asked for. -/
theorem available_first (numbered : Consecutive Event.eventSeq first events)
    (ends : first + events.length = head + 1)
    (available : continuousReplayAvailable events start head = true) : first ≤ start := by
  unfold continuousReplayAvailable at available
  split at available
  · omega
  cases events with
  | nil => simp [scanReplay] at available
  | cons event rest =>
    have leading : event.eventSeq = first := by
      simpa [Consecutive, range'_succ] using congrArg head? numbered
    by_cases early : event.eventSeq < start
    · omega
    · by_cases exact_start : event.eventSeq = start
      · omega
      · simp [scanReplay, early, exact_start] at available

/-- Between a number the cache reaches back to and the head, cache and history
hold the same events.

Proof: what precedes the cache in the history carries smaller numbers than the
cache, or, when the cache is empty, no number above the head. -/
theorem replay_published
    (ordered : published.Pairwise fun left right => left.eventSeq < right.eventSeq)
    (bounded : ∀ event ∈ published, event.eventSeq ≤ head) (suffix : events <:+ published)
    (numbered : Consecutive Event.eventSeq first events) (ends : first + events.length = head + 1)
    (within : first ≤ start) :
    (events.filter fun event =>
        decide (start ≤ event.eventSeq) && decide (event.eventSeq ≤ head)) =
      published.filter fun event =>
        decide (start ≤ event.eventSeq) && decide (event.eventSeq ≤ head) := by
  obtain ⟨earlier, rfl⟩ := suffix
  have below : ∀ event ∈ earlier, event.eventSeq < first := by
    intro event member
    cases events with
    | nil =>
      have limit := bounded event (by simp [member])
      simp only [length_nil] at ends
      omega
    | cons leading rest =>
      have separated := (pairwise_append.mp ordered).2.2 event member leading (by simp)
      have number : leading.eventSeq = first := by
        simpa [Consecutive, range'_succ] using congrArg head? numbered
      omega
  have dropped : (earlier.filter fun event =>
      decide (start ≤ event.eventSeq) && decide (event.eventSeq ≤ head)) = [] := by
    refine filter_eq_nil_iff.mpr ?_
    intro event member
    have smaller := below event member
    simp only [Bool.and_eq_true, decide_eq_true_eq]
    omega
  rw [filter_append, dropped, nil_append]

/-- What an answer means at a stream that fits its history. -/
theorem answer_exact (codexID : String) (after : Option Nat)
    (ordered : published.Pairwise fun left right => left.eventSeq < right.eventSeq)
    (bounded : ∀ event ∈ published, event.eventSeq ≤ head) (cached : Cached head published st)
    (current : st.head = head) :
    let (response, replay) := answer codexID st after
    response.headEventSeq = head ∧
    ((response.mode = .resumed ∧ ∃ cursor, after = some cursor ∧ cursor ≤ head ∧
        response.replayFromEventSeq = cursor + 1 ∧
        replay = (published.filter fun event =>
          decide (cursor < event.eventSeq) && decide (event.eventSeq ≤ head)) ∧
        replay.map Event.eventSeq = List.range' (cursor + 1) (head - cursor)) ∨
      (response.mode = .reset ∧ replay = [] ∧
        ∃ view, response.resetView = some view ∧ view.headEventSeq = head)) := by
  obtain ⟨-, suffix, first, numbered, ends⟩ := cached
  have stamped : (cloneView st.view st.head).headEventSeq = head := by
    cases st.view <;> exact current
  unfold answer
  cases after with
  | none => exact ⟨current, .inr ⟨rfl, rfl, _, rfl, stamped⟩⟩
  | some cursor =>
    simp only
    split
    · exact ⟨current, .inr ⟨rfl, rfl, _, rfl, stamped⟩⟩
    split
    · exact ⟨current, .inr ⟨rfl, rfl, _, rfl, stamped⟩⟩
    next inside =>
    split
    · exact ⟨current, .inr ⟨rfl, rfl, _, rfl, stamped⟩⟩
    next scanned =>
    subst current
    have available : continuousReplayAvailable st.events (cursor + 1) st.head = true := by
      simpa using scanned
    have within := available_first numbered ends available
    have numbers := interval_keys numbered ends within
    have count : st.head + 1 - (cursor + 1) = st.head - cursor := by omega
    rw [count] at numbers
    exact ⟨rfl, .inl ⟨rfl, cursor, rfl, by omega, rfl,
      replay_published ordered bounded suffix numbered ends within, numbers⟩⟩

/-- Without a `Forget` no row is ever deleted. -/
theorem run_unforgotten (initial : Start start) (ran : Runs.run step start actions = some world)
    (unforgotten : ∀ action ∈ actions, action.isForget = false) : world.forgotten = [] := by
  refine Runs.run_invariant (fun state => state.forgotten = []) ?_ initial.none_forgotten
    (Runs.meets_of_forall step start unforgotten) ran
  intro state action next empty kind stepped
  cases action with
  | forget => cases kind
  | upsertCodex row =>
    simp only [step] at stepped
    split at stepped <;> cases stepped
    exact empty
  | publish event view now marshals outcome answers reloads =>
    cases stepped
    cases event <;> exact empty
  | watch target after queue answers | forceReset target reason queue answers =>
    cases stepped
    unfold World.opened
    split <;> exact empty
  | reloadDurable | currentView | cancel | receive | restart =>
    cases stepped
    exact empty

/-- In every state a run without `Forget` reaches, and for every cursor, a watch
either resumes with exactly the published events behind its cursor, each once and
in order, or resets at the durable head with nothing to replay. Published are all
numbers that became durable, also those whose commit was reported as unknown. -/
theorem watch_replays_exactly (start world : World) (actions : List Action)
    (codexID : String) (after : Option Nat) (queue : Int) (answers : Bool)
    (next : Machine) (opened : Watch) (initial : Start start)
    (ran : Runs.run step start actions = some world)
    (unforgotten : ∀ action ∈ actions, action.isForget = false)
    (watched : watch world.machine codexID after queue answers = (next, .ok opened)) :
    let head := world.machine.disk.head codexID
    opened.response.headEventSeq = head ∧
    ((opened.response.mode = .resumed ∧ ∃ cursor, after = some cursor ∧ cursor ≤ head ∧
        opened.response.replayFromEventSeq = cursor + 1 ∧
        opened.replay = ((world.published codexID).filter fun event =>
          decide (cursor < event.eventSeq) && decide (event.eventSeq ≤ head)) ∧
        opened.replay.map Event.eventSeq = List.range' (cursor + 1) (head - cursor)) ∨
      (opened.response.mode = .reset ∧ opened.replay = [] ∧
        ∃ view, opened.response.resetView = some view ∧ view.headEventSeq = head)) := by
  intro head
  have kept := run_replayable initial ran
  have empty := run_unforgotten initial ran unforgotten
  have coherent := kept.coherent codexID (by simp [empty])
  obtain ⟨-, error, refused⟩ | ⟨st, ensured, -, registered⟩ :=
    watch_cases world.machine codexID after queue answers
  · rw [watched] at refused
    cases refused
  rw [watched] at registered
  cases registered
  have law := ensure_cached coherent ensured
  exact answer_exact codexID after coherent.ordered coherent.bounded law.1 law.2

/-- A cursor one behind the head of a Codex with two events resumes with the
second of them. -/
theorem watch_replays_exactly_second : ∃ world next opened,
    Runs.run step (emptyHost 8) [.upsertCodex sampleRow, samplePublish "one" .committed,
      samplePublish "two" .committed] = some world ∧
    watch world.machine "cdx" (some 1) 4 true = (next, .ok opened) ∧
    opened.response.mode = .resumed ∧ opened.response.headEventSeq = 2 ∧
    opened.replay.map Event.eventSeq = [2] := by
  refine ⟨_, _, _, rfl, rfl, rfl, ?_, rfl⟩
  exact (watch_replays_exactly (emptyHost 8) _ [.upsertCodex sampleRow,
    samplePublish "one" .committed, samplePublish "two" .committed] "cdx" (some 1) 4 true _ _
    (emptyHost_start 8) rfl (by decide) rfl).1

end CodexRemote.Activity
