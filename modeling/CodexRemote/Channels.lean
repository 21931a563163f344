import CodexRemote.EventNumbers
import CodexRemote.LiveDelivery

/-!
# What a watch is handed

A caller of `Watch` holds an answer, a replay and a channel. All three are about the
Codex it asked for: cached events carry the id of the stream that caches them, and a
step puts into a channel only events of the Codex the channel is registered for.
Nobody but the channel's reader changes what has been read from it.
-/
namespace CodexRemote.Activity

open Protocol Persistence Function List Option

variable {world next : World} {action : Action} {codexID : String}

/-- Only a client's read changes what the client has read. -/
theorem step_received (stepped : step world action = some next)
    (elsewhere : action ≠ .receive address) : next.received address = world.received address := by
  cases step_moves world next action stepped with
  | read reading =>
    have distinct : address ≠ reading := fun same => elsewhere (by rw [same])
    exact update_of_ne distinct _ _
  | _ => rfl

theorem step_received_grows (address : Nat) (stepped : step world action = some next) :
    world.received address <+: next.received address := by
  by_cases reads : action = .receive address
  · subst reads
    cases stepped
    simp
  · have same := step_received stepped reads
    exact same ▸ List.prefix_refl _

/-- Addresses are never given back. -/
theorem step_allocated (stepped : step world action = some next) :
    world.machine.allocated ≤ next.machine.allocated := by
  obtain ⟨same, -⟩ | ⟨-, grown, -⟩ := step_registered world next action stepped <;> omega

/-- Cached events carry the id of the Codex they are cached for. -/
def Labelled (m : Machine) : Prop :=
  ∀ codexID st, m.codex codexID = some st → ∀ event ∈ st.events, event.codexId = codexID

/-- Replacing one stream keeps the cache labelled if the new stream is. -/
theorem labelled_put (m next : Machine) (codexID : String) (fresh : Stream) (kept : Labelled m)
    (streams : next.codex = update m.codex codexID (some fresh))
    (labelled : ∀ event ∈ fresh.events, event.codexId = codexID) : Labelled next := by
  intro other st cached event member
  rw [streams] at cached
  by_cases same : other = codexID
  · subst same
    rw [update_self] at cached
    cases cached
    exact labelled event member
  · rw [update_of_ne same] at cached
    exact kept other st cached event member

theorem Refreshed.labelled (refreshed : Refreshed m codexID st) (kept : Labelled m) :
    ∀ event ∈ st.events, event.codexId = codexID := by
  intro event member
  obtain ⟨old, cached, earlier⟩ := refreshed.events event member
  exact kept codexID old cached event earlier

/-- Every step keeps the cache labelled. -/
theorem step_labelled (kept : Labelled world.machine) (stepped : step world action = some next) :
    Labelled next.machine := by
  cases step_moves world next action stepped with
  | wrote | rested | repeated | read => exact kept
  | refreshed _ codexID st heap named refreshed fewer channels =>
    exact labelled_put world.machine _ codexID st kept rfl (refreshed.labelled kept)
  | opened _ codexID st after queue answers named ensured =>
    exact labelled_put world.machine _ codexID _ kept rfl
      (Refreshed.labelled (.ensured answers st ensured rfl rfl) kept)
  | lost given view now marshals outcome answers reloads st disk error ensured moved =>
    refine labelled_put world.machine _ given.codexId _ kept rfl ?_
    intro entry member
    rw [(reloadUnsafe_fields disk given.codexId reloads st).1] at member
    exact absurd member not_mem_nil
  | exposed given view now marshals outcome answers reloads st row raw shown ensured stored =>
    refine labelled_put world.machine _ given.codexId _ kept rfl ?_
    intro entry member
    rcases mem_append.mp (mem_of_mem_drop member) with earlier | last
    · exact Refreshed.labelled (.ensured answers st ensured rfl rfl) kept entry earlier
    · rw [mem_singleton.mp last]
      rfl
  | announced codexID requestID now outcome answers st after error ensured _ _ streams =>
    exact labelled_put world.machine _ codexID _ kept streams
      (Refreshed.labelled (.ensured answers st ensured rfl rfl) kept)
  | deleted codexID requestID now outcome answers st after ensured _ _ streams =>
    intro other st cached
    simp only [World.afterForget, streams, update_apply] at cached
    split at cached
    · cases cached
    · exact kept other st cached
  | restarted replayCapacity =>
    intro codexID st cached
    cases cached

/-- A channel that was never handed out is empty and unread. -/
def Unused (world : World) : Prop :=
  ∀ address, world.machine.allocated ≤ address → handed world address = []

/-- Every step leaves free addresses unused. -/
theorem step_unused (registry : Registry world.machine) (unused : Unused world)
    (stepped : step world action = some next) : Unused next := by
  intro address free
  have older : world.machine.allocated ≤ address := Nat.le_trans (step_allocated stepped) free
  obtain ⟨unread, empty⟩ := append_eq_nil_iff.mp (unused address older)
  have none_held : (next.machine.heap address).events = [] := by
    refine eq_nil_iff_forall_not_mem.mpr fun entry held => ?_
    rcases step_entries address stepped entry held with
      earlier | ⟨-, listed⟩
    · rw [empty] at earlier
      exact absurd earlier not_mem_nil
    · have below := registry.allocated entry.codexId address listed
      omega
  by_cases reads : action = .receive address
  · subst reads
    cases stepped
    simp [handed, unread, empty]
  · simp [handed, step_received stepped reads, unread, none_held]

/-- What a caller may rely on about a watch of a Codex: its answer, its replay and its
channel are about that Codex. -/
structure Handle (world : World) (codexID : String) (watch : Watch) : Prop where
  answered : watch.response.codexId = codexID
  replay : ∀ event ∈ watch.replay, event.codexId = codexID
  older : watch.address < world.machine.allocated
  registered : ∀ other, watch.address ∈ world.machine.registered other → other = codexID
  live : ∀ event ∈ handed world watch.address, event.codexId = codexID

/-- A watch keeps these properties whatever the store does. -/
theorem Handle.step {watch : Watch} (handle : Handle world codexID watch) (action : Action)
    (stepped : step world action = some next) : Handle next codexID watch := by
  refine ⟨handle.answered, handle.replay, ?_, ?_, ?_⟩
  · exact Nat.lt_of_lt_of_le handle.older (step_allocated stepped)
  · intro other member
    obtain ⟨-, fewer⟩ | ⟨opened, -, registered⟩ := step_registered world next action stepped
    · exact handle.registered other ((fewer other).subset member)
    rw [registered] at member
    split at member
    · next same =>
      subst same
      rcases mem_append.mp member with earlier | fresh
      · exact handle.registered other earlier
      · have before := handle.older
        have equal := mem_singleton.mp fresh
        omega
    · exact handle.registered other member
  · by_cases reads : action = .receive watch.address
    · subst reads
      rw [(receive_handed watch.address stepped).handed]
      exact handle.live
    · intro event member
      unfold handed at member
      rw [step_received stepped reads] at member
      rcases mem_append.mp member with read | held
      · exact handle.live event (mem_append_left _ read)
      rcases step_entries watch.address stepped event held with
        earlier | ⟨-, listed⟩
      · exact handle.live event (mem_append_right _ earlier)
      · exact handle.registered event.codexId listed

theorem answer_codexId (codexID : String) (st : Stream) (after : Option Nat) :
    (answer codexID st after).1.codexId = codexID := by
  unfold answer
  cases after with
  | none => rfl
  | some cursor =>
    simp only
    split
    · rfl
    split
    · rfl
    split <;> rfl

/-- A watch that opens has answered for its Codex, at the first free address. -/
theorem watch_handle {after : Option Nat} (registry : Registry world.machine)
    (labelled : Labelled world.machine) (unused : Unused world)
    (result : (watch world.machine codexID after queue answers).2 = .ok opened) :
    opened.address = world.machine.allocated ∧
      Handle (world.opened codexID (watch world.machine codexID after queue answers))
        codexID opened := by
  obtain ⟨-, error, refused⟩ | ⟨st, ensured, machine, answered⟩ :=
    watch_cases world.machine codexID after queue answers
  · rw [result] at refused
    cases refused
  have whole : watch world.machine codexID after queue answers =
      ((watchLocked world.machine codexID st after (queueSize queue)).1,
        .ok (watchLocked world.machine codexID st after (queueSize queue)).2) :=
    Prod.ext machine answered
  rw [result] at answered
  cases answered
  obtain ⟨unread, -⟩ := append_eq_nil_iff.mp (unused world.machine.allocated (Nat.le_refl _))
  refine ⟨rfl, ?_, ?_, ?_, ?_, ?_⟩
  · exact answer_codexId codexID st after
  · intro event member
    exact Refreshed.labelled (.ensured answers st ensured rfl rfl) labelled event
      (answer_replay codexID st after event member)
  · rw [whole]
    exact Nat.lt_succ_self _
  · intro other member
    rw [whole] at member
    simp only [World.opened, watchLocked, registered_put] at member
    split at member
    · assumption
    · exact absurd (registry.allocated other _ member) (Nat.lt_irrefl _)
  · intro event member
    rw [whole] at member
    simp [handed, World.opened, watchLocked, Machine.put, unread] at member

/-- Whatever happens behind it, a watch that was opened on a Codex in some run shows this Codex
alone: its answer, its replay and all that ever comes through its channel. -/
theorem watch_shows_one_codex (start world next last : World) (before behind : List Action)
    (codexID : String) (after : Option Nat) (queue : Int) (answers : Bool) (opened : Watch)
    (initial : Start start) (ran : Runs.run step start before = some world)
    (result : (watch world.machine codexID after queue answers).2 = .ok opened)
    (stepped : step world (.watch codexID after queue answers) = some next)
    (goes : Runs.run step next behind = some last) : Handle last codexID opened := by
  have sound : Registry world.machine ∧ Labelled world.machine ∧ Unused world := by
    refine Runs.run_kept (fun world => Registry world.machine ∧ Labelled world.machine ∧
      Unused world) ?_ ⟨start_registry initial, ?_, ?_⟩ ran
    · rintro world action next ⟨registry, labelled, unused⟩ stepped
      exact ⟨step_registry registry stepped, step_labelled labelled stepped,
        step_unused registry unused stepped⟩
    · intro codexID st cached
      cases (initial.streams codexID).symm.trans cached
    · intro address free
      obtain ⟨empty, unread⟩ := initial.unused address free
      simp [handed, empty, unread]
  cases stepped
  exact Runs.run_kept (fun world => Handle world codexID opened)
    (fun _ action _ handle stepped => handle.step action stepped)
    (watch_handle sound.1 sound.2.1 sound.2.2 result).2 goes

theorem watch_shows_one_codex_live : ∃ last opened, Handle last "cdx" opened ∧
    (handed last opened.address).length = 1 := by
  refine ⟨_, _, watch_shows_one_codex (emptyHost 8) _ _ _ [.upsertCodex sampleRow]
    [samplePublish "one" .committed] "cdx" none 4 true _ (emptyHost_start 8) rfl rfl rfl rfl, rfl⟩

end CodexRemote.Activity
