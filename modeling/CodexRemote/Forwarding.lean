import CodexRemote.Connection

/-!
# Forwarding in order

The client of a connection sees one sequence of frames. Whatever the interleaving,
the events of a Codex behind a Watch response are the beginning of what that watch
replays and is handed live, an older watch is not heard again, and an Unwatch
response ends the events of its Codex until it is watched again.

The invariant ties every goroutine to the frames, and only as long as its watch is
the one in the map: what the frames show of the Codex is then exactly what the
goroutine has passed on. Every change of the map happens inside the mutex, and so
does every test of it, so a goroutine whose watch has been replaced can do no more
than end.
-/
namespace CodexRemote.Forwarding

open Protocol Function List Option Activity
open List (append_assoc foldl_cons mem_cons_self not_mem_nil)
open Activity (World Watch Action StoreError Start Labelled Unused Handle Registry handed)

variable {conn next : Connection} {watch : Watch} {address : Nat} {config : ServerConfig}
  {requestID : String} {now : Int}

/-! ## What the frames show -/

/-- The Codex a frame is about. -/
def Frame.codexID : Frame → Option String
  | .watchCodex _ _ watch => some watch.response.codexId
  | .unwatchCodex _ _ codexID => some codexID
  | .event _ shown => some shown.codexId
  | .response _ | .other => none

/-- What the frames up to some point show of a Codex: the watch of the last response for
it, and the events behind that response with the watches they were queued for. -/
structure Seen where
  watch : Option Watch := none
  shown : List (Nat × Event) := []

def observe (codexID : String) (seen : Seen) (frame : Frame) : Seen :=
  if frame.codexID = some codexID then
    match frame with
    | .watchCodex _ _ watch => { watch := some watch }
    | .unwatchCodex _ _ _ => {}
    | .event address event => { seen with shown := seen.shown ++ [(address, event)] }
    | _ => seen
  else seen

def observed (codexID : String) (frames : List Frame) : Seen :=
  frames.foldl (observe codexID) {}

/-- The watches of the Watch responses among some frames, as addresses. -/
def answered (frames : List Frame) : List Nat :=
  frames.filterMap fun
    | .watchCodex _ _ watch => some watch.address
    | _ => none

theorem observed_snoc (codexID : String) (frames : List Frame) (frame : Frame) :
    observed codexID (frames ++ [frame]) = observe codexID (observed codexID frames) frame := by
  simp [observed]

variable {codexID : String}

theorem observed_other (frames : List Frame) (apart : frame.codexID ≠ some codexID) :
    observed codexID (frames ++ [frame]) = observed codexID frames := by
  rw [observed_snoc]
  unfold observe
  rw [if_neg apart]

/-- The events shown are of the watch that was answered last, and are the beginning of
what that watch replays and its goroutine has read. -/
def Fits (received : Nat → List Event) (seen : Seen) : Prop :=
  match seen.watch with
  | none => seen.shown = []
  | some watch =>
      (∀ entry ∈ seen.shown, entry.1 = watch.address) ∧
        seen.shown.map Prod.snd <+: watch.replay ++ received watch.address

theorem Fits.mono (grown : ∀ address, received address <+: later address)
    (fits : Fits received seen) :
    Fits later seen := by
  unfold Fits at fits ⊢
  cases watched : seen.watch with
  | none => simpa [watched] using fits
  | some watch =>
    simp only [watched] at fits ⊢
    exact ⟨fits.1, fits.2.trans ((List.prefix_append_right_inj _).mpr (grown _))⟩

/-- The frames show this watch and these of its events. -/
def Shows (conn : Connection) (codexID : String) (watch : Watch) (events : List Event) : Prop :=
  observed codexID conn.enqueued =
    { watch := some watch, shown := events.map fun event => (watch.address, event) }

theorem Shows.fits (shows : Shows conn codexID watch events)
    (beginning : events <+: watch.replay ++ conn.store.received watch.address) :
    Fits conn.store.received (observed codexID conn.enqueued) := by
  rw [shows]
  refine ⟨?_, ?_⟩
  · intro entry member
    obtain ⟨event, -, rfl⟩ := mem_map.mp member
    rfl
  · simpa [comp_def] using beginning

/-- One more event of the watch that is shown. -/
theorem Shows.event (shows : Shows conn codexID watch events) (event : Event)
    (own : event.codexId = codexID) :
    Shows (conn.accept (.event watch.address event)) codexID watch (events ++ [event]) := by
  unfold Shows Connection.accept
  rw [observed_snoc, shows]
  simp [observe, Frame.codexID, own]

/-! ## The invariant -/

/-- A watch in the map whose goroutine has not been started. -/
structure Opened (conn : Connection) (codexID : String) (watch : Watch) : Prop where
  handle : Handle conn.store codexID watch
  current : conn.watches.lookup codexID = some watch.address
  mine : watch.address ∈ conn.opened
  unread : conn.store.received watch.address = []
  alone : conn.forwarder watch.address = none

/-- What holds while a goroutine is inside the mutex. -/
def Inside (conn : Connection) : Section → Prop
  | .responding _ codexID watch =>
      Opened conn codexID watch ∧ ∀ address ∈ answered conn.enqueued, address < watch.address
  | .replaying codexID watch rest =>
      Opened conn codexID watch ∧
        ∃ sent, sent ++ rest = watch.replay ∧ Shows conn codexID watch sent
  | .unwatching _ codexID => conn.watches.lookup codexID = none
  | .opening _ _ | .abandoning _ _ | .shuttingDown => True

/-- What the frames show as long as the forwarder's watch is in the map. -/
def Forwarder.Shown (conn : Connection) : Forwarder → Prop
  | .selecting codexID watch =>
      Shows conn codexID watch (watch.replay ++ conn.store.received watch.address)
  | .holding codexID watch event =>
      ∃ sent, sent ++ [event] = watch.replay ++ conn.store.received watch.address ∧
        Shows conn codexID watch sent
  | .closing _ _ => True

/-- What holds of a forwarding goroutine at any time. -/
structure Forwards (conn : Connection) (address : Nat) (forwarder : Forwarder) : Prop where
  own : forwarder.watch.address = address
  handle : Handle conn.store forwarder.codexID forwarder.watch
  mine : address ∈ conn.opened
  shown : conn.watches.lookup forwarder.codexID = some address → forwarder.Shown conn

/-- The invariant of a connection: at every point the frames fit the watches, newer watches
have larger addresses, and every goroutine is where the frames say. -/
structure Sound (conn : Connection) : Prop where
  fits : ∀ frames, frames <+: conn.enqueued → ∀ codexID,
    Fits conn.store.received (observed codexID frames)
  rising : (answered conn.enqueued).Pairwise (· < ·)
  older : ∀ address ∈ answered conn.enqueued, address < conn.store.machine.allocated
  inside : ∀ part, conn.watchesMu = some part → Inside conn part
  forwards : ∀ address forwarder, conn.forwarder address = some forwarder →
    Forwards conn address forwarder
  registry : Registry conn.store.machine
  labelled : Labelled conn.store.machine
  unused : Unused conn.store

theorem connect_sound (start : Start store) : Sound (connect store) := by
  have unregistered : ∀ codexID, store.machine.registered codexID = [] := by
    intro codexID
    simp [Activity.Machine.registered, start.streams codexID]
  refine ⟨?_, .nil, ?_, ?_, ?_, ⟨?_, ?_, ?_⟩, ?_, ?_⟩
  · intro frames none_yet codexID
    rw [List.prefix_nil.mp none_yet]
    rfl
  · intro address member
    exact absurd member not_mem_nil
  · intro part taken
    cases taken
  · intro address forwarder running
    cases running
  · intro codexID address member
    exact absurd (unregistered codexID ▸ member) not_mem_nil
  · intro codexID
    exact unregistered codexID ▸ nodup_nil
  · intro codexID other address member
    exact absurd (unregistered codexID ▸ member) not_mem_nil
  · intro codexID st cached
    exact absurd cached (by simp [connect, start.streams codexID])
  · intro address free
    obtain ⟨empty, unread⟩ := start.unused address free
    simp [connect, handed, empty, unread]

/-- A goroutine keeps its place through a step of others that reads nothing from its
channel, brings its watch not back into the map, and queues nothing for its Codex while
its watch is there. -/
theorem Forwards.kept (before : Forwards conn address forwarder)
    (handle : Handle next.store forwarder.codexID forwarder.watch) (mine : address ∈ next.opened)
    (received : next.store.received address = conn.store.received address)
    (current : next.watches.lookup forwarder.codexID = some address →
      conn.watches.lookup forwarder.codexID = some address ∧
        observed forwarder.codexID next.enqueued = observed forwarder.codexID conn.enqueued) :
    Forwards next address forwarder := by
  refine ⟨before.own, handle, mine, ?_⟩
  intro found
  obtain ⟨earlier, same⟩ := current found
  have shown := before.shown earlier
  have own := before.own
  cases forwarder with
  | selecting codexID watch | holding codexID watch event =>
    obtain rfl : watch.address = address := own
    simp only [Forwarder.Shown, Forwarder.codexID, Shows] at shown same ⊢
    rw [received, same]
    exact shown
  | closing codexID watch => trivial

/-- What holds inside the mutex is not touched by a step that changes neither the map nor
what the frames show, and that reads only from channels with a goroutine. -/
theorem inside_kept (before : Inside conn part)
    (handle : ∀ codexID watch, Handle conn.store codexID watch → Handle next.store codexID watch)
    (received : ∀ address ∈ conn.opened, conn.forwarder address = none →
      next.store.received address = conn.store.received address)
    (watches : next.watches = conn.watches) (opened : next.opened = conn.opened)
    (alone : ∀ address, conn.forwarder address = none → next.forwarder address = none)
    (same : ∀ codexID, observed codexID next.enqueued = observed codexID conn.enqueued)
    (answers : answered next.enqueued = answered conn.enqueued) : Inside next part := by
  have kept : ∀ codexID watch, Opened conn codexID watch → Opened next codexID watch := by
    intro codexID watch waiting
    refine ⟨handle codexID watch waiting.handle, ?_, ?_, ?_, alone _ waiting.alone⟩
    · rw [watches]
      exact waiting.current
    · rw [opened]
      exact waiting.mine
    · rw [received _ waiting.mine waiting.alone]
      exact waiting.unread
  cases part with
  | responding requestID codexID watch =>
    refine ⟨kept codexID watch before.1, ?_⟩
    rw [answers]
    exact before.2
  | replaying codexID watch rest =>
    obtain ⟨waiting, sent, split, shows⟩ := before
    exact ⟨kept codexID watch waiting, sent, split, (same codexID).trans shows⟩
  | unwatching requestID codexID =>
    unfold Inside
    rw [watches]
    exact before
  | opening _ _ | abandoning _ _ | shuttingDown => trivial

section

variable (sound : Sound conn)
include sound

/-- A step of the store that reads none of the connection's channels. -/
theorem Sound.stored (action : Action) (store : World)
    (stepped : Activity.step conn.store action = some store)
    (elsewhere : ∀ address ∈ conn.opened, action ≠ .receive address) :
    Sound { conn with store := store } := by
  have received : ∀ address ∈ conn.opened,
      store.received address = conn.store.received address := fun address mine =>
    step_received stepped (elsewhere address mine)
  have handle : ∀ codexID watch, Handle conn.store codexID watch → Handle store codexID watch :=
    fun codexID watch before => before.step action stepped
  refine ⟨?_, sound.rising, ?_, ?_, ?_, ?_, ?_, ?_⟩
  · intro frames initial codexID
    refine (sound.fits frames initial codexID).mono fun address => ?_
    exact step_received_grows address stepped
  · intro address member
    exact Nat.lt_of_lt_of_le (sound.older address member) (step_allocated stepped)
  · intro part taken
    exact inside_kept (sound.inside part taken) handle (fun address mine _ => received address mine)
      rfl rfl (fun _ free => free) (fun _ => rfl) rfl
  · intro address forwarder running
    have before := sound.forwards address forwarder running
    exact before.kept (handle _ _ before.handle) before.mine (received address before.mine)
      fun found => ⟨found, rfl⟩
  · exact step_registry sound.registry stepped
  · exact step_labelled sound.labelled stepped
  · exact step_unused sound.registry sound.unused stepped

theorem Sound.cancel (codexID : String) (address : Nat) : Sound (conn.cancel codexID address) :=
  sound.stored (.cancel codexID address) _ rfl fun _ _ => nofun

section

variable (store : next.store = conn.store) (opened : next.opened = conn.opened)
  (frames : next.enqueued = conn.enqueued)
include store opened frames

/-- A step that queues nothing and adds nothing to the map. -/
theorem Sound.moved (fewer : ∀ codexID address, next.watches.lookup codexID = some address →
      conn.watches.lookup codexID = some address)
    (inside : ∀ part, next.watchesMu = some part → Inside next part)
    (forwards : ∀ address forwarder, next.forwarder address = some forwarder →
      conn.forwarder address = some forwarder ∨ Forwards next address forwarder) : Sound next := by
  refine ⟨?_, ?_, ?_, inside, ?_, ?_, ?_, ?_⟩
  · rw [frames, store]
    exact sound.fits
  · rw [frames]
    exact sound.rising
  · rw [frames, store]
    exact sound.older
  · intro address forwarder running
    rcases forwards address forwarder running with earlier | moved
    · have before := sound.forwards address forwarder earlier
      refine before.kept ?_ ?_ ?_ ?_
      · rw [store]
        exact before.handle
      · rw [opened]
        exact before.mine
      · rw [store]
      · intro found
        exact ⟨fewer _ _ found, by rw [frames]⟩
    · exact moved
  · rw [store]
    exact sound.registry
  · rw [store]
    exact sound.labelled
  · rw [store]
    exact sound.unused

/-- Such a step that leaves the mutex free. -/
theorem Sound.released (free : next.watchesMu = none)
    (fewer : ∀ codexID address, next.watches.lookup codexID = some address →
      conn.watches.lookup codexID = some address)
    (forwards : ∀ address forwarder, next.forwarder address = some forwarder →
      conn.forwarder address = some forwarder ∨ Forwards next address forwarder) : Sound next := by
  refine sound.moved store opened frames fewer ?_ forwards
  intro part entered
  rw [free] at entered
  cases entered

end

/-- A step that queues one frame. -/
theorem Sound.accepted (frame : Frame) (store : next.store = conn.store)
    (opened : next.opened = conn.opened) (frames : next.enqueued = conn.enqueued ++ [frame])
    (watches : next.watches = conn.watches) (last : ∀ codexID, frame.codexID = some codexID →
      Fits next.store.received (observed codexID next.enqueued))
    (newer : ∀ address ∈ answered [frame], address < conn.store.machine.allocated ∧
      ∀ earlier ∈ answered conn.enqueued, earlier < address)
    (inside : ∀ part, next.watchesMu = some part → Inside next part)
    (forwards : ∀ address forwarder, next.forwarder address = some forwarder →
      Forwards next address forwarder ∨
        conn.forwarder address = some forwarder ∧
          (conn.watches.lookup forwarder.codexID = some address →
            frame.codexID ≠ some forwarder.codexID)) : Sound next := by
  have appended : answered next.enqueued = answered conn.enqueued ++ answered [frame] := by
    rw [frames]
    exact filterMap_append
  refine ⟨?_, ?_, ?_, inside, ?_, ?_, ?_, ?_⟩
  · intro initial before codexID
    rw [frames] at before
    rcases List.prefix_concat_iff.mp before with rfl | earlier
    · by_cases named : frame.codexID = some codexID
      · rw [← frames]
        exact last codexID named
      · rw [observed_other conn.enqueued named, store]
        exact sound.fits conn.enqueued (List.prefix_refl _) codexID
    · rw [store]
      exact sound.fits initial earlier codexID
  · rw [appended]
    refine pairwise_append.mpr ⟨sound.rising, ?_, ?_⟩
    · cases frame <;> simp [answered]
    · intro earlier before address member
      exact (newer address member).2 earlier before
  · intro address member
    rw [appended] at member
    rw [store]
    rcases mem_append.mp member with before | fresh
    · exact sound.older address before
    · exact (newer address fresh).1
  · intro address forwarder running
    rcases forwards address forwarder running with moved | ⟨earlier, apart⟩
    · exact moved
    have before := sound.forwards address forwarder earlier
    refine before.kept ?_ ?_ ?_ ?_
    · rw [store]
      exact before.handle
    · rw [opened]
      exact before.mine
    · rw [store]
    · intro found
      rw [watches] at found
      exact ⟨found, by rw [frames, observed_other _ (apart found)]⟩
  · rw [store]
    exact sound.registry
  · rw [store]
    exact sound.labelled
  · rw [store]
    exact sound.unused

/-- A frame that is about no Codex may be queued at any time. -/
theorem Sound.neutral (frame : Frame) (neutral : frame.codexID = none) :
    Sound (conn.accept frame) := by
  have apart : ∀ codexID, frame.codexID ≠ some codexID := by
    intro codexID named
    rw [neutral] at named
    cases named
  have none_answered : answered [frame] = [] := by
    cases frame <;> first | rfl | cases neutral
  refine sound.accepted frame rfl rfl rfl rfl ?_ ?_ ?_ ?_
  · intro codexID named
    exact absurd named (apart codexID)
  · intro address member
    rw [none_answered] at member
    exact absurd member not_mem_nil
  · intro part taken
    refine inside_kept (sound.inside part taken) (fun _ _ handle => handle) (fun _ _ _ => rfl) rfl
      rfl (fun _ free => free) ?_ ?_
    · intro codexID
      exact observed_other conn.enqueued (apart codexID)
    · change answered (conn.enqueued ++ [frame]) = answered conn.enqueued
      rw [answered, filterMap_append]
      exact (congrArg _ none_answered).trans (append_nil _)
  · intro address forwarder running
    exact .inr ⟨running, fun _ => apart forwarder.codexID⟩

/-- Whether or not there is room for it. -/
theorem Sound.enqueued (config : ServerConfig) (frame : Frame)
    (neutral : frame.codexID = none) : Sound (enqueue config conn frame).1 := by
  rcases enqueue_cases config conn frame with taken | full
  · rw [taken]
    exact sound.neutral frame neutral
  · rw [full]
    exact sound

end

/-! ## Each step keeps the invariant -/

/-- Entering the mutex drops the old watch. -/
theorem Sound.dropped (sound : Sound conn) (codexID : String) (part : Section)
    (inside : Inside { conn.dropOld codexID with watchesMu := some part } part) :
    Sound { conn.dropOld codexID with watchesMu := some part } := by
  have entered : ∀ other, some part = some other →
      Inside { conn.dropOld codexID with watchesMu := some part } other := by
    intro other same
    cases same
    exact inside
  unfold Connection.dropOld at entered ⊢
  revert entered
  cases conn.watches.lookup codexID with
  | none =>
    intro entered
    exact sound.moved rfl rfl rfl (fun _ _ found => found) entered (fun _ _ running => .inl running)
  | some old =>
    intro entered
    refine (sound.cancel codexID old).moved rfl rfl rfl ?_ entered (fun _ _ running => .inl running)
    intro other address found
    exact lookup_remove_some found

theorem handleWatch_sound (sound : Sound conn)
    (taken : handleWatch config conn requestID request expired now = some next) : Sound next := by
  unfold handleWatch at taken
  split at taken
  · cases taken
    exact sound.enqueued config _ rfl
  split at taken <;> cases taken
  exact sound.dropped request.codexID _ trivial

theorem handleUnwatch_sound (sound : Sound conn)
    (taken : handleUnwatch config conn requestID codexID expired now = some next) : Sound next := by
  unfold handleUnwatch at taken
  split at taken
  · cases taken
    exact sound.enqueued config _ rfl
  split at taken
  · cases taken
  cases taken
  have gone := dropOld_lookup conn codexID codexID
  rw [if_pos rfl] at gone
  exact sound.dropped codexID _ gone

/-- The store call of a Watch request is one of two steps of the store. -/
theorem openStore_step (config : ServerConfig) (store : World) (request : WatchCodexRequest)
    (answers : Bool) : ∃ after,
    Activity.step store (.watch request.codexID after config.watchQueueSize answers) =
      some (store.opened request.codexID (openStore config store.machine request answers)) := by
  unfold openStore
  split
  · refine ⟨none, ?_⟩
    rw [← step_forceReset store request.codexID .hostRestarted]
    rfl
  · exact ⟨request.afterEventSeq, rfl⟩

/-- The watch a request is handed is about its Codex, at the first free address. -/
theorem openStore_handle (registry : Registry store.machine) (labelled : Labelled store.machine)
    (unused : Unused store)
    (result : (openStore config store.machine request answers).2 = .ok watch) :
    watch.address = store.machine.allocated ∧
      Handle (store.opened request.codexID (openStore config store.machine request answers))
        request.codexID watch := by
  unfold openStore at result ⊢
  split at result
  · next restarted =>
    rw [if_pos restarted]
    have same := step_forceReset store request.codexID .hostRestarted
      config.watchQueueSize answers
    obtain opened := some.inj same
    unfold forceReset at result
    split at result <;> cases result
    next machine plain called =>
    obtain ⟨fresh, handle⟩ := watch_handle registry labelled unused (by rw [called])
    rw [opened]
    exact ⟨fresh, handle.answered, handle.replay, handle.older, handle.registered, handle.live⟩
  · next current =>
    rw [if_neg current]
    exact watch_handle registry labelled unused result

theorem openWatch_sound (sound : Sound conn) (config : ServerConfig) (requestID : String)
    (request : WatchCodexRequest) (answers expired : Bool) (failure : Text) :
    Sound (openWatch config conn requestID request answers expired failure) := by
  unfold openWatch
  split
  · exact sound.released rfl rfl rfl rfl (fun _ _ found => found) (fun _ _ running => .inl running)
  simp only
  obtain ⟨after, stepped⟩ := openStore_step config conn.store request answers
  have stored := sound.stored _ _ stepped fun _ _ => nofun
  split
  · exact stored.released rfl rfl rfl rfl (fun _ _ found => found) (fun _ _ running => .inl running)
  next watch result =>
  obtain ⟨fresh, handle⟩ := openStore_handle sound.registry sound.labelled sound.unused result
  have older : ∀ address forwarder, conn.forwarder address = some forwarder →
      address < watch.address := by
    intro address forwarder running
    have before := sound.forwards address forwarder running
    rw [fresh, ← before.own]
    exact before.handle.older
  have unread : conn.store.received watch.address = [] :=
    (append_eq_nil_iff.mp (sound.unused watch.address (Nat.le_of_eq fresh.symm))).1
  refine { stored with inside := ?_, forwards := ?_ }
  · intro part taken
    cases taken
    refine ⟨⟨handle, ?_, mem_cons_self, ?_, ?_⟩, ?_⟩
    · simp [lookup_assign]
    · rw [← unread]
      exact step_received stepped nofun
    · refine eq_none_iff_forall_ne_some.mpr fun forwarder running => ?_
      exact absurd (older watch.address forwarder running) (Nat.lt_irrefl _)
    · rw [fresh]
      exact sound.older
  · intro address forwarder running
    have before := stored.forwards address forwarder running
    refine before.kept before.handle (mem_cons_of_mem _ before.mine) rfl ?_
    intro found
    rw [lookup_assign] at found
    split at found
    · have same : watch.address = address := some.inj found
      exact absurd (older address forwarder running) (by omega)
    · exact ⟨found, rfl⟩

/-- No goroutine is at work for the Codex of a watch that is being opened. -/
theorem Opened.apart (waiting : Opened conn codexID watch)
    (running : conn.forwarder address = some forwarder)
    (found : conn.watches.lookup forwarder.codexID = some address) :
    forwarder.codexID ≠ codexID := by
  rintro rfl
  have same : watch.address = address := some.inj (waiting.current.symm.trans found)
  rw [← same, waiting.alone] at running
  cases running

theorem responding_sound (sound : Sound conn)
    (inside : Inside conn (.responding requestID codexID watch))
    (taken : proceed config conn now (.responding requestID codexID watch) = some next) :
    Sound next := by
  obtain ⟨waiting, newest⟩ := inside
  unfold proceed at taken
  rcases enqueue_cases config conn (.watchCodex requestID now watch) with accepted | full
  · simp only [accepted] at taken
    cases taken
    have shows : Shows (conn.accept (.watchCodex requestID now watch)) codexID watch [] := by
      unfold Shows Connection.accept
      rw [observed_snoc]
      simp [observe, Frame.codexID, waiting.handle.answered]
    refine sound.accepted (.watchCodex requestID now watch) rfl rfl rfl rfl ?_ ?_ ?_ ?_
    · intro other named
      obtain rfl : watch.response.codexId = other := some.inj named
      rw [waiting.handle.answered]
      exact shows.fits (List.nil_prefix)
    · intro address member
      obtain rfl : address = watch.address := by simpa [answered] using member
      exact ⟨waiting.handle.older, newest⟩
    · intro part entered
      cases entered
      exact ⟨{ waiting with }, [],
        rfl, shows⟩
    · intro address forwarder running
      refine .inr ⟨running, fun found named => ?_⟩
      refine waiting.apart running found ?_
      rw [← waiting.handle.answered]
      exact (some.inj named).symm
  · simp only [full] at taken
    cases taken
    refine sound.moved rfl rfl rfl (fun _ _ found => found) ?_ (fun _ _ running => .inl running)
    intro part entered
    cases entered
    trivial

theorem replaying_sound (sound : Sound conn) (inside : Inside conn (.replaying codexID watch rest))
    (taken : proceed config conn now (.replaying codexID watch rest) = some next) : Sound next := by
  obtain ⟨waiting, sent, split, shows⟩ := inside
  cases rest with
  | nil =>
    cases taken
    refine sound.released rfl rfl rfl rfl (fun _ _ found => found) ?_
    intro address forwarder running
    simp only at running
    by_cases own : address = watch.address
    · subst own
      rw [update_self] at running
      cases running
      refine .inr ⟨rfl, waiting.handle, waiting.mine, fun _ => ?_⟩
      have whole : sent = watch.replay ++ conn.store.received watch.address := by
        rw [waiting.unread, ← split, append_nil, append_nil]
      rw [whole] at shows
      exact shows
    · rw [update_of_ne own] at running
      exact .inl running
  | cons event rest =>
    unfold proceed at taken
    rcases enqueue_cases config conn (.event watch.address event) with accepted | full
    · simp only [accepted] at taken
      cases taken
      have own : event.codexId = codexID :=
        waiting.handle.replay event (split ▸ mem_append_right _ mem_cons_self)
      have longer : (sent ++ [event]) ++ rest = watch.replay := by
        rw [← split, append_assoc]
        rfl
      have shown := shows.event event own
      refine sound.accepted (.event watch.address event) rfl rfl rfl rfl ?_ ?_ ?_ ?_
      · intro other named
        obtain rfl : event.codexId = other := some.inj named
        rw [own]
        refine shown.fits ?_
        rw [← longer, append_assoc]
        exact List.prefix_append _ _
      · intro address member
        exact absurd member not_mem_nil
      · intro part entered
        cases entered
        exact ⟨{ waiting with },
          sent ++ [event], longer, shown⟩
      · intro address forwarder running
        refine .inr ⟨running, fun found named => ?_⟩
        refine waiting.apart running found ?_
        rw [← own]
        exact (some.inj named).symm
    · simp only [full] at taken
      cases taken
      refine sound.moved rfl rfl rfl (fun _ _ found => found) ?_ (fun _ _ running => .inl running)
      intro part entered
      cases entered
      trivial

theorem unwatching_sound (sound : Sound conn) (inside : Inside conn (.unwatching requestID codexID))
    (taken : proceed config conn now (.unwatching requestID codexID) = some next) : Sound next := by
  cases taken
  rcases enqueue_cases config conn (.unwatchCodex requestID now codexID) with accepted | full
  · rw [accepted]
    refine sound.accepted (.unwatchCodex requestID now codexID) rfl rfl rfl rfl ?_ ?_ ?_ ?_
    · intro other named
      obtain rfl : codexID = other := some.inj named
      unfold Connection.accept
      simp only
      rw [observed_snoc]
      simp [observe, Frame.codexID, Fits]
    · intro address member
      exact absurd member not_mem_nil
    · intro part entered
      exact absurd entered.symm (some_ne_none part)
    · intro address forwarder running
      refine .inr ⟨running, fun found named => ?_⟩
      have same : codexID = forwarder.codexID := some.inj named
      rw [← same, show conn.watches.lookup codexID = none from inside] at found
      cases found
  · rw [full]
    exact sound.released rfl rfl rfl rfl (fun _ _ found => found) (fun _ _ running => .inl running)

/-- Every access of the goroutine inside the mutex. -/
theorem proceed_sound (sound : Sound conn) (config : ServerConfig) (now : Int) (part : Section)
    (holds : conn.watchesMu = some part) (taken : proceed config conn now part = some next) :
    Sound next := by
  have inside := sound.inside part holds
  cases part with
  | opening requestID request => cases taken
  | responding requestID codexID watch => exact responding_sound sound inside taken
  | replaying codexID watch rest => exact replaying_sound sound inside taken
  | abandoning codexID watch =>
    cases taken
    refine (sound.cancel codexID watch.address).released rfl rfl rfl rfl ?_
      (fun _ _ running => .inl running)
    intro other address found
    exact lookup_remove_some found
  | unwatching requestID codexID => exact unwatching_sound sound inside taken
  | shuttingDown =>
    simp only [proceed] at taken
    split at taken <;> cases taken
    · exact sound.released rfl rfl rfl rfl (fun _ _ found => found)
        (fun _ _ running => .inl running)
    · next codexID address rest listed =>
      refine (sound.cancel codexID address).moved rfl rfl rfl ?_ ?_
        (fun _ _ running => .inl running)
      · intro other entry found
        exact lookup_remove_some found
      · intro part entered
        cases holds.symm.trans entered
        trivial

theorem place_self (conn : Connection) (address : Nat) (forwarder : Option Forwarder) :
    (conn.place address forwarder).forwarder address = forwarder := by
  simp [Connection.place]

theorem place_other (conn : Connection) (forwarder : Option Forwarder)
    (distinct : other ≠ address) :
    (conn.place address forwarder).forwarder other = conn.forwarder other := by
  simp [Connection.place, distinct]

section

variable (sound : Sound conn)
include sound

/-- A goroutine that moves on without reading or queueing. -/
theorem Sound.placed (address : Nat) (forwarder : Option Forwarder)
    (running : conn.forwarder address ≠ none) (placed : ∀ place, forwarder = some place →
      Forwards (conn.place address forwarder) address place) :
    Sound (conn.place address forwarder) := by
  refine sound.moved rfl rfl rfl (fun _ _ found => found) ?_ ?_
  · intro part entered
    refine inside_kept (sound.inside part entered) (fun _ _ handle => handle) (fun _ _ _ => rfl)
      rfl rfl ?_ (fun _ => rfl) rfl
    intro other free
    have distinct : other ≠ address := fun same => running (same ▸ free)
    rw [place_other conn forwarder distinct]
    exact free
  · intro other place moved
    by_cases own : other = address
    · subst own
      rw [place_self] at moved
      exact .inr (placed place moved)
    · rw [place_other conn forwarder own] at moved
      exact .inl moved

theorem Sound.ended (address : Nat) (running : conn.forwarder address ≠ none) :
    Sound (conn.place address none) :=
  sound.placed address none running fun place same => absurd same.symm (some_ne_none place)

/-- Taking an event from the channel. The goroutine then holds what it has read last. -/
theorem receive_sound (codexID : String) (watch : Watch) (event : Event) (rest : List Event)
    (store : World) (selecting : conn.forwarder watch.address = some (.selecting codexID watch))
    (queued : (conn.store.machine.heap watch.address).events = event :: rest)
    (stepped : Activity.step conn.store (.receive watch.address) = some store) :
    Sound ({ conn with store := store }.place watch.address
      (some (.holding codexID watch event))) := by
  have read : store.received watch.address =
      conn.store.received watch.address ++ [event] := by
    cases stepped
    simp [queued]
  have others : ∀ address, address ≠ watch.address →
      store.received address = conn.store.received address := by
    intro address distinct
    refine step_received stepped ?_
    intro same
    exact distinct (Action.receive.inj same).symm
  have handle : ∀ codexID watch, Handle conn.store codexID watch → Handle store codexID watch :=
    fun codexID watch before => before.step _ stepped
  refine ⟨?_, sound.rising, ?_, ?_, ?_, ?_, ?_, ?_⟩
  · intro frames initial codexID
    refine (sound.fits frames initial codexID).mono fun address => ?_
    exact step_received_grows address stepped
  · intro address member
    exact Nat.lt_of_lt_of_le (sound.older address member) (step_allocated stepped)
  · intro part entered
    refine inside_kept (sound.inside part entered) handle ?_ rfl rfl ?_ (fun _ => rfl) rfl
    · intro address _ free
      refine others address ?_
      rintro rfl
      rw [selecting] at free
      cases free
    · intro address free
      rw [place_other]
      · exact free
      · rintro rfl
        rw [selecting] at free
        cases free
  · intro address forwarder running
    by_cases own : address = watch.address
    · subst own
      rw [place_self] at running
      cases running
      have before := sound.forwards watch.address _ selecting
      refine ⟨rfl, handle _ _ before.handle, before.mine, fun found => ?_⟩
      refine ⟨watch.replay ++ conn.store.received watch.address, ?_, before.shown found⟩
      rw [append_assoc, ← read]
      rfl
    · rw [place_other _ _ own] at running
      have before := sound.forwards address forwarder running
      exact before.kept (handle _ _ before.handle) before.mine (others address own)
        fun found => ⟨found, rfl⟩
  · exact step_registry sound.registry stepped
  · exact step_labelled sound.labelled stepped
  · exact step_unused sound.registry sound.unused stepped

theorem take_sound (taken : take conn address = some next) : Sound next := by
  unfold take at taken
  split at taken
  · next codexID watch selecting =>
    have before := sound.forwards address _ selecting
    obtain rfl : watch.address = address := before.own
    split at taken
    · next event rest queued =>
      obtain ⟨store, stepped, rfl⟩ := map_eq_some_iff.mp taken
      exact receive_sound sound codexID watch event rest store selecting queued stepped
    · split at taken <;> cases taken
      refine sound.placed watch.address _ (by rw [selecting]; nofun) ?_
      intro place same
      cases same
      exact ⟨rfl, before.handle, before.mine, fun _ => trivial⟩
  · cases taken

/-- Queueing the event a goroutine holds, while its watch is in the map. -/
theorem deliver_sound (free : conn.watchesMu = none)
    (holding : conn.forwarder watch.address = some (.holding codexID watch event))
    (current : conn.watches.lookup codexID = some watch.address) :
    Sound ((conn.accept (.event watch.address event)).place watch.address
      (some (.selecting codexID watch))) := by
  have before := sound.forwards watch.address _ holding
  obtain ⟨sent, whole, shows⟩ := before.shown current
  have own : event.codexId = codexID := by
    have member : event ∈ watch.replay ++ conn.store.received watch.address :=
      whole ▸ mem_append_right _ mem_cons_self
    rcases mem_append.mp member with replayed | read
    · exact before.handle.replay event replayed
    · exact before.handle.live event (mem_append_left _ read)
  have shown := shows.event event own
  rw [whole] at shown
  refine sound.accepted (.event watch.address event) rfl rfl rfl rfl ?_ ?_ ?_ ?_
  · intro other named
    obtain rfl : event.codexId = other := some.inj named
    rw [own]
    exact shown.fits (List.prefix_refl _)
  · intro address member
    exact absurd member not_mem_nil
  · intro part entered
    exact absurd (free.symm.trans entered).symm (some_ne_none part)
  · intro address forwarder running
    by_cases mine : address = watch.address
    · subst mine
      rw [place_self] at running
      cases running
      exact .inl ⟨rfl, before.handle, before.mine, fun _ => shown⟩
    · rw [place_other _ _ mine] at running
      refine .inr ⟨running, fun found named => ?_⟩
      have same : codexID = forwarder.codexID := own.symm.trans (some.inj named)
      rw [← same] at found
      exact mine (some.inj (found.symm.trans current))

theorem forward_sound (taken : forward config conn address = some next) : Sound next := by
  unfold forward at taken
  split at taken
  · cases taken
  next free =>
  have unlocked : conn.watchesMu = none := by simpa using free
  split at taken
  · next codexID watch event holding =>
    obtain rfl : watch.address = address := (sound.forwards address _ holding).own
    have running : conn.forwarder watch.address ≠ none := by rw [holding]; nofun
    split at taken
    · next current =>
      rcases enqueue_cases config conn (.event watch.address event) with accepted | full
      · simp only [accepted] at taken
        cases taken
        exact deliver_sound sound unlocked holding current
      · simp only [full] at taken
        cases taken
        exact sound.ended watch.address running
    · cases taken
      exact sound.ended watch.address running
  · next codexID watch closing =>
    have running : conn.forwarder address ≠ none := by rw [closing]; nofun
    cases taken
    refine (sound.ended address running).released rfl rfl rfl unlocked ?_
      (fun _ _ running => .inl running)
    intro other entry found
    simp only at found
    split at found
    · exact lookup_remove_some found
    · exact found
  · cases taken

theorem leave_sound (taken : leave conn address slow = some next) : Sound next := by
  unfold leave at taken
  split at taken
  · next selecting =>
    split at taken <;> cases taken
    exact sound.ended address (by rw [selecting]; nofun)
  · cases taken

end

/-- Every step keeps the invariant. -/
theorem step_sound (config : ServerConfig) (conn : Connection) (label : Label) (next : Connection)
    (sound : Sound conn) (stepped : step config conn label = some next) : Sound next := by
  cases label with
  | store action =>
    simp only [step] at stepped
    split at stepped
    · next foreign =>
      obtain ⟨store, called, rfl⟩ := map_eq_some_iff.mp stepped
      refine sound.stored action store called ?_
      rintro address mine rfl
      exact absurd mine (by simpa [Connection.foreign] using foreign)
    · cases stepped
  | respond response | signal =>
    cases stepped
    exact sound.enqueued config _ rfl
  | write =>
    simp only [step] at stepped
    split at stepped
    · cases stepped
    cases stepped
    refine sound.moved rfl rfl rfl (fun _ _ found => found) ?_ (fun _ _ running => .inl running)
    intro part entered
    exact inside_kept (sound.inside part entered) (fun _ _ handle => handle)
      (fun _ _ _ => rfl) rfl rfl (fun _ alone => alone) (fun _ => rfl) rfl
  | handleWatch requestID request expired now => exact handleWatch_sound sound stepped
  | handleUnwatch requestID codexID expired now => exact handleUnwatch_sound sound stepped
  | openWatch answers expired failure =>
    simp only [step] at stepped
    split at stepped <;> cases stepped
    exact openWatch_sound sound config _ _ answers expired failure
  | proceed now =>
    obtain ⟨part, holds, taken⟩ := bind_eq_some_iff.mp stepped
    exact proceed_sound sound config now part holds taken
  | refuse refusal now =>
    simp only [step] at stepped
    split at stepped <;> cases stepped
    have answered := sound.enqueued config (.response (refusal.response now)) rfl
    refine answered.moved rfl rfl rfl (fun _ _ found => found) ?_
      (fun _ _ running => .inl running)
    intro part entered
    exact inside_kept (answered.inside part entered) (fun _ _ handle => handle)
      (fun _ _ _ => rfl) rfl rfl (fun _ alone => alone) (fun _ => rfl) rfl
  | take address => exact take_sound sound stepped
  | forward address => exact forward_sound sound stepped
  | leave address slow => exact leave_sound sound stepped
  | shutdown =>
    simp only [step] at stepped
    split at stepped
    · cases stepped
    cases stepped
    refine sound.moved rfl rfl rfl (fun _ _ found => found) ?_ (fun _ _ running => .inl running)
    intro part entered
    cases entered
    trivial

/-! ## What a client can read off the frames -/

/-- The frame is a successful response to a Watch request for the Codex. -/
def Frame.watches (codexID : String) : Frame → Bool
  | .watchCodex _ _ watch => decide (watch.response.codexId = codexID)
  | _ => false

/-- The frame is a response to an Unwatch request for the Codex. -/
def Frame.unwatches (codexID : String) : Frame → Bool
  | .unwatchCodex _ _ named => decide (named = codexID)
  | _ => false

/-- The events of a Codex among some frames, each with the watch it was queued for. -/
def eventsOf (codexID : String) (frames : List Frame) : List (Nat × Event) :=
  frames.filterMap fun
    | .event address event => if event.codexId = codexID then some (address, event) else none
    | _ => none

/-- Between two responses for a Codex the frames show its events. -/
theorem foldl_observe (seen : Seen) (quiet : ∀ frame ∈ frames,
      frame.watches codexID = false ∧ frame.unwatches codexID = false) :
    frames.foldl (observe codexID) seen =
      { seen with shown := seen.shown ++ eventsOf codexID frames } := by
  induction frames generalizing seen with
  | nil => simp [eventsOf]
  | cons frame rest ih =>
    have first := quiet frame mem_cons_self
    rw [foldl_cons, ih _ fun later member => quiet later (mem_cons_of_mem _ member)]
    cases frame with
    | watchCodex requestID now watch =>
      have apart : watch.response.codexId ≠ codexID := by simpa [Frame.watches] using first.1
      simp [observe, Frame.codexID, apart, eventsOf]
    | unwatchCodex requestID now named =>
      have apart : named ≠ codexID := by simpa [Frame.unwatches] using first.2
      simp [observe, Frame.codexID, apart, eventsOf]
    | event address event =>
      by_cases own : event.codexId = codexID
      · simp [observe, Frame.codexID, own, eventsOf]
      · simp [observe, Frame.codexID, own, eventsOf]
    | response response | other => simp [observe, Frame.codexID, eventsOf]

/-- A watch that the frames show was answered by one of them, or shown before them. -/
theorem foldl_watch (codexID : String) (frames : List Frame) (seen : Seen) (watch : Watch)
    (shown : (frames.foldl (observe codexID) seen).watch = some watch) :
    seen.watch = some watch ∨
      ∃ frame ∈ frames, frame.watches codexID = true ∧ watch.address ∈ answered frames := by
  induction frames generalizing seen with
  | nil => exact .inl shown
  | cons frame rest ih =>
    rcases ih (observe codexID seen frame) shown with first | ⟨later, member, watches, listed⟩
    · unfold observe at first
      split at first
      · next named =>
        cases frame with
        | watchCodex requestID now opened =>
          obtain rfl : opened = watch := some.inj first
          have own : opened.response.codexId = codexID := some.inj named
          exact .inr ⟨_, mem_cons_self, by simp [Frame.watches, own], by simp [answered]⟩
        | unwatchCodex requestID now named => cases first
        | event address event | response response | other => exact .inl first
      · exact .inl first
    · refine .inr ⟨later, mem_cons_of_mem _ member, watches, ?_⟩
      exact ((sublist_cons_self frame rest).filterMap _).subset listed

/-- An event among the frames splits them. -/
theorem eventsOf_split (member : (address, event) ∈ eventsOf codexID frames) :
    event.codexId = codexID ∧
      ∃ before after, frames = before ++ .event address event :: after := by
  obtain ⟨frame, listed, shown⟩ := mem_filterMap.mp member
  cases frame with
  | event other entry =>
    simp only at shown
    split at shown <;> cases shown
    next own =>
    exact ⟨own, append_of_mem listed⟩
  | watchCodex _ _ _ | unwatchCodex _ _ _ | response _ | other => cases shown

/-- An event that is queued belongs to the watch of the last response for its Codex. -/
theorem Sound.event_watch (sound : Sound conn) (before after : List Frame) (address : Nat)
    (event : Event) (split : conn.enqueued = before ++ .event address event :: after) :
    ∃ watch, (observed event.codexId before).watch = some watch ∧ watch.address = address := by
  have initial : before ++ [.event address event] <+: conn.enqueued := by
    refine ⟨after, ?_⟩
    rw [split, append_assoc]
    rfl
  have fits := sound.fits _ initial event.codexId
  rw [observed_snoc] at fits
  simp only [observe, Frame.codexID, if_true, Fits] at fits
  split at fits
  · simp at fits
  · next watch shown =>
    exact ⟨watch, shown, (fits.1 (address, event) (by simp)).symm⟩

/-- What a connection promises about the frames it has queued. -/
structure InOrder (conn : Connection) : Prop where
  /-- Behind a Watch response, up to the next response for the Codex, come only events of
  that watch, and they are the beginning of its replay and its live events. -/
  segment : ∀ before requestID now watch frames after,
    conn.enqueued = before ++ .watchCodex requestID now watch :: (frames ++ after) →
    (∀ frame ∈ frames, frame.watches watch.response.codexId = false ∧
      frame.unwatches watch.response.codexId = false) →
    (∀ entry ∈ eventsOf watch.response.codexId frames, entry.1 = watch.address) ∧
      (eventsOf watch.response.codexId frames).map Prod.snd <+:
        watch.replay ++ handed conn.store watch.address
  /-- No event of a watch answered before a response for its Codex comes behind it. -/
  newer : ∀ before response after codexID, conn.enqueued = before ++ response :: after →
    (response.watches codexID = true ∨ response.unwatches codexID = true) →
    ∀ entry ∈ eventsOf codexID after, entry.1 ∉ answered before
  /-- Behind an Unwatch response nothing of the Codex comes until it is watched again. -/
  silent : ∀ before response frames after codexID,
    conn.enqueued = before ++ response :: (frames ++ after) →
    response.unwatches codexID = true →
    (∀ frame ∈ frames, frame.watches codexID = false) → eventsOf codexID frames = []

theorem Sound.segment (sound : Sound conn) (before frames after : List Frame) (requestID : String)
    (now : Int) (watch : Watch)
    (split : conn.enqueued = before ++ .watchCodex requestID now watch :: (frames ++ after))
    (quiet : ∀ frame ∈ frames, frame.watches watch.response.codexId = false ∧
      frame.unwatches watch.response.codexId = false) :
    (∀ entry ∈ eventsOf watch.response.codexId frames, entry.1 = watch.address) ∧
      (eventsOf watch.response.codexId frames).map Prod.snd <+:
        watch.replay ++ handed conn.store watch.address := by
  have initial : before ++ .watchCodex requestID now watch :: frames <+: conn.enqueued := by
    rw [split, ← cons_append, ← append_assoc]
    exact List.prefix_append _ _
  have shows : observed watch.response.codexId
      (before ++ .watchCodex requestID now watch :: frames) =
        { watch := some watch, shown := eventsOf watch.response.codexId frames } := by
    unfold observed
    rw [foldl_append, foldl_cons, foldl_observe _ quiet]
    simp [observe, Frame.codexID]
  have fits := sound.fits _ initial watch.response.codexId
  rw [shows] at fits
  refine ⟨fits.1, fits.2.trans ?_⟩
  rw [handed, ← append_assoc]
  exact List.prefix_append _ _

theorem Sound.newer (sound : Sound conn) (before after : List Frame) (response : Frame)
    (codexID : String) (split : conn.enqueued = before ++ response :: after)
    (answers : response.watches codexID = true ∨ response.unwatches codexID = true) :
    ∀ entry ∈ eventsOf codexID after, entry.1 ∉ answered before := by
  rintro ⟨address, event⟩ member
  obtain ⟨rfl, between, rest, rfl⟩ := eventsOf_split member
  have whole : conn.enqueued =
      (before ++ response :: between) ++ .event address event :: rest := by
    rw [split, append_assoc]
    rfl
  obtain ⟨watch, shown, rfl⟩ := sound.event_watch _ rest address event whole
  have later : watch.address ∈ answered (response :: between) := by
    unfold observed at shown
    rw [foldl_append, foldl_cons] at shown
    rcases foldl_watch event.codexId between _ watch shown with first | ⟨-, -, -, listed⟩
    · cases response with
      | watchCodex requestID now opened =>
        have own : opened.response.codexId = event.codexId := by
          simpa [Frame.watches, Frame.unwatches] using answers
        simp only [observe, Frame.codexID, own, if_true] at first
        cases first
        simp [answered]
      | unwatchCodex requestID now named =>
        have own : named = event.codexId := by
          simpa [Frame.watches, Frame.unwatches] using answers
        simp [observe, Frame.codexID, own] at first
      | event _ _ | response _ | other => simp [Frame.watches, Frame.unwatches] at answers
    · exact ((sublist_cons_self response between).filterMap _).subset listed
  have rising := sound.rising
  rw [whole, answered, filterMap_append, filterMap_append] at rising
  have ordered := (pairwise_append.mp (pairwise_append.mp rising).1).2.2
  intro earlier
  exact absurd (ordered watch.address earlier watch.address later) (Nat.lt_irrefl _)

theorem Sound.silent (sound : Sound conn) (before frames after : List Frame) (response : Frame)
    (codexID : String) (split : conn.enqueued = before ++ response :: (frames ++ after))
    (unwatched : response.unwatches codexID = true)
    (unanswered : ∀ frame ∈ frames, frame.watches codexID = false) :
    eventsOf codexID frames = [] := by
  refine eq_nil_iff_forall_not_mem.mpr ?_
  rintro ⟨address, event⟩ member
  obtain ⟨rfl, between, rest, rfl⟩ := eventsOf_split member
  have whole : conn.enqueued =
      (before ++ response :: between) ++ .event address event :: (rest ++ after) := by
    rw [split]
    simp
  obtain ⟨watch, shown, -⟩ := sound.event_watch _ _ address event whole
  unfold observed at shown
  rw [foldl_append, foldl_cons] at shown
  rcases foldl_watch event.codexId between _ watch shown with first | ⟨frame, listed, watches, -⟩
  · cases response with
    | unwatchCodex requestID now named =>
      have own : named = event.codexId := by simpa [Frame.unwatches] using unwatched
      simp [observe, Frame.codexID, own] at first
    | watchCodex _ _ _ | event _ _ | response _ | other => cases unwatched
  · rw [unanswered frame (mem_append_left _ listed)] at watches
    cases watches

/-- For every interleaving of requests, publications and forwarding goroutines on a
connection, opened on a Host in any state it can start in, the frames are in order. -/
theorem watches_in_order (config : ServerConfig) (store : World) (start : Start store)
    (labels : List Label) (conn : Connection)
    (ran : Runs.run (step config) (connect store) labels = some conn) : InOrder conn := by
  have sound : Sound conn := Runs.run_kept Sound (step_sound config) (connect_sound start) ran
  constructor
  · intro before requestID now watch frames after split quiet
    exact sound.segment before frames after requestID now watch split quiet
  · intro before response after codexID split answers
    exact sound.newer before after response codexID split answers
  · intro before response frames after codexID split unwatched unanswered
    exact sound.silent before frames after response codexID split unwatched unanswered

/-- A Codex is watched and an event published; the first goroutine has taken the event when
the Codex is watched again from the start, and finds its watch replaced. A second event
goes through the new watch, and the Codex is unwatched. -/
def rewatch : List Label :=
  [.store (.upsertCodex Activity.sampleRow),
    .handleWatch "one" { codexID := "cdx" } false 1, .openWatch true false [],
    .proceed 1, .proceed 1,
    .store (Activity.samplePublish "first" .committed), .take 0,
    .handleWatch "two"
      { codexID := "cdx", afterEventSeq := some 0, afterHostRunID := "run" } false 2,
    .openWatch true false [], .proceed 2, .proceed 2, .proceed 2, .forward 0,
    .store (Activity.samplePublish "second" .committed), .take 1, .forward 1,
    .handleUnwatch "three" "cdx" false 3, .proceed 3]

/-- Both events reach the client once, through the second watch. -/
theorem watches_in_order_rewatched : ∃ conn,
    Runs.run (step { hostRunID := "run" }) (connect (Activity.emptyHost 8)) rewatch =
      some conn ∧
    ((eventsOf "cdx" conn.enqueued).map fun entry => (entry.1, entry.2.eventSeq)) =
      [(1, 1), (1, 2)] ∧
    (handed conn.store 0).map Event.eventSeq = [1] ∧ InOrder conn := by
  have ran : (Runs.run (step { hostRunID := "run" }) (connect (emptyHost 8))
      rewatch).map (fun conn =>
        ((eventsOf "cdx" conn.enqueued).map fun entry => (entry.1, entry.2.eventSeq),
          (handed conn.store 0).map Event.eventSeq)) = some ([(1, 1), (1, 2)], [1]) := by
    decide +kernel
  obtain ⟨conn, reached, shown⟩ := map_eq_some_iff.mp ran
  obtain ⟨events, first⟩ := Prod.mk.inj shown
  exact ⟨conn, reached, events, first, watches_in_order _ _ (emptyHost_start 8) rewatch
    conn reached⟩

end CodexRemote.Forwarding
