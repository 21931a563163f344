import CodexRemote.Library.BoundedQueue
import CodexRemote.Library.Runs
import Mathlib.Logic.Function.Basic

/-!
# Closing a connection

`writeLoop`, `writeOutbound`, `writeFormalClose`, `protocolClose` and `shutdown` of
`internal/gateway/server.go`. Only the write loop writes frames. Every other goroutine closes
the connection by `protocolClose`, which puts a Close frame into the control channel of one
slot; the end of the read loop and a failed write close it by `shutdown`. Both run their body
under the same `closeOnce`, so only one of the two ever does anything. The write loop also
closes directly, when a frame cannot be encoded or is too large.

A goroutine is in at most one closing at a time, and the closing is cut at the once-guard, at
its channel operation and at the mutex of the watches. A handler or forwarder may close while
it holds that mutex. `written` is every frame that was given to the socket, whether or not the
write succeeded.
-/
namespace CodexRemote.Connections

open Function List Option

inductive CloseCode where
  | frameTooLarge
  | invalidFrame
  | helloRequired
  | protocolVersionUnsupported
  | slowConsumer
  | connectionTimeout
  | internalProtocolError
  deriving DecidableEq

/-- The application Close frame. -/
structure Close where
  code : CloseCode
  message : String
  reconnectAllowed : Bool := code = .connectionTimeout ∨ code = .slowConsumer
  deriving DecidableEq

/-- A frame on the wire. -/
inductive Frame where
  | close (close : Close)
  | other (content : Nat)
  deriving DecidableEq

/-- What the write loop is given: only a Close frame comes with a status to close with. -/
inductive Outbound where
  | close (close : Close) (status : Nat)
  | data (content : Nat)
  deriving DecidableEq

def Outbound.frame : Outbound → Frame
  | .close frame _ => .close frame
  | .data content => .other content

/-- The goroutines of a connection; tasks are request handlers and forwarders. -/
inductive Caller where
  | reader
  | writer
  | heartbeat
  | task (number : Nat)
  deriving DecidableEq

/-- Where a closing is. `protocolClose` comes to the guard and then sends inside it. `shutdown`
comes to the guard, cancels and closes the socket inside it, and then takes the mutex of the
watches. -/
inductive Closing where
  | asking (out : Outbound)
  | sending (out : Outbound)
  | stopping
  | cancelling
  | handshaking
  | locking
  | unlocking
  | stopped
  deriving DecidableEq

inductive Routine where
  | protocolClose
  | shutdown
  deriving DecidableEq

/-- `closeOnce`. Whoever comes while its body runs waits for the end of it. -/
inductive Once where
  | unused
  | running (caller : Caller)
  | done (routine : Routine)
  deriving DecidableEq

/-- Where the write loop is. -/
inductive Writer where
  | polling
  | selecting
  | encoding (out : Outbound)
  | writing (out : Outbound)
  | formal (close : Close) (status : Nat)
  | parting
  | cutting
  | shutting
  | returned
  deriving DecidableEq

structure Connection (sendQueueSize : Nat) where
  closing : Caller → Option Closing := fun _ => none
  once : Once := .unused
  control : BoundedQueue Outbound 1 := .empty
  send : BoundedQueue Nat sendQueueSize := .empty
  /-- The context of the connection is cancelled. -/
  cancelled : Bool := false
  /-- `ws.Close` was called. -/
  closed : Bool := false
  /-- `watchesMu` -/
  lock : Option Caller := none
  writer : Writer := .polling
  written : List Frame := []

inductive Choice where
  | control
  | send
  | cancelled
  deriving DecidableEq

inductive Encoded where
  | failed
  | tooLarge
  | fits
  deriving DecidableEq

inductive Label where
  | protocolClose (caller : Caller) (close : Close) (status : Nat)
  | enqueue (caller : Caller) (content : Nat)
  | readEnds
  | acquire (number : Nat)
  | release (number : Nat)
  | advance (caller : Caller)
  | poll
  | select (choice : Choice)
  | encode (result : Encoded)
  | wrote (succeeded : Bool)
  | formalClose (marshalled : Bool)
  | part
  | cut
  | leave
  deriving DecidableEq

variable {sendQueueSize : Nat}

def Connection.at (connection : Connection sendQueueSize) (caller : Caller)
    (closing : Option Closing) : Connection sendQueueSize :=
  { connection with closing := update connection.closing caller closing }

/-- The next step of a closing; none where it has to wait. -/
def Connection.advance (connection : Connection sendQueueSize) (caller : Caller) :
    Option (Connection sendQueueSize) :=
  match connection.closing caller with
  | some (.asking out) =>
      match connection.once with
      | .unused => some ({ connection with once := .running caller }.at caller
          (some (.sending out)))
      | .running _ => none
      | .done _ => some (connection.at caller none)
  | some (.sending out) =>
      (connection.control.push out).map fun control =>
        { connection with control := control, once := .done .protocolClose }.at caller none
  | some .stopping =>
      match connection.once with
      | .unused => some ({ connection with once := .running caller }.at caller
          (some .cancelling))
      | .running _ => none
      | .done _ => some (connection.at caller (some .locking))
  | some .cancelling => some ({ connection with cancelled := true }.at caller
      (some .handshaking))
  | some .handshaking =>
      some ({ connection with closed := true, once := .done .shutdown }.at caller
        (some .locking))
  | some .locking =>
      match connection.lock with
      | none => some ({ connection with lock := some caller }.at caller (some .unlocking))
      | some _ => none
  | some .unlocking => some ({ connection with lock := none }.at caller (some .stopped))
  | some .stopped | none => none

/-- `writeLoop` with `writeOutbound` and `writeFormalClose`. -/
def Connection.write (connection : Connection sendQueueSize) :
    Label → Option (Connection sendQueueSize)
  | .poll =>
      match connection.writer, connection.control.pop with
      | .polling, some (out, control) =>
          some { connection with control := control, writer := .encoding out }
      | .polling, none => some { connection with writer := .selecting }
      | _, _ => none
  | .select .control =>
      match connection.writer, connection.control.pop with
      | .selecting, some (out, control) =>
          some { connection with control := control, writer := .encoding out }
      | _, _ => none
  | .select .send =>
      match connection.writer, connection.send.pop with
      | .selecting, some (content, send) =>
          some { connection with send := send, writer := .encoding (.data content) }
      | _, _ => none
  | .select .cancelled =>
      match connection.writer, connection.cancelled with
      | .selecting, true => some { connection with writer := .returned }
      | _, _ => none
  | .encode result =>
      match connection.writer, result with
      | .encoding _, .failed =>
          some { connection with
                 writer := .formal { code := .internalProtocolError
                                     message := "outbound frame encoding failed" } 1011 }
      | .encoding _, .tooLarge =>
          some { connection with
                 writer := .formal { code := .frameTooLarge
                                     message := "outbound frame exceeds limit" } 1009 }
      | .encoding out, .fits => some { connection with writer := .writing out }
      | _, _ => none
  | .wrote succeeded =>
      match connection.writer, succeeded with
      | .writing out, false =>
          some ({ connection with
                  written := connection.written ++ [out.frame], writer := .shutting }.at .writer
                    (some .stopping))
      | .writing (.close close _), true =>
          some { connection with
                 written := connection.written ++ [.close close], writer := .parting }
      | .writing (.data content), true =>
          some { connection with
                 written := connection.written ++ [.other content], writer := .polling }
      | _, _ => none
  | .formalClose marshalled =>
      match connection.writer with
      | .formal close _ =>
          some { connection with
                 written := if marshalled then connection.written ++ [.close close]
                   else connection.written
                 writer := .parting }
      | _ => none
  | .part =>
      match connection.writer with
      | .parting => some { connection with closed := true, writer := .cutting }
      | _ => none
  | .cut =>
      match connection.writer with
      | .cutting => some { connection with cancelled := true, writer := .returned }
      | _ => none
  | .leave =>
      match connection.writer, connection.closing .writer with
      | .shutting, some .stopped => some { connection with writer := .returned }
      | _, _ => none
  | _ => none

def step (connection : Connection sendQueueSize) : Label → Option (Connection sendQueueSize)
  | .protocolClose caller close status =>
      if caller ≠ .writer ∧ connection.closing caller = none then
        some (connection.at caller (some (.asking (.close close status))))
      else none
  | .enqueue caller content =>
      if caller ≠ .writer ∧ connection.closing caller = none then
        match connection.send.push content with
        | some send => some { connection with send := send }
        | none =>
            some (connection.at caller (some (.asking (.close
              { code := .slowConsumer, message := "bounded send queue is full" } 4001))))
      else none
  | .readEnds =>
      if connection.closing .reader = none then some (connection.at .reader (some .stopping))
      else none
  | .acquire number =>
      if connection.lock = none ∧ connection.closing (.task number) = none then
        some { connection with lock := some (.task number) }
      else none
  | .release number =>
      if connection.lock = some (.task number) ∧ connection.closing (.task number) = none then
        some { connection with lock := none }
      else none
  | .advance caller => connection.advance caller
  | label => connection.write label

/-! ## What always holds -/

/-- The closing runs the body of the guard. -/
def Closing.inside : Closing → Bool
  | .sending _ | .cancelling | .handshaking => true
  | .asking _ | .stopping | .locking | .unlocking | .stopped => false

/-- The closing is a `protocolClose`. -/
def Closing.asks : Closing → Bool
  | .asking _ | .sending _ => true
  | .stopping | .cancelling | .handshaking | .locking | .unlocking | .stopped => false

/-- The write loop may still write a frame. -/
def Writer.early : Writer → Bool
  | .polling | .selecting | .encoding _ | .writing _ | .formal _ _ => true
  | .parting | .cutting | .shutting | .returned => false

def Frame.isClose : Frame → Bool
  | .close _ => true
  | .other _ => false

structure Sound (connection : Connection sendQueueSize) : Prop where
  /-- Who runs the guard's body is inside it, and who is inside it runs it. -/
  guarded : ∀ caller, connection.once = .running caller ↔
    ∃ closing, connection.closing caller = some closing ∧ closing.inside = true
  /-- Before the body has run, the control channel is empty. -/
  vacant : (∀ routine, connection.once ≠ .done routine) → connection.control.items = []
  /-- Handlers and forwarders close by `protocolClose` only. -/
  tasks : ∀ number closing, connection.closing (.task number) = some closing →
    closing.asks = true
  /-- The mutex is held by a handler or forwarder, or by a `shutdown` that gives it back. -/
  locked : ∀ caller, connection.lock = some caller →
    connection.closing caller = some .unlocking ∨ ∃ number, caller = .task number
  /-- The write loop closes only after its last frame. -/
  idle : connection.writer.early = true → connection.closing .writer = none
  open_ : connection.writer.early = true → ∀ frame ∈ connection.written, frame.isClose = false
  last : ∀ before close after, connection.written = before ++ .close close :: after → after = []

open Connection

/-- An item taken from the control channel leaves an empty channel empty: there was none. -/
theorem popped_control {control : BoundedQueue Outbound 1}
    (popped : control.pop = some (out, rest)) : control.items = [] → rest.items = [] := by
  rw [BoundedQueue.pop_items popped]
  exact nofun

section

variable {connection next : Connection sendQueueSize} (sound : Sound connection)
include sound

section

variable (caller : Caller)
include caller

/-- A step of one closing that leaves the write loop alone. -/
theorem Sound.closing (after : Option Closing)
    (moved : next.closing = update connection.closing caller after)
    (mine : next.once = .running caller ↔ ∃ closing, after = some closing ∧ closing.inside = true)
    (theirs : ∀ other, other ≠ caller →
      (next.once = .running other ↔ connection.once = .running other))
    (vacant : (∀ routine, next.once ≠ .done routine) → next.control.items = [])
    (tasks : ∀ number closing, caller = .task number → after = some closing → closing.asks = true)
    (held : next.lock = some caller → after = some .unlocking ∨ ∃ number, caller = .task number)
    (kept : ∀ other, other ≠ caller → next.lock = some other → connection.lock = some other)
    (idle : caller = .writer → connection.writer.early = false)
    (frame : next.writer = connection.writer ∧ next.written = connection.written) : Sound next := by
  obtain ⟨writer, written⟩ := frame
  have self : next.closing caller = after := by rw [moved, update_self]
  have others : ∀ other, other ≠ caller → next.closing other = connection.closing other :=
    fun other different => by rw [moved, update_of_ne different]
  constructor
  · intro other
    by_cases same : other = caller
    · rw [same, self]
      exact mine
    · rw [others other same, theirs other same]
      exact sound.guarded other
  · exact vacant
  · intro number closing found
    by_cases same : Caller.task number = caller
    · rw [same, self] at found
      exact tasks number closing same.symm found
    · rw [others _ same] at found
      exact sound.tasks number closing found
  · intro other holds
    by_cases same : other = caller
    · subst same
      rw [self]
      exact held holds
    · rw [others other same]
      exact sound.locked other (kept other same holds)
  · intro early
    rw [writer] at early
    have different : Caller.writer ≠ caller := by
      rintro rfl
      exact Bool.false_ne_true ((idle rfl).symm.trans early)
    rw [others _ different]
    exact sound.idle early
  · intro early
    rw [writer] at early
    rw [written]
    exact sound.open_ early
  · rw [written]
    exact sound.last

/-- The mutex held by a goroutine that is not about to give it back is held by a handler or
forwarder. -/
theorem Sound.held (before : Option Closing) (found : connection.closing caller = before)
    (elsewhere : before ≠ some .unlocking) (holds : connection.lock = some caller) :
    ∃ number, caller = .task number := by
  rcases sound.locked caller holds with unlocking | task
  · exact absurd (found.symm.trans unlocking) elsewhere
  · exact task

/-- A write loop that closes has written its last frame. -/
theorem Sound.late (closing : Closing) (found : connection.closing caller = some closing)
    (writer : caller = .writer) : connection.writer.early = false := by
  by_contra early
  have absent := sound.idle (by simpa using early)
  rw [← writer, found] at absent
  cases absent

/-- A closing that comes, or goes on, outside the guard's body. -/
theorem Sound.outside (before after : Option Closing) (found : connection.closing caller = before)
    (moved : next.closing = update connection.closing caller after)
    (elsewhere : before ≠ some .unlocking)
    (left : ∀ closing, before = some closing → closing.inside = false)
    (entered : ∀ closing, after = some closing → closing.inside = false)
    (tasks : ∀ number closing, caller = .task number → after = some closing → closing.asks = true)
    (idle : caller = .writer → connection.writer.early = false)
    (frame : next.once = connection.once ∧ next.control = connection.control ∧
      next.lock = connection.lock ∧ next.writer = connection.writer ∧
      next.written = connection.written) : Sound next := by
  obtain ⟨once, control, lock, rest⟩ := frame
  refine sound.closing caller after moved ?_ ?_ ?_ tasks ?_ ?_ idle rest
  · rw [once]
    constructor
    · intro running
      obtain ⟨closing, here, inside⟩ := (sound.guarded caller).mp running
      rw [left closing (found.symm.trans here)] at inside
      cases inside
    · rintro ⟨closing, here, inside⟩
      rw [entered closing here] at inside
      cases inside
  · intro other _
    rw [once]
  · rw [once, control]
    exact sound.vacant
  · intro holds
    rw [lock] at holds
    exact .inr (sound.held caller before found elsewhere holds)
  · intro other _ holds
    rwa [lock] at holds

/-- A closing that goes into the guard's body: nobody has run it yet. -/
theorem Sound.enter (before after : Closing) (found : connection.closing caller = some before)
    (elsewhere : before ≠ .unlocking) (unused : connection.once = .unused)
    (inside : after.inside = true) (asks : before.asks = after.asks) :
    Sound ({ connection with once := .running caller }.at caller (some after)) := by
  refine sound.closing caller (some after) rfl ?_ ?_ ?_ ?_ ?_ ?_ ?_ ⟨rfl, rfl⟩
  · exact ⟨fun _ => ⟨after, rfl, inside⟩, fun _ => rfl⟩
  · intro other different
    rw [unused]
    constructor
    · rintro ⟨⟩
      exact absurd rfl different
    · rintro ⟨⟩
  · intro _
    apply sound.vacant
    intro routine done
    rw [unused] at done
    cases done
  · rintro number closing rfl ⟨⟩
    rw [← asks]
    exact sound.tasks number before found
  · intro holds
    exact .inr (sound.held caller (some before) found (by simpa using elsewhere) holds)
  · intro other _ holds
    exact holds
  · exact sound.late caller before found

/-- A closing that has run the guard's body. -/
theorem Sound.exit (before : Closing) (after : Option Closing)
    (found : connection.closing caller = some before) (inside : before.inside = true)
    (moved : next.closing = update connection.closing caller after)
    (finished : ∃ routine, next.once = .done routine)
    (entered : ∀ closing, after = some closing → closing.inside = false)
    (tasks : ∀ number closing, caller = .task number → after = some closing → closing.asks = true)
    (frame : next.lock = connection.lock ∧ next.writer = connection.writer ∧
      next.written = connection.written) : Sound next := by
  obtain ⟨routine, once⟩ := finished
  obtain ⟨lock, rest⟩ := frame
  have running : connection.once = .running caller :=
    (sound.guarded caller).mpr ⟨before, found, inside⟩
  refine sound.closing caller after moved ?_ ?_ ?_ tasks ?_ ?_ ?_ rest
  · rw [once]
    constructor
    · rintro ⟨⟩
    · rintro ⟨closing, here, again⟩
      rw [entered closing here] at again
      cases again
  · intro other different
    rw [once, running]
    constructor
    · rintro ⟨⟩
    · rintro ⟨⟩
      exact absurd rfl different
  · intro unfinished
    exact absurd once (unfinished routine)
  · intro holds
    rw [lock] at holds
    refine .inr (sound.held caller (some before) found ?_ holds)
    rintro ⟨⟩
    cases inside
  · intro other _ holds
    rwa [lock] at holds
  · exact sound.late caller before found

end

/-- One step of a closing. -/
theorem advance_sound (advanced : connection.advance caller = some next) :
    Sound next := by
  have idle : ∀ {before}, connection.closing caller = some before → before.inside = false →
      connection.once ≠ .running caller := by
    intro before found outside running
    obtain ⟨closing, here, inside⟩ := (sound.guarded caller).mp running
    cases found.symm.trans here
    exact absurd inside (by simp [outside])
  -- only a `shutdown` does not ask, and no task runs one
  have untasked : ∀ {before}, connection.closing caller = some before → before.asks = false →
      ∀ {after : Option Closing} number closing, caller = .task number → after = some closing →
        closing.asks = true := by
    rintro before found shuts after number closing rfl
    exact absurd (sound.tasks number _ found) (by simp [shuts])
  unfold advance at advanced
  split at advanced
  case h_1 out found =>
    split at advanced <;> cases advanced
    case h_1.refl unused =>
      exact sound.enter caller _ _ found (by simp) unused rfl rfl
    case h_3.refl =>
      exact sound.outside caller _ none found rfl (by simp) (by rintro _ ⟨⟩; rfl) nofun nofun
        (sound.late caller _ found) ⟨rfl, rfl, rfl, rfl, rfl⟩
  case h_2 out found =>
    obtain ⟨control, -, rfl⟩ := map_eq_some_iff.mp advanced
    exact sound.exit caller _ none found rfl rfl ⟨_, rfl⟩ nofun nofun ⟨rfl, rfl, rfl⟩
  case h_3 found =>
    split at advanced <;> cases advanced
    case h_1.refl unused =>
      exact sound.enter caller _ _ found (by simp) unused rfl rfl
    case h_3.refl =>
      exact sound.outside caller _ _ found rfl (by simp) (by rintro _ ⟨⟩; rfl)
        (by rintro _ ⟨⟩; rfl) (untasked found rfl)
        (sound.late caller _ found) ⟨rfl, rfl, rfl, rfl, rfl⟩
  case h_4 found =>
    cases advanced
    have running : connection.once = .running caller := (sound.guarded caller).mpr ⟨_, found, rfl⟩
    refine sound.closing caller _ rfl ⟨fun _ => ⟨_, rfl, rfl⟩, fun _ => running⟩
      (fun _ _ => Iff.rfl) sound.vacant ?_ ?_ (fun _ _ holds => holds)
      (sound.late caller _ found) ⟨rfl, rfl⟩
    · exact untasked found rfl
    · intro holds
      exact .inr (sound.held caller _ found (by simp) holds)
  case h_5 found =>
    cases advanced
    refine sound.exit caller _ _ found rfl rfl ⟨_, rfl⟩ (by rintro _ ⟨⟩; rfl)
      (untasked found rfl) ⟨rfl, rfl, rfl⟩
  case h_6 found =>
    split at advanced <;> cases advanced
    refine sound.closing caller _ rfl ⟨fun running => absurd running (idle found rfl), ?_⟩
      (fun _ _ => Iff.rfl) sound.vacant ?_ (fun _ => .inl rfl) ?_
      (sound.late caller _ found) ⟨rfl, rfl⟩
    · rintro ⟨_, ⟨⟩, inside⟩
      cases inside
    · exact untasked found rfl
    · rintro other different ⟨⟩
      exact absurd rfl different
  case h_7 found =>
    cases advanced
    refine sound.closing caller _ rfl ⟨fun running => absurd running (idle found rfl), ?_⟩
      (fun _ _ => Iff.rfl) sound.vacant ?_ nofun nofun (sound.late caller _ found) ⟨rfl, rfl⟩
    · rintro ⟨_, ⟨⟩, inside⟩
      cases inside
    · exact untasked found rfl
  case h_8 | h_9 => cases advanced

/-- A step of the write loop that closes nothing: it takes from a channel or writes a frame. -/
theorem Sound.write (early : connection.writer.early = true)
    (closing : next.closing = connection.closing) (once : next.once = connection.once)
    (lock : next.lock = connection.lock)
    (control : connection.control.items = [] → next.control.items = [])
    (written : next.written = connection.written ∨
      ∃ frame, next.written = connection.written ++ [frame] ∧
        (next.writer.early = true → frame.isClose = false)) : Sound next := by
  constructor
  · rw [closing, once]
    exact sound.guarded
  · rw [once]
    exact fun unfinished => control (sound.vacant unfinished)
  · rw [closing]
    exact sound.tasks
  · rw [closing, lock]
    exact sound.locked
  · rw [closing]
    exact fun _ => sound.idle early
  · intro still frame member
    rcases written with same | ⟨last, more, opened⟩
    · rw [same] at member
      exact sound.open_ early frame member
    rw [more, mem_append, mem_singleton] at member
    rcases member with older | rfl
    · exact sound.open_ early frame older
    · exact opened still
  · intro before close after split
    have none_before : ∀ frame ∈ connection.written, frame.isClose = false := sound.open_ early
    rcases written with same | ⟨last, more, -⟩
    · have member : Frame.close close ∈ connection.written := by
        rw [← same, split]
        simp
      cases none_before _ member
    · rw [more] at split
      rcases eq_nil_or_concat after with rfl | ⟨rest, final, rfl⟩
      · rfl
      -- a later frame would put the Close frame among those written before
      rw [concat_eq_append, ← cons_append, ← append_assoc] at split
      have member : Frame.close close ∈ connection.written := by
        rw [(append_inj' split rfl).1]
        simp
      cases none_before _ member

/-- One step of the write loop. -/
theorem write_sound (taken : connection.write label = some next) : Sound next := by
  cases label with
  | poll =>
    simp only [write] at taken
    split at taken <;> cases taken
    case h_1.refl polling popped =>
      exact sound.write (by rw [polling]; rfl) rfl rfl rfl (popped_control popped) (.inl rfl)
    case h_2.refl polling _ =>
      exact sound.write (by rw [polling]; rfl) rfl rfl rfl id (.inl rfl)
  | select choice =>
    cases choice with
    | control =>
      simp only [write] at taken
      split at taken <;> cases taken
      rename_i selecting popped
      exact sound.write (by rw [selecting]; rfl) rfl rfl rfl (popped_control popped) (.inl rfl)
    | send =>
      simp only [write] at taken
      split at taken <;> cases taken
      rename_i selecting _
      exact sound.write (by rw [selecting]; rfl) rfl rfl rfl id (.inl rfl)
    | cancelled =>
      simp only [write] at taken
      split at taken <;> cases taken
      exact { sound with idle := nofun, open_ := nofun }
  | encode result =>
    simp only [write] at taken
    split at taken <;> cases taken
    all_goals
      rename_i encoding
      exact sound.write (by rw [encoding]; rfl) rfl rfl rfl id (.inl rfl)
  | wrote succeeded =>
    simp only [write] at taken
    split at taken <;> cases taken
    case h_1.refl out writing =>
      have early : connection.writer.early = true := by rw [writing]; rfl
      have gone : Sound { connection with
          written := connection.written ++ [out.frame], writer := .shutting } :=
        sound.write early rfl rfl rfl id (.inr ⟨out.frame, rfl, nofun⟩)
      exact gone.outside .writer none (some .stopping) (sound.idle early) rfl nofun nofun
        (by rintro _ ⟨⟩; rfl) nofun (fun _ => rfl) ⟨rfl, rfl, rfl, rfl, rfl⟩
    case h_2.refl writing | h_3.refl writing =>
      exact sound.write (by rw [writing]; rfl) rfl rfl rfl id
        (.inr ⟨_, rfl, by simp [Writer.early, Frame.isClose]⟩)
  | formalClose marshalled =>
    simp only [write] at taken
    split at taken <;> cases taken
    rename_i close _ formal
    refine sound.write (by rw [formal]; rfl) rfl rfl rfl id ?_
    cases marshalled with
    | false => exact .inl rfl
    | true => exact .inr ⟨.close close, rfl, nofun⟩
  | part | cut | leave =>
    simp only [write] at taken
    split at taken <;> cases taken
    exact { sound with idle := nofun, open_ := nofun }
  | protocolClose | enqueue | readEnds | acquire | release | advance => cases taken

/-- A closing that begins. -/
theorem Sound.begin (caller : Caller) (closing : Closing) (free : connection.closing caller = none)
    (other : caller ≠ .writer) (entered : closing.inside = false)
    (tasks : ∀ number, caller = .task number → closing.asks = true) :
    Sound (connection.at caller (some closing)) := by
  refine sound.outside caller none (some closing) free rfl nofun nofun ?_ ?_ ?_
    ⟨rfl, rfl, rfl, rfl, rfl⟩
  · rintro _ ⟨⟩
    exact entered
  · rintro number _ task ⟨⟩
    exact tasks number task
  · exact fun writer => absurd writer other

end

theorem step_sound (connection : Connection sendQueueSize) (label : Label)
    (next : Connection sendQueueSize) (sound : Sound connection)
    (taken : step connection label = some next) : Sound next := by
  cases label with
  | protocolClose caller close status =>
    simp only [step] at taken
    split at taken <;> cases taken
    rename_i free
    exact sound.begin caller _ free.2 free.1 rfl fun _ _ => rfl
  | enqueue caller content =>
    simp only [step] at taken
    split at taken
    case isTrue free =>
      split at taken <;> cases taken
      case h_1.refl =>
        exact { sound with }
      case h_2.refl =>
        exact sound.begin caller _ free.2 free.1 rfl fun _ _ => rfl
    case isFalse => cases taken
  | readEnds =>
    simp only [step] at taken
    split at taken <;> cases taken
    rename_i free
    exact sound.begin .reader _ free nofun rfl nofun
  | acquire number =>
    simp only [step] at taken
    split at taken <;> cases taken
    exact { sound with locked := by rintro _ ⟨⟩; exact .inr ⟨number, rfl⟩ }
  | release number =>
    simp only [step] at taken
    split at taken <;> cases taken
    exact { sound with locked := nofun }
  | advance caller => exact advance_sound sound taken
  | poll | select | encode | wrote | formalClose | part | cut | leave =>
    simp only [step] at taken
    exact write_sound sound taken

theorem start_sound : Sound ({} : Connection sendQueueSize) := by
  constructor
  · intro caller
    constructor
    · rintro ⟨⟩
    · rintro ⟨_, ⟨⟩, _⟩
  · exact fun _ => rfl
  · exact nofun
  · exact nofun
  · exact fun _ => rfl
  · exact fun _ => nofun
  · intro before close after split
    cases before <;> cases split

end CodexRemote.Connections
