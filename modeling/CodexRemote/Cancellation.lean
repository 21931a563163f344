import CodexRemote.Closing

/-!
# The end of the write loop

Closing does not block its caller as long as closings do not meet. Two that meet do: the second
waits at the guard while the first runs its body, and there `shutdown` closes the socket, which
waits for the peer; and a `shutdown` waits for the mutex of the watches while a handler or
forwarder has it.

The write loop leaves a cancelled context behind as long as no `protocolClose` stands between a
failed write and the cancellation. `protocolClose` uses up the guard it shares with `shutdown`, so
a write that fails behind it ends the write loop with the context alive.
-/
namespace CodexRemote.Connections

open Function List Option Connection

variable {connection next : Connection sendQueueSize} {sendQueueSize : Nat} {caller : Caller}

/-- The closing is under way. -/
def Closing.active : Closing → Bool
  | .stopped => false
  | _ => true

/-- The closing is a `shutdown` that has yet to take the mutex. -/
def Closing.unlocked : Closing → Bool
  | .stopping | .cancelling | .handshaking | .locking => true
  | .asking _ | .sending _ | .unlocking | .stopped => false

/-- Nobody closes the connection, or has come back from it. -/
def Connection.Settled (connection : Connection sendQueueSize) : Prop :=
  ∀ caller closing, connection.closing caller = some closing → closing.active = false

/-- At most one closing is under way, and the mutex is free for it. -/
structure Alone (connection : Connection sendQueueSize) : Prop where
  one : ∀ first second stage other, connection.closing first = some stage →
    stage.active = true → connection.closing second = some other → other.active = true →
    first = second
  free : ∀ caller stage, connection.closing caller = some stage → stage.unlocked = true →
    connection.lock = none

/-- A step that moves no closing. -/
theorem Alone.kept (alone : Alone connection) (closing : next.closing = connection.closing)
    (lock : next.lock = connection.lock ∨ next.lock = none) : Alone next := by
  constructor
  · rw [closing]
    exact alone.one
  · rw [closing]
    intro caller stage found unlocked
    rcases lock with same | none
    · exact same.trans (alone.free caller stage found unlocked)
    · exact none

/-- A `protocolClose` has used up the guard or runs its body. -/
def Connection.asked (connection : Connection sendQueueSize) : Bool :=
  match connection.once with
  | .unused | .done .shutdown => false
  | .done .protocolClose => true
  | .running caller => (connection.closing caller).any Closing.asks

/-- No write fails behind a `protocolClose`, and none enters the guard between a failed write
and the `shutdown` of the write loop. -/
def Undisturbed (connection : Connection sendQueueSize) : Label → Prop
  | .wrote succeeded => succeeded = true ∨ connection.asked = false
  | .advance caller =>
      connection.once = .unused → connection.closing .writer = some .stopping →
        (connection.closing caller).any Closing.asks = false
  | _ => True

instance (connection : Connection sendQueueSize) (label : Label) :
    Decidable (Undisturbed connection label) :=
  match label with
  | .wrote _ => inferInstanceAs (Decidable (_ ∨ _))
  | .advance _ => inferInstanceAs (Decidable (_ → _ → _))
  | .protocolClose _ _ _ | .enqueue _ _ | .readEnds | .acquire _ | .release _ | .poll
  | .select _ | .encode _ | .formalClose _ | .part | .cut | .leave => isTrue trivial

/-- The closing is a `shutdown` that is through with the guard. -/
def Closing.past : Closing → Bool
  | .locking | .unlocking | .stopped => true
  | .asking _ | .sending _ | .stopping | .cancelling | .handshaking => false

structure Cut (connection : Connection sendQueueSize) : Prop where
  shut : connection.once = .done .shutdown → connection.cancelled = true
  handshake : ∀ caller, connection.closing caller = some .handshaking →
    connection.cancelled = true
  /-- The guard is open to the write loop, or a `shutdown` has it. -/
  stop : connection.closing .writer = some .stopping → connection.asked = false
  past : ∀ closing, connection.closing .writer = some closing → closing.past = true →
    connection.cancelled = true
  returned : connection.writer = .returned → connection.cancelled = true

/-- A step that moves no closing and leaves the guard alone. -/
theorem Cut.kept (cut : Cut connection) (closing : next.closing = connection.closing)
    (once : next.once = connection.once)
    (cancelled : connection.cancelled = true → next.cancelled = true)
    (returned : next.writer = .returned → next.cancelled = true) : Cut next := by
  constructor
  · rw [once]
    exact fun done => cancelled (cut.shut done)
  · rw [closing]
    exact fun caller found => cancelled (cut.handshake caller found)
  · unfold asked
    rw [closing, once]
    exact cut.stop
  · rw [closing]
    exact fun stage found past => cancelled (cut.past stage found past)
  · exact returned

/-- A step of one closing. What it does to the guard is a matter of each step. -/
theorem Cut.closing (cut : Cut connection) (caller : Caller) (after : Option Closing)
    (moved : next.closing = update connection.closing caller after)
    (cancelled : connection.cancelled = true → next.cancelled = true)
    (writer : next.writer = .returned → connection.writer = .returned)
    (shut : next.once = .done .shutdown → next.cancelled = true)
    (handshake : after = some .handshaking → next.cancelled = true)
    (stop : next.closing .writer = some .stopping → next.asked = false)
    (past : ∀ closing, caller = .writer → after = some closing → closing.past = true →
      next.cancelled = true) : Cut next := by
  constructor
  · exact shut
  · intro other found
    by_cases same : other = caller
    · rw [same, moved, update_self] at found
      exact handshake found
    · rw [moved, update_of_ne same] at found
      exact cancelled (cut.handshake other found)
  · exact stop
  · intro closing found gone
    by_cases same : Caller.writer = caller
    · rw [same, moved, update_self] at found
      exact past closing same.symm found gone
    · rw [moved, update_of_ne same] at found
      exact cancelled (cut.past closing found gone)
  · exact fun ended => cancelled (cut.returned (writer ended))

/-- A closing that stays outside the guard's body does not change who has the guard. -/
theorem asked_outside {after : Option Closing} (sound : Sound connection)
    (left : ∀ closing, connection.closing caller = some closing → closing.inside = false)
    (moved : next.closing = update connection.closing caller after)
    (guard : next.once = connection.once) : next.asked = connection.asked := by
  unfold asked
  rw [guard]
  cases once : connection.once with
  | unused => rfl
  | done routine => cases routine <;> rfl
  | running runner =>
    have different : runner ≠ caller := by
      rintro rfl
      obtain ⟨closing, found, inside⟩ := (sound.guarded runner).mp once
      rw [left closing found] at inside
      cases inside
    simp only [moved, update_of_ne different]

section

variable (cut : Cut connection) (sound : Sound connection)
include cut sound

/-- A closing that comes, or goes on, outside the guard's body. -/
theorem Cut.outside (caller : Caller) (after : Option Closing)
    (left : ∀ closing, connection.closing caller = some closing → closing.inside = false)
    (moved : next.closing = update connection.closing caller after)
    (start : after ≠ some .handshaking)
    (stop : caller = .writer → after = some .stopping → connection.asked = false)
    (past : ∀ closing, caller = .writer → after = some closing → closing.past = true →
      connection.cancelled = true)
    (frame : next.once = connection.once ∧ next.cancelled = connection.cancelled ∧
      (next.writer = .returned → connection.writer = .returned)) : Cut next := by
  obtain ⟨once, cancelled, writer⟩ := frame
  refine cut.closing caller after moved ?_ writer ?_ ?_ ?_ ?_
  · rw [cancelled]
    exact id
  · rw [once, cancelled]
    exact cut.shut
  · exact fun handshaking => absurd handshaking start
  · intro stopping
    rw [asked_outside sound left moved once]
    by_cases same : Caller.writer = caller
    · rw [same, moved, update_self] at stopping
      exact stop same.symm stopping
    · rw [moved, update_of_ne same] at stopping
      exact cut.stop stopping
  · rw [cancelled]
    exact past

/-- A closing that begins in a goroutine other than the write loop. -/
theorem Cut.begin (caller : Caller)
    (closing : Closing) (free : connection.closing caller = none) (other : caller ≠ .writer)
    (start : closing ≠ .handshaking) : Cut (connection.at caller (some closing)) :=
  cut.outside sound caller (some closing) (by rw [free]; exact nofun) rfl (by simpa using start)
    (fun writer => absurd writer other) (fun _ writer => absurd writer other) ⟨rfl, rfl, id⟩

end

/-- The Close frames among those given to the socket. -/
def Connection.closes (connection : Connection sendQueueSize) : List Frame :=
  connection.written.filter Frame.isClose

/-- A Close frame is the last frame and so the only one. -/
structure Orderly (connection : Connection sendQueueSize) : Prop where
  single : connection.closes.length ≤ 1
  last : ∀ before close after, connection.written = before ++ .close close :: after → after = []

/-- No frame before the Close frame is one: it would be followed by the Close frame. -/
theorem Sound.single (sound : Sound connection) : connection.closes.length ≤ 1 := by
  unfold closes
  rcases eq_nil_or_concat connection.written with empty | ⟨before, final, split⟩
  · rw [empty]
    exact Nat.zero_le 1
  have others : before.filter Frame.isClose = [] := by
    rw [filter_eq_nil_iff]
    intro frame member closes
    cases frame with
    | other content => cases closes
    | close close =>
      obtain ⟨first, rest, rfl⟩ := append_of_mem member
      have nothing := sound.last first close (rest ++ [final])
        (by rw [split, concat_eq_append, append_assoc, cons_append])
      simp at nothing
  rw [split, concat_eq_append, filter_append, others, nil_append]
  exact length_filter_le _ [final]

/-- The label begins a closing, or takes the mutex. -/
def Label.begins : Label → Bool
  | .protocolClose .. | .enqueue .. | .readEnds | .wrote false | .acquire _ => true
  | _ => false

end CodexRemote.Connections
