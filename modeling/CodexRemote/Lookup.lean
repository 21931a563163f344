import CodexRemote.Announcements
import CodexRemote.Identities
import CodexRemote.Seats

/-!
# Finding a Codex, and not finding it again

`byThread` and `bySession` find a Codex by its thread and by its source and thread. They are kept
beside the registry by `saveCodex`, `registerRestored`, `replaceUnmaterializedRemoteCodex` and
`ForgetCodex`, each for its own entry, and nothing else writes them. That they agree with the
registry rests on the database: a registration that would overwrite the entry of another Codex
is refused by the uniqueness rule of `codexes`, if the thread has the same source, and threads
with two sources are assumed not to exist.

The key of `bySession` is the source and the thread with a zero byte between them. It determines
both only if the source has no zero byte itself.

The system is the one of `Announcements`, where an announcement behind a registration reads the
view in one step and commits it in another. A view that was read before the thread was replaced
and committed afterwards stores the old thread in the row of the new one, and the restore of an
unmanaged row goes by what is stored.

For a forgotten Codex nothing is assumed: no announcement, whenever its view was read, and no other
operation, however its storage calls end, brings the id back.
-/
namespace CodexRemote.Lookup

open Protocol Persistence Activity Budget Codexes Leases Function List Option Announcements
open Host hiding World Label step
open Option (map_eq_some_iff map_some)

variable {other source threadID codexID : String} {row : CodexRecord} {m : Manager} {label : Label}
  {now : Int} {storage : Storage} {view : CurrentView} {config : Config}
  {world next : Announcements.World}

/-! ## The property and its conditions -/

/-- Registry and lookup tables agree. -/
structure Agrees (m : Manager) : Prop where
  thread : ∀ codexID place, seat m codexID = some place →
    m.byThread place.threadID = some codexID
  session : ∀ codexID place, seat m codexID = some place →
    m.bySession (sessionKey place.source place.threadID) = some codexID
  threads : ∀ threadID codexID, m.byThread threadID = some codexID →
    ∃ place, seat m codexID = some place ∧ place.threadID = threadID
  sessions : ∀ key codexID, m.bySession key = some codexID →
    ∃ place, seat m codexID = some place ∧ sessionKey place.source place.threadID = key

/-- `UNIQUE(session_source, thread_id)` admits the row. -/
def Unique (m : Manager) (codexID source threadID : String) : Prop :=
  ∀ other row, m.events.disk.codexes other = some row → other ≠ codexID →
    ¬ ((rowSeat row).source = normalizeSessionSource source ∧ row.threadID = threadID)

/-- The thread is not known under another source. -/
def OneSource (m : Manager) (source threadID : String) : Prop :=
  ∀ other row, m.events.disk.codexes other = some row → row.threadID = threadID →
    (rowSeat row).source = normalizeSessionSource source

/-- The source and thread that an operation gives to a Codex, if they are new to it. -/
def newSession (config : Config) (m : Manager) (label : Host.Label) :
    Option (String × String × String) :=
  match label.operation with
  | .restore codexID owner read _ =>
      (m.events.disk.codexes codexID).bind fun row =>
        (restorePlan config label.now row owner read label.storage.reads).bind fun plan =>
          plan.dropped.map fun _ => (codexID, plan.record.sessionSource, plan.record.threadID)
  | operation => operation.registers.map fun (codexID, session, _) =>
      (codexID, session.source, session.threadID)

/-- Storage succeeds: a restore stores what it registers, the outcome of a deletion and of a
workspace commit is known, and the uniqueness rule is kept by what is written. No thread has two
sources. -/
def Regular (config : Config) (world : Announcements.World) : Label → Prop
  | .host label =>
      (match label.operation with
        | .restore .. => label.storage.writes = true
        | .forget .. | .workspace .. => ∀ durable, label.storage.commit.outcome ≠ .unknown durable
        | _ => True) ∧
      (label.storage.writes = true → ∀ codexID source threadID,
        newSession config world.host.manager label = some (codexID, source, threadID) →
          Unique world.host.manager codexID source threadID ∧
            OneSource world.host.manager source threadID)
  | _ => True

/-- A source that can be told from the thread behind it. -/
def Plain (source : String) : Prop := '\x00' ∉ (normalizeSessionSource source).toList

instance (source : String) : Decidable (Plain source) := inferInstanceAs (Decidable (¬ _))

/-- New sources are plain, and an announcement that is committed shows the thread that the row
has by then. -/
def Careful (config : Config) (world : Announcements.World) : Label → Prop
  | .host label => ∀ codexID source threadID,
      newSession config world.host.manager label = some (codexID, source, threadID) → Plain source
  | .read .. => True
  | .commit announcement _ _ => ∀ row,
      world.host.manager.events.disk.codexes announcement.codex.codexId = some row →
        viewThread announcement.view = some row.threadID

/-! ## Session keys -/

theorem append_cons_inj (left : mark ∉ first) (right : mark ∉ second) {other : List Char}
    (same : first ++ mark :: rest = second ++ mark :: other) : first = second ∧ rest = other := by
  have lengths : first.length = second.length := by
    have places := congrArg (idxOf mark) same
    simpa [idxOf_append_of_notMem, left, right] using places
  obtain ⟨starts, ends⟩ := append_inj same lengths
  exact ⟨starts, (cons.inj ends).2⟩

/-- The key determines source and thread. -/
theorem sessionKey_inj (plain : Plain source) (also : Plain other)
    (same : sessionKey source threadID = sessionKey other thread) :
    normalizeSessionSource source = normalizeSessionSource other ∧ threadID = thread := by
  have lists := congrArg String.toList same
  simp only [sessionKey, String.toList_append] at lists
  have mark : "\x00".toList = ['\x00'] := by decide
  rw [mark, append_assoc, append_assoc, singleton_append, singleton_append]
    at lists
  obtain ⟨sources, threads⟩ := append_cons_inj plain also lists
  exact ⟨String.toList_inj.mp sources, String.toList_inj.mp threads⟩

/-! ## The rows -/

/-- No two rows have one thread, their sources are plain, and a stored view is of the row's own
thread; and a registered Codex has a row that says where it sits. -/
structure Rows (m : Manager) : Prop where
  distinct : ∀ codexID other row old, m.events.disk.codexes codexID = some row →
    m.events.disk.codexes other = some old → row.threadID = old.threadID → codexID = other
  plain : ∀ codexID row, m.events.disk.codexes codexID = some row → Plain row.sessionSource
  stored : ∀ codexID row threadID, m.events.disk.codexes codexID = some row →
    storedThread row = some threadID → threadID = row.threadID
  seated : ∀ codexID place, seat m codexID = some place →
    ∃ row, m.events.disk.codexes codexID = some row ∧ (rowSeat row).source = place.source ∧
      row.threadID = place.threadID

section Rows

variable {m n : Manager} {codexID : String} {place : Seat}

/-- The row has source and thread of the one before, and a stored view of this thread. -/
def Resembles (m : Manager) (codexID : String) (row : CodexRecord) : Prop :=
  ∃ old, m.events.disk.codexes codexID = some old ∧ (rowSeat row).source = (rowSeat old).source ∧
    row.threadID = old.threadID ∧
    ∀ threadID, storedThread row = some threadID → threadID = row.threadID

theorem Rows.resembles (rows : Rows m) (rowFrom : RowFrom m codexID row) :
    Resembles m codexID row := by
  have shown : ∀ threadID, threadIn m codexID = some threadID → ∀ old,
      m.events.disk.codexes codexID = some old → threadID = old.threadID := by
    intro threadID shown old present
    obtain ⟨again, found, -, thread⟩ := rows.seated codexID (seatAt m codexID threadID)
      (by rw [seat, shown, map_some])
    cases present.symm.trans found
    exact thread.symm
  rcases rowFrom with ⟨old, present, same, -, stored⟩ | ⟨sits, stored⟩
  · have thread : row.threadID = old.threadID := congrArg Seat.threadID same
    refine ⟨old, present, congrArg Seat.source same, thread, ?_⟩
    intro threadID found
    rw [thread]
    rcases stored with kept | published
    · exact rows.stored codexID old threadID present (kept ▸ found)
    · exact shown threadID (published ▸ found) old present
  · obtain ⟨old, present, source, thread⟩ := rows.seated codexID (rowSeat row) sits
    refine ⟨old, present, source.symm, thread.symm, ?_⟩
    intro threadID found
    have here := threadIn_of_seat sits
    exact some.inj (found.symm.trans (stored.trans here))

/-- A step that seats nobody, and keeps the row of whoever stays. -/
theorem Rows.stays (rows : Rows m)
    (seats : ∀ codexID place, seat n codexID = some place → seat m codexID = some place)
    (before : ∀ codexID row, n.events.disk.codexes codexID = some row → Resembles m codexID row)
    (kept : ∀ codexID place, seat n codexID = some place →
      ∃ row, n.events.disk.codexes codexID = some row) : Rows n := by
  constructor
  · intro codexID other row old present found same
    obtain ⟨first, was, -, thread, -⟩ := before codexID row present
    obtain ⟨second, stood, -, shown, -⟩ := before other old found
    exact rows.distinct codexID other first second was stood (by rw [← thread, ← shown, same])
  · intro codexID row present
    obtain ⟨first, was, source, -⟩ := before codexID row present
    have plain := rows.plain codexID first was
    unfold Plain at plain ⊢
    rw [show normalizeSessionSource row.sessionSource = _ from source]
    exact plain
  · intro codexID row threadID present found
    obtain ⟨-, -, -, -, stored⟩ := before codexID row present
    exact stored threadID found
  · intro codexID place sits
    obtain ⟨row, present⟩ := kept codexID place sits
    obtain ⟨first, was, source, thread, -⟩ := before codexID row present
    obtain ⟨again, found, named, shown⟩ := rows.seated codexID place (seats codexID place sits)
    cases was.symm.trans found
    exact ⟨row, present, source.trans named, thread.trans shown⟩

/-- A Codex that is seated on a thread of its own, and whose row is written. -/
theorem Rows.seats (rows : Rows m) (seated : Seated m n codexID place)
    (written : ∃ row, n.events.disk.codexes codexID = some row ∧ rowSeat row = place ∧
      storedThread row = some place.threadID)
    (free : ∀ other row, m.events.disk.codexes other = some row → other ≠ codexID →
      row.threadID ≠ place.threadID) (plain : '\x00' ∉ place.source.toList) : Rows n := by
  obtain ⟨own, found, columns, stored⟩ := written
  have thread : own.threadID = place.threadID := congrArg Seat.threadID columns
  have source : (rowSeat own).source = place.source := congrArg Seat.source columns
  have cases : ∀ other row, n.events.disk.codexes other = some row →
      other = codexID ∧ row = own ∨ other ≠ codexID ∧ m.events.disk.codexes other = some row := by
    intro other row present
    by_cases same : other = codexID
    · subst same
      exact .inl ⟨rfl, some.inj (present.symm.trans found)⟩
    · exact .inr ⟨same, seated.rows other same ▸ present⟩
  constructor
  · intro first second row old present shown same
    rcases cases first row present with ⟨rfl, rfl⟩ | ⟨distinct, before⟩
    · rcases cases second old shown with ⟨rfl, -⟩ | ⟨apart, was⟩
      · rfl
      · exact absurd (same.symm.trans thread) (free second old was apart)
    · rcases cases second old shown with ⟨rfl, rfl⟩ | ⟨-, was⟩
      · exact absurd (same.trans thread) (free first row before distinct)
      · exact rows.distinct first second row old before was same
  · intro other row present
    rcases cases other row present with ⟨-, rfl⟩ | ⟨-, before⟩
    · unfold Plain
      rw [show normalizeSessionSource row.sessionSource = place.source from source]
      exact plain
    · exact rows.plain other row before
  · intro other row threadID present shown
    rcases cases other row present with ⟨-, rfl⟩ | ⟨-, before⟩
    · exact (some.inj (shown.symm.trans stored)).trans thread.symm
    · exact rows.stored other row threadID before shown
  · intro other sits at_place
    by_cases same : other = codexID
    · subst same
      cases seated.seat.symm.trans at_place
      exact ⟨own, found, source, thread⟩
    · obtain ⟨row, before, columns⟩ := rows.seated other sits (seated.others other same ▸ at_place)
      exact ⟨row, (seated.rows other same).trans before, columns⟩

theorem Rows.plain_seat (rows : Rows m) (sits : seat m codexID = some place) :
    Plain place.source := by
  obtain ⟨row, present, source, -⟩ := rows.seated codexID place sits
  have plain := rows.plain codexID row present
  unfold Plain at plain ⊢
  rw [← source]
  exact (normalizeSessionSource_idem row.sessionSource).symm ▸ plain

end Rows

/-! ## The tables -/

/-- Lookup tables from which a Codex is going to be entered at its new place: the entries of the
others are there, and the Codex has no entry elsewhere. -/
structure Cleared (m : Manager) (codexID : String) (place : Seat)
    (threads sessions : String → Option String) : Prop where
  othersThread : ∀ threadID other, other ≠ codexID →
    (threads threadID = some other ↔ m.byThread threadID = some other)
  othersSession : ∀ key other, other ≠ codexID →
    (sessions key = some other ↔ m.bySession key = some other)
  ownThread : ∀ threadID, threads threadID = some codexID → threadID = place.threadID
  ownSession : ∀ key, sessions key = some codexID → key = sessionKey place.source place.threadID

section Tables

variable {m n : Manager} {codexID : String} {place : Seat}

theorem Agrees.frame (agrees : Agrees m) (frame : Frame m n) : Agrees n := by
  constructor
  · intro id place sits
    rw [frame.threads]
    exact agrees.thread id place (frame.seat_eq id ▸ sits)
  · intro id place sits
    rw [frame.sessions]
    exact agrees.session id place (frame.seat_eq id ▸ sits)
  · intro threadID id entry
    rw [frame.seat_eq]
    exact agrees.threads threadID id (frame.threads ▸ entry)
  · intro key id entry
    rw [frame.seat_eq]
    exact agrees.sessions key id (frame.sessions ▸ entry)

/-- Nothing is registered and nothing is found. -/
theorem agrees_empty (nobody : ∀ id, seat m id = none) (threads : ∀ id, m.byThread id = none)
    (sessions : ∀ key, m.bySession key = none) : Agrees m := by
  constructor
  · exact fun id place sits => nomatch (nobody id).symm.trans sits
  · exact fun id place sits => nomatch (nobody id).symm.trans sits
  · exact fun threadID id entry => nomatch (threads threadID).symm.trans entry
  · exact fun key id entry => nomatch (sessions key).symm.trans entry

/-- A Codex is entered at its new place, on a thread of its own.

Proof: the entries of the others stay, because their threads are other ones and, sources being
plain, so are their keys. -/
theorem Agrees.seats {threads sessions : String → Option String} (agrees : Agrees m) (rows : Rows m)
    (seated : Seated m n codexID place) (cleared : Cleared m codexID place threads sessions)
    (byThread : n.byThread = update threads place.threadID (some codexID))
    (bySession : n.bySession = update sessions
      (sessionKey place.source place.threadID) (some codexID))
    (free : ∀ other row, m.events.disk.codexes other = some row → other ≠ codexID →
      row.threadID ≠ place.threadID) (plain : Plain place.source) : Agrees n := by
  have apart : ∀ other seat', other ≠ codexID → seat m other = some seat' →
      seat'.threadID ≠ place.threadID := by
    intro other seat' distinct sits
    obtain ⟨row, present, -, thread⟩ := rows.seated other seat' sits
    exact thread ▸ free other row present distinct
  constructor
  · intro other shown sits
    rw [byThread]
    by_cases same : other = codexID
    · subst same
      cases seated.seat.symm.trans sits
      exact update_self ..
    · have before := seated.others other same ▸ sits
      rw [update_of_ne (apart other shown same before)]
      exact (cleared.othersThread shown.threadID other same).mpr (agrees.thread other shown before)
  · intro other shown sits
    rw [bySession]
    by_cases same : other = codexID
    · subst same
      cases seated.seat.symm.trans sits
      exact update_self ..
    · have before := seated.others other same ▸ sits
      have distinct : sessionKey shown.source shown.threadID ≠
          sessionKey place.source place.threadID := by
        intro equal
        exact apart other shown same before (sessionKey_inj (rows.plain_seat before) plain equal).2
      rw [update_of_ne distinct]
      exact (cleared.othersSession _ other same).mpr (agrees.session other shown before)
  · intro threadID other entry
    rw [byThread] at entry
    by_cases here : threadID = place.threadID
    · subst here
      obtain rfl : codexID = other := by simpa using entry
      exact ⟨place, seated.seat, rfl⟩
    · rw [update_of_ne here] at entry
      have distinct : other ≠ codexID := by
        rintro rfl
        exact here (cleared.ownThread threadID entry)
      obtain ⟨shown, sits, thread⟩ :=
        agrees.threads threadID other ((cleared.othersThread threadID other distinct).mp entry)
      exact ⟨shown, (seated.others other distinct).trans sits, thread⟩
  · intro key other entry
    rw [bySession] at entry
    by_cases here : key = sessionKey place.source place.threadID
    · subst here
      obtain rfl : codexID = other := by simpa using entry
      exact ⟨place, seated.seat, rfl⟩
    · rw [update_of_ne here] at entry
      have distinct : other ≠ codexID := by
        rintro rfl
        exact here (cleared.ownSession key entry)
      obtain ⟨shown, sits, same⟩ :=
        agrees.sessions key other ((cleared.othersSession key other distinct).mp entry)
      exact ⟨shown, (seated.others other distinct).trans sits, same⟩

/-- An entry that is taken out if it names the Codex. -/
theorem removed_entry {found : String} :
    (if table key = some codexID then update table key none else table) found =
      some other ↔ table found = some other ∧ (found = key → other ≠ codexID) := by
  split
  · next own =>
    by_cases here : found = key
    · subst here
      simp only [update_self, reduceCtorEq, own, some.injEq, true_imp_iff,
        false_iff, not_and, ne_eq, not_not]
      exact Eq.symm
    · simp [here]
  · next foreign =>
    refine ⟨fun entry => ⟨entry, ?_⟩, And.left⟩
    rintro rfl rfl
    exact foreign entry

/-- Proof: the Codex has no other entries than those of its seat, which are taken out, and these
name nobody else. -/
theorem Agrees.drop (agrees : Agrees m) (sits : seat m codexID = some place) (events : Machine) :
    Agrees ({ m with events := events }.drop codexID place.threadID) := by
  have source : sessionKey (m.sources codexID) place.threadID =
      sessionKey place.source place.threadID := by
    obtain ⟨threadID, -, rfl⟩ := map_eq_some_iff.mp sits
    simp [sessionKey, seatAt, normalizeSessionSource_idem]
  have gone : seat ({ m with events := events }.drop codexID place.threadID) codexID = none :=
    seat_eq_none.mpr (by simp [threadIn, Manager.drop])
  have others : ∀ other, other ≠ codexID →
      seat ({ m with events := events }.drop codexID place.threadID) other = seat m other := by
    intro other distinct
    refine seat_congr ?_ ?_ ?_
    · simp [threadIn, Manager.drop, update_of_ne distinct]
    · exact update_of_ne distinct _ _
    · exact update_of_ne distinct _ _
  have stays : ∀ other shown,
      seat ({ m with events := events }.drop codexID place.threadID) other = some shown →
        other ≠ codexID ∧ seat m other = some shown := by
    intro other shown after
    have distinct : other ≠ codexID := by
      rintro rfl
      cases gone.symm.trans after
    exact ⟨distinct, (others other distinct) ▸ after⟩
  constructor
  · intro other shown after
    obtain ⟨distinct, before⟩ := stays other shown after
    exact removed_entry.mpr ⟨agrees.thread other shown before, fun _ => distinct⟩
  · intro other shown after
    obtain ⟨distinct, before⟩ := stays other shown after
    exact removed_entry.mpr ⟨agrees.session other shown before, fun _ => distinct⟩
  · intro threadID other entry
    obtain ⟨before, apart⟩ := removed_entry.mp entry
    obtain ⟨shown, was, thread⟩ := agrees.threads threadID other before
    have distinct : other ≠ codexID := by
      rintro rfl
      cases sits.symm.trans was
      exact apart thread.symm rfl
    exact ⟨shown, (others other distinct).trans was, thread⟩
  · intro key other entry
    obtain ⟨before, apart⟩ := removed_entry.mp entry
    obtain ⟨shown, was, same⟩ := agrees.sessions key other before
    have distinct : other ≠ codexID := by
      rintro rfl
      cases sits.symm.trans was
      exact apart (same.symm.trans source.symm) rfl
    exact ⟨shown, (others other distinct).trans was, same⟩

/-- A Codex that stays where it is, or is not registered yet, has no entry elsewhere. -/
theorem Agrees.cleared (agrees : Agrees m) (same : ∀ shown, seat m codexID = some shown →
      shown.threadID = place.threadID ∧ sessionKey shown.source shown.threadID =
        sessionKey place.source place.threadID) :
    Cleared m codexID place m.byThread m.bySession := by
  refine ⟨fun _ _ _ => Iff.rfl, fun _ _ _ => Iff.rfl, ?_, ?_⟩
  · intro threadID entry
    obtain ⟨shown, sits, rfl⟩ := agrees.threads threadID codexID entry
    exact (same shown sits).1
  · intro key entry
    obtain ⟨shown, sits, rfl⟩ := agrees.sessions key codexID entry
    exact (same shown sits).2

/-- The entries of a replaced thread are the only ones of the Codex, and are taken out. -/
theorem Agrees.dropThread (agrees : Agrees m) (here : ∀ shown, seat m codexID = some shown →
      shown.threadID = threadID ∧
        sessionKey shown.source shown.threadID = sessionKey source threadID) :
    Cleared m codexID place (m.dropThread codexID (some (source, threadID))).byThread
      (m.dropThread codexID (some (source, threadID))).bySession := by
  constructor
  · intro found other distinct
    exact removed_entry.trans (and_iff_left fun _ => distinct)
  · intro found other distinct
    exact removed_entry.trans (and_iff_left fun _ => distinct)
  · intro found entry
    obtain ⟨before, apart⟩ := removed_entry.mp entry
    obtain ⟨shown, sits, rfl⟩ := agrees.threads found codexID before
    exact absurd rfl (apart (here shown sits).1)
  · intro key entry
    obtain ⟨before, apart⟩ := removed_entry.mp entry
    obtain ⟨shown, sits, rfl⟩ := agrees.sessions key codexID before
    exact absurd rfl (apart (here shown sits).2)

end Tables

/-! ## Each step keeps the tables right -/

/-- Registry, tables and rows agree, and the ids of the rows were given out. -/
structure Sound (world : Host.World) : Prop where
  filed : Filed world.manager
  agrees : Agrees world.manager
  rows : Rows world.manager
  issued : ∀ codexID row, world.manager.events.disk.codexes codexID = some row →
    codexID ∈ world.issued

section Steps

variable {config : Config} {world next : Host.World} {codexID : String}

theorem Rows.same (rows : Rows m) (present : m.events.disk.codexes codexID = some row) :
    Resembles m codexID row :=
  ⟨row, present, rfl, rfl, fun threadID => rows.stored codexID row threadID present⟩

section

variable (sound : Sound world) (filed : Filed next.manager)
include sound filed

theorem Sound.stays (agrees : Agrees next.manager)
    (seats : ∀ id place, seat next.manager id = some place →
      seat world.manager id = some place)
    (before : ∀ id row, next.manager.events.disk.codexes id = some row →
      Resembles world.manager id row) (kept : ∀ id place, seat next.manager id = some place →
      ∃ row, next.manager.events.disk.codexes id = some row)
    (issued : ∀ id, id ∈ world.issued → id ∈ next.issued) : Sound next := by
  refine ⟨filed, agrees, sound.rows.stays seats before kept, ?_⟩
  intro id row present
  obtain ⟨old, was, -⟩ := before id row present
  exact issued id (sound.issued id old was)

theorem Sound.acts (acts : Acts (OfThread world.manager) world.manager next.manager)
    (issued : ∀ id, id ∈ world.issued → id ∈ next.issued) : Sound next := by
  have frame := acts.frame
  have rows := acts.rowsFrom
  refine sound.stays filed (sound.agrees.frame frame) acts.stays.seats ?_ ?_ issued
  · intro id row present
    exact sound.rows.resembles (rows.rows id row present)
  · intro id place sits
    obtain ⟨row, present, -⟩ := sound.rows.seated id place (frame.seat_eq id ▸ sits)
    exact rows.kept id row present

/-- The process ends, perhaps in the middle of an operation. -/
theorem Sound.stopped (stops : Stops (Edited world.manager) world.manager disk)
    (manager : next.manager = restartHost (withDisk world.manager disk) replayCapacity)
    (issued : ∀ id, id ∈ world.issued → id ∈ next.issued) : Sound next := by
  have stays := restartHost_stays sound.filed stops replayCapacity
  have nobody : ∀ id, seat next.manager id = none := by
    intro id
    rw [manager]
    rfl
  refine sound.stays filed (agrees_empty nobody ?_ ?_) ?_ ?_ ?_ issued
  · simp [manager, restartHost]
  · simp [manager, restartHost]
  · exact fun id place sits => nomatch (nobody id).symm.trans sits
  · intro id row present
    exact sound.rows.resembles (stays.rows id row (manager ▸ present))
  · exact fun id place sits => nomatch (nobody id).symm.trans sits

/-- A Codex is seated on a thread of its own. -/
theorem Sound.seats (seated : Seated world.manager next.manager codexID place)
    (cleared : Cleared world.manager codexID place threads sessions)
    (byThread : next.manager.byThread =
      update threads place.threadID (some codexID))
    (bySession : next.manager.bySession = update sessions
      (sessionKey place.source place.threadID) (some codexID))
    (written : ∃ row, next.manager.events.disk.codexes codexID = some row ∧ rowSeat row = place ∧
      storedThread row = some place.threadID)
    (free : ∀ other row, world.manager.events.disk.codexes other = some row → other ≠ codexID →
      row.threadID ≠ place.threadID) (plain : Plain place.source)
    (issued : codexID ∈ next.issued ∧ ∀ id, id ∈ world.issued → id ∈ next.issued) : Sound next := by
  have source : normalizeSessionSource place.source = place.source := by
    obtain ⟨threadID, -, rfl⟩ := map_eq_some_iff.mp seated.seat
    exact normalizeSessionSource_idem _
  refine ⟨filed, sound.agrees.seats sound.rows seated cleared byThread bySession free plain,
    sound.rows.seats seated written free (source ▸ plain), ?_⟩
  intro id row present
  by_cases same : id = codexID
  · exact same ▸ issued.1
  · exact issued.2 id (sound.issued id row (seated.rows id same ▸ present))

end

/-- The uniqueness rule and the one source of a thread leave no other row with it. -/
theorem free_of_unique (unique : Unique m codexID source threadID)
    (one : OneSource m source threadID) :
    ∀ other row, m.events.disk.codexes other = some row → other ≠ codexID →
      row.threadID ≠ threadID := by
  intro other row present distinct same
  exact unique other row present distinct ⟨one other row present same, same⟩

theorem sessionKey_normalized (source threadID : String) :
    sessionKey (normalizeSessionSource source) threadID = sessionKey source threadID := by
  rw [sessionKey, sessionKey, normalizeSessionSource_idem]

theorem plain_normalized (plain : Plain source) : Plain (normalizeSessionSource source) := by
  unfold Plain at plain ⊢
  rwa [normalizeSessionSource_idem]

theorem register_sound {label : Host.Label} (sound : Sound world)
    (registers : label.operation.registers = some (codexID, session, access))
    (regular : label.storage.writes = true →
      Unique world.manager codexID session.source session.threadID ∧
        OneSource world.manager session.source session.threadID) (plain : Plain session.source)
    (stepped : Host.step config world label = some next) : Sound next := by
  have filed := step_filed sound.filed stepped
  have issued : ∀ id, id ∈ world.issued → id ∈ next.issued := fun _ => step_issued stepped
  rcases step_registered registers stepped with same |
    ⟨fresh, seated, writes, threads, sessions, written⟩
  · refine sound.acts filed ?_ issued
    rw [same]
    exact .start
  · obtain ⟨unique, one⟩ := regular writes
    obtain ⟨-, codex, rfl, -, given, -⟩ := step_registers registers stepped
    refine sound.seats filed seated (sound.agrees.cleared ?_) threads ?_ written
      (free_of_unique unique one) (plain_normalized plain) ⟨given, issued⟩
    · intro shown sits
      have absent : world.manager.byID codex.codexId = none :=
        isNone_iff_eq_none.mp fresh.2.2.1
      simp [seat, threadIn, absent] at sits
    · rw [sessionKey_normalized]
      exact sessions

/-- Proof: the Codex is registered where its row says, or on the thread that replaces the lost
one; then the entries of the lost one are taken out. -/
theorem restore_sound {read : ThreadRead} (sound : Sound world)
    (present : world.manager.events.disk.codexes codexID = some row)
    (writes : storage.writes = true)
    (regular : ∀ plan pair, restorePlan config now row owner read storage.reads = some plan →
      plan.dropped = some pair →
        Unique world.manager codexID plan.record.sessionSource plan.record.threadID ∧
          OneSource world.manager plan.record.sessionSource plan.record.threadID ∧
          Plain plan.record.sessionSource) (stepped : Host.step config world
      { operation := .restore codexID owner read access, now := now, storage := storage } =
        some next) : Sound next := by
  have filed := step_filed sound.filed stepped
  have issued : ∀ id, id ∈ world.issued → id ∈ next.issued := fun _ => step_issued stepped
  have unchanged : next.manager = world.manager → Sound next := by
    intro same
    refine sound.acts filed ?_ issued
    rw [same]
    exact .start
  cases planned : restorePlan config now row owner read storage.reads with
  | none =>
    refine unchanged ?_
    simp only [Host.step, perform, present, map_some, some.injEq] at stepped
    subst stepped
    simp [restoreCodex, planned]
  | some plan =>
    rcases restore_step present planned stepped with same | ⟨state, finished⟩
    · exact unchanged same
    obtain ⟨rfl, named⟩ := restorePlan_named (sound.filed.rows codexID row present) planned
    have thread := restorePlan_thread
      (fun _ threadID => sound.rows.stored _ row threadID present) planned
    obtain ⟨seated, threads, sessions, written⟩ :=
      finishRestore_seated state storage.writes named thread (m := world.manager)
    rw [← finished] at seated threads sessions written
    obtain ⟨own, found, columns, stored⟩ := written writes
    have placed : storedThread own = some (planSeat plan).threadID := by
      rw [stored, ← columns]
      rfl
    have here : ∀ shown, seat world.manager plan.record.codexID = some shown →
        shown.threadID = row.threadID ∧ sessionKey shown.source shown.threadID =
          sessionKey row.sessionSource row.threadID := by
      intro shown sits
      obtain ⟨again, stands, source, same⟩ := sound.rows.seated _ shown sits
      cases present.symm.trans stands
      refine ⟨same.symm, ?_⟩
      rw [← source, ← same]
      exact sessionKey_normalized _ _
    have key : sessionKey (planSeat plan).source (planSeat plan).threadID =
        sessionKey plan.record.sessionSource plan.record.threadID := sessionKey_normalized _ _
    obtain ⟨-, kept, -, lost⟩ := restorePlan_columns planned
    cases dropped : plan.dropped with
    | none =>
      obtain ⟨source, same⟩ := kept dropped
      refine sound.seats filed seated (sound.agrees.cleared ?_) ?_ ?_ ⟨own, found, columns, placed⟩
        ?_ (plain_normalized (source ▸ sound.rows.plain _ row present))
        ⟨issued _ (sound.issued _ row present), issued⟩
      · intro shown sits
        obtain ⟨at_thread, at_key⟩ := here shown sits
        exact ⟨at_thread.trans same.symm, by rw [at_key, key, source, same]⟩
      · rw [threads, dropped]
        rfl
      · rw [sessions, dropped, key]
        rfl
      · intro other old stands distinct equal
        exact distinct (sound.rows.distinct other _ old row stands present (equal.trans same))
    | some pair =>
      obtain ⟨unique, one, plain⟩ := regular plan pair planned dropped
      obtain rfl := lost pair dropped
      have cleared : Cleared world.manager plan.record.codexID (planSeat plan)
          (world.manager.dropThread plan.record.codexID plan.dropped).byThread
          (world.manager.dropThread plan.record.codexID plan.dropped).bySession := by
        rw [dropped]
        refine sound.agrees.dropThread ?_
        intro shown sits
        rw [sessionKey_normalized]
        exact here shown sits
      refine sound.seats filed seated cleared threads ?_ ⟨own, found, columns, placed⟩
        (free_of_unique unique one) (plain_normalized plain)
        ⟨issued _ (sound.issued _ row present), issued⟩
      rw [key]
      exact sessions

/-- A deletion that took effect although it was reported as failed is excluded. -/
theorem forget_sound (sound : Sound world)
    (definite : ∀ durable, storage.commit.outcome ≠ .unknown durable)
    (stepped : Host.step config world
      { operation := .forget codexID requestID records, now := now, storage := storage } =
        some next) : Sound next := by
  have filed := step_filed sound.filed stepped
  have issued : ∀ id, id ∈ world.issued → id ∈ next.issued := fun _ => step_issued stepped
  have stays : Stays world.manager next.manager := step_stays sound.filed rfl stepped
  have before : ∀ id row, next.manager.events.disk.codexes id = some row →
      Resembles world.manager id row := fun id row present =>
    sound.rows.resembles (stays.rows id row present)
  simp only [Host.step, perform, some.injEq] at stepped
  subst stepped
  rw [put_manager] at filed stays before
  obtain ⟨events, error, failed, disk⟩ | ⟨events, view, codex, found, -, done, removed, -⟩ :=
    forgetCodex_cases world.manager codexID requestID now records storage.commit.outcome
      storage.commit.answers
  · have same : events.disk = world.manager.events.disk :=
      disk.resolve_right fun unknown => definite true unknown.1
    rw [failed] at filed stays before
    refine sound.stays ?_ ?_ ?_ ?_ ?_ issued <;> rw [put_manager, failed]
    · exact filed
    · exact sound.agrees.frame ⟨rfl, rfl, rfl, rfl, fun _ => rfl⟩
    · exact stays.seats
    · exact before
    · intro id place sits
      obtain ⟨row, present, -⟩ := sound.rows.seated id place (stays.seats id place sits)
      exact ⟨row, same ▸ present⟩
  · have sits : seat world.manager codexID =
        some (seatAt world.manager codexID codex.threadId) := by
      simp [seat, threadIn, known_remembered found, viewThread, known_codex found]
    rw [done] at filed stays before
    refine sound.stays ?_ ?_ ?_ ?_ ?_ issued <;> rw [put_manager, done]
    · exact filed
    · exact sound.agrees.drop sits events
    · exact stays.seats
    · exact before
    intro id place after
    have distinct : id ≠ codexID := by
      rintro rfl
      have gone : threadIn ({ world.manager with events := events }.drop id codex.threadId) id =
          none := by
        simp [threadIn, Manager.drop]
      cases (seat_eq_none.mpr gone).symm.trans after
    obtain ⟨row, present, -⟩ := sound.rows.seated id place (stays.seats id place after)
    refine ⟨row, ?_⟩
    have left : (events.disk).codexes id = world.manager.events.disk.codexes id := by
      rw [removed]
      exact update_of_ne distinct _ _
    exact left.trans present

/-- A workspace commit with a known outcome publishes a view of the registered thread. -/
theorem workspace_acts (filed : Filed m) (id : String) (state : WorkspaceAccessState) (now : Int)
    (reads reloads : Bool) (definite : ∀ durable, commit.outcome ≠ .unknown durable) :
    Acts (OfThread m) m (commitWorkspaceState m id state now commit reads reloads).1 := by
  refine commitWorkspaceState_acts reads reloads ?_ ?_
  · rintro old codex _ found ⟨seq, rfl⟩
    have remembered := known_remembered found
    refine ⟨by simp [remembered], filed.memory id old remembered, ?_⟩
    rw [threadIn, remembered, bind_some]
    rfl
  · intro n row view durable outcome
    exact absurd outcome (definite durable)

theorem host_sound {label : Host.Label} (sound : Sound world)
    (regular : Regular config ⟨world, []⟩ (.host label))
    (careful : Careful config ⟨world, []⟩ (.host label))
    (stepped : Host.step config world label = some next) : Sound next := by
  have filed := step_filed sound.filed stepped
  have issued : ∀ id, id ∈ world.issued → id ∈ next.issued := fun _ => step_issued stepped
  obtain ⟨storage, unique⟩ := regular
  cases registers : label.operation.registers with
  | some triple =>
    obtain ⟨codexID, session, access⟩ := triple
    have new : newSession config world.manager label =
        some (codexID, session.source, session.threadID) := by
      cases operation : label.operation <;> simp_all [newSession, Operation.registers]
    exact register_sound sound registers (fun writes => unique writes _ _ _ new)
      (careful _ _ _ new) stepped
  | none =>
    obtain ⟨operation, now, stored, crash⟩ := label
    cases crash with
    | some point =>
      unfold Host.step at stepped
      split at stepped
      · cases stepped
      · next absent => cases absent
      · obtain ⟨disk, at_point, rfl⟩ := map_eq_some_iff.mp stepped
        exact sound.stopped filed
          (interruptions_edits _ _ disk (mem_of_getElem? at_point)) rfl issued
    | none =>
      cases operation with
      | create | importSession => cases registers
      | restore codexID owner read access =>
        cases present : world.manager.events.disk.codexes codexID with
        | none => simp [Host.step, perform, present] at stepped
        | some row =>
          refine restore_sound sound present storage ?_ stepped
          intro plan pair planned dropped
          have new : newSession config world.manager
              { operation := .restore codexID owner read access, now := now, storage := stored } =
                some (codexID, plan.record.sessionSource, plan.record.threadID) := by
            simp [newSession, present, planned, dropped]
          obtain ⟨alone, one⟩ := unique storage _ _ _ new
          exact ⟨alone, one, careful _ _ _ new⟩
      | forget codexID requestID records => exact forget_sound sound storage stepped
      | restart replayCapacity =>
        simp only [Host.step, perform, some.injEq] at stepped
        subst stepped
        exact sound.stopped filed ⟨_, .start, rfl⟩ rfl issued
      | workspace codexID state =>
        refine sound.acts filed ?_ issued
        simp only [Host.step, perform, some.injEq] at stepped
        subst stepped
        exact workspace_acts sound.filed codexID state now stored.reads stored.reloads storage
      | _ =>
        unfold Host.step at stepped
        split at stepped
        · cases stepped
        · next performed _ =>
          cases stepped
          exact sound.acts filed ((perform_edits (perform_performs performed)
            rfl).ofThread sound.filed) issued
        · next absent => cases absent

/-- The late half of an announcement, with a view of the row's thread. -/
theorem publishRead_sound (sound : Sound world) (named : Names codex.codexId view)
    (thread : ∀ row, world.manager.events.disk.codexes codex.codexId = some row →
      viewThread view = some row.threadID) (requestID : String) (now : Int) (commit : Commit) :
    Sound (world.put
      (publishRead config world.manager codex view requestID now commit).1) := by
  have owned := boundCanonicalEvent_codexId config.sizes config.contentBudget
    { codexId := codex.codexId, occurredAtUnixMs := now, causedByRequestId := requestID
      body := .codexUpdated codex }
  unfold publishRead
  generalize boundCanonicalEvent _ _ _ = event at owned ⊢
  have own : event.codexId = codex.codexId := owned
  rw [← own] at named thread
  refine sound.stays ?_ ?_ ?_ ?_ ?_ fun _ => id
  · exact Acts.filed sound.filed (.publish event commit named .start)
  · exact sound.agrees.frame ⟨rfl, rfl, rfl, rfl, fun _ => rfl⟩
  · exact fun _ _ sits => sits
  · intro id row found
    obtain same | ⟨rfl, old, seq, present, written⟩ :=
      publishEvent_codexes world.manager event view commit id
    · exact sound.rows.same (same ▸ found)
    cases written.symm.trans found
    refine ⟨old, present, rfl, rfl, ?_⟩
    intro threadID shown
    have stored : viewThread view = some threadID := shown
    exact some.inj (stored.symm.trans (thread old present))
  · intro id place sits
    obtain ⟨row, present, -⟩ := sound.rows.seated id place sits
    obtain same | ⟨rfl, old, seq, -, written⟩ :=
      publishEvent_codexes world.manager event view commit id
    · exact ⟨row, same.trans present⟩
    · exact ⟨_, written⟩

end Steps

/-! ## A forgotten id stays away -/

/-- Database and event store know nothing of the id. -/
structure Lacks (m : Machine) (codexID : String) : Prop where
  row : m.disk.codexes codexID = none
  head : m.disk.eventHeads codexID = none
  stream : m.codex codexID = none

/-- The id is in none of the tables. -/
structure Absent (m : Manager) (codexID : String) : Prop where
  view : m.byID codexID = none
  thread : ∀ threadID, m.byThread threadID ≠ some codexID
  session : ∀ key, m.bySession key ≠ some codexID
  events : Lacks m.events codexID

section Lacks

variable {m : Machine} {codexID : String}

/-- An unknown id has no stream, and none can be opened. -/
theorem Lacks.ensure_ne (lacks : Lacks m codexID) (ensured : ensure m other answers = .ok st) :
    codexID ≠ other := by
  rintro rfl
  obtain ⟨cached, -⟩ | ⟨old, row, cached, -⟩ | ⟨row, -, stored, -⟩ := ensure_cases ensured
  · cases lacks.stream.symm.trans cached
  · cases lacks.stream.symm.trans cached
  · cases lacks.row.symm.trans stored

section

variable (lacks : Lacks m codexID)
include lacks

theorem Lacks.put (distinct : codexID ≠ other) (st : Stream) : Lacks (m.put other st) codexID :=
  ⟨lacks.row, lacks.head, (update_of_ne distinct _ _).trans lacks.stream⟩

theorem Lacks.writeEvent (distinct : codexID ≠ other) (now : Int) (row : CodexRecord) (seq : Nat)
    (view : Snapshot) : Lacks { m with disk := m.disk.writeEvent now other row seq view } codexID :=
  ⟨(update_of_ne distinct _ _).trans lacks.row,
    (update_of_ne distinct _ _).trans lacks.head, lacks.stream⟩

theorem Lacks.upsert (distinct : codexID ≠ row.codexID) :
    Lacks { m with disk := upsertCodex m.disk row } codexID :=
  ⟨(update_of_ne distinct _ _).trans lacks.row, lacks.head, lacks.stream⟩

/-- Also an event of the id itself is refused. -/
theorem Lacks.publish (event : Event) (view : CurrentView) (now : Int)
    (marshals : Bool) (outcome : CommitOutcome) (answers reloads : Bool) :
    Lacks (Activity.publish m (some event) (some view) now marshals outcome answers reloads).1
      codexID := by
  obtain ⟨same, -⟩ | ⟨given, st, -, -, ensured, failed | done⟩ :=
    publish_cases m (some event) (some view) now marshals outcome answers reloads
  · rw [same]
    exact lacks
  · have distinct := lacks.ensure_ne ensured
    obtain ⟨disk, error, same, rfl | ⟨-, row, raw, -, rfl⟩⟩ := failed
    · rw [same]
      exact lacks.put distinct _
    · rw [same]
      exact (lacks.writeEvent distinct ..).put distinct _
  · have distinct := lacks.ensure_ne ensured
    obtain ⟨row, raw, shown, -, same⟩ := done
    rw [same]
    have written := lacks.writeEvent distinct now row (m.disk.head given.codexId + 1) raw
    exact ⟨written.row, written.head, (update_of_ne distinct _ _).trans written.stream⟩

theorem Lacks.watch (other : String) (after : Option Nat) (queue : Int)
    (answers : Bool) : Lacks (Activity.watch m other after queue answers).1 codexID := by
  obtain ⟨same, -⟩ | ⟨st, ensured, same, -⟩ := watch_cases m other after queue answers
  · rw [same]
    exact lacks
  · rw [same]
    exact ⟨lacks.row, lacks.head, (update_of_ne (lacks.ensure_ne ensured) _ _).trans lacks.stream⟩

theorem Lacks.currentView (other : String) (answers : Bool) :
    Lacks (Activity.currentView m other answers).1 codexID := by
  unfold Activity.currentView
  split
  · exact lacks
  · next st ensured => exact lacks.put (lacks.ensure_ne ensured) st

theorem Lacks.reloadDurable (distinct : codexID ≠ other)
    (answers : Bool) : Lacks (Activity.reloadDurable m other answers).1 codexID := by
  unfold Activity.reloadDurable
  split
  · exact lacks
  · exact lacks.put distinct _

theorem Lacks.forget (other requestID : String) (now : Int) (outcome : CommitOutcome)
    (answers : Bool) : Lacks (Activity.forget m other requestID now outcome answers).1 codexID := by
  obtain ⟨same, -⟩ | ⟨st, ensured, -, -, -, result⟩ :=
    forget_cases m other requestID now outcome answers
  · rw [same]
    exact lacks
  have distinct := lacks.ensure_ne ensured
  have removed : (m.disk.remove other).codexes codexID = none ∧
      (m.disk.remove other).eventHeads codexID = none :=
    ⟨(update_of_ne distinct _ _).trans lacks.row,
      (update_of_ne distinct _ _).trans lacks.head⟩
  obtain ⟨-, -, stream, -, same | ⟨-, -, same⟩⟩ | ⟨-, -, -, same, stream⟩ := result
  · exact ⟨same ▸ lacks.row, same ▸ lacks.head,
      stream ▸ (update_of_ne distinct _ _).trans lacks.stream⟩
  · exact ⟨same ▸ removed.1, same ▸ removed.2,
      stream ▸ (update_of_ne distinct _ _).trans lacks.stream⟩
  · exact ⟨same ▸ removed.1, same ▸ removed.2,
      stream ▸ (update_of_ne distinct _ _).trans lacks.stream⟩

end

end Lacks

/-- An entry for another Codex, or none, does not name this one. -/
theorem update_names (free : ∀ key, table key ≠ some codexID) (key : String)
    (other : entry ≠ some codexID) :
    ∀ found, update table key entry found ≠ some codexID := by
  intro found
  by_cases here : found = key
  · subst here
    rwa [update_self]
  · rw [update_of_ne here]
    exact free found

/-- A view of a registered Codex. -/
def Held (m : Manager) (codexID : String) (view : CurrentView) : Prop :=
  (m.byID codexID).isSome = true ∧ Names codexID view

section Absent

variable {config : Config} {m n : Manager} {codexID : String}

theorem Absent.ne_held (absent : Absent m codexID) (held : Held m other view) :
    codexID ≠ other := by
  rintro rfl
  have registered := held.1
  rw [absent.view] at registered
  cases registered

theorem Absent.events_only (absent : Absent m codexID) {events : Machine}
    (lacks : Lacks events codexID) : Absent { m with events := events } codexID :=
  { absent with events := lacks }

/-- A row is written for the Codex of its view. -/
theorem Absent.persist (absent : Absent m codexID) (distinct : codexID ≠ other)
    (named : Names other view) (done : persistState m view writes = some n) : Absent n codexID := by
  unfold persistState at done
  split at done
  · cases done
  next codex present =>
  split at done <;> cases done
  refine absent.events_only (absent.events.upsert ?_)
  exact fun same => distinct (same.trans (named codex present))

/-- Proof: induction on the actions. What they write is of registered Codexes. -/
theorem Absent.acts (absent : Absent m codexID) (acts : Acts (Held m) m n) : Absent n codexID := by
  induction acts with
  | start => exact absent
  | tables _ _ _ _ ih => exact { ih with }
  | remember held _ ih =>
    have distinct := absent.ne_held held
    exact { ih with view := (update_of_ne distinct _ _).trans ih.view }
  | persist held done _ ih => exact ih.persist (absent.ne_held held) held.2 done
  | publish event commit _ _ ih => exact ih.events_only (ih.events.publish ..)
  | reload reloads held _ ih =>
    exact ih.events_only (ih.events.reloadDurable (absent.ne_held held) reloads)
  | watch id after queue answers _ ih => exact ih.events_only (ih.events.watch ..)
  | read id answers _ ih => exact ih.events_only (ih.events.currentView ..)

theorem Acts.held (acts : Acts (Edited m) m n) (filed : Filed m) : Acts (Held m) m n :=
  (acts.ofThread filed).mono fun _ _ of => ⟨of.registered, of.named⟩

theorem workspace_held (filed : Filed m) (id : String) (state : WorkspaceAccessState) (now : Int)
    (commit : Commit) (reads reloads : Bool) :
    Acts (Held m) m (commitWorkspaceState m id state now commit reads reloads).1 := by
  cases found : known m id with
  | error error =>
    simp only [commitWorkspaceState, found]
    exact .start
  | ok pair =>
    have registered : (m.byID id).isSome = true := by simp [known_remembered found]
    refine commitWorkspaceState_acts reads reloads ?_ ?_
    · rintro old codex _ again ⟨seq, rfl⟩
      exact ⟨registered, filed.memory id old (known_remembered again)⟩
    · intro after row view durable _ acts present decoded
      have own := (Acts.filed filed (acts.mono fun _ _ held => held.2)).rows id row present
      exact ⟨registered, fun codex => own.stored view codex (decode_unmarshal decoded)⟩

theorem Absent.restart (absent : Absent m codexID) (filed : Filed m)
    (stops : Stops (Edited m) m disk) (replayCapacity : Int) :
    Absent (restartHost (withDisk m disk) replayCapacity) codexID := by
  obtain ⟨after, acts, rfl⟩ := stops
  have left := (absent.acts (Acts.held acts filed)).events
  exact ⟨rfl, nofun, nofun, left.row, left.head, rfl⟩

section

variable (absent : Absent m codexID)
include absent

theorem Absent.save (session : Session) (access : Option WorkspaceAccessState) (now : Int)
    (writes : Bool) (distinct : codexID ≠ codex.codexId) :
    Absent (saveCodex config m codex session access now writes).1 codexID := by
  by_cases refused : access = none ∨ writes = false
  · rw [saveCodex_refused codex session now refused]
    exact absent
  obtain ⟨given, written⟩ := not_or.mp refused
  obtain ⟨state, rfl⟩ := ne_none_iff_exists'.mp given
  obtain rfl : writes = true := by simpa using written
  obtain ⟨-, byThread, bySession, -⟩ := @saveCodex_seated config m codex session state now
  constructor
  · exact (update_of_ne distinct _ _).trans absent.view
  · rw [byThread]
    exact update_names absent.thread _ (by simpa using Ne.symm distinct)
  · rw [bySession]
    exact update_names absent.session _ (by simpa using Ne.symm distinct)
  · exact absent.events.upsert distinct

theorem Absent.dropThread (other : String)
    (dropped : Option (String × String)) : Absent (m.dropThread other dropped) codexID := by
  unfold Manager.dropThread
  split
  · exact absent
  refine ⟨absent.view, ?_, ?_, absent.events⟩
  · dsimp only
    split
    · exact update_names absent.thread _ nofun
    · exact absent.thread
  · dsimp only
    split
    · exact update_names absent.session _ nofun
    · exact absent.session

theorem Absent.drop (other threadID : String) : Absent (m.drop other threadID) codexID := by
  unfold Manager.drop
  refine ⟨?_, ?_, ?_, absent.events⟩
  · by_cases same : codexID = other
    · subst same
      exact update_self ..
    · exact (update_of_ne same _ _).trans absent.view
  · dsimp only
    split
    · exact update_names absent.thread _ nofun
    · exact absent.thread
  · dsimp only
    split
    · exact update_names absent.session _ nofun
    · exact absent.session

/-- Also a second `ForgetCodex` of the id. -/
theorem Absent.forgetCodex (other requestID : String) (now : Int)
    (records : Bool) (outcome : CommitOutcome) (answers : Bool) :
    Absent (Codexes.forgetCodex m other requestID now records outcome answers).1 codexID := by
  have after := absent.events.forget other requestID now outcome answers
  unfold Codexes.forgetCodex
  split
  · exact absent
  split
  · exact absent
  split
  · exact absent
  split
  · split
    · next events error ended =>
      rw [ended] at after
      exact absent.events_only after
    · next events _ ended =>
      rw [ended] at after
      exact (absent.events_only after).drop ..
  · exact absent

/-- A restore is of a row that exists. -/
theorem Absent.finishRestore (plan : RestorePlan) (state : WorkspaceAccessState) (writes : Bool)
    (distinct : codexID ≠ plan.record.codexID) (named : Names plan.record.codexID plan.view) :
    Absent (Codexes.finishRestore m plan state writes).1 codexID := by
  have dropped := absent.dropThread plan.record.codexID plan.dropped
  have other : some plan.record.codexID ≠ some codexID := by simpa using Ne.symm distinct
  unfold Codexes.finishRestore
  extract_lets _ view registered
  have restored : Absent registered codexID := ⟨(update_of_ne distinct _ _).trans dropped.view,
      update_names dropped.thread _ other, update_names dropped.session _ other, dropped.events⟩
  split
  · exact restored
  · next stored done =>
    have shows : Names plan.record.codexID view := named
    exact restored.persist distinct shows done

end

end Absent

/-! ## Runs -/

section Runs

variable {config : Config}

/-- The announcements show views of the Codexes they are for. -/
def Announces (world : Announcements.World) : Prop :=
  ∀ announcement ∈ world.announcing, Names announcement.codex.codexId announcement.view

/-- What every step keeps, whatever its storage calls do. -/
structure Ordered (world : Announcements.World) : Prop where
  filed : Filed world.host.manager
  announces : Announces world

theorem step_ordered (ordered : Ordered world) (stepped : step config world label = some next) :
    Ordered next ∧ ∀ codexID, codexID ∈ world.host.issued → codexID ∈ next.host.issued := by
  cases label with
  | host label =>
    obtain ⟨host, moved, rfl⟩ := map_eq_some_iff.mp stepped
    refine ⟨⟨step_filed ordered.filed moved, ?_⟩, fun _ => step_issued moved⟩
    intro announcement member
    split at member
    · cases member
    · exact ordered.announces announcement member
  | read codex requestID =>
    simp only [Announcements.step] at stepped
    split at stepped <;> cases stepped
    refine ⟨⟨ordered.filed, ?_⟩, fun _ => id⟩
    intro announcement member
    obtain fresh | old := mem_append.mp member
    · obtain ⟨view, shown, rfl⟩ := map_eq_some_iff.mp (mem_toList.mp fresh)
      exact ordered.filed.memory codex.codexId view shown
    · exact ordered.announces announcement old
  | commit announced now commit =>
    simp only [Announcements.step] at stepped
    split at stepped <;> cases stepped
    next member =>
    have owned := boundCanonicalEvent_codexId config.sizes config.contentBudget
      { codexId := announced.codex.codexId, occurredAtUnixMs := now
        causedByRequestId := announced.requestID, body := .codexUpdated announced.codex }
    have named := ordered.announces announced member
    refine ⟨⟨?_, ?_⟩, fun _ => id⟩
    · exact Acts.filed ordered.filed (.publish _ commit (owned ▸ named) .start)
    · exact fun announcement member =>
        ordered.announces announcement (mem_of_mem_erase member)

/-- What the tables rest on, with the announcements under way. -/
structure Keeps (world : Announcements.World) : Prop where
  sound : Sound world.host
  announces : Announces world

theorem step_keeps (keeps : Keeps world) (regular : Regular config world label)
    (careful : Careful config world label) (stepped : step config world label = some next) :
    Keeps next := by
  refine ⟨?_, (step_ordered ⟨keeps.sound.filed, keeps.announces⟩ stepped).1.announces⟩
  cases label with
  | host label =>
    obtain ⟨host, moved, rfl⟩ := map_eq_some_iff.mp stepped
    exact host_sound keeps.sound regular careful moved
  | read codex requestID =>
    simp only [Announcements.step] at stepped
    split at stepped <;> cases stepped
    exact keeps.sound.acts keeps.sound.filed .start fun _ => id
  | commit announced now commit =>
    simp only [Announcements.step] at stepped
    split at stepped <;> cases stepped
    next member =>
    exact publishRead_sound keeps.sound (keeps.announces announced member) careful ..

/-- A step that does not issue the id does not bring it. -/
theorem host_absent {world next : Host.World} {label : Host.Label} (filed : Filed world.manager)
    (old : codexID ∈ world.issued ∨ codexID ∉ next.issued) (absent : Absent world.manager codexID)
    (stepped : Host.step config world label = some next) : Absent next.manager codexID := by
  cases registers : label.operation.registers with
  | some triple =>
    obtain ⟨id, session, access⟩ := triple
    obtain ⟨fresh, codex, rfl, -, issued, same⟩ := step_registers registers stepped
    rw [same]
    refine absent.save session access _ _ ?_
    rintro rfl
    exact old.elim fresh.2.1 (absurd issued)
  | none =>
    obtain ⟨operation, now, stored, crash⟩ := label
    cases crash with
    | some point =>
      unfold Host.step at stepped
      split at stepped
      · cases stepped
      · next none => cases none
      · obtain ⟨disk, at_point, rfl⟩ := map_eq_some_iff.mp stepped
        exact absent.restart filed (interruptions_edits _ _ disk (mem_of_getElem? at_point)) _
    | none =>
      cases operation with
      | create | importSession => cases registers
      | restore id owner read access =>
        cases present : world.manager.events.disk.codexes id with
        | none => simp [Host.step, perform, present] at stepped
        | some row =>
          cases planned : restorePlan config now row owner read stored.reads with
          | none =>
            simp only [Host.step, perform, present, map_some, some.injEq] at stepped
            subst stepped
            simpa [restoreCodex, planned] using absent
          | some plan =>
            obtain ⟨is, named⟩ := restorePlan_named (filed.rows id row present) planned
            rcases restore_step present planned stepped with same | ⟨state, finished⟩
            · rwa [same]
            rw [finished]
            refine absent.finishRestore plan state stored.writes ?_ named
            rintro rfl
            rw [is] at absent
            cases absent.events.row.symm.trans present
      | forget id requestID records =>
        simp only [Host.step, perform, some.injEq] at stepped
        subst stepped
        exact absent.forgetCodex ..
      | restart replayCapacity =>
        simp only [Host.step, perform, some.injEq] at stepped
        subst stepped
        exact absent.restart filed ⟨_, .start, rfl⟩ replayCapacity
      | workspace id state =>
        simp only [Host.step, perform, some.injEq] at stepped
        subst stepped
        exact absent.acts (workspace_held filed id state now stored.commit stored.reads
          stored.reloads)
      | _ =>
        unfold Host.step at stepped
        split at stepped
        · cases stepped
        · next performed _ =>
          cases stepped
          exact absent.acts (Acts.held (perform_edits (perform_performs performed) rfl) filed)
        · next none => cases none

theorem step_absent (filed : Filed world.host.manager)
    (old : codexID ∈ world.host.issued ∨ codexID ∉ next.host.issued)
    (absent : Absent world.host.manager codexID) (stepped : step config world label = some next) :
    Absent next.host.manager codexID := by
  cases label with
  | host label =>
    obtain ⟨host, moved, rfl⟩ := map_eq_some_iff.mp stepped
    exact host_absent filed old absent moved
  | read codex requestID =>
    simp only [Announcements.step] at stepped
    split at stepped <;> cases stepped
    exact absent
  | commit announced now commit =>
    simp only [Announcements.step] at stepped
    split at stepped <;> cases stepped
    exact absent.events_only (absent.events.publish ..)

/-- The id is away, and it was issued: no registration draws it again. -/
structure Away (codexID : String) (world : Announcements.World) : Prop where
  ordered : Ordered world
  issued : codexID ∈ world.host.issued
  absent : Absent world.host.manager codexID

theorem step_away (away : Away codexID world) (stepped : step config world label = some next) :
    Away codexID next :=
  ⟨(step_ordered away.ordered stepped).1, (step_ordered away.ordered stepped).2 _ away.issued,
    step_absent away.ordered.filed (.inl away.issued) away.absent stepped⟩

/-- Proof: the entries that are left name Codexes that are left. -/
theorem forget_away {after : Announcements.World} (keeps : Keeps world) (stepped : step config world
      (.host { operation := .forget codexID requestID records, now := now, storage := storage }) =
        some after)
    (done : (forgetCodex world.host.manager codexID requestID now records storage.commit.outcome
      storage.commit.answers).2 = .ok ()) : Away codexID after := by
  have ordered := (step_ordered ⟨keeps.sound.filed, keeps.announces⟩ stepped).1
  simp only [Announcements.step] at stepped
  obtain ⟨host, moved, rfl⟩ := map_eq_some_iff.mp stepped
  obtain ⟨events, error, failed, -⟩ | ⟨events, view, codex, found, -, same, removed, stream⟩ :=
    forgetCodex_cases world.host.manager codexID requestID now records storage.commit.outcome
      storage.commit.answers
  · rw [failed] at done
    cases done
  have sits : seat world.host.manager codexID =
      some (seatAt world.host.manager codexID codex.threadId) := by
    simp [seat, threadIn, known_remembered found, viewThread, known_codex found]
  have agrees := keeps.sound.agrees.drop sits events
  have gone : seat ({ world.host.manager with events := events }.drop codexID codex.threadId)
      codexID = none :=
    seat_eq_none.mpr (by simp [threadIn, Manager.drop])
  obtain ⟨row, present, -⟩ := keeps.sound.rows.seated codexID _ sits
  refine ⟨ordered, step_issued moved (keeps.sound.issued codexID row present), ?_⟩
  simp only [Host.step, perform, some.injEq] at moved
  subst moved
  rw [put_manager, same]
  constructor
  · exact update_self ..
  · intro threadID entry
    obtain ⟨place, left, -⟩ := agrees.threads threadID codexID entry
    cases gone.symm.trans left
  · intro key entry
    obtain ⟨place, left, -⟩ := agrees.sessions key codexID entry
    cases gone.symm.trans left
  · have empty : (events.disk).codexes codexID = none ∧
        (events.disk).eventHeads codexID = none := by
      rw [removed]
      exact ⟨update_self .., update_self ..⟩
    exact ⟨empty.1, empty.2, stream⟩

end Runs

/-- A Host that has just started, on a database whose rows were written under the same
conditions. -/
structure Starts (world : Announcements.World) : Prop where
  filed : Filed world.host.manager
  rows : Rows world.host.manager
  issued : ∀ codexID row, world.host.manager.events.disk.codexes codexID = some row →
    codexID ∈ world.host.issued
  empty : ∀ codexID, world.host.manager.byID codexID = none
  threads : ∀ threadID, world.host.manager.byThread threadID = none
  sessions : ∀ key, world.host.manager.bySession key = none
  quiet : world.announcing = []

theorem Starts.keeps (starts : Starts world) : Keeps world := by
  have nobody : ∀ codexID, seat world.host.manager codexID = none := fun codexID =>
    seat_eq_none.mpr (by simp [threadIn, starts.empty codexID])
  refine ⟨{ starts with agrees := agrees_empty nobody starts.threads starts.sessions }, ?_⟩
  intro announcement member
  rw [starts.quiet] at member
  cases member

/-- In every run of a Host whose new sources are plain and whose announcements show the thread the
row has by then, the registry and the two lookup tables agree; and once `ForgetCodex` has succeeded
in such a run, nothing that comes later brings the id back to the registry, the lookup tables, the
database or the event store.

Proof: `Keeps` is an invariant of the steps under the conditions. After a successful forget the
id is away, and this is an invariant of all steps. -/
theorem lookup_tables_agree (config : Config) (start : Announcements.World)
    (starts : Starts start) :
    (∀ last labels,
      Runs.Meets (step config) (fun world label =>
        Regular config world label ∧ Careful config world label) start labels →
      Runs.run (step config) start labels = some last → Agrees last.host.manager) ∧
    ∀ before after last history later codexID requestID records now storage,
      Runs.Meets (step config) (fun world label =>
        Regular config world label ∧ Careful config world label) start history →
      Runs.run (step config) start history = some before →
      step config before (.host
        { operation := .forget codexID requestID records, now := now, storage := storage }) =
          some after →
      (forgetCodex before.host.manager codexID requestID now records storage.commit.outcome
        storage.commit.answers).2 = .ok () →
      Runs.run (step config) after later = some last → Absent last.host.manager codexID := by
  have kept : ∀ last labels, Runs.Meets (step config) (fun world label =>
        Regular config world label ∧ Careful config world label) start labels →
      Runs.run (step config) start labels = some last → Keeps last := by
    intro last labels meets ran
    refine Runs.run_invariant Keeps ?_ starts.keeps meets ran
    exact fun _ _ _ keeps conditions stepped => step_keeps keeps conditions.1 conditions.2 stepped
  constructor
  · intro last labels meets ran
    exact (kept last labels meets ran).sound.agrees
  intro before after last history later codexID requestID records now storage meets ran forgets
    done continued
  have away := forget_away (kept before history meets ran) forgets done
  exact (Runs.run_kept (Away codexID) (fun _ _ _ => step_away) away continued).absent

/-! ## Runs on a new Host -/

/-- Ids that were never issued are nowhere. -/
structure Known (world : Announcements.World) : Prop where
  ordered : Ordered world
  absent : ∀ codexID, codexID ∉ world.host.issued → Absent world.host.manager codexID

theorem step_known (known : Known world) (stepped : step config world label = some next) :
    Known next := by
  obtain ⟨ordered, issues⟩ := step_ordered known.ordered stepped
  refine ⟨ordered, ?_⟩
  intro codexID unissued
  refine step_absent known.ordered.filed (.inr unissued) (known.absent codexID ?_) stepped
  exact fun issued => unissued (issues codexID issued)

/-- Storage succeeds, and a new thread is new to all rows of issued ids. -/
def Checked (config : Config) (world : Announcements.World) : Label → Prop
  | .host label =>
      (match label.operation with
        | .restore .. => label.storage.writes = true
        | .forget .. | .workspace .. => ∀ durable, label.storage.commit.outcome ≠ .unknown durable
        | _ => True) ∧
      ∀ new ∈ newSession config world.host.manager label, ∀ other ∈ world.host.issued,
        ∀ row ∈ world.host.manager.events.disk.codexes other, row.threadID ≠ new.2.2
  | _ => True

instance (config : Config) (world : Announcements.World) (label : Label) :
    Decidable (Checked config world label) :=
  match label with
  | .host label =>
      have : Decidable (match label.operation with
          | .restore .. => label.storage.writes = true
          | .forget .. | .workspace .. => ∀ durable, label.storage.commit.outcome ≠ .unknown durable
          | _ => True) := by
        split <;> infer_instance
      inferInstanceAs (Decidable (_ ∧ _))
  | .read .. => isTrue trivial
  | .commit .. => isTrue trivial

theorem Known.regular (known : Known world) (checked : Checked config world label) :
    Regular config world label := by
  cases label with
  | host label =>
    refine ⟨checked.1, ?_⟩
    intro _ codexID source threadID new
    have foreign : ∀ other row, world.host.manager.events.disk.codexes other = some row →
        row.threadID ≠ threadID := by
      intro other row present
      by_cases issued : other ∈ world.host.issued
      · exact checked.2 _ new other issued row present
      · cases (known.absent other issued).events.row.symm.trans present
    exact ⟨fun other row present _ same => foreign other row present same.2,
      fun other row present same => absurd same (foreign other row present)⟩
  | read | commit => trivial

theorem Known.meets (known : Known world)
    (checked : Runs.Meets (step config) (Checked config) world labels) :
    Runs.Meets (step config) (Regular config) world labels := by
  induction labels generalizing world with
  | nil => trivial
  | cons label rest ih =>
    exact ⟨known.regular checked.1,
      fun next stepped => ih (step_known known stepped) (checked.2 next stepped)⟩

instance (config : Config) (world : Announcements.World) (label : Label) :
    Decidable (Careful config world label) :=
  match label with
  | .host label =>
      decidable_of_iff (∀ new ∈ newSession config world.host.manager label, Plain new.2.1)
        ⟨fun plain codexID source threadID new => plain (codexID, source, threadID) new,
          fun careful new member => careful new.1 new.2.1 new.2.2 member⟩
  | .read .. => isTrue trivial
  | .commit announcement _ _ =>
      inferInstanceAs (Decidable (∀ row ∈
        world.host.manager.events.disk.codexes announcement.codex.codexId,
          viewThread announcement.view = some row.threadID))

/-- A Host on an empty database. -/
def sampleLookup : Announcements.World := { host := sampleHost }

theorem sampleLookup_known : Known sampleLookup := by
  have noThread : ∀ threadID, sampleLookup.host.manager.byThread threadID = none := fun _ => rfl
  have noSession : ∀ key, sampleLookup.host.manager.bySession key = none := fun _ => rfl
  have quiet : sampleLookup.announcing = [] := rfl
  refine ⟨⟨sampleHost_filed, ?_⟩, fun codexID _ => ⟨rfl, ?_, ?_, rfl, rfl, rfl⟩⟩
  · intro announcement member
    rw [quiet] at member
    cases member
  · exact fun threadID entry => nomatch (noThread threadID).symm.trans entry
  · exact fun key entry => nomatch (noSession key).symm.trans entry

theorem sampleLookup_starts : Starts sampleLookup := by
  have noRow : ∀ codexID, sampleLookup.host.manager.events.disk.codexes codexID = none :=
    fun codexID => (sampleHost_empty codexID).2
  have nobody : ∀ codexID, seat sampleLookup.host.manager codexID = none := fun _ => rfl
  refine ⟨sampleHost_filed, ⟨?_, ?_, ?_, ?_⟩, ?_, fun _ => rfl, fun _ => rfl, fun _ => rfl, rfl⟩
  · exact fun codexID _ _ _ present => nomatch (noRow codexID).symm.trans present
  · exact fun codexID _ present => nomatch (noRow codexID).symm.trans present
  · exact fun codexID _ _ present => nomatch (noRow codexID).symm.trans present
  · exact fun codexID _ sits => nomatch (nobody codexID).symm.trans sits
  · exact fun codexID _ present => nomatch (noRow codexID).symm.trans present

/-- What `CreateCodex` announces, as it was read before anything else happened. -/
def sampleAnnouncement : Announcement :=
  { codex := createdCodex sampleConfig "cdx" sampleSession 5
    view := boundCurrentView sampleConfig.sizes sampleConfig.contentBudget
      { codex := some (createdCodex sampleConfig "cdx" sampleSession 5)
        workspaceAccessState := some sampleAccess, generatedAtUnixMs := 5 }
    requestID := "create" }

/-- A Codex is created; before it is announced its thread is lost and replaced, and it is left
unmanaged. -/
def sampleReplaced : List Label :=
  [.host sampleCreate,
    .read sampleAnnouncement.codex sampleAnnouncement.requestID,
    .host { operation := .restore "cdx" "own" (.failed false true (some ⟨"thr2", none, ""⟩))
              (some sampleAccess), now := 6 },
    .host { operation := .unmanage "cdx" "unmanage", now := 7 }]

def sampleForget : Host.Label := { operation := .forget "cdx" "forget" true, now := 9 }

def sampleCommit : Label := .commit sampleAnnouncement 8 {}

/-- The announcement comes behind the forget, and brings nothing back. -/
theorem lookup_tables_agree_announced :
    Starts sampleLookup ∧ ∃ before after last,
      Runs.Meets (step sampleConfig) (fun world label =>
        Regular sampleConfig world label ∧ Careful sampleConfig world label) sampleLookup
          sampleReplaced ∧
      Runs.run (step sampleConfig) sampleLookup sampleReplaced = some before ∧
      seat before.host.manager "cdx" = some ⟨"cli", "thr2", "own"⟩ ∧
      Agrees before.host.manager ∧
      step sampleConfig before (.host sampleForget) = some after ∧
      Runs.run (step sampleConfig) after [sampleCommit] = some last ∧
      Absent last.host.manager "cdx" := by
  have whole : ((Runs.run (step sampleConfig) sampleLookup sampleReplaced).bind fun before =>
      (step sampleConfig before (.host sampleForget)).bind fun after =>
      (Runs.run (step sampleConfig) after [sampleCommit]).map fun _ =>
        (seat before.host.manager "cdx",
          (forgetCodex before.host.manager "cdx" "forget" 9 true .committed true).2)) =
      some (some ⟨"cli", "thr2", "own"⟩, .ok ()) := by
    decide +kernel
  have meets : Runs.Meets (step sampleConfig) (fun world label =>
      Regular sampleConfig world label ∧ Careful sampleConfig world label) sampleLookup
        sampleReplaced := by
    refine Runs.meets_and _ _ _ _ _ (sampleLookup_known.meets ?_) ?_
    · decide +kernel
    · decide +kernel
  obtain ⟨before, reached, whole⟩ := bind_eq_some_iff.mp whole
  obtain ⟨after, forgets, whole⟩ := bind_eq_some_iff.mp whole
  obtain ⟨last, commits, facts⟩ := map_eq_some_iff.mp whole
  simp only [Prod.mk.injEq] at facts
  have result := lookup_tables_agree sampleConfig sampleLookup sampleLookup_starts
  exact ⟨sampleLookup_starts, before, after, last, meets, reached, facts.1,
    result.1 before sampleReplaced meets reached, forgets, commits,
    result.2 before after last sampleReplaced [sampleCommit] "cdx" "forget" true 9 {} meets reached
      forgets facts.2 commits⟩

/-- Two threads whose keys are the same text. -/
def sampleTwins : List Label :=
  let first := { sampleSession with source := "a", threadID := "b\x00c" }
  let second := { sampleSession with source := "a\x00b", threadID := "c" }
  [.host { operation := .create "one" first (some sampleAccess) "create", now := 5 },
    .host { operation := .create "two" second (some sampleAccess) "create", now := 6 }]

/-- The announcement comes before the next restore, which goes by the view that it stored. -/
def sampleLate : List Label :=
  sampleReplaced ++ [sampleCommit,
    .host { operation := .restore "cdx" "own" (.failed false false none) (some sampleAccess),
            now := 8 }]

/-- Storage succeeds and no thread has two sources, and yet: the second of two Codexes is found by
the session of the first; and after a late announcement a Codex is not found by its thread, and
stays in the table by the other one after it was forgotten. -/
theorem lookup_tables_disagree :
    Starts sampleLookup ∧
    (∃ last, Runs.Meets (step sampleConfig) (Regular sampleConfig) sampleLookup sampleTwins ∧
      Runs.run (step sampleConfig) sampleLookup sampleTwins = some last ∧
      seat last.host.manager "one" = some ⟨"a", "b\x00c", "own"⟩ ∧
      last.host.manager.bySession (sessionKey "a" "b\x00c") = some "two") ∧
    ∃ last after,
      Runs.Meets (step sampleConfig) (Regular sampleConfig) sampleLookup
        (sampleLate ++ [.host sampleForget]) ∧
      Runs.run (step sampleConfig) sampleLookup sampleLate = some last ∧
      seat last.host.manager "cdx" = some ⟨"cli", "thr", "own"⟩ ∧
      last.host.manager.byThread "thr" = none ∧
      step sampleConfig last (.host sampleForget) = some after ∧
      (forgetCodex last.host.manager "cdx" "forget" 9 true .committed true).2 = .ok () ∧
      after.host.manager.byThread "thr2" = some "cdx" ∧
      after.host.manager.byID "cdx" = none := by
  have twins : (Runs.run (step sampleConfig) sampleLookup sampleTwins).map (fun last =>
      (seat last.host.manager "one",
        last.host.manager.bySession (sessionKey "a" "b\x00c"))) =
      some (some ⟨"a", "b\x00c", "own"⟩, some "two") := by
    decide +kernel
  have late : ((Runs.run (step sampleConfig) sampleLookup sampleLate).bind fun last =>
      (step sampleConfig last (.host sampleForget)).map fun after =>
        (seat last.host.manager "cdx", last.host.manager.byThread "thr",
          (forgetCodex last.host.manager "cdx" "forget" 9 true .committed true).2,
          after.host.manager.byThread "thr2", (after.host.manager.byID "cdx").isNone)) =
      some (some ⟨"cli", "thr", "own"⟩, none, .ok (), some "cdx", true) := by
    decide +kernel
  have twinsChecked : Runs.Meets (step sampleConfig) (Checked sampleConfig) sampleLookup
      sampleTwins := by
    decide +kernel
  have lateChecked : Runs.Meets (step sampleConfig) (Checked sampleConfig) sampleLookup
      (sampleLate ++ [.host sampleForget]) := by
    decide +kernel
  obtain ⟨twin, ranTwins, twinFacts⟩ := map_eq_some_iff.mp twins
  obtain ⟨last, ranLate, late⟩ := bind_eq_some_iff.mp late
  obtain ⟨after, forgets, facts⟩ := map_eq_some_iff.mp late
  simp only [Prod.mk.injEq] at twinFacts facts
  obtain ⟨sits, lost, done, left, gone⟩ := facts
  exact ⟨sampleLookup_starts,
    ⟨twin, sampleLookup_known.meets twinsChecked, ranTwins, twinFacts.1, twinFacts.2⟩,
    last, after, sampleLookup_known.meets lateChecked, ranLate, sits, lost, forgets, done, left,
    isNone_iff_eq_none.mp gone⟩

end CodexRemote.Lookup
