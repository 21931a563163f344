import CodexRemote.Operations

/-!
# Announcements in two steps

`CreateCodex` and `ImportSession` end with `publishCodex`, and there it holds no lock: it reads
the view of the new Codex from memory and commits it with the event later. Other operations may
come between. The view is an old one then, and the commit puts it over the newer one that is
stored, while memory keeps the newer one.

The system is the Host of `Operations` with these two steps. The announcement that is one step
there is the case in which nothing comes between. Every section under the commit lock is one
step still, so that a commit which falls into the middle of such a section is not covered.

An announcement is timely if memory still shows the view that was read. A timely commit is the
announcement of the Host, so what the steps of the Host keep of the Manager is kept here, too.
-/
namespace CodexRemote.Announcements

open Protocol Codexes Host List
open Option (map_eq_some_iff)

/-- A `publishCodex` that has read the view. -/
structure Announcement where
  codex : Codex
  view : CurrentView
  requestID : String
  deriving DecidableEq

/-- The Host, and the announcements that are between their two steps. -/
structure World where
  host : Host.World
  announcing : List Announcement := []

inductive Label where
  | host (label : Host.Label)
  /-- `publishCodex` reads the view, behind `CreateCodex` and `ImportSession`. -/
  | read (codex : Codex) (requestID : String)
  /-- It commits the view with the event. -/
  | commit (announcement : Announcement) (now : Int) (commit : Commit)

/-- The announcement that has read the view, if there is one to read. -/
def announcementOf (m : Manager) (codex : Codex) (requestID : String) : List Announcement :=
  ((m.byID codex.codexId).map fun view => ⟨codex, view, requestID⟩).toList

/-- A step. Announcements that are under way end with the process. -/
def step (config : Config) (world : World) : Label → Option World
  | .host label =>
      (Host.step config world.host label).map fun host =>
        { host := host, announcing := if label.endsProcess then [] else world.announcing }
  | .read codex requestID =>
      if (codex, requestID) ∈ world.host.saved then
        some
          { host := { world.host with saved := world.host.saved.erase (codex, requestID) }
            announcing := announcementOf world.host.manager codex requestID ++ world.announcing }
      else none
  | .commit announcement now commit =>
      if announcement ∈ world.announcing then
        some
          { host := world.host.put (publishRead config world.host.manager announcement.codex
              announcement.view announcement.requestID now commit).1
            announcing := world.announcing.erase announcement }
      else none

/-- An announcement commits the view that memory shows, and not one from before a change. -/
def Timely (world : World) : Label → Prop
  | .commit announcement _ _ =>
      world.host.manager.byID announcement.codex.codexId = some announcement.view
  | .host _ | .read .. => True

instance (world : World) : (label : Label) → Decidable (Timely world label)
  | .commit .. => inferInstanceAs (Decidable (_ = _))
  | .host _ | .read .. => isTrue trivial

/-- The operation of the Host that a timely step amounts to. The reading of a view is none. -/
def Label.onHost : Label → Option Host.Label
  | .host label => some label
  | .read .. => none
  | .commit announcement now answer =>
      some { operation := .announce announcement.codex announcement.requestID, now := now
             storage := { commit := answer } }

/-- The Host before a commit, with the announcement still to come. -/
def unread (host : Host.World) (announcement : Announcement) : Host.World :=
  { host with saved := (announcement.codex, announcement.requestID) :: host.saved }

/-- A timely commit is the announcement of the Host. -/
theorem commit_announces (config : Config) (host : Host.World) (announcement : Announcement)
    (now : Int) (commit : Commit)
    (remembered : host.manager.byID announcement.codex.codexId = some announcement.view) :
    Host.step config (unread host announcement)
        { operation := .announce announcement.codex announcement.requestID, now := now
          storage := { commit := commit } } =
      some (host.put (publishRead config host.manager announcement.codex announcement.view
        announcement.requestID now commit).1) := by
  simp [Host.step, perform, unread, World.put,
    publishCodex_of_read config host.manager announcement.codex announcement.view
      announcement.requestID now commit remembered]

/-- What the steps of the Host keep of the Manager is kept by timely steps. -/
theorem step_keeps (config : Config) (Holds : Manager → Prop)
    (Allowed : Manager → Host.Label → Prop)
    (kept : ∀ host label next, Holds host.manager → Allowed host.manager label →
      Host.step config host label = some next → Holds next.manager)
    (world next : World) (label : Label) (holds : Holds world.host.manager)
    (timely : Timely world label)
    (allowed : ∀ performed, label.onHost = some performed →
      Allowed world.host.manager performed)
    (stepped : step config world label = some next) : Holds next.host.manager := by
  cases label with
  | host performed =>
    obtain ⟨host, taken, rfl⟩ := map_eq_some_iff.mp stepped
    exact kept world.host performed host holds (allowed performed rfl) taken
  | read codex requestID =>
    simp only [step] at stepped
    split at stepped <;> cases stepped
    exact holds
  | commit announcement now commit =>
    have announced := commit_announces config world.host announcement now commit timely
    simp only [step] at stepped
    split at stepped <;> cases stepped
    exact kept (unread world.host announcement) _ _ holds (allowed _ rfl) announced

/-- `CreateCodex` of the sample Host has read the view for its announcement. -/
def sampleRead : Announcement :=
  { codex := createdCodex sampleConfig "cdx" sampleSession 5
    view := { codex := some (createdCodex sampleConfig "cdx" sampleSession 5)
              workspaceAccessState := some sampleAccess, generatedAtUnixMs := 5 }
    requestID := "create" }

/-- The Codex is created, and its announcement has read the view. -/
def sampleReading : List Label := [.host sampleCreate, .read sampleRead.codex "create"]

end CodexRemote.Announcements
