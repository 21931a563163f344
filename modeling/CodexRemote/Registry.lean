import Mathlib.Data.List.Basic
import CodexRemote.History

/-!
# Registrations of live watchers

A registration is an address in the heap of channels. Methods take registrations
away; only a watch adds one, at an address nothing has used. Hence registrations
are distinct and each belongs to one Codex, in every run and for every outcome of
every commit.
-/
namespace CodexRemote.Activity

open Protocol Persistence Function List Option Machine

variable {addresses : List Nat} {address : Nat} {m next : Machine} {world : World}

variable (event : Event)

/-- The delivery loop touches only the channels it visits. -/
theorem offer_other (heap : Nat → Watcher) (outside : address ∉ addresses) :
    (offer event addresses heap).2 address = heap address := by
  induction addresses generalizing heap with
  | nil => rfl
  | cons first rest ih =>
    have distinct : address ≠ first := fun same => outside (by simp [same])
    have behind : address ∉ rest := fun member => outside (by simp [member])
    unfold offer
    simp only
    split
    · rw [ih _ behind, update_of_ne distinct]
    · rw [ih _ behind, update_of_ne distinct]

/-- The registrations that survive are among those visited, in order. -/
theorem offer_sublist (addresses : List Nat) (heap : Nat → Watcher) :
    (offer event addresses heap).1.Sublist addresses := by
  induction addresses generalizing heap with
  | nil => exact List.Sublist.refl []
  | cons first rest ih =>
    unfold offer
    simp only
    split
    · exact (ih _).cons_cons first
    · exact (ih _).cons first

/-- Every visited channel either receives the event and stays registered, or
loses its registration and has its slow signal raised.

Proof: induction on the visited addresses. They are distinct, so what happens to
the first is not changed by the visits behind it. -/
theorem offer_member (heap : Nat → Watcher) (distinct : addresses.Nodup)
    (member : address ∈ addresses) :
    let (kept, after) := offer event addresses heap
    (address ∈ kept ∧
      after address = { heap address with events := (heap address).events ++ [event] }) ∨
    (address ∉ kept ∧ after address = { heap address with slow := true }) := by
  induction addresses generalizing heap with
  | nil => cases member
  | cons first rest ih =>
    obtain ⟨absent, rest_distinct⟩ := nodup_cons.mp distinct
    rcases mem_cons.mp member with rfl | behind
    · unfold offer
      simp only
      split
      · refine .inl ⟨mem_cons_self, ?_⟩
        rw [offer_other _ _ absent, update_self]
      · refine .inr ⟨fun kept => absent ((offer_sublist ..).subset kept), ?_⟩
        rw [offer_other _ _ absent, update_self]
    · have other : address ≠ first := fun same => absent (same ▸ behind)
      unfold offer
      simp only
      split
      · have tail := ih (update heap first
          { heap first with events := (heap first).events ++ [event] }) rest_distinct behind
        simpa [update_of_ne other, other] using tail
      · have tail := ih (update heap first { heap first with slow := true }) rest_distinct behind
        simpa [update_of_ne other] using tail

/-- Registrations are distinct allocated addresses, each of one Codex. -/
structure Registry (m : Machine) : Prop where
  allocated : ∀ codexID, ∀ address ∈ m.registered codexID, address < m.allocated
  distinct : ∀ codexID, (m.registered codexID).Nodup
  separate : ∀ codexID other address, address ∈ m.registered codexID →
    address ∈ m.registered other → codexID = other

/-- Losing registrations keeps the registry. -/
theorem registry_sublist (registry : Registry m) (grown : m.allocated ≤ next.allocated)
    (fewer : ∀ codexID, (next.registered codexID).Sublist (m.registered codexID)) :
    Registry next := by
  constructor
  · intro codexID address member
    exact Nat.lt_of_lt_of_le
      (registry.allocated codexID address ((fewer codexID).subset member)) grown
  · intro codexID
    exact (registry.distinct codexID).sublist (fewer codexID)
  · intro codexID other address first second
    exact registry.separate codexID other address ((fewer codexID).subset first)
      ((fewer other).subset second)

theorem start_registered (start : Start world) (codexID : String) :
    world.machine.registered codexID = [] := by
  simp [registered, start.streams codexID]

theorem start_registry (start : Start world) : Registry world.machine := by
  constructor
  · intro codexID address member
    simp [start_registered start] at member
  · intro codexID
    simp [start_registered start]
  · intro codexID other address member
    simp [start_registered start] at member

/-- Adding the next free address to one Codex keeps the registry. -/
theorem registry_opened (registry : Registry m) (allocated : next.allocated = m.allocated + 1)
    (registered : ∀ codexID, next.registered codexID =
      if codexID = opened then m.registered opened ++ [m.allocated]
      else m.registered codexID) : Registry next := by
  have older : ∀ codexID, ∀ address ∈ m.registered codexID, address ≠ m.allocated :=
    fun codexID address member => Nat.ne_of_lt (registry.allocated codexID address member)
  constructor
  · intro codexID address member
    rw [registered] at member
    split at member
    · rcases mem_append.mp member with earlier | last
      · have below := registry.allocated _ address earlier
        omega
      · have fresh := mem_singleton.mp last
        omega
    · have below := registry.allocated _ address member
      omega
  · intro codexID
    rw [registered]
    split
    · refine nodup_append.mpr ⟨registry.distinct opened, by simp, ?_⟩
      intro first earlier second last
      rw [mem_singleton.mp last]
      exact older opened first earlier
    · exact registry.distinct codexID
  · intro first second address left right
    rw [registered] at left right
    split at left <;> split at right
    · next one two => rw [one, two]
    · next one two =>
      rcases mem_append.mp left with earlier | last
      · exact one ▸ registry.separate opened second address earlier right
      · exact (older second address right (mem_singleton.mp last)).elim
    · next one two =>
      rcases mem_append.mp right with earlier | last
      · exact two ▸ registry.separate first opened address left earlier
      · exact (older first address left (mem_singleton.mp last)).elim
    · exact registry.separate first second address left right

theorem registered_put (m : Machine) (codexID other : String) (st : Stream) :
    (m.put codexID st).registered other =
      if other = codexID then st.watchers else m.registered other := by
  by_cases same : other = codexID
  · simp [registered, put, same]
  · simp [registered, put, same]

theorem put_sublist (m next : Machine) (codexID other : String) (st : Stream)
    (streams : next.codex = m.codex) (fewer : st.watchers.Sublist (m.registered codexID)) :
    ((next.put codexID st).registered other).Sublist (m.registered other) := by
  rw [registered_put]
  split
  · next same =>
    rw [same]
    exact fewer
  · simp only [registered, streams]
    exact List.Sublist.refl _

/-- A Codex without a stream, or with one that nobody watches, has no registrations. -/
theorem ended_registered (other : String) (streams : next.codex = update m.codex codexID stream)
    (ended : ∀ st, stream = some st → st.watchers = []) :
    next.registered other = if other = codexID then [] else m.registered other := by
  by_cases same : other = codexID
  · cases stream with
    | none => simp [registered, streams, same]
    | some st => simp [registered, streams, same, ended st rfl]
  · simp [registered, streams, same]

/-- The terminal delivery loop touches only the channels it visits. -/
theorem terminate_other (heap : Nat → Watcher) (outside : address ∉ addresses) :
    terminate event addresses heap address = heap address := by
  induction addresses generalizing heap with
  | nil => rfl
  | cons first rest ih =>
    have distinct : address ≠ first := fun same => outside (by simp [same])
    have behind : address ∉ rest := fun member => outside (by simp [member])
    unfold terminate
    simp only
    rw [ih _ behind, update_of_ne distinct]

/-- What a step does to registrations: it takes some away, or it adds the next free
address to one Codex. -/
theorem step_registered (world next : World) (action : Action)
    (stepped : step world action = some next) :
    (next.machine.allocated = world.machine.allocated ∧
      ∀ codexID, (next.machine.registered codexID).Sublist
        (world.machine.registered codexID)) ∨
    ∃ opened, next.machine.allocated = world.machine.allocated + 1 ∧
      ∀ codexID, next.machine.registered codexID =
        if codexID = opened then world.machine.registered opened ++ [world.machine.allocated]
        else world.machine.registered codexID := by
  cases step_moves world next action stepped with
  | wrote | rested | repeated | read => exact .inl ⟨rfl, fun _ => List.Sublist.refl _⟩
  | refreshed _ codexID st heap named refreshed fewer channels =>
    exact .inl ⟨rfl, fun other => put_sublist _ _ codexID other st rfl fewer⟩
  | opened _ codexID st after queue answers named ensured =>
    refine .inr ⟨codexID, rfl, fun other => ?_⟩
    simp only [World.opened, watchLocked, registered_put, (ensure_registered ensured).1]
    rfl
  | lost given view now marshals outcome answers reloads st disk error ensured moved =>
    refine .inl ⟨rfl, fun other => put_sublist _ _ given.codexId other _ rfl ?_⟩
    rw [(reloadUnsafe_fields disk given.codexId reloads st).2.1, (ensure_registered ensured).1]
  | exposed given view now marshals outcome answers reloads st row raw shown ensured stored =>
    refine .inl ⟨rfl, fun other => put_sublist _ _ given.codexId other _ rfl ?_⟩
    rw [← (ensure_registered ensured).1]
    exact offer_sublist ..
  | announced codexID requestID now outcome answers st after error _ _ allocated streams _ _ =>
    refine .inl ⟨allocated, fun other => ?_⟩
    have ended := ended_registered other streams (by rintro _ ⟨⟩; rfl)
    simp only [World.afterForget, ended]
    split <;> simp
  | deleted codexID requestID now outcome answers st after _ _ allocated streams _ _ =>
    refine .inl ⟨allocated, fun other => ?_⟩
    have ended := ended_registered other streams (by rintro _ ⟨⟩)
    simp only [World.afterForget, ended]
    split <;> simp
  | restarted replayCapacity => exact .inl ⟨rfl, fun _ => nil_sublist _⟩

/-- Registrations stay distinct, allocated and separate. -/
theorem step_registry {next : World} (registry : Registry world.machine)
    (stepped : step world action = some next) : Registry next.machine := by
  obtain ⟨allocated, fewer⟩ | ⟨opened, allocated, registered⟩ :=
    step_registered world next action stepped
  · exact registry_sublist registry (Nat.le_of_eq allocated.symm) fewer
  · exact registry_opened registry allocated registered

end CodexRemote.Activity
