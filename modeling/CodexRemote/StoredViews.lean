import CodexRemote.Translation

/-!
# Stored views of an older version

`migrateUserMessageInput` of `internal/codex/manager.go` renames a member of old user messages before
a stored view is read once more. The source renames it in place when it visits the object around the
message, just before it visits the message. Here the visit of a value is told whether it stands
under `userMessage`. A decoded object has one member of a name.
-/
namespace CodexRemote.StoredViews

open Adapter

/-- A message has `input` and no `parts`. -/
def legacy (keys : List String) : Bool := "input" ∈ keys ∧ "parts" ∉ keys

def renamed (legacy : Bool) (key : String) : String :=
  if legacy ∧ key = "input" then "parts" else key

mutual

def migrateUserMessageInput (message : Bool) : Json → Json
  | .array values => .array (migrateValues values)
  | .object fields => .object (migrateFields (message && legacy (fields.map Prod.fst)) fields)
  | value => value

def migrateValues : List Json → List Json
  | [] => []
  | value :: rest => migrateUserMessageInput false value :: migrateValues rest

def migrateFields (renames : Bool) : Body → Body
  | [] => []
  | (key, value) :: rest =>
      (renamed renames key, migrateUserMessageInput (key = "userMessage") value) ::
        migrateFields renames rest

end

mutual

/-- No message in a value has the old form. -/
def Current (message : Bool) : Json → Prop
  | .array values => CurrentValues values
  | .object fields => (message && legacy (fields.map Prod.fst)) = false ∧ CurrentFields fields
  | _ => True

def CurrentValues : List Json → Prop
  | [] => True
  | value :: rest => Current false value ∧ CurrentValues rest

def CurrentFields : Body → Prop
  | [] => True
  | (key, value) :: rest => Current (key = "userMessage") value ∧ CurrentFields rest

end

theorem migrateFields_keys (renames : Bool) (fields : Body) :
    (migrateFields renames fields).map Prod.fst = (fields.map Prod.fst).map (renamed renames) := by
  induction fields with
  | nil => rfl
  | cons field rest later => simp [migrateFields, later]

/-- A message is of the new form once its members are renamed. -/
theorem legacy_renamed (message : Bool) (keys : List String) :
    (message && legacy (keys.map (renamed (message && legacy keys)))) = false := by
  cases old : message && legacy keys with
  | false =>
    have same : renamed false = id := by
      funext key
      simp [renamed]
    rw [same, List.map_id, old]
  | true =>
    obtain ⟨rfl, input, -⟩ : message = true ∧ "input" ∈ keys ∧ "parts" ∉ keys := by
      simpa [legacy] using old
    have parts : "parts" ∈ keys.map (renamed true) := List.mem_map.mpr ⟨"input", input, rfl⟩
    simp [legacy, parts]

theorem renamed_userMessage (renames : Bool) (key : String) :
    renamed renames key = "userMessage" ↔ key = "userMessage" := by
  unfold renamed
  split
  · next is => simp [is.2]
  · rfl

mutual

theorem migrate_current (message : Bool) :
    ∀ value, Current message (migrateUserMessageInput message value)
  | .array values => migrateValues_current values
  | .object fields => by
    refine ⟨?_, migrateFields_current _ fields⟩
    rw [migrateFields_keys]
    exact legacy_renamed message _
  | .null | .bool _ | .number _ | .string _ => trivial

theorem migrateValues_current : ∀ values, CurrentValues (migrateValues values)
  | [] => trivial
  | value :: rest => ⟨migrate_current false value, migrateValues_current rest⟩

theorem migrateFields_current (renames : Bool) :
    ∀ fields, CurrentFields (migrateFields renames fields)
  | [] => trivial
  | (key, value) :: rest => by
    refine ⟨?_, migrateFields_current renames rest⟩
    simp only [renamed_userMessage]
    exact migrate_current _ value

end

mutual

theorem migrate_unchanged (message : Bool) :
    ∀ value, Current message value → migrateUserMessageInput message value = value
  | .array values, current => congrArg Json.array (migrateValues_unchanged values current)
  | .object fields, ⟨new, current⟩ => by
    rw [migrateUserMessageInput, new, migrateFields_unchanged fields current]
  | .null, _ | .bool _, _ | .number _, _ | .string _, _ => rfl

theorem migrateValues_unchanged :
    ∀ values, CurrentValues values → migrateValues values = values
  | [], _ => rfl
  | value :: rest, ⟨first, others⟩ => by
    rw [migrateValues, migrate_unchanged false value first, migrateValues_unchanged rest others]

theorem migrateFields_unchanged :
    ∀ fields, CurrentFields fields → migrateFields false fields = fields
  | [], _ => rfl
  | (key, value) :: rest, ⟨first, others⟩ => by
    rw [migrateFields, migrate_unchanged _ value first, migrateFields_unchanged rest others]
    simp [renamed]

end

/-- The migration of a value leaves no message of the old form, changes exactly the values that have
one, and done twice is the same as done once. -/
theorem migrated_once (value : Json) :
    Current false (migrateUserMessageInput false value) ∧
      (migrateUserMessageInput false value = value ↔ Current false value) ∧
      migrateUserMessageInput false (migrateUserMessageInput false value) =
        migrateUserMessageInput false value := by
  have current := migrate_current false value
  refine ⟨current, ⟨?_, migrate_unchanged false value⟩, migrate_unchanged false _ current⟩
  intro same
  exact same ▸ current

end CodexRemote.StoredViews
