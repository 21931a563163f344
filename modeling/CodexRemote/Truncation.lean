import CodexRemote.Views

/-!
# The remark of a clipped event

An event that does not fit its budget is clipped and says so. The event of a notification and
the view it changes are clipped one after the other.
-/
namespace CodexRemote.Truncation

open Protocol Budget Codexes Option

/-- The remark that something was cut. -/
def Marked (complete : Option Completeness) : Prop :=
  ∃ remark, complete = some remark ∧ remark.truncated = true ∧ remark.incomplete = true

theorem Marked.merge_left (dst src : Option Completeness) (marked : Marked dst) :
    Marked (mergeCompleteness dst src) := by
  obtain ⟨remark, rfl, truncated, incomplete⟩ := marked
  cases src with
  | none => exact ⟨remark, rfl, truncated, incomplete⟩
  | some other => exact ⟨_, rfl, by simp [truncated], by simp [incomplete]⟩

theorem Marked.merge_right (dst src : Option Completeness) (marked : Marked src) :
    Marked (mergeCompleteness dst src) := by
  obtain ⟨remark, rfl, truncated, incomplete⟩ := marked
  cases dst with
  | none => exact ⟨remark, rfl, truncated, incomplete⟩
  | some other => exact ⟨_, rfl, by simp [truncated], by simp [incomplete]⟩

theorem marked_budget (original : Nat) (reason : String) :
    Marked (budgetCompleteness original reason) :=
  ⟨_, rfl, rfl, rfl⟩

/-- An event that does not fit is marked. -/
theorem boundCanonicalEvent_marks (sizes : Sizes) (configured : Int) (event : Event) :
    sizes.event event ≤ collectionBudget configured ∧
        boundCanonicalEvent sizes configured event = event ∨
      Marked (boundCanonicalEvent sizes configured event).completeness := by
  by_cases fits : sizes.event event ≤ collectionBudget configured
  · left
    simp only [boundCanonicalEvent, fits, if_true, and_self]
  right
  have cut : ∀ complete, Marked (mergeCompleteness event.completeness
      (mergeCompleteness complete (some (budgetCompleteness (sizes.event event)
        "canonical event exceeds C/S frame budget")))) :=
    fun complete => ((marked_budget _ _).merge_right complete _).merge_right _ _
  -- The last step changes the reason only.
  have worded : ∀ marked : Event, Marked marked.completeness →
      Marked (if sizes.event marked ≤ collectionBudget configured then marked
        else { marked with
          completeness := marked.completeness.map fun complete =>
            { complete with reason := text "frame budget" } }).completeness := by
    rintro marked ⟨remark, made, truncated, incomplete⟩
    split
    · exact ⟨remark, made, truncated, incomplete⟩
    · exact ⟨{ remark with reason := text "frame budget" }, by simp only [made, map_some],
        truncated, incomplete⟩
  dsimp only [boundCanonicalEvent]
  rw [if_neg fits]
  exact worded _ (cut _)

/-- The event of a notification and the changed view as the clipping takes them. -/
def unbounded (configured : Int) (manualTitle : Bool) (chunk : Nat) (now : Int)
    (codexID : String) (notice : AdapterEvent) (view : CurrentView) :
    Option (Event × CurrentView) :=
  (applyBody (contentBudget configured) manualTitle chunk now notice view).map
    fun (changed, body, complete) =>
      ({ codexId := codexID, occurredAtUnixMs := now, completeness := complete, body := body },
        { changed with generatedAtUnixMs := now })

end CodexRemote.Truncation
