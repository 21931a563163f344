/-!
# Finite executions of a partial step function

A step function decides, for a state and a label, whether the label is enabled
there and which state follows. An execution takes a list of labels in order and
is refused as soon as one of them is not enabled. Every choice of a scheduler or
an environment is part of a label, so quantifying over label lists quantifies
over interleavings and over outcomes.

A condition on single steps restricts executions without restricting the step
function. The invariant rule is stated under such a condition once; invariants
of all executions are its case for the trivial condition.
-/
namespace Runs

universe u v
variable {State : Type u} {Label : Type v}

/-- Execute the labels in order. One label that is not enabled where it is
reached refuses the whole execution. -/
def run (step : State → Label → Option State) : State → List Label → Option State
  | state, [] => some state
  | state, label :: rest => (step state label).bind fun next => run step next rest

/-- Every label of the list is taken in a state that meets the condition. Labels
behind one that is not enabled are not reached and carry no obligation. -/
def Meets (step : State → Label → Option State) (Condition : State → Label → Prop) :
    State → List Label → Prop
  | _, [] => True
  | state, label :: rest =>
      Condition state label ∧
        ∀ next, step state label = some next → Meets step Condition next rest

/-- A decidable condition is decided along an execution by running it. -/
instance Meets.decidable (step : State → Label → Option State)
    (Condition : State → Label → Prop) [∀ state label, Decidable (Condition state label)] :
    (state : State) → (labels : List Label) → Decidable (Meets step Condition state labels)
  | _, [] => isTrue trivial
  | state, label :: rest =>
      match taken : step state label with
      | none => decidable_of_iff (Condition state label)
          ⟨fun holds => ⟨holds, by simp [taken]⟩, And.left⟩
      | some next =>
          have := Meets.decidable step Condition next rest
          decidable_of_iff (Condition state label ∧ Meets step Condition next rest)
            (and_congr_right fun _ => by simp [taken])

variable {labels : List Label}

section

variable (step : State → Label → Option State)
include step

/-- A condition that no state can break is met by every execution of labels that
satisfy it. -/
theorem meets_of_forall {Allowed : Label → Prop}
    (state : State) (allowed : ∀ label ∈ labels, Allowed label) :
    Meets step (fun _ label => Allowed label) state labels := by
  induction labels generalizing state with
  | nil => trivial
  | cons label rest ih =>
    refine ⟨allowed label (by simp), ?_⟩
    intro next _
    exact ih next fun other member => allowed other (by simp [member])

theorem meets_mono (Condition Weaker : State → Label → Prop)
    (implied : ∀ state label, Condition state label → Weaker state label) (state : State)
    (labels : List Label) (meets : Meets step Condition state labels) :
    Meets step Weaker state labels := by
  induction labels generalizing state with
  | nil => trivial
  | cons label rest ih =>
    exact ⟨implied state label meets.1, fun next taken => ih next (meets.2 next taken)⟩

/-- A condition that follows from an invariant is met by every execution that starts
under it. -/
theorem meets_of_invariant (Condition : State → Label → Prop) (Holds : State → Prop)
    (kept : ∀ state label next, Holds state → step state label = some next → Holds next)
    (implied : ∀ state label, Holds state → Condition state label) (state : State)
    (labels : List Label) (initially : Holds state) : Meets step Condition state labels := by
  induction labels generalizing state with
  | nil => trivial
  | cons label rest ih =>
    refine ⟨implied state label initially, ?_⟩
    intro next taken
    exact ih next (kept state label next initially taken)

/-- Two conditions are met together where each of them is. -/
theorem meets_and (First Second : State → Label → Prop) (state : State) (labels : List Label)
    (first : Meets step First state labels) (second : Meets step Second state labels) :
    Meets step (fun state label => First state label ∧ Second state label) state labels := by
  induction labels generalizing state with
  | nil => trivial
  | cons label rest ih =>
    refine ⟨⟨first.1, second.1⟩, ?_⟩
    intro next taken
    exact ih next (first.2 next taken) (second.2 next taken)

end

variable {step : State → Label → Option State}

/-- The condition along an execution is the condition at its first step and along
the rest. -/
theorem meets_cons_of_step (Condition : State → Label → Prop) {state next : State} {label : Label}
    (rest : List Label) (taken : step state label = some next) :
    Meets step Condition state (label :: rest) ↔
      Condition state label ∧ Meets step Condition next rest := by
  constructor
  · intro meets
    exact ⟨meets.1, meets.2 next taken⟩
  intro parts
  refine ⟨parts.1, ?_⟩
  intro other reached
  have same : next = other := Option.some.inj (taken.symm.trans reached)
  exact same ▸ parts.2

/-- What holds initially and is kept by every step that meets the condition
holds after every execution whose steps all meet it.

Proof: induction on the labels. The first step keeps the property, and the rest
is an execution from its successor that still meets the condition. -/
theorem run_invariant {start last : State} {Condition : State → Label → Prop}
    (Holds : State → Prop) (kept : ∀ state label next, Holds state → Condition state label →
      step state label = some next → Holds next)
    (initially : Holds start) (meets : Meets step Condition start labels)
    (ran : run step start labels = some last) : Holds last := by
  induction labels generalizing start with
  | nil =>
    have same : start = last := Option.some.inj ran
    exact same ▸ initially
  | cons label rest ih =>
    obtain ⟨next, taken, following⟩ := Option.bind_eq_some_iff.mp ran
    have following_meets := meets.2 next taken
    exact ih (kept start label next initially meets.1 taken) following_meets following

/-- The invariant rule for executions under no condition. -/
theorem run_kept (Holds : State → Prop)
    (kept : ∀ state label next, Holds state → step state label = some next → Holds next)
    (initially : Holds start)
    (ran : run step start labels = some last) : Holds last := by
  have free : Meets step (fun _ _ => True) start labels :=
    meets_of_forall step start fun _ _ => trivial
  apply run_invariant Holds _ initially free ran
  intro state label next holds _ taken
  exact kept state label next holds taken

/-- Some execution whose steps all meet the condition leads from one state to the other. -/
def Reaches (step : State → Label → Option State) (Condition : State → Label → Prop)
    (start last : State) : Prop :=
  ∃ labels, Meets step Condition start labels ∧ run step start labels = some last

section Reaches

variable {step : State → Label → Option State} {Condition : State → Label → Prop}

theorem Reaches.refl (state : State) : Reaches step Condition state state :=
  ⟨[], trivial, rfl⟩

/-- One step ahead of an execution. -/
theorem Reaches.head {start next last : State} (label : Label)
    (condition : Condition start label) (taken : step start label = some next)
    (rest : Reaches step Condition next last) : Reaches step Condition start last := by
  obtain ⟨labels, meets, ran⟩ := rest
  refine ⟨label :: labels, ?_, by simp [run, taken, ran]⟩
  exact (meets_cons_of_step Condition labels taken).mpr ⟨condition, meets⟩

theorem Reaches.trans {start middle last : State} (first : Reaches step Condition start middle)
    (second : Reaches step Condition middle last) : Reaches step Condition start last := by
  obtain ⟨labels, meets, ran⟩ := first
  induction labels generalizing start with
  | nil =>
    have same : start = middle := Option.some.inj ran
    exact same ▸ second
  | cons label rest ih =>
    obtain ⟨next, taken, following⟩ := Option.bind_eq_some_iff.mp ran
    exact .head label meets.1 taken (ih (meets.2 next taken) following)

theorem Reaches.mono {Weaker : State → Label → Prop}
    (implied : ∀ state label, Condition state label → Weaker state label)
    (reached : Reaches step Condition start last) : Reaches step Weaker start last := by
  obtain ⟨labels, meets, ran⟩ := reached
  exact ⟨labels, meets_mono step Condition Weaker implied start labels meets, ran⟩

/-- Executions from each state of a sequence to the one after it, put together. -/
theorem Reaches.iterate (state : Nat → State) (count : Nat)
    (advance : ∀ k < count, Reaches step Condition (state k) (state (k + 1))) :
    Reaches step Condition (state 0) (state count) := by
  induction count with
  | zero => exact .refl _
  | succ n ih =>
    have before := ih fun k below => advance k (Nat.lt_succ_of_lt below)
    exact before.trans (advance n (Nat.lt_succ_self n))

/-- The invariant rule for states that are reached. -/
theorem Reaches.invariant (Holds : State → Prop)
    (kept : ∀ state label next, Holds state → Condition state label →
      step state label = some next → Holds next)
    (reached : Reaches step Condition start last) (initially : Holds start) : Holds last := by
  obtain ⟨labels, meets, ran⟩ := reached
  exact run_invariant Holds kept initially meets ran

end Reaches

end Runs
