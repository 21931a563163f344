import Mathlib.Data.List.Basic

/-!
# Lists numbered by consecutive keys

A list is consecutive from a first number when its keys, read in order, are that
number and its successors without gap or repetition. The laws below say how such
a list grows at its end, what its suffixes are, and which of its elements a
closed interval of keys selects.
-/
namespace Numbering

open List Option

universe u
variable {Entry : Type u}

/-- The keys of the entries are `first`, `first + 1`, and so on. -/
def Consecutive (key : Entry → Nat) (first : Nat) (entries : List Entry) : Prop :=
  entries.map key = List.range' first entries.length

theorem consecutive_nil (key : Entry → Nat) (first : Nat) :
    Consecutive key first [] := rfl

variable {key : Entry → Nat} {entries : List Entry}

/-- Appending the entry that carries the next number keeps the numbering. -/
theorem consecutive_snoc {first : Nat} {entry : Entry} (numbered : Consecutive key first entries)
    (next : key entry = first + entries.length) : Consecutive key first (entries ++ [entry]) := by
  unfold Consecutive at numbered ⊢
  rw [map_append, numbered, length_append, length_singleton,
    range'_concat, map_singleton, next, Nat.one_mul]

/-- A suffix of a consecutive list is consecutive from the number after those
that were dropped. -/
theorem consecutive_drop {first : Nat} (count : Nat) (numbered : Consecutive key first entries) :
    Consecutive key (first + count) (entries.drop count) := by
  unfold Consecutive at numbered ⊢
  rw [map_drop, numbered, length_drop, drop_range', Nat.mul_one]

/-- A closed interval that ends at the last number selects exactly the numbers
from its start on, provided it does not start before the first number. -/
theorem interval_keys {first start last : Nat} (numbered : Consecutive key first entries)
    (ends : first + entries.length = last + 1) (within : first ≤ start) :
    (entries.filter fun entry => decide (start ≤ key entry) && decide (key entry ≤ last)).map
      key = List.range' start (last + 1 - start) := by
  have mapped : (entries.filter fun entry =>
      decide (start ≤ key entry) && decide (key entry ≤ last)).map key =
      (entries.map key).filter fun number =>
        decide (start ≤ number) && decide (number ≤ last) := by
    rw [List.filter_map]
    rfl
  rw [mapped, numbered]
  by_cases late : last + 1 ≤ start
  · have none_selected : ∀ number ∈ range' first entries.length,
        ¬ (decide (start ≤ number) && decide (number ≤ last)) = true := by
      intro number listed
      have bounds := mem_range'_1.mp listed
      simp only [Bool.and_eq_true, decide_eq_true_eq]
      omega
    have empty : last + 1 - start = 0 := by omega
    rw [filter_eq_nil_iff.mpr none_selected, empty]
    rfl
  · have count : entries.length = (start - first) + (last + 1 - start) := by omega
    have boundary : first + 1 * (start - first) = start := by omega
    rw [count, ← range'_append, boundary, filter_append]
    have early : ∀ number ∈ range' first (start - first),
        ¬ (decide (start ≤ number) && decide (number ≤ last)) = true := by
      intro number listed
      have bounds := mem_range'_1.mp listed
      simp only [Bool.and_eq_true, decide_eq_true_eq]
      omega
    have selected : ∀ number ∈ range' start (last + 1 - start),
        (decide (start ≤ number) && decide (number ≤ last)) = true := by
      intro number listed
      have bounds := mem_range'_1.mp listed
      simp only [Bool.and_eq_true, decide_eq_true_eq]
      omega
    rw [filter_eq_nil_iff.mpr early, filter_eq_self.mpr selected, nil_append]

end Numbering
