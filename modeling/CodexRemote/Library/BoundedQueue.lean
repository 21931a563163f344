/-!
# Bounded first-in first-out queues

A queue carries its bound: no operation can build one with more items than fit. Putting an
item into a full queue and taking one from an empty queue have no result, which is how a
sender and a receiver block.
-/
universe u

/-- At most `capacity` items, the oldest first. -/
structure BoundedQueue (α : Type u) (capacity : Nat) where
  items : List α
  bounded : items.length ≤ capacity

namespace BoundedQueue

variable {α : Type u} {capacity : Nat}

def empty : BoundedQueue α capacity := ⟨[], Nat.zero_le _⟩

def length (queue : BoundedQueue α capacity) : Nat := queue.items.length

/-- A sender blocks. -/
def Full (queue : BoundedQueue α capacity) : Prop := queue.length = capacity

instance (queue : BoundedQueue α capacity) : Decidable queue.Full :=
  inferInstanceAs (Decidable (queue.length = capacity))

def push (queue : BoundedQueue α capacity) (item : α) : Option (BoundedQueue α capacity) :=
  if room : queue.length < capacity then
    some ⟨queue.items ++ [item], by rwa [List.length_append, List.length_singleton]⟩
  else none

def pop : BoundedQueue α capacity → Option (α × BoundedQueue α capacity)
  | ⟨[], _⟩ => none
  | ⟨item :: rest, bounded⟩ => some (item, ⟨rest, Nat.le_of_succ_le bounded⟩)

variable {queue next : BoundedQueue α capacity} {item : α} {count : Nat}

theorem push_items (pushed : queue.push item = some next) : next.items = queue.items ++ [item] := by
  unfold push at pushed
  split at pushed <;> cases pushed
  rfl

theorem push_length (pushed : queue.push item = some next) : next.length = queue.length + 1 := by
  rw [length, push_items pushed, List.length_append]
  rfl

theorem push_of_full {queue : BoundedQueue α capacity} (item : α) (full : queue.Full) :
    queue.push item = none := by
  unfold push
  rw [dif_neg (by rw [full]; exact Nat.lt_irrefl _)]

theorem pop_items (popped : queue.pop = some (item, next)) : queue.items = item :: next.items := by
  obtain ⟨items, bounded⟩ := queue
  cases items with
  | nil => cases popped
  | cons first rest =>
    cases popped
    rfl

theorem pop_length (popped : queue.pop = some (item, next)) : queue.length = next.length + 1 := by
  rw [length, pop_items popped]
  rfl

/-- As many copies of an item as fit, up to a number of them. -/
def copies (count : Nat) (item : α) : BoundedQueue α capacity :=
  ⟨List.replicate (min count capacity) item, by
    rw [List.length_replicate]
    exact Nat.min_le_right _ _⟩

theorem copies_zero (item : α) : (copies 0 item : BoundedQueue α capacity) = empty := by
  simp [copies, empty]

theorem length_copies (item : α) (fits : count ≤ capacity) :
    (copies count item : BoundedQueue α capacity).length = count := by
  simp [copies, length, fits]

theorem push_copies (item : α) (room : count < capacity) :
    (copies count item : BoundedQueue α capacity).push item = some (copies (count + 1) item) := by
  have here : min count capacity = count := Nat.min_eq_left (Nat.le_of_lt room)
  have next : min (count + 1) capacity = count + 1 := Nat.min_eq_left room
  have shorter : (copies count item : BoundedQueue α capacity).length < capacity := by
    rw [length_copies item (Nat.le_of_lt room)]
    exact room
  unfold push
  rw [dif_pos shorter]
  simp only [copies, here, next, List.replicate_succ']

theorem pop_copies (item : α) (fits : count < capacity) :
    (copies (count + 1) item : BoundedQueue α capacity).pop = some (item, copies count item) := by
  have here : min count capacity = count := Nat.min_eq_left (Nat.le_of_lt fits)
  have next : min (count + 1) capacity = count + 1 := Nat.min_eq_left fits
  simp only [copies, here, next, List.replicate_succ, pop]

end BoundedQueue
