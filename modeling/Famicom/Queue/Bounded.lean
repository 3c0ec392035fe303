/-!
# Bounded queues

A queue that holds at most a fixed number of elements and makes room for a new one by dropping its
oldest. It is kept as two lists, so that every operation takes constant time on average. Every
operation comes with a lemma that says what it does to the list of elements, so the two lists matter
nowhere else.

## Main definitions

* `BoundedQueue` — the queue
* `BoundedQueue.toList` — its elements, oldest first
* `BoundedQueue.push`, `BoundedQueue.resize`, `BoundedQueue.clear`

## Main results

* `BoundedQueue.toList_push` — a new element comes last, and costs a full queue its first one
* `BoundedQueue.toList_resize` — less room costs the elements that came first
-/

namespace Famicom

/-- A queue of at most `capacity` elements. -/
structure BoundedQueue (α : Type) where
  capacity : Nat
  /-- The older elements, oldest first. -/
  older : List α := []
  /-- The newer elements, newest first. -/
  newer : List α := []
  size : Nat := 0
  size_eq : size = older.length + newer.length := by rfl

namespace BoundedQueue

variable {α : Type}

/-- The queue without elements. -/
def empty (capacity : Nat) : BoundedQueue α :=
  { capacity }

/-- The elements, oldest first. -/
def toList (q : BoundedQueue α) : List α :=
  q.older ++ q.newer.reverse

/-- The queue of a list, oldest first. -/
def ofList (capacity : Nat) (elements : List α) : BoundedQueue α :=
  { capacity, older := elements, size := elements.length }

/-- The queue without its oldest element. -/
def dropOldest (q : BoundedQueue α) : BoundedQueue α :=
  match q with
  | ⟨capacity, _ :: older, newer, size, size_eq⟩ =>
    ⟨capacity, older, newer, size - 1, by
      rw [size_eq, List.length_cons]
      omega⟩
  | ⟨capacity, [], newer, size, size_eq⟩ =>
    ⟨capacity, newer.reverse.tail, [], size - 1, by
      rw [size_eq, List.length_tail, List.length_reverse, List.length_nil]
      omega⟩

/-- Adds a newest element. -/
def append (q : BoundedQueue α) (a : α) : BoundedQueue α :=
  match q with
  | ⟨capacity, older, newer, size, size_eq⟩ =>
    ⟨capacity, older, a :: newer, size + 1, by
      rw [size_eq, List.length_cons]
      omega⟩

/-- Adds a newest element; a full queue drops its oldest first, and one without room stays empty. -/
def push (q : BoundedQueue α) (a : α) : BoundedQueue α :=
  if q.capacity = 0 then q
  else if q.capacity ≤ q.size then q.dropOldest.append a
  else q.append a

/-- Changes the room and drops the oldest elements that it no longer holds. -/
def resize (q : BoundedQueue α) (capacity : Nat) : BoundedQueue α :=
  if q.size ≤ capacity then
    { q with capacity }
  else
    ofList capacity (q.toList.drop (q.size - capacity))

/-- The queue with the same room and no elements. -/
def clear (q : BoundedQueue α) : BoundedQueue α :=
  empty q.capacity

/-- The newest elements, newest first, at most `limit` of them. -/
def newest (q : BoundedQueue α) (limit : Nat) : List α :=
  q.toList.reverse.take limit

/-! ### The elements after an operation -/

@[simp] theorem length_toList (q : BoundedQueue α) : q.toList.length = q.size := by
  rw [toList, List.length_append, List.length_reverse, q.size_eq]

@[simp] theorem toList_empty (capacity : Nat) : (empty capacity : BoundedQueue α).toList = [] :=
  rfl

@[simp] theorem toList_ofList (capacity : Nat) (elements : List α) :
    (ofList capacity elements).toList = elements :=
  List.append_nil elements

@[simp] theorem toList_dropOldest (q : BoundedQueue α) : q.dropOldest.toList = q.toList.tail := by
  unfold dropOldest toList
  split <;> simp

@[simp] theorem toList_append (q : BoundedQueue α) (a : α) :
    (q.append a).toList = q.toList ++ [a] := by
  simp [append, toList]

theorem toList_push (q : BoundedQueue α) (a : α) :
    (q.push a).toList =
      if q.capacity = 0 then q.toList
      else if q.capacity ≤ q.size then q.toList.tail ++ [a]
      else q.toList ++ [a] := by
  unfold push
  split
  · rfl
  · split <;> simp

@[simp] theorem toList_resize (q : BoundedQueue α) (capacity : Nat) :
    (q.resize capacity).toList = q.toList.drop (q.size - capacity) := by
  unfold resize
  split
  · rename_i fits
    rw [Nat.sub_eq_zero_of_le fits, List.drop_zero]
    rfl
  · exact toList_ofList _ _

@[simp] theorem toList_clear (q : BoundedQueue α) : q.clear.toList = [] :=
  rfl

@[simp] theorem capacity_dropOldest (q : BoundedQueue α) : q.dropOldest.capacity = q.capacity := by
  unfold dropOldest
  split <;> rfl

@[simp] theorem capacity_push (q : BoundedQueue α) (a : α) :
    (q.push a).capacity = q.capacity := by
  unfold push
  split
  · rfl
  · split
    · exact capacity_dropOldest q
    · rfl

@[simp] theorem capacity_resize (q : BoundedQueue α) (capacity : Nat) :
    (q.resize capacity).capacity = capacity := by
  unfold resize
  split <;> rfl

end BoundedQueue

end Famicom
