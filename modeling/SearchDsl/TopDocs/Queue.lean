/-!
# `SearchDsl.TopDocs.Queue`: a priority queue in an array-shaped binary tree

The element at position `i` has its children at `2 * i + 1` and `2 * i + 2`. With a consistent order
no element comes later than its children, and the first element comes first of all.

The order is given as `noLater a b`, which says that `a` may come out before `b`. Nothing here
relies on its being consistent: which element comes out is determined for every relation by the
layout of the tree and by the sequence of comparisons, which are part of what these functions
promise.
-/

set_option autoImplicit false

namespace SearchDsl

/-- Elements in the layout of a binary tree. -/
structure Queue (α : Type) where
  size : Nat
  items : Vector α size

namespace Queue

variable {α : Type} (noLater : α → α → Bool)

/-- The child of a position that comes first. Of two children that may each come first it is the
second one. -/
def firstChild? {n : Nat} (items : Vector α n) (i : Nat) : Option (Fin n) :=
  if right : 2 * i + 2 < n then
    if noLater items[2 * i + 2] items[2 * i + 1] then some ⟨2 * i + 2, right⟩
    else some ⟨2 * i + 1, by omega⟩
  else if left : 2 * i + 1 < n then some ⟨2 * i + 1, left⟩
  else none

/-- A child stands after its parent, so moving down ends. -/
theorem lt_of_firstChild?_eq_some {n : Nat} {items : Vector α n} {i : Nat} {child : Fin n}
    (h : firstChild? noLater items i = some child) : i < child := by
  unfold firstChild? at h
  split at h
  · split at h <;> (obtain rfl := Option.some.inj h; simp only; omega)
  · split at h
    · obtain rfl := Option.some.inj h; simp only; omega
    · simp at h

/-- Moves an element up until its parent may come out before it. -/
def siftUp {n : Nat} (items : Vector α n) (i : Fin n) : Vector α n :=
  if i.val = 0 then items
  else
    let parent : Fin n := ⟨(i.val - 1) / 2, by omega⟩
    if noLater items[parent] items[i] then items
    else siftUp (items.swap parent i) parent
termination_by i.val
decreasing_by omega

/-- Moves an element down until it may come out before its first child. -/
def siftDown {n : Nat} (items : Vector α n) (i : Fin n) : Vector α n :=
  match _h : firstChild? noLater items i with
  | none => items
  | some child =>
      if noLater items[i] items[child] then items
      else siftDown (items.swap i child) child
termination_by n - i.val
decreasing_by
  have := lt_of_firstChild?_eq_some noLater _h
  omega

/-- Moves an element down along the first children to a position without children. -/
def siftToBottom {n : Nat} (items : Vector α n) (i : Fin n) : Vector α n × Fin n :=
  match _h : firstChild? noLater items i with
  | none => (items, i)
  | some child => siftToBottom (items.swap i child) child
termination_by n - i.val
decreasing_by
  have := lt_of_firstChild?_eq_some noLater _h
  omega

/-- Sifts down the elements before a position, the last one first. -/
def siftAllDown {n : Nat} (items : Vector α n) : (count : Nat) → count ≤ n → Vector α n
  | 0, _ => items
  | count + 1, h => siftAllDown (siftDown noLater items ⟨count, h⟩) count (by omega)

/-- A queue of the given elements. -/
def ofList (elements : List α) : Queue α :=
  let items : Vector α elements.length := ⟨elements.toArray, by simp⟩
  ⟨elements.length, siftAllDown noLater items (elements.length / 2) (by omega)⟩

/-- Adds an element. -/
def push (queue : Queue α) (element : α) : Queue α :=
  ⟨queue.size + 1, siftUp noLater (queue.items.push element) (Fin.last queue.size)⟩

/-- Takes the first element out. The last element of the tree takes its place, moves down to the
bottom and from there up to where it belongs. -/
def pop? (queue : Queue α) : Option (α × Queue α) :=
  match queue with
  | ⟨0, _⟩ => none
  | ⟨n + 1, items⟩ =>
      let rest := items.pop
      if h : 0 < n then
        let (moved, i) := siftToBottom noLater (rest.set 0 items.back) ⟨0, h⟩
        some (rest[0], ⟨n, siftUp noLater moved i⟩)
      else some (items.back, ⟨n, rest⟩)

end Queue

end SearchDsl
