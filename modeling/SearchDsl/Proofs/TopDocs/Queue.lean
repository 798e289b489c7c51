import SearchDsl.TopDocs.Queue

/-!
# `SearchDsl.Proofs.TopDocs.Queue`: what comes out of a queue

Two groups of facts, with different assumptions on the relation `noLater`.

* For any relation a queue neither loses nor duplicates elements: `toList_ofList`, `toList_push` and
  `toList_pop?` say what each operation does to the elements, up to their arrangement.
* `Consistent` asks for a total and transitive relation among the elements that occur. Then
  `ofList_isHeap`, `push_isHeap` and `pop?_isHeap` keep every element in order with its parent, and
  `noLater_of_pop?` says that nothing has to come out before the element that does.

The sifts move one element at a time, so each is described by the state between two moves:
`UpReady` and `DownReady` allow the moving element to be out of order with its parent and with its
children, and `Hole` allows both. All three ask that the children of the moving element are in order
with its parent. An exchange then restores the same condition one level up or down.
-/

set_option autoImplicit false

namespace SearchDsl.Queue

variable {α : Type} {n : Nat} (noLater : α → α → Bool)

/-- The elements of a queue, in the layout of the tree. -/
def toList (queue : Queue α) : List α := queue.items.toList

/-- The position of a parent is in the tree. -/
theorem halved_lt (i : Fin n) : (i.val - 1) / 2 < n := by
  have := i.isLt
  omega

/-- The position of the parent. The first position counts as its own. -/
def parent (i : Fin n) : Fin n := ⟨(i.val - 1) / 2, halved_lt i⟩

/-- The elements at two positions change places. -/
def exchange (items : Vector α n) (i k : Fin n) : Vector α n := items.swap i k i.isLt k.isLt

/-! ### One move at a time -/

/-- The first child is a child. -/
theorem parent_firstChild? {items : Vector α n} {i child : Fin n}
    (h : firstChild? noLater items i = some child) : parent child = i ∧ child.val ≠ 0 := by
  unfold firstChild? at h
  split at h
  · split at h
    · obtain rfl := Option.some.inj h
      exact ⟨Fin.ext (by simp only [parent]; omega), by simp⟩
    · obtain rfl := Option.some.inj h
      exact ⟨Fin.ext (by simp only [parent]; omega), by simp⟩
  · split at h
    · obtain rfl := Option.some.inj h
      exact ⟨Fin.ext (by simp only [parent]; omega), by simp⟩
    · simp at h

/-- A position without a first child is nobody's parent. -/
theorem parent_ne_of_firstChild?_eq_none {items : Vector α n} {i : Fin n}
    (h : firstChild? noLater items i = none) (j : Fin n) (hj : j.val ≠ 0) : parent j ≠ i := by
  unfold firstChild? at h
  intro hparent
  have hval : (j.val - 1) / 2 = i.val := congrArg Fin.val hparent
  split at h
  · split at h <;> simp at h
  · split at h
    · simp at h
    · omega

/-- Moving up goes on at the parent while the element must come out before it. -/
theorem siftUp_eq (items : Vector α n) (i : Fin n) :
    siftUp noLater items i
      = if i.val = 0 then items
        else if noLater (items.get (parent i)) (items.get i) then items
        else siftUp noLater (exchange items (parent i) i) (parent i) := by
  rw [siftUp]
  rfl

/-- Moving down ends at a position without children. -/
theorem siftDown_of_none {items : Vector α n} {i : Fin n}
    (h : firstChild? noLater items i = none) : siftDown noLater items i = items := by
  rw [siftDown]
  split
  · rfl
  · rename_i child hchild
    simp [h] at hchild

/-- Moving down goes on at the first child while that must come out before the element. -/
theorem siftDown_of_some {items : Vector α n} {i child : Fin n}
    (h : firstChild? noLater items i = some child) :
    siftDown noLater items i
      = if noLater (items.get i) (items.get child) then items
        else siftDown noLater (exchange items i child) child := by
  rw [siftDown]
  split
  · rename_i hnone
    simp [h] at hnone
  · rename_i other hother
    obtain rfl : child = other := by simpa [h] using hother
    rfl

/-- Moving to the bottom ends at a position without children. -/
theorem siftToBottom_of_none {items : Vector α n} {i : Fin n}
    (h : firstChild? noLater items i = none) : siftToBottom noLater items i = (items, i) := by
  rw [siftToBottom]
  split
  · rfl
  · rename_i child hchild
    simp [h] at hchild

/-- Moving to the bottom always goes on at the first child. -/
theorem siftToBottom_of_some {items : Vector α n} {i child : Fin n}
    (h : firstChild? noLater items i = some child) :
    siftToBottom noLater items i = siftToBottom noLater (exchange items i child) child := by
  rw [siftToBottom]
  split
  · rename_i hnone
    simp [h] at hnone
  · rename_i other hother
    obtain rfl : child = other := by simpa [h] using hother
    rfl

/-- A statement about every position follows from the step down to the first child. -/
theorem descent {motive : Vector α n → Fin n → Prop}
    (bottom : ∀ items (i : Fin n), firstChild? noLater items i = none → motive items i)
    (step : ∀ items (i child : Fin n), firstChild? noLater items i = some child →
      motive (exchange items i child) child → motive items i)
    (items : Vector α n) (i : Fin n) : motive items i := by
  -- A child stands after its parent, so fewer positions are left behind it.
  induction hleft : n - i.val using Nat.strongRecOn generalizing items i with
  | ind left ih =>
      cases h : firstChild? noLater items i with
      | none => exact bottom items i h
      | some child =>
          have hbelow := lt_of_firstChild?_eq_some noLater h
          exact step items i child h (ih (n - child.val) (by omega) _ _ rfl)

/-- A statement about every position follows from the step up to the parent. -/
theorem ascent {motive : Vector α n → Fin n → Prop}
    (root : ∀ items (i : Fin n), i.val = 0 → motive items i)
    (step : ∀ items (i : Fin n), i.val ≠ 0 →
      motive (exchange items (parent i) i) (parent i) → motive items i)
    (items : Vector α n) (i : Fin n) : motive items i := by
  -- The parent stands before its children.
  induction hi : i.val using Nat.strongRecOn generalizing items i with
  | ind position ih =>
      by_cases hroot : i.val = 0
      · exact root items i hroot
      · exact step items i hroot (ih (parent i).val (by simp only [parent]; omega) _ _ rfl)

/-! ### The elements stay -/

/-- Moving up keeps the elements. -/
theorem siftUp_perm (items : Vector α n) (i : Fin n) : (siftUp noLater items i).Perm items := by
  induction items, i using ascent with
  | root items i hroot => rw [siftUp_eq, if_pos hroot]
  | step items i hroot ih =>
      rw [siftUp_eq, if_neg hroot]
      split
      · exact .rfl
      · exact ih.trans (Vector.swap_perm _ _)

/-- Moving down keeps the elements. -/
theorem siftDown_perm (items : Vector α n) (i : Fin n) :
    (siftDown noLater items i).Perm items := by
  induction items, i using descent noLater with
  | bottom items i h => rw [siftDown_of_none noLater h]
  | step items i child h ih =>
      rw [siftDown_of_some noLater h]
      split
      · exact .rfl
      · exact ih.trans (Vector.swap_perm _ _)

/-- Moving to the bottom keeps the elements. -/
theorem siftToBottom_perm (items : Vector α n) (i : Fin n) :
    (siftToBottom noLater items i).1.Perm items := by
  induction items, i using descent noLater with
  | bottom items i h => rw [siftToBottom_of_none noLater h]
  | step items i child h ih =>
      rw [siftToBottom_of_some noLater h]
      exact ih.trans (Vector.swap_perm _ _)

/-- Building the tree keeps the elements. -/
theorem siftAllDown_perm (items : Vector α n) (count : Nat) (h : count ≤ n) :
    (siftAllDown noLater items count h).Perm items := by
  induction count generalizing items with
  | zero => exact .rfl
  | succ count ih => exact (ih _ _).trans (siftDown_perm noLater items ⟨count, h⟩)

/-- A queue holds the elements that it was made of. -/
theorem toList_ofList (elements : List α) : (ofList noLater elements).toList.Perm elements :=
  (siftAllDown_perm noLater _ _ _).toList

/-- Adding an element adds just that one. -/
theorem toList_push (queue : Queue α) (element : α) :
    (queue.push noLater element).toList.Perm (element :: queue.toList) := by
  have hsift := (siftUp_perm noLater (queue.items.push element) (Fin.last queue.size)).toList
  refine hsift.trans ?_
  rw [Vector.toList_push]
  exact List.perm_append_singleton element queue.items.toList

/-- A queue gives an element out as long as it has one. -/
theorem pop?_eq_none_iff (queue : Queue α) :
    queue.pop? noLater = none ↔ queue.toList = [] := by
  obtain ⟨size, items⟩ := queue
  cases size with
  | zero => simp [pop?, toList]
  | succ n =>
      have hne : items.toList ≠ [] := by
        rw [← List.length_pos_iff]
        simp
      simp only [pop?, toList, hne, iff_false]
      split <;> simp

/-- The last element in the place of the first one: what is missing is the first one. -/
theorem perm_cons_set_back (items : Vector α (n + 1)) (h : 0 < n) :
    items.toList.Perm (items.pop[0] :: (items.pop.set 0 items.back).toList) := by
  -- The first element and the last one stand apart, since the tree has two elements at least.
  have hitems : items.toList = items.pop.toList ++ [items.back] := by
    rw [← Vector.toList_push, Vector.push_pop_back]
  have hlength : items.pop.toList.length = n := Vector.length_toList
  have hpos : 0 < items.pop.toList.length := by rw [hlength]; exact h
  obtain ⟨first, others, hrest⟩ := List.exists_cons_of_length_pos hpos
  have hfirst : items.pop[0] = first := by
    rw [← Vector.getElem_toList hpos]
    simp [hrest]
  rw [hitems, Vector.toList_set, hfirst, hrest]
  refine (List.perm_append_singleton _ _).trans ?_
  exact List.Perm.swap _ _ _

/-- An element that comes out is no longer there, and the others are. -/
theorem toList_pop? {queue rest : Queue α} {element : α}
    (h : queue.pop? noLater = some (element, rest)) :
    queue.toList.Perm (element :: rest.toList) := by
  obtain ⟨size, items⟩ := queue
  cases size with
  | zero => simp [pop?] at h
  | succ n =>
      simp only [pop?] at h
      split at h
      · rename_i hn
        obtain ⟨rfl, rfl⟩ := Prod.mk.inj (Option.some.inj h)
        -- The last element takes the place of the first, and then elements only move.
        refine (perm_cons_set_back items hn).trans (List.Perm.cons _ ?_)
        exact ((siftUp_perm noLater _ _).trans (siftToBottom_perm noLater _ _)).symm.toList
      · obtain ⟨rfl, rfl⟩ := Prod.mk.inj (Option.some.inj h)
        have hitems : items.toList = items.pop.toList ++ [items.back] := by
          rw [← Vector.toList_push, Vector.push_pop_back]
        simp only [toList, hitems]
        exact List.perm_append_singleton _ _

/-! ### The elements come out in order -/

/-- A relation that is total and transitive among the elements with a property. -/
structure Consistent (S : α → Prop) : Prop where
  total : ∀ a b, S a → S b → noLater a b = true ∨ noLater b a = true
  trans : ∀ a b c, S a → S b → S c → noLater a b = true → noLater b c = true →
    noLater a c = true

/-- The element at a position does not have to come out before its parent. -/
def InOrder (items : Vector α n) (j : Fin n) : Prop :=
  noLater (items.get (parent j)) (items.get j) = true

/-- All elements with a parent at or after a position are in order with it. -/
def HeapFrom (low : Nat) (items : Vector α n) : Prop :=
  ∀ j : Fin n, j.val ≠ 0 → low ≤ (parent j).val → InOrder noLater items j

/-- All elements are in order with their parents. -/
abbrev IsHeap (items : Vector α n) : Prop := HeapFrom noLater 0 items

/-- The children of a position are in order with its parent. -/
def Bridged (low : Nat) (items : Vector α n) (i : Fin n) : Prop :=
  i.val ≠ 0 → low ≤ (parent i).val → ∀ j : Fin n, j.val ≠ 0 → parent j = i →
    noLater (items.get (parent i)) (items.get j) = true

/-- The state while an element moves up: only it may be out of order with its parent. -/
structure UpReady (items : Vector α n) (i : Fin n) : Prop where
  others : ∀ j : Fin n, j.val ≠ 0 → j ≠ i → InOrder noLater items j
  bridged : Bridged noLater 0 items i

/-- The state while an element moves down: only its children may be out of order with it. -/
structure DownReady (low : Nat) (items : Vector α n) (i : Fin n) : Prop where
  others : ∀ j : Fin n, j.val ≠ 0 → low ≤ (parent j).val → parent j ≠ i → InOrder noLater items j
  bridged : Bridged noLater low items i

/-- The state while an element moves to the bottom unseen: nothing is known of it. -/
structure Hole (items : Vector α n) (i : Fin n) : Prop where
  others : ∀ j : Fin n, j.val ≠ 0 → j ≠ i → parent j ≠ i → InOrder noLater items j
  bridged : Bridged noLater 0 items i

/-- A parent stands before its children. -/
theorem parent_lt {i : Fin n} (h : i.val ≠ 0) : parent i < i := by
  simp only [Fin.lt_def, parent]
  omega

/-- The first position gets the element of the second. -/
theorem get_exchange_fst (items : Vector α n) (i k : Fin n) :
    (exchange items i k).get i = items.get k :=
  Vector.getElem_swap_left _ _

/-- The second position gets the element of the first. -/
theorem get_exchange_snd (items : Vector α n) (i k : Fin n) :
    (exchange items i k).get k = items.get i :=
  Vector.getElem_swap_right _ _

/-- At all other positions nothing changes. -/
theorem get_exchange_of_ne {items : Vector α n} {i k j : Fin n} (hi : j ≠ i) (hk : j ≠ k) :
    (exchange items i k).get j = items.get j :=
  Vector.getElem_swap_of_ne (Fin.val_ne_of_ne hi) (Fin.val_ne_of_ne hk)

variable {noLater} {S : α → Prop}

/-- An exchange keeps the elements and so what all of them have in common. -/
theorem forall_exchange {items : Vector α n} (hS : ∀ j : Fin n, S (items.get j)) (i k : Fin n) :
    ∀ j : Fin n, S ((exchange items i k).get j) := by
  intro j
  by_cases hi : j = i
  · rw [hi, get_exchange_fst]
    exact hS k
  · by_cases hk : j = k
    · rw [hk, get_exchange_snd]
      exact hS i
    · rw [get_exchange_of_ne hi hk]
      exact hS j

/-- The first child may come out before every child. -/
theorem noLater_of_firstChild? (hc : Consistent noLater S) {items : Vector α n}
    (hS : ∀ j : Fin n, S (items.get j)) {i child : Fin n}
    (h : firstChild? noLater items i = some child) (j : Fin n) (hj : j.val ≠ 0)
    (hparent : parent j = i) : noLater (items.get child) (items.get j) = true := by
  have hrefl : ∀ k : Fin n, noLater (items.get k) (items.get k) = true := fun k =>
    (hc.total _ _ (hS k) (hS k)).elim id id
  have hval : (j.val - 1) / 2 = i.val := congrArg Fin.val hparent
  -- There are two places for a child. The comparison that chose one of them covers the other.
  have hside : j.val = 2 * i.val + 1 ∨ j.val = 2 * i.val + 2 := by omega
  unfold firstChild? at h
  split at h
  · rename_i hright
    let left : Fin n := ⟨2 * i.val + 1, by omega⟩
    let right : Fin n := ⟨2 * i.val + 2, hright⟩
    have hchoice : j = left ∨ j = right :=
      hside.imp (fun h => Fin.ext h) (fun h => Fin.ext h)
    split at h
    · rename_i hfirst
      obtain rfl : right = child := Option.some.inj h
      rcases hchoice with hj | hj <;> rw [hj]
      · exact hfirst
      · exact hrefl right
    · rename_i hfirst
      obtain rfl : left = child := Option.some.inj h
      rcases hchoice with hj | hj <;> rw [hj]
      · exact hrefl left
      · have htotal := hc.total (items.get left) (items.get right) (hS left) (hS right)
        exact htotal.resolve_right hfirst
  · split at h
    · rename_i hright hleft
      obtain rfl : (⟨2 * i.val + 1, hleft⟩ : Fin n) = child := Option.some.inj h
      have hj' : j = ⟨2 * i.val + 1, hleft⟩ := Fin.ext (by simp only; omega)
      rw [hj']
      exact hrefl _
    · simp at h

/-! #### Moving up -/

/-- An element that has reached the root leaves a heap. -/
theorem UpReady.isHeap_of_root {items : Vector α n} {i : Fin n} (h : UpReady noLater items i)
    (hroot : i.val = 0) : IsHeap noLater items :=
  fun j hj _ => h.others j hj fun hji => hj (hji ▸ hroot)

/-- An element that is in order with its parent leaves a heap. -/
theorem UpReady.isHeap_of_inOrder {items : Vector α n} {i : Fin n} (h : UpReady noLater items i)
    (hi : InOrder noLater items i) : IsHeap noLater items := by
  intro j hj _
  by_cases hji : j = i
  · subst hji; exact hi
  · exact h.others j hj hji

/-- An element that has to come out before its parent changes places with it. -/
theorem UpReady.exchange (hc : Consistent noLater S) {items : Vector α n}
    (hS : ∀ j : Fin n, S (items.get j)) {i : Fin n} (hi : i.val ≠ 0) (h : UpReady noLater items i)
    (hmove : ¬InOrder noLater items i) :
    UpReady noLater (exchange items (parent i) i) (parent i) := by
  have hlt := parent_lt hi
  have hbefore : noLater (items.get i) (items.get (parent i)) = true :=
    (hc.total _ _ (hS i) (hS (parent i))).resolve_right hmove
  constructor
  · intro j hj hjp
    unfold InOrder
    by_cases hji : j = i
    · subst hji
      rw [get_exchange_fst, get_exchange_snd]
      exact hbefore
    · rw [get_exchange_of_ne hjp hji]
      by_cases hpp : parent j = parent i
      · -- The sibling was in order with the parent that now stands below the moved element.
        rw [hpp, get_exchange_fst]
        have hsibling := h.others j hj hji
        unfold InOrder at hsibling
        rw [hpp] at hsibling
        exact hc.trans _ _ _ (hS _) (hS _) (hS _) hbefore hsibling
      · by_cases hpi : parent j = i
        · rw [hpi, get_exchange_snd]
          exact h.bridged hi (Nat.zero_le _) j hj hpi
        · rw [get_exchange_of_ne hpp hpi]
          exact h.others j hj hji
  · -- The new place lies below a pair that was in order: the grandparent and the old parent.
    intro hp _ j hj hjp
    have hlt' := parent_lt hp
    have hup : noLater (items.get (parent (parent i))) (items.get (parent i)) = true :=
      h.others (parent i) hp (Fin.ne_of_lt hlt)
    rw [get_exchange_of_ne (Fin.ne_of_lt hlt') (Fin.ne_of_lt (Fin.lt_trans hlt' hlt))]
    by_cases hji : j = i
    · subst hji
      rw [get_exchange_snd]
      exact hup
    · have hjp' : j ≠ parent i := fun heq => by
        subst heq
        exact absurd hjp (Fin.ne_of_lt hlt')
      rw [get_exchange_of_ne hjp' hji]
      have hsibling := h.others j hj hji
      unfold InOrder at hsibling
      rw [hjp] at hsibling
      exact hc.trans _ _ _ (hS _) (hS _) (hS _) hup hsibling

/-- Moving an element up puts everything in order. -/
theorem siftUp_isHeap (hc : Consistent noLater S) (items : Vector α n) (i : Fin n)
    (hS : ∀ j : Fin n, S (items.get j)) (h : UpReady noLater items i) :
    IsHeap noLater (siftUp noLater items i) := by
  induction items, i using ascent with
  | root items i hroot =>
      rw [siftUp_eq, if_pos hroot]
      exact h.isHeap_of_root hroot
  | step items i hroot ih =>
      rw [siftUp_eq, if_neg hroot]
      split
      · rename_i hstop
        exact h.isHeap_of_inOrder hstop
      · rename_i hmove
        exact ih (forall_exchange hS _ _) (h.exchange hc hS hroot hmove)

/-! #### Moving down -/

/-- The pair of a parent and a child that an exchange of the parent's own pair leaves in order. The
first child stands in the parent's place, where the other children are in order with it. -/
theorem inOrder_exchange_of_parent (hc : Consistent noLater S) {items : Vector α n}
    (hS : ∀ j : Fin n, S (items.get j)) {i child : Fin n}
    (h : firstChild? noLater items i = some child) {j : Fin n} (hj : j.val ≠ 0)
    (hparent : parent j = i) (hjc : j ≠ child) :
    InOrder noLater (exchange items i child) j := by
  have hji : j ≠ i := fun heq => absurd (heq ▸ hparent) (Fin.ne_of_lt (parent_lt (heq ▸ hj)))
  unfold InOrder
  rw [hparent, get_exchange_fst, get_exchange_of_ne hji hjc]
  exact noLater_of_firstChild? hc hS h j hj hparent

/-- A pair that has nothing to do with two positions stays in order when they change places. -/
theorem inOrder_exchange_of_ne {items : Vector α n} {i k j : Fin n} (hj : InOrder noLater items j)
    (hji : j ≠ i) (hjk : j ≠ k) (hpi : parent j ≠ i) (hpk : parent j ≠ k) :
    InOrder noLater (exchange items i k) j := by
  unfold InOrder
  rw [get_exchange_of_ne hpi hpk, get_exchange_of_ne hji hjk]
  exact hj

/-- The place that the first child took is in order with its parent. -/
theorem inOrder_exchange_of_bridged {low : Nat} {items : Vector α n} {i child : Fin n}
    (h : firstChild? noLater items i = some child) (hb : Bridged noLater low items i)
    (hi : i.val ≠ 0) (hlow : low ≤ (parent i).val) :
    InOrder noLater (exchange items i child) i := by
  obtain ⟨hparent, hchild⟩ := parent_firstChild? noLater h
  have hlt := parent_lt hi
  have hbelow : parent i ≠ child := fun heq => by
    have := parent_lt hchild
    rw [hparent] at this
    exact absurd (heq ▸ hlt) (Fin.not_lt.mpr (Fin.le_of_lt this))
  unfold InOrder
  rw [get_exchange_of_ne (Fin.ne_of_lt hlt) hbelow, get_exchange_fst]
  exact hb hi hlow child hchild hparent

/-- After a move down the children of the moving element are in order with its new parent, which
was their own parent before. -/
theorem bridged_exchange {low : Nat} {items : Vector α n} {i child : Fin n}
    (h : firstChild? noLater items i = some child)
    (hothers : ∀ j : Fin n, j.val ≠ 0 → parent j = child → InOrder noLater items j) :
    Bridged noLater low (exchange items i child) child := by
  obtain ⟨hparent, hchild⟩ := parent_firstChild? noLater h
  intro _ _ j hj hjc
  have hlt : i < child := hparent ▸ parent_lt hchild
  have hjlt : child < j := hjc ▸ parent_lt hj
  rw [hparent, get_exchange_fst,
    get_exchange_of_ne (Fin.ne_of_gt (Fin.lt_trans hlt hjlt)) (Fin.ne_of_gt hjlt)]
  have hpair := hothers j hj hjc
  unfold InOrder at hpair
  rw [hjc] at hpair
  exact hpair

/-- An element without children leaves a heap from the lowest position on. -/
theorem DownReady.heapFrom_of_none {low : Nat} {items : Vector α n} {i : Fin n}
    (h : DownReady noLater low items i) (hnone : firstChild? noLater items i = none) :
    HeapFrom noLater low items :=
  fun j hj hlow =>
    h.others j hj hlow (parent_ne_of_firstChild?_eq_none noLater hnone j hj)

/-- So does one that may come out before its first child, since then it may before all of them. -/
theorem DownReady.heapFrom_of_noLater (hc : Consistent noLater S) {low : Nat}
    {items : Vector α n} (hS : ∀ j : Fin n, S (items.get j)) {i child : Fin n}
    (h : DownReady noLater low items i) (hchild : firstChild? noLater items i = some child)
    (hstop : noLater (items.get i) (items.get child) = true) : HeapFrom noLater low items := by
  intro j hj hlow
  by_cases hparent : parent j = i
  · have hfirst := noLater_of_firstChild? hc hS hchild j hj hparent
    unfold InOrder
    rw [hparent]
    exact hc.trans _ _ _ (hS _) (hS _) (hS _) hstop hfirst
  · exact h.others j hj hlow hparent

/-- An element that must not come out before its first child changes places with it. -/
theorem DownReady.exchange (hc : Consistent noLater S) {low : Nat} {items : Vector α n}
    (hS : ∀ j : Fin n, S (items.get j)) {i child : Fin n} (hi : low ≤ i.val)
    (h : DownReady noLater low items i) (hchild : firstChild? noLater items i = some child)
    (hmove : ¬noLater (items.get i) (items.get child) = true) :
    DownReady noLater low (exchange items i child) child := by
  obtain ⟨hparent, hne⟩ := parent_firstChild? noLater hchild
  have hlt : i < child := hparent ▸ parent_lt hne
  constructor
  · intro j hj hlow hjc
    -- A pair has the moved position as its upper end, as its lower end, or not at all.
    by_cases hpi : parent j = i
    · by_cases hj' : j = child
      · subst hj'
        unfold InOrder
        rw [hparent, get_exchange_fst, get_exchange_snd]
        exact (hc.total _ _ (hS _) (hS _)).resolve_right hmove
      · exact inOrder_exchange_of_parent hc hS hchild hj hpi hj'
    · by_cases hji : j = i
      · subst hji
        exact inOrder_exchange_of_bridged hchild h.bridged hj hlow
      · exact inOrder_exchange_of_ne (h.others j hj hlow hpi) hji
          (fun heq => hpi (heq ▸ hparent)) hpi hjc
  · refine bridged_exchange hchild fun j hj hjc => h.others j hj ?_ ?_
    · rw [hjc]
      exact Nat.le_trans hi (Nat.le_of_lt hlt)
    · rw [hjc]
      exact Fin.ne_of_gt hlt

/-- Moving an element down puts it and all that is below it in order. -/
theorem siftDown_heapFrom (hc : Consistent noLater S) {low : Nat} (items : Vector α n) (i : Fin n)
    (hS : ∀ j : Fin n, S (items.get j)) (hi : low ≤ i.val)
    (h : DownReady noLater low items i) : HeapFrom noLater low (siftDown noLater items i) := by
  induction items, i using descent noLater with
  | bottom items i hnone =>
      rw [siftDown_of_none noLater hnone]
      exact h.heapFrom_of_none hnone
  | step items i child hchild ih =>
      obtain ⟨hparent, hne⟩ := parent_firstChild? noLater hchild
      have hlt : i < child := hparent ▸ parent_lt hne
      rw [siftDown_of_some noLater hchild]
      split
      · rename_i hstop
        exact h.heapFrom_of_noLater hc hS hchild hstop
      · rename_i hmove
        exact ih (forall_exchange hS _ _) (Nat.le_trans hi (Nat.le_of_lt hlt))
          (h.exchange hc hS hi hchild hmove)

/-- The first child moves up into the hole, which is then one level further down. -/
theorem Hole.exchange (hc : Consistent noLater S) {items : Vector α n}
    (hS : ∀ j : Fin n, S (items.get j)) {i child : Fin n} (h : Hole noLater items i)
    (hchild : firstChild? noLater items i = some child) :
    Hole noLater (exchange items i child) child := by
  obtain ⟨hparent, hne⟩ := parent_firstChild? noLater hchild
  have hlt : i < child := hparent ▸ parent_lt hne
  constructor
  · intro j hj hjc hpc
    by_cases hpi : parent j = i
    · exact inOrder_exchange_of_parent hc hS hchild hj hpi hjc
    · by_cases hji : j = i
      · subst hji
        exact inOrder_exchange_of_bridged hchild h.bridged hj (Nat.zero_le _)
      · exact inOrder_exchange_of_ne (h.others j hj hji hpi) hji hjc hpi hpc
  · refine bridged_exchange hchild fun j hj hjc => h.others j hj ?_ ?_
    · exact Fin.ne_of_gt (Fin.lt_trans hlt (hjc ▸ parent_lt hj))
    · rw [hjc]
      exact Fin.ne_of_gt hlt

/-- At the bottom an element has no children, so it may move up. -/
theorem siftToBottom_upReady (hc : Consistent noLater S) (items : Vector α n) (i : Fin n)
    (hS : ∀ j : Fin n, S (items.get j)) (h : Hole noLater items i) :
    UpReady noLater (siftToBottom noLater items i).1 (siftToBottom noLater items i).2 := by
  induction items, i using descent noLater with
  | bottom items i hnone =>
      rw [siftToBottom_of_none noLater hnone]
      have hleaf := parent_ne_of_firstChild?_eq_none noLater hnone
      exact ⟨fun j hj hji => h.others j hj hji (hleaf j hj),
        fun _ _ j hj hji => absurd hji (hleaf j hj)⟩
  | step items i child hchild ih =>
      rw [siftToBottom_of_some noLater hchild]
      exact ih (forall_exchange hS _ _) (h.exchange hc hS hchild)

/-! #### Whole queues -/

/-- Sifting all inner positions down, the last one first, puts everything in order. -/
theorem siftAllDown_isHeap (hc : Consistent noLater S) (items : Vector α n) (count : Nat)
    (hcount : count ≤ n) (hS : ∀ j : Fin n, S (items.get j))
    (h : HeapFrom noLater count items) :
    IsHeap noLater (siftAllDown noLater items count hcount) := by
  induction count generalizing items with
  | zero => exact h
  | succ count ih =>
      let i : Fin n := ⟨count, hcount⟩
      -- From `count + 1` on all is in order, so only the children of `count` may be out of order.
      have hready : DownReady noLater count items i := by
        constructor
        · intro j hj hlow hne
          refine h j hj (Nat.lt_of_le_of_ne hlow fun heq => hne (Fin.ext heq.symm))
        · intro hi hlow
          exact absurd (parent_lt hi) (Fin.not_lt.mpr hlow)
      have hkept : ∀ j : Fin n, S ((siftDown noLater items i).get j) := by
        intro j
        have hmem := (siftDown_perm noLater items i).mem_iff.mp (Vector.getElem_mem j.isLt)
        obtain ⟨k, hk, hget⟩ := Vector.mem_iff_getElem.mp hmem
        exact (show (siftDown noLater items i).get j = items.get ⟨k, hk⟩ from hget.symm) ▸
          hS ⟨k, hk⟩
      exact ih _ (by omega) hkept (siftDown_heapFrom hc items i hS (Nat.le_refl _) hready)

/-- What holds of all elements holds at each position. -/
theorem forall_get {items : Vector α n} (hS : ∀ a ∈ items.toList, S a) (j : Fin n) :
    S (items.get j) :=
  hS _ (Vector.mem_toList_iff.mpr (Vector.getElem_mem j.isLt))

/-- A new queue is in order. -/
theorem ofList_isHeap (hc : Consistent noLater S) (elements : List α)
    (hS : ∀ a ∈ elements, S a) : IsHeap noLater (ofList noLater elements).items := by
  let items : Vector α elements.length := ⟨elements.toArray, by simp⟩
  have hitems : items.toList = elements := rfl
  -- The second half of the positions has no children.
  have hleaves : HeapFrom noLater (elements.length / 2) items := by
    intro j hj hlow
    have hlt := j.isLt
    simp only [parent] at hlow
    omega
  have hS' : ∀ a ∈ items.toList, S a := by
    rw [hitems]
    exact hS
  exact siftAllDown_isHeap hc items _ (by omega) (forall_get hS') hleaves

/-- A new element at the end of a tree in order may move up. -/
theorem push_upReady {items : Vector α n} (h : IsHeap noLater items) (element : α) :
    UpReady noLater (items.push element) (Fin.last n) := by
  constructor
  · intro j hj hlast
    have hlt : j.val < n := Nat.lt_of_le_of_ne (Nat.le_of_lt_succ j.isLt)
      fun heq => hlast (Fin.ext heq)
    have hold : ∀ k : Fin (n + 1), (hk : k.val < n) →
        (items.push element).get k = items.get ⟨k.val, hk⟩ := fun k hk => Vector.getElem_push_lt hk
    unfold InOrder
    rw [hold j hlt, hold (parent j) (Nat.lt_trans (parent_lt hj) hlt)]
    exact h ⟨j.val, hlt⟩ hj (Nat.zero_le _)
  · intro _ _ j hj hparent
    exact absurd (hparent ▸ parent_lt hj) (Fin.not_lt.mpr (Fin.le_last j))

/-- Adding an element keeps a queue in order. -/
theorem push_isHeap (hc : Consistent noLater S) (queue : Queue α) (element : α)
    (hS : ∀ a ∈ queue.toList, S a) (helement : S element)
    (h : IsHeap noLater queue.items) : IsHeap noLater (queue.push noLater element).items := by
  have hS' : ∀ a ∈ (queue.items.push element).toList, S a := by
    intro a ha
    rw [Vector.toList_push] at ha
    rcases List.mem_append.mp ha with ha | ha
    · exact hS a ha
    · rw [List.mem_singleton.mp ha]
      exact helement
  exact siftUp_isHeap hc _ _ (forall_get hS') (push_upReady h element)

/-- The first element of a tree in order may come out before any other. -/
theorem noLater_root (hc : Consistent noLater S) {items : Vector α n}
    (hS : ∀ j : Fin n, S (items.get j)) (h : IsHeap noLater items) (hn : 0 < n) (j : Fin n) :
    noLater (items.get ⟨0, hn⟩) (items.get j) = true := by
  -- Induction on the position: the parent comes before the element and the root before the parent.
  induction hj : j.val using Nat.strongRecOn generalizing j with
  | ind position ih =>
      by_cases hroot : j.val = 0
      · have hj0 : j = ⟨0, hn⟩ := Fin.ext hroot
        rw [hj0]
        exact (hc.total _ _ (hS _) (hS _)).elim id id
      · have hup := ih (parent j).val (hj ▸ parent_lt hroot) (parent j) rfl
        exact hc.trans _ _ _ (hS _) (hS _) (hS _) hup (h j hroot (Nat.zero_le _))

/-- Taking an element out keeps a queue in order. -/
theorem pop?_isHeap (hc : Consistent noLater S) {queue rest : Queue α} {element : α}
    (hS : ∀ a ∈ queue.toList, S a) (h : IsHeap noLater queue.items)
    (hpop : queue.pop? noLater = some (element, rest)) : IsHeap noLater rest.items := by
  obtain ⟨size, items⟩ := queue
  cases size with
  | zero => simp [pop?] at hpop
  | succ n =>
      -- Without its last element the tree is in order still.
      have hpair : ∀ j : Fin n, j.val ≠ 0 → InOrder noLater items.pop j := by
        intro j hj
        have hlt : j.val < n + 1 := Nat.lt_succ_of_lt j.isLt
        have hold : ∀ k : Fin n, items.pop.get k = items.get ⟨k.val, Nat.lt_succ_of_lt k.isLt⟩ :=
          fun k => Vector.getElem_pop k.isLt
        unfold InOrder
        rw [hold, hold]
        exact h ⟨j.val, hlt⟩ hj (Nat.zero_le _)
      simp only [pop?] at hpop
      split at hpop
      · rename_i hn
        obtain ⟨-, rfl⟩ := Prod.mk.inj (Option.some.inj hpop)
        have hperm := perm_cons_set_back items hn
        have hS' : ∀ a ∈ (items.pop.set 0 items.back).toList, S a := fun a ha =>
          hS a (hperm.mem_iff.mpr (List.mem_cons_of_mem _ ha))
        have hold : ∀ k : Fin n, k.val ≠ 0 →
            (items.pop.set 0 items.back).get k = items.pop.get k := fun k hk =>
          Vector.getElem_set_ne _ _ (Ne.symm hk)
        -- The element that takes the place of the first one may be out of order there.
        have hhole : Hole noLater (items.pop.set 0 items.back) ⟨0, hn⟩ := by
          constructor
          · intro j hj _ hparent
            have hparent' : (parent j).val ≠ 0 := fun heq => hparent (Fin.ext heq)
            unfold InOrder
            rw [hold j hj, hold (parent j) hparent']
            exact hpair j hj
          · exact fun hzero => absurd rfl hzero
        have hready := siftToBottom_upReady hc _ _ (forall_get hS') hhole
        refine siftUp_isHeap hc _ _ (forall_get fun a ha => hS' a ?_) hready
        exact (siftToBottom_perm noLater _ _).toList.mem_iff.mp ha
      · rename_i hn
        obtain ⟨-, rfl⟩ := Prod.mk.inj (Option.some.inj hpop)
        intro j _ _
        exact absurd j.isLt fun hlt => hn (Nat.zero_lt_of_lt hlt)

/-- Nothing has to come out before the element that does. -/
theorem noLater_of_pop? (hc : Consistent noLater S) {queue rest : Queue α} {element : α}
    (hS : ∀ a ∈ queue.toList, S a) (h : IsHeap noLater queue.items)
    (hpop : queue.pop? noLater = some (element, rest)) {other : α} (hother : other ∈ rest.toList) :
    noLater element other = true := by
  have hmem : other ∈ queue.toList :=
    (toList_pop? noLater hpop).mem_iff.mpr (List.mem_cons_of_mem _ hother)
  obtain ⟨size, items⟩ := queue
  obtain ⟨k, hk, rfl⟩ := Vector.mem_iff_getElem.mp (Vector.mem_toList_iff.mp hmem)
  cases size with
  | zero => exact absurd hk (Nat.not_lt_zero k)
  | succ n =>
      have hroot := noLater_root hc (forall_get hS) h (Nat.succ_pos n) ⟨k, hk⟩
      simp only [pop?] at hpop
      split at hpop
      · rename_i hn
        obtain ⟨rfl, -⟩ := Prod.mk.inj (Option.some.inj hpop)
        have hfirst : items.pop[0] = items[0] := Vector.getElem_pop hn
        rw [hfirst]
        exact hroot
      · rename_i hn
        obtain ⟨-, rfl⟩ := Prod.mk.inj (Option.some.inj hpop)
        have hempty : items.pop.toList.length = 0 := by
          rw [Vector.length_toList]
          omega
        rw [toList, List.length_eq_zero_iff.mp hempty] at hother
        simp at hother

end SearchDsl.Queue
