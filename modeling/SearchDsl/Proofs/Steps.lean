import Mathlib.Data.List.Forall2

/-!
# `SearchDsl.Proofs.Steps`: sequences of steps that may fail

What it means that a sequence of `Except` steps succeeds: each step does, and the result of each is
what the next one gets. A sequence fails where one of its steps does, with the failure of that step.
-/

set_option autoImplicit false

namespace SearchDsl.Steps

variable {ε α β : Type}

/-- Two steps succeed if the first does and the second does with its result. -/
theorem bind_eq_ok_iff {first : Except ε α} {next : α → Except ε β} {result : β} :
    (first >>= next) = .ok result ↔ ∃ value, first = .ok value ∧ next value = .ok result := by
  cases first with
  | error e => simp [bind, Except.bind]
  | ok value => simp [bind, Except.bind]

/-- A check before a step has no result that the step could use. -/
theorem check_eq_ok_iff {check : Except ε Unit} {next : Unit → Except ε β} {result : β} :
    (check >>= next) = .ok result ↔ check = .ok () ∧ next () = .ok result := by
  rw [bind_eq_ok_iff]
  exact ⟨fun ⟨⟨⟩, hcheck, hnext⟩ => ⟨hcheck, hnext⟩, fun ⟨hcheck, hnext⟩ => ⟨(), hcheck, hnext⟩⟩

/-- Whether two steps have any result at all. -/
theorem exists_bind_eq_ok_iff {first : Except ε α} {next : α → Except ε β} :
    (∃ result, (first >>= next) = .ok result) ↔
      ∃ value, first = .ok value ∧ ∃ result, next value = .ok result := by
  simp only [bind_eq_ok_iff]
  exact ⟨fun ⟨result, value, hvalue, hresult⟩ => ⟨value, hvalue, result, hresult⟩,
    fun ⟨value, hvalue, result, hresult⟩ => ⟨result, value, hvalue, hresult⟩⟩

/-- A check with steps after it succeeds if it passes and they succeed. -/
theorem exists_check_eq_ok_iff {check : Except ε Unit} {next : Unit → Except ε β} :
    (∃ result, (check >>= next) = .ok result) ↔
      check = .ok () ∧ ∃ result, next () = .ok result := by
  simp only [check_eq_ok_iff, exists_and_left]

/-- A failure is no success. -/
theorem throw_ne_ok {e : ε} {result : α} : (throw e : Except ε α) ≠ .ok result := by
  show (Except.error e : Except ε α) ≠ .ok result
  simp

/-- A value that is returned is the result. -/
theorem pure_eq_ok_iff {value result : α} :
    (pure value : Except ε α) = .ok result ↔ result = value :=
  ⟨fun h => (Except.ok.inj h).symm, fun h => congrArg Except.ok h.symm⟩

/-- What is made of the result of a step. -/
theorem map_eq_ok_iff {f : α → β} {step : Except ε α} {result : β} :
    f <$> step = .ok result ↔ ∃ value, step = .ok value ∧ result = f value := by
  rw [map_eq_pure_bind, bind_eq_ok_iff]
  simp only [pure_eq_ok_iff]

/-- A step that fails under a condition lets the next one pass otherwise. -/
theorem throwIf_eq_ok_iff {fails : Prop} [Decidable fails] {e : ε} {first : α → Except ε β}
    {next : Except ε β} {result : β} :
    (if fails then throw e >>= first else next) = .ok result ↔ ¬fails ∧ next = .ok result := by
  by_cases h : fails
  · rw [if_pos h]
    exact ⟨fun hthrow => absurd hthrow throw_ne_ok, fun hnot => absurd h hnot.1⟩
  · rw [if_neg h]
    exact ⟨fun hnext => ⟨h, hnext⟩, fun hnext => hnext.2⟩

/-- A step that hands its value on under a condition has no other result. -/
theorem passIf_eq_ok_iff {passes : Prop} [Decidable passes] {e : ε} {value result : α} :
    (if passes then pure value else throw e : Except ε α) = .ok result ↔
      passes ∧ result = value := by
  by_cases h : passes
  · rw [if_pos h, pure_eq_ok_iff]
    exact ⟨fun heq => ⟨h, heq⟩, fun hboth => hboth.2⟩
  · rw [if_neg h]
    exact ⟨fun hthrow => absurd hthrow throw_ne_ok, fun hboth => absurd hboth.1 h⟩

/-- What holds of all items of one list holds of all items of another one, if it does so for each of
the pairs that the lists are made of. -/
theorem forall_mem_iff_of_forall₂ {R : α → β → Prop} {P : α → Prop} {Q : β → Prop} {items : List α}
    {results : List β} (h : List.Forall₂ R items results) (hpairs : ∀ a b, R a b → (P a ↔ Q b)) :
    (∀ item ∈ items, P item) ↔ ∀ result ∈ results, Q result := by
  induction h with
  | nil => simp
  | cons hfirst _ ih => rw [List.forall_mem_cons, List.forall_mem_cons, hpairs _ _ hfirst, ih]

/-- A step on every element succeeds if it does on each, and gives the results in order. -/
theorem mapM_eq_ok_iff {step : α → Except ε β} {items : List α} {results : List β} :
    items.mapM step = .ok results ↔
      List.Forall₂ (fun item result => step item = .ok result) items results := by
  induction items generalizing results with
  | nil =>
      rw [List.mapM_nil, List.forall₂_nil_left_iff]
      exact ⟨fun h => (Except.ok.inj h).symm, fun h => h ▸ rfl⟩
  | cons item items ih =>
      rw [List.mapM_cons, bind_eq_ok_iff, List.forall₂_cons_left_iff]
      constructor
      · rintro ⟨result, hresult, hrest⟩
        obtain ⟨rest, hrest, heq⟩ := bind_eq_ok_iff.mp hrest
        exact ⟨result, rest, hresult, ih.mp hrest, (Except.ok.inj heq).symm⟩
      · rintro ⟨result, rest, hresult, hrest, rfl⟩
        exact ⟨result, hresult, bind_eq_ok_iff.mpr ⟨rest, ih.mpr hrest, rfl⟩⟩

/-- Two steps fail where the first does, or where the second does with its result. -/
theorem bind_eq_error_iff {first : Except ε α} {next : α → Except ε β} {e : ε} :
    (first >>= next) = .error e ↔
      first = .error e ∨ ∃ value, first = .ok value ∧ next value = .error e := by
  cases first with
  | error e' => simp [bind, Except.bind]
  | ok value => simp [bind, Except.bind]

/-- A step on every element fails only as it does on one of them. -/
theorem exists_of_mapM_eq_error {step : α → Except ε β} {items : List α} {e : ε}
    (h : items.mapM step = .error e) : ∃ item ∈ items, step item = .error e := by
  induction items with
  | nil => simp [pure, Except.pure] at h
  | cons item items ih =>
      rw [List.mapM_cons] at h
      rcases bind_eq_error_iff.mp h with hfirst | ⟨result, -, hrest⟩
      · exact ⟨item, List.mem_cons_self, hfirst⟩
      · -- Putting the results together does not fail, so the others did.
        rcases bind_eq_error_iff.mp hrest with hothers | ⟨results, -, hcons⟩
        · obtain ⟨other, hother, hstep⟩ := ih hothers
          exact ⟨other, List.mem_cons_of_mem _ hother, hstep⟩
        · simp [pure, Except.pure] at hcons

/-- A step on every element gives a result for each. -/
theorem exists_mem_of_mapM_eq_ok {step : α → Except ε β} {items : List α} {results : List β}
    (h : items.mapM step = .ok results) {item : α} (hitem : item ∈ items) :
    ∃ result ∈ results, step item = .ok result := by
  have hall := mapM_eq_ok_iff.mp h
  induction hall with
  | nil => exact absurd hitem List.not_mem_nil
  | cons hfirst hrest ih =>
      rcases List.mem_cons.mp hitem with rfl | hmem
      · exact ⟨_, List.mem_cons_self, hfirst⟩
      · obtain ⟨result, hresult, hstep⟩ := ih (mapM_eq_ok_iff.mpr hrest) hmem
        exact ⟨result, List.mem_cons_of_mem _ hresult, hstep⟩

/-- A step on every element succeeds only if it does on each. -/
theorem exists_of_mapM_eq_ok {step : α → Except ε β} {items : List α} {results : List β}
    (h : items.mapM step = .ok results) {item : α} (hitem : item ∈ items) :
    ∃ result, step item = .ok result :=
  (exists_mem_of_mapM_eq_ok h hitem).imp fun _ hresult => hresult.2

/-- A step on every element succeeds if it does on each, and what is known of each result is known
of all. -/
theorem exists_mapM_eq_ok {step : α → Except ε β} {known : α → β → Prop} {items : List α}
    (h : ∀ item ∈ items, ∃ result, step item = .ok result ∧ known item result) :
    ∃ results, items.mapM step = .ok results ∧ List.Forall₂ known items results := by
  induction items with
  | nil => exact ⟨[], rfl, .nil⟩
  | cons item items ih =>
      obtain ⟨⟨result, hresult, hknown⟩, hitems⟩ := List.forall_mem_cons.mp h
      obtain ⟨results, hresults, hall⟩ := ih hitems
      exact ⟨result :: results,
        mapM_eq_ok_iff.mpr (.cons hresult (mapM_eq_ok_iff.mp hresults)), .cons hknown hall⟩

/-- A check of every element passes if each element does. -/
theorem forM_eq_ok_iff {check : α → Except ε Unit} {items : List α} :
    items.forM check = .ok () ↔ ∀ item ∈ items, check item = .ok () := by
  induction items with
  | nil => exact ⟨fun _ _ hitem => absurd hitem List.not_mem_nil, fun _ => rfl⟩
  | cons item items ih =>
      show (check item >>= fun _ => items.forM check) = .ok () ↔ _
      rw [check_eq_ok_iff, ih, List.forall_mem_cons]

/-- A check of every element fails only as it does on one of them. -/
theorem exists_of_forM_eq_error {check : α → Except ε Unit} {items : List α} {e : ε}
    (h : items.forM check = .error e) : ∃ item ∈ items, check item = .error e := by
  induction items with
  | nil => simp [List.forM, pure, Except.pure] at h
  | cons item items ih =>
      have hsteps : (check item >>= fun _ => items.forM check) = .error e := h
      rcases bind_eq_error_iff.mp hsteps with hfirst | ⟨-, -, hrest⟩
      · exact ⟨item, List.mem_cons_self, hfirst⟩
      · obtain ⟨other, hother, hcheck⟩ := ih hrest
        exact ⟨other, List.mem_cons_of_mem _ hother, hcheck⟩

/-- Each result of steps on all elements is that of the step on one of them. -/
theorem exists_of_mem_mapM {step : α → Except ε β} {items : List α} {results : List β}
    (h : items.mapM step = .ok results) {result : β} (hresult : result ∈ results) :
    ∃ item ∈ items, step item = .ok result := by
  have hall := mapM_eq_ok_iff.mp h
  induction hall with
  | nil => exact absurd hresult List.not_mem_nil
  | cons hfirst hrest ih =>
      rcases List.mem_cons.mp hresult with rfl | hmem
      · exact ⟨_, List.mem_cons_self, hfirst⟩
      · obtain ⟨item, hitem, hstep⟩ := ih (mapM_eq_ok_iff.mpr hrest) hmem
        exact ⟨item, List.mem_cons_of_mem _ hitem, hstep⟩

section First

/-! ### Taking the first result

The element that first has a result decides, and the others only have to agree with it. -/

/-- The result is found in the first element that has one, and all elements after that agree. -/
def FirstOf (absent : α → Prop) (found agrees : β → α → Prop) (items : List α) (result : β) :
    Prop :=
  ∃ before item rest, items = before ++ item :: rest ∧ (∀ other ∈ before, absent other) ∧
    found result item ∧ ∀ other ∈ rest, agrees result other

variable {add : Option β → α → Except ε (Option β)} {absent : α → Prop}
  {found agrees : β → α → Prop} {items : List α} {result : β}

/-- A single element has to be the one that has the result. -/
theorem FirstOf.singleton {item : α} (h : found result item) :
    FirstOf absent found agrees [item] result :=
  ⟨[], item, [], rfl, fun _ hmem => absurd hmem List.not_mem_nil, h,
    fun _ hmem => absurd hmem List.not_mem_nil⟩

/-- What was found was found in one of the items. -/
theorem FirstOf.exists_found (h : FirstOf absent found agrees items result) :
    ∃ item ∈ items, found result item := by
  obtain ⟨before, item, rest, rfl, -, hfound, -⟩ := h
  exact ⟨item, List.mem_append_right before List.mem_cons_self, hfound⟩

/-- All elements agree with the result, if those without one agree with anything. -/
theorem FirstOf.forall_agrees (h : FirstOf absent found agrees items result)
    (habsent : ∀ item, absent item → agrees result item)
    (hfound : ∀ item, found result item → agrees result item) :
    ∀ item ∈ items, agrees result item := by
  obtain ⟨before, item, rest, rfl, hbefore, hitem, hrest⟩ := h
  intro other hother
  rcases List.mem_append.mp hother with hearlier | hlater
  · exact habsent other (hbefore other hearlier)
  · rcases List.mem_cons.mp hlater with rfl | hafter
    · exact hfound other hitem
    · exact hrest other hafter

/-- Once there is a result, all further elements have to agree with it. -/
theorem foldlM_some_eq_ok_iff
    (hkeep : ∀ result item after, add (some result) item = .ok after ↔
      agrees result item ∧ after = some result)
    {after : Option β} :
    items.foldlM add (some result) = .ok after ↔
      (∀ item ∈ items, agrees result item) ∧ after = some result := by
  induction items with
  | nil => simp [pure, Except.pure, eq_comm]
  | cons item items ih =>
      rw [List.foldlM_cons, bind_eq_ok_iff, List.forall_mem_cons]
      constructor
      · rintro ⟨next, hnext, hrest⟩
        obtain ⟨hitem, rfl⟩ := (hkeep result item next).mp hnext
        obtain ⟨hagrees, hafter⟩ := ih.mp hrest
        exact ⟨⟨hitem, hagrees⟩, hafter⟩
      · rintro ⟨⟨hitem, hagrees⟩, hafter⟩
        exact ⟨some result, (hkeep result item _).mpr ⟨hitem, rfl⟩, ih.mpr ⟨hagrees, hafter⟩⟩

/-- Without a result so far, the first element that has one decides. -/
theorem foldlM_none_eq_ok_some_iff
    (hkeep : ∀ result item after, add (some result) item = .ok after ↔
      agrees result item ∧ after = some result)
    (hstart : ∀ item after, add none item = .ok after ↔
      (absent item ∧ after = none) ∨ ∃ result, found result item ∧ after = some result) :
    items.foldlM add none = .ok (some result) ↔ FirstOf absent found agrees items result := by
  unfold FirstOf
  induction items with
  | nil => simp [pure, Except.pure]
  | cons item items ih =>
      rw [List.foldlM_cons, bind_eq_ok_iff]
      constructor
      · rintro ⟨next, hnext, hrest⟩
        -- The element has no result and the search goes on, or its result is the one.
        rcases (hstart item next).mp hnext with ⟨habsent, rfl⟩ | ⟨first, hfirst, rfl⟩
        · obtain ⟨before, other, rest, rfl, hbefore, hfound⟩ := ih.mp hrest
          exact ⟨item :: before, other, rest, rfl, List.forall_mem_cons.mpr ⟨habsent, hbefore⟩,
            hfound⟩
        · obtain ⟨hagrees, heq⟩ := (foldlM_some_eq_ok_iff hkeep).mp hrest
          obtain rfl := Option.some.inj heq
          exact ⟨[], item, items, rfl, fun _ hmem => absurd hmem List.not_mem_nil, hfirst, hagrees⟩
      · rintro ⟨before, other, rest, hsplit, hbefore, hfound, hagrees⟩
        cases before with
        | nil =>
            obtain ⟨rfl, rfl⟩ := List.cons.inj hsplit
            exact ⟨some result, (hstart item _).mpr (.inr ⟨result, hfound, rfl⟩),
              (foldlM_some_eq_ok_iff hkeep).mpr ⟨hagrees, rfl⟩⟩
        | cons first before =>
            obtain ⟨rfl, rfl⟩ := List.cons.inj hsplit
            obtain ⟨hfirst, hbefore⟩ := List.forall_mem_cons.mp hbefore
            exact ⟨none, (hstart item _).mpr (.inl ⟨hfirst, rfl⟩),
              ih.mpr ⟨before, other, rest, rfl, hbefore, hfound, hagrees⟩⟩

/-- Without a result so far, there is none in the end exactly if no element has one. -/
theorem foldlM_none_eq_ok_none_iff
    (hkeep : ∀ result item after, add (some result) item = .ok after ↔
      agrees result item ∧ after = some result)
    (hstart : ∀ item after, add none item = .ok after ↔
      (absent item ∧ after = none) ∨ ∃ result, found result item ∧ after = some result) :
    items.foldlM add none = .ok none ↔ ∀ item ∈ items, absent item := by
  induction items with
  | nil => simp [pure, Except.pure]
  | cons item items ih =>
      rw [List.foldlM_cons, bind_eq_ok_iff, List.forall_mem_cons]
      constructor
      · rintro ⟨next, hnext, hrest⟩
        rcases (hstart item next).mp hnext with ⟨habsent, rfl⟩ | ⟨first, -, rfl⟩
        · exact ⟨habsent, ih.mp hrest⟩
        · -- A result is never given up.
          have hkept := ((foldlM_some_eq_ok_iff hkeep).mp hrest).2
          simp at hkept
      · rintro ⟨habsent, hrest⟩
        exact ⟨none, (hstart item none).mpr (.inl ⟨habsent, rfl⟩), ih.mpr hrest⟩

/-- Whether there is a result, said without an order of the elements: some element has one, none is
refused, and what is seen of the results is the same for all that have one. -/
theorem FirstOf.exists_iff {τ : Type} {view : β → τ} {refused : α → Prop}
    (habsent : ∀ item, absent item ↔ ¬refused item ∧ ∀ result, ¬found result item)
    (hagrees : ∀ result item, agrees result item ↔
      ¬refused item ∧ ∀ other, found other item → view other = view result)
    (hself : ∀ result item, found result item → agrees result item) :
    (∃ result, FirstOf absent found agrees items result) ↔
      (∃ item ∈ items, ∃ result, found result item) ∧ (∀ item ∈ items, ¬refused item) ∧
        ∀ a ∈ items, ∀ b ∈ items, ∀ x y, found x a → found y b → view x = view y := by
  constructor
  · rintro ⟨result, hresult⟩
    have hall := hresult.forall_agrees
      (fun item hitem => (hagrees result item).mpr
        ⟨((habsent item).mp hitem).1, fun other hother =>
          absurd hother (((habsent item).mp hitem).2 other)⟩)
      (hself result)
    obtain ⟨item, hitem, hfound⟩ := hresult.exists_found
    refine ⟨⟨item, hitem, result, hfound⟩,
      fun item hitem => ((hagrees result item).mp (hall item hitem)).1, ?_⟩
    -- Both are compared with the result.
    intro a ha b hb x y hx hy
    have hxResult := ((hagrees result a).mp (hall a ha)).2 x hx
    have hyResult := ((hagrees result b).mp (hall b hb)).2 y hy
    exact hxResult.trans hyResult.symm
  · rintro ⟨hexists, hrefused, hsame⟩
    induction items with
    | nil =>
        obtain ⟨item, hitem, -⟩ := hexists
        exact absurd hitem List.not_mem_nil
    | cons item items ih =>
        obtain ⟨hitem, hrest⟩ := List.forall_mem_cons.mp hrefused
        by_cases hhere : ∃ result, found result item
        · -- The result is that of this element, and those of later elements look like it.
          obtain ⟨result, hfound⟩ := hhere
          refine ⟨result, [], item, items, rfl, fun _ hmem => absurd hmem List.not_mem_nil, hfound,
            fun other hother => (hagrees result other).mpr ⟨hrest other hother, fun x hx => ?_⟩⟩
          exact hsame other (List.mem_cons_of_mem _ hother) item List.mem_cons_self x result hx
            hfound
        · have hlater : ∃ other ∈ items, ∃ result, found result other := by
            obtain ⟨other, hother, result, hfound⟩ := hexists
            rcases List.mem_cons.mp hother with rfl | hmem
            · exact absurd ⟨result, hfound⟩ hhere
            · exact ⟨other, hmem, result, hfound⟩
          obtain ⟨result, before, first, rest, rfl, hbefore, hfirst⟩ := ih hlater hrest
            fun a ha b hb => hsame a (List.mem_cons_of_mem _ ha) b (List.mem_cons_of_mem _ hb)
          refine ⟨result, item :: before, first, rest, rfl, List.forall_mem_cons.mpr ⟨?_, hbefore⟩,
            hfirst⟩
          exact (habsent item).mpr ⟨hitem, fun other hother => hhere ⟨other, hother⟩⟩

end First

/-- Steps through a list fail as one of them does. -/
theorem exists_of_foldlM_eq_error {step : β → α → Except ε β} {items : List α} {start : β} {e : ε}
    (h : items.foldlM step start = .error e) :
    ∃ state, ∃ item ∈ items, step state item = .error e := by
  induction items generalizing start with
  | nil => simp [pure, Except.pure] at h
  | cons item items ih =>
      rw [List.foldlM_cons] at h
      rcases bind_eq_error_iff.mp h with hfirst | ⟨next, -, hrest⟩
      · exact ⟨start, item, List.mem_cons_self, hfirst⟩
      · obtain ⟨state, other, hother, hstep⟩ := ih hrest
        exact ⟨state, other, List.mem_cons_of_mem _ hother, hstep⟩

end SearchDsl.Steps
