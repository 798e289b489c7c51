import SearchDsl.Path

/-!
# `SearchDsl.Proofs.Path`: the order of paths, and their names

Lying below is a strict order, so a chain of paths is checked by looking at neighbours
(`checkChain_eq_ok_iff`) and has no path twice (`not_mem_of_chain`). A name below a path is one more
segment (`segments_join`), provided that it has no dot in it. Going down along the names of a path
leads back to the path, whatever its names are (`descend_segments`).
-/

set_option autoImplicit false

namespace SearchDsl.Path

/-! ### Paths below others -/

/-- A path lies below another one if it extends it by a dot and at least one more segment. -/
theorem isBelow_iff_exists_append {path ancestor : String} :
    isBelow path ancestor = true ↔
      ∃ below : String, below ≠ "" ∧ path = ancestor ++ "." ++ below := by
  rw [isBelow_iff]
  constructor
  · rintro ⟨rest, hne, hpath⟩
    refine ⟨String.ofList rest, fun hempty => hne ?_, String.toList_inj.mp ?_⟩
    · simpa using congrArg String.toList hempty
    · simp [hpath]
  · rintro ⟨below, hne, rfl⟩
    exact ⟨below.toList, fun hempty => hne (String.toList_inj.mp (by simpa using hempty)), by simp⟩

/-- What lies below a path below a third one lies below that one too. -/
theorem isBelow_trans {a b c : String} (hab : isBelow a b = true) (hbc : isBelow b c = true) :
    isBelow a c = true := by
  rw [isBelow_iff] at hab hbc ⊢
  obtain ⟨below, -, ha⟩ := hab
  obtain ⟨between, -, hb⟩ := hbc
  exact ⟨between ++ '.' :: below, by simp, by simp [ha, hb]⟩

/-- What lies below another path is longer. -/
theorem length_lt_of_isBelow {path ancestor : String} (h : isBelow path ancestor = true) :
    ancestor.length < path.length := by
  obtain ⟨rest, -, hpath⟩ := (isBelow_iff path ancestor).mp h
  rw [← String.length_toList, ← String.length_toList, hpath, List.length_append, List.length_cons]
  omega

/-- No path lies below itself. -/
theorem ne_of_isBelow {path ancestor : String} (h : isBelow path ancestor = true) :
    ancestor ≠ path := fun heq =>
  absurd (length_lt_of_isBelow h) (heq ▸ Nat.lt_irrefl _)

/-- No path comes twice in a chain, in its first part and again in the rest. -/
theorem not_mem_of_chain {before after : List String} {path : String}
    (h : (before ++ after).Pairwise fun outer inner => isBelow inner outer = true)
    (hpath : path ∈ before) : path ∉ after := by
  intro hagain
  have hbelow := (List.pairwise_append.mp h).2.2 path hpath path hagain
  exact ne_of_isBelow hbelow rfl

/-- A path with a name added lies below it. -/
theorem isBelow_join (parent : String) {name : String} (h : name ≠ "") :
    isBelow (join (some parent) name) parent = true := by
  rw [isBelow_iff]
  refine ⟨name.toList, ?_, by simp [join]⟩
  intro hempty
  exact h (String.toList_inj.mp hempty)

/-- What a path with a last name extends by a dot and more is the path without that name, or is
extended by a dot and more by it. -/
theorem above_of_append_name {parent name above rest : List Char} (hname : '.' ∉ name)
    (h : parent ++ '.' :: name = above ++ '.' :: rest) :
    above = parent ∨ ∃ between, parent = above ++ '.' :: between := by
  rcases List.append_eq_append_iff.mp h with ⟨extra, habove, hrest⟩ | ⟨extra, hparent, hrest⟩
  · -- The dot after `above` would have to be inside the name.
    cases extra with
    | nil => exact .inl (by simpa using habove)
    | cons c extra =>
        obtain ⟨rfl, hsplit⟩ := List.cons.inj hrest
        exact absurd (hsplit ▸ List.mem_append_right _ List.mem_cons_self) hname
  · cases extra with
    | nil => exact .inl (by simpa using hparent.symm)
    | cons c extra =>
        obtain ⟨rfl, -⟩ := List.cons.inj hrest
        exact .inr ⟨extra, hparent⟩

/-- Checking neighbours checks all pairs. -/
theorem checkChain_eq_ok_iff {hierarchy : List String} :
    checkChain hierarchy = .ok () ↔
      hierarchy.Pairwise fun outer path => isBelow path outer = true := by
  induction hierarchy with
  | nil => simp [checkChain]
  | cons outer rest ih =>
      cases rest with
      | nil => simp [checkChain]
      | cons path rest =>
          rw [checkChain, List.pairwise_cons]
          cases hbelow : isBelow path outer with
          | false =>
              refine ⟨fun h => by simp at h, fun h => ?_⟩
              simp [h.1 path List.mem_cons_self] at hbelow
          | true =>
              rw [if_pos rfl, ih]
              -- What comes later lies below the neighbour, which lies below the first path.
              refine ⟨fun h => ⟨fun deeper hdeeper => ?_, h⟩, fun h => h.2⟩
              rcases List.mem_cons.mp hdeeper with rfl | hlater
              · exact hbelow
              · exact isBelow_trans ((List.pairwise_cons.mp h).1 deeper hlater) hbelow

/-! ### The names of a path -/

/-- There is a segment in every text, if only an empty one. -/
theorem splitDots_ne_nil (chars : List Char) : splitDots chars ≠ [] := by
  induction chars with
  | nil => simp [splitDots]
  | cons c rest ih =>
      unfold splitDots
      split
      · simp
      · split <;> simp

/-- A text without dots is one segment. -/
theorem splitDots_of_not_mem {chars : List Char} (h : '.' ∉ chars) : splitDots chars = [chars] := by
  induction chars with
  | nil => rfl
  | cons c rest ih =>
      have hc : c ≠ '.' := fun heq => h (heq ▸ List.mem_cons_self)
      rw [splitDots, if_neg hc, ih fun hmem => h (List.mem_cons_of_mem _ hmem)]

/-- A dot separates the segments before it from those behind it. -/
theorem splitDots_append (before after : List Char) :
    splitDots (before ++ '.' :: after) = splitDots before ++ splitDots after := by
  induction before with
  | nil => simp [splitDots]
  | cons c before ih =>
      rw [List.cons_append, splitDots, splitDots, ih]
      by_cases hc : c = '.'
      · rw [if_pos hc, if_pos hc, List.cons_append]
      · rw [if_neg hc, if_neg hc]
        cases hsplit : splitDots before with
        | nil => exact absurd hsplit (splitDots_ne_nil before)
        | cons piece more => rfl

/-- A name without a dot is a path of one segment. -/
theorem segments_of_not_mem {name : String} (h : '.' ∉ name.toList) : segments name = [name] := by
  rw [segments, splitDots_of_not_mem h, List.map_singleton, String.ofList_toList]

/-- The names of a path that may be left out. -/
def segmentsOf : Option String → List String
  | some path => segments path
  | none => []

/-- A name below a path is one more segment. -/
theorem segments_join (parent : Option String) {name : String} (h : '.' ∉ name.toList) :
    segments (join parent name) = segmentsOf parent ++ [name] := by
  rw [← segments_of_not_mem h]
  cases parent with
  | none => rfl
  | some parent =>
      have happend : (parent ++ "." ++ name).toList = parent.toList ++ '.' :: name.toList := by simp
      show segments (parent ++ "." ++ name) = segments parent ++ segments name
      rw [segments, happend, splitDots_append, List.map_append]
      rfl

/-- Where names lead to, one below the other, from a path that may be left out. -/
def descend (start : Option String) (names : List String) : Option String :=
  names.foldl (fun path name => some (join path name)) start

/-- The last name is joined to where the others lead to. -/
theorem descend_concat (start : Option String) (names : List String) (name : String) :
    descend start (names ++ [name]) = some (join (descend start names) name) := by
  rw [descend, List.foldl_append]
  rfl

/-- Names lead to the path that has a dot between any two of them. -/
theorem descend_eq_intercalate (start : String) (names : List String) :
    descend (some start) names = some (".".intercalate (start :: names)) := by
  induction names generalizing start with
  | nil => rw [String.intercalate_singleton]; rfl
  | cons name names ih =>
      have hstep : descend (some start) (name :: names)
          = descend (some (start ++ "." ++ name)) names := rfl
      rw [hstep, ih, String.intercalate_cons_append, String.intercalate_cons_cons]

/-- The first piece of a text may already have something before it. -/
theorem descend_splitDots {chars piece : List Char} {more : List (List Char)} (start : List Char)
    (h : splitDots chars = piece :: more) :
    descend (some (String.ofList (start ++ piece))) (more.map String.ofList)
      = some (String.ofList (start ++ chars)) := by
  induction chars generalizing start piece more with
  | nil =>
      obtain ⟨rfl, rfl⟩ := List.cons.inj h
      rfl
  | cons c rest ih =>
      obtain ⟨next, later, hrest⟩ := List.exists_cons_of_ne_nil (splitDots_ne_nil rest)
      rw [splitDots, hrest] at h
      split at h
      · next hc =>
          -- The piece ends here, and the next one starts after the dot.
          obtain ⟨rfl, rfl⟩ := List.cons.inj h
          have hstep := ih (start ++ ['.']) hrest
          have hjoin : join (some (String.ofList (start ++ []))) (String.ofList next)
              = String.ofList (start ++ ['.'] ++ next) := by
            apply String.toList_inj.mp
            simp [join]
          rw [List.map_cons, descend, List.foldl_cons, hjoin, ← descend, hstep, hc]
          simp
      · obtain ⟨rfl, rfl⟩ := List.cons.inj h
        have hstep := ih (start ++ [c]) hrest
        simpa using hstep

/-- The names of a path lead to the path. -/
theorem descend_segments (path : String) : descend none (segments path) = some path := by
  obtain ⟨piece, more, hsplit⟩ := List.exists_cons_of_ne_nil (splitDots_ne_nil path.toList)
  have h := descend_splitDots [] hsplit
  rw [List.nil_append, List.nil_append, String.ofList_toList] at h
  rw [segments, hsplit]
  exact h

/-- Names lead to the path that they start from or to one that goes on after it. -/
theorem eq_or_append_of_descend {start path : String} {names : List String}
    (h : descend (some start) names = some path) :
    path = start ∨ ∃ rest, path = start ++ "." ++ rest := by
  induction names generalizing start with
  | nil => exact .inl (Option.some.inj h).symm
  | cons name names ih =>
      right
      have hbelow : descend (some (join (some start) name)) names = some path := h
      rcases ih hbelow with rfl | ⟨rest, rfl⟩
      · exact ⟨name, rfl⟩
      · exact ⟨name ++ "." ++ rest, by simp [join, String.append_assoc]⟩

end SearchDsl.Path
