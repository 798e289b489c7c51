import SearchDsl.Json.Basic

/-!
# `SearchDsl.Proofs.Json.Members`: looking up members of rendered objects

Rendered objects are put together from single members and from options that may be left out. Where
the order of the members is not known beforehand they are set one after the other (`Json.collect`),
and a member stays unless another one with its key is set later.
-/

set_option autoImplicit false

namespace SearchDsl.Json

/-- A member is found in the object that it is the only one of. -/
theorem get?_single_self (key : String) (value : Json) :
    (single key value).get? key = some value := by
  simp [single, get?, find?]

/-- The first member is found by its key. -/
theorem find?_cons_self (key : String) (value : Json) (rest : List (String × Json)) :
    find? key ((key, value) :: rest) = some value := by
  rw [find?, if_pos rfl]

/-- A member with another key is not looked at. -/
theorem find?_cons_of_ne {key other : String} (h : other ≠ key) (value : Json)
    (rest : List (String × Json)) : find? key ((other, value) :: rest) = find? key rest := by
  rw [find?, if_neg (Ne.symm h)]

/-- An option with another key is not looked at. -/
theorem find?_member?_append {key other : String} (h : other ≠ key) (value : Option Json)
    (rest : List (String × Json)) :
    find? key (member? other value ++ rest) = find? key rest := by
  cases value with
  | none => rfl
  | some value => simp [member?, find?, Ne.symm h]

/-- An option is found if it is there and no member after it has its key. -/
theorem find?_member?_self (key : String) (value : Option Json) {rest : List (String × Json)}
    (h : find? key rest = none) : find? key (member? key value ++ rest) = value := by
  cases value with
  | none => exact h
  | some value => simp [member?, find?]

/-- Members that come first are found first. -/
theorem find?_append (key : String) (members more : List (String × Json)) :
    find? key (members ++ more) = (find? key members).or (find? key more) := by
  induction members with
  | nil => rfl
  | cons member members ih =>
      obtain ⟨k, v⟩ := member
      by_cases hkey : k = key
      · rw [hkey, List.cons_append, find?_cons_self, find?_cons_self, Option.some_or]
      · rw [List.cons_append, find?_cons_of_ne hkey, find?_cons_of_ne hkey, ih]

/-- What is found under a key is a member. -/
theorem mem_of_find? {key : String} {value : Json} {members : List (String × Json)}
    (h : find? key members = some value) : (key, value) ∈ members := by
  induction members with
  | nil => simp [find?] at h
  | cons member members ih =>
      obtain ⟨k, v⟩ := member
      unfold find? at h
      split at h
      · rename_i hkey
        obtain rfl := Option.some.inj h
        exact hkey ▸ List.mem_cons_self
      · exact List.mem_cons_of_mem _ (ih h)

/-! ### Members that may be left out -/

/-- The members that have a value. -/
def present (entries : List (String × Option Json)) : List (String × Json) :=
  entries.flatMap fun entry => member? entry.1 entry.2

/-- The first entry, if it has a value, stands in front of the others. -/
theorem present_cons (key : String) (value : Option Json) (entries : List (String × Option Json)) :
    present ((key, value) :: entries) = member? key value ++ present entries :=
  List.flatMap_cons

/-- A member that is there comes from an entry with its key. -/
theorem exists_of_mem_present {member : String × Json} {entries : List (String × Option Json)}
    (h : member ∈ present entries) : ∃ entry ∈ entries, entry.1 = member.1 := by
  obtain ⟨entry, hentry, hmember⟩ := List.mem_flatMap.mp h
  obtain ⟨value, -, rfl⟩ := Option.map_eq_some_iff.mp (Option.mem_toList.mp hmember)
  exact ⟨entry, hentry, rfl⟩

/-- A key that no member has is not found. -/
theorem find?_eq_none_of_forall {key : String} {members : List (String × Json)}
    (h : ∀ member ∈ members, member.1 ≠ key) : find? key members = none := by
  induction members with
  | nil => rfl
  | cons member members ih =>
      obtain ⟨hfirst, hrest⟩ := List.forall_mem_cons.mp h
      rw [find?_cons_of_ne hfirst, ih hrest]

/-- Each entry is found as it is, if they come in the order of their keys. -/
theorem find?_present {key : String} {value : Option Json} {entries : List (String × Option Json)}
    (hsorted : entries.Pairwise fun a b => a.1 < b.1) (h : (key, value) ∈ entries) :
    find? key (present entries) = value := by
  induction entries with
  | nil => exact absurd h List.not_mem_nil
  | cons entry entries ih =>
      obtain ⟨k, v⟩ := entry
      obtain ⟨hfirst, hrest⟩ := List.pairwise_cons.mp hsorted
      rw [present_cons]
      rcases List.mem_cons.mp h with heq | hmem
      · obtain ⟨rfl, rfl⟩ := Prod.mk.inj heq
        refine find?_member?_self key value (find?_eq_none_of_forall fun member hmember => ?_)
        obtain ⟨entry, hentry, hkey⟩ := exists_of_mem_present hmember
        have hlt : key < member.1 := hkey ▸ hfirst entry hentry
        exact fun heq => String.lt_irrefl key (heq ▸ hlt)
      · have hne : k ≠ key := fun heq => String.lt_irrefl key (heq ▸ hfirst _ hmem)
        rw [find?_member?_append hne, ih hrest hmem]

/-! ### Setting members -/

section Setting

variable {key : String} {value : Json} {members : List (String × Json)} {member : String × Json}

/-- The value of a key that is there is replaced. -/
theorem put_cons_self (key : String) (old value : Json) (rest : List (String × Json)) :
    put key value ((key, old) :: rest) = (key, value) :: rest := by
  rw [put, if_neg (String.lt_irrefl key), if_pos rfl]

/-- A member is put in front of one with a greater key. -/
theorem put_cons_of_lt {other : String} (h : key < other) (old : Json)
    (rest : List (String × Json)) :
    put key value ((other, old) :: rest) = (key, value) :: (other, old) :: rest := by
  rw [put, if_pos h]

/-- A member is put somewhere behind one with a smaller key. -/
theorem put_cons_of_gt {other : String} (h : other < key) (old : Json)
    (rest : List (String × Json)) :
    put key value ((other, old) :: rest) = (other, old) :: put key value rest := by
  have hne : key ≠ other := fun heq => String.lt_irrefl key (heq ▸ h)
  rw [put, if_neg (String.lt_asymm h), if_neg hne]

/-- A member is put in front of members with greater keys. -/
theorem put_of_forall_lt (h : ∀ member ∈ members, key < member.1) :
    put key value members = (key, value) :: members := by
  cases members with
  | nil => rfl
  | cons first members => exact put_cons_of_lt (h first List.mem_cons_self) first.2 members

/-- Setting a member leaves all others as they are, whether the member was there or not. -/
theorem put_present {entries : List (String × Option Json)}
    (hsorted : entries.Pairwise fun a b => a.1 < b.1) (h : key ∈ entries.map Prod.fst) :
    put key value (present entries)
      = present (entries.map fun entry =>
          if entry.1 = key then (key, some value) else entry) := by
  induction entries with
  | nil => exact absurd h List.not_mem_nil
  | cons entry entries ih =>
      obtain ⟨k, v⟩ := entry
      obtain ⟨hfirst, hrest⟩ := List.pairwise_cons.mp hsorted
      rw [List.map_cons, present_cons]
      by_cases hkey : k = key
      · subst hkey
        -- All entries behind have greater keys, so none of them changes.
        have hothers : entries.map (fun entry => if entry.1 = k then (k, some value) else entry)
            = entries := by
          refine (List.map_congr_left fun entry hentry => if_neg fun heq => ?_).trans
            (List.map_id entries)
          have hlt : k < entry.1 := hfirst entry hentry
          exact String.lt_irrefl k (heq ▸ hlt)
        have hbehind : ∀ member ∈ present entries, k < member.1 := fun member hmember => by
          obtain ⟨entry, hentry, hkey⟩ := exists_of_mem_present hmember
          exact hkey ▸ hfirst entry hentry
        rw [if_pos rfl, present_cons, hothers]
        cases v with
        | none => exact put_of_forall_lt hbehind
        | some old => exact put_cons_self k old value _
      · have hmem : key ∈ entries.map Prod.fst :=
          (List.mem_cons.mp h).resolve_left (Ne.symm hkey)
        obtain ⟨entry, hentry, rfl⟩ := List.mem_map.mp hmem
        rw [if_neg hkey, present_cons, ← ih hrest hmem]
        cases v with
        | none => rfl
        | some old => exact put_cons_of_gt (hfirst entry hentry) old _

/-- Setting a member brings nothing else in. -/
theorem eq_or_mem_of_mem_put (h : member ∈ put key value members) :
    member = (key, value) ∨ member ∈ members := by
  induction members with
  | nil => exact .inl (List.mem_singleton.mp h)
  | cons first members ih =>
      obtain ⟨k, v⟩ := first
      unfold put at h
      split at h
      · exact List.mem_cons.mp h
      · split at h
        · exact (List.mem_cons.mp h).imp_right (List.mem_cons_of_mem _)
        · rcases List.mem_cons.mp h with hfirst | hrest
          · exact .inr (hfirst ▸ List.mem_cons_self)
          · exact (ih hrest).imp_right (List.mem_cons_of_mem _)

/-- A member with another key stays. -/
theorem mem_put_of_ne (h : member ∈ members) (hkey : member.1 ≠ key) :
    member ∈ put key value members := by
  induction members with
  | nil => exact absurd h List.not_mem_nil
  | cons first members ih =>
      obtain ⟨k, v⟩ := first
      unfold put
      split
      · exact List.mem_cons_of_mem _ h
      · split
        · rename_i hsame
          -- The first member is replaced, and it has the key that is set.
          rcases List.mem_cons.mp h with rfl | hrest
          · exact absurd hsame.symm hkey
          · exact List.mem_cons_of_mem _ hrest
        · rcases List.mem_cons.mp h with rfl | hrest
          · exact List.mem_cons_self
          · exact List.mem_cons_of_mem _ (ih hrest)

/-- Setting a key that is not there adds a member and leaves all others. -/
theorem perm_put (h : ∀ member ∈ members, member.1 ≠ key) :
    (put key value members).Perm ((key, value) :: members) := by
  induction members with
  | nil => exact List.Perm.refl _
  | cons first members ih =>
      obtain ⟨k, v⟩ := first
      obtain ⟨hfirst, hrest⟩ := List.forall_mem_cons.mp h
      unfold put
      split
      · exact List.Perm.refl _
      · rw [if_neg fun heq => hfirst heq.symm]
        exact ((ih hrest).cons _).trans (List.Perm.swap _ _ _)

/-- Setting members one after the other brings nothing else in. -/
theorem mem_of_mem_foldl_put {done : List (String × Json)}
    (h : member ∈ members.foldl (fun done member => put member.1 member.2 done) done) :
    member ∈ done ∨ member ∈ members := by
  induction members generalizing done with
  | nil => exact .inl h
  | cons first members ih =>
      rcases ih h with hput | hrest
      · rcases eq_or_mem_of_mem_put hput with rfl | hdone
        · exact .inr List.mem_cons_self
        · exact .inl hdone
      · exact .inr (List.mem_cons_of_mem _ hrest)

/-- Only what was set is there in the end. -/
theorem mem_of_mem_collect (h : member ∈ collect members) : member ∈ members :=
  (mem_of_mem_foldl_put h).resolve_left List.not_mem_nil

/-- The first member stays if no other one has its key. -/
theorem mem_collect_cons (h : ∀ other ∈ members, member.1 ≠ other.1) :
    member ∈ collect (member :: members) := by
  have hall : ∀ done : List (String × Json), member ∈ done →
      member ∈ members.foldl (fun done member => put member.1 member.2 done) done := by
    induction members with
    | nil => exact fun done hmem => hmem
    | cons first members ih =>
        intro done hmem
        obtain ⟨hfirst, hrest⟩ := List.forall_mem_cons.mp h
        exact ih hrest _ (mem_put_of_ne hmem hfirst)
  exact hall [member] List.mem_cons_self

/-- Of the members with a key the one that is set last is found, and an older one if none is set. -/
theorem find?_foldl_put (key : String) (members done : List (String × Json)) :
    find? key (members.foldl (fun done member => put member.1 member.2 done) done)
      = (find? key members.reverse).or (find? key done) := by
  induction members generalizing done with
  | nil => rfl
  | cons member members ih =>
      obtain ⟨k, v⟩ := member
      rw [List.foldl_cons, ih, List.reverse_cons, find?_append, Option.or_assoc]
      congr 1
      by_cases hkey : k = key
      · rw [hkey, find?_put_self, find?_cons_self, Option.some_or]
      · rw [find?_put_of_ne (Ne.symm hkey), find?_cons_of_ne hkey, find?, Option.none_or]

/-- Of members with the same key the last one that was set is found. -/
theorem find?_collect (key : String) (members : List (String × Json)) :
    find? key (collect members) = find? key members.reverse := by
  rw [collect, find?_foldl_put, find?, Option.or_none]

end Setting

end SearchDsl.Json
