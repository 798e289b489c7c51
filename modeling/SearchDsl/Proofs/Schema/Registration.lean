import SearchDsl.Proofs.Schema.Nesting

/-!
# `SearchDsl.Proofs.Schema.Registration`: one table for the fields of an index

The checks of an index compare a name with the names before it in the same object. Another way to
find repeated declarations is to enter the fields into a table that has one entry for each path,
and to refuse a path that has an entry already (`Definition.registerAll`). One table serves the
whole index, so a field is compared with all fields that were entered before it, at whatever depth
they are.

Both come to the same, errors included (`Index.fields_ofDefinitions`). Names have no dots, so two
fields have the same path only if they have the same name in the same object. What the table has
below a path is therefore known from the names that were declared there (`Definition.Tracks`), and
nothing that has been entered is ever replaced.
-/

set_option autoImplicit false

open SearchDsl.Path (segments segmentsOf)

namespace SearchDsl

namespace Definition

/-- Checks the name of a field and that the table does not have its path. -/
def checkEntry (table : List Descriptor) (path name : String) : Except Error Unit :=
  if isValidName name = false then .error (.argument (.invalidFieldName name))
  else if path ∈ table.map Descriptor.path then .error (.argument (.duplicateField path))
  else .ok ()

mutual

/-- Enters the field of a definition into a table, and then those below it. -/
def register (parent : Option String) (hierarchy : List String) (table : List Descriptor) :
    Definition → Except Error (List Descriptor)
  | value name type multiValued => do
      let path := Path.join parent name
      checkEntry table path name
      type.check path
      pure (table ++ [⟨path, name, .value type, multiValued, hierarchy⟩])
  | object name layout multiValued children => do
      let path := Path.join parent name
      let inside := enclose layout path hierarchy
      checkEntry table path name
      -- The object is in the table before anything that is declared in it.
      registerAll (some path) inside
        (table ++ [⟨path, name, .object layout, multiValued, inside⟩]) children

/-- Enters the fields of several definitions, in order. -/
def registerAll (parent : Option String) (hierarchy : List String) (table : List Descriptor) :
    List Definition → Except Error (List Descriptor)
  | [] => pure table
  | definition :: rest => do
      let table ← register parent hierarchy table definition
      registerAll parent hierarchy table rest

end

/-! ### What the table has below a path -/

/-- What a table has below a path belongs to the names declared there so far, each of which has an
entry. -/
structure Tracks (table : List Descriptor) (parent : Option String) (before : List String) :
    Prop where
  entered : ∀ name ∈ before, Path.join parent name ∈ table.map Descriptor.path
  declared : ∀ field ∈ table, ∀ {name : String} {rest : List String},
    segments field.path = segmentsOf parent ++ name :: rest → name ∈ before

namespace Tracks

variable {table : List Descriptor} {parent : Option String} {before : List String} {name : String}

/-- The check of an entry is that of the name among its siblings. -/
theorem checkEntry_eq (h : Tracks table parent before) (name : String) :
    checkEntry table (Path.join parent name) name = checkName parent before name := by
  unfold checkEntry checkName
  cases hvalid : isValidName name with
  | false => rfl
  | true =>
      have hsame : Path.join parent name ∈ table.map Descriptor.path ↔ name ∈ before := by
        refine ⟨fun hmem => ?_, h.entered name⟩
        obtain ⟨field, hfield, hpath⟩ := List.mem_map.mp hmem
        exact h.declared field hfield
          (hpath ▸ Path.segments_join parent (dot_not_mem_of_isValidName hvalid))
      simp only [hsame]

/-- Below an object that has just been entered the table has nothing yet. -/
theorem enter (h : Tracks table parent before) (hvalid : isValidName name = true)
    (hnew : name ∉ before) {self : Descriptor} (hself : self.path = Path.join parent name) :
    Tracks (table ++ [self]) (some (Path.join parent name)) [] := by
  have hpath := Path.segments_join parent (dot_not_mem_of_isValidName hvalid)
  refine ⟨fun _ hnone => absurd hnone List.not_mem_nil, fun field hfield child rest hbelow => ?_⟩
  -- What lies below the object also lies below the parent, under the name of the object.
  have hsplit : segments field.path = segmentsOf parent ++ name :: child :: rest := by
    rw [hbelow, segmentsOf, hpath, List.append_assoc, List.singleton_append]
  rcases List.mem_append.mp hfield with hbefore | hlast
  · exact absurd (h.declared field hbefore hsplit) hnew
  · -- The object itself has one name less.
    rw [List.mem_singleton.mp hlast, hself, hpath] at hsplit
    simpa using List.append_cancel_left hsplit

/-- After a definition the table has its name below the path. -/
theorem describe (h : Tracks table parent before) (hierarchy : List String)
    {definition : Definition} (hnamed : WellNamed definition) :
    Tracks (table ++ definition.describe parent hierarchy) parent (definition.name :: before) := by
  constructor
  · intro name hname
    rw [List.map_append, List.mem_append]
    rcases List.mem_cons.mp hname with rfl | hbefore
    · refine .inr ?_
      cases definition <;> exact List.mem_cons_self
    · exact .inl (h.entered name hbefore)
  · intro field hfield name rest hbelow
    rcases List.mem_append.mp hfield with hbefore | hlast
    · exact List.mem_cons_of_mem _ (h.declared field hbefore hbelow)
    · obtain ⟨names, hnames⟩ :=
        segments_of_mem_describe parent hierarchy definition hnamed field hlast
      rw [hnames] at hbelow
      obtain ⟨rfl, -⟩ := List.cons.inj (List.append_cancel_left hbelow)
      exact List.mem_cons_self

end Tracks

/-! ### Entering everything -/

mutual

/-- With a table that tracks what was declared before, entering a definition checks it and adds what
it describes. -/
theorem register_eq {table : List Descriptor} {parent : Option String} {before : List String}
    (h : Tracks table parent before) (hierarchy : List String) : ∀ definition : Definition,
      register parent hierarchy table definition
        = (check parent before definition).map fun _ =>
            table ++ describe parent hierarchy definition
  | value name type multiValued => by
      rw [register, check, h.checkEntry_eq]
      cases checkName parent before name with
      | error e => rfl
      | ok _ => cases type.check (Path.join parent name) <;> rfl
  | object name layout multiValued children => by
      rw [register, check, h.checkEntry_eq]
      cases hname : checkName parent before name with
      | error e => rfl
      | ok _ =>
          obtain ⟨hvalid, hnew⟩ := checkName_eq_ok_iff.mp hname
          let path := Path.join parent name
          let inside := enclose layout path hierarchy
          let self : Descriptor := ⟨path, name, .object layout, multiValued, inside⟩
          -- The children start with no names before them, as when they are checked.
          have hchildren : registerAll (some path) inside (table ++ [self]) children
              = (checkAll (some path) [] children).map fun _ =>
                  table ++ [self] ++ describeAll (some path) inside children :=
            registerAll_eq (h.enter hvalid hnew rfl) inside children
          rw [List.append_assoc] at hchildren
          exact hchildren

/-- Entering definitions into a table succeeds if their checks do, and fails as they do. It adds
exactly what describing the definitions gives. -/
theorem registerAll_eq {table : List Descriptor} {parent : Option String} {before : List String}
    (h : Tracks table parent before) (hierarchy : List String) : ∀ definitions : List Definition,
      registerAll parent hierarchy table definitions
        = (checkAll parent before definitions).map fun _ =>
            table ++ describeAll parent hierarchy definitions
  | [] => by
      rw [registerAll, checkAll, describeAll, List.append_nil]
      rfl
  | definition :: rest => by
      rw [registerAll, checkAll, register_eq h hierarchy definition]
      cases hcheck : check parent before definition with
      | error e => rfl
      | ok _ =>
          -- What has passed its checks has valid names, so what it adds to the table is known.
          obtain ⟨hnamed, -⟩ := wellNamed_of_check parent before definition hcheck
          have hrest := registerAll_eq (h.describe hierarchy hnamed) hierarchy rest
          rw [List.append_assoc] at hrest
          exact hrest

end

end Definition

/-- The fields of an index are those that entering its definitions into an empty table gives, and it
is refused with the error that entering them ends with. -/
theorem Index.fields_ofDefinitions {name : String} (hname : name ≠ "")
    (definitions : List Definition) :
    (ofDefinitions name definitions).map fields
      = Definition.registerAll none [] [] definitions := by
  have hempty : Definition.Tracks [] none [] :=
    ⟨fun _ hnone => absurd hnone List.not_mem_nil, fun _ hnone => absurd hnone List.not_mem_nil⟩
  rw [Definition.registerAll_eq hempty, ofDefinitions, dif_neg hname]
  split
  · next hcheck => simp only [hcheck]; rfl
  · next hcheck => simp only [hcheck]; rfl

end SearchDsl
