import SearchDsl.Proofs.Schema.Nesting

/-!
# `SearchDsl.Proofs.Schema.Ancestors`: what stands above a declared field

The path of a field that is declared in an object is the path of the object, a dot and the name of
the field. Names have no dots, so whatever path a field lies below, going up from one object to the
next one around it comes to that path: everything above a declared field is a declared object, and
its hierarchy is an initial part of that of the field (`Index.exists_above`).

A nested object is the last of its own hierarchy (`Index.getLast?_hierarchy`). Together they say
that a field that lies below the path of a nested object stands in that object.
-/

set_option autoImplicit false

open SearchDsl.Path (isBelow)

namespace SearchDsl

namespace Definition

/-! ### One step up -/

/-- One of some fields is the object that a field is declared in. -/
def HasParent (fields : List Descriptor) (field : Descriptor) : Prop :=
  ∃ object ∈ fields, (∃ layout, object.shape = .object layout) ∧
    field.path = Path.join (some object.path) field.name ∧ object.hierarchy <+: field.hierarchy

/-- The object is still there among more fields. -/
theorem HasParent.mono {fields more : List Descriptor} {field : Descriptor}
    (h : HasParent fields field) (hsub : fields ⊆ more) : HasParent more field := by
  obtain ⟨object, hobject, hparent⟩ := h
  exact ⟨object, hsub hobject, hparent⟩

mutual

/-- A field is declared at the top of the definitions, or in an object among their fields. -/
theorem parent_of_mem_describe (parent : Option String) (hierarchy : List String) :
    ∀ definition : Definition, WellNamed definition →
      ∀ field ∈ describe parent hierarchy definition, '.' ∉ field.name.toList ∧
        (field.path = Path.join parent field.name ∨
          HasParent (describe parent hierarchy definition) field)
  | value name type multiValued, h, field, hfield => by
      obtain rfl := List.mem_singleton.mp hfield
      exact ⟨dot_not_mem_of_isValidName h, .inl rfl⟩
  | object name layout multiValued children, h, field, hfield => by
      rcases List.mem_cons.mp hfield with rfl | hbelow
      · exact ⟨dot_not_mem_of_isValidName h.1, .inl rfl⟩
      · obtain ⟨hname, hparent⟩ := parent_of_mem_describeAll _ _ children h.2 field hbelow
        refine ⟨hname, .inr ?_⟩
        rcases hparent with hdirect | hdeeper
        · -- What is at the top of the children is declared in this object.
          obtain ⟨hinitial, -⟩ := levels_of_mem_describeAll _ _ children field hbelow
          exact ⟨_, List.mem_cons_self, ⟨layout, rfl⟩, hdirect, hinitial⟩
        · exact hdeeper.mono (List.subset_cons_self _ _)

/-- A field of several definitions is declared at their top, or in an object among their fields. -/
theorem parent_of_mem_describeAll (parent : Option String) (hierarchy : List String) :
    ∀ definitions : List Definition, AllWellNamed definitions →
      ∀ field ∈ describeAll parent hierarchy definitions, '.' ∉ field.name.toList ∧
        (field.path = Path.join parent field.name ∨
          HasParent (describeAll parent hierarchy definitions) field)
  | [], _, field, hfield => by simp [describeAll] at hfield
  | definition :: rest, h, field, hfield => by
      rcases List.mem_append.mp hfield with hfirst | hlater
      · obtain ⟨hname, hparent⟩ :=
          parent_of_mem_describe parent hierarchy definition h.1 field hfirst
        exact ⟨hname, hparent.imp_right fun hhas => hhas.mono (List.subset_append_left _ _)⟩
      · obtain ⟨hname, hparent⟩ :=
          parent_of_mem_describeAll parent hierarchy rest h.2.2 field hlater
        exact ⟨hname, hparent.imp_right fun hhas => hhas.mono (List.subset_append_right _ _)⟩

end

mutual

/-- A nested object is the last of its own hierarchy. -/
theorem getLast?_of_mem_describe (parent : Option String) (hierarchy : List String) :
    ∀ definition : Definition, ∀ field ∈ describe parent hierarchy definition,
      field.shape = .object .nested → field.hierarchy.getLast? = some field.path
  | value name type multiValued, field, hfield, hshape => by
      obtain rfl := List.mem_singleton.mp hfield
      simp at hshape
  | object name layout multiValued children, field, hfield, hshape => by
      rcases List.mem_cons.mp hfield with rfl | hbelow
      · obtain rfl := FieldShape.object.inj hshape
        exact List.getLast?_concat
      · exact getLast?_of_mem_describeAll _ _ children field hbelow hshape

/-- A nested object of several definitions is the last of its own hierarchy as well. -/
theorem getLast?_of_mem_describeAll (parent : Option String) (hierarchy : List String) :
    ∀ definitions : List Definition, ∀ field ∈ describeAll parent hierarchy definitions,
      field.shape = .object .nested → field.hierarchy.getLast? = some field.path
  | [], field, hfield, _ => by simp [describeAll] at hfield
  | definition :: rest, field, hfield, hshape => by
      rcases List.mem_append.mp hfield with hfirst | hlater
      · exact getLast?_of_mem_describe parent hierarchy definition field hfirst hshape
      · exact getLast?_of_mem_describeAll parent hierarchy rest field hlater hshape

end

end Definition

namespace Index

variable {index : Index} {path : String} {field : Descriptor}

/-! ### All the way up -/

/-- Everything above a declared field is a declared object with an initial part of its hierarchy. -/
theorem exists_above (h : index.field? path = some field) {above : String} {rest : List Char}
    (habove : path.toList = above.toList ++ '.' :: rest) :
    ∃ object, index.field? above = some object ∧ (∃ layout, object.shape = .object layout) ∧
      object.hierarchy <+: field.hierarchy := by
  -- Induction on the length of the path: the object that a field is declared in has a shorter one.
  induction hlength : path.length using Nat.strongRecOn generalizing path field rest with
  | ind length ih =>
      obtain ⟨hfield, rfl⟩ := field?_eq_some_iff.mp h
      obtain ⟨hname, hparent⟩ := Definition.parent_of_mem_describeAll none [] index.definitions
        index.allWellNamed field hfield
      rcases hparent with htop | ⟨object, hobject, hshape, hpath, hinitial⟩
      · -- A field at the top has its name as path, with no dot in it.
        have hdot : '.' ∈ field.path.toList := by simp [habove]
        rw [htop] at hdot
        exact absurd hdot hname
      · have hfound : index.field? object.path = some object :=
          field?_eq_some_iff.mpr ⟨hobject, rfl⟩
        have hsplit : object.path.toList ++ '.' :: field.name.toList
            = above.toList ++ '.' :: rest := by
          rw [← habove, hpath]
          simp [Path.join]
        rcases Path.above_of_append_name hname hsplit with hhere | ⟨between, hbetween⟩
        · obtain rfl := String.toList_inj.mp hhere
          exact ⟨object, hfound, hshape, hinitial⟩
        · have hshorter : object.path.length < length := by
            rw [← hlength, hpath]
            simp only [Path.join, String.length_append, show ".".length = 1 from rfl]
            omega
          obtain ⟨higher, hhigher, hlayout, hpart⟩ := ih _ hshorter hfound hbetween rfl
          exact ⟨higher, hhigher, hlayout, hpart.trans hinitial⟩

/-- A nested object is the last of its own hierarchy. -/
theorem getLast?_hierarchy (h : index.field? path = some field)
    (hshape : field.shape = .object .nested) : field.hierarchy.getLast? = some path := by
  obtain ⟨hfield, rfl⟩ := field?_eq_some_iff.mp h
  exact Definition.getLast?_of_mem_describeAll none [] index.definitions field hfield hshape

end Index

end SearchDsl
