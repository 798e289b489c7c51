import SearchDsl.Proofs.Schema.Nesting
import SearchDsl.Proofs.Steps
import SearchDsl.Scope

/-!
# `SearchDsl.Proofs.Scope.Resolution`: what resolving a path says about the indexes

A path resolves to the field of the first index that declares it, and the later indexes have to
agree (`Scope.valueField_eq_ok_iff`, `Scope.objectField_eq_ok_iff`). So the hierarchy of a resolved
field is that of a field of one index. Each of its levels that resolves to an object as well has the
part up to it as its own hierarchy, in whatever index the object was found
(`Scope.hierarchy_of_level`).
-/

set_option autoImplicit false

namespace SearchDsl

/-- An index declares nothing at the path. -/
def Index.Lacks (path : String) (index : Index) : Prop := index.field? path = none

namespace ValueField

/-- An index declares the field at the path. -/
def FoundAt (path : String) (field : ValueField) (index : Index) : Prop :=
  ∃ declared, index.field? path = some declared ∧ declared.shape = .value field.type ∧
    field = ⟨path, field.type, declared.hierarchy, declared.multiValued⟩

/-- What an index declares at the path is compatible with the field and nested in the same way. -/
def AgreesAt (path : String) (field : ValueField) (index : Index) : Prop :=
  ∀ declared, index.field? path = some declared → ∃ type, declared.shape = .value type ∧
    field.type.isCompatible type = true ∧ declared.hierarchy = field.hierarchy

/-- An index without the path agrees with any field. -/
theorem agreesAt_of_lacks {path : String} (field : ValueField) {index : Index}
    (h : index.Lacks path) : field.AgreesAt path index := by
  intro declared hdeclared
  exact absurd (h.symm.trans hdeclared) (by simp)

/-- The index that a field was found in agrees with it. -/
theorem FoundAt.agreesAt {path : String} {field : ValueField} {index : Index}
    (h : field.FoundAt path index) : field.AgreesAt path index := by
  obtain ⟨declared, hdeclared, hshape, hfield⟩ := h
  intro other hother
  obtain rfl := Option.some.inj (hdeclared.symm.trans hother)
  refine ⟨field.type, hshape, by simp [FieldType.isCompatible], ?_⟩
  rw [hfield]

end ValueField

namespace ObjectField

/-- An index declares the object at the path. -/
def FoundAt (path : String) (field : ObjectField) (index : Index) : Prop :=
  ∃ declared, index.field? path = some declared ∧ declared.shape = .object field.layout ∧
    field = ⟨path, field.layout, declared.hierarchy⟩

/-- What an index declares at the path is the same object. -/
def AgreesAt (path : String) (field : ObjectField) (index : Index) : Prop :=
  ∀ declared, index.field? path = some declared → declared.shape = .object field.layout ∧
    field = ⟨path, field.layout, declared.hierarchy⟩

/-- An index without the path agrees with any object. -/
theorem agreesAt_of_lacks {path : String} (field : ObjectField) {index : Index}
    (h : index.Lacks path) : field.AgreesAt path index := by
  intro declared hdeclared
  exact absurd (h.symm.trans hdeclared) (by simp)

/-- The index that an object was found in agrees with it. -/
theorem FoundAt.agreesAt {path : String} {field : ObjectField} {index : Index}
    (h : field.FoundAt path index) : field.AgreesAt path index := by
  obtain ⟨declared, hdeclared, hshape, hfield⟩ := h
  intro other hother
  obtain rfl := Option.some.inj (hdeclared.symm.trans hother)
  exact ⟨hshape, hfield⟩

end ObjectField

namespace Scope

variable {scope : Scope} {path : String}

/-! ### One more index -/

/-- Once a field was found, a further index has to agree with it and changes nothing. -/
theorem addValueField_some_eq_ok_iff (path : String) (first : ValueField) (index : Index)
    (after : Option ValueField) :
    addValueField path (some first) index = .ok after ↔
      first.AgreesAt path index ∧ after = some first := by
  unfold addValueField ValueField.AgreesAt
  cases hdeclared : index.field? path with
  | none =>
      exact ⟨fun h => ⟨fun _ hnone => absurd hnone (by simp), (Except.ok.inj h).symm⟩,
        fun h => congrArg Except.ok h.2.symm⟩
  | some declared =>
      cases hshape : declared.shape with
      | object layout =>
          -- An object agrees with no value field, and it is refused.
          simp only [hshape]
          refine ⟨fun h => by simp at h, fun ⟨hagrees, _⟩ => ?_⟩
          obtain ⟨type, hvalue, -⟩ := hagrees declared rfl
          simp [hshape] at hvalue
      | value type =>
          -- The two checks on the type and on the hierarchy are the two parts of agreeing.
          simp only [hshape]
          constructor
          · intro h
            split at h
            · simp at h
            · rename_i hcompatible
              split at h
              · simp at h
              · rename_i hnesting
                refine ⟨fun other hother => ?_, (Except.ok.inj h).symm⟩
                obtain rfl := Option.some.inj hother
                exact ⟨type, hshape, by simpa using hcompatible, (not_not.mp hnesting).symm⟩
          · rintro ⟨hagrees, rfl⟩
            obtain ⟨other, hother, hcompatible, hnesting⟩ := hagrees declared rfl
            obtain rfl := FieldShape.value.inj (hshape.symm.trans hother)
            simp [hcompatible, hnesting]

/-- As long as none was found, an index lacks the path or declares the field that is found. -/
theorem addValueField_none_eq_ok_iff (path : String) (index : Index)
    (after : Option ValueField) :
    addValueField path none index = .ok after ↔
      (index.Lacks path ∧ after = none) ∨
        ∃ field : ValueField, field.FoundAt path index ∧ after = some field := by
  unfold addValueField ValueField.FoundAt Index.Lacks
  cases hdeclared : index.field? path with
  | none =>
      refine ⟨fun h => .inl ⟨rfl, (Except.ok.inj h).symm⟩, ?_⟩
      rintro (⟨-, rfl⟩ | ⟨field, ⟨declared, hsome, -⟩, -⟩)
      · rfl
      · simp at hsome
  | some declared =>
      cases hshape : declared.shape with
      | object layout =>
          simp only [hshape]
          refine ⟨fun h => by simp at h, ?_⟩
          rintro (⟨hnone, -⟩ | ⟨field, ⟨other, hother, hvalue, -⟩, -⟩)
          · simp at hnone
          · obtain rfl := Option.some.inj hother
            simp [hshape] at hvalue
      | value type =>
          simp only [hshape]
          constructor
          · intro h
            exact .inr ⟨⟨path, type, declared.hierarchy, declared.multiValued⟩,
              ⟨declared, rfl, hshape, rfl⟩, (Except.ok.inj h).symm⟩
          · rintro (⟨hnone, -⟩ | ⟨field, ⟨other, hother, hvalue, hfield⟩, rfl⟩)
            · simp at hnone
            · obtain rfl := Option.some.inj hother
              obtain rfl := FieldShape.value.inj (hshape.symm.trans hvalue)
              rw [← hfield]

/-- Once an object was found, a further index has to agree with it and changes nothing. -/
theorem addObjectField_some_eq_ok_iff (path : String) (first : ObjectField) (index : Index)
    (after : Option ObjectField) :
    addObjectField path (some first) index = .ok after ↔
      first.AgreesAt path index ∧ after = some first := by
  unfold addObjectField ObjectField.AgreesAt
  cases hdeclared : index.field? path with
  | none =>
      exact ⟨fun h => ⟨fun _ hnone => absurd hnone (by simp), (Except.ok.inj h).symm⟩,
        fun h => congrArg Except.ok h.2.symm⟩
  | some declared =>
      cases hshape : declared.shape with
      | value type =>
          simp only [hshape]
          refine ⟨fun h => by simp at h, fun ⟨hagrees, _⟩ => ?_⟩
          simp [hshape] at hagrees
      | object layout =>
          simp only [hshape]
          constructor
          · intro h
            split at h
            · rename_i hsame
              refine ⟨fun other hother => ?_, (Except.ok.inj h).symm⟩
              obtain rfl := Option.some.inj hother
              rw [hsame]
              exact ⟨hshape, rfl⟩
            · simp at h
          · rintro ⟨hagrees, rfl⟩
            obtain ⟨hobject, hsame⟩ := hagrees declared rfl
            obtain rfl := FieldShape.object.inj (hshape.symm.trans hobject)
            rw [if_pos hsame]

/-- As long as none was found, an index lacks the path or declares the object that is found. -/
theorem addObjectField_none_eq_ok_iff (path : String) (index : Index)
    (after : Option ObjectField) :
    addObjectField path none index = .ok after ↔
      (index.Lacks path ∧ after = none) ∨
        ∃ field : ObjectField, field.FoundAt path index ∧ after = some field := by
  unfold addObjectField ObjectField.FoundAt Index.Lacks
  cases hdeclared : index.field? path with
  | none =>
      refine ⟨fun h => .inl ⟨rfl, (Except.ok.inj h).symm⟩, ?_⟩
      rintro (⟨-, rfl⟩ | ⟨field, ⟨declared, hsome, -⟩, -⟩)
      · rfl
      · simp at hsome
  | some declared =>
      cases hshape : declared.shape with
      | value type =>
          simp only [hshape]
          refine ⟨fun h => by simp at h, ?_⟩
          rintro (⟨hnone, -⟩ | ⟨field, ⟨other, hother, hobject, -⟩, -⟩)
          · simp at hnone
          · obtain rfl := Option.some.inj hother
            simp [hshape] at hobject
      | object layout =>
          simp only [hshape]
          constructor
          · intro h
            exact .inr ⟨⟨path, layout, declared.hierarchy⟩, ⟨declared, rfl, hshape, rfl⟩,
              (Except.ok.inj h).symm⟩
          · rintro (⟨hnone, -⟩ | ⟨field, ⟨other, hother, hobject, hfield⟩, rfl⟩)
            · simp at hnone
            · obtain rfl := Option.some.inj hother
              obtain rfl := FieldShape.object.inj (hshape.symm.trans hobject)
              rw [← hfield]

/-! ### All indexes -/

/-- A path resolves to the value field of the first index that declares it, if the later ones
agree. -/
theorem valueField_eq_ok_iff {field : ValueField} :
    scope.valueField path = .ok field ↔
      Steps.FirstOf (Index.Lacks path) (ValueField.FoundAt path) (ValueField.AgreesAt path)
        scope.indexes field := by
  rw [← Steps.foldlM_none_eq_ok_some_iff (addValueField_some_eq_ok_iff path)
    (addValueField_none_eq_ok_iff path)]
  unfold valueField
  rw [Steps.bind_eq_ok_iff]
  constructor
  · rintro ⟨found, hfold, hfound⟩
    cases found with
    | none => exact absurd hfound Steps.throw_ne_ok
    | some first => exact Except.ok.inj hfound ▸ hfold
  · exact fun hfold => ⟨some field, hfold, rfl⟩

/-- A path resolves to the object of the first index that declares it, if the later ones agree. -/
theorem objectField_eq_ok_iff {field : ObjectField} :
    scope.objectField path = .ok field ↔
      Steps.FirstOf (Index.Lacks path) (ObjectField.FoundAt path) (ObjectField.AgreesAt path)
        scope.indexes field := by
  rw [← Steps.foldlM_none_eq_ok_some_iff (addObjectField_some_eq_ok_iff path)
    (addObjectField_none_eq_ok_iff path)]
  unfold objectField
  rw [Steps.bind_eq_ok_iff]
  constructor
  · rintro ⟨found, hfold, hfound⟩
    cases found with
    | none => exact absurd hfound Steps.throw_ne_ok
    | some first => exact Except.ok.inj hfound ▸ hfold
  · exact fun hfold => ⟨some field, hfold, rfl⟩

/-- A resolved value field was found in an index. -/
theorem exists_of_valueField {field : ValueField} (h : scope.valueField path = .ok field) :
    ∃ index ∈ scope.indexes, field.FoundAt path index :=
  (valueField_eq_ok_iff.mp h).exists_found

/-- A resolved object was found in an index. -/
theorem exists_of_objectField {field : ObjectField} (h : scope.objectField path = .ok field) :
    ∃ index ∈ scope.indexes, field.FoundAt path index :=
  (objectField_eq_ok_iff.mp h).exists_found

/-- A resolved value field has the path that was asked for. -/
theorem path_of_valueField {field : ValueField} (h : scope.valueField path = .ok field) :
    field.path = path := by
  obtain ⟨-, -, declared, -, -, hfield⟩ := exists_of_valueField h
  rw [hfield]

/-- A resolved object has the path that was asked for. -/
theorem path_of_objectField {field : ObjectField} (h : scope.objectField path = .ok field) :
    field.path = path := by
  obtain ⟨-, -, declared, -, -, hfield⟩ := exists_of_objectField h
  rw [hfield]

/-- Every index agrees with a resolved value field, those before the one it was found in as well:
they lack it. -/
theorem agreesAt_of_valueField {field : ValueField} (h : scope.valueField path = .ok field) :
    ∀ index ∈ scope.indexes, field.AgreesAt path index :=
  (valueField_eq_ok_iff.mp h).forall_agrees (fun _ hlacks => field.agreesAt_of_lacks hlacks)
    fun _ hfound => hfound.agreesAt

/-- Every index agrees with a resolved object. -/
theorem agreesAt_of_objectField {field : ObjectField} (h : scope.objectField path = .ok field) :
    ∀ index ∈ scope.indexes, field.AgreesAt path index :=
  (objectField_eq_ok_iff.mp h).forall_agrees (fun _ hlacks => field.agreesAt_of_lacks hlacks)
    fun _ hfound => hfound.agreesAt

/-- The hierarchy of a level that is resolved by itself is the part up to it of every hierarchy that
it occurs in. -/
theorem hierarchy_of_level {index : Index} (hindex : index ∈ scope.indexes)
    {declared : Descriptor} (hdeclared : index.field? path = some declared) {level : String}
    (hlevel : level ∈ declared.hierarchy) {object : ObjectField}
    (hobject : scope.objectField level = .ok object) :
    object.hierarchy <+: declared.hierarchy ∧ object.hierarchy.getLast? = some level := by
  obtain ⟨enclosing, hat, -, hinitial, hlast⟩ := Index.exists_enclosing hdeclared hlevel
  obtain ⟨-, hsame⟩ := agreesAt_of_objectField hobject index hindex enclosing hat
  rw [hsame]
  exact ⟨hinitial, hlast⟩

end Scope

end SearchDsl
