import SearchDsl.Proofs.Scope.Resolution

/-!
# `SearchDsl.Proofs.Scope.Agreement`: resolution does not depend on the order of the indexes

Resolving a path compares each index with the first one that declares it and stops at the first
conflict. `Scope.resolution_by_agreement` says what comes of that without an order: the path
resolves if the indexes that declare it agree with each other (`Scope.AgreesOnValue`,
`Scope.AgreesOnObject`), and what they agree on is what is returned.

Two value fields agree if they have the same traits: the kind, the text analysis and the nested
objects around the field. The options on what is indexed are no traits, so for them the first index
decides.
-/

set_option autoImplicit false

namespace SearchDsl

/-- What all indexes that declare a value field have to agree on. -/
structure ValueTraits where
  kind : FieldKind
  analyzer : Option String
  normalizer : Option String
  hierarchy : List String

/-- The traits of a value field. -/
def ValueField.traits (field : ValueField) : ValueTraits :=
  ⟨field.type.kind, field.type.analyzer, field.type.normalizer, field.hierarchy⟩

/-! ### One index -/

section Declared

variable {path : String} {index : Index}

/-- A field has the path that it was found at. -/
theorem ValueField.FoundAt.path_eq {field : ValueField} (h : field.FoundAt path index) :
    field.path = path := by
  obtain ⟨declared, -, -, hfield⟩ := h
  rw [hfield]

/-- An index that declares the path declares a value field or an object there. -/
theorem Index.lacks_iff :
    index.Lacks path ↔ (¬∃ object : ObjectField, object.FoundAt path index) ∧
      ∀ field : ValueField, ¬field.FoundAt path index := by
  constructor
  · intro hlacks
    refine ⟨?_, ?_⟩
    · rintro ⟨object, declared, hdeclared, -⟩
      exact absurd (hlacks.symm.trans hdeclared) (by simp)
    · rintro field ⟨declared, hdeclared, -⟩
      exact absurd (hlacks.symm.trans hdeclared) (by simp)
  · rintro ⟨hobject, hvalue⟩
    cases hdeclared : index.field? path with
    | none => exact hdeclared
    | some declared =>
        cases hshape : declared.shape with
        | value type => exact absurd ⟨declared, hdeclared, hshape, rfl⟩ (hvalue ⟨path, type, _, _⟩)
        | object layout =>
            exact absurd ⟨⟨path, layout, _⟩, declared, hdeclared, hshape, rfl⟩ hobject

/-- An index agrees with a value field if it declares no object at the path and no value field with
other traits. -/
theorem ValueField.agreesAt_iff {field : ValueField} :
    field.AgreesAt path index ↔ (¬∃ object : ObjectField, object.FoundAt path index) ∧
      ∀ other : ValueField, other.FoundAt path index → other.traits = field.traits := by
  constructor
  · intro hagrees
    refine ⟨?_, ?_⟩
    · rintro ⟨object, declared, hdeclared, hobject, -⟩
      obtain ⟨type, hvalue, -⟩ := hagrees declared hdeclared
      simp [hobject] at hvalue
    · rintro other ⟨declared, hdeclared, hshape, hother⟩
      obtain ⟨type, hvalue, hcompatible, hnesting⟩ := hagrees declared hdeclared
      obtain rfl := FieldShape.value.inj (hshape.symm.trans hvalue)
      simp only [FieldType.isCompatible, Bool.and_eq_true, decide_eq_true_eq] at hcompatible
      obtain ⟨⟨hkind, hanalyzer⟩, hnormalizer⟩ := hcompatible
      have hhierarchy : other.hierarchy = field.hierarchy := by rw [hother]; exact hnesting
      simp only [traits, hkind, hanalyzer, hnormalizer, hhierarchy]
  · rintro ⟨hobject, hvalue⟩ declared hdeclared
    cases hshape : declared.shape with
    | object layout => exact absurd ⟨⟨path, layout, _⟩, declared, hdeclared, hshape, rfl⟩ hobject
    | value type =>
        have htraits := hvalue ⟨path, type, _, _⟩ ⟨declared, hdeclared, hshape, rfl⟩
        simp only [traits, ValueTraits.mk.injEq] at htraits
        obtain ⟨hkind, hanalyzer, hnormalizer, hhierarchy⟩ := htraits
        exact ⟨type, rfl, by simp [FieldType.isCompatible, hkind, hanalyzer, hnormalizer],
          hhierarchy⟩

/-- An index agrees with an object if it declares no value field at the path and no other object. -/
theorem ObjectField.agreesAt_iff {object : ObjectField} :
    object.AgreesAt path index ↔ (¬∃ field : ValueField, field.FoundAt path index) ∧
      ∀ other : ObjectField, other.FoundAt path index → other = object := by
  constructor
  · intro hagrees
    refine ⟨?_, ?_⟩
    · rintro ⟨field, declared, hdeclared, hvalue, -⟩
      obtain ⟨hobject, -⟩ := hagrees declared hdeclared
      simp [hvalue] at hobject
    · rintro other ⟨declared, hdeclared, hshape, hother⟩
      obtain ⟨hobject, hsame⟩ := hagrees declared hdeclared
      have hlayout := FieldShape.object.inj (hshape.symm.trans hobject)
      rw [hother, hlayout, ← hsame]
  · rintro ⟨hvalue, hobject⟩ declared hdeclared
    cases hshape : declared.shape with
    | value type => exact absurd ⟨⟨path, type, _, _⟩, declared, hdeclared, hshape, rfl⟩ hvalue
    | object layout =>
        obtain rfl := hobject ⟨path, layout, _⟩ ⟨declared, hdeclared, hshape, rfl⟩
        exact ⟨rfl, rfl⟩

end Declared

namespace Scope

variable {scope : Scope} {path : String}

/-- The indexes agree that there is a value field at the path, and on its traits. -/
structure AgreesOnValue (scope : Scope) (path : String) : Prop where
  declared : ∃ index ∈ scope.indexes, ∃ field : ValueField, field.FoundAt path index
  noObject : ∀ index ∈ scope.indexes, ¬∃ object : ObjectField, object.FoundAt path index
  same : ∀ a ∈ scope.indexes, ∀ b ∈ scope.indexes, ∀ field other : ValueField,
    field.FoundAt path a → other.FoundAt path b → field.traits = other.traits

/-- The indexes agree that there is an object at the path, on its layout and on its hierarchy. -/
structure AgreesOnObject (scope : Scope) (path : String) : Prop where
  declared : ∃ index ∈ scope.indexes, ∃ object : ObjectField, object.FoundAt path index
  noValue : ∀ index ∈ scope.indexes, ¬∃ field : ValueField, field.FoundAt path index
  same : ∀ a ∈ scope.indexes, ∀ b ∈ scope.indexes, ∀ object other : ObjectField,
    object.FoundAt path a → other.FoundAt path b → object = other

/-! ### When a path resolves -/

/-- A path resolves to a value field exactly if the indexes agree on one. -/
theorem exists_valueField_iff :
    (∃ field, scope.valueField path = .ok field) ↔ scope.AgreesOnValue path := by
  have hlacks : ∀ index : Index, index.Lacks path ↔
      (¬∃ object : ObjectField, object.FoundAt path index) ∧
        ∀ field : ValueField, ¬field.FoundAt path index := fun _ => Index.lacks_iff
  simp only [valueField_eq_ok_iff]
  refine (Steps.FirstOf.exists_iff hlacks (fun _ _ => ValueField.agreesAt_iff)
    fun _ _ hfound => hfound.agreesAt).trans ?_
  exact ⟨fun ⟨hdeclared, hobject, hsame⟩ => ⟨hdeclared, hobject, hsame⟩,
    fun h => ⟨h.declared, h.noObject, h.same⟩⟩

/-- A path resolves to an object exactly if the indexes agree on one. -/
theorem exists_objectField_iff :
    (∃ object, scope.objectField path = .ok object) ↔ scope.AgreesOnObject path := by
  -- The roles of objects and value fields are swapped.
  have hlacks : ∀ index : Index, index.Lacks path ↔
      (¬∃ field : ValueField, field.FoundAt path index) ∧
        ∀ object : ObjectField, ¬object.FoundAt path index := by
    intro index
    rw [Index.lacks_iff, not_exists, not_exists, and_comm]
  simp only [objectField_eq_ok_iff]
  refine (Steps.FirstOf.exists_iff hlacks (fun _ _ => ObjectField.agreesAt_iff)
    fun _ _ hfound => hfound.agreesAt).trans ?_
  exact ⟨fun ⟨hdeclared, hvalue, hsame⟩ => ⟨hdeclared, hvalue, hsame⟩,
    fun h => ⟨h.declared, h.noValue, h.same⟩⟩

/-! ### When nothing is found -/

/-- No single index makes a value field unknown. -/
theorem addValueField_ne_unknownField (found : Option ValueField) (index : Index) (name : String) :
    addValueField path found index ≠ .error (.unknownField name) := by
  unfold addValueField
  split
  · simp
  · split
    · simp
    · split
      · simp
      · split
        · simp
        · split <;> simp

/-- No single index makes an object unknown. -/
theorem addObjectField_ne_unknownField (found : Option ObjectField) (index : Index)
    (name : String) : addObjectField path found index ≠ .error (.unknownField name) := by
  unfold addObjectField
  split
  · simp
  · split
    · simp
    · dsimp only
      split
      · simp
      · split <;> simp

/-- A search through the indexes that fails in the end if it has found nothing finds the path
unknown for no other reason. -/
theorem search_eq_unknownField_iff {β : Type} {add : Option β → Index → Except Error (Option β)}
    {finish : Option β → Except Error β} {indexes : List Index} {name : String}
    (hadd : ∀ found index name, add found index ≠ .error (.unknownField name))
    (hsome : ∀ field, finish (some field) = .ok field)
    (hnone : finish none = .error (.unknownField path)) :
    (indexes.foldlM add none >>= finish) = .error (.unknownField name) ↔
      name = path ∧ indexes.foldlM add none = .ok none := by
  rw [Steps.bind_eq_error_iff]
  constructor
  · rintro (hfold | ⟨found, hfold, hunknown⟩)
    · obtain ⟨state, index, -, hfails⟩ := Steps.exists_of_foldlM_eq_error hfold
      exact absurd hfails (hadd state index name)
    · cases found with
      | none =>
          rw [hnone] at hunknown
          exact ⟨(Error.unknownField.inj (Except.error.inj hunknown)).symm, hfold⟩
      | some field => simp [hsome] at hunknown
  · rintro ⟨rfl, hfold⟩
    exact .inr ⟨none, hfold, hnone⟩

/-- A path is unknown as a value field if no index declares it. -/
theorem valueField_eq_unknownField_iff {name : String} :
    scope.valueField path = .error (.unknownField name) ↔
      name = path ∧ ∀ index ∈ scope.indexes, index.Lacks path := by
  rw [← Steps.foldlM_none_eq_ok_none_iff (addValueField_some_eq_ok_iff path)
    (addValueField_none_eq_ok_iff path)]
  exact search_eq_unknownField_iff addValueField_ne_unknownField (fun _ => rfl) rfl

/-- A path is unknown as an object if no index declares it. -/
theorem objectField_eq_unknownField_iff {name : String} :
    scope.objectField path = .error (.unknownField name) ↔
      name = path ∧ ∀ index ∈ scope.indexes, index.Lacks path := by
  rw [← Steps.foldlM_none_eq_ok_none_iff (addObjectField_some_eq_ok_iff path)
    (addObjectField_none_eq_ok_iff path)]
  exact search_eq_unknownField_iff addObjectField_ne_unknownField (fun _ => rfl) rfl

/-! ### What is returned -/

/-- A resolved value field has the path and the traits that every declaring index gives it. -/
theorem traits_of_valueField {field : ValueField} (h : scope.valueField path = .ok field)
    {index : Index} (hindex : index ∈ scope.indexes) {declared : ValueField}
    (hdeclared : declared.FoundAt path index) : declared.traits = field.traits :=
  (ValueField.agreesAt_iff.mp (agreesAt_of_valueField h index hindex)).2 declared hdeclared

/-- A resolved object is the one that every declaring index declares. -/
theorem eq_of_objectField {object : ObjectField} (h : scope.objectField path = .ok object)
    {index : Index} (hindex : index ∈ scope.indexes) {declared : ObjectField}
    (hdeclared : declared.FoundAt path index) : declared = object :=
  (ObjectField.agreesAt_iff.mp (agreesAt_of_objectField h index hindex)).2 declared hdeclared

/-! ### Other orders of the indexes -/

section Perm

variable {other : Scope}

/-- Agreement does not depend on the order of the indexes. -/
theorem AgreesOnValue.of_perm (h : scope.AgreesOnValue path)
    (hperm : other.indexes.Perm scope.indexes) : other.AgreesOnValue path := by
  obtain ⟨index, hindex, hdeclared⟩ := h.declared
  exact ⟨⟨index, hperm.mem_iff.mpr hindex, hdeclared⟩,
    fun a ha => h.noObject a (hperm.mem_iff.mp ha),
    fun a ha b hb => h.same a (hperm.mem_iff.mp ha) b (hperm.mem_iff.mp hb)⟩

/-- Nor does agreement on an object. -/
theorem AgreesOnObject.of_perm (h : scope.AgreesOnObject path)
    (hperm : other.indexes.Perm scope.indexes) : other.AgreesOnObject path := by
  obtain ⟨index, hindex, hdeclared⟩ := h.declared
  exact ⟨⟨index, hperm.mem_iff.mpr hindex, hdeclared⟩,
    fun a ha => h.noValue a (hperm.mem_iff.mp ha),
    fun a ha b hb => h.same a (hperm.mem_iff.mp ha) b (hperm.mem_iff.mp hb)⟩

/-- A value field resolves with the same traits in any order of the indexes. -/
theorem exists_valueField_of_perm (hperm : other.indexes.Perm scope.indexes) {field : ValueField}
    (h : scope.valueField path = .ok field) :
    ∃ again, other.valueField path = .ok again ∧ again.traits = field.traits := by
  obtain ⟨again, hagain⟩ :=
    exists_valueField_iff.mpr ((exists_valueField_iff.mp ⟨field, h⟩).of_perm hperm)
  obtain ⟨index, hindex, hfound⟩ := exists_of_valueField hagain
  exact ⟨again, hagain, traits_of_valueField h (hperm.mem_iff.mp hindex) hfound⟩

/-- An object resolves to the same in any order of the indexes. -/
theorem objectField_of_perm (hperm : other.indexes.Perm scope.indexes) {object : ObjectField}
    (h : scope.objectField path = .ok object) : other.objectField path = .ok object := by
  obtain ⟨again, hagain⟩ :=
    exists_objectField_iff.mpr ((exists_objectField_iff.mp ⟨object, h⟩).of_perm hperm)
  obtain ⟨index, hindex, hfound⟩ := exists_of_objectField hagain
  rw [hagain, eq_of_objectField h (hperm.mem_iff.mp hindex) hfound]

end Perm

/-- Resolution said of the indexes as a whole. A path resolves to a value field exactly if the
indexes agree that there is one, to an object exactly if they agree on that, and it is unknown
exactly if none of them declares it. What is returned is what every declaring index says: path and
traits of a value field, and all there is to know of an object. So neither success nor these
attributes depend on the order of the indexes. -/
theorem resolution_by_agreement (scope : Scope) (path : String) :
    ((∃ field, scope.valueField path = .ok field) ↔ scope.AgreesOnValue path) ∧
    ((∃ object, scope.objectField path = .ok object) ↔ scope.AgreesOnObject path) ∧
    (∀ name, (scope.valueField path = .error (.unknownField name) ↔
        name = path ∧ ∀ index ∈ scope.indexes, index.Lacks path) ∧
      (scope.objectField path = .error (.unknownField name) ↔
        name = path ∧ ∀ index ∈ scope.indexes, index.Lacks path)) ∧
    (∀ field, scope.valueField path = .ok field → field.path = path ∧
      ∀ index ∈ scope.indexes, ∀ declared : ValueField, declared.FoundAt path index →
        declared.path = field.path ∧ declared.traits = field.traits) ∧
    (∀ object, scope.objectField path = .ok object → object.path = path ∧
      ∀ index ∈ scope.indexes, ∀ declared : ObjectField, declared.FoundAt path index →
        declared = object) ∧
    ∀ other : Scope, other.indexes.Perm scope.indexes →
      ((∃ field, other.valueField path = .ok field) ↔ ∃ field, scope.valueField path = .ok field) ∧
      (∀ field again, scope.valueField path = .ok field → other.valueField path = .ok again →
        again.path = field.path ∧ again.traits = field.traits) ∧
      ∀ object, other.objectField path = .ok object ↔ scope.objectField path = .ok object := by
  refine ⟨exists_valueField_iff, exists_objectField_iff,
    fun name => ⟨valueField_eq_unknownField_iff, objectField_eq_unknownField_iff⟩,
    fun field hfield => ⟨path_of_valueField hfield, fun index hindex declared hdeclared => ?_⟩,
    fun object hobject => ⟨path_of_objectField hobject,
      fun index hindex declared hdeclared => eq_of_objectField hobject hindex hdeclared⟩,
    fun other hperm => ⟨?_, fun field again hfield hagain => ?_, fun object => ?_⟩⟩
  · exact ⟨hdeclared.path_eq.trans (path_of_valueField hfield).symm,
      traits_of_valueField hfield hindex hdeclared⟩
  · exact ⟨fun ⟨field, hfield⟩ => (exists_valueField_of_perm hperm.symm hfield).imp fun _ h => h.1,
      fun ⟨field, hfield⟩ => (exists_valueField_of_perm hperm hfield).imp fun _ h => h.1⟩
  · obtain ⟨resolved, hresolved, htraits⟩ := exists_valueField_of_perm hperm hfield
    obtain rfl := Except.ok.inj (hagain.symm.trans hresolved)
    exact ⟨(path_of_valueField hagain).trans (path_of_valueField hfield).symm, htraits⟩
  · exact ⟨objectField_of_perm hperm.symm, objectField_of_perm hperm⟩

/-- An index with codes that can be searched, sorted by and projected. -/
def openCodes : Index :=
  ⟨"open",
    [.value "code" { kind := .keyword, normalizer := some "folded", sortable := true } false],
    by decide, rfl⟩

/-- An index with codes that are of no use to a query. -/
def closedCodes : Index :=
  ⟨"closed", [.value "code"
      { kind := .keyword, normalizer := some "folded", searchable := false, projectable := false }
      true],
    by decide, rfl⟩

/-- Codes that differ in their flags alone resolve in both orders, with the same traits. -/
theorem resolution_by_agreement_twoOrders :
    let scope : Scope := ⟨[openCodes, closedCodes], by simp⟩
    let other : Scope := ⟨[closedCodes, openCodes], by simp⟩
    other.indexes.Perm scope.indexes ∧
      ∃ field again, scope.valueField "code" = .ok field ∧ other.valueField "code" = .ok again ∧
        again.traits = field.traits ∧ scope.AgreesOnValue "code" ∧
          scope.objectField "codes" = .error (.unknownField "codes") := by
  intro scope other
  have hperm : other.indexes.Perm scope.indexes := .swap ..
  obtain ⟨hvalue, -, -, -, -, hother⟩ := resolution_by_agreement scope "code"
  obtain ⟨-, -, hunknown, -⟩ := resolution_by_agreement scope "codes"
  obtain ⟨field, hfield⟩ : ∃ field, scope.valueField "code" = .ok field := ⟨_, rfl⟩
  obtain ⟨again, hagain⟩ := (hother other hperm).1.mpr ⟨field, hfield⟩
  obtain ⟨-, htraits⟩ := (hother other hperm).2.1 field again hfield hagain
  refine ⟨hperm, field, again, hfield, hagain, htraits, hvalue.mp ⟨field, hfield⟩,
    (hunknown "codes").2.mpr ⟨rfl, fun index hindex => ?_⟩⟩
  have hlacks : ∀ index ∈ [openCodes, closedCodes], index.field? "codes" = none := by decide
  exact hlacks index hindex

end Scope

end SearchDsl
