import SearchDsl.Proofs.Json.Members
import SearchDsl.Schema.Index

/-!
# `SearchDsl.Proofs.Schema.NormalForm`: the ways to write definitions, and the normal one

Definitions can be written in many ways. Members with a default may be left out, an option that is
not set may be null, members that mean nothing may be there, and a field type may be the list of its
fields. `Definition.WrittenAs` says which documents write a definition in these ways, without a
reader. All of them are read as that definition (`Definition.ofJson?_of_writtenAs`), by induction on
the definition.

`Definition.toJson` picks one of these ways (`Definition.writtenAs_toJson`), so what is written is
read as what it was written from. Reading and writing again leads to a normal form
(`Definition.normal?`). That holds for each document that can be read, in these or in other ways,
since it only depends on the definitions that were read.
-/

set_option autoImplicit false

namespace SearchDsl

/-! ### Fields of records -/

namespace Json

/-- A text that may be missing, as a value. -/
def textOrNull : Option String → Json
  | none => null
  | some text => string text

/-- A field has a value, or it is left out and the value is the default. -/
def Given (field : Option Json) (value default : Json) : Prop :=
  field = some value ∨ (field = none ∧ value = default)

section Given

variable {field : Option Json}

/-- A truth value is read as it is given, or as its default. -/
theorem Given.defaulting {b default : Bool} (h : Given field (.bool b) (.bool default)) :
    defaulting default asBool? field = some b := by
  rcases h with rfl | ⟨rfl, hdefault⟩
  · rfl
  · rw [Json.bool.inj hdefault]
    rfl

/-- An option that is not set is null or left out. -/
theorem Given.optional {text : Option String} (h : Given field (textOrNull text) .null) :
    optional asString? field = some text := by
  cases text with
  | none => rcases h with rfl | ⟨rfl, -⟩ <;> rfl
  | some text =>
      rcases h with rfl | ⟨-, hnull⟩
      · rfl
      · simp [textOrNull] at hnull

end Given

section Rows

variable {row defaults : List Json} {count : Nat}

/-- Of an array that ends early the fields behind its end are left out. -/
theorem fields?_take {names : List String} {least : Nat} (hrow : row.length = names.length)
    (hleast : least ≤ count) (hnames : least ≤ names.length) :
    (array (row.take count)).fields? names least
      = some (row.mapIdx fun i value => if i < count then some value else none) := by
  have hlength : ((row.take count).map some).length = min count row.length := by
    rw [List.length_map, List.length_take]
  rw [fields?, if_pos (by rw [List.length_take]; omega)]
  refine congrArg some (List.ext_getElem ?_ fun i hleft hright => ?_)
  · simp only [List.length_append, List.length_map, List.length_take, List.length_replicate,
      List.length_mapIdx]
    omega
  · rw [List.length_mapIdx] at hright
    rw [List.getElem_mapIdx, List.getElem_append]
    by_cases hi : i < count
    · rw [dif_pos (by omega), if_pos hi, List.getElem_map, List.getElem_take]
    · rw [dif_neg (by omega), if_neg hi, List.getElem_replicate]

/-- A field of an array that ends where only defaults follow. -/
theorem Given.of_drop_eq (h : row.drop count = defaults.drop count) (i : Nat) {value default : Json}
    (hvalue : row[i]? = some value) (hdefault : defaults[i]? = some default) :
    Given (if i < count then some value else none) value default := by
  by_cases hi : i < count
  · exact .inl (if_pos hi)
  · refine .inr ⟨if_neg hi, ?_⟩
    have hdrop := congrArg (·[i - count]?) h
    simp only [List.getElem?_drop, Nat.add_sub_cancel' (Nat.le_of_not_lt hi)] at hdrop
    rw [hvalue, hdefault] at hdrop
    exact Option.some.inj hdrop

end Rows

end Json

open Json (find? Given textOrNull)

/-! ### Field types -/

/-- A kind is read from its tag, in a definition or outside. -/
theorem FieldKind.ofJson?_tag (inDefinition : Bool) (kind : FieldKind) :
    ofJson? inDefinition (.string kind.tag) = some kind :=
  kind.ofTag?_tag

namespace FieldType

/-- All fields of a type, in order. -/
def row (type : FieldType) : List Json :=
  [.string type.kind.tag, textOrNull type.analyzer, textOrNull type.normalizer,
    .bool type.searchable, .bool type.sortable, .bool type.projectable]

/-- The ways to write a type. -/
inductive WrittenAs (type : FieldType) : Json → Prop
  /-- By name. Only the kind has to be there. -/
  | members {members : List (String × Json)}
      (hkind : find? "kind" members = some (.string type.kind.tag))
      (hanalyzer : Given (find? "analyzer" members) (textOrNull type.analyzer) .null)
      (hnormalizer : Given (find? "normalizer" members) (textOrNull type.normalizer) .null)
      (hsearchable : Given (find? "searchable" members) (.bool type.searchable) (.bool true))
      (hsortable : Given (find? "sortable" members) (.bool type.sortable) (.bool false))
      (hprojectable : Given (find? "projectable" members) (.bool type.projectable) (.bool true)) :
      WrittenAs type (.object members)
  /-- In order, up to a place behind which all fields have their defaults. -/
  | fields {count : Nat} (hkind : 0 < count)
      (hdefaults : type.row.drop count = (row { kind := type.kind }).drop count) :
      WrittenAs type (.array (type.row.take count))

section Reading

variable {type : FieldType} {json : Json}

/-- A type is read from its kind and whatever else is given. -/
theorem ofJson?_of_fields? (inDefinition : Bool)
    {analyzer normalizer searchable sortable projectable : Option Json}
    (hfields : json.fields?
        ["kind", "analyzer", "normalizer", "searchable", "sortable", "projectable"] 1
      = some [some (.string type.kind.tag), analyzer, normalizer, searchable, sortable,
          projectable])
    (hanalyzer : Given analyzer (textOrNull type.analyzer) .null)
    (hnormalizer : Given normalizer (textOrNull type.normalizer) .null)
    (hsearchable : Given searchable (.bool type.searchable) (.bool true))
    (hsortable : Given sortable (.bool type.sortable) (.bool false))
    (hprojectable : Given projectable (.bool type.projectable) (.bool true)) :
    ofJson? inDefinition json = some type := by
  simp only [ofJson?, hfields, Json.required, Option.bind_some, FieldKind.ofJson?_tag,
    hanalyzer.optional, hnormalizer.optional, hsearchable.defaulting, hsortable.defaulting,
    hprojectable.defaulting]
  rfl

/-- Whichever way a type is written in, it is read as that type. -/
theorem ofJson?_of_writtenAs (inDefinition : Bool) (h : type.WrittenAs json) :
    ofJson? inDefinition json = some type := by
  cases h with
  | members hkind hanalyzer hnormalizer hsearchable hsortable hprojectable =>
      refine ofJson?_of_fields? inDefinition ?_ hanalyzer hnormalizer hsearchable hsortable
        hprojectable
      simp only [Json.fields?, List.map_cons, List.map_nil, hkind]
  | @fields count hkind hdefaults =>
      refine ofJson?_of_fields? inDefinition ?_ (.of_drop_eq hdefaults 1 rfl rfl)
        (.of_drop_eq hdefaults 2 rfl rfl) (.of_drop_eq hdefaults 3 rfl rfl)
        (.of_drop_eq hdefaults 4 rfl rfl) (.of_drop_eq hdefaults 5 rfl rfl)
      refine (Json.fields?_take rfl hkind (by decide)).trans ?_
      simp [row, hkind]

end Reading

/-- A type is written by name, with the options left out that are not set. -/
theorem writtenAs_toJson (type : FieldType) : type.WrittenAs type.toJson := by
  obtain ⟨kind, analyzer, normalizer, searchable, sortable, projectable⟩ := type
  cases analyzer <;> cases normalizer <;>
    exact .members rfl (by simp [Given, find?, Json.member?, textOrNull])
      (by simp [Given, find?, Json.member?, textOrNull]) (.inl rfl) (.inl rfl) (.inl rfl)

end FieldType

/-! ### Definitions -/

/-- A layout is read from its tag, in a definition or outside. -/
theorem ObjectLayout.ofJson?_tag (inDefinition : Bool) (layout : ObjectLayout) :
    ofJson? inDefinition (.string layout.tag) = some layout := by
  cases layout <;> rfl

/-- A layout that is left out is the flattened one. -/
theorem ObjectLayout.defaulting_of_given {field : Option Json} {layout : ObjectLayout}
    (h : Given field (.string layout.tag) (.string flattened.tag)) :
    Json.defaulting flattened (ofJson? true) field = some layout := by
  rcases h with rfl | ⟨rfl, hdefault⟩
  · exact ofJson?_tag true layout
  · have hread := ofJson?_tag true layout
    rw [hdefault] at hread
    exact hread

namespace Definition

mutual

/-- The ways to write a definition. Members with other names may be there in all of them. -/
inductive WrittenAs : Definition → Json → Prop
  | value {name : String} {type : FieldType} {multiValued : Bool} {json : Json}
      {members : List (String × Json)}
      (hkind : find? "kind" members = some (.string "value"))
      (hname : find? "name" members = some (.string name))
      (hjson : find? "field_type" members = some json) (htype : type.WrittenAs json)
      (hmulti : Given (find? "multi_valued" members) (.bool multiValued) (.bool false)) :
      WrittenAs (value name type multiValued) (.object members)
  | object {name : String} {layout : ObjectLayout} {multiValued : Bool}
      {children : List Definition} {items : List Json} {members : List (String × Json)}
      (hkind : find? "kind" members = some (.string "object"))
      (hname : find? "name" members = some (.string name))
      (hlayout : Given (find? "structure" members) (.string layout.tag)
        (.string ObjectLayout.flattened.tag))
      (hmulti : Given (find? "multi_valued" members) (.bool multiValued) (.bool false))
      (hitems : Given (find? "children" members) (.array items) (.array []))
      (hchildren : AllWrittenAs children items) :
      WrittenAs (object name layout multiValued children) (.object members)

/-- The ways to write definitions one by one. -/
inductive AllWrittenAs : List Definition → List Json → Prop
  | nil : AllWrittenAs [] []
  | cons {definition : Definition} {json : Json} {definitions : List Definition} {items : List Json}
      (hfirst : WrittenAs definition json) (hrest : AllWrittenAs definitions items) :
      AllWrittenAs (definition :: definitions) (json :: items)

end

/-- Children are looked for under their key. -/
theorem childrenOf?_eq (members : List (String × Json)) :
    childrenOf? members
      = (find? "children" members).elim (some []) (arrayOfJson? true) := by
  induction members with
  | nil => rfl
  | cons member members ih =>
      obtain ⟨key, json⟩ := member
      by_cases hkey : key = "children"
      · rw [hkey, Json.find?_cons_self, childrenOf?, if_pos rfl]
        rfl
      · rw [Json.find?_cons_of_ne hkey, childrenOf?, if_neg hkey, ih]

/-- Children that are left out are none. -/
theorem children_of_given {field : Option Json} {items : List Json} {children : List Definition}
    (h : Given field (.array items) (.array []))
    (hread : itemsOfJson? true items = some children) :
    field.elim (some []) (arrayOfJson? true) = some children := by
  rcases h with rfl | ⟨rfl, hempty⟩
  · exact hread
  · obtain rfl := Json.array.inj hempty
    exact hread

mutual

/-- Whichever way a definition is written in, it is read as that definition. -/
theorem ofJson?_of_writtenAs (isChild : Bool) : ∀ (definition : Definition) {json : Json},
    WrittenAs definition json → ofJson? isChild json = some definition
  | .value name type multiValued, _, .value hkind hname hjson htype hmulti => by
      simp only [ofJson?, hkind, Option.bind_some, Variant.ofJson?, if_true, valueOfRecord?,
        Json.fields?, List.map_cons, List.map_nil, hname, hjson, Json.required, Json.asString?,
        FieldType.ofJson?_of_writtenAs true htype, hmulti.defaulting]
      rfl
  | .object name layout multiValued children, _,
      .object hkind hname hlayout hmulti hitems hchildren => by
      have hchildrenOf := children_of_given hitems
        (itemsOfJson?_of_allWrittenAs true children hchildren)
      simp only [ofJson?, hkind, Option.bind_some, Variant.ofJson?, childrenOf?_eq, hchildrenOf,
        objectOfRecord?, Json.fields?, List.map_cons, List.map_nil, hname, Json.required,
        Json.asString?, ObjectLayout.defaulting_of_given hlayout, hmulti.defaulting]
      rfl

/-- Definitions that are written one by one are read one by one. -/
theorem itemsOfJson?_of_allWrittenAs (isChild : Bool) : ∀ (definitions : List Definition)
    {items : List Json}, AllWrittenAs definitions items →
      itemsOfJson? isChild items = some definitions
  | [], _, .nil => rfl
  | definition :: definitions, _, .cons hfirst hrest => by
      rw [itemsOfJson?, ofJson?_of_writtenAs isChild definition hfirst, Option.bind_eq_bind,
        Option.bind_some, itemsOfJson?_of_allWrittenAs isChild definitions hrest]
      rfl

end

mutual

/-- A definition is written in one of the ways to write it. -/
theorem writtenAs_toJson : ∀ definition : Definition, WrittenAs definition definition.toJson
  | .value _ type _ => .value rfl rfl rfl type.writtenAs_toJson (.inl rfl)
  | .object _ _ _ children =>
      .object rfl rfl (.inl rfl) (.inl rfl) (.inl rfl) (allWrittenAs_listToJson children)

/-- Definitions are written one by one, each in one of the ways to write it. -/
theorem allWrittenAs_listToJson : ∀ definitions : List Definition,
    AllWrittenAs definitions (listToJson definitions)
  | [] => .nil
  | definition :: definitions =>
      .cons (writtenAs_toJson definition) (allWrittenAs_listToJson definitions)

end

/-! ### Normal forms -/

/-- Whichever way definitions are written in, they are read as those definitions. -/
theorem listOfJson?_of_allWrittenAs {definitions : List Definition} {items : List Json}
    (h : AllWrittenAs definitions items) : listOfJson? (.array items) = some definitions :=
  itemsOfJson?_of_allWrittenAs false definitions h

/-- Definitions are read as they were written. -/
theorem listOfJson?_listToJson (definitions : List Definition) :
    listOfJson? (.array (listToJson definitions)) = some definitions :=
  listOfJson?_of_allWrittenAs (allWrittenAs_listToJson definitions)

/-- The normal form of a document of definitions: what is read from it, written again. -/
def normal? (json : Json) : Option Json :=
  (listOfJson? json).map fun definitions => .array (listToJson definitions)

/-- The normal form tells the definitions. -/
theorem normal?_eq_some_iff {json : Json} {definitions : List Definition} :
    normal? json = some (.array (listToJson definitions))
      ↔ listOfJson? json = some definitions := by
  constructor
  · intro h
    obtain ⟨read, hread, hwritten⟩ := Option.map_eq_some_iff.mp h
    -- Both are read from the same document.
    rw [hread, ← listOfJson?_listToJson read, hwritten, listOfJson?_listToJson]
  · intro h
    rw [normal?, h, Option.map_some]

/-- Definitions are read as they were written, from what is written and from every other document in
one of the ways to write them. A document that can be read, in whatever way, has a normal form,
which is read as the same definitions and is its own normal form. It is the normal form of just
those documents that are read as these definitions. So an index can be made from the one exactly if
it can be made from the other, and it is the same index. -/
theorem listOfJson?_normal :
    (∀ definitions, listOfJson? (.array (listToJson definitions)) = some definitions) ∧
    (∀ definitions items, AllWrittenAs definitions items →
      listOfJson? (.array items) = some definitions) ∧
    ∀ json definitions, listOfJson? json = some definitions →
      ∃ normal, normal? json = some normal ∧ listOfJson? normal = some definitions ∧
        normal? normal = some normal ∧
        (∀ other, normal? other = some normal ↔ listOfJson? other = some definitions) ∧
        ∀ name, (listOfJson? normal).map (Index.ofDefinitions name)
          = (listOfJson? json).map (Index.ofDefinitions name) := by
  refine ⟨listOfJson?_listToJson, fun _ _ => listOfJson?_of_allWrittenAs,
    fun json definitions hread => ?_⟩
  have hnormal := listOfJson?_listToJson definitions
  refine ⟨.array (listToJson definitions), normal?_eq_some_iff.mpr hread, hnormal,
    normal?_eq_some_iff.mpr hnormal, fun other => normal?_eq_some_iff, fun name => ?_⟩
  rw [hnormal, hread]

/-- Orders with their numbers, and nothing said that need not be said: a type that is a list and
ends early, an option that is null, defaults that are left out, and members that mean nothing. -/
def tersely (kind : Json) : List Json :=
  [.object [("children", .array [
        .object [("field_type", .array [.string "keyword", .null, .string "folded"]),
          ("kind", kind), ("name", .string "number")]]),
      ("kind", .string "object"), ("name", .string "orders"), ("owner", .string "sales"),
      ("structure", .string "nested")],
    .object [("field_type", .object [("analyzer", .null), ("kind", .string "text")]),
      ("kind", .string "value"), ("name", .string "title")]]

/-- The same definitions with everything said. -/
def atLength : List Definition :=
  [.object "orders" .nested false
      [.value "number" { kind := .keyword, normalizer := some "folded" } false],
    .value "title" { kind := .text } false]

/-- The terse document is one of the ways to write these definitions. -/
theorem allWrittenAs_tersely : AllWrittenAs atLength (tersely (.string "value")) := by
  have hkeyword : FieldType.WrittenAs { kind := .keyword, normalizer := some "folded" }
      (.array [.string "keyword", .null, .string "folded"]) :=
    @FieldType.WrittenAs.fields _ 3 (by decide) rfl
  have htext : FieldType.WrittenAs { kind := .text }
      (.object [("analyzer", .null), ("kind", .string "text")]) :=
    .members rfl (.inl rfl) (.inr ⟨rfl, rfl⟩) (.inr ⟨rfl, rfl⟩) (.inr ⟨rfl, rfl⟩) (.inr ⟨rfl, rfl⟩)
  have hnumber : WrittenAs (.value "number" { kind := .keyword, normalizer := some "folded" } false)
      (.object [("field_type", .array [.string "keyword", .null, .string "folded"]),
        ("kind", .string "value"), ("name", .string "number")]) :=
    .value rfl rfl rfl hkeyword (.inr ⟨rfl, rfl⟩)
  exact .cons (.object rfl rfl (.inl rfl) (.inr ⟨rfl, rfl⟩) (.inl rfl) (.cons hnumber .nil))
    (.cons (.value rfl rfl rfl htext (.inr ⟨rfl, rfl⟩)) .nil)

/-- In one of the ways to write definitions, and in one that gives a kind by its position. -/
theorem listOfJson?_normal_tersely :
    AllWrittenAs atLength (tersely (.string "value")) ∧
      listOfJson? (.array (tersely (.string "value"))) = some atLength ∧
      listOfJson? (.array (tersely (.int 0))) = some atLength ∧
      ∃ normal, normal = .array (listToJson atLength) ∧
        normal? (.array (tersely (.int 0))) = some normal ∧
        normal? (.array (tersely (.string "value"))) = some normal ∧ normal? normal = some normal ∧
          listOfJson? normal = some atLength := by
  obtain ⟨hwritten, hways, hdocuments⟩ := listOfJson?_normal
  have hterse := hways _ _ allWrittenAs_tersely
  have hposition : listOfJson? (.array (tersely (.int 0))) = some atLength := rfl
  obtain ⟨normal, hnormal, hread, hself, hsame, -⟩ := hdocuments _ atLength hposition
  refine ⟨allWrittenAs_tersely, hterse, hposition, normal, ?_, hnormal, (hsame _).mpr hterse, hself,
    hread⟩
  have hexpected := (hsame _).mpr (hwritten atLength)
  rw [normal?, hwritten, Option.map_some] at hexpected
  exact (Option.some.inj hexpected).symm

end Definition

end SearchDsl
