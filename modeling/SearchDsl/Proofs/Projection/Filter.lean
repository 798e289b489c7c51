import SearchDsl.Projection
import SearchDsl.Proofs.Path

/-!
# `SearchDsl.Proofs.Projection.Filter`: documents that come back in part

A search asks for those parts of the documents that its projections need
(`Projection.sourceFilter`), and the cluster returns each hit with the rest of its document left
out. What the cluster does is not part of this library: `SourceFilter` is its side of the request,
as documented. Without a filter a document comes back whole, `false` leaves it out, and a list of
paths keeps a member of an object if its position is one of the paths, above one or below one.
Objects are entered, and so are arrays, item by item, which are all kept.

No projection notices (`Projection.extract_returned`). A projection looks into the document along
the names of its path. At every step the path that names lead to is one of those asked for, so the
member that is looked for next lies above or at that path and is there
(`Projection.collect_restrict`). Once the names are used up, what was found lies at or below the
path, where nothing is left out (`SourceFilter.restrict_of_at`).
-/

set_option autoImplicit false

namespace SearchDsl

/-- Which part of each document the cluster returns. -/
inductive SourceFilter where
  | everything
  | nothing
  /-- What lies at, above or below one of the paths. -/
  | includes (paths : List String)

namespace SourceFilter

/-! ### The cluster's side -/

/-- What the cluster reads in a request that may have a filter. -/
def ofRequest : Option Json → SourceFilter
  | none => everything
  | some (.bool false) => nothing
  | some filter =>
      match (filter.get? "includes").bind Json.asArray? with
      | some items => includes (items.filterMap Json.asString?)
      | none => everything

/-- Whether a text goes on after a path and a dot, with anything or nothing. -/
def goesOn (path text : String) : Bool := (path.toList ++ ['.']).isPrefixOf text.toList

/-- Whether one of the paths keeps what is at a position. -/
def keeps (paths : List String) (position : String) : Bool :=
  paths.any fun path => path = position || goesOn path position || goesOn position path

mutual

/-- What is kept of a value at a position. The document itself has none. -/
def restrict (paths : List String) (position : Option String) : Json → Json
  | .object members => .object (restrictMembers paths position members)
  | .array items => .array (restrictItems paths position items)
  | .null => .null
  | .bool b => .bool b
  | .int n => .int n
  | .double x => .double x
  | .string s => .string s

/-- What is kept of the items of an array, which are at the position of the array. -/
def restrictItems (paths : List String) (position : Option String) : List Json → List Json
  | [] => []
  | item :: rest => restrict paths position item :: restrictItems paths position rest

/-- What is kept of the members of an object. -/
def restrictMembers (paths : List String) (position : Option String) :
    List (String × Json) → List (String × Json)
  | [] => []
  | (key, value) :: rest =>
      if keeps paths (Path.join position key) then
        (key, restrict paths (some (Path.join position key)) value)
          :: restrictMembers paths position rest
      else restrictMembers paths position rest

end

/-- What is returned of a document. -/
def document? : SourceFilter → Json → Option Json
  | everything, document => some document
  | nothing, _ => none
  | includes paths, document => some (restrict paths none document)

/-- What is returned of a member of a hit: only the document is filtered. -/
def member? (filter : SourceFilter) (member : String × Json) : Option (String × Json) :=
  if member.1 = "_source" then (filter.document? member.2).map (member.1, ·) else some member

/-- A hit as it is returned. -/
def returned (filter : SourceFilter) : Json → Json
  | .object members => .object (members.filterMap filter.member?)
  | hit => hit

/-! ### What is kept -/

/-- A text goes on from a path if the path, a dot and anything else make it up. -/
theorem goesOn_iff {path text : String} :
    goesOn path text = true ↔ ∃ rest, text = path ++ "." ++ rest := by
  rw [goesOn, List.isPrefixOf_iff_prefix]
  constructor
  · rintro ⟨rest, htext⟩
    refine ⟨String.ofList rest, String.toList_inj.mp ?_⟩
    simp [← htext]
  · rintro ⟨rest, rfl⟩
    exact ⟨rest.toList, by simp⟩

/-- A position is kept if it is a path that is asked for, or below one, or on the way to one. -/
theorem keeps_iff {paths : List String} {position : String} :
    keeps paths position = true ↔ ∃ path ∈ paths,
      path = position ∨ (∃ rest, position = path ++ "." ++ rest)
        ∨ ∃ rest, path = position ++ "." ++ rest := by
  simp only [keeps, List.any_eq_true, Bool.or_eq_true, decide_eq_true_eq, goesOn_iff, or_assoc]

/-- A position is at a path or below it. -/
def At (path position : String) : Prop := position = path ∨ ∃ rest, position = path ++ "." ++ rest

/-- Below a position at a path everything is at that path. -/
theorem At.join {path position : String} (h : At path position) (key : String) :
    At path (Path.join (some position) key) := by
  right
  rcases h with rfl | ⟨rest, rfl⟩
  · exact ⟨key, rfl⟩
  · exact ⟨rest ++ "." ++ key, by simp [Path.join, String.append_assoc]⟩

/-- What is at a path that is asked for is kept. -/
theorem At.keeps {paths : List String} {path position : String} (hpath : path ∈ paths)
    (h : At path position) : keeps paths position = true := by
  refine keeps_iff.mpr ⟨path, hpath, ?_⟩
  rcases h with hat | hbelow
  · exact .inl hat.symm
  · exact .inr (.inl hbelow)

mutual

/-- Nothing is left out at or below a path that is asked for. -/
theorem restrict_of_at {paths : List String} {path position : String} (hpath : path ∈ paths)
    (h : At path position) : ∀ json : Json, restrict paths (some position) json = json
  | .object members => by rw [restrict, restrictMembers_of_at hpath h members]
  | .array items => by rw [restrict, restrictItems_of_at hpath h items]
  | .null | .bool _ | .int _ | .double _ | .string _ => rfl

/-- No item of an array there is changed. -/
theorem restrictItems_of_at {paths : List String} {path position : String} (hpath : path ∈ paths)
    (h : At path position) : ∀ items : List Json, restrictItems paths (some position) items = items
  | [] => rfl
  | item :: rest => by
      rw [restrictItems, restrict_of_at hpath h item, restrictItems_of_at hpath h rest]

/-- No member of an object there is left out or changed. -/
theorem restrictMembers_of_at {paths : List String} {path position : String} (hpath : path ∈ paths)
    (h : At path position) :
    ∀ members : List (String × Json), restrictMembers paths (some position) members = members
  | [] => rfl
  | (key, value) :: rest => by
      rw [restrictMembers, if_pos ((h.join key).keeps hpath),
        restrict_of_at hpath (h.join key) value, restrictMembers_of_at hpath h rest]

end

/-! ### Hits as they are returned -/

/-- Only the document of a hit is filtered. -/
theorem get?_returned_of_ne {key : String} (h : key ≠ "_source") (filter : SourceFilter)
    (hit : Json) : (filter.returned hit).get? key = hit.get? key := by
  cases hit with
  | object members =>
      show Json.find? key (members.filterMap filter.member?) = Json.find? key members
      induction members with
      | nil => rfl
      | cons member rest ih =>
          obtain ⟨other, value⟩ := member
          by_cases hother : other = "_source"
          · have hne : key ≠ other := fun heq => h (heq.trans hother)
            cases hdocument : filter.document? value with
            | none => simp [member?, hother, hdocument, Json.find?, h, ih]
            | some kept => simp [member?, hother, hdocument, Json.find?, h, ih]
          · simp [member?, hother, Json.find?, ih]
  | _ => rfl

/-- The document of a hit as it is returned is what the filter leaves of it. -/
theorem get?_source_returned (filter : SourceFilter) (hit : Json) :
    (filter.returned hit).get? "_source" = (hit.get? "_source").bind filter.document? := by
  cases hit with
  | object members =>
      show Json.find? "_source" (members.filterMap filter.member?)
        = (Json.find? "_source" members).bind filter.document?
      induction members with
      | nil => rfl
      | cons member rest ih =>
          obtain ⟨key, value⟩ := member
          by_cases hkey : key = "_source"
          · -- If this document is left out, all others of the hit are as well.
            cases filter with
            | everything | includes => simp [member?, document?, hkey, Json.find?]
            | nothing =>
                have hrest : (Json.find? "_source" rest).bind nothing.document? = none := by
                  cases Json.find? "_source" rest <;> rfl
                rw [hrest] at ih
                simpa [member?, document?, hkey, Json.find?] using ih
          · simp [member?, hkey, Json.find?, ih, Ne.symm hkey]
  | _ => rfl

end SourceFilter

namespace Projection

/-! ### What projections see -/

mutual

/-- Along the names of a path that is asked for, the same values are found in what is kept. -/
theorem collect_restrict {paths : List String} {path : String} (hpath : path ∈ paths)
    {position : Option String} {names : List String} (h : Path.descend position names = some path) :
    ∀ json : Json, collect names (SourceFilter.restrict paths position json) = collect names json
  | .array items => collectItems_restrict hpath h items
  | .object members =>
      match names with
      | [] => by
          -- The names have led to the path itself.
          obtain rfl : position = some path := h
          rw [SourceFilter.restrict_of_at hpath (.inl rfl)]
      | _ :: _ => collectMember_restrict hpath h members
  | .null | .bool _ | .int _ | .double _ | .string _ => rfl

/-- The items of an array still have what is collected from them. -/
theorem collectItems_restrict {paths : List String} {path : String} (hpath : path ∈ paths)
    {position : Option String} {names : List String} (h : Path.descend position names = some path) :
    ∀ items : List Json,
      collectItems names (SourceFilter.restrictItems paths position items)
        = collectItems names items
  | [] => rfl
  | item :: rest => by
      rw [SourceFilter.restrictItems, collectItems, collectItems, collect_restrict hpath h item,
        collectItems_restrict hpath h rest]

/-- The member that is named first is kept, with what is collected from it. -/
theorem collectMember_restrict {paths : List String} {path : String} (hpath : path ∈ paths)
    {position : Option String} {name : String} {names : List String}
    (h : Path.descend position (name :: names) = some path) :
    ∀ members : List (String × Json),
      collectMember name names (SourceFilter.restrictMembers paths position members)
        = collectMember name names members
  | [] => rfl
  | (key, value) :: rest => by
      have hrest := collectMember_restrict hpath h rest
      have hnext : Path.descend (some (Path.join position name)) names = some path := h
      rw [SourceFilter.restrictMembers, collectMember]
      by_cases hname : name = key
      · -- The path is the position of this member or goes on after it.
        subst hname
        have hkept : SourceFilter.keeps paths (Path.join position name) = true := by
          refine SourceFilter.keeps_iff.mpr ⟨path, hpath, ?_⟩
          rcases Path.eq_or_append_of_descend hnext with heq | hbelow
          · exact .inl heq
          · exact .inr (.inr hbelow)
        rw [if_pos hkept, collectMember, if_pos rfl, if_pos rfl, collect_restrict hpath hnext value]
      · rw [if_neg hname]
        split
        · rw [collectMember, if_neg hname, hrest]
        · exact hrest

end

/-- The cluster reads the paths that were written. -/
theorem ofRequest_strings (paths : List String) :
    SourceFilter.ofRequest (some (.single "includes" (.strings paths))) = .includes paths := by
  show SourceFilter.includes ((paths.map Json.string).filterMap Json.asString?) = .includes paths
  rw [List.filterMap_map]
  exact congrArg SourceFilter.includes List.filterMap_some

/-- Whether whole documents are asked for. -/
theorem any_isSource_iff {projections : List Projection} :
    projections.any isSource = true ↔ source ∈ projections := by
  rw [List.any_eq_true]
  constructor
  · rintro ⟨projection, hmem, hsource⟩
    cases projection with
    | source => exact hmem
    | reference | id | score | field => simp [isSource] at hsource
  · intro hmem
    exact ⟨source, hmem, rfl⟩

/-- What the cluster reads: documents come back whole if one is projected, and otherwise only for
the paths of the fields that are projected, if there are any. -/
theorem ofRequest_sourceFilter (projections : List Projection) :
    SourceFilter.ofRequest (sourceFilter projections) =
      if source ∈ projections then .everything
      else match Text.sortedDistinct (projections.filterMap path?) with
        | [] => .nothing
        | paths => .includes paths := by
  unfold sourceFilter
  by_cases hsource : source ∈ projections
  · rw [if_pos (any_isSource_iff.mpr hsource), if_pos hsource]
    rfl
  · rw [if_neg fun hany => hsource (any_isSource_iff.mp hany), if_neg hsource]
    cases Text.sortedDistinct (projections.filterMap path?) with
    | nil => rfl
    | cons path rest => exact ofRequest_strings (path :: rest)

/-- With a field among the projections, its path is asked for unless the whole document is. -/
theorem ofRequest_of_field_mem {projections : List Projection} {path : String} {kind : FieldKind}
    (h : field path kind ∈ projections) :
    SourceFilter.ofRequest (sourceFilter projections) = .everything ∨
      ∃ paths, path ∈ paths ∧
        SourceFilter.ofRequest (sourceFilter projections) = .includes paths := by
  have hpath : path ∈ Text.sortedDistinct (projections.filterMap path?) :=
    Text.mem_sortedDistinct.mpr (List.mem_filterMap.mpr ⟨_, h, rfl⟩)
  rw [ofRequest_sourceFilter]
  split
  · exact .inl rfl
  · split
    · next hnone => simp [hnone] at hpath
    · exact .inr ⟨_, hpath, rfl⟩

/-- The values of a field that is projected are those in the whole document. -/
theorem valuesAt_returned {projections : List Projection} {path : String} {kind : FieldKind}
    (h : field path kind ∈ projections) (hit : Json) :
    valuesAt path ((SourceFilter.ofRequest (sourceFilter projections)).returned hit)
      = valuesAt path hit := by
  unfold valuesAt
  rw [SourceFilter.get?_source_returned]
  cases hit.get? "_source" with
  | none => rfl
  | some document =>
      rcases ofRequest_of_field_mem h with hall | ⟨paths, hpath, hsome⟩
      · rw [hall]
        rfl
      · rw [hsome]
        exact collect_restrict hpath (Path.descend_segments path) document

/-- The filter of the documents that a search asks for never changes one of its projections. -/
theorem extract_returned {projections : List Projection} {projection : Projection}
    (h : projection ∈ projections) (hit : Json) :
    extract ((SourceFilter.ofRequest (sourceFilter projections)).returned hit) projection
      = extract hit projection := by
  cases projection with
  | reference =>
      rw [extract, extract, textOfHit, textOfHit, SourceFilter.get?_returned_of_ne (by decide),
        SourceFilter.get?_returned_of_ne (by decide)]
      rfl
  | id =>
      rw [extract, extract, textOfHit, SourceFilter.get?_returned_of_ne (by decide)]
      rfl
  | score =>
      rw [extract, extract, scoreOfHit?, SourceFilter.get?_returned_of_ne (by decide)]
      rfl
  | field path kind => rw [extract, extract, valuesAt_returned h]
  | source =>
      rw [extract, extract, SourceFilter.get?_source_returned, ofRequest_sourceFilter, if_pos h]
      cases hit.get? "_source" <;> rfl

/-- A field inside an array, with much left out around it. -/
theorem extract_returned_inArray :
    let projections := [id, field "a.b" .long, score]
    let hit := Json.object [("_id", .string "x"), ("_source", .object [
      ("a", .array [.object [("b", .int 5), ("c", .int 6)], .string "y"]), ("a.b", .int 7),
      ("ab", .int 8)])]
    let part := (SourceFilter.ofRequest (sourceFilter projections)).returned hit
    field "a.b" .long ∈ projections ∧
      part = .object [("_id", .string "x"), ("_source", .object [
        ("a", .array [.object [("b", .int 5)], .string "y"]), ("a.b", .int 7)])] ∧
      extract part (field "a.b" .long) = extract hit (field "a.b" .long) ∧
      extract hit (field "a.b" .long) = .ok (.field (some (.long 5))) := by
  intro projections hit part
  have hmem : field "a.b" .long ∈ projections := by decide
  have hfilter : sourceFilter projections = some (.single "includes" (.strings ["a.b"])) := by
    have hsorted : Text.sortedDistinct (projections.filterMap path?) = ["a.b"] := by
      rw [show projections.filterMap path? = ["a.b"] from rfl, Text.sortedDistinct, Text.sorted,
        List.mergeSort_singleton]
      rfl
    rw [sourceFilter, hsorted]
    rfl
  have hpart : part = (SourceFilter.includes ["a.b"]).returned hit := by
    rw [← ofRequest_strings, ← hfilter]
  exact ⟨hmem, hpart, extract_returned hmem hit, rfl⟩

end Projection

end SearchDsl
