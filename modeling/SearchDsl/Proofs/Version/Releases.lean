import SearchDsl.Proofs.Cluster.Responses
import SearchDsl.Proofs.Query.Distances

/-!
# `SearchDsl.Proofs.Version.Releases`: the dialect of a release

`Dialect.Covers` is the table of releases, with one row for each dialect. Choosing a dialect is
looking the release up in the table (`Dialect.ofVersion_eq_ok_iff`), and the versions in no row are
refused.

What is sent to a release depends on what it understands, and that grows from release to release.
The dialects are named for the releases where it did. So a version is at least as new as such a
release exactly if its own dialect is no older than the one named for it
(`Dialect.Covers.isAtLeast_iff`). This ties the table to the comparison of versions, which knows of
no dialects, and `Dialect.Speaks` follows for each feature.

A version without a minor number is left out there. It is compared as the first minor release but
gets the dialect of the last one (`Dialect.ofVersion_eq_ok_iff_newest`).
-/

set_option autoImplicit false

namespace SearchDsl

/-- Versions are compared by the major number first. -/
theorem Version.isAtLeast_iff {version : Version} {major minor : UInt32} :
    version.isAtLeast major minor = true ↔
      major < version.major ∨ (major = version.major ∧ minor ≤ version.minor.getD 0) := by
  rw [Version.isAtLeast, Bool.or_eq_true, Bool.and_eq_true, decide_eq_true_eq, decide_eq_true_eq,
    beq_iff_eq]

namespace Dialect

variable {dialect : Dialect} {version : Version}

/-! ### The table of releases -/

/-- The releases that a dialect is for. -/
def Covers (dialect : Dialect) (major : UInt32) (minor : Option UInt32) : Prop :=
  match dialect with
  | v56 => major = 5 ∧ ∀ m, minor = some m → m = 6
  | v60 => major = 6 ∧ ∃ m, minor = some m ∧ m ≤ 2
  | v63 => major = 6 ∧ ∀ m, minor = some m → 3 ≤ m ∧ m ≤ 8
  | v7 => 7 ≤ major

/-- The rows of the table for a given minor release. -/
theorem covers_some_iff {major minor : UInt32} : dialect.Covers major (some minor) ↔
    match dialect with
    | v56 => major = 5 ∧ minor = 6
    | v60 => major = 6 ∧ minor ≤ 2
    | v63 => major = 6 ∧ 3 ≤ minor ∧ minor ≤ 8
    | v7 => 7 ≤ major := by
  cases dialect <;> simp [Covers]

/-- The rows of the table without a minor release. A row for some of the minor releases does not
stand for all of them. -/
theorem covers_none_iff {major : UInt32} : dialect.Covers major none ↔
    match dialect with
    | v56 => major = 5
    | v60 => False
    | v63 => major = 6
    | v7 => 7 ≤ major := by
  cases dialect <;> simp [Covers]

/-- The releases that no dialect is for. -/
def Uncovered (major : UInt32) (minor : Option UInt32) : Prop :=
  major < 5 ∨ (major = 5 ∧ ∃ m, minor = some m ∧ m ≠ 6) ∨ (major = 6 ∧ ∃ m, minor = some m ∧ 8 < m)

/-- The rows of the table are the branches that have a dialect. -/
theorem ofVersion_eq_ok_iff :
    ofVersion (some version) = .ok dialect ↔ dialect.Covers version.major version.minor := by
  obtain ⟨major, minor, micro, qualifier⟩ := version
  unfold ofVersion
  cases minor with
  | none => cases dialect <;> rw [covers_none_iff] <;> grind
  | some minor => cases dialect <;> rw [covers_some_iff] <;> grind

/-- The other branches name the version that they refuse. -/
theorem ofVersion_eq_error_iff {e : Error} : ofVersion (some version) = .error e ↔
    e = .unsupportedVersion version ∧ Uncovered version.major version.minor := by
  obtain ⟨major, minor, micro, qualifier⟩ := version
  unfold ofVersion Uncovered
  cases minor with
  | none => simp only [reduceCtorEq, false_and, exists_false, and_false]; grind
  | some minor => simp only [Option.some.injEq, exists_eq_left', reduceCtorEq, false_or]; grind

/-! ### Dialects in the order of releases -/

/-- The release that a dialect is named for. -/
def firstRelease : Dialect → UInt32 × UInt32
  | v56 => (5, 6)
  | v60 => (6, 0)
  | v63 => (6, 3)
  | v7 => (7, 0)

/-- The place of a dialect in the order of releases. -/
def position : Dialect → Nat
  | v56 => 0
  | v60 => 1
  | v63 => 2
  | v7 => 3

/-- A release is at least the first one of a dialect exactly if its own dialect is no older. -/
theorem Covers.isAtLeast_iff {minor : UInt32} (h : dialect.Covers version.major version.minor)
    (hminor : version.minor = some minor) (other : Dialect) :
    version.isAtLeast other.firstRelease.1 other.firstRelease.2 = true ↔
      other.position ≤ dialect.position := by
  rw [Version.isAtLeast_iff, hminor]
  rw [hminor, covers_some_iff] at h
  cases dialect <;> cases other <;>
    simp only [firstRelease, position, Option.getD_some] at h ⊢ <;>
    grind

/-! ### What is sent to a release -/

/-- Only the oldest dialect names the innermost nested object alone. -/
theorem nestedSort_eq_nestedPath_iff {hierarchy : List String} (h : hierarchy ≠ []) :
    dialect.nestedSort hierarchy = [("nested_path", .string (hierarchy.getLast h))] ↔
      ¬v60.position ≤ dialect.position := by
  obtain ⟨option, hoption, hencloses⟩ := exists_nestedSort_eq dialect h
  rw [hoption]
  cases dialect with
  | v56 =>
      have hlast : some option = some (.string (hierarchy.getLast h)) := by
        rw [← Option.map_some, ← List.getLast?_eq_some_getLast h]
        exact hencloses
      rw [Option.some.inj hlast]
      exact iff_of_true rfl (by decide)
  | v60 | v63 | v7 => exact iff_of_false (by simp [nestedKey]) (by decide)

/-- A parameter is set if a value is given for it. -/
theorem mem_param?_iff {key name value : String} {given : Option String} :
    (key, value) ∈ Request.param? name given ↔ key = name ∧ given = some value := by
  cases given with
  | none => simp [Request.param?]
  | some given => simp [Request.param?, eq_comm]

/-- A search says whether partial results will do if the call does and the dialect can. -/
theorem exists_mem_params_iff {call : SearchCall} {request : Request}
    (h : Request.search dialect call = .ok request) :
    (∃ value, ("allow_partial_search_results", value) ∈ request.params) ↔
      call.allowPartialResults ≠ none ∧ dialect.allowsPartialResults = true := by
  unfold Request.search at h
  split at h
  · simp at h
  · obtain rfl := Except.ok.inj h
    -- The other two parameters have other names.
    simp only [List.mem_append, mem_param?_iff, String.reduceEq, false_and, or_false, true_and]
    cases dialect.allowsPartialResults with
    | false => simp
    | true => cases call.allowPartialResults <;> simp

/-- What is sent to a release in the protocol of a dialect. -/
structure Speaks (dialect : Dialect) (version : Version) : Prop where
  partialResults : dialect.allowsPartialResults = true ↔ version.isAtLeast 6 3 = true
  totalHits : dialect.tracksTotalHits = true ↔ version.isAtLeast 7 0 = true
  mappingType : dialect.mappingType? = none ↔ version.isAtLeast 7 0 = true
  nestedPath : ∀ (hierarchy : List String) (h : hierarchy ≠ []),
    dialect.nestedSort hierarchy = [("nested_path", .string (hierarchy.getLast h))] ↔
      ¬version.isAtLeast 6 0 = true
  /-- Searches that say whether partial results will do. -/
  search : ∀ (call : SearchCall) (request : Request), Request.search dialect call = .ok request →
    ((∃ value, ("allow_partial_search_results", value) ∈ request.params) ↔
      call.allowPartialResults ≠ none ∧ version.isAtLeast 6 3 = true)
  /-- Bodies that say whether the exact hit count is wanted. -/
  body : ∀ (query : Query) (config : ClusterConfig) (offset : UInt64) (limit : Option UInt64)
    (body : Json), query.body dialect config offset limit = .ok body →
      body.get? "track_total_hits"
        = if version.isAtLeast 7 0 then some (.bool config.trackTotalHits) else none
  /-- Mappings that are given for a mapping type. -/
  mapping : ∀ mapping : Json, dialect.wrapMapping mapping
    = [("mappings", if version.isAtLeast 7 0 then mapping else .single "doc" mapping)]

/-- A release is spoken to as its number says. -/
theorem Covers.speaks {minor : UInt32} (h : dialect.Covers version.major version.minor)
    (hminor : version.minor = some minor) : dialect.Speaks version := by
  have h60 : version.isAtLeast 6 0 = true ↔ v60.position ≤ dialect.position :=
    h.isAtLeast_iff hminor v60
  have h63 : version.isAtLeast 6 3 = true ↔ v63.position ≤ dialect.position :=
    h.isAtLeast_iff hminor v63
  have h70 : version.isAtLeast 7 0 = true ↔ v7.position ≤ dialect.position :=
    h.isAtLeast_iff hminor v7
  have hpartial : dialect.allowsPartialResults = true ↔ version.isAtLeast 6 3 = true := by
    rw [h63]
    cases dialect <;> decide
  have htotal : dialect.tracksTotalHits = true ↔ version.isAtLeast 7 0 = true := by
    rw [h70]
    cases dialect <;> decide
  have htype : dialect.mappingType? = none ↔ version.isAtLeast 7 0 = true := by
    rw [h70]
    cases dialect <;> decide
  refine ⟨hpartial, htotal, htype, fun hierarchy hne => ?_, fun call request hsearch => ?_,
    fun query config offset limit body hbody => ?_, fun mapping => ?_⟩
  · rw [nestedSort_eq_nestedPath_iff hne, h60]
  · rw [exists_mem_params_iff hsearch, hpartial]
  · rw [Query.get?_body_trackTotalHits hbody]
    exact if_congr htotal rfl rfl
  · -- There is one mapping type at most.
    have hdoc : dialect.mappingType? = none ∨ dialect.mappingType? = some "doc" := by
      cases dialect <;> decide
    rcases hdoc with hnone | hdoc
    · rw [wrapMapping, hnone, if_pos (htype.mp hnone)]
    · have hold : ¬version.isAtLeast 7 0 = true := by
        rw [← htype, hdoc]
        exact nofun
      rw [wrapMapping, hdoc, if_neg hold]

/-! ### Releases without a minor number -/

/-- A dialect is there for the minor release. -/
def Supported (major minor : UInt32) : Prop :=
  ∃ dialect, ofVersion (some { major, minor := some minor }) = .ok dialect

/-- The last minor release that a dialect is there for. -/
def IsNewest (major newest : UInt32) : Prop :=
  Supported major newest ∧ ∀ minor, Supported major minor → minor ≤ newest

/-- The minor releases that there are dialects for. -/
theorem supported_iff {major minor : UInt32} : Supported major minor ↔
    (major = 5 ∧ minor = 6) ∨ (major = 6 ∧ minor ≤ 8) ∨ 7 ≤ major := by
  simp only [Supported, ofVersion_eq_ok_iff, covers_some_iff]
  constructor
  · rintro ⟨dialect, hcovers⟩
    cases dialect <;> grind
  · rintro (hfive | ⟨hsix, hminor⟩ | hmajor)
    · exact ⟨v56, hfive⟩
    · by_cases hold : minor ≤ 2
      · exact ⟨v60, hsix, hold⟩
      · exact ⟨v63, hsix, by grind, hminor⟩
    · exact ⟨v7, hmajor⟩

/-- The last minor release of each major one. From release 7 on there is no other bound than that of
32 bits. -/
theorem isNewest_iff {major newest : UInt32} : IsNewest major newest ↔
    (major = 5 ∧ newest = 6) ∨ (major = 6 ∧ newest = 8) ∨ (7 ≤ major ∧ newest = 4294967295) := by
  simp only [IsNewest, supported_iff]
  constructor
  · rintro ⟨hsupported, hlast⟩
    have hgreatest := hlast 4294967295
    have height := hlast 8
    grind
  · grind

/-- Without a minor number a release gets the dialect of the last minor one. -/
theorem ofVersion_eq_ok_iff_newest (hminor : version.minor = none) :
    ofVersion (some version) = .ok dialect ↔ ∃ newest, IsNewest version.major newest ∧
      ofVersion (some { major := version.major, minor := some newest }) = .ok dialect := by
  simp only [ofVersion_eq_ok_iff, isNewest_iff, hminor, covers_none_iff, covers_some_iff]
  constructor
  · intro hcovers
    cases dialect with
    | v56 => exact ⟨6, .inl ⟨hcovers, rfl⟩, hcovers, rfl⟩
    | v60 => exact hcovers.elim
    | v63 => exact ⟨8, .inr (.inl ⟨hcovers, rfl⟩), hcovers, by decide, by decide⟩
    | v7 => exact ⟨4294967295, .inr (.inr ⟨hcovers, rfl⟩), hcovers⟩
  · rintro ⟨newest, hnewest, hcovers⟩
    cases dialect with
    | v56 => exact hcovers.1
    | v60 => grind
    | v63 => exact hcovers.1
    | v7 => exact hcovers

/-- A version with a minor number that is accepted is spoken to as its number says. Without a minor
number the last one that is accepted decides. The rest of the version never does. Refused are the
versions before 5, those of 5 with another minor number than 6, and those of 6 with one above 8. -/
theorem ofVersion_by_release (version : Version) :
    (∀ minor dialect, version.minor = some minor → ofVersion (some version) = .ok dialect →
      dialect.Speaks version) ∧
    (version.minor = none → ∀ dialect, ofVersion (some version) = .ok dialect ↔
      ∃ newest, IsNewest version.major newest ∧
        ofVersion (some { major := version.major, minor := some newest }) = .ok dialect) ∧
    (∀ other : Version, other.major = version.major → other.minor = version.minor →
      ∀ dialect, ofVersion (some other) = .ok dialect ↔ ofVersion (some version) = .ok dialect) ∧
    ∀ e, ofVersion (some version) = .error e ↔ e = .unsupportedVersion version ∧
      (version.major < 5 ∨ (version.major = 5 ∧ ∃ minor, version.minor = some minor ∧ minor ≠ 6) ∨
        (version.major = 6 ∧ ∃ minor, version.minor = some minor ∧ 8 < minor)) := by
  refine ⟨fun minor dialect hminor haccepted => ?_, fun hminor dialect => ?_,
    fun other hmajor hminor dialect => ?_, fun e => ofVersion_eq_error_iff⟩
  · exact (ofVersion_eq_ok_iff.mp haccepted).speaks hminor
  · exact ofVersion_eq_ok_iff_newest hminor
  · rw [ofVersion_eq_ok_iff, ofVersion_eq_ok_iff, hmajor, hminor]

/-- The last minor release of version 6, and versions that get its dialect or none. -/
theorem ofVersion_by_release_lastOfSix :
    let version : Version := { major := 6, minor := some 8, micro := some 23 }
    let candidate : Version := { major := 6, minor := some 8, qualifier := some "rc1" }
    let next : Version := { major := 6, minor := some 9 }
    ofVersion (some version) = .ok v63 ∧ v63.Speaks version ∧
      ofVersion (some candidate) = .ok v63 ∧ ofVersion (some { major := 6 }) = .ok v63 ∧
        IsNewest 6 8 ∧ ofVersion (some next) = .error (.unsupportedVersion next) := by
  intro version candidate next
  have haccepted : ofVersion (some version) = .ok v63 := rfl
  have hnewest : IsNewest 6 8 := isNewest_iff.mpr (.inr (.inl ⟨rfl, rfl⟩))
  obtain ⟨hspeaks, -, hrest, -⟩ := ofVersion_by_release version
  obtain ⟨-, hpartial, -, -⟩ := ofVersion_by_release { major := 6 }
  obtain ⟨-, -, -, hrefused⟩ := ofVersion_by_release next
  exact ⟨haccepted, hspeaks 8 v63 rfl haccepted, (hrest candidate rfl rfl v63).mpr haccepted,
    (hpartial rfl v63).mpr ⟨8, hnewest, rfl⟩, hnewest,
    (hrefused _).mpr ⟨rfl, .inr (.inr ⟨rfl, 9, rfl, by decide⟩)⟩⟩

end Dialect

end SearchDsl
