import SearchDsl.Json.Record
import SearchDsl.Json.Source
import SearchDsl.Proofs.Binary.Rounding
import SearchDsl.Proofs.Json.Members

/-!
# `SearchDsl.Proofs.Json.Numbers`: the numbers in JSON values

A JSON value holds integers from `-2 ^ 63` to `2 ^ 64 - 1` and finite doubles. `Json.InRange` says
so of every number in a value. Whatever is read from a text is in range (`inRange_of_parse?`),
because a reader takes a number out of the integer range for a double and refuses a double that is
not finite. Such a value yields finite doubles only (`isFinite_of_asDouble?`).
-/

set_option autoImplicit false

namespace SearchDsl.Json

mutual

/-- All numbers in a value are numbers that values can hold. -/
def InRange : Json → Prop
  | null | bool _ | string _ => True
  | int n => Int64.minValue.toInt ≤ n ∧ n < UInt64.size
  | double x => x.isFinite = true
  | array items => ItemsInRange items
  | object members => MembersInRange members

/-- All numbers in some values are numbers that values can hold. -/
def ItemsInRange : List Json → Prop
  | [] => True
  | item :: rest => InRange item ∧ ItemsInRange rest

/-- All numbers in the values of some members are numbers that values can hold. -/
def MembersInRange : List (String × Json) → Prop
  | [] => True
  | (_, value) :: rest => InRange value ∧ MembersInRange rest

end

/-- Items are in range if each of them is. -/
theorem itemsInRange_iff {items : List Json} :
    ItemsInRange items ↔ ∀ item ∈ items, item.InRange := by
  induction items with
  | nil => simp [ItemsInRange]
  | cons item items ih => rw [ItemsInRange, ih, List.forall_mem_cons]

/-- Members are in range if the value of each of them is. -/
theorem membersInRange_iff {members : List (String × Json)} :
    MembersInRange members ↔ ∀ member ∈ members, member.2.InRange := by
  induction members with
  | nil => simp [MembersInRange]
  | cons member members ih => rw [MembersInRange, ih, List.forall_mem_cons]

/-! ### Values in range -/

/-- The fields of a record are parts of the value that it is read from. -/
theorem inRange_of_fields? {json : Json} (hjson : json.InRange) {names : List String} {least : Nat}
    {fields : List (Option Json)} (h : json.fields? names least = some fields) :
    ∀ value, some value ∈ fields → value.InRange := by
  intro value hvalue
  cases json with
  | object members =>
      obtain rfl := Option.some.inj h
      obtain ⟨name, -, hfind⟩ := List.mem_map.mp hvalue
      exact membersInRange_iff.mp hjson _ (mem_of_find? hfind)
  | array items =>
      simp only [fields?, Option.ite_none_right_eq_some] at h
      obtain ⟨-, hfields⟩ := h
      rw [← Option.some.inj hfields] at hvalue
      rcases List.mem_append.mp hvalue with hitem | hmissing
      · obtain ⟨item, hmem, heq⟩ := List.mem_map.mp hitem
        obtain rfl := Option.some.inj heq
        exact itemsInRange_iff.mp hjson item hmem
      · exact absurd (List.eq_of_mem_replicate hmissing) (by simp)
  | null | bool b | int n | double x | string s => simp [fields?] at h

/-- A value in range has finite doubles only, also for its integers. -/
theorem isFinite_of_asDouble? {json : Json} (hjson : json.InRange) {x : Double}
    (h : json.asDouble? = some x) : x.isFinite = true := by
  cases json with
  | int n =>
      obtain rfl := Option.some.inj h
      obtain ⟨hlow, hhigh⟩ := hjson
      have hmin : Int64.minValue.toInt = -2 ^ 63 := Int64.toInt_minValue
      have hsize : ((UInt64.size : Nat) : Int) = 2 ^ 64 := rfl
      exact Binary.isFinite_ofInt (by omega)
  | double y =>
      obtain rfl := Option.some.inj h
      exact hjson
  | null | bool b | string s | array items | object members => simp [asDouble?] at h

/-! ### Values of texts -/

namespace Source

/-- A number that is read is in range, an integer by the check and a double since it is finite. -/
theorem inRange_of_number? {n : Numeral} {json : Json} (h : number? n = some json) :
    json.InRange := by
  unfold number? at h
  dsimp only at h
  generalize (if n.negative = true then -(n.digits : Int) else n.digits) = value at h
  split at h
  · rename_i hwhole
    obtain rfl := Option.some.inj h
    exact ⟨hwhole.2.1, hwhole.2.2.1⟩
  · split at h
    · rename_i hfinite
      obtain rfl := Option.some.inj h
      exact hfinite
    · simp at h

mutual

/-- What a JSON text stands for is in range. -/
theorem inRange_of_json? : ∀ (source : Source) {json : Json}, source.json? = some json →
    json.InRange
  | .null, json, h | .bool _, json, h => by
      obtain rfl := Option.some.inj h
      trivial
  | .number n, json, h => inRange_of_number? h
  | .string units, json, h => by
      obtain ⟨text, -, rfl⟩ := Option.map_eq_some_iff.mp h
      trivial
  | .array items, json, h => by
      obtain ⟨values, hvalues, rfl⟩ := Option.map_eq_some_iff.mp h
      exact itemsInRange_iff.mpr (inRange_of_jsonItems? items hvalues)
  | .object members, json, h => by
      obtain ⟨values, hvalues, rfl⟩ := Option.map_eq_some_iff.mp h
      refine membersInRange_iff.mpr fun member hmember => ?_
      exact inRange_of_jsonMembers? members hvalues member (mem_of_mem_collect hmember)

/-- The items of an array are read in range, one by one. -/
theorem inRange_of_jsonItems? : ∀ (items : List Source) {values : List Json},
    jsonItems? items = some values → ∀ value ∈ values, value.InRange
  | [], values, h => by
      obtain rfl := Option.some.inj h
      simp
  | item :: rest, values, h => by
      obtain ⟨value, hvalue, h⟩ := Option.bind_eq_some_iff.mp h
      obtain ⟨others, hothers, h⟩ := Option.bind_eq_some_iff.mp h
      obtain rfl := Option.some.inj h
      exact List.forall_mem_cons.mpr
        ⟨inRange_of_json? item hvalue, inRange_of_jsonItems? rest hothers⟩

/-- The values of the members of an object are read in range, one by one. -/
theorem inRange_of_jsonMembers? : ∀ (members : List (List StringUnit × Source))
    {values : List (String × Json)}, jsonMembers? members = some values →
      ∀ value ∈ values, value.2.InRange
  | [], values, h => by
      obtain rfl := Option.some.inj h
      simp
  | (units, source) :: rest, values, h => by
      obtain ⟨key, -, h⟩ := Option.bind_eq_some_iff.mp h
      obtain ⟨value, hvalue, h⟩ := Option.bind_eq_some_iff.mp h
      obtain ⟨others, hothers, h⟩ := Option.bind_eq_some_iff.mp h
      obtain rfl := Option.some.inj h
      exact List.forall_mem_cons.mpr
        ⟨inRange_of_json? source hvalue, inRange_of_jsonMembers? rest hothers⟩

end

end Source

/-- Whatever is read from a text is in range. -/
theorem inRange_of_parse? {text : String} {json : Json} (h : parse? text = some json) :
    json.InRange := by
  obtain ⟨source, -, hjson⟩ := Option.bind_eq_some_iff.mp h
  exact Source.inRange_of_json? source hjson

end SearchDsl.Json
