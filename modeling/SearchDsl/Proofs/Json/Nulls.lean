import SearchDsl.Proofs.Binary.Rounding
import SearchDsl.Json.Basic

/-!
# `SearchDsl.Proofs.Json.Nulls`: nulls inside JSON values

A number that is not finite has no JSON form, and writing it gives null. `Json.hasNull` looks for
nulls at any depth. The lemmas say which of the pieces that requests are put together from can bring
one in: of those only numbers can (`hasNull_ofDouble`, `hasNull_ofSingle`).
-/

set_option autoImplicit false

namespace SearchDsl.Json

mutual

/-- Whether there is a null anywhere in a value. -/
@[simp]
def hasNull : Json → Bool
  | null => true
  | bool _ | int _ | double _ | string _ => false
  | array items => itemsHaveNull items
  | object members => membersHaveNull members

/-- Whether there is a null anywhere in some values. -/
def itemsHaveNull : List Json → Bool
  | [] => false
  | item :: rest => hasNull item || itemsHaveNull rest

/-- Whether there is a null anywhere in the values of some members. -/
def membersHaveNull : List (String × Json) → Bool
  | [] => false
  | (_, value) :: rest => hasNull value || membersHaveNull rest

end

/-- An array contains null if one of its items does. -/
@[simp]
theorem itemsHaveNull_eq_any (items : List Json) : itemsHaveNull items = items.any hasNull := by
  induction items with
  | nil => rfl
  | cons item items ih => rw [itemsHaveNull, ih, List.any_cons]

/-- An object contains null if the value of one of its members does. -/
@[simp]
theorem membersHaveNull_eq_any (members : List (String × Json)) :
    membersHaveNull members = members.any fun member => member.2.hasNull := by
  induction members with
  | nil => rfl
  | cons member members ih =>
      obtain ⟨key, value⟩ := member
      rw [membersHaveNull, ih, List.any_cons]

/-- An object with one member contains null if the value does. -/
@[simp]
theorem hasNull_single (key : String) (value : Json) :
    (single key value).hasNull = value.hasNull := by
  simp [single]

/-- Texts are not null. -/
@[simp]
theorem hasNull_strings (texts : List String) : (strings texts).hasNull = false := by
  simp [strings]

/-- An option holds what its value holds. -/
@[simp]
theorem any_hasNull_member? (key : String) (value : Option Json) :
    ((member? key value).any fun member => member.2.hasNull) = value.any hasNull := by
  cases value <;> simp [member?]

/-- A double is written as null exactly if it is not finite. -/
@[simp]
theorem hasNull_ofDouble (x : Double) : (ofDouble x).hasNull = !x.isFinite := by
  unfold ofDouble
  cases x.isFinite <;> rfl

/-- Both precisions have the same finite numbers, as far as the single one goes. -/
@[simp]
theorem hasNull_ofSingle (x : Single) : (ofSingle x).hasNull = !x.isFinite := by
  rw [ofSingle, hasNull_ofDouble, Binary.isFinite_convert]

end SearchDsl.Json
