import SearchDsl.Proofs.Path

/-!
# `SearchDsl.Proofs.Path.Bytes`: looking at the bytes of a path

Whether a path lies below another one can be seen from the UTF-8 bytes of both
(`Path.isBelowBytes?`). The test compares the lengths, then the bytes that the ancestor has, and
then looks at one more byte of the path. That byte may be missing, or stand in the middle of a
character, if the lengths do not promise enough, so the test has no answer where there is no byte to
look at.

It always has one, and that of `Path.isBelow` (`Path.isBelowBytes?_eq`). The reason is that the
bytes of a text can only begin with the bytes of an initial part of it
(`Path.exists_append_of_prefix`): what begins with the bytes of the ancestor and of a dot begins
with the ancestor and a dot.
-/

set_option autoImplicit false

namespace SearchDsl.Path

/-- The UTF-8 bytes of a text. -/
def bytes (text : String) : List UInt8 := text.toByteArray.data.toList

/-- Whether a path lies strictly below another one, by their bytes. There is no answer if the byte
behind those of the ancestor is looked for and is not there. -/
def isBelowBytes? (path ancestor : String) : Option Bool :=
  if (bytes ancestor).length + 1 < (bytes path).length then
    if (bytes ancestor).isPrefixOf (bytes path) then
      (bytes path)[(bytes ancestor).length]?.map fun byte => byte == '.'.toUInt8
    else some false
  else some false

/-- The bytes of two texts follow each other. -/
theorem bytes_append (a b : String) : bytes (a ++ b) = bytes a ++ bytes b := by
  rw [bytes, String.toByteArray_append, ByteArray.data_append, Array.toList_append]
  rfl

/-- A dot is one byte. -/
theorem bytes_dot : bytes "." = ['.'.toUInt8] := rfl

/-- Only the empty text has no bytes. -/
theorem bytes_eq_nil_iff {text : String} : bytes text = [] ↔ text = "" := by
  rw [bytes, Array.toList_eq_nil_iff, ← String.toByteArray_inj]
  exact ⟨ByteArray.ext, congrArg ByteArray.data⟩

/-- A text whose bytes begin with those of another one begins with that one. -/
theorem exists_append_of_prefix {text initial : String} (h : bytes initial <+: bytes text) :
    ∃ rest, text = initial ++ rest := by
  obtain ⟨more, hmore⟩ := h
  have hencoded : initial.toList.utf8Encode ++ ⟨more.toArray⟩ = text.toList.utf8Encode := by
    rw [String.utf8Encode_toList, String.utf8Encode_toList]
    refine ByteArray.ext (Array.toList_inj.mp ?_)
    rw [ByteArray.data_append, Array.toList_append]
    exact hmore
  obtain ⟨rest, hrest⟩ := List.isPrefix_of_utf8Encode_append_eq_utf8Encode _ hencoded
  exact ⟨String.ofList rest, String.toList_inj.mp (by simp [hrest])⟩

/-- A path lies below another one if it has the bytes of that, the byte of a dot and more bytes. -/
theorem isBelow_iff_exists_bytes {path ancestor : String} :
    isBelow path ancestor = true ↔
      ∃ rest, rest ≠ [] ∧ bytes path = bytes ancestor ++ '.'.toUInt8 :: rest := by
  have hdot : ∀ rest, bytes (ancestor ++ ".") ++ rest
      = bytes ancestor ++ '.'.toUInt8 :: rest := fun rest => by
    rw [bytes_append, bytes_dot, List.append_assoc, List.singleton_append]
  rw [isBelow_iff_exists_append]
  constructor
  · rintro ⟨below, hbelow, rfl⟩
    exact ⟨bytes below, fun hempty => hbelow (bytes_eq_nil_iff.mp hempty), by
      rw [bytes_append, hdot]⟩
  · rintro ⟨rest, hrest, hbytes⟩
    rw [← hdot] at hbytes
    obtain ⟨below, rfl⟩ := exists_append_of_prefix ⟨rest, hbytes.symm⟩
    rw [bytes_append, List.append_right_inj] at hbytes
    exact ⟨below, fun hempty => hrest (hbytes ▸ bytes_eq_nil_iff.mpr hempty), rfl⟩

section Test

variable {path ancestor : String}

/-- The byte that is looked at is there: a path that is longer than the ancestor has a byte where
those of the ancestor end. -/
theorem exists_isBelowBytes? (path ancestor : String) :
    ∃ answer, isBelowBytes? path ancestor = some answer := by
  unfold isBelowBytes?
  split
  · rename_i hlength
    have hinside : (bytes ancestor).length < (bytes path).length := by omega
    split
    · exact ⟨_, by rw [List.getElem?_eq_getElem hinside, Option.map_some]⟩
    · exact ⟨false, rfl⟩
  · exact ⟨false, rfl⟩

/-- A path passes if it has the bytes of the ancestor, the byte of a dot and more bytes. -/
theorem isBelowBytes?_eq_some_true_iff :
    isBelowBytes? path ancestor = some true ↔
      ∃ rest, rest ≠ [] ∧ bytes path = bytes ancestor ++ '.'.toUInt8 :: rest := by
  unfold isBelowBytes?
  constructor
  · intro h
    split at h
    · rename_i hlength
      split at h
      · rename_i hprefix
        obtain ⟨more, hmore⟩ := List.isPrefixOf_iff_prefix.mp hprefix
        rw [← hmore, List.length_append] at hlength
        -- The byte at the end of the ancestor is the first of what is left.
        rw [← hmore, List.getElem?_append_right (Nat.le_refl _), Nat.sub_self,
          ← List.head?_eq_getElem?] at h
        obtain ⟨byte, hbyte, hdot⟩ := Option.map_eq_some_iff.mp h
        obtain ⟨rest, rfl⟩ := List.head?_eq_some_iff.mp hbyte
        refine ⟨rest, fun hempty => by simp [hempty] at hlength, ?_⟩
        rw [← hmore, beq_iff_eq.mp hdot]
      · simp at h
    · simp at h
  · rintro ⟨rest, hrest, hbytes⟩
    have hpos := List.length_pos_iff.mpr hrest
    rw [hbytes, if_pos (by rw [List.length_append, List.length_cons]; omega),
      if_pos (List.isPrefixOf_iff_prefix.mpr (List.prefix_append _ _)),
      List.getElem?_append_right (Nat.le_refl _), Nat.sub_self]
    rfl

/-- The test on bytes has an answer, and that of the test on characters. -/
theorem isBelowBytes?_eq (path ancestor : String) :
    isBelowBytes? path ancestor = some (isBelow path ancestor) := by
  obtain ⟨answer, hanswer⟩ := exists_isBelowBytes? path ancestor
  have hiff : answer = true ↔ isBelow path ancestor = true := by
    rw [isBelow_iff_exists_bytes, ← isBelowBytes?_eq_some_true_iff, hanswer, Option.some.injEq]
  rw [hanswer, Bool.eq_iff_iff.mpr hiff]

end Test

/-- No path lies below itself. -/
theorem isBelow_self (path : String) : isBelow path path = false :=
  Bool.eq_false_iff.mpr fun h => ne_of_isBelow h rfl

/-- In a chain every path comes once. -/
theorem nodup_of_checkChain {hierarchy : List String} (h : checkChain hierarchy = .ok ()) :
    hierarchy.Nodup :=
  (checkChain_eq_ok_iff.mp h).imp ne_of_isBelow

/-- Lying below is a strict order of paths: extending the other one by a dot and something more. The
bytes of the two decide it without a look beyond their end. So the check of neighbours passes
exactly if every later path lies below every earlier one, and what passes has no path twice. -/
theorem isBelow_strictOrder :
    (∀ path ancestor, isBelowBytes? path ancestor = some (isBelow path ancestor)) ∧
    (∀ path ancestor, isBelow path ancestor = true ↔
      ∃ below, below ≠ "" ∧ path = ancestor ++ "." ++ below) ∧
    (∀ path, isBelow path path = false) ∧
    (∀ a b c, isBelow a b = true → isBelow b c = true → isBelow a c = true) ∧
    ∀ hierarchy, (checkChain hierarchy = .ok () ↔
        hierarchy.Pairwise fun outer inner => isBelow inner outer = true) ∧
      (checkChain hierarchy = .ok () → hierarchy.Nodup) :=
  ⟨isBelowBytes?_eq, fun _ _ => isBelow_iff_exists_append, isBelow_self, fun _ _ _ => isBelow_trans,
    fun _ => ⟨checkChain_eq_ok_iff, nodup_of_checkChain⟩⟩

/-- Of a name of two bytes per character the bytes are compared, and the dot is where they end. -/
theorem isBelow_strictOrder_wideNames :
    bytes "né" = [110, 195, 169] ∧ isBelowBytes? "né.名.x" "né" = some true ∧
      isBelowBytes? "né." "né" = some false ∧ isBelowBytes? "né.名" "n" = some false ∧
      isBelow "né.名.x" "né" = true ∧ checkChain ["né", "né.名", "né.名.x"] = .ok () ∧
        ["né", "né.名", "né.名.x"].Nodup := by
  obtain ⟨hbytes, -, -, htrans, hchain⟩ := isBelow_strictOrder
  have hpasses : checkChain ["né", "né.名", "né.名.x"] = .ok () := rfl
  refine ⟨rfl, ?_, ?_, ?_, htrans "né.名.x" "né.名" "né" rfl rfl, hpasses, (hchain _).2 hpasses⟩
  · rw [hbytes]
    rfl
  · rw [hbytes]
    rfl
  · rw [hbytes]
    rfl

end SearchDsl.Path
