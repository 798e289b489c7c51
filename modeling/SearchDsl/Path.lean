import SearchDsl.Error.Basic

/-!
# `SearchDsl.Path`: dotted field paths

A path is absolute and consists of names with dots between them. One path lies below another when it
extends it by a dot and something more.
-/

set_option autoImplicit false

namespace SearchDsl.Path

/-- The path of a name below an optional parent. -/
def join (parent : Option String) (name : String) : String :=
  match parent with
  | some parent => parent ++ "." ++ name
  | none => name

/-- Whether a path lies strictly below another one. -/
def isBelow (path ancestor : String) : Bool :=
  let start := ancestor.toList ++ ['.']
  start.isPrefixOf path.toList && start.length < path.toList.length

/-- Checks that each path lies below the one before it. -/
def checkChain : List String → Except Error Unit
  | outer :: path :: rest =>
      if isBelow path outer then checkChain (path :: rest)
      else .error (.argument (.notEnclosed path outer))
  | _ => .ok ()

/-- The pieces of a text between its dots, at least one. -/
def splitDots : List Char → List (List Char)
  | [] => [[]]
  | c :: rest =>
      if c = '.' then [] :: splitDots rest
      else match splitDots rest with
        | piece :: more => (c :: piece) :: more
        | [] => [[c]]

/-- The names of a path. -/
def segments (path : String) : List String :=
  (splitDots path.toList).map String.ofList

/-- The part below the ancestor starts after its dot and is not empty. -/
theorem isBelow_iff (path ancestor : String) :
    isBelow path ancestor = true ↔
      ∃ rest : List Char, rest ≠ [] ∧ path.toList = ancestor.toList ++ '.' :: rest := by
  unfold isBelow
  simp only [Bool.and_eq_true, decide_eq_true_eq, List.isPrefixOf_iff_prefix]
  constructor
  · rintro ⟨⟨rest, hrest⟩, hlen⟩
    refine ⟨rest, ?_, by simpa using hrest.symm⟩
    rintro rfl
    rw [← hrest] at hlen
    simp at hlen
  · rintro ⟨rest, hne, hpath⟩
    refine ⟨⟨rest, by simp [hpath]⟩, ?_⟩
    have := List.length_pos_iff.mpr hne
    simp only [hpath, List.length_append, List.length_cons, List.length_nil]
    omega

end SearchDsl.Path
