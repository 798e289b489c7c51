/-!
# `SearchDsl.Text.Blank`: white space

The blank characters are the 25 characters with the Unicode property `White_Space`. They may
surround a version number and precede each number of a date.
-/

set_option autoImplicit false

namespace SearchDsl.Text

/-- The characters that count as white space. -/
def isBlank (c : Char) : Bool :=
  (0x9 ≤ c.toNat && c.toNat ≤ 0xD) || c.toNat == 0x20 || c.toNat == 0x85 || c.toNat == 0xA0
    || c.toNat == 0x1680 || (0x2000 ≤ c.toNat && c.toNat ≤ 0x200A) || c.toNat == 0x2028
    || c.toNat == 0x2029 || c.toNat == 0x202F || c.toNat == 0x205F || c.toNat == 0x3000

/-- A text without the white space before it. -/
def skipBlanks (text : List Char) : List Char :=
  text.dropWhile isBlank

/-- A text without the white space around it. -/
def trimBlanks (text : List Char) : List Char :=
  (skipBlanks (skipBlanks text).reverse).reverse

/-- Skipping blanks stops at a character that is not blank. -/
theorem skipBlanks_cons_of_not_isBlank {c : Char} {text : List Char} (h : isBlank c = false) :
    skipBlanks (c :: text) = c :: text := by
  simp [skipBlanks, h]

/-- The visible ASCII characters are not blank. -/
theorem isBlank_of_visible {c : Char} (hlow : 33 ≤ c.toNat) (hhigh : c.toNat ≤ 126) :
    isBlank c = false := by
  unfold isBlank
  simp
  omega

/-- Digits are not blank. -/
theorem isBlank_of_isDigit {c : Char} (h : c.isDigit = true) : isBlank c = false := by
  have hbounds := Bool.and_eq_true_iff.mp h
  have hlow : 48 ≤ c.toNat := of_decide_eq_true hbounds.1
  have hhigh : c.toNat ≤ 57 := of_decide_eq_true hbounds.2
  exact isBlank_of_visible (by omega) (by omega)

/-- Blanks in front are skipped. -/
theorem skipBlanks_append {before rest : List Char} (hbefore : ∀ c ∈ before, isBlank c = true) :
    skipBlanks (before ++ rest) = skipBlanks rest :=
  List.dropWhile_append_of_pos hbefore

/-- A text without blanks is left as it is. -/
theorem skipBlanks_of_forall {text : List Char} (h : ∀ c ∈ text, isBlank c = false) :
    skipBlanks text = text := by
  cases text with
  | nil => rfl
  | cons c text => exact skipBlanks_cons_of_not_isBlank (h c List.mem_cons_self)

/-- What is skipped is blank. -/
theorem exists_append_skipBlanks (text : List Char) :
    ∃ before, text = before ++ skipBlanks text ∧ ∀ c ∈ before, isBlank c = true :=
  ⟨text.takeWhile isBlank, List.takeWhile_append_dropWhile.symm,
    fun c hc => List.all_eq_true.mp List.all_takeWhile c hc⟩

/-- What is trimmed is blank. -/
theorem exists_append_trimBlanks (text : List Char) :
    ∃ before after, text = before ++ trimBlanks text ++ after ∧
      (∀ c ∈ before, isBlank c = true) ∧ ∀ c ∈ after, isBlank c = true := by
  obtain ⟨before, hbefore, hblankBefore⟩ := exists_append_skipBlanks text
  obtain ⟨after, hafter, hblankAfter⟩ := exists_append_skipBlanks (skipBlanks text).reverse
  refine ⟨before, after.reverse, ?_, hblankBefore,
    fun c hc => hblankAfter c (List.mem_reverse.mp hc)⟩
  have hrest : skipBlanks text = trimBlanks text ++ after.reverse := by
    rw [trimBlanks, ← List.reverse_append, ← hafter, List.reverse_reverse]
  rw [List.append_assoc, ← hrest, ← hbefore]

/-- Blanks around a text without blanks are trimmed, and nothing else is. -/
theorem trimBlanks_append {before text after : List Char}
    (hbefore : ∀ c ∈ before, isBlank c = true) (htext : ∀ c ∈ text, isBlank c = false)
    (hafter : ∀ c ∈ after, isBlank c = true) :
    trimBlanks (before ++ text ++ after) = text := by
  cases text with
  | nil =>
      have hall : ∀ c ∈ before ++ after, isBlank c = true := by
        intro c hc
        exact (List.mem_append.mp hc).elim (hbefore c) (hafter c)
      have hnone : skipBlanks (before ++ after ++ []) = [] := skipBlanks_append hall
      rw [List.append_nil] at hnone ⊢
      rw [trimBlanks, hnone]
      rfl
  | cons c text =>
      -- The first character stops the skipping in front, and then the last one that from behind.
      have hfirst : skipBlanks (c :: text ++ after) = c :: text ++ after :=
        skipBlanks_cons_of_not_isBlank (htext c List.mem_cons_self)
      have hback : ∀ d ∈ after.reverse, isBlank d = true :=
        fun d hd => hafter d (List.mem_reverse.mp hd)
      have htextBack : ∀ d ∈ (c :: text).reverse, isBlank d = false :=
        fun d hd => htext d (List.mem_reverse.mp hd)
      rw [trimBlanks, List.append_assoc, skipBlanks_append hbefore, hfirst, List.reverse_append,
        skipBlanks_append hback, skipBlanks_of_forall htextBack, List.reverse_reverse]

end SearchDsl.Text
