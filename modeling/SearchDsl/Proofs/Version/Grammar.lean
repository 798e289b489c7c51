import SearchDsl.Version.Parser

/-!
# `SearchDsl.Proofs.Version.Grammar`: how versions are written

`Version.Spells` is the grammar of versions, said without a reader: one to three numbers with
points between them, and a qualifier behind a hyphen or none. `Version.parse_eq_ok_iff` says that
the reader accepts exactly the texts of the grammar, with blanks around them, and returns what they
spell.

The reader takes the digits of a number as far as they go. That does not lose any reading, for what
follows a number in the grammar is a point, a hyphen or the end, and no digit
(`Qualified.not_isDigit_head`).

A version has many spellings, since numbers may have zeros in front. Its own text is the one
without them. It spells the version if any text does (`Spells.characters`): only then is there a
minor number before a micro one and something in the qualifier.
-/

set_option autoImplicit false

namespace SearchDsl.Version

/-! ### The grammar -/

/-- A number in decimal digits, at least one. Zeros in front do not count, and the value has at most
32 bits. -/
structure Numeral (digits : List Char) (n : UInt32) : Prop where
  digits_ne : digits ≠ []
  isDigit : ∀ c ∈ digits, c.isDigit = true
  value : Text.digitsValue digits = n.toNat

/-- One to three numbers with points between them. There is no micro number without a minor one. -/
inductive Numbers : List Char → UInt32 → Option UInt32 → Option UInt32 → Prop
  | major {first : List Char} {major : UInt32} (hmajor : Numeral first major) :
      Numbers first major none none
  | minor {first second : List Char} {major minor : UInt32} (hmajor : Numeral first major)
      (hminor : Numeral second minor) :
      Numbers (first ++ '.' :: second) major (some minor) none
  | micro {first second third : List Char} {major minor micro : UInt32}
      (hmajor : Numeral first major) (hminor : Numeral second minor)
      (hmicro : Numeral third micro) :
      Numbers (first ++ '.' :: (second ++ '.' :: third)) major (some minor) (some micro)

/-- Nothing, or a hyphen and a qualifier of ASCII letters, digits and points, at least one. -/
inductive Qualified : List Char → Option String → Prop
  | absent : Qualified [] none
  | given {text : List Char} (hne : text ≠ [])
      (hchars : ∀ c ∈ text, c.isAlphanum = true ∨ c = '.') :
      Qualified ('-' :: text) (some (String.ofList text))

/-- The characters are a way to write the version. -/
def Spells (text : List Char) (v : Version) : Prop :=
  ∃ numbers qualifier, text = numbers ++ qualifier ∧ Numbers numbers v.major v.minor v.micro ∧
    Qualified qualifier v.qualifier

/-! ### Numbers -/

section Numbers

variable {digits text rest : List Char} {n : UInt32}

/-- A number is read where no further digit follows. -/
theorem Numeral.component?_append (h : Numeral digits n)
    (hrest : ∀ c ∈ rest.head?, c.isDigit = false) :
    component? (digits ++ rest) = some (n, rest) := by
  unfold component?
  rw [Text.splitDigits_append_of_isDigit h.isDigit hrest]
  show (if digits ≠ [] ∧ Text.digitsValue digits < UInt32.size then
    some (UInt32.ofNat (Text.digitsValue digits), rest) else none) = some (n, rest)
  rw [h.value, if_pos ⟨h.digits_ne, n.toNat_lt_size⟩, UInt32.ofNat_toNat]

/-- What is read as a number is one, and no digit is left. -/
theorem exists_numeral_of_component? (h : component? text = some (n, rest)) :
    (∃ digits, text = digits ++ rest ∧ Numeral digits n) ∧
      ∀ c ∈ rest.head?, c.isDigit = false := by
  have hread : (if (Text.splitDigits text).1 ≠ [] ∧
      Text.digitsValue (Text.splitDigits text).1 < UInt32.size then
        some (UInt32.ofNat (Text.digitsValue (Text.splitDigits text).1), (Text.splitDigits text).2)
      else none) = some (n, rest) := h
  split at hread
  · rename_i hvalid
    obtain ⟨rfl, rfl⟩ := Prod.mk.inj (Option.some.inj hread)
    refine ⟨⟨_, (Text.splitDigits_append text).symm, hvalid.1, ?_, ?_⟩,
      Text.isDigit_head?_splitDigits text⟩
    · intro c hc
      exact Text.isDigit_of_mem_splitDigits hc
    · exact (UInt32.toNat_ofNat_of_lt' hvalid.2).symm
  · simp at hread

/-- A point and a number are read together. -/
theorem Numeral.pointed?_append (h : Numeral digits n)
    (hrest : ∀ c ∈ rest.head?, c.isDigit = false) :
    pointed? ('.' :: (digits ++ rest)) = some (some n, rest) := by
  simp [pointed?, h.component?_append hrest]

/-- Without a point there is no further number. -/
theorem pointed?_of_head?_ne (h : text.head? ≠ some '.') : pointed? text = some (none, text) := by
  unfold pointed?
  split
  · simp at h
  · rfl

/-- Either there is no point, or there is a number behind it. -/
theorem cases_of_pointed? {number : Option UInt32} (h : pointed? text = some (number, rest)) :
    (number = none ∧ rest = text) ∨
      ∃ digits n, number = some n ∧ text = '.' :: (digits ++ rest) ∧ Numeral digits n := by
  unfold pointed? at h
  split at h
  · rename_i after
    obtain ⟨⟨n, left⟩, hread, heq⟩ := Option.map_eq_some_iff.mp h
    obtain ⟨rfl, rfl⟩ := Prod.mk.inj heq
    obtain ⟨⟨digits, rfl, hnumeral⟩, -⟩ := exists_numeral_of_component? hread
    exact .inr ⟨digits, n, rfl, rfl, hnumeral⟩
  · obtain ⟨rfl, rfl⟩ := Prod.mk.inj (Option.some.inj h)
    exact .inl ⟨rfl, rfl⟩

/-- The decimal digits of a number are one way to write it. -/
theorem numeral_toDigits (n : UInt32) : Numeral (Nat.toDigits 10 n.toNat) n where
  digits_ne := Nat.toDigits_ne_nil
  isDigit _ hc := Nat.isDigit_of_mem_toDigits (by decide) (by decide) hc
  value := Text.digitsValue_toDigits n.toNat

end Numbers

/-! ### Qualifiers -/

section Qualifiers

variable {text : List Char} {qualifier : Option String}

/-- The characters of a qualifier are letters, digits and points. -/
theorem isQualifierChar_iff {c : Char} :
    isQualifierChar c = true ↔ c.isAlphanum = true ∨ c = '.' := by
  have halphanum : c.isAlphanum = (c.isUpper || c.isLower || c.isDigit) := rfl
  rw [isQualifierChar, halphanum]
  grind

/-- Qualifiers are read exactly as they are spelled. -/
theorem qualifier?_eq_some_iff : qualifier? text = some qualifier ↔ Qualified text qualifier := by
  constructor
  · intro h
    unfold qualifier? at h
    split at h
    · obtain rfl := Option.some.inj h
      exact .absent
    · rename_i rest
      split at h
      · rename_i hvalid
        obtain rfl := Option.some.inj h
        exact .given hvalid.1 fun c hc => isQualifierChar_iff.mp (List.all_eq_true.mp hvalid.2 c hc)
      · simp at h
    · simp at h
  · intro h
    cases h with
    | absent => rfl
    | given hne hchars =>
        have hall := List.all_eq_true.mpr fun c hc => isQualifierChar_iff.mpr (hchars c hc)
        exact if_pos ⟨hne, hall⟩

/-- A qualifier begins with a hyphen, so no number before it goes on. -/
theorem Qualified.not_isDigit_head (h : Qualified text qualifier) :
    ∀ c ∈ text.head?, c.isDigit = false := by
  intro c hc
  cases h with
  | absent => simp at hc
  | given _ _ =>
      obtain rfl := Option.some.inj hc
      rfl

/-- No qualifier begins with a point, so none is taken for a number. -/
theorem Qualified.head?_ne_point (h : Qualified text qualifier) : text.head? ≠ some '.' := by
  cases h with
  | absent => simp
  | given _ _ => simp

end Qualifiers

/-! ### Versions -/

section Versions

variable {text : List Char} {v : Version}

/-- The four steps of reading a version. -/
theorem ofCharacters?_eq_some_iff_steps : ofCharacters? text = some v ↔
    ∃ afterMajor afterMinor afterMicro, component? text = some (v.major, afterMajor) ∧
      pointed? afterMajor = some (v.minor, afterMinor) ∧
        (if v.minor.isSome then pointed? afterMinor else some (none, afterMinor))
          = some (v.micro, afterMicro) ∧
          qualifier? afterMicro = some v.qualifier := by
  unfold ofCharacters?
  constructor
  · intro h
    obtain ⟨⟨major, afterMajor⟩, hmajor, h⟩ := Option.bind_eq_some_iff.mp h
    obtain ⟨⟨minor, afterMinor⟩, hminor, h⟩ := Option.bind_eq_some_iff.mp h
    cases minor with
    | none =>
        -- The micro number is skipped, and the qualifier is next.
        obtain ⟨qualifier, hqualifier, h⟩ := Option.bind_eq_some_iff.mp h
        obtain rfl := Option.some.inj h
        exact ⟨afterMajor, afterMinor, afterMinor, hmajor, hminor, rfl, hqualifier⟩
    | some minor =>
        obtain ⟨⟨micro, afterMicro⟩, hmicro, h⟩ := Option.bind_eq_some_iff.mp h
        obtain ⟨qualifier, hqualifier, h⟩ := Option.bind_eq_some_iff.mp h
        obtain rfl := Option.some.inj h
        exact ⟨afterMajor, afterMinor, afterMicro, hmajor, hminor, hmicro, hqualifier⟩
  · rintro ⟨afterMajor, afterMinor, afterMicro, hmajor, hminor, hmicro, hqualifier⟩
    obtain ⟨major, minor, micro, qualifier⟩ := v
    cases minor with
    | none =>
        obtain ⟨rfl, rfl⟩ := Prod.mk.inj (Option.some.inj hmicro)
        simp [hmajor, hminor, hqualifier]
    | some minor =>
        have hpointed : pointed? afterMinor = some (micro, afterMicro) := hmicro
        simp [hmajor, hminor, hpointed, hqualifier]

/-- A text of the grammar is read as what it spells. -/
theorem Spells.ofCharacters?_eq (h : Spells text v) : ofCharacters? text = some v := by
  obtain ⟨numbers, qualifier, rfl, hnumbers, hqualifier⟩ := h
  obtain ⟨major, minor, micro, qualified⟩ := v
  have hend := hqualifier.not_isDigit_head
  have hpoint : ∀ more : List Char, ∀ c ∈ ('.' :: more).head?, c.isDigit = false := by
    intro more c hc
    obtain rfl := Option.some.inj hc
    rfl
  have hread := qualifier?_eq_some_iff.mpr hqualifier
  have hstop := pointed?_of_head?_ne hqualifier.head?_ne_point
  refine ofCharacters?_eq_some_iff_steps.mpr ?_
  -- Each number is followed by the point of the next one, and the last one by the qualifier.
  cases hnumbers with
  | major hmajor =>
      exact ⟨qualifier, qualifier, qualifier, hmajor.component?_append hend, hstop, rfl, hread⟩
  | @minor _ second _ _ hmajor hminor =>
      refine ⟨'.' :: (second ++ qualifier), qualifier, qualifier, ?_,
        hminor.pointed?_append hend, hstop, hread⟩
      rw [List.append_assoc]
      exact hmajor.component?_append (hpoint _)
  | @micro _ second third _ _ _ hmajor hminor hmicro =>
      refine ⟨'.' :: (second ++ '.' :: (third ++ qualifier)), '.' :: (third ++ qualifier),
        qualifier, ?_, hminor.pointed?_append (hpoint _), hmicro.pointed?_append hend, hread⟩
      rw [List.append_assoc, List.cons_append, List.append_assoc]
      exact hmajor.component?_append (hpoint _)

/-- Whatever is read is a text of the grammar. -/
theorem spells_of_ofCharacters? (h : ofCharacters? text = some v) : Spells text v := by
  obtain ⟨major, minor, micro, qualified⟩ := v
  obtain ⟨afterMajor, afterMinor, afterMicro, hmajor, hminor, hmicro, hqualifier⟩ :=
    ofCharacters?_eq_some_iff_steps.mp h
  have hqualified := qualifier?_eq_some_iff.mp hqualifier
  obtain ⟨⟨first, rfl, hfirst⟩, -⟩ := exists_numeral_of_component? hmajor
  rcases cases_of_pointed? hminor with ⟨rfl, rfl⟩ | ⟨second, m, rfl, rfl, hsecond⟩
  · -- Without a minor number there is no attempt at a micro one.
    obtain ⟨rfl, rfl⟩ := Prod.mk.inj (Option.some.inj hmicro)
    exact ⟨first, afterMinor, rfl, .major hfirst, hqualified⟩
  · rcases cases_of_pointed? hmicro with ⟨rfl, rfl⟩ | ⟨third, u, rfl, rfl, hthird⟩
    · exact ⟨first ++ '.' :: second, afterMicro, by simp, .minor hfirst hsecond, hqualified⟩
    · exact ⟨first ++ '.' :: (second ++ '.' :: third), afterMicro, by simp,
        .micro hfirst hsecond hthird, hqualified⟩

/-- Versions are read exactly as they are spelled. -/
theorem ofCharacters?_eq_some_iff : ofCharacters? text = some v ↔ Spells text v :=
  ⟨spells_of_ofCharacters?, Spells.ofCharacters?_eq⟩

/-- The own text of a version that has a spelling is one. -/
theorem Spells.characters (h : Spells text v) : Spells v.characters v := by
  obtain ⟨major, minor, micro, qualified⟩ := v
  obtain ⟨numbers, qualifier, -, hnumbers, hqualifier⟩ := h
  refine ⟨_, _, rfl, ?_, ?_⟩
  · cases hnumbers with
    | major hmajor =>
        show Numbers (Nat.toDigits 10 major.toNat ++ []) major none none
        rw [List.append_nil]
        exact .major (numeral_toDigits major)
    | @minor _ _ _ minor hmajor hminor =>
        show Numbers (Nat.toDigits 10 major.toNat ++ '.' :: (Nat.toDigits 10 minor.toNat ++ []))
          major (some minor) none
        rw [List.append_nil]
        exact .minor (numeral_toDigits major) (numeral_toDigits minor)
    | @micro _ _ _ _ minor micro hmajor hminor hmicro =>
        exact .micro (numeral_toDigits major) (numeral_toDigits minor) (numeral_toDigits micro)
  · cases hqualifier with
    | absent => exact .absent
    | @given text hne hchars =>
        show Qualified ('-' :: (String.ofList text).toList) (some (String.ofList text))
        rw [String.toList_ofList]
        exact .given hne hchars

/-! ### Blanks around a version -/

/-- Letters and digits are visible. -/
theorem isBlank_of_isAlphanum {c : Char} (h : c.isAlphanum = true) : Text.isBlank c = false := by
  have hclass : (c.isUpper || c.isLower || c.isDigit) = true := h
  rw [Bool.or_eq_true, Bool.or_eq_true] at hclass
  rcases hclass with (hupper | hlower) | hdigit
  · have hcode : 65 ≤ c.toNat ∧ c.toNat ≤ 90 := of_decide_eq_true hupper
    exact Text.isBlank_of_visible (by omega) (by omega)
  · have hbounds := Bool.and_eq_true_iff.mp hlower
    have hlow : 97 ≤ c.toNat := of_decide_eq_true hbounds.1
    have hhigh : c.toNat ≤ 122 := of_decide_eq_true hbounds.2
    exact Text.isBlank_of_visible (by omega) (by omega)
  · exact Text.isBlank_of_isDigit hdigit

/-- There is no blank in a number. -/
theorem Numeral.not_isBlank {digits : List Char} {n : UInt32} (h : Numeral digits n) :
    ∀ c ∈ digits, Text.isBlank c = false := by
  intro c hc
  exact Text.isBlank_of_isDigit (h.isDigit c hc)

/-- There is no blank between numbers. -/
theorem Numbers.not_isBlank {major : UInt32} {minor micro : Option UInt32}
    (h : Numbers text major minor micro) : ∀ c ∈ text, Text.isBlank c = false := by
  have hpoint : Text.isBlank '.' = false := by decide
  cases h with
  | major hmajor => exact hmajor.not_isBlank
  | minor hmajor hminor =>
      exact List.forall_mem_append.mpr ⟨hmajor.not_isBlank,
        List.forall_mem_cons.mpr ⟨hpoint, hminor.not_isBlank⟩⟩
  | micro hmajor hminor hmicro =>
      exact List.forall_mem_append.mpr ⟨hmajor.not_isBlank,
        List.forall_mem_cons.mpr ⟨hpoint, List.forall_mem_append.mpr ⟨hminor.not_isBlank,
          List.forall_mem_cons.mpr ⟨hpoint, hmicro.not_isBlank⟩⟩⟩⟩

/-- There is no blank in a qualifier. -/
theorem Qualified.not_isBlank {qualifier : Option String} (h : Qualified text qualifier) :
    ∀ c ∈ text, Text.isBlank c = false := by
  cases h with
  | absent => exact fun c hc => absurd hc List.not_mem_nil
  | given _ hchars =>
      refine List.forall_mem_cons.mpr ⟨by decide, fun c hc => ?_⟩
      rcases hchars c hc with halphanum | rfl
      · exact isBlank_of_isAlphanum halphanum
      · decide

/-- No character of a spelling is blank, so blanks around it can be told from it. -/
theorem Spells.not_isBlank (h : Spells text v) : ∀ c ∈ text, Text.isBlank c = false := by
  obtain ⟨numbers, qualifier, rfl, hnumbers, hqualifier⟩ := h
  exact List.forall_mem_append.mpr ⟨hnumbers.not_isBlank, hqualifier.not_isBlank⟩

end Versions

/-! ### Reading -/

section Reading

variable {text : String} {v : Version}

/-- A text is read as a version, or it is refused as it stands. -/
theorem parse_eq (text : String) :
    parse text = match ofCharacters? (Text.trimBlanks text.toList) with
      | some version => .ok version
      | none => .error (.configuration (.invalidVersion
          (String.ofList (Text.trimBlanks text.toList)))) := rfl

/-- The texts that are read are those of the grammar with any blanks around them. -/
theorem parse_eq_ok_iff : parse text = .ok v ↔
    ∃ before spelled after, text.toList = before ++ spelled ++ after ∧
      (∀ c ∈ before, Text.isBlank c = true) ∧ (∀ c ∈ after, Text.isBlank c = true) ∧
        Spells spelled v := by
  have hread : parse text = .ok v ↔ Spells (Text.trimBlanks text.toList) v := by
    rw [← ofCharacters?_eq_some_iff, parse_eq]
    cases ofCharacters? (Text.trimBlanks text.toList) <;> simp
  rw [hread]
  constructor
  · intro hspells
    obtain ⟨before, after, htext, hbefore, hafter⟩ := Text.exists_append_trimBlanks text.toList
    exact ⟨before, _, after, htext, hbefore, hafter, hspells⟩
  · rintro ⟨before, spelled, after, htext, hbefore, hafter, hspells⟩
    rw [htext, Text.trimBlanks_append hbefore hspells.not_isBlank hafter]
    exact hspells

/-- What was read is written as a text that is read in the same way. -/
theorem parse_text (h : parse text = .ok v) : parse v.text = .ok v := by
  obtain ⟨-, spelled, -, -, -, -, hspells⟩ := parse_eq_ok_iff.mp h
  refine parse_eq_ok_iff.mpr ⟨[], v.characters, [], ?_, nofun, nofun, hspells.characters⟩
  rw [Version.text, String.toList_ofList, List.nil_append, List.append_nil]

end Reading

/-- A text is read as a version exactly if it is a spelling of the version with blanks around it.
Any other text is refused as an invalid configuration that names the text without the blanks. The
own text of a version that was read is read as the same version. -/
theorem parse_reads_grammar (text : String) :
    (∀ v, parse text = .ok v ↔ ∃ before spelled after, text.toList = before ++ spelled ++ after ∧
      (∀ c ∈ before, Text.isBlank c = true) ∧ (∀ c ∈ after, Text.isBlank c = true) ∧
        Spells spelled v) ∧
    (∀ e, parse text = .error e →
      e = .configuration (.invalidVersion (String.ofList (Text.trimBlanks text.toList)))) ∧
    ∀ v, parse text = .ok v → parse v.text = .ok v := by
  refine ⟨fun v => parse_eq_ok_iff, fun e herror => ?_, fun v hv => parse_text hv⟩
  rw [parse_eq] at herror
  split at herror
  · simp at herror
  · exact (Except.error.inj herror).symm

/-- A version with zeros in front of its numbers and a qualifier that looks like another version,
and a number that has no room in 32 bits. -/
theorem parse_reads_grammar_zerosInFront :
    let v : Version := { major := 7, minor := some 0, qualifier := some "6.8" }
    parse " 007.00-6.8\t" = .ok v ∧ v.text = "7.0-6.8" ∧ parse "7.0-6.8" = .ok v ∧
      ∃ e, parse " 4294967296 " = .error e ∧ e = .configuration (.invalidVersion "4294967296") := by
  intro v
  have hseven : Numeral ['0', '0', '7'] 7 :=
    ⟨by decide, List.all_eq_true.mp rfl, by decide⟩
  have hzero : Numeral ['0', '0'] 0 := ⟨by decide, List.all_eq_true.mp rfl, by decide⟩
  have hqualified : Qualified ['-', '6', '.', '8'] (some "6.8") :=
    .given (by decide) (by simp)
  have hspells : Spells ['0', '0', '7', '.', '0', '0', '-', '6', '.', '8'] v :=
    ⟨_, _, rfl, .minor hseven hzero, hqualified⟩
  have htext : v.text = "7.0-6.8" := by decide +kernel
  have htrimmed : String.ofList (Text.trimBlanks " 4294967296 ".toList) = "4294967296" := by decide
  obtain ⟨hreads, -, hagain⟩ := parse_reads_grammar " 007.00-6.8\t"
  obtain ⟨-, hfails, -⟩ := parse_reads_grammar " 4294967296 "
  have hv : parse " 007.00-6.8\t" = .ok v :=
    (hreads v).mpr ⟨[' '], _, ['\t'], by decide, List.all_eq_true.mp rfl,
      List.all_eq_true.mp rfl, hspells⟩
  have hbeyond : ∃ e, parse " 4294967296 " = .error e := ⟨_, rfl⟩
  obtain ⟨e, he⟩ := hbeyond
  exact ⟨hv, htext, htext ▸ hagain v hv, e, he, htrimmed ▸ hfails e he⟩

end SearchDsl.Version
