import Mathlib.Algebra.Ring.Nat
import SearchDsl.Request.Duration
import SearchDsl.Text.Digits

/-!
# `SearchDsl.Proofs.Request.Duration`: what a time value is read as

A time value is a number with its unit behind it, seconds or milliseconds, and stands for that many
nanoseconds (`Duration.nanosOf?`). The two units are no two cases: whole seconds are whole
milliseconds, so either text stands for the length in milliseconds, rounded up
(`Duration.nanosOf?_text`). What rounding up does is then a matter of one division. It adds less
than a millisecond, it leaves whole milliseconds alone, and it keeps the order.

The longest durations are rounded up to `2 ^ 64` seconds, which is no duration any more. So what
is read back is a number of nanoseconds here.
-/

set_option autoImplicit false

namespace SearchDsl.Duration

/-- The length of a unit in nanoseconds. -/
def unitNanos? : List Char → Option Nat
  | ['s'] => some 1000000000
  | ['m', 's'] => some 1000000
  | _ => none

/-- The nanoseconds that a time value stands for. -/
def nanosOf? (text : String) : Option Nat :=
  let (digits, unit) := Text.splitDigits text.toList
  if digits = [] then none
  else (unitNanos? unit).map fun nanos => Text.digitsValue digits * nanos

/-- A number and a unit stand for so many times the unit. -/
theorem nanosOf?_number {n nanos : Nat} {unit : List Char} (hunit : unitNanos? unit = some nanos)
    (hletter : ∀ c ∈ unit.head?, c.isDigit = false) :
    nanosOf? (String.ofList (Nat.toDigits 10 n ++ unit)) = some (n * nanos) := by
  have hdigits : ∀ c ∈ Nat.toDigits 10 n, c.isDigit = true :=
    fun c hc => Nat.isDigit_of_mem_toDigits (by decide) (by decide) hc
  unfold nanosOf?
  rw [String.toList_ofList, Text.splitDigits_append_of_isDigit hdigits hletter]
  show (if Nat.toDigits 10 n = [] then none
    else (unitNanos? unit).map fun nanos => Text.digitsValue (Nat.toDigits 10 n) * nanos)
      = some (n * nanos)
  rw [if_neg Nat.toDigits_ne_nil, hunit, Text.digitsValue_toDigits]
  rfl

section Rounding

variable (d : Duration)

/-- Both texts of a duration stand for its length in milliseconds. -/
theorem nanosOf?_text : nanosOf? d.text = some (d.milliseconds * 1000000) := by
  unfold text characters
  split
  · rename_i hwhole
    -- No nanoseconds are left, so nothing is rounded.
    have hmilliseconds : d.milliseconds * 1000000 = d.seconds.toNat * 1000000000 := by
      unfold milliseconds totalNanos
      omega
    rw [nanosOf?_number rfl (by simp), hmilliseconds]
  · exact nanosOf?_number rfl (by simp)

/-- Milliseconds are not rounded down. -/
theorem totalNanos_le : d.totalNanos ≤ d.milliseconds * 1000000 := by
  unfold milliseconds
  omega

/-- Rounding up adds less than one millisecond. -/
theorem milliseconds_mul_lt : d.milliseconds * 1000000 < d.totalNanos + 1000000 := by
  unfold milliseconds
  omega

/-- Whole milliseconds are not rounded. -/
theorem milliseconds_mul_of_dvd (h : 1000000 ∣ d.totalNanos) :
    d.milliseconds * 1000000 = d.totalNanos := by
  unfold milliseconds
  omega

/-- The length decides how many milliseconds there are, and more so for longer durations. -/
theorem milliseconds_le {d longer : Duration} (h : d.totalNanos ≤ longer.totalNanos) :
    d.milliseconds ≤ longer.milliseconds :=
  Nat.div_le_div_right (Nat.add_le_add_right h 999999)

/-- Only the duration of no seconds has no length. -/
theorem totalNanos_eq_zero_iff : d.totalNanos = 0 ↔ d = ofSeconds 0 := by
  constructor
  · intro h
    obtain ⟨seconds, nanos, hnanos⟩ := d
    have htotal : seconds.toNat * 1000000000 + nanos = 0 := h
    obtain rfl : seconds = 0 := UInt64.toNat_inj.mp (show seconds.toNat = 0 by omega)
    obtain rfl : nanos = 0 := by omega
    rfl
  · rintro rfl
    rfl

/-- Rounding up gives nothing for no length at all. -/
theorem milliseconds_mul_eq_zero_iff : d.milliseconds * 1000000 = 0 ↔ d = ofSeconds 0 := by
  rw [← totalNanos_eq_zero_iff]
  unfold milliseconds
  omega

/-- The milliseconds are the quotient of the total, and one more if anything is left. No number that
comes up in this way is above the total by more than one. -/
theorem milliseconds_eq : d.milliseconds
    = d.totalNanos / 1000000 + if d.totalNanos % 1000000 = 0 then 0 else 1 := by
  unfold milliseconds
  split <;> omega

end Rounding

/-- The text of a duration is read back as at least its length, and as less than a millisecond more.
Whole milliseconds come back as they are, only the text of no time at all means zero, and the text
of a longer duration does not mean less, whatever the units. The numbers that come up on the way all
have room in 128 bits: the seconds in nanoseconds, the total, and the milliseconds rounded down and
up. -/
theorem nanosOf?_text_rounds_up (d : Duration) :
    ∃ nanos, nanosOf? d.text = some nanos ∧
      (d.totalNanos ≤ nanos ∧ nanos < d.totalNanos + 1000000) ∧
      (1000000 ∣ d.totalNanos → nanos = d.totalNanos) ∧
      (nanos = 0 ↔ d = ofSeconds 0) ∧
      (∀ longer : Duration, d.totalNanos ≤ longer.totalNanos →
        ∃ more, nanosOf? longer.text = some more ∧ nanos ≤ more) ∧
      (d.milliseconds = d.totalNanos / 1000000 + (if d.totalNanos % 1000000 = 0 then 0 else 1) ∧
        d.seconds.toNat * 1000000000 < 2 ^ 128 ∧ d.totalNanos < 2 ^ 128 ∧
          d.totalNanos / 1000000 + 1 < 2 ^ 128) := by
  have hseconds : d.seconds.toNat < 2 ^ 64 := d.seconds.toNat_lt_size
  have hnanos : d.nanos < 1000000000 := d.nanos_lt
  have htotal : d.totalNanos = d.seconds.toNat * 1000000000 + d.nanos := rfl
  refine ⟨d.milliseconds * 1000000, d.nanosOf?_text, ⟨d.totalNanos_le, d.milliseconds_mul_lt⟩,
    d.milliseconds_mul_of_dvd, d.milliseconds_mul_eq_zero_iff, fun longer hlonger => ?_,
    d.milliseconds_eq, by omega, by omega, by omega⟩
  exact ⟨longer.milliseconds * 1000000, longer.nanosOf?_text,
    Nat.mul_le_mul_right 1000000 (milliseconds_le hlonger)⟩

/-- A nanosecond less than a second is written in milliseconds and means no more than the second. -/
theorem nanosOf?_text_rounds_up_acrossUnits :
    let shorter : Duration := ⟨0, 999999999, by decide⟩
    shorter.text = "1000ms" ∧ (ofSeconds 1).text = "1s" ∧
      shorter.totalNanos ≤ (ofSeconds 1).totalNanos ∧ 1000000 ∣ (ofSeconds 1).totalNanos ∧
        ∃ nanos more, nanosOf? shorter.text = some nanos ∧ nanosOf? (ofSeconds 1).text = some more ∧
          nanos ≤ more ∧ more = (ofSeconds 1).totalNanos := by
  intro shorter
  have hle : shorter.totalNanos ≤ (ofSeconds 1).totalNanos := by decide
  have hdvd : 1000000 ∣ (ofSeconds 1).totalNanos := by decide
  obtain ⟨nanos, hnanos, -, -, -, hlonger, -⟩ := nanosOf?_text_rounds_up shorter
  obtain ⟨second, hsecond, -, hwhole, -, -, -⟩ := nanosOf?_text_rounds_up (ofSeconds 1)
  obtain ⟨more, hmore, hnanosLe⟩ := hlonger (ofSeconds 1) hle
  obtain rfl := Option.some.inj (hsecond.symm.trans hmore)
  exact ⟨by decide +kernel, by decide +kernel, hle, hdvd, nanos, second, hnanos, hsecond,
    hnanosLe, hwhole hdvd⟩

end SearchDsl.Duration
