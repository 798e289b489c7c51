/-!
# `SearchDsl.Request.Duration`: time values

Whole seconds are written in seconds. All other durations are written in milliseconds, rounded up so
that a positive duration is never written as zero.
-/

set_option autoImplicit false

namespace SearchDsl

/-- A span of time in seconds and nanoseconds. -/
structure Duration where
  seconds : UInt64
  nanos : Nat
  nanos_lt : nanos < 1000000000
deriving DecidableEq

namespace Duration

/-- A span of whole seconds. -/
def ofSeconds (seconds : UInt64) : Duration := ⟨seconds, 0, by decide⟩

/-- A span of seconds and nanoseconds, of which full seconds are carried. -/
def ofParts (seconds : UInt64) (nanos : Nat) : Duration :=
  ⟨seconds + UInt64.ofNat (nanos / 1000000000), nanos % 1000000000,
    Nat.mod_lt _ (by decide)⟩

/-- The length in nanoseconds. -/
def totalNanos (d : Duration) : Nat := d.seconds.toNat * 1000000000 + d.nanos

/-- The length in milliseconds, rounded up. -/
def milliseconds (d : Duration) : Nat := (d.totalNanos + 999999) / 1000000

/-- The characters of a time value. -/
def characters (d : Duration) : List Char :=
  if d.nanos = 0 then Nat.toDigits 10 d.seconds.toNat ++ ['s']
  else Nat.toDigits 10 d.milliseconds ++ ['m', 's']

/-- The text of a time value. -/
def text (d : Duration) : String := String.ofList d.characters

end Duration

end SearchDsl
