-- SUMMARY: Lengths of time.

/-!
# Lengths of time

A `Span` counts whole seconds and the nanoseconds beyond them. `Span.ofParts`
is the way in: it carries full seconds out of the nanoseconds, so that spans of
equal length are equal.
-/

namespace ZonePool

/-- A length of time: whole seconds, and less than a second of nanoseconds. -/
structure Span where
  secs : Nat
  nanos : Nat
  deriving DecidableEq, Repr

namespace Span

/-- Nanoseconds in a second. -/
def nanosPerSec : Nat := 1000000000

def ofParts (secs nanos : Nat) : Span :=
  ⟨secs + nanos / nanosPerSec, nanos % nanosPerSec⟩

def ofSecs (secs : Nat) : Span := ⟨secs, 0⟩

theorem nanos_ofParts_lt (secs nanos : Nat) : (ofParts secs nanos).nanos < nanosPerSec :=
  Nat.mod_lt _ (by decide)

/-- The whole length in nanoseconds. -/
def inNanos (s : Span) : Nat := s.secs * nanosPerSec + s.nanos

@[simp] theorem inNanos_ofParts (secs nanos : Nat) :
    (ofParts secs nanos).inNanos = secs * nanosPerSec + nanos := by
  simp only [inNanos, ofParts, nanosPerSec]
  omega

@[simp] theorem inNanos_ofSecs (secs : Nat) : (ofSecs secs).inNanos = secs * nanosPerSec := by
  simp [inNanos, ofSecs]

def isZero (s : Span) : Bool :=
  s.secs == 0 && s.nanos == 0

theorem isZero_iff {s : Span} : s.isZero = true ↔ s.inNanos = 0 := by
  simp only [isZero, inNanos, nanosPerSec, Bool.and_eq_true, beq_iff_eq]
  omega

/-- Whether `s` is longer than a whole number of seconds. -/
def exceeds (s : Span) (secs : Nat) : Bool :=
  secs < s.secs || (s.secs == secs && 0 < s.nanos)

theorem exceeds_iff {s : Span} (h : s.nanos < nanosPerSec) {secs : Nat} :
    s.exceeds secs = true ↔ secs * nanosPerSec < s.inNanos := by
  simp only [nanosPerSec] at h
  simp only [exceeds, inNanos, nanosPerSec, Bool.or_eq_true, Bool.and_eq_true, beq_iff_eq,
    decide_eq_true_eq]
  omega

/-- Whole milliseconds, the rest cut off. -/
def millis (s : Span) : Nat :=
  s.secs * 1000 + s.nanos / 1000000

end Span

end ZonePool
