namespace SearchLoad

structure Span where
  nanos : Nat
  nanos_le : nanos ≤ 18446744073709551615999999999
deriving DecidableEq, Repr

namespace Span

def maxNanos : Nat := 18446744073709551615999999999

def nanosPerSecond : Nat := 1000000000

def zero : Span := ⟨0, by decide⟩

def longest : Span := ⟨maxNanos, Nat.le_refl _⟩

/-- Nothing beyond the longest span. -/
def ofNanos? (n : Nat) : Option Span :=
  if h : n ≤ maxNanos then some ⟨n, h⟩ else none

def add? (a b : Span) : Option Span := ofNanos? (a.nanos + b.nanos)

def seconds (s : Span) : Nat := s.nanos / nanosPerSecond

def subNanos (s : Span) : Nat := s.nanos % nanosPerSecond

def ofMillis (n : UInt32) : Span :=
  ⟨n.toNat * 1000000, by
    have := n.toNat_lt
    omega⟩

theorem eq_of_nanos {a b : Span} (h : a.nanos = b.nanos) : a = b := by
  cases a
  cases b
  simpa using h

theorem ofNanos?_eq_some_iff {n : Nat} {s : Span} : ofNanos? n = some s ↔ s.nanos = n := by
  unfold ofNanos?
  constructor
  · intro h
    split at h
    · simp only [Option.some.injEq] at h
      subst h
      rfl
    · simp at h
  · rintro rfl
    exact dif_pos s.nanos_le

theorem add?_eq_some_iff {a b c : Span} : a.add? b = some c ↔ c.nanos = a.nanos + b.nanos :=
  ofNanos?_eq_some_iff

end Span

end SearchLoad
