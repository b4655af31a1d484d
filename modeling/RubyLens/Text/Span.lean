import RubyLens.Text.Measure

/-!
Stretches of a text between two byte offsets.
-/

namespace RubyLens

/-- The bytes from `start` up to but not including `stop`. -/
structure Span where
  start : Nat
  stop : Nat
deriving DecidableEq, Repr

namespace Span

/-- The number of bytes. -/
def len (s : Span) : Nat := s.stop - s.start

def isEmpty (s : Span) : Bool := s.start == s.stop

/-- From the start of the first span to the end of the last, or an empty span if the last one
ends before that start. -/
def cover (first last : Span) : Span := ⟨first.start, max last.stop first.start⟩

/-- A cursor right behind the last byte is still on the span, so both ends count. -/
def contains (s : Span) (offset : Nat) : Bool := s.start ≤ offset && offset ≤ s.stop

/-- The other span lies within this one. -/
def covers (s other : Span) : Bool := s.start ≤ other.start && other.stop ≤ s.stop

section Covers

variable {a b c : Span} {offset : Nat}

theorem contains_iff : a.contains offset ↔ a.start ≤ offset ∧ offset ≤ a.stop := by
  simp [contains]

theorem covers_iff : a.covers b ↔ a.start ≤ b.start ∧ b.stop ≤ a.stop := by
  simp [covers]

@[simp] theorem covers_refl (a : Span) : a.covers a := by
  simp [covers]

theorem covers_trans (hab : a.covers b) (hbc : b.covers c) : a.covers c := by
  rw [covers_iff] at *
  omega

theorem covers_antisymm (hab : a.covers b) (hba : b.covers a) : a = b := by
  obtain ⟨i, j⟩ := a
  obtain ⟨k, l⟩ := b
  simp only [covers_iff, mk.injEq] at *
  omega

end Covers

/-- Order by start, then by end. -/
def before (a b : Span) : Bool := a.start < b.start || (a.start == b.start && a.stop ≤ b.stop)

/-- Order by length, then by start. -/
def smaller (a b : Span) : Bool := a.len < b.len || (a.len == b.len && a.start ≤ b.start)

end Span

/-- The part of a text that a span names. -/
def Text.slice (t : Text) (s : Span) : Text := Text.within .utf8 s.len (Text.beyond .utf8 s.start t)

/-- A text with the part that a span names replaced. -/
def Text.splice (t : Text) (s : Span) (new : Text) : Text :=
  Text.within .utf8 s.start t ++ new ++ Text.beyond .utf8 s.stop t

end RubyLens
