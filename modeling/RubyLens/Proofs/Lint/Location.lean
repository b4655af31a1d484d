import RubyLens.Lint.Offense
import RubyLens.Proofs.Text.LineByLine

/-!
Where offenses are. The linter counts lines and characters from one and includes the last character;
an editor counts from zero, in units of its own, and up to but not including the end. Offsets in
bytes stand between the two: they are found line by line from what the linter says
(`offsetAt_characters`), whatever that is, and the range that is sent leads back to them in every
encoding (`ends_range`).

Main statement: `range_denotes`.
-/

namespace RubyLens.Text

/-! ### Places counted in characters -/

theorem within_characters (n : Nat) (t : Text) : within .utf32 n t = t.take n := by
  induction t generalizing n with
  | nil => rw [within, List.take_nil]
  | cons c t ih =>
    cases n with
    | zero => rfl
    | succ n =>
      rw [within, List.take_succ_cons, ← ih]
      exact if_pos (Nat.le_add_left 1 n)

/-- The byte offset of a row and a column counted in characters: the lines before the row with their
line feeds, and then what stands before the column in the line, or the whole line if it is shorter.
Behind the last line it is the end of the text. -/
def characterOffset (t : Text) (row column : Nat) : Nat :=
  match (lines t)[row]? with
  | some line => (((lines t).take row).map fun line => size line + 1).sum + size (line.take column)
  | none => size t

theorem offsetAt_characters (t : Text) (p : Position) :
    offsetAt .utf32 t p = characterOffset t p.row p.column := by
  unfold characterOffset
  cases hline : (lines t)[p.row]? with
  | none =>
    rw [List.getElem?_eq_none_iff, length_lines] at hline
    exact offsetAt_of_count_lt .utf32 (Nat.lt_of_succ_le hline)
  | some line =>
    obtain ⟨hrow, -⟩ := List.getElem?_eq_some_iff.1 hline
    rw [length_lines] at hrow
    obtain ⟨before, line', rest, h⟩ := exists_lineAt (Nat.le_of_lt_succ hrow)
    obtain ⟨hline', hbefore⟩ := h.lines_before .utf8
    obtain rfl : line = line' := Option.some.inj (hline.symm.trans hline')
    refine (h.offsetAt_eq .utf32 p.column).trans ?_
    rw [within_characters]
    exact congrArg (· + size (line.take p.column)) hbefore.symm

/-- The byte offsets of both ends of a range. -/
def ends (e : Encoding) (t : Text) (r : Range) : Nat × Nat :=
  (offsetAt e t r.start, offsetAt e t r.stop)

theorem FitsWire.ends_rangeOf {e : Encoding} {t : Text} (h : FitsWire e t) {s : Span}
    (hstart : IsBoundary t s.start) (hstop : IsBoundary t s.stop) :
    ends e t (rangeOf e t s) = (s.start, s.stop) := by
  rw [h.rangeOf_eq, ends, offsetAt_positionAt_of_boundary e hstart,
    offsetAt_positionAt_of_boundary e hstop]

end RubyLens.Text

namespace RubyLens.Offense

open Text (FitsWire IsBoundary characterOffset ends)

variable {e : Encoding} {t : Text} (o : Offense)

/-! ### Places of offenses -/

theorem offsets_eq : o.offsets t =
    (characterOffset t (o.location.startLine - 1) (o.location.startColumn - 1),
      characterOffset t (o.location.lastLine - 1) o.location.lastColumn) := by
  rw [offsets, Text.offsetAt_characters, Text.offsetAt_characters]

theorem isBoundary_offsets : IsBoundary t (o.offsets t).1 ∧ IsBoundary t (o.offsets t).2 :=
  ⟨Text.isBoundary_offsetAt _ _ _, Text.isBoundary_offsetAt _ _ _⟩

theorem ends_range (h : FitsWire e t) : ends e t (o.range e t) = o.offsets t :=
  h.ends_rangeOf o.isBoundary_offsets.1 o.isBoundary_offsets.2

/-- The last character is included, so it stands behind the start even if it is the first one. -/
theorem offsets_forward (hline : 1 ≤ o.location.startLine)
    (hforward : (⟨o.location.startLine, o.location.startColumn⟩ : Position) ≤
      ⟨o.location.lastLine, o.location.lastColumn⟩) : (o.offsets t).1 ≤ (o.offsets t).2 := by
  refine Text.offsetAt_mono .utf32 t ?_
  rw [Position.le_iff] at hforward ⊢
  simp only at hforward ⊢
  omega

/-! ### Main statement -/

/-- **Ranges of offenses.** Whatever encoding the range of an offense is sent in, its ends are those
byte offsets that the linter means: of the character at the start and behind the character at the
end, both counted from one, where a zero counts as a one at the start, and what is past the end of a
line or of the text is that end. A location that goes forward leads to a range that does. -/
theorem range_denotes (t : Text) (o : Offense) {e e' : Encoding} (h : FitsWire e t)
    (h' : FitsWire e' t) :
    let l := o.location
    let first := characterOffset t (l.startLine - 1) (l.startColumn - 1)
    let last := characterOffset t (l.lastLine - 1) l.lastColumn
    ends e t (o.range e t) = (first, last) ∧ ends e' t (o.range e' t) = (first, last) ∧
    (1 ≤ l.startLine →
      (⟨l.startLine, l.startColumn⟩ : Position) ≤ ⟨l.lastLine, l.lastColumn⟩ →
      first ≤ last ∧ (o.range e t).start ≤ (o.range e t).stop ∧
        (o.range e' t).start ≤ (o.range e' t).stop) := by
  intro l first last
  have hoffsets : o.offsets t = (first, last) := o.offsets_eq
  refine ⟨(o.ends_range h).trans hoffsets, (o.ends_range h').trans hoffsets,
    fun hline hforward => ?_⟩
  have hle := o.offsets_forward (t := t) hline hforward
  refine ⟨?_, h.forward_rangeOf hle, h'.forward_rangeOf hle⟩
  rw [hoffsets] at hle
  exact hle

/-- From a character of two units in the second line to far behind the end of a line that ends in a
carriage return. -/
theorem range_denotes_farColumn :
    let t : Text := ['a', '\n', '😀', 'é', '\r', '\n']
    let o : Offense := ⟨"Naming", true, ⟨2, 2, 2, 2 ^ 63⟩, "short", .error⟩
    (FitsWire .utf16 t ∧ FitsWire .utf8 t) ∧
    ends .utf16 t (o.range .utf16 t) = (6, 9) ∧ ends .utf8 t (o.range .utf8 t) = (6, 9) ∧
    o.range .utf16 t = ⟨⟨1, 2⟩, ⟨1, 4⟩⟩ ∧ o.range .utf8 t = ⟨⟨1, 4⟩, ⟨1, 7⟩⟩ ∧
    (o.range .utf16 t).start ≤ (o.range .utf16 t).stop := by
  intro t o
  have hfits : FitsWire .utf16 t ∧ FitsWire .utf8 t := by decide
  have hdenotes := range_denotes t o hfits.1 hfits.2
  exact ⟨hfits, hdenotes.1, hdenotes.2.1, by decide, by decide,
    (hdenotes.2.2 (by decide) (by decide)).2.1⟩

end RubyLens.Offense
