import RubyLens.Proofs.Text.LineIndex

/-!
Ranges on the wire. Rows and columns are sent in 32 bits and cut off at the greatest number that
fits; in a text with fewer rows, and with shorter lines, nothing is cut off (`toWire_positionAt`),
so a span with its ends on boundaries comes back from its range (`spanOf_rangeOf`).
-/

namespace RubyLens.Text

/-! ### The lines of a text -/

/-- The lines, without their line feeds. -/
def lines (t : Text) : List Text := t.splitOn '\n'

theorem lines_append_newline (a b : Text) : lines (a ++ '\n' :: b) = lines a ++ lines b :=
  List.splitOn_append_cons_self a b

theorem lines_of_notMem {t : Text} (h : '\n' ∉ t) : lines t = [t] := List.splitOn_eq_singleton h

theorem length_lines (t : Text) : (lines t).length = t.count '\n' + 1 := by
  unfold lines
  induction t with
  | nil => rfl
  | cons c t ih =>
    rw [List.splitOn_cons_eq_if_modifyHead]
    by_cases h : c = '\n'
    · simp [h, ih]
    · simp [h, ih]

/-- The line in a row stands among the lines behind those of the text in front of it. -/
theorem LineAt.exists_lines_eq {t before line rest : Text} {row : Nat}
    (h : LineAt t row before line rest) : ∃ front back, lines t = front ++ line :: back ∧
      (before = [] ∧ front = [] ∨ ∃ a, before = a ++ ['\n'] ∧ front = lines a) := by
  obtain ⟨back, hback⟩ : ∃ back, lines (line ++ rest) = line :: back := by
    rcases h.stop with rfl | ⟨b, rfl⟩
    · exact ⟨[], by rw [List.append_nil, lines_of_notMem h.notMem]⟩
    · exact ⟨lines b, by rw [lines_append_newline, lines_of_notMem h.notMem, List.singleton_append]⟩
  rw [h.text_eq, List.append_assoc]
  rcases h.start with ⟨rfl, -⟩ | ⟨a, rfl, -⟩
  · exact ⟨[], back, hback, .inl ⟨rfl, rfl⟩⟩
  · refine ⟨lines a, back, ?_, .inr ⟨a, rfl, rfl⟩⟩
    rw [List.append_assoc, List.singleton_append, lines_append_newline, hback]

theorem LineAt.mem_lines {t before line rest : Text} {row : Nat}
    (h : LineAt t row before line rest) : line ∈ lines t := by
  obtain ⟨front, back, hlines, -⟩ := h.exists_lines_eq
  rw [hlines]
  exact List.mem_append_right front List.mem_cons_self

/-! ### Texts that fit -/

/-- The number of lines, and the length of each of them, fit the wire. -/
structure FitsWire (e : Encoding) (t : Text) : Prop where
  rows : (lines t).length ≤ Position.wireMax
  columns : ∀ line ∈ lines t, e.len line ≤ Position.wireMax

instance (e : Encoding) (t : Text) : Decidable (FitsWire e t) :=
  decidable_of_iff ((lines t).length ≤ Position.wireMax ∧
    ∀ line ∈ lines t, e.len line ≤ Position.wireMax) ⟨fun h => ⟨h.1, h.2⟩, fun h => ⟨h.1, h.2⟩⟩

variable {e : Encoding} {t : Text}

/-- Positions in a text that fits are sent as they are. -/
theorem FitsWire.toWire_positionAt (h : FitsWire e t) (n : Nat) :
    (positionAt e t n).toWire = positionAt e t n := by
  have hcut := within_isPrefix .utf8 n t
  obtain ⟨before, line, line', rest, hw, hline⟩ := exists_lineAt_of_isPrefix hcut
  have hrow : (within .utf8 n t).count '\n' ≤ Position.wireMax := by
    have hle := hcut.sublist.count_le '\n'
    have hrows := h.rows
    rw [length_lines] at hrows
    omega
  have hcolumn : e.len line ≤ Position.wireMax := by
    have hlen := h.columns _ hline.mem_lines
    rw [e.len_append] at hlen
    omega
  have hpos : positionAt e t n = ⟨(within .utf8 n t).count '\n', e.len line⟩ := by
    conv_lhs => rw [positionAt, hw]
    exact hline.endPosition_append rfl e
  rw [hpos, Position.toWire, Nat.min_eq_left hrow, Nat.min_eq_left hcolumn]

theorem FitsWire.rangeOf_eq (h : FitsWire e t) (s : Span) :
    rangeOf e t s = ⟨positionAt e t s.start, positionAt e t s.stop⟩ := by
  rw [rangeOf, h.toWire_positionAt, h.toWire_positionAt]

theorem FitsWire.contains_rangeOf (h : FitsWire e t) {a b : Span} (hcovers : b.covers a) :
    (rangeOf e t b).contains (rangeOf e t a) := by
  rw [Span.covers_iff] at hcovers
  rw [h.rangeOf_eq, h.rangeOf_eq, Range.contains, Bool.and_eq_true, decide_eq_true_eq,
    decide_eq_true_eq]
  exact ⟨positionAt_mono e t hcovers.1, positionAt_mono e t hcovers.2⟩

theorem FitsWire.forward_rangeOf (h : FitsWire e t) {a : Span} (hle : a.start ≤ a.stop) :
    (rangeOf e t a).start ≤ (rangeOf e t a).stop := by
  rw [h.rangeOf_eq]
  exact positionAt_mono e t hle

/-- **The span of the range of a span.** -/
theorem FitsWire.spanOf_rangeOf (h : FitsWire e t) {s : Span} (hstart : IsBoundary t s.start)
    (hstop : IsBoundary t s.stop) (hle : s.start ≤ s.stop) : spanOf e t (rangeOf e t s) = s := by
  rw [h.rangeOf_eq, spanOf]
  simp only [offsetAt_positionAt_of_boundary e hstart, offsetAt_positionAt_of_boundary e hstop,
    Nat.min_eq_left hle, Nat.max_eq_right hle]

theorem positionAt_inj (e : Encoding) {a b : Nat} (ha : IsBoundary t a) (hb : IsBoundary t b) :
    positionAt e t a = positionAt e t b ↔ a = b := by
  refine ⟨fun h => ?_, fun h => h ▸ rfl⟩
  rw [← offsetAt_positionAt_of_boundary e ha, h, offsetAt_positionAt_of_boundary e hb]

theorem positionAt_lt (e : Encoding) {a b : Nat} (ha : IsBoundary t a) (hb : IsBoundary t b)
    (h : a < b) : positionAt e t a < positionAt e t b :=
  lt_of_le_of_ne (positionAt_mono e t h.le) fun heq => h.ne ((positionAt_inj e ha hb).1 heq)

theorem positionAt_lt_iff (e : Encoding) {a b : Nat} (ha : IsBoundary t a) (hb : IsBoundary t b) :
    positionAt e t a < positionAt e t b ↔ a < b := by
  refine ⟨fun h => ?_, positionAt_lt e ha hb⟩
  by_contra hle
  exact h.not_ge (positionAt_mono e t (Nat.le_of_not_lt hle))

end RubyLens.Text
