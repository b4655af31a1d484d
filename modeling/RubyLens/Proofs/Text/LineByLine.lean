import Mathlib.Algebra.Ring.Nat
import Mathlib.Data.List.DropRight
import RubyLens.Proofs.Text.Conversion
import RubyLens.Proofs.Text.Wire

/-!
Offsets and positions line by line. With both counted in one unit, a position can be looked for by
adding up the lengths of the lines before its row, one unit for each line feed, and the units that
its column takes in its own line; an offset, by counting the line feeds up to it and measuring what
stands behind the last of them. Conversions that go by way of bytes and of an index of the lines come
to the same.

* `LineAt.unitsAt_eq`: the units of a position are those in front of its line and those up to its
  column.
* `endPosition_eq`: the position behind a text is read off its line feeds and its last line.

Main statement: `unitsAt_line_by_line`.
-/

namespace RubyLens.Text

/-! ### From positions to offsets -/

theorem charLen_newline (e : Encoding) : e.charLen '\n' = 1 := by cases e <;> rfl

/-- The lines take what the text takes, with one unit for the end of each but the last. -/
theorem sum_lines (e : Encoding) (t : Text) :
    ((lines t).map fun line => e.len line + 1).sum = e.len t + 1 := by
  induction t with
  | nil => rfl
  | cons c t ih =>
    obtain ⟨line, others, hlines⟩ : ∃ line others, lines t = line :: others :=
      List.exists_cons_of_length_pos (by rw [length_lines]; omega)
    have hcons : lines (c :: t) = if c = '\n' then [] :: lines t else (c :: line) :: others := by
      rw [lines, List.splitOn_cons_eq_if_modifyHead, ← lines, hlines]
      simp
    rw [hcons]
    split
    next hc =>
      rw [List.map_cons, List.sum_cons, ih, e.len_cons, hc, charLen_newline, e.len_nil]
      omega
    next hc =>
      rw [hlines, List.map_cons, List.sum_cons] at ih
      rw [List.map_cons, List.sum_cons, e.len_cons, e.len_cons]
      omega

namespace LineAt

variable {t before line rest : Text} {row : Nat} (h : LineAt t row before line rest)

include h

/-- What stands in front of a line are the lines before it, each with its line feed. -/
theorem lines_before (e : Encoding) :
    (lines t)[row]? = some line ∧
      (((lines t).take row).map fun line => e.len line + 1).sum = e.len before := by
  obtain ⟨front, back, hlines, hfront⟩ := h.exists_lines_eq
  obtain ⟨hlength, hsum⟩ : front.length = row ∧
      (front.map fun line => e.len line + 1).sum = e.len before := by
    rcases hfront with ⟨rfl, rfl⟩ | ⟨a, rfl, rfl⟩
    · exact ⟨h.count_before, rfl⟩
    · refine ⟨?_, ?_⟩
      · rw [length_lines, ← h.count_before, List.count_append]
        rfl
      · rw [sum_lines, e.len_append, e.len_cons, charLen_newline, e.len_nil]
  rw [hlines, List.take_left' hlength]
  refine ⟨?_, hsum⟩
  rw [List.getElem?_append_right hlength.le, hlength, Nat.sub_self, List.getElem?_cons_zero]

theorem unitsAt_eq (e : Encoding) (column : Nat) :
    unitsAt e t ⟨row, column⟩ = e.len before + e.len (within e column line) := by
  have hcut : before ++ within e column line <+: t := by
    obtain ⟨rest', hline⟩ := within_isPrefix e column line
    refine ⟨rest' ++ rest, ?_⟩
    rw [h.text_eq, ← List.append_assoc, List.append_assoc before, hline]
  rw [unitsAt, h.offsetAt_eq, ← size_append, convert, within_size hcut, e.len_append]

end LineAt

/-! ### From offsets to positions -/

/-- What stands behind the last line feed of a text. -/
def lastLine (t : Text) : Text := t.rtakeWhile (· != '\n')

theorem lastLine_concat (t : Text) (c : Char) :
    lastLine (t ++ [c]) = if c = '\n' then [] else lastLine t ++ [c] := by
  rw [lastLine, List.rtakeWhile_concat]
  by_cases hc : c = '\n' <;> simp [hc, lastLine]

theorem endPosition_eq (e : Encoding) (t : Text) :
    endPosition e t = ⟨t.count '\n', e.len (lastLine t)⟩ := by
  induction t using List.reverseRecOn with
  | nil => rfl
  | append_singleton t c ih =>
    have hnext : endPosition e (t ++ [c]) = (endPosition e t).next e c := List.foldl_append
    rw [hnext, ih, Position.next, lastLine_concat, List.count_append]
    by_cases hc : c = '\n' <;> simp [hc]

theorem positionAtUnits_eq (e : Encoding) (t : Text) (n : Nat) :
    positionAtUnits e t n = endPosition e (within e n t) :=
  positionAt_size e (within_isPrefix e n t)

/-- There and back again, with both counted in one unit. -/
theorem unitsAt_positionAtUnits (e : Encoding) (t : Text) (n : Nat) :
    unitsAt e t (positionAtUnits e t n) = e.len (within e n t) := by
  have hback : offsetAt e t (positionAtUnits e t n) = size (within e n t) :=
    (offsetAt_positionAt e t _).trans (congrArg size (within_size (within_isPrefix e n t)))
  rw [unitsAt, hback, convert, within_size (within_isPrefix e n t)]

/-! ### Main statement -/

/-- **Line by line.** The offset of a position is the length of the lines before its row, each with
one unit for its line feed, and of the longest leading part of its own line that is within the
column; past the last line it is the length of the text. The position of an offset has for its row
the number of line feeds, and for its column what stands behind the last of them, in the longest
leading part of the text that is within the offset; and this part is what the position leads back to.
Both conversions are made by way of bytes, with an index of the lines. -/
theorem unitsAt_line_by_line (e : Encoding) (t : Text) :
    (∀ row column line, (lines t)[row]? = some line → ∃ a, IsLongest e column line a ∧
      unitsAt e t ⟨row, column⟩ =
        (((lines t).take row).map fun line => e.len line + 1).sum + e.len a) ∧
    (∀ row column, (lines t)[row]? = none → unitsAt e t ⟨row, column⟩ = e.len t) ∧
    (∀ n, ∃ a, IsLongest e n t a ∧
      positionAtUnits e t n = ⟨a.count '\n', e.len (lastLine a)⟩ ∧
      unitsAt e t (positionAtUnits e t n) = e.len a) ∧
    (∀ p, ((indexedOffset? e t p).bind fun offset => (cut? .utf8 offset t).map e.len) =
      some (unitsAt e t p)) ∧
    (∀ n, ((cut? e n t).bind fun a => indexedPosition? e t (size a)) =
      some (positionAtUnits e t n)) := by
  refine ⟨fun row column line hline => ?_, fun row column hnone => ?_, fun n => ?_, fun p => ?_,
    fun n => ?_⟩
  · obtain ⟨hrow, -⟩ := List.getElem?_eq_some_iff.1 hline
    rw [length_lines] at hrow
    obtain ⟨before, line', rest, h⟩ := exists_lineAt (Nat.le_of_lt_succ hrow)
    obtain ⟨hline', hsum⟩ := h.lines_before e
    obtain rfl : line = line' := Option.some.inj (hline.symm.trans hline')
    exact ⟨within e column line, isLongest_within e column line, by rw [hsum, h.unitsAt_eq]⟩
  · rw [List.getElem?_eq_none_iff, length_lines] at hnone
    rw [unitsAt, offsetAt_of_count_lt e (Nat.lt_of_succ_le hnone), convert,
      within_size (List.prefix_refl t)]
  · refine ⟨within e n t, isLongest_within e n t, ?_, unitsAt_positionAtUnits e t n⟩
    rw [positionAtUnits_eq, endPosition_eq]
  · rw [indexedOffset?_eq, Option.bind_some, cut?_eq, Option.map_some, unitsAt, convert]
  · rw [cut?_eq, Option.bind_some, indexedPosition?_eq]
    rfl

/-- A column past the end of its line. -/
example : unitsAt .utf16 ['😀', '\n', 'b', '\n'] ⟨1, 9⟩ = 4 := by decide

end RubyLens.Text
