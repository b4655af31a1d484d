import Mathlib.Order.Basic
import RubyLens.Proofs.Text.Prefix

/-!
Positions and boundaries of one text. Positions are ordered row by row, and a text that follows
another one starts where that one ends (`endPosition_append`), so the positions behind the leading
parts of a text grow strictly with them (`endPosition_le_endPosition_iff`).

The two conversions are adjoint: `endPosition_le_iff` says that the position behind a leading part
is at most `p` exactly if its size is at most the offset of `p`, and `positionAt_le_iff` says the
same of boundaries. That both conversions are monotone, and where they lead back to, follows from
this alone.
-/

namespace RubyLens.Position

/-! ### The order of positions -/

theorem le_iff {p q : Position} :
    p ≤ q ↔ p.row < q.row ∨ p.row = q.row ∧ p.column ≤ q.column := Iff.rfl

instance : LinearOrder Position where
  le_refl p := by rw [le_iff]; omega
  le_trans p q r hpq hqr := by rw [le_iff] at *; omega
  le_antisymm p q hpq hqp := by
    obtain ⟨i, j⟩ := p
    obtain ⟨k, l⟩ := q
    simp only [le_iff] at hpq hqp
    rw [Position.mk.injEq]
    omega
  le_total p q := by simp only [le_iff]; omega
  toDecidableLE := inferInstance

theorem lt_iff {p q : Position} :
    p < q ↔ p.row < q.row ∨ p.row = q.row ∧ p.column < q.column := by
  rw [lt_iff_not_ge, le_iff]
  omega

/-- The position `d` of a text, seen from the text in which it starts at `p`. -/
def shift (p d : Position) : Position :=
  if d.row = 0 then ⟨p.row, p.column + d.column⟩ else ⟨p.row + d.row, d.column⟩

theorem shift_assoc (p d d' : Position) : (p.shift d).shift d' = p.shift (d.shift d') := by
  by_cases h : d.row = 0 <;> by_cases h' : d'.row = 0 <;> simp [shift, h, h', Nat.add_assoc]

theorem shift_next (e : Encoding) (p : Position) (c : Char) :
    p.shift (next e ⟨0, 0⟩ c) = next e p c := by
  by_cases h : c = '\n' <;> simp [next, shift, h]

theorem zero_le (p : Position) : ⟨0, 0⟩ ≤ p := by
  rw [le_iff]
  simp only
  omega

end RubyLens.Position

namespace RubyLens.Text

/-! ### The position behind a text -/

theorem foldl_next (e : Encoding) (t : Text) (p : Position) :
    t.foldl (Position.next e) p = p.shift (endPosition e t) := by
  unfold endPosition
  induction t generalizing p with
  | nil => simp [Position.shift]
  | cons c t ih =>
    rw [List.foldl_cons, List.foldl_cons, ih, ih (Position.next e ⟨0, 0⟩ c), ← Position.shift_assoc,
      Position.shift_next]

/-- A text that follows another one starts where that one ends. -/
theorem endPosition_append (e : Encoding) (a b : Text) :
    endPosition e (a ++ b) = (endPosition e a).shift (endPosition e b) := by
  rw [← foldl_next]
  exact List.foldl_append

theorem endPosition_cons (e : Encoding) (c : Char) (t : Text) :
    endPosition e (c :: t) = (Position.next e ⟨0, 0⟩ c).shift (endPosition e t) :=
  foldl_next e t _

/-- The row is the number of line feeds before it. -/
theorem row_endPosition (e : Encoding) (t : Text) : (endPosition e t).row = t.count '\n' := by
  induction t with
  | nil => rfl
  | cons c t ih =>
    rw [endPosition_cons, Position.shift, Position.next]
    by_cases h : c = '\n'
    · split <;> simp_all [Nat.add_comm]
    · split <;> simp_all

/-- In the first row the column is the length. -/
theorem endPosition_of_notMem (e : Encoding) {t : Text} (h : '\n' ∉ t) :
    endPosition e t = ⟨0, e.len t⟩ := by
  induction t with
  | nil => rfl
  | cons c t ih =>
    rw [List.mem_cons, not_or] at h
    rw [endPosition_cons, ih h.2, Position.next, if_neg (Ne.symm h.1)]
    simp [Position.shift]

theorem endPosition_le_firstRow_iff {e : Encoding} {t : Text} {column : Nat} :
    endPosition e t ≤ ⟨0, column⟩ ↔ '\n' ∉ t ∧ e.len t ≤ column := by
  by_cases h : '\n' ∈ t
  · have hrow := row_endPosition e t
    have hpos := List.count_pos_iff.2 h
    rw [Position.le_iff]
    simp only [h, not_true_eq_false, false_and, iff_false]
    omega
  · rw [endPosition_of_notMem e h, Position.le_iff]
    simp [h]

theorem endPosition_lt_append (e : Encoding) (a : Text) {b : Text} (h : b ≠ []) :
    endPosition e a < endPosition e (a ++ b) := by
  rw [endPosition_append, Position.lt_iff, Position.shift]
  split
  next hrow =>
    have hn : '\n' ∉ b := by
      rw [← List.count_eq_zero, ← row_endPosition e b]
      exact hrow
    rw [endPosition_of_notMem e hn]
    exact Or.inr ⟨rfl, Nat.lt_add_of_pos_right (e.len_pos h)⟩
  next hrow => exact Or.inl (Nat.lt_add_of_pos_right (Nat.pos_of_ne_zero hrow))

theorem endPosition_mono (e : Encoding) {a b : Text} (h : a <+: b) :
    endPosition e a ≤ endPosition e b := by
  obtain ⟨c, rfl⟩ := h
  by_cases hc : c = []
  · simp [hc]
  · exact (endPosition_lt_append e a hc).le

/-- Leading parts of one text are ordered by the positions behind them. -/
theorem endPosition_le_endPosition_iff (e : Encoding) {a b t : Text} (ha : a <+: t) (hb : b <+: t) :
    endPosition e a ≤ endPosition e b ↔ a <+: b := by
  refine ⟨fun h => ?_, endPosition_mono e⟩
  rcases List.prefix_or_prefix_of_prefix ha hb with hab | ⟨c, rfl⟩
  · exact hab
  · by_cases hc : c = []
    · simp [hc]
    · exact absurd h (endPosition_lt_append e b hc).not_ge

theorem positionAt_size (e : Encoding) {a t : Text} (h : a <+: t) :
    positionAt e t (size a) = endPosition e a := by
  rw [positionAt, within_size h]

/-! ### The adjunction -/

/-- A character in front moves a position that is not in the first row down by at most a row. -/
theorem endPosition_cons_le_iff (e : Encoding) (c : Char) (a : Text) (row column : Nat) :
    endPosition e (c :: a) ≤ ⟨row + 1, column⟩ ↔
      endPosition e a ≤ ⟨if c = '\n' then row else row + 1, column⟩ := by
  rw [endPosition_cons, Position.next, Position.shift, Position.le_iff, Position.le_iff]
  by_cases h : c = '\n' <;> simp only [h, if_true, if_false] <;> split <;> simp only <;> omega

/-- The position behind a leading part is at most the given one exactly if the part is at most as
long as the offset of that position. -/
theorem endPosition_le_iff (e : Encoding) (a b : Text) (row column : Nat) :
    endPosition e a ≤ ⟨row, column⟩ ↔ size a ≤ offsetAtRow e (a ++ b) row column := by
  induction a generalizing row with
  | nil => exact iff_of_true (Position.zero_le _) (Nat.zero_le _)
  | cons c a ih =>
    cases row with
    | zero =>
      -- both sides say that the part is within the first line and within the column
      have hpre : c :: a <+: c :: (a ++ b) := List.prefix_append (c :: a) b
      have hcut : within e column (firstLine (c :: (a ++ b))) <+: c :: (a ++ b) :=
        (within_isPrefix _ _ _).trans (firstLine_isPrefix _)
      rw [List.cons_append, offsetAtRow, size_le_size_iff hpre hcut, prefix_within_iff,
        prefix_firstLine_iff, endPosition_le_firstRow_iff]
      simp only [hpre, true_and]
    | succ row =>
      rw [List.cons_append, offsetAtRow, size_cons, Nat.add_le_add_iff_left, ← ih,
        endPosition_cons_le_iff]

theorem isBoundary_offsetAtRow (e : Encoding) (t : Text) (row column : Nat) :
    IsBoundary t (offsetAtRow e t row column) := by
  induction t generalizing row with
  | nil => exact ⟨[], List.nil_prefix, by simp [offsetAtRow]⟩
  | cons c t ih =>
    cases row with
    | zero => exact ⟨_, (within_isPrefix _ _ _).trans (firstLine_isPrefix _), rfl⟩
    | succ row =>
      obtain ⟨a, ha, hsize⟩ := ih (if c = '\n' then row else row + 1)
      exact ⟨c :: a, List.cons_prefix_cons.2 ⟨rfl, ha⟩, by rw [size_cons, hsize, offsetAtRow]⟩

theorem isBoundary_offsetAt (e : Encoding) (t : Text) (p : Position) :
    IsBoundary t (offsetAt e t p) := isBoundary_offsetAtRow e t p.row p.column

theorem positionAt_le_iff (e : Encoding) {t : Text} {b : Nat} (hb : IsBoundary t b) (p : Position) :
    positionAt e t b ≤ p ↔ b ≤ offsetAt e t p := by
  obtain ⟨a, ⟨c, rfl⟩, rfl⟩ := hb
  rw [positionAt_size e (List.prefix_append a c)]
  exact endPosition_le_iff e a c p.row p.column

theorem isGreatest_offsetAt (e : Encoding) (t : Text) (p : Position) :
    IsGreatest {b | IsBoundary t b ∧ positionAt e t b ≤ p} (offsetAt e t p) := by
  have hb := isBoundary_offsetAt e t p
  exact ⟨⟨hb, (positionAt_le_iff e hb p).2 le_rfl⟩, fun b h => (positionAt_le_iff e h.1 p).1 h.2⟩

theorem offsetAt_mono (e : Encoding) (t : Text) {p q : Position} (h : p ≤ q) :
    offsetAt e t p ≤ offsetAt e t q := by
  have hb := isBoundary_offsetAt e t p
  exact (positionAt_le_iff e hb q).1 (((positionAt_le_iff e hb p).2 le_rfl).trans h)

theorem positionAt_mono (e : Encoding) (t : Text) {n m : Nat} (h : n ≤ m) :
    positionAt e t n ≤ positionAt e t m :=
  endPosition_mono e (within_mono .utf8 h t)

/-- There and back again is the boundary that was aimed at, or the one before it. -/
theorem offsetAt_positionAt (e : Encoding) (t : Text) (n : Nat) :
    offsetAt e t (positionAt e t n) = size (within .utf8 n t) := by
  have hcut := within_isPrefix .utf8 n t
  refine Nat.le_antisymm ?_ ?_
  · obtain ⟨a, ha, hsize⟩ := isBoundary_offsetAt e t (positionAt e t n)
    have hle : positionAt e t (size a) ≤ positionAt e t n :=
      (positionAt_le_iff e ⟨a, ha, rfl⟩ _).2 hsize.le
    rw [positionAt_size e ha] at hle
    rw [← hsize]
    exact Encoding.utf8.len_mono ((endPosition_le_endPosition_iff e ha hcut).1 hle)
  · have hb := isBoundary_size_within t n
    refine (positionAt_le_iff e hb _).1 ?_
    rw [positionAt_size e hcut, positionAt]

theorem offsetAt_positionAt_of_boundary (e : Encoding) {t : Text} {b : Nat} (hb : IsBoundary t b) :
    offsetAt e t (positionAt e t b) = b := by
  rw [offsetAt_positionAt, isBoundary_iff_size_within.1 hb]

end RubyLens.Text
