import RubyLens.Proofs.Text.Positions

/-!
Conversions by an index of the line starts. A position is looked up as its row in the index and then
by walking over the characters of that line; an offset is moved back to a boundary, its row is found
by its place among the line starts, and its column is measured from there. Both cut pieces out of
the text at offsets they have computed, and a piece can only be cut out between two boundaries.

Main statement: `offsetAt_positionAt_adjoint`, with both conversions adjoint to each other, and the
reading by index, which never cuts where it must not, equal to them.
-/

namespace RubyLens.Text

/-! ### The conversions, by index -/

/-- The part of a text between two offsets, which must be boundaries in the right order. -/
def slice? (t : Text) (s : Span) : Option Text :=
  if IsBoundary t s.start ∧ IsBoundary t s.stop ∧ s.start ≤ s.stop then some (slice t s) else none

/-- The span of a row without its line feed. -/
def lineSpan? (t : Text) (row : Nat) : Option Span :=
  match (lineStarts t)[row]? with
  | none => none
  | some start =>
    match (lineStarts t)[row + 1]? with
    | none => some ⟨start, size t⟩
    | some next => some ⟨start, next - 1⟩

/-- The row whose line holds an offset: the last one that does not start behind it. In an index in
order this is the place at which the offset is found, or else the one before where it belongs. -/
def rowOf (t : Text) (offset : Nat) : Nat := (lineStarts t).countP (· ≤ offset) - 1

/-- Walks over the characters of a line up to a column. The walk has come by `units` and is at byte
`index`; it ends at the column, or before a character that goes past it. -/
def walk (e : Encoding) (column : Nat) : Nat → Nat → Text → Nat
  | _, index, [] => index
  | units, index, c :: line =>
    if column ≤ units then index
    else if column < units + e.charLen c then index
    else walk e column (units + e.charLen c) (index + c.utf8Size) line

def indexedOffset? (e : Encoding) (t : Text) (p : Position) : Option Nat :=
  match lineSpan? t p.row with
  | none => some (size t)
  | some line => (slice? t line).map fun s => line.start + walk e p.column 0 0 s

def indexedPosition? (e : Encoding) (t : Text) (offset : Nat) : Option Position :=
  let offset := Nat.findGreatest (IsBoundary t) (min offset (size t))
  let row := rowOf t offset
  let start := (lineSpan? t row).elim 0 Span.start
  (slice? t ⟨start, offset⟩).map fun s => ⟨row, e.len s⟩

/-! ### Lines -/

/-- The line in a row of `t`, with what stands before and behind it. -/
structure LineAt (t : Text) (row : Nat) (before line rest : Text) : Prop where
  text_eq : t = before ++ line ++ rest
  start : before = [] ∧ row = 0 ∨ ∃ a, before = a ++ ['\n'] ∧ row = a.count '\n' + 1
  notMem : '\n' ∉ line
  stop : rest = [] ∨ ∃ b, rest = '\n' :: b

theorem LineAt.count_before {t before line rest : Text} {row : Nat}
    (h : LineAt t row before line rest) : before.count '\n' = row := by
  rcases h.start with ⟨rfl, rfl⟩ | ⟨a, rfl, rfl⟩ <;> simp

theorem firstLine_append_rest (t : Text) :
    ∃ rest, t = firstLine t ++ rest ∧ (rest = [] ∨ ∃ b, rest = '\n' :: b) := by
  refine ⟨t.dropWhile (· != '\n'), List.takeWhile_append_dropWhile.symm, ?_⟩
  rcases h : t.dropWhile (· != '\n') with _ | ⟨c, b⟩
  · exact Or.inl rfl
  · have hc := List.head?_dropWhile_not (· != '\n') t
    rw [h] at hc
    simp only [List.head?_cons, bne_eq_false_iff_eq] at hc
    exact Or.inr ⟨b, by rw [hc]⟩

/-- Every row up to the number of line feeds has its line. -/
theorem exists_lineAt {t : Text} {row : Nat} (h : row ≤ t.count '\n') :
    ∃ before line rest, LineAt t row before line rest := by
  induction row with
  | zero =>
    obtain ⟨rest, ht, hrest⟩ := firstLine_append_rest t
    exact ⟨[], firstLine t, rest, ht, Or.inl ⟨rfl, rfl⟩, newline_notMem_firstLine t, hrest⟩
  | succ row ih =>
    obtain ⟨before, line, rest, hl⟩ := ih (by omega)
    have hcount : (before ++ line).count '\n' = row := by
      rw [List.count_append, hl.count_before, List.count_eq_zero.2 hl.notMem, Nat.add_zero]
    -- the line feed of the next row is what ends this line
    obtain ⟨b, rfl⟩ : ∃ b, rest = '\n' :: b := by
      rcases hl.stop with rfl | hb
      · rw [hl.text_eq, List.append_nil, hcount] at h
        omega
      · exact hb
    obtain ⟨rest, hb, hrest⟩ := firstLine_append_rest b
    refine ⟨before ++ line ++ ['\n'], firstLine b, rest, ?_, Or.inr ⟨before ++ line, rfl, ?_⟩,
      newline_notMem_firstLine b, hrest⟩
    · conv_lhs => rw [hl.text_eq, hb]
      simp
    · rw [hcount]

/-- The end of a leading part lies in the line of its last row. -/
theorem exists_lineAt_of_isPrefix {w t : Text} (h : w <+: t) :
    ∃ before line line' rest, w = before ++ line ∧
      LineAt t (w.count '\n') before (line ++ line') rest := by
  obtain ⟨post, rfl⟩ := h
  obtain ⟨before, line, rest, hw⟩ := exists_lineAt (le_refl (w.count '\n'))
  have hrest : rest = [] := by
    rcases hw.stop with hr | ⟨b, rfl⟩
    · exact hr
    · have hcount := congrArg (List.count '\n') hw.text_eq
      rw [List.count_append, List.count_append, hw.count_before, List.count_cons_self] at hcount
      omega
  have hsplit : w = before ++ line := by simpa [hrest] using hw.text_eq
  obtain ⟨rest', hpost, hrest'⟩ := firstLine_append_rest post
  refine ⟨before, line, firstLine post, rest', hsplit, ?_, hw.start, ?_, hrest'⟩
  · conv_lhs => rw [hpost, hsplit]
    simp
  · simp [hw.notMem, newline_notMem_firstLine]

/-! ### The index -/

theorem length_lineStartsFrom (base : Nat) (t : Text) :
    (lineStartsFrom base t).length = t.count '\n' := by
  induction t generalizing base with
  | nil => rfl
  | cons c t ih =>
    rw [lineStartsFrom]
    by_cases h : c = '\n'
    · simp [h, ih]
    · simp [h, ih]

theorem getElem?_lineStartsFrom (base : Nat) (a b : Text) :
    (lineStartsFrom base (a ++ '\n' :: b))[a.count '\n']? = some (base + size (a ++ ['\n'])) := by
  induction a generalizing base with
  | nil => simp [lineStartsFrom]
  | cons c a ih =>
    rw [List.cons_append, lineStartsFrom]
    by_cases h : c = '\n'
    · subst h
      simp [ih, Nat.add_assoc]
    · simp [h, ih, Nat.add_assoc]

theorem lt_of_mem_lineStartsFrom {base x : Nat} {t : Text} (h : x ∈ lineStartsFrom base t) :
    base < x := by
  induction t generalizing base with
  | nil => simp [lineStartsFrom] at h
  | cons c t ih =>
    have hc := c.utf8Size_pos
    rw [lineStartsFrom] at h
    split at h
    · rcases List.mem_cons.1 h with rfl | h
      · omega
      · have := ih h
        omega
    · have := ih h
      omega

/-- The line starts stand in order, so that a row can be found by bisection. -/
theorem pairwise_lineStarts (t : Text) : (lineStarts t).Pairwise (· < ·) := by
  have hfrom : ∀ base, (lineStartsFrom base t).Pairwise (· < ·) := by
    induction t with
    | nil => exact fun _ => List.Pairwise.nil
    | cons c t ih =>
      intro base
      rw [lineStartsFrom]
      split
      · exact List.Pairwise.cons (fun x hx => lt_of_mem_lineStartsFrom hx) (ih _)
      · exact ih _
  exact List.Pairwise.cons (fun x hx => lt_of_mem_lineStartsFrom hx) (hfrom 0)

/-- Line starts up to the end of a leading part stand behind its line feeds. -/
theorem countP_lineStartsFrom (base : Nat) (a b : Text) :
    (lineStartsFrom base (a ++ b)).countP (· ≤ base + size a) = a.count '\n' := by
  induction a generalizing base with
  | nil =>
    rw [List.count_nil, List.countP_eq_zero]
    intro x hx
    have := lt_of_mem_lineStartsFrom hx
    rw [decide_eq_true_eq, size_nil]
    omega
  | cons c a ih =>
    have ih := ih (base + c.utf8Size)
    rw [List.cons_append, lineStartsFrom, size_cons, ← Nat.add_assoc]
    by_cases h : c = '\n'
    · subst h
      rw [if_pos rfl, List.countP_cons_of_pos (by simp), ih, List.count_cons_self]
    · rw [if_neg h, ih, List.count_cons_of_ne h]

theorem rowOf_size {a t : Text} (h : a <+: t) : rowOf t (size a) = a.count '\n' := by
  obtain ⟨b, rfl⟩ := h
  have hcount := countP_lineStartsFrom 0 a b
  rw [Nat.zero_add] at hcount
  rw [rowOf, lineStarts, List.countP_cons_of_pos (by simp), hcount, Nat.add_sub_cancel]

theorem getElem?_lineStarts_eq_none {t : Text} {row : Nat} (h : t.count '\n' < row) :
    (lineStarts t)[row]? = none := by
  rw [List.getElem?_eq_none_iff, lineStarts, List.length_cons, length_lineStartsFrom]
  omega

theorem offsetAtRow_zero (e : Encoding) (t : Text) (column : Nat) :
    offsetAtRow e t 0 column = size (within e column (firstLine t)) := by
  cases t <;> rfl

theorem offsetAtRow_newline (e : Encoding) (a t : Text) (column : Nat) :
    offsetAtRow e (a ++ '\n' :: t) (a.count '\n' + 1) column =
      size (a ++ ['\n']) + offsetAtRow e t 0 column := by
  induction a with
  | nil => simp [offsetAtRow]
  | cons c a ih =>
    rw [List.cons_append, List.cons_append, offsetAtRow, size_cons, Nat.add_assoc]
    by_cases h : c = '\n'
    · rw [if_pos h, h, List.count_cons_self, ih]
    · rw [if_neg h, List.count_cons_of_ne h, ih]

namespace LineAt

variable {t before line rest : Text} {row : Nat} (h : LineAt t row before line rest)

include h

theorem endPosition_before (e : Encoding) : endPosition e before = ⟨row, 0⟩ := by
  rcases h.start with ⟨rfl, rfl⟩ | ⟨a, rfl, rfl⟩
  · rfl
  · rw [Text.endPosition_append, ← row_endPosition e a]
    rfl

/-- Within the line the column is the length from its start. -/
theorem endPosition_append {a b : Text} (hab : line = a ++ b) (e : Encoding) :
    endPosition e (before ++ a) = ⟨row, e.len a⟩ := by
  have ha : '\n' ∉ a := fun hn => h.notMem (hab ▸ List.mem_append_left b hn)
  rw [Text.endPosition_append, h.endPosition_before, endPosition_of_notMem e ha]
  simp [Position.shift]

theorem getElem?_lineStarts : (lineStarts t)[row]? = some (size before) := by
  rcases h.start with ⟨rfl, rfl⟩ | ⟨a, rfl, rfl⟩
  · rfl
  · have := getElem?_lineStartsFrom 0 a (line ++ rest)
    rw [lineStarts, List.getElem?_cons_succ, h.text_eq]
    simpa using this

/-- The index gives the span of the line. -/
theorem lineSpan?_eq : lineSpan? t row = some ⟨size before, size (before ++ line)⟩ := by
  have hcount : (before ++ line).count '\n' = row := by
    rw [List.count_append, h.count_before, List.count_eq_zero.2 h.notMem, Nat.add_zero]
  rw [lineSpan?, h.getElem?_lineStarts]
  rcases h.stop with hr | ⟨b, hr⟩
  · have hnone : (lineStarts t)[row + 1]? = none :=
      getElem?_lineStarts_eq_none (by rw [h.text_eq, hr, List.append_nil, hcount]; omega)
    rw [hnone, h.text_eq, hr, List.append_nil]
  · have hnext := getElem?_lineStartsFrom 0 (before ++ line) b
    rw [hcount, ← hr, ← h.text_eq] at hnext
    have hsize : 0 + size (before ++ line ++ ['\n']) = size (before ++ line) + 1 := by
      rw [Nat.zero_add, size_append, size_cons, size_nil]
      rfl
    rw [lineStarts, List.getElem?_cons_succ, hnext, hsize]
    rfl

/-- A position is looked for from the start of its line. -/
theorem offsetAt_eq (e : Encoding) (column : Nat) :
    offsetAt e t ⟨row, column⟩ = size before + size (within e column line) := by
  have hline : firstLine (line ++ rest) = line := by
    rw [firstLine_append h.notMem]
    rcases h.stop with rfl | ⟨b, rfl⟩ <;> simp [firstLine]
  rw [offsetAt, h.text_eq]
  rcases h.start with ⟨rfl, rfl⟩ | ⟨a, rfl, rfl⟩
  · rw [List.nil_append, offsetAtRow_zero, hline, size_nil, Nat.zero_add]
  · rw [List.append_assoc, List.append_assoc, List.singleton_append, offsetAtRow_newline,
      offsetAtRow_zero, hline]

end LineAt

/-! ### Cutting out -/

theorem slice?_append (a b c : Text) :
    slice? (a ++ b ++ c) ⟨size a, size (a ++ b)⟩ = some b := by
  have hstart : IsBoundary (a ++ b ++ c) (size a) := by
    rw [List.append_assoc]
    exact isBoundary_size_append a (b ++ c)
  have hstop : IsBoundary (a ++ b ++ c) (size (a ++ b)) := isBoundary_size_append (a ++ b) c
  have hle : size a ≤ size (a ++ b) := by rw [size_append]; omega
  have hlen : size (a ++ b) - size a = size b := by rw [size_append]; omega
  rw [slice?, if_pos ⟨hstart, hstop, hle⟩, slice, Span.len, List.append_assoc, beyond_size_append,
    hlen, within_size_append]

theorem walk_eq (e : Encoding) (column units index : Nat) (line : Text) :
    walk e column units index line = index + size (within e (column - units) line) := by
  induction line generalizing units index with
  | nil => simp [walk, within]
  | cons c line ih =>
    have hc := e.charLen_pos c
    rw [walk, within]
    split
    · rw [if_neg (by omega), size_nil, Nat.add_zero]
    · split
      · rw [if_neg (by omega), size_nil, Nat.add_zero]
      · rw [if_pos (by omega), ih, size_cons, Nat.sub_add_eq, Nat.add_assoc]

/-- Stepping back from an offset one byte at a time leads to the greatest boundary up to it. -/
theorem findGreatest_isBoundary (t : Text) (n : Nat) :
    Nat.findGreatest (IsBoundary t) (min n (size t)) = size (within .utf8 n t) := by
  obtain ⟨⟨hb, hle⟩, hmax⟩ := isGreatest_size_within t n
  refine Nat.le_antisymm (hmax ⟨?_, Nat.findGreatest_le _⟩) (Nat.le_findGreatest hle hb)
  exact Nat.findGreatest_spec hle hb

/-- The end of the text is before every position of a row that is not there. -/
theorem offsetAt_of_count_lt (e : Encoding) {t : Text} {p : Position} (h : t.count '\n' < p.row) :
    offsetAt e t p = size t := by
  have hend : endPosition e t ≤ p := by
    rw [Position.le_iff, row_endPosition]
    omega
  have hle := (endPosition_le_iff e t [] p.row p.column).1 hend
  rw [List.append_nil] at hle
  exact Nat.le_antisymm (isBoundary_offsetAt e t p).le_size hle

theorem indexedOffset?_eq (e : Encoding) (t : Text) (p : Position) :
    indexedOffset? e t p = some (offsetAt e t p) := by
  by_cases hrow : p.row ≤ t.count '\n'
  · obtain ⟨before, line, rest, h⟩ := exists_lineAt hrow
    have hslice : slice? t ⟨size before, size (before ++ line)⟩ = some line := by
      rw [h.text_eq]
      exact slice?_append before line rest
    rw [indexedOffset?, h.lineSpan?_eq]
    simp only [hslice, Option.map_some, walk_eq, Nat.zero_add, Nat.sub_zero]
    rw [← h.offsetAt_eq e p.column]
  · have hnone : (lineStarts t)[p.row]? = none := getElem?_lineStarts_eq_none (by omega)
    rw [indexedOffset?, lineSpan?, hnone, offsetAt_of_count_lt e (by omega)]

theorem indexedPosition?_eq (e : Encoding) (t : Text) (n : Nat) :
    indexedPosition? e t n = some (positionAt e t n) := by
  obtain ⟨before, line, line', rest, hcut, h⟩ :=
    exists_lineAt_of_isPrefix (within_isPrefix .utf8 n t)
  have hrow : rowOf t (size (before ++ line)) = (before ++ line).count '\n' := by
    rw [← hcut]
    exact rowOf_size (within_isPrefix .utf8 n t)
  have hslice : slice? t ⟨size before, size (before ++ line)⟩ = some line := by
    rw [h.text_eq, ← List.append_assoc before, List.append_assoc (before ++ line)]
    exact slice?_append before line (line' ++ rest)
  rw [hcut] at h
  rw [indexedPosition?, findGreatest_isBoundary, hcut, hrow, h.lineSpan?_eq]
  simp only [Option.elim_some, hslice, Option.map_some]
  rw [positionAt, hcut, h.endPosition_append rfl]

/-! ### Main statement -/

/-- **Offsets and positions are adjoint.** The offset of a position is the greatest boundary whose
position is not behind it. Hence both conversions are monotone, the position of an offset leads back
to the greatest boundary up to it, and reading by index finds a piece between two boundaries
wherever it cuts one out. -/
theorem offsetAt_positionAt_adjoint (e : Encoding) (t : Text) :
    (∀ p, IsBoundary t (offsetAt e t p) ∧ offsetAt e t p ≤ size t) ∧
    (∀ p, IsGreatest {b | IsBoundary t b ∧ positionAt e t b ≤ p} (offsetAt e t p)) ∧
    (∀ b p, IsBoundary t b → (positionAt e t b ≤ p ↔ b ≤ offsetAt e t p)) ∧
    Monotone (offsetAt e t) ∧ Monotone (positionAt e t) ∧
    (∀ n, IsGreatest {b | IsBoundary t b ∧ b ≤ min n (size t)} (offsetAt e t (positionAt e t n))) ∧
    (lineStarts t).Pairwise (· < ·) ∧
    (∀ p, indexedOffset? e t p = some (offsetAt e t p)) ∧
    (∀ n, indexedPosition? e t n = some (positionAt e t n)) := by
  refine ⟨fun p => ?_, isGreatest_offsetAt e t, fun b p hb => positionAt_le_iff e hb p,
    fun p q => offsetAt_mono e t, fun n m => positionAt_mono e t, fun n => ?_,
    pairwise_lineStarts t, indexedOffset?_eq e t, indexedPosition?_eq e t⟩
  · have hb := isBoundary_offsetAt e t p
    exact ⟨hb, hb.le_size⟩
  · rw [offsetAt_positionAt]
    exact isGreatest_size_within t n

/-- A column inside a surrogate pair belongs to the boundary before it. -/
theorem offsetAt_positionAt_adjoint_surrogates :
    IsBoundary ['é', '\n', '😀'] 7 ∧ (positionAt .utf16 ['é', '\n', '😀'] 7 ≤ ⟨1, 1⟩ ↔
      7 ≤ offsetAt .utf16 ['é', '\n', '😀'] ⟨1, 1⟩) ∧
    offsetAt .utf16 ['é', '\n', '😀'] ⟨1, 1⟩ = 3 :=
  ⟨by decide, (offsetAt_positionAt_adjoint .utf16 ['é', '\n', '😀']).2.2.1 7 ⟨1, 1⟩ (by decide),
    by decide⟩

end RubyLens.Text
