import RubyLens.Proofs.Text.EditFilter

/-!
The edits between two texts, in their order. They are made in one pass over the changes, in which an
edit that touches the last one goes into it (`Progress.step`); this comes to the edits for single
changes, joined (`edits_foldl_step`). So no edit touches the next one, and with a filter an edit
deletes nothing that starts outside of it: what a joined edit takes up, one of the edits that it was
made from takes up (`exists_of_mem_join`), and such an edit takes up no more than the character that
it was let through for (`Change.start_of_mem_patches`).

Main statement: `between_apart`.
-/

namespace RubyLens.Text

/-- A boundary in a character is where the character starts. -/
theorem IsBoundary.eq_size_of_lt {a b : Text} {c : Char} {n : Nat} (h : IsBoundary (a ++ c :: b) n)
    (hle : size a ≤ n) (hlt : n < size a + c.utf8Size) : n = size a := by
  obtain ⟨w, hw, rfl⟩ := h
  have hnext : a ++ [c] <+: a ++ c :: b := ⟨b, by simp⟩
  have hin : w <+: a ++ [c] := (size_le_size_iff hw hnext).1 (by rw [size_concat]; omega)
  rcases List.prefix_concat_iff.1 hin with rfl | hin
  · rw [size_concat] at hlt
    omega
  · exact Nat.le_antisymm (Encoding.utf8.len_mono hin) hle

/-- The characters of a text that start outside. The first one starts at byte `offset`. -/
def outside (inside : Nat → Bool) : Nat → Text → Text
  | _, [] => []
  | offset, c :: t =>
    if inside offset then outside inside (offset + c.utf8Size) t
    else c :: outside inside (offset + c.utf8Size) t

theorem outside_sublist (inside : Nat → Bool) (offset : Nat) (t : Text) :
    (outside inside offset t).Sublist t := by
  induction t generalizing offset with
  | nil => exact List.Sublist.refl []
  | cons c t ih =>
    rw [outside]
    split
    · exact (ih _).cons c
    · exact (ih _).cons_cons c

end RubyLens.Text

namespace RubyLens.Change

open Text (Patch IsBoundary size outside)

/-- A patch for a change starts where it is let through, and takes up no other character. -/
theorem start_of_mem_patches {t a : Text} {admitted : Nat → Bool} {cs : List Change} {p : Patch}
    (ht : t = a ++ oldText cs) (h : p ∈ patches admitted (size a) cs) :
    admitted p.span.start ∧
      ∀ n, IsBoundary t n → p.span.start ≤ n → n < p.span.stop → n = p.span.start := by
  induction cs generalizing a with
  | nil => cases h
  | cons change cs ih =>
    cases change with
    | keep c =>
      rw [patches, ← Text.size_concat] at h
      exact ih (by simpa [oldText] using ht) h
    | delete c =>
      have hrest (h : p ∈ patches admitted (size a + c.utf8Size) cs) := by
        rw [← Text.size_concat] at h
        exact ih (a := a ++ [c]) (by simpa [oldText] using ht) h
      rw [patches] at h
      split at h
      · next hin =>
        rcases List.mem_cons.1 h with rfl | h
        · exact ⟨hin, fun n hn => (ht ▸ hn : IsBoundary (a ++ c :: oldText cs) n).eq_size_of_lt⟩
        · exact hrest h
      · exact hrest h
    | insert c =>
      rw [patches] at h
      split at h
      · next hin =>
        rcases List.mem_cons.1 h with rfl | h
        · exact ⟨hin, fun n _ hle hlt => absurd hlt (Nat.not_lt.2 hle)⟩
        · exact ih ht h
      · exact ih ht h

/-- What is not let through stays. -/
theorem outside_sublist_partly (admitted : Nat → Bool) (offset : Nat) (cs : List Change) :
    (outside admitted offset (oldText cs)).Sublist (partly admitted offset cs) := by
  induction cs generalizing offset with
  | nil => exact List.Sublist.refl []
  | cons change cs ih =>
    cases change with
    | keep c =>
      rw [oldText, outside, partly]
      split
      · exact (ih _).cons c
      · exact (ih _).cons_cons c
    | delete c =>
      rw [oldText, outside, partly]
      split
      · exact ih _
      · exact (ih _).cons_cons c
    | insert c =>
      rw [oldText, partly]
      split
      · exact (ih _).cons c
      · exact ih _

end RubyLens.Change

namespace RubyLens.Edit

open Text (Patch FitsWire IsBoundary Successive rangeOf positionAt endPosition size)

/-! ### One pass -/

/-- One more edit, which goes into the last one if the two touch. -/
def extend : List Edit → Edit → List Edit
  | [], a => [a]
  | [b], a => if b.range.stop = a.range.start then [merge b a] else [b, a]
  | b :: c :: edits, a => b :: extend (c :: edits) a

/-- How far the changes have been gone through: the byte at which the next one begins, and the edits
so far. -/
structure Progress where
  offset : Nat
  edits : List Edit

namespace Progress

/-- The edits with one more, if the filter lets it through. -/
def withEdit (filter : Option Range) (s : Progress) (a : Edit) : List Edit :=
  if admits filter a.range.start then extend s.edits a else s.edits

/-- One more change. -/
def step (e : Encoding) (before : Text) (filter : Option Range) (s : Progress) : Change → Progress
  | .keep c => ⟨s.offset + c.utf8Size, s.edits⟩
  | .insert c => ⟨s.offset, s.withEdit filter ⟨rangeOf e before ⟨s.offset, s.offset⟩, [c]⟩⟩
  | .delete c =>
    ⟨s.offset + c.utf8Size,
      s.withEdit filter ⟨rangeOf e before ⟨s.offset, s.offset + c.utf8Size⟩, []⟩⟩

end Progress

/-- One more edit in front, which goes into the first one if the two touch. -/
def attach (a : Edit) : List Edit → List Edit
  | [] => [a]
  | b :: edits => if a.range.stop = b.range.start then merge a b :: edits else a :: b :: edits

theorem join_cons (a : Edit) (edits : List Edit) : join (a :: edits) = attach a (join edits) := rfl

/-- It does not matter on which side an edit is put first. -/
theorem attach_extend (a b : Edit) (edits : List Edit) :
    attach a (extend edits b) = extend (attach a edits) b := by
  cases edits with
  | nil => rfl
  | cons m edits =>
    cases edits with
    | nil =>
      by_cases ha : a.range.stop = m.range.start <;> by_cases hb : m.range.stop = b.range.start <;>
        simp [attach, extend, merge, ha, hb]
    | cons n edits => by_cases ha : a.range.stop = m.range.start <;> simp [attach, extend, ha]

theorem join_concat (edits : List Edit) (a : Edit) : join (edits ++ [a]) = extend (join edits) a := by
  induction edits with
  | nil => rfl
  | cons b edits ih => rw [List.cons_append, join_cons, ih, attach_extend, join_cons]

theorem foldl_extend (edits : List Edit) : edits.foldl extend [] = join edits := by
  induction edits using List.reverseRecOn with
  | nil => rfl
  | append_singleton edits a ih =>
    rw [List.foldl_append, ih, List.foldl_cons, List.foldl_nil, join_concat]

/-- **One pass.** The pass adds the edits for single changes, one by one. -/
theorem edits_foldl_step (e : Encoding) (before : Text) (filter : Option Range) (s : Progress)
    (cs : List Change) :
    (cs.foldl (Progress.step e before filter) s).edits =
      (single e before filter s.offset cs).foldl extend s.edits := by
  induction cs generalizing s with
  | nil => rfl
  | cons change cs ih =>
    rw [List.foldl_cons, ih]
    cases change with
    | keep c => rfl
    | insert c =>
      rw [single, Progress.step, Progress.withEdit]
      split <;> rfl
    | delete c =>
      rw [single, Progress.step, Progress.withEdit]
      split <;> rfl

theorem between_eq_pass (e : Encoding) {before after : Text} (changes : List Change)
    (filter : Option Range) (hne : before ≠ after) :
    between e before after changes filter =
      (changes.foldl (Progress.step e before filter) ⟨0, []⟩).edits := by
  rw [between, if_neg hne, edits_foldl_step, foldl_extend]

/-! ### What edits take up -/

/-- What a joined edit takes up, one of those it was made from takes up. -/
theorem exists_of_mem_join {edits : List Edit} {b : Edit} {p : Position} (h : b ∈ join edits)
    (hstart : b.range.start ≤ p) (hstop : p < b.range.stop) :
    ∃ a ∈ edits, a.range.start ≤ p ∧ p < a.range.stop := by
  induction edits generalizing b with
  | nil => cases h
  | cons a edits ih =>
    have hrest {c : Edit} (hc : c ∈ join edits) (hstart : c.range.start ≤ p)
        (hstop : p < c.range.stop) : ∃ d ∈ a :: edits, d.range.start ≤ p ∧ p < d.range.stop := by
      obtain ⟨d, hd, hin⟩ := ih hc hstart hstop
      exact ⟨d, List.mem_cons_of_mem a hd, hin⟩
    rw [join_cons] at h
    rcases hjoin : join edits with _ | ⟨m, more⟩
    · rw [hjoin] at h
      obtain rfl := List.mem_singleton.1 h
      exact ⟨b, List.mem_cons_self, hstart, hstop⟩
    · have hmem : ∀ c ∈ m :: more, c ∈ join edits := fun c hc => hjoin ▸ hc
      rw [hjoin, attach] at h
      split at h
      · next ht =>
        rcases List.mem_cons.1 h with rfl | h
        · -- the place is in front of where the two touch, or behind
          rcases lt_or_ge p a.range.stop with hp | hp
          · exact ⟨a, List.mem_cons_self, hstart, hp⟩
          · exact hrest (hmem m List.mem_cons_self) (ht ▸ hp) hstop
        · exact hrest (hmem b (List.mem_cons_of_mem m h)) hstart hstop
      · rcases List.mem_cons.1 h with rfl | h
        · exact ⟨b, List.mem_cons_self, hstart, hstop⟩
        · exact hrest (hmem b h) hstart hstop

theorem mem_between {e : Encoding} {before after : Text} {changes : List Change}
    {filter : Option Range} {a : Edit} :
    a ∈ between e before after changes filter ↔
      before ≠ after ∧ a ∈ join (single e before filter 0 changes) := by
  rw [between]
  split
  · next heq => simp [heq]
  · next hne => simp [hne]

theorem startsIn_of_mem_between {e : Encoding} {before after : Text} {changes : List Change}
    {r : Range} {a : Edit} (ha : a ∈ between e before after changes (some r)) : startsIn r a := by
  obtain ⟨b, hb, hstart⟩ := exists_start_of_mem_join (mem_between.1 ha).2
  rw [single_some] at hb
  rw [startsIn_congr hstart]
  exact (List.mem_filter.1 hb).2

section Fits

variable {e : Encoding} {before after : Text} {changes : List Change}
  (hold : Change.oldText changes = before) (hfit : FitsWire e before)

include hold hfit

theorem inOrder_single (filter : Option Range) : InOrder (single e before filter 0 changes) := by
  rw [single_eq_map]
  exact inOrder_map hfit (Change.successive_patches _ [] changes hold.symm)

/-- The edits are given forwards, and none touches the next. -/
theorem between_pairwise (after : Text) (filter : Option Range) :
    (∀ a ∈ between e before after changes filter, a.range.start ≤ a.range.stop) ∧
      (between e before after changes filter).Pairwise fun a b => a.range.stop < b.range.start := by
  rw [between]
  split
  · exact ⟨List.forall_mem_nil _, List.Pairwise.nil⟩
  · exact (inOrder_single hold hfit filter).join_apart

/-- What an edit takes up starts inside the filter. -/
theorem includes_of_mem_between {r : Range} {a : Edit}
    (ha : a ∈ between e before after changes (some r)) {n : Nat} (hn : IsBoundary before n)
    (hstart : a.range.start ≤ positionAt e before n) (hstop : positionAt e before n < a.range.stop) :
    r.includes (positionAt e before n) := by
  obtain ⟨b, hb, hstart, hstop⟩ := exists_of_mem_join (mem_between.1 ha).2 hstart hstop
  rw [single_eq_map] at hb
  obtain ⟨p, hp, rfl⟩ := List.mem_map.1 hb
  have hsucc := Change.successive_patches (fun n => admits (some r) (positionAt e before n).toWire)
    [] changes hold.symm
  obtain ⟨-, -, hpstart, hpstop⟩ := hsucc.of_mem p hp
  obtain ⟨hin, hself⟩ := Change.start_of_mem_patches (a := []) hold.symm hp
  simp only [ofPatch, hfit.rangeOf_eq] at hstart hstop
  have hle : p.span.start ≤ n := by
    by_contra hlt
    exact hstart.not_gt ((Text.positionAt_lt_iff e hn hpstart).2 (Nat.lt_of_not_le hlt))
  rw [hself n hn hle ((Text.positionAt_lt_iff e hn hpstop).1 hstop)]
  rwa [hfit.toWire_positionAt] at hin

/-- Edits start at boundaries. -/
theorem exists_boundary_of_mem_between {filter : Option Range} {a : Edit}
    (ha : a ∈ between e before after changes filter) :
    ∃ m, IsBoundary before m ∧ a.range.start = positionAt e before m := by
  obtain ⟨ps, hbetween, hsucc, -⟩ := between_eq_map filter hold hfit (mem_between.1 ha).1
  rw [hbetween] at ha
  obtain ⟨p, hp, rfl⟩ := List.mem_map.1 ha
  refine ⟨p.span.start, (hsucc.of_mem p hp).2.2.1, ?_⟩
  rw [ofPatch, hfit.rangeOf_eq]

/-- A character starts inside the filter, or an edit ends before it or starts behind it. -/
theorem includes_or_apart {r : Range} {a : Edit}
    (ha : a ∈ between e before after changes (some r)) {front behind : Text} {c : Char}
    (hc : before = front ++ c :: behind) :
    r.includes (endPosition e front) ∨ a.range.stop ≤ endPosition e front ∨
      endPosition e (front ++ [c]) ≤ a.range.start := by
  have hfront : front <+: before := hc ▸ List.prefix_append front (c :: behind)
  have hnext : front ++ [c] <+: before := ⟨behind, by rw [hc]; simp⟩
  obtain ⟨m, hm, hstart⟩ := exists_boundary_of_mem_between hold hfit ha
  rw [← Text.positionAt_size e hfront, ← Text.positionAt_size e hnext]
  by_cases hstop : a.range.stop ≤ positionAt e before (size front)
  · exact .inr (.inl hstop)
  by_cases hle : a.range.start ≤ positionAt e before (size front)
  · exact .inl (includes_of_mem_between hold hfit ha ⟨front, hfront, rfl⟩ hle (not_le.1 hstop))
  · -- the edit starts behind the start of the character, so not before its end
    rw [hstart, not_le, Text.positionAt_lt_iff e ⟨front, hfront, rfl⟩ hm] at hle
    rw [hstart]
    refine .inr (.inr (Text.positionAt_mono e before ?_))
    rw [Text.size_concat]
    by_contra hlt
    have heq := (hc ▸ hm : IsBoundary (front ++ c :: behind) m).eq_size_of_lt hle.le (not_le.1 hlt)
    omega

/-- What starts outside the filter stays. -/
theorem outside_sublist_applyAll (after : Text) (r : Range) :
    (Text.outside (fun n => r.includes (positionAt e before n)) 0 before).Sublist
      (applyAll e before (between e before after changes (some r))) := by
  by_cases hne : before = after
  · have hsame : applyAll e before [] = before := Text.beyond_size_append [] before
    rw [between, if_pos hne, hsame]
    exact Text.outside_sublist _ 0 before
  · obtain ⟨ps, hbetween, hsucc, hsame⟩ := between_eq_map (some r) hold hfit hne
    rw [applyAll, hbetween, patch_ofPatch hfit hsucc, hsame]
    have hstays :=
      Change.outside_sublist_partly (fun n => r.includes (positionAt e before n)) 0 changes
    rw [hold] at hstays
    exact hstays

end Fits

/-! ### Main statement -/

/-- **Edits are apart.** The edits between two texts are made in one pass over the changes. In a text
that fits the wire each of them is given forwards and ends before the next one starts. With a filter,
each of them starts in it, and takes up no character that starts outside of it, so that all such
characters stay. -/
theorem between_apart (e : Encoding) (before after : Text) (changes : List Change)
    (filter : Option Range) (hold : Change.oldText changes = before) (hfit : FitsWire e before) :
    let edits := between e before after changes filter
    edits = (if before = after then []
      else (changes.foldl (Progress.step e before filter) ⟨0, []⟩).edits) ∧
    (∀ a ∈ edits, a.range.start ≤ a.range.stop) ∧
    (edits.Pairwise fun a b => a.range.stop < b.range.start) ∧
    ∀ r ∈ filter,
      (∀ a ∈ edits, startsIn r a) ∧
      (∀ a ∈ edits, ∀ front c behind, before = front ++ c :: behind →
        r.includes (endPosition e front) ∨ a.range.stop ≤ endPosition e front ∨
          endPosition e (front ++ [c]) ≤ a.range.start) ∧
      (Text.outside (fun n => r.includes (positionAt e before n)) 0 before).Sublist
        (applyAll e before edits) := by
  intro edits
  obtain ⟨hforward, hapart⟩ := between_pairwise hold hfit after filter
  refine ⟨?_, hforward, hapart, ?_⟩
  · split
    · next heq => exact if_pos heq
    · next hne => exact between_eq_pass e changes filter hne
  · intro r hr
    obtain rfl : filter = some r := hr
    exact ⟨fun a ha => startsIn_of_mem_between ha,
      fun a ha front c behind hc => includes_or_apart hold hfit ha hc,
      outside_sublist_applyAll hold hfit after r⟩

/-- A range that ends in front of a line feed: the line feed goes, and the letter behind it stays. -/
theorem between_apart_lineEnd :
    let before : Text := ['é', 'a', '\n', 'b', 'c']
    let changes : List Change :=
      [.delete 'é', .insert 'x', .keep 'a', .delete '\n', .delete 'b', .keep 'c']
    let r : Range := ⟨⟨0, 0⟩, ⟨0, 2⟩⟩
    let edits : List Edit := [⟨⟨⟨0, 0⟩, ⟨0, 1⟩⟩, ['x']⟩, ⟨⟨⟨0, 2⟩, ⟨1, 0⟩⟩, []⟩]
    FitsWire .utf16 before ∧ between .utf16 before ['x', 'a', 'c'] changes (some r) = edits ∧
      (edits.Pairwise fun a b => a.range.stop < b.range.start) ∧ (∀ a ∈ edits, startsIn r a) ∧
      ['b', 'c'].Sublist (applyAll .utf16 before edits) := by
  intro before changes r edits
  have hfit : FitsWire .utf16 before := by decide
  have hedits : between .utf16 before ['x', 'a', 'c'] changes (some r) = edits := by decide
  obtain ⟨-, -, hapart, hfilter⟩ :=
    between_apart .utf16 before ['x', 'a', 'c'] changes (some r) rfl hfit
  obtain ⟨hin, -, hstays⟩ := hfilter r rfl
  rw [hedits] at hapart hin hstays
  exact ⟨hfit, hedits, hapart, hin, hstays⟩

end RubyLens.Edit
