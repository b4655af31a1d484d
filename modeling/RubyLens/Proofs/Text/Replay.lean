import RubyLens.Proofs.Text.Replacement

/-!
Edits made one after another. Each edit names its range in the text as it was before all of them. Made
from the last to the first they need no adjusting: a position depends only on what stands before it
(`positionAt_congr`), and an edit changes nothing in front of itself.

* `spanOf_rangeOf_congr`: the range of a span names the same span in every text that agrees with the
  first one up to its end;
* `apply_ofPatch`: what one edit does to a text that has been changed behind it;
* `applyAll_reverse_map`: what is left after all of them.

Main statement: `applyAll_reverse_edits`.
-/

namespace RubyLens.Text

/-! ### Texts that agree up to a place -/

theorem within_append_slice {t : Text} {s : Span} (h : IsBoundary t s.start)
    (hle : s.start ≤ s.stop) : within .utf8 s.start t ++ slice t s = within .utf8 s.stop t := by
  obtain ⟨a, ⟨b, rfl⟩, hsize⟩ := h
  have hstop : s.stop = size a + s.len := by rw [Span.len]; omega
  rw [slice, ← hsize, within_size_append, beyond_size_append, hstop]
  exact (within_len_add .utf8 a b s.len).symm

theorem positionAt_congr (e : Encoding) {a t u : Text} (ht : a <+: t) (hu : a <+: u) :
    positionAt e t (size a) = positionAt e u (size a) := by
  rw [positionAt_size e ht, positionAt_size e hu]

/-- The range of a span names the same span in every text that agrees with the first one up to the
end of the span. -/
theorem FitsWire.spanOf_rangeOf_congr {e : Encoding} {a t u : Text} (h : FitsWire e t)
    (ht : a <+: t) (hu : a <+: u) {s : Span} (hstart : IsBoundary t s.start)
    (hstop : size a = s.stop) (hle : s.start ≤ s.stop) : spanOf e u (rangeOf e t s) = s := by
  obtain ⟨b, hb, hsize⟩ := hstart
  have hba : b <+: a := (size_le_size_iff hb ht).1 (by omega)
  have hbu : b <+: u := hba.trans hu
  have hfirst : offsetAt e u (positionAt e t s.start) = s.start := by
    rw [← hsize, positionAt_congr e hb hbu]
    exact offsetAt_positionAt_of_boundary e ⟨b, hbu, rfl⟩
  have hlast : offsetAt e u (positionAt e t s.stop) = s.stop := by
    rw [← hstop, positionAt_congr e ht hu]
    exact offsetAt_positionAt_of_boundary e ⟨a, hu, rfl⟩
  rw [h.rangeOf_eq, spanOf, hfirst, hlast, Nat.min_eq_left hle, Nat.max_eq_right hle]

end RubyLens.Text

namespace RubyLens.ContentChange

open Text (Patch FitsWire IsBoundary Successive replaceFrom within size)
open Edit (ofPatch)

/-- An edit as it is reported by whoever has made it. -/
def ofEdit (a : Edit) : ContentChange := ⟨some a.range, a.text⟩

variable {e : Encoding} {t : Text}

/-- One edit, in a text that has been changed behind it. -/
theorem apply_ofPatch (hfit : FitsWire e t) {p : Patch} (hstart : IsBoundary t p.span.start)
    (hstop : IsBoundary t p.span.stop) (hle : p.span.start ≤ p.span.stop) (rest : Text) :
    apply e (within .utf8 p.span.stop t ++ rest) (ofEdit (ofPatch e t p)) =
      within .utf8 p.span.start t ++ p.text ++ rest := by
  obtain ⟨a, ha, hsize⟩ := hstop
  have hcut : within .utf8 p.span.stop t = a := by rw [← hsize, Text.within_size ha]
  obtain ⟨b, hb, hsizeb⟩ := hstart
  have hba : b <+: a := (Text.size_le_size_iff hb ha).1 (by omega)
  have hcutb : within .utf8 p.span.start t = b := by rw [← hsizeb, Text.within_size hb]
  have hspan : Text.spanOf e (a ++ rest) (Text.rangeOf e t p.span) = p.span :=
    hfit.spanOf_rangeOf_congr ha (List.prefix_append a rest) ⟨b, hb, hsizeb⟩ hsize hle
  have hfront : within .utf8 p.span.start (a ++ rest) = b := by
    rw [← hsizeb]
    exact Text.within_size (hba.trans (List.prefix_append a rest))
  have hbehind : Text.beyond .utf8 p.span.stop (a ++ rest) = rest := by
    rw [← hsize]
    exact Text.beyond_size_append a rest
  rw [hcut, hcutb]
  simp only [apply, ofEdit, ofPatch, hspan, Text.splice, hfront, hbehind]

/-- **The edits from byte `start` on, made from the last to the first.** What stands before `start`
is as it was, and behind it all of them have been made. -/
theorem applyAll_reverse_map (hfit : FitsWire e t) {start : Nat} {ps : List Patch}
    (hstart : IsBoundary t start) (h : Successive t start ps) :
    applyAll e t ((ps.map (ofPatch e t)).reverse.map ofEdit) =
      within .utf8 start t ++ replaceFrom t start ps := by
  induction ps generalizing start with
  | nil => exact (Text.within_append_beyond .utf8 start t).symm
  | cons p ps ih =>
    obtain ⟨hpos, hle, hfirst, hlast, hrest⟩ := h
    have hrun := ih hlast hrest
    rw [applyAll] at hrun
    rw [applyAll, List.map_cons, List.reverse_cons, List.map_append, List.foldl_append, hrun,
      List.map_singleton, List.foldl_cons, List.foldl_nil, apply_ofPatch hfit hfirst hlast hle,
      replaceFrom, ← List.append_assoc, ← List.append_assoc]
    congr 2
    exact (Text.within_append_slice (s := ⟨start, p.span.start⟩) hstart hpos).symm

/-! ### Main statement -/

/-- **Edits made one after another.** In a text that fits the wire, edits that follow one another can
be made one at a time from the last to the first, each by the range that it has in the text at the
start: the outcome is that of making all of them at once, whatever the encoding. The edits between
two texts so lead from the one to the other. -/
theorem applyAll_reverse_edits (before : Text) :
    (∀ (e : Encoding) (ps : List Patch), FitsWire e before → Successive before 0 ps →
      applyAll e before ((ps.map (ofPatch e before)).reverse.map ofEdit) =
        replaceFrom before 0 ps) ∧
    (∀ (e e' : Encoding) (ps : List Patch), FitsWire e before → FitsWire e' before →
      Successive before 0 ps →
      applyAll e before ((ps.map (ofPatch e before)).reverse.map ofEdit) =
        applyAll e' before ((ps.map (ofPatch e' before)).reverse.map ofEdit)) ∧
    (∀ (e : Encoding) (after : Text) (changes : List Change), FitsWire e before →
      Change.oldText changes = before → Change.newText changes = after →
      applyAll e before ((Edit.between e before after changes none).reverse.map ofEdit) =
        after) := by
  have hmap (e : Encoding) (ps : List Patch) (hfit : FitsWire e before)
      (h : Successive before 0 ps) :
      applyAll e before ((ps.map (ofPatch e before)).reverse.map ofEdit) =
        replaceFrom before 0 ps := by
    have hzero : IsBoundary before 0 := ⟨[], List.nil_prefix, rfl⟩
    rw [applyAll_reverse_map hfit hzero h, Text.within_zero, List.nil_append]
  refine ⟨hmap, fun e e' ps hfit hfit' h => ?_, fun e after changes hfit hold hnew => ?_⟩
  · rw [hmap e ps hfit h, hmap e' ps hfit' h]
  · by_cases hne : before = after
    · rw [Edit.between, if_pos hne]
      exact hne
    · obtain ⟨ps, hbetween, hsucc, hsame⟩ := Edit.between_eq_map none hold hfit hne
      have hall := Change.partly_of_all
        (fun _ => rfl : ∀ n, Edit.admits none (Text.positionAt e before n) = true)
      rw [hbetween, hmap e ps hfit hsucc, hsame, hall, hnew]

/-- Two edits that touch, with a line feed and a character of two units among what they insert, and
a third one in the line below. -/
theorem applyAll_reverse_edits_touching :
    let before : Text := ['a', '😀', '\n', 'b']
    let ps : List Patch := [⟨⟨0, 1⟩, ['x', '\n', '😀']⟩, ⟨⟨1, 5⟩, ['é']⟩, ⟨⟨6, 7⟩, ['\n']⟩]
    let after : Text := ['x', '\n', '😀', 'é', '\n', '\n']
    FitsWire .utf16 before ∧ Successive before 0 ps ∧
      applyAll .utf16 before ((ps.map (ofPatch .utf16 before)).reverse.map ofEdit) = after ∧
      applyAll .utf8 before ((ps.map (ofPatch .utf8 before)).reverse.map ofEdit) = after ∧
      applyAll .utf16 before ((Edit.between .utf16 before ['b', '\n', 'b']
        [.delete 'a', .insert 'b', .delete '😀', .keep '\n', .keep 'b'] none).reverse.map ofEdit) =
        ['b', '\n', 'b'] := by
  intro before ps after
  have hfit (e : Encoding) : FitsWire e before := by cases e <;> decide
  have hsucc : Successive before 0 ps := by simp only [Successive, ps]; decide
  obtain ⟨hmap, hsame, hbetween⟩ := applyAll_reverse_edits before
  refine ⟨hfit .utf16, hsucc, (hmap .utf16 ps (hfit _) hsucc).trans (by decide), ?_,
    hbetween .utf16 _ _ (hfit _) rfl rfl⟩
  rw [hsame .utf8 .utf16 ps (hfit _) (hfit _) hsucc]
  exact (hmap .utf16 ps (hfit _) hsucc).trans (by decide)

end RubyLens.ContentChange
