import Mathlib.Data.List.Chain
import RubyLens.Proofs.Text.Replacement

/-!
A filter and the joining of edits. A range lets through the changes that start in it, one character
at a time, and only what is left is joined. Taking those of the joined edits that start in the range
is something else: a replacement that reaches over an end of the range is then taken whole or not at
all, while the filter cuts it in two.

Main statement: `between_filter_iff`, which says exactly when the two agree, namely if no two
changes that touch lie on different sides of an end of the range.
-/

namespace RubyLens.Edit

open Text (Patch FitsWire rangeOf positionAt Successive IsBoundary)

/-! ### Edits in order -/

/-- The edits are given forwards, and none starts before the end of an earlier one. -/
structure InOrder (edits : List Edit) : Prop where
  forward : ∀ a ∈ edits, a.range.start ≤ a.range.stop
  apart : edits.Pairwise fun a b => a.range.stop ≤ b.range.start

/-- The edit deletes or inserts something. -/
def Changes (a : Edit) : Prop := a.range.start < a.range.stop ∨ a.text ≠ []

theorem InOrder.tail {a : Edit} {edits : List Edit} (h : InOrder (a :: edits)) : InOrder edits :=
  ⟨fun b hb => h.forward b (List.mem_cons_of_mem a hb), (List.pairwise_cons.1 h.apart).2⟩

/-- An edit that does not touch the next one ends before all that follow. -/
theorem InOrder.stop_lt {a b : Edit} {edits : List Edit} (h : InOrder (a :: b :: edits))
    (hne : a.range.stop ≠ b.range.start) : ∀ c ∈ b :: edits, a.range.stop < c.range.start := by
  have hab : a.range.stop < b.range.start :=
    lt_of_le_of_ne ((List.pairwise_cons.1 h.apart).1 b List.mem_cons_self) hne
  intro c hc
  rcases List.mem_cons.1 hc with rfl | hc
  · exact hab
  · have hb := h.forward b (List.mem_cons_of_mem a List.mem_cons_self)
    exact hab.trans_le (hb.trans ((List.pairwise_cons.1 h.tail.apart).1 c hc))

/-! ### What joining keeps -/

theorem exists_join_cons (a : Edit) (edits : List Edit) :
    ∃ b more, join (a :: edits) = b :: more ∧ b.range.start = a.range.start := by
  rw [join]
  split
  · exact ⟨a, [], rfl, rfl⟩
  · split
    · exact ⟨_, _, rfl, rfl⟩
    · exact ⟨a, _, rfl, rfl⟩

/-- A joined edit starts where one of those it was made from starts. -/
theorem exists_start_of_mem_join {edits : List Edit} {b : Edit} (h : b ∈ join edits) :
    ∃ a ∈ edits, b.range.start = a.range.start := by
  induction edits with
  | nil => simp [join] at h
  | cons a edits ih =>
    have hrest (hb : b ∈ join edits) : ∃ c ∈ a :: edits, b.range.start = c.range.start := by
      obtain ⟨c, hc, hbc⟩ := ih hb
      exact ⟨c, List.mem_cons_of_mem a hc, hbc⟩
    rw [join] at h
    split at h
    · exact ⟨a, List.mem_cons_self, by rw [List.mem_singleton.1 h]⟩
    next c more hjoin =>
      split at h
      · rcases List.mem_cons.1 h with rfl | h
        · exact ⟨a, List.mem_cons_self, rfl⟩
        · exact hrest (hjoin ▸ List.mem_cons_of_mem c h)
      · rcases List.mem_cons.1 h with rfl | h
        · exact ⟨b, List.mem_cons_self, rfl⟩
        · exact hrest (hjoin ▸ h)

/-- Joined edits are given forwards, and none touches the next. -/
theorem InOrder.join_apart {edits : List Edit} (h : InOrder edits) :
    (∀ b ∈ join edits, b.range.start ≤ b.range.stop) ∧
      (join edits).Pairwise fun a b => a.range.stop < b.range.start := by
  induction edits with
  | nil => simp [join]
  | cons a edits ih =>
    obtain ⟨hforward, hapart⟩ := ih h.tail
    have ha := h.forward a List.mem_cons_self
    have hbehind : ∀ b ∈ join edits, a.range.stop ≤ b.range.start := by
      intro b hb
      obtain ⟨c, hc, hbc⟩ := exists_start_of_mem_join hb
      rw [hbc]
      exact (List.pairwise_cons.1 h.apart).1 c hc
    rcases hjoin : join edits with _ | ⟨b, more⟩
    · rw [join_cons_of_apart (by simp [hjoin]), hjoin]
      simpa using ha
    · rw [hjoin] at hforward hapart hbehind
      have hb := hforward b List.mem_cons_self
      by_cases ht : a.range.stop = b.range.start
      · rw [join_cons_of_touching hjoin ht]
        refine ⟨fun c hc => ?_, List.pairwise_cons.2 (List.pairwise_cons.1 hapart)⟩
        rcases List.mem_cons.1 hc with rfl | hc
        · exact ha.trans (ht.trans_le hb)
        · exact hforward c (List.mem_cons_of_mem b hc)
      · rw [join_cons_of_apart (by simpa [hjoin] using ht), hjoin]
        have hab : a.range.stop < b.range.start :=
          lt_of_le_of_ne (hbehind b List.mem_cons_self) ht
        refine ⟨?_, List.pairwise_cons.2 ⟨fun c hc => ?_, hapart⟩⟩
        · intro c hc
          rcases List.mem_cons.1 hc with rfl | hc
          · exact ha
          · exact hforward c hc
        · rcases List.mem_cons.1 hc with rfl | hc
          · exact hab
          · exact hab.trans (hb.trans_lt ((List.pairwise_cons.1 hapart).1 c hc))

theorem InOrder.changes_of_mem_join {edits : List Edit} (h : InOrder edits)
    (hc : ∀ a ∈ edits, Changes a) : ∀ b ∈ join edits, Changes b := by
  induction edits with
  | nil => simp [join]
  | cons a edits ih =>
    have ih := ih h.tail fun b hb => hc b (List.mem_cons_of_mem a hb)
    have ha := hc a List.mem_cons_self
    rcases hjoin : join edits with _ | ⟨b, more⟩
    · rw [join_cons_of_apart (by simp [hjoin]), hjoin]
      simpa using ha
    · by_cases ht : a.range.stop = b.range.start
      · rw [join_cons_of_touching hjoin ht]
        intro c hc
        rcases List.mem_cons.1 hc with rfl | hc
        · have hb : b.range.start ≤ b.range.stop :=
            h.tail.join_apart.1 b (hjoin ▸ List.mem_cons_self)
          rcases ha with ha | ha
          · exact Or.inl (ha.trans_le (ht.trans_le hb))
          · exact Or.inr fun htext => ha (List.append_eq_nil_iff.1 htext).1
        · exact ih c (hjoin ▸ List.mem_cons_of_mem b hc)
      · rw [join_cons_of_apart (by simpa [hjoin] using ht)]
        intro c hc
        rcases List.mem_cons.1 hc with rfl | hc
        · exact ha
        · exact ih c hc

/-! ### Filtering -/

/-- The edit starts in the range. -/
def startsIn (r : Range) (a : Edit) : Bool := r.includes a.range.start

/-- Two edits that touch lie on the same side of the ends of the range. -/
def Together (r : Range) (a b : Edit) : Prop :=
  a.range.stop = b.range.start → startsIn r a = startsIn r b

theorem startsIn_iff {r : Range} {a : Edit} :
    startsIn r a = true ↔ r.start ≤ a.range.start ∧ a.range.start ≤ r.stop := by
  simp [startsIn, Range.includes]

theorem startsIn_congr {r : Range} {a b : Edit} (h : a.range.start = b.range.start) :
    startsIn r a = startsIn r b := by
  rw [startsIn, startsIn, h]

/-- Once an edit starts behind the range, all that follow do. -/
theorem InOrder.filter_eq_nil {r : Range} {b : Edit} {edits : List Edit} (h : InOrder (b :: edits))
    (hb : ¬ b.range.start ≤ r.stop) : (b :: edits).filter (startsIn r) = [] := by
  rw [List.filter_eq_nil_iff]
  intro c hc hin
  have hle : b.range.start ≤ c.range.start := by
    rcases List.mem_cons.1 hc with rfl | hc
    · exact le_rfl
    · exact (h.forward b List.mem_cons_self).trans ((List.pairwise_cons.1 h.apart).1 c hc)
  exact hb (hle.trans (startsIn_iff.1 hin).2)

theorem startsIn_merge (r : Range) (a b : Edit) : startsIn r (merge a b) = startsIn r a := rfl

theorem merge_inj {a b c : Edit} (h : b.range.start = c.range.start) :
    merge a b = merge a c ↔ b = c := by
  obtain ⟨⟨bstart, bstop⟩, btext⟩ := b
  obtain ⟨⟨cstart, cstop⟩, ctext⟩ := c
  obtain rfl : bstart = cstart := h
  simp [merge]

section Cons

variable {r : Range} {a b : Edit} {edits : List Edit}

/-- An edit that touches nothing is let through or left out, whatever becomes of the others. -/
theorem join_filter_cons_iff_of_apart (h : InOrder (a :: b :: edits))
    (hne : a.range.stop ≠ b.range.start) :
    join ((a :: b :: edits).filter (startsIn r)) = (join (a :: b :: edits)).filter (startsIn r) ↔
      join ((b :: edits).filter (startsIn r)) = (join (b :: edits)).filter (startsIn r) := by
  have hlt := h.stop_lt hne
  obtain ⟨m, more, hjoin, hm⟩ := exists_join_cons b edits
  have hwhole : join (a :: b :: edits) = a :: join (b :: edits) := by
    refine join_cons_of_apart fun c hc => ?_
    obtain rfl : m = c := by simpa [hjoin] using hc
    rw [hm]
    exact hne
  rw [hwhole]
  by_cases ha : startsIn r a = true
  · have hpart : join (a :: (b :: edits).filter (startsIn r)) =
        a :: join ((b :: edits).filter (startsIn r)) := by
      refine join_cons_of_apart fun c hc => ?_
      obtain ⟨d, hd, hcd⟩ := exists_start_of_mem_join (List.mem_of_mem_head? hc)
      rw [hcd]
      exact (hlt d (List.mem_filter.1 hd).1).ne
    rw [List.filter_cons_of_pos ha, List.filter_cons_of_pos ha, hpart, List.cons_inj_right]
  · rw [List.filter_cons_of_neg ha, List.filter_cons_of_neg ha]

/-- Two edits that touch, on the same side of the ends of the range, are let through or left out
together. -/
theorem join_filter_cons_iff_of_together (ht : a.range.stop = b.range.start)
    (hab : startsIn r a = startsIn r b) :
    join ((a :: b :: edits).filter (startsIn r)) = (join (a :: b :: edits)).filter (startsIn r) ↔
      join ((b :: edits).filter (startsIn r)) = (join (b :: edits)).filter (startsIn r) := by
  obtain ⟨m, more, hjoin, hm⟩ := exists_join_cons b edits
  have hmb : startsIn r m = startsIn r b := startsIn_congr hm
  have hma : startsIn r (merge a m) = startsIn r a := startsIn_merge r a m
  rw [join_cons_of_touching hjoin (ht.trans hm.symm), hjoin]
  by_cases hb : startsIn r b = true
  · obtain ⟨n, rest, hpart, hn⟩ := exists_join_cons b (edits.filter (startsIn r))
    have ha : startsIn r a = true := hab.trans hb
    rw [List.filter_cons_of_pos ha, List.filter_cons_of_pos (hma.trans ha),
      List.filter_cons_of_pos hb, List.filter_cons_of_pos (hmb.trans hb),
      join_cons_of_touching hpart (ht.trans hn.symm), hpart, List.cons.injEq, List.cons.injEq,
      merge_inj (hn.trans hm.symm)]
  · have ha : ¬ startsIn r a = true := by rwa [hab]
    have hmerge : ¬ startsIn r (merge a m) = true := by rwa [hma]
    have hm' : ¬ startsIn r m = true := by rwa [hmb]
    rw [List.filter_cons_of_neg ha, List.filter_cons_of_neg hmerge, List.filter_cons_of_neg hb,
      List.filter_cons_of_neg hm']

/-- Of two edits that touch, the range lets only one through: what is left of the joined edit is no
edit of the whole comparison. -/
theorem join_filter_ne_of_cut (h : InOrder (a :: b :: edits))
    (hc : ∀ c ∈ a :: b :: edits, Changes c) (ht : a.range.stop = b.range.start)
    (hab : startsIn r a ≠ startsIn r b) :
    join ((a :: b :: edits).filter (startsIn r)) ≠
      (join (a :: b :: edits)).filter (startsIn r) := by
  obtain ⟨m, more, hjoin, hm⟩ := exists_join_cons b edits
  have hmem : m ∈ join (b :: edits) := hjoin ▸ List.mem_cons_self
  have hma : startsIn r (merge a m) = startsIn r a := startsIn_merge r a m
  have hle : a.range.start ≤ b.range.start := ht ▸ h.forward a List.mem_cons_self
  rw [join_cons_of_touching hjoin (ht.trans hm.symm)]
  by_cases ha : startsIn r a = true
  · -- the range ends between the two, and only `a` is left of the joined edit
    have hb : ¬ b.range.start ≤ r.stop := by
      intro hb
      have hin : startsIn r b = true := startsIn_iff.2 ⟨(startsIn_iff.1 ha).1.trans hle, hb⟩
      exact hab (ha.trans hin.symm)
    have hleft : join [a] = [a] := rfl
    rw [List.filter_cons_of_pos ha, h.tail.filter_eq_nil hb, hleft,
      List.filter_cons_of_pos (hma.trans ha)]
    intro heq
    have hedit : a = merge a m := (List.cons.inj heq).1
    have hstop : a.range.stop = m.range.stop := congrArg (fun c => c.range.stop) hedit
    have htext : a.text = a.text ++ m.text := congrArg Edit.text hedit
    rcases h.tail.changes_of_mem_join (fun c hc' => hc c (List.mem_cons_of_mem a hc')) m hmem with
      hm' | hm'
    · rw [hm, ← ht, hstop] at hm'
      exact lt_irrefl _ hm'
    · exact hm' (by simpa using htext)
  · -- the range starts between the two, and an edit of its own starts at `b`
    have hb : startsIn r b = true := by
      rw [Bool.not_eq_true] at ha
      rw [ha] at hab
      simpa using hab
    have hmerge : ¬ startsIn r (merge a m) = true := by rwa [hma]
    obtain ⟨n, rest, hpart, hn⟩ := exists_join_cons b (edits.filter (startsIn r))
    rw [List.filter_cons_of_neg ha, List.filter_cons_of_pos hb, hpart,
      List.filter_cons_of_neg hmerge]
    intro heq
    have hin : n ∈ more := (List.mem_filter.1 (heq ▸ List.mem_cons_self)).1
    obtain ⟨hforward, hapart⟩ := h.tail.join_apart
    rw [hjoin] at hapart
    have hlt : m.range.start < n.range.start :=
      (hforward m hmem).trans_lt ((List.pairwise_cons.1 hapart).1 n hin)
    rw [hm, hn] at hlt
    exact lt_irrefl _ hlt

end Cons

/-- **Filtering and joining.** Edits may be filtered before or after they are joined exactly if all
that touch lie on the same side of the ends of the range. -/
theorem join_filter_iff (r : Range) {edits : List Edit} (h : InOrder edits)
    (hc : ∀ a ∈ edits, Changes a) :
    join (edits.filter (startsIn r)) = (join edits).filter (startsIn r) ↔
      edits.IsChain (Together r) := by
  induction edits with
  | nil => simp [join]
  | cons a edits ih =>
    cases edits with
    | nil => by_cases ha : startsIn r a <;> simp [join, List.filter, ha]
    | cons b edits =>
      have ih := ih h.tail fun c hc' => hc c (List.mem_cons_of_mem a hc')
      rw [List.isChain_cons_cons, ← ih]
      by_cases ht : a.range.stop = b.range.start
      · by_cases hab : startsIn r a = startsIn r b
        · rw [join_filter_cons_iff_of_together ht hab]
          exact ⟨fun heq => ⟨fun _ => hab, heq⟩, fun heq => heq.2⟩
        · exact iff_of_false (join_filter_ne_of_cut h hc ht hab) fun heq => hab (heq.1 ht)
      · rw [join_filter_cons_iff_of_apart h ht]
        exact ⟨fun heq => ⟨fun ht' => absurd ht' ht, heq⟩, fun heq => heq.2⟩

/-! ### The changes of a comparison -/

/-- A filter drops the single changes that start outside of it. -/
theorem single_some (e : Encoding) (t : Text) (r : Range) (offset : Nat) (cs : List Change) :
    single e t (some r) offset cs = (single e t none offset cs).filter (startsIn r) := by
  induction cs generalizing offset with
  | nil => rfl
  | cons change cs ih =>
    cases change with
    | keep c => rw [single, single, ih]
    | delete c =>
      rw [single, single, ih]
      simp only [admits, if_true, List.filter_cons, startsIn]
      rfl
    | insert c =>
      rw [single, single, ih]
      simp only [admits, if_true, List.filter_cons, startsIn]
      rfl

section Ordered

variable {e : Encoding} {t : Text} {ps : List Patch}

/-- Patches that follow one another are sent as edits in order. -/
theorem inOrder_map (hfit : FitsWire e t) {start : Nat} (h : Successive t start ps) :
    InOrder (ps.map (ofPatch e t)) := by
  constructor
  · intro a ha
    obtain ⟨p, hp, rfl⟩ := List.mem_map.1 ha
    simp only [ofPatch, hfit.rangeOf_eq]
    exact Text.positionAt_mono e t (h.of_mem p hp).2.1
  · rw [List.pairwise_map]
    induction ps generalizing start with
    | nil => exact List.Pairwise.nil
    | cons p ps ih =>
      have hrest := h.2.2.2.2
      refine List.pairwise_cons.2 ⟨fun q hq => ?_, ih hrest⟩
      simp only [ofPatch, hfit.rangeOf_eq]
      exact Text.positionAt_mono e t (hrest.of_mem q hq).1

theorem changes_ofPatch (hfit : FitsWire e t) {p : Patch} (hstart : IsBoundary t p.span.start)
    (hstop : IsBoundary t p.span.stop) (h : p.span.start < p.span.stop ∨ p.text ≠ []) :
    Changes (ofPatch e t p) := by
  rcases h with h | h
  · left
    simp only [ofPatch, hfit.rangeOf_eq]
    exact Text.positionAt_lt e hstart hstop h
  · exact Or.inr h

end Ordered

/-! ### Main statement -/

instance (r : Range) : DecidableRel (Together r) := fun _ _ => by unfold Together; infer_instance

/-- **When a filter keeps replacements whole.** The edits that a range lets through are those edits
of the whole comparison that start in it exactly if no two changes that touch lie on different sides
of an end of the range. -/
theorem between_filter_iff (e : Encoding) (before after : Text) (changes : List Change) (r : Range)
    (hold : Change.oldText changes = before) (hfit : FitsWire e before) :
    between e before after changes (some r) =
        (between e before after changes none).filter (startsIn r) ↔
      before = after ∨ (single e before none 0 changes).IsChain (Together r) := by
  by_cases heq : before = after
  · simp [between, heq]
  · have hsucc := Change.successive_patches (fun n => admits none (positionAt e before n).toWire) []
      changes hold.symm
    have horder : InOrder (single e before none 0 changes) := by
      rw [single_eq_map]
      exact inOrder_map hfit hsucc
    have hchanges : ∀ a ∈ single e before none 0 changes, Changes a := by
      rw [single_eq_map]
      intro a ha
      obtain ⟨p, hp, rfl⟩ := List.mem_map.1 ha
      obtain ⟨-, -, hstart, hstop⟩ := hsucc.of_mem p hp
      exact changes_ofPatch hfit hstart hstop (Change.changes_of_mem_patches hp)
    rw [between, between, if_neg heq, if_neg heq, single_some, join_filter_iff r horder hchanges]
    simp [heq]

/-- A word is replaced, and the range ends behind its first letter: the letter is deleted, and the
rest of the replacement is left out. A range that ends behind the word keeps the replacement
whole. -/
theorem between_filter_word :
    let changes : List Change := [.delete 'a', .delete 'b', .insert 'x', .insert 'y']
    let edits (filter : Option Range) : List Edit :=
      between .utf16 ['a', 'b'] ['x', 'y'] changes filter
    let cut : Range := ⟨⟨0, 0⟩, ⟨0, 0⟩⟩
    let whole : Range := ⟨⟨0, 0⟩, ⟨0, 2⟩⟩
    edits (some cut) = [⟨⟨⟨0, 0⟩, ⟨0, 1⟩⟩, []⟩] ∧
      edits (some cut) ≠ (edits none).filter (startsIn cut) ∧
      edits (some whole) = (edits none).filter (startsIn whole) := by
  intro changes edits cut whole
  have hiff (r : Range) := between_filter_iff .utf16 ['a', 'b'] ['x', 'y'] changes r rfl (by decide)
  refine ⟨by decide, (hiff cut).not.2 (by decide), (hiff whole).2 (by decide)⟩

end RubyLens.Edit
