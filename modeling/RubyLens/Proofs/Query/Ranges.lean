import RubyLens.Proofs.Query.Highlight
import RubyLens.Proofs.Query.Outline
import RubyLens.Proofs.Query.Selection
import RubyLens.Proofs.Text.Wire

/-!
Answers in positions. Queries are answered in byte offsets, and the answers are sent as positions
counted in the encoding in force. Where the spans of a concrete tree start and end between
characters, so do all spans in an answer, and none of them gets lost on the way.

Main statement: `spanOf_answers`.
-/

namespace RubyLens

/-! ### Spans between characters -/

namespace Text

/-- A span that starts and ends between characters. -/
structure OnBoundaries (t : Text) (s : Span) : Prop where
  start : IsBoundary t s.start
  stop : IsBoundary t s.stop
  le : s.start ≤ s.stop

instance (t : Text) (s : Span) : Decidable (OnBoundaries t s) :=
  decidable_of_iff (IsBoundary t s.start ∧ IsBoundary t s.stop ∧ s.start ≤ s.stop)
    ⟨fun h => ⟨h.1, h.2.1, h.2.2⟩, fun h => ⟨h.start, h.stop, h.le⟩⟩

variable {e : Encoding} {t : Text} {a b : Span}

theorem onBoundaries_whole (t : Text) : OnBoundaries t ⟨0, size t⟩ :=
  ⟨⟨[], List.nil_prefix, rfl⟩, ⟨t, List.prefix_rfl, rfl⟩, Nat.zero_le _⟩

theorem OnBoundaries.cover (ha : OnBoundaries t a) (hb : OnBoundaries t b) :
    OnBoundaries t (a.cover b) := by
  refine ⟨ha.start, ?_, Nat.le_max_right _ _⟩
  rw [Span.cover]
  rcases le_total a.start b.stop with hle | hle
  · rw [max_eq_left hle]
    exact hb.stop
  · rw [max_eq_right hle]
    exact ha.start

/-- The range of a larger span is larger. -/
theorem FitsWire.strictlyLarger_rangeOf (h : FitsWire e t) (ha : OnBoundaries t a)
    (hb : OnBoundaries t b) (hencloses : Selection.Encloses a b) :
    (rangeOf e t b).strictlyLarger (rangeOf e t a) := by
  obtain ⟨hcovers, hne⟩ := hencloses
  rw [Range.strictlyLarger, Bool.and_eq_true, bne_iff_ne]
  refine ⟨h.contains_rangeOf hcovers, fun heq => hne ?_⟩
  -- a range tells the span that it came from
  rw [← h.spanOf_rangeOf hb.start hb.stop hb.le, heq, h.spanOf_rangeOf ha.start ha.stop ha.le]

end Text

open Text (OnBoundaries IsBoundary FitsWire positionAt spanOf rangeOf)

namespace Concrete

/-- The spans of all nodes start and end between characters. -/
def onBoundaries (t : Text) (c : Concrete) : Bool := c.every fun d => OnBoundaries t d.label.span

/-- The tree of `class 𝔸; end`, where the name takes four bytes. -/
def astralClass : Concrete :=
  .node ⟨"program", true, false, ⟨0, 15⟩, none⟩ [
    .node ⟨"class", true, false, ⟨0, 15⟩, none⟩ [
      .node ⟨"class", false, false, ⟨0, 5⟩, none⟩ [],
      .node ⟨"constant", true, false, ⟨6, 10⟩, some "name"⟩ [],
      .node ⟨";", false, false, ⟨10, 11⟩, none⟩ [],
      .node ⟨"end", false, false, ⟨12, 15⟩, none⟩ []]]

end Concrete

namespace Node

/-- The spans of all nodes, and those in their kinds from which answers are made, start and end
between characters. -/
structure OnBoundaries (t : Text) (root : Node) : Prop where
  span : ∀ x ∈ root.cursors, Text.OnBoundaries t x.span
  fence : ∀ x ∈ root.cursors, ∀ o ∈ x.kind.fences, Parts.Found (Text.OnBoundaries t) o
  keyword : ∀ m, root.Keyword m → Text.OnBoundaries t m

theorem onBoundaries_ofRoot (source : Text) {root : Option Concrete}
    (h : ∀ c ∈ root, c.onBoundaries source) : (ofRoot source root).OnBoundaries source := by
  have hsite {c : Concrete} (hc : c ∈ root) {s : Concrete.Site} (hs : s ∈ c.kept) :
      Text.OnBoundaries source s.span ∧
        ∀ d ∈ s.concrete.children, Text.OnBoundaries source d.label.span := by
    have hevery := Concrete.every_iff.1 (Concrete.every_of_mem_kept (h c hc) hs s.here
      List.mem_cons_self)
    exact ⟨of_decide_eq_true hevery.1, fun d hd =>
      of_decide_eq_true (Concrete.every_iff.1 (hevery.2 d hd)).1⟩
  constructor
  case span =>
    intro x hx
    rcases root_or_site hx with rfl | ⟨c, hc, s, hs, hmatches⟩
    · rw [Cursor.span, Cursor.node, span_ofRoot]
      exact Text.onBoundaries_whole source
    · rw [Cursor.span, hmatches.node_eq]
      exact (hsite hc hs).1
  case fence =>
    intro x hx
    rcases root_or_site hx with rfl | ⟨c, hc, s, hs, hmatches⟩
    · rw [Cursor.kind, Cursor.node, kind_ofRoot]
      exact List.forall_mem_nil _
    · rw [Cursor.kind, hmatches.node_eq]
      refine Kind.fences_classify (fun _ _ => Text.OnBoundaries.cover) (fun p hp => ?_) _ _
      exact (hsite hc hs).2 _ (Part.mem_of_mem_listFrom hp).1
  case keyword =>
    rintro m ⟨x, hx, hm⟩
    obtain ⟨d, hd, -, -, -, rfl⟩ := isKeyword_of_mem_keywords h hx hm
    exact of_decide_eq_true hd

variable {t : Text} {root : Node}

/-- Whatever a node offers to select starts and ends between characters. -/
theorem OnBoundaries.offers (h : root.OnBoundaries t) {p : Place} {above : List Place}
    (hp : ⟨p, above⟩ ∈ root.cursors) : ∀ s ∈ Selection.offers p.node, Text.OnBoundaries t s := by
  induction p using Place.ind generalizing above with
  | h p ih =>
    intro s hs
    have hfence {m : Span} (hm : some m ∈ p.node.kind.fences) : Text.OnBoundaries t m :=
      h.fence _ hp _ hm m rfl
    rcases Selection.mem_offers_cases hs with rfl | hs | ⟨a, b, ha, hb, hle, hs⟩ | ⟨m, hm, hs⟩
    · exact h.span _ hp
    · exact hfence hs
    · obtain ⟨hastart, hastop, hale⟩ := hfence ha
      obtain ⟨hbstart, hbstop, hble⟩ := hfence hb
      rcases hs with rfl | rfl
      · exact ⟨hastop, hbstart, hle⟩
      · exact ⟨hastart, hbstop, hale.trans (hle.trans hble)⟩
    · obtain ⟨q, hq, rfl, hlisted⟩ := exists_cursor_of_mem_children hp hm
      exact ih q hq hlisted s hs

end Node

/-! ### Answers -/

section Answers

variable {e : Encoding} {s : Source}

theorem spanOf_rangeOf_map (hfit : FitsWire e s.text) {l : List Span}
    (h : ∀ m ∈ l, OnBoundaries s.text m) :
    (l.map (rangeOf e s.text)).map (spanOf e s.text) = l := by
  rw [List.map_map, List.map_congr_left fun m hm => ?_, List.map_id]
  exact hfit.spanOf_rangeOf (h m hm).start (h m hm).stop (h m hm).le

/-- A position that is asked about is the offset that it was made of. -/
theorem offsetAt_toWire_positionAt (hfit : FitsWire e s.text) {o : Nat} (ho : IsBoundary s.text o) :
    Text.offsetAt e s.text (positionAt e s.text o).toWire = o := by
  rw [hfit.toWire_positionAt, Text.offsetAt_positionAt_of_boundary e ho]

namespace Highlight

theorem spanOf_rangesAt (hfit : FitsWire e s.text) (h : s.root.OnBoundaries s.text) {o : Nat}
    (ho : IsBoundary s.text o) :
    (rangesAt e s (positionAt e s.text o).toWire).map (spanOf e s.text) = spansAt s.root o := by
  rw [rangesAt, offsetAt_toWire_positionAt hfit ho]
  apply spanOf_rangeOf_map hfit
  intro m hm
  exact h.keyword m (keyword_of_mem_spansAt s.root o m hm)

end Highlight

namespace Selection

theorem onBoundaries_of_mem_spansAt (h : s.root.OnBoundaries s.text) (o : Nat) :
    ∀ m ∈ spansAt s o, OnBoundaries s.text m := by
  intro m hm
  have hmem := List.mem_mergeSort.1 ((sublist_chainFrom none _).subset hm)
  obtain ⟨p, hp, hoffer⟩ := List.mem_flatMap.1 (List.mem_filter.1 hmem).1
  obtain ⟨above, hlisted⟩ :=
    Node.exists_cursor_of_mem_path (Node.cursorAt_mem_cursors s.root o) p hp
  exact h.offers hlisted m hoffer

/-- There is something to select wherever the root, a program, is the whole text. -/
theorem spansAt_ne_nil (hkind : s.root.kind = .program)
    (hspan : s.root.span = ⟨0, Text.size s.text⟩) (o : Nat) : spansAt s o ≠ [] := by
  have hoffered := span_mem_path hkind (Node.cursorAt_mem_cursors s.root o)
  have haround : s.root.span.contains (min o (Text.size s.text)) := by
    rw [hspan, Span.contains_iff]
    exact ⟨Nat.zero_le _, Nat.min_le_right _ _⟩
  apply chainFrom_ne_nil
  exact List.ne_nil_of_mem (List.mem_mergeSort.2 (List.mem_filter.2 ⟨hoffered, haround⟩))

/-- Each range in an answer is enclosed by the next one. -/
theorem isChain_rangesAt (hfit : FitsWire e s.text) (h : s.root.OnBoundaries s.text)
    (p : Position) :
    (rangesAt e s p).IsChain fun child parent => parent.strictlyLarger child := by
  unfold rangesAt
  split
  · exact List.IsChain.singleton _
  · rw [List.isChain_map]
    have hspan := onBoundaries_of_mem_spansAt h (Text.offsetAt e s.text p)
    refine List.IsChain.imp_of_mem_imp (fun a b ha hb hab => ?_) (isChain_chainFrom _)
    exact hfit.strictlyLarger_rangeOf (hspan a ha) (hspan b hb) hab

theorem spanOf_rangesAt (hfit : FitsWire e s.text) (h : s.root.OnBoundaries s.text)
    (hne : ∀ o, spansAt s o ≠ []) {o : Nat} (ho : IsBoundary s.text o) :
    (rangesAt e s (positionAt e s.text o).toWire).map (spanOf e s.text) = spansAt s o := by
  rw [rangesAt, offsetAt_toWire_positionAt hfit ho]
  split
  · next hnil => exact absurd (List.map_eq_nil_iff.1 hnil) (hne o)
  · exact spanOf_rangeOf_map hfit (onBoundaries_of_mem_spansAt h o)

theorem spanOf_chainsAt (hfit : FitsWire e s.text) (h : s.root.OnBoundaries s.text)
    (hne : ∀ o, spansAt s o ≠ []) {offsets : List Nat} (ho : ∀ o ∈ offsets, IsBoundary s.text o) :
    (chainsAt e s (offsets.map fun o => (positionAt e s.text o).toWire)).map
      (List.map (spanOf e s.text)) = offsets.map (spansAt s) := by
  rw [chainsAt, List.map_map, List.map_map]
  refine List.map_congr_left fun o hmem => ?_
  exact spanOf_rangesAt hfit h hne (ho o hmem)

end Selection

namespace Outline

theorem spanOf_ranges (hfit : FitsWire e s.text) (h : s.root.OnBoundaries s.text) :
    (ranges e s).map (Symbol.map (spanOf e s.text)) = spans s := by
  have hfixed {m : Span} (hm : OnBoundaries s.text m) :
      (spanOf e s.text ∘ rangeOf e s.text) m = m := hfit.spanOf_rangeOf hm.start hm.stop hm.le
  have hchild {x : Cursor} (hx : x ∈ s.root.cursors) {c : Node} (hc : c ∈ x.node.children) :
      OnBoundaries s.text c.span := by
    obtain ⟨q, -, rfl, hq⟩ := Node.exists_cursor_of_mem_children hx hc
    exact h.span _ hq
  calc (ranges e s).map (Symbol.map (spanOf e s.text))
      = (spans s).map (Symbol.map (spanOf e s.text ∘ rangeOf e s.text)) := by
        rw [ranges, List.map_map]
        exact List.map_congr_left fun y _ => Symbol.map_map _ _ y
    _ = spans s :=
        map_entries s (fun x hx => hfixed (h.span x hx))
          (fun x hx a ha b hb => hfixed ((hchild hx ha).cover (hchild hx hb)))
          (p := ⟨0, s.root⟩) (Place.self_mem_cursors [] _) none []

end Outline

/-- **Answers in every encoding.** In a text that fits the wire, the ranges of an answer are those of
its spans, whatever the encoding: of the keywords that are highlighted at a boundary between
characters, of the selections at such boundaries, one chain for each in the order in which they are
asked about, and of the outline. Along a chain the ranges grow. -/
theorem spanOf_answers (e e' : Encoding) (parser : Parser) (text : Text) (hfit : FitsWire e text)
    (hfit' : FitsWire e' text) (hparser : ∀ c ∈ parser text, c.onBoundaries text) :
    let s := Source.parse parser text
    let position (o : Nat) : Position := (positionAt e text o).toWire
    (∀ o, IsBoundary text o →
      (Highlight.rangesAt e s (position o)).map (spanOf e text) = Highlight.spansAt s.root o) ∧
    (∀ offsets : List Nat, (∀ o ∈ offsets, IsBoundary text o) →
      (Selection.chainsAt e s (offsets.map position)).map (List.map (spanOf e text)) =
        offsets.map (Selection.spansAt s)) ∧
    (∀ positions, ∀ chain ∈ Selection.chainsAt e s positions,
      chain.IsChain fun child parent => parent.strictlyLarger child) ∧
    (Outline.ranges e s).map (Symbol.map (spanOf e text)) = Outline.spans s ∧
    (Outline.ranges e' s).map (Symbol.map (spanOf e' text)) = Outline.spans s := by
  intro s position
  have hspans : s.root.OnBoundaries s.text := Node.onBoundaries_ofRoot text hparser
  have hne : ∀ o, Selection.spansAt s o ≠ [] :=
    Selection.spansAt_ne_nil (Node.kind_ofRoot text (parser text))
      (Node.span_ofRoot text (parser text))
  refine ⟨?_, ?_, ?_, ?_, ?_⟩
  · intro o ho
    exact Highlight.spanOf_rangesAt hfit hspans ho
  · intro offsets hoffsets
    exact Selection.spanOf_chainsAt hfit hspans hne hoffsets
  · intro positions chain hchain
    obtain ⟨p, -, rfl⟩ := List.mem_map.1 hchain
    exact Selection.isChain_rangesAt hfit hspans p
  · exact Outline.spanOf_ranges hfit hspans
  · exact Outline.spanOf_ranges hfit' hspans

end Answers

open Concrete (astralClass) in
/-- In `class 𝔸; end` the word `end` starts behind twelve bytes, ten units or nine characters. -/
theorem spanOf_answers_astralClass :
    let text : Text := "class 𝔸; end".toList
    let s := Source.parse (fun _ => some astralClass) text
    (FitsWire .utf16 text ∧ FitsWire .utf32 text ∧ astralClass.onBoundaries text) ∧
      (Highlight.rangesAt .utf16 s ⟨0, 10⟩).map (spanOf .utf16 text) = [⟨0, 5⟩, ⟨12, 15⟩] ∧
      (Selection.chainsAt .utf16 s [⟨0, 10⟩, ⟨0, 6⟩]).map (List.map (spanOf .utf16 text)) =
        [[⟨0, 15⟩], [⟨6, 10⟩, ⟨0, 15⟩]] ∧
      (Outline.ranges .utf16 s).map (Symbol.map (spanOf .utf16 text)) =
        (Outline.ranges .utf32 s).map (Symbol.map (spanOf .utf32 text)) := by
  intro text s
  have hfit (e : Encoding) : FitsWire e text := by cases e <;> decide
  have hspans : astralClass.onBoundaries text := by decide
  obtain ⟨hhighlight, hselect, -, houtline, houtline'⟩ :=
    spanOf_answers .utf16 .utf32 (fun _ => some astralClass) text (hfit _) (hfit _) fun c hc => by
      obtain rfl := Option.some.inj hc
      exact hspans
  refine ⟨⟨hfit _, hfit _, hspans⟩, ?_, ?_, houtline.trans houtline'.symm⟩
  · refine (hhighlight 12 (by decide)).trans ?_
    rw [Highlight.spansAt_eq]
    have hfound : Highlight.spansFrom 12 (s.root.cursorAt 12).here (s.root.cursorAt 12).above =
        [⟨0, 5⟩, ⟨12, 15⟩] := by decide
    rw [hfound, Highlight.tidy_eq_self (by decide)]
  · refine (hselect [12, 6] (by decide)).trans ?_
    have hend : Selection.spansAt s 12 = [⟨0, 15⟩] := by
      rw [Selection.spansAt_of_around (l := [⟨0, 15⟩, ⟨0, 15⟩]) (by decide) (by decide) (by decide)]
      decide
    have hname : Selection.spansAt s 6 = [⟨6, 10⟩, ⟨0, 15⟩] := by
      rw [Selection.spansAt_of_around (l := [⟨6, 10⟩, ⟨0, 15⟩, ⟨0, 15⟩]) (by decide) (by decide)
        (by decide)]
      decide
    rw [List.map_cons, List.map_singleton, hend, hname]

end RubyLens
