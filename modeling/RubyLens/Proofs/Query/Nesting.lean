import RubyLens.Proofs.Query.Declarations
import RubyLens.Proofs.Syntax.Payload
import RubyLens.Proofs.Text.Wire

/-!
Outlines as editors accept them: the name of an entry stands within the entry, and so do the entries
inside it. In a snug tree the entries of a node lie within the node. So they nest, and ranges nest the
way the spans do of which they are made.

* `nested_entries`: what the tree at a place adds to an outline.
* `Symbol.Nests.map`: entries nest still when spans are sent as ranges.

Main statement: `Outline.ranges_nest`.
-/

namespace RubyLens

/-- The tree of `class 𝔸; def self.b; end; end`, where the name takes four bytes. -/
def Concrete.astralSingleton : Concrete :=
  .node ⟨"program", true, false, ⟨0, 32⟩, none⟩ [
    .node ⟨"class", true, false, ⟨0, 32⟩, none⟩ [
      .node ⟨"class", false, false, ⟨0, 5⟩, none⟩ [],
      .node ⟨"constant", true, false, ⟨6, 10⟩, some "name"⟩ [],
      .node ⟨";", false, false, ⟨10, 11⟩, none⟩ [],
      .node ⟨"body_statement", true, false, ⟨12, 28⟩, some "body"⟩ [
        .node ⟨"singleton_method", true, false, ⟨12, 27⟩, none⟩ [
          .node ⟨"def", false, false, ⟨12, 15⟩, none⟩ [],
          .node ⟨"self", true, false, ⟨16, 20⟩, some "object"⟩ [],
          .node ⟨".", false, false, ⟨20, 21⟩, none⟩ [],
          .node ⟨"identifier", true, false, ⟨21, 22⟩, some "name"⟩ [],
          .node ⟨";", false, false, ⟨22, 23⟩, none⟩ [],
          .node ⟨"end", false, false, ⟨24, 27⟩, none⟩ []],
        .node ⟨";", false, false, ⟨27, 28⟩, none⟩ []],
      .node ⟨"end", false, false, ⟨29, 32⟩, none⟩ []]]

namespace Node

/-- No node of a tree ends before it starts. -/
theorem forward_ofRoot (source : Text) {root : Option Concrete} (h : ∀ c ∈ root, c.forward)
    {x : Cursor} (hx : x ∈ (ofRoot source root).cursors) : x.span.start ≤ x.span.stop := by
  rcases root_or_site hx with rfl | ⟨c, hc, s, hs, hmatches⟩
  · rw [Cursor.span, Cursor.node, span_ofRoot]
    exact Nat.zero_le _
  · have hforward := Concrete.every_of_mem_kept (h c hc) hs s.here List.mem_cons_self
    rw [Cursor.span, hmatches.node_eq]
    exact (Concrete.forward_iff.1 hforward).1

end Node

namespace Symbol

variable {α β : Type}

/-! ### Entries at any depth -/

/-- The entry is one of some entries, or stands inside one of them at any depth. -/
inductive Among (y : Symbol α) : List (Symbol α) → Prop
  | here {ys : List (Symbol α)} (h : y ∈ ys) : Among y ys
  | inside {z : Symbol α} {ys : List (Symbol α)} (hz : z ∈ ys) (h : Among y z.children) : Among y ys

theorem not_among_nil (y : Symbol α) : ¬ y.Among [] := by
  rintro (h | ⟨hz, -⟩)
  · cases h
  · cases hz

theorem Among.mono {y : Symbol α} {ys zs : List (Symbol α)} (h : y.Among ys) (hsub : ys ⊆ zs) :
    y.Among zs := by
  cases h with
  | here h => exact .here (hsub h)
  | inside hz h => exact .inside (hsub hz) h

theorem among_flatMap {ι : Type} {y : Symbol α} {cs : List ι} {f : ι → List (Symbol α)}
    (h : y.Among (cs.flatMap f)) : ∃ c ∈ cs, y.Among (f c) := by
  cases h with
  | here h =>
    obtain ⟨c, hc, hy⟩ := List.mem_flatMap.1 h
    exact ⟨c, hc, .here hy⟩
  | inside hz h =>
    obtain ⟨c, hc, hz⟩ := List.mem_flatMap.1 hz
    exact ⟨c, hc, .inside hz h⟩

theorem among_map {f : α → β} {y : Symbol β} {ys : List (Symbol α)}
    (h : y.Among (ys.map (map f))) : ∃ z : Symbol α, z.Among ys ∧ z.map f = y := by
  generalize hmapped : ys.map (map f) = mapped at h
  induction h generalizing ys with
  | here h =>
    subst hmapped
    obtain ⟨z, hz, rfl⟩ := List.mem_map.1 h
    exact ⟨z, .here hz, rfl⟩
  | inside hw _ ih =>
    subst hmapped
    obtain ⟨w, hmem, rfl⟩ := List.mem_map.1 hw
    obtain ⟨z, hz, rfl⟩ := ih (children_map f w).symm
    exact ⟨z, .inside hmem hz, rfl⟩

/-! ### Entries that nest -/

/-- The selection of an entry lies within it, and so do the entries directly inside it. -/
structure Nests (within : α → α → Prop) (y : Symbol α) : Prop where
  selection : within y.selection y.extent
  children : ∀ z ∈ y.children, within z.extent y.extent

theorem Nests.map {within : α → α → Prop} {within' : β → β → Prop} {f : α → β}
    (hf : ∀ a b, within a b → within' (f a) (f b)) {y : Symbol α} (h : y.Nests within) :
    (y.map f).Nests within' := by
  obtain ⟨hselection, hchildren⟩ := h
  obtain ⟨n, k, e, s, cs⟩ := y
  rw [map_mk]
  refine ⟨hf _ _ hselection, fun z hz => ?_⟩
  obtain ⟨w, hw, rfl⟩ := List.mem_map.1 hz
  obtain ⟨n', k', e', s', cs'⟩ := w
  rw [map_mk]
  exact hf _ _ (hchildren _ hw)

end Symbol

/-- The first span lies within the second one and does not end before it starts. -/
def Span.Inside (a b : Span) : Prop := b.covers a ∧ a.start ≤ a.stop

/-- The first range lies within the second one and does not end before it starts. -/
def Range.Inside (a b : Range) : Prop := b.contains a ∧ a.start ≤ a.stop

namespace Outline

/-- Entries that lie within a span and nest, at any depth. -/
structure Nested (whole : Span) (ys : List (Symbol Span)) : Prop where
  inside : ∀ y ∈ ys, y.extent.Inside whole
  nests : ∀ y : Symbol Span, y.Among ys → y.Nests Span.Inside

namespace Nested

variable {whole part : Span}

theorem mono (hpart : whole.covers part) {ys : List (Symbol Span)} (h : Nested part ys) :
    Nested whole ys :=
  ⟨fun y hy => ⟨Span.covers_trans hpart (h.inside y hy).1, (h.inside y hy).2⟩, h.nests⟩

theorem flatMap {ι : Type} {cs : List ι} {f : ι → List (Symbol Span)}
    (h : ∀ c ∈ cs, Nested whole (f c)) : Nested whole (cs.flatMap f) := by
  constructor
  · intro y hy
    obtain ⟨c, hc, hy⟩ := List.mem_flatMap.1 hy
    exact (h c hc).inside y hy
  · intro y hy
    obtain ⟨c, hc, hy⟩ := Symbol.among_flatMap hy
    exact (h c hc).nests y hy

/-- Entries without entries inside. -/
theorem of_bare {ys : List (Symbol Span)} (h : ∀ y ∈ ys,
    y.children = [] ∧ y.extent.Inside whole ∧ y.selection.Inside y.extent) : Nested whole ys := by
  refine ⟨fun y hy => (h y hy).2.1, fun y hy => ?_⟩
  cases hy with
  | here hy =>
    obtain ⟨hbare, -, hselection⟩ := h y hy
    exact ⟨hselection, hbare ▸ List.forall_mem_nil _⟩
  | inside hz hy =>
    rw [(h _ hz).1] at hy
    exact absurd hy (Symbol.not_among_nil y)

/-- An entry may be filled with entries that lie within it. -/
theorem fill {first : Symbol Span} {rest below : List (Symbol Span)}
    (h : Nested whole (first :: rest)) (hbelow : Nested first.extent below) :
    Nested whole (first.withChildren below :: rest) := by
  have hfirst : first.Nests Span.Inside := h.nests first (.here List.mem_cons_self)
  have hinside := h.inside first List.mem_cons_self
  obtain ⟨n, k, e, s, cs⟩ := first
  have hrest {y : Symbol Span} (hy : y.Among rest) : y.Nests Span.Inside :=
    h.nests y (hy.mono (List.subset_cons_self _ rest))
  refine ⟨List.forall_mem_cons.2 ⟨hinside, fun y hy => h.inside y (List.mem_cons_of_mem _ hy)⟩,
    fun y hy => ?_⟩
  cases hy with
  | here hy =>
    rcases List.mem_cons.1 hy with rfl | hy
    · exact ⟨hfirst.selection, hbelow.inside⟩
    · exact hrest (.here hy)
  | inside hz hy =>
    rcases List.mem_cons.1 hz with rfl | hz
    · exact hbelow.nests y hy
    · exact hrest (.inside hz hy)

end Nested

variable (s : Source)

section Tree

variable {root : Node} (hsnug : root.Snug)
  (hforward : ∀ x ∈ root.cursors, x.span.start ≤ x.span.stop)

include hsnug hforward

/-- A child of a node lies within it. -/
theorem inside_of_mem_children {x : Cursor} (hx : x ∈ root.cursors) {c : Node}
    (hc : c ∈ x.node.children) : c.span.Inside x.span := by
  obtain ⟨q, -, rfl, hlisted⟩ := Node.exists_cursor_of_mem_children hx hc
  exact ⟨hsnug.covers_of_mem_children hx hc, hforward _ hlisted⟩

/-- What a node selects lies within it. -/
theorem inside_of_selects {x : Cursor} (hx : x ∈ root.cursors) {m : Span}
    (h : Selects x.node m) : m.Inside x.span := by
  cases h with
  | child hc => exact inside_of_mem_children hsnug hforward hx hc
  | children ha hb =>
    have hfirst := inside_of_mem_children hsnug hforward hx ha
    have hlast := inside_of_mem_children hsnug hforward hx hb
    simp only [Span.Inside, Span.covers_iff, Span.cover] at *
    omega
  | grandchild hc hd =>
    have hin := hsnug.covers_of_mem_children hx hc
    obtain ⟨q, -, rfl, hlisted⟩ := Node.exists_cursor_of_mem_children hx hc
    have hbelow := inside_of_mem_children hsnug hforward hlisted hd
    exact ⟨Span.covers_trans hin hbelow.1, hbelow.2⟩

/-- **One tree.** What the tree at a place adds to an outline lies within this place and nests. -/
theorem nested_entries {p : Place} {up : List Place} (hp : ⟨p, up⟩ ∈ root.cursors)
    (around : Option Qualifier) (above : List Node) :
    Nested p.node.span (entries s around above p.node) := by
  induction p using Place.ind generalizing up around above with
  | h p ih =>
    have hbelow : Nested p.node.span (below s around above p.node) := by
      refine Nested.flatMap fun c hc => ?_
      have hin := hsnug.covers_of_mem_children hp hc
      obtain ⟨q, hq, rfl, hlisted⟩ := Node.exists_cursor_of_mem_children hp hc
      exact (ih q hq hlisted _ _).mono hin
    have hadded (y : Symbol Span) (hy : y ∈ entriesFor s around p.node above) :=
      added_of_mem_entriesFor s hy
    have hown : Nested p.node.span (entriesFor s around p.node above) := by
      refine Nested.of_bare fun y hy => ⟨(hadded y hy).children, ?_⟩
      rw [(hadded y hy).extent]
      exact ⟨⟨Span.covers_refl _, hforward _ hp⟩,
        inside_of_selects hsnug hforward hp (hadded y hy).selection⟩
    rw [entries_eq]
    cases hentries : entriesFor s around p.node above with
    | nil => exact hbelow
    | cons first rest =>
      rw [hentries] at hown hadded
      rw [← (hadded first List.mem_cons_self).extent] at hbelow
      exact hown.fill hbelow

end Tree

/-- **Entries nest.** In a text that fits the wire, and if the spans of concrete trees nest, neither an
entry of the outline nor its selection ends before it starts, at any depth and in every encoding; the
selection lies within the entry, and so do the entries directly inside it. -/
theorem ranges_nest (e : Encoding) (parser : Parser) (text : Text) (hfit : Text.FitsWire e text)
    (hparser : ∀ c ∈ parser text,
      c.nested ∧ c.forward ∧ Span.covers ⟨0, Text.size text⟩ c.label.span) :
    ∀ y : Symbol Range, y.Among (ranges e (Source.parse parser text)) →
      y.extent.start ≤ y.extent.stop ∧
        y.extent.contains y.selection ∧ y.selection.start ≤ y.selection.stop ∧
        ∀ z ∈ y.children, y.extent.contains z.extent := by
  intro y hy
  obtain ⟨z, hz, rfl⟩ := Symbol.among_map hy
  have hsnug := Node.snug_ofRoot text hparser
  have hforward (x : Cursor) (hx : x ∈ (Node.ofRoot text (parser text)).cursors) :=
    Node.forward_ofRoot text (fun c hc => (hparser c hc).2.1) hx
  have hspans := nested_entries (Source.parse parser text) hsnug hforward
    (p := ⟨0, Node.ofRoot text (parser text)⟩) (Place.self_mem_cursors [] _) none []
  have hranges (a b : Span) (h : a.Inside b) :
      (Text.rangeOf e text a).Inside (Text.rangeOf e text b) :=
    ⟨hfit.contains_rangeOf h.1, hfit.forward_rangeOf h.2⟩
  have hnests := (hspans.nests z hz).map hranges
  obtain ⟨hselection, hle⟩ := hnests.selection
  have hends := hselection
  rw [Range.contains, Bool.and_eq_true, decide_eq_true_eq, decide_eq_true_eq] at hends
  refine ⟨?_, hselection, hle, fun w hw => (hnests.children w hw).1⟩
  exact hends.1.trans (hle.trans hends.2)

open Concrete (astralSingleton) in
/-- In `class 𝔸; def self.b; end; end` the method stands within the class, and `self.b` within the
method. -/
theorem ranges_nest_astralSingleton :
    let text : Text := "class 𝔸; def self.b; end; end".toList
    let outer : Symbol Range := .mk "𝔸" .classDef ⟨⟨0, 0⟩, ⟨0, 30⟩⟩ ⟨⟨0, 6⟩, ⟨0, 8⟩⟩
      [.mk ".b" .method ⟨⟨0, 10⟩, ⟨0, 25⟩⟩ ⟨⟨0, 14⟩, ⟨0, 20⟩⟩ []]
    (Text.FitsWire .utf16 text ∧ astralSingleton.nested ∧ astralSingleton.forward) ∧
      ranges .utf16 (Source.parse (fun _ => some astralSingleton) text) = [outer] ∧
      (∀ z ∈ outer.children, outer.extent.contains z.extent) ∧
      ∀ z ∈ outer.children, z.extent.contains z.selection := by
  intro text outer
  have hfit : Text.FitsWire .utf16 text := by decide
  have hparser : astralSingleton.nested ∧ astralSingleton.forward ∧
      Span.covers ⟨0, Text.size text⟩ astralSingleton.label.span := by decide
  have hranges : ranges .utf16 (Source.parse (fun _ => some astralSingleton) text) = [outer] := rfl
  have hnest := ranges_nest .utf16 (fun _ => some astralSingleton) text hfit fun c hc => by
    obtain rfl := Option.some.inj hc
    exact hparser
  rw [hranges] at hnest
  have houter : outer ∈ [outer] := List.mem_singleton_self outer
  refine ⟨⟨hfit, hparser.1, hparser.2.1⟩, hranges, (hnest outer (.here houter)).2.2.2, ?_⟩
  exact fun z hz => (hnest z (.inside houter (.here hz))).2.1

end Outline

end RubyLens
