import RubyLens.Proofs.Syntax.Payload

/-!
The layout of nodes. If the nodes of a concrete tree follow one another, then a token of a node
encloses what stands in it and lies beside all else. So a delimiter of a node and a child of this
node do not cut each other (`Span.Clears`), and neither do a child and what lies between two
delimiters (`Span.Clears.inner`, `Span.Clears.cover`).

Main statement: `Node.laid_ofRoot`.
-/

namespace RubyLens

namespace Span

/-- The second span lies within the first one or beside it. -/
def Clears (a b : Span) : Prop := a.covers b ∨ b.stop ≤ a.start ∨ a.stop ≤ b.start

variable {a b c t : Span}

theorem Clears.of_covers (h : a.Clears b) (hbc : b.covers c) : a.Clears c := by
  simp only [Clears, covers_iff] at *
  omega

theorem Clears.cover (ha : a.Clears t) (hb : b.Clears t) (hale : a.start ≤ a.stop)
    (hble : b.start ≤ b.stop) : (a.cover b).Clears t := by
  simp only [Clears, covers_iff, Span.cover] at *
  omega

/-- What lies between two spans encloses what lies between them, and nothing else touches it. -/
theorem Clears.inner (ha : a.Clears t) (hb : b.Clears t) (hale : a.start ≤ a.stop)
    (hble : b.start ≤ b.stop) : (⟨a.stop, b.start⟩ : Span).Clears t := by
  simp only [Clears, covers_iff] at *
  omega

end Span

namespace Concrete

/-- The nodes directly below a node follow one another. -/
def ordered (c : Concrete) : Bool :=
  c.every fun d => d.children.Pairwise fun a b => a.label.span.stop ≤ b.label.span.start

theorem ordered_iff {c : Concrete} :
    c.ordered ↔ c.children.Pairwise (fun a b => a.label.span.stop ≤ b.label.span.start) ∧
      ∀ d ∈ c.children, d.ordered := by
  rw [ordered, every_iff, decide_eq_true_eq]
  rfl

/-- Of two nodes directly below one node, one follows the other. -/
theorem eq_or_apart_of_ordered {c : Concrete} (h : c.ordered) {d e : Concrete}
    (hd : d ∈ c.children) (he : e ∈ c.children) :
    d = e ∨ d.label.span.stop ≤ e.label.span.start ∨ e.label.span.stop ≤ d.label.span.start := by
  have hpair := (ordered_iff.1 h).1
  exact List.Pairwise.forall_of_forall_of_flip
    (R := fun d e : Concrete => d = e ∨ d.label.span.stop ≤ e.label.span.start ∨
      e.label.span.stop ≤ d.label.span.start)
    (fun _ _ => .inl rfl) (hpair.imp fun h => .inr (.inl h)) (hpair.imp fun h => .inr (.inr h)) hd he

end Concrete

namespace Node

/-! ### The order of children -/

theorem pairwise_ofConcretes {siblings cs : List Concrete}
    (hapart : cs.Pairwise fun a b => a.label.span.stop ≤ b.label.span.start)
    (hnested : ∀ c ∈ cs, c.nested)
    (h : ∀ c ∈ cs, (ofConcrete siblings c).Pairwise fun a b => a.span.stop ≤ b.span.start) :
    (ofConcretes siblings cs).Pairwise fun a b => a.span.stop ≤ b.span.start := by
  induction cs with
  | nil => exact List.Pairwise.nil
  | cons c cs ih =>
    rw [List.pairwise_cons] at hapart
    rw [List.forall_mem_cons] at hnested h
    rw [ofConcretes, List.pairwise_append]
    refine ⟨h.1, ih hapart.2 hnested.2 h.2, fun a ha b hb => ?_⟩
    obtain ⟨d, hd, hb⟩ := mem_ofConcretes.1 hb
    have hfirst := Span.covers_iff.1 (Concrete.covers_of_mem_ofConcrete hnested.1 ha)
    have hsecond := Span.covers_iff.1 (Concrete.covers_of_mem_ofConcrete (hnested.2 d hd) hb)
    have := hapart.1 d hd
    omega

/-- What a node turns into follows one another, and so do the children of all of it. -/
theorem pairwise_ofConcrete {siblings : List Concrete} {c : Concrete} (hordered : c.ordered)
    (hnested : c.nested) :
    ((ofConcrete siblings c).Pairwise fun a b => a.span.stop ≤ b.span.start) ∧
      ∀ t ∈ ofConcrete siblings c, t.children.Pairwise fun a b => a.span.stop ≤ b.span.start := by
  induction c using Concrete.ind generalizing siblings with
  | h l cs ih =>
    obtain ⟨hapart, hbelow⟩ := Concrete.ordered_iff.1 hordered
    have hin (d : Concrete) (hd : d ∈ cs) : d.nested := (Concrete.nested_iff.1 hnested d hd).2
    have hall : (ofConcretes cs cs).Pairwise fun a b => a.span.stop ≤ b.span.start :=
      pairwise_ofConcretes hapart hin fun d hd => (ih d hd (hbelow d hd) (hin d hd)).1
    rw [ofConcrete]
    split
    · exact ⟨List.Pairwise.nil, List.forall_mem_nil _⟩
    · split
      · refine ⟨List.pairwise_singleton _ _, fun t ht => ?_⟩
        obtain rfl := List.mem_singleton.1 ht
        exact hall
      · refine ⟨hall, fun t ht => ?_⟩
        obtain ⟨d, hd, ht⟩ := mem_ofConcretes.1 ht
        exact (ih d hd (hbelow d hd) (hin d hd)).2 t ht

/-- The children of a program, if there are any, are those of a tree that its root turns into. -/
theorem children_ofRoot (source : Text) (root : Option Concrete) :
    (ofRoot source root).children = [] ∨
      ∃ c ∈ root, ∃ t ∈ ofConcrete [] c, (ofRoot source root).children = t.children := by
  rcases root with _ | c
  · exact .inl rfl
  rcases hc : ofConcrete [] c with _ | ⟨first, others⟩
  · left
    simp only [ofRoot, Option.toList_some, List.flatMap_singleton, hc]
    rfl
  · exact .inr ⟨c, rfl, first, hc ▸ List.mem_cons_self, children_ofRoot_of_cons source hc⟩

end Node

/-! ### Tokens and children -/

namespace Span

/-- The span does not end before it starts, and the trees that stand below a node lie within it or
beside it. -/
def Spares (c : Concrete) (m : Span) : Prop :=
  m.start ≤ m.stop ∧ ∀ t ∈ Node.ofConcretes c.children c.children, m.Clears t.span

theorem Spares.cover {c : Concrete} {a b : Span} (ha : a.Spares c) (hb : b.Spares c) :
    (a.cover b).Spares c :=
  ⟨Nat.le_max_right _ _, fun t ht => (ha.2 t ht).cover (hb.2 t ht) ha.1 hb.1⟩

end Span

/-- The parts of a node spare the trees below it. -/
theorem Parts.all_spares {c : Concrete} (hordered : c.ordered) (hnested : c.nested)
    (hforward : c.forward) : (Parts.of c.children).All (Span.Spares c) := by
  intro p hp
  have hmem := (Part.mem_of_mem_listFrom hp).1
  refine ⟨(Concrete.forward_iff.1 ((Concrete.forward_iff.1 hforward).2 _ hmem)).1, fun t ht => ?_⟩
  obtain ⟨d, hd, ht⟩ := Node.mem_ofConcretes.1 ht
  refine Span.Clears.of_covers ?_
    (Concrete.covers_of_mem_ofConcrete (Concrete.nested_iff.1 hnested d hd).2 ht)
  rcases Concrete.eq_or_apart_of_ordered hordered hmem hd with rfl | hbefore | hbehind
  · exact .inl (Span.covers_refl _)
  · exact .inr (.inr hbefore)
  · exact .inr (.inl hbehind)

namespace Kind

/-- The delimiters of a kind and, for a list literal, its elements. -/
def fences : Kind → List (Option Span)
  | array d elements _ => [d.opening, d.closing, elements]
  | block d _ => [d.opening, d.closing]
  | argumentList d => [d.opening, d.closing]
  | stringLike d _ => [d.opening, d.closing]
  | elementReference d => [d.opening, d.closing]
  | _ => []

theorem fences_subset_marks (k : Kind) : k.fences ⊆ k.marks := by
  cases k <;> simp [fences, marks]

/-- The fences of a node meet a condition that its parts meet. -/
theorem fences_classify {P : Span → Prop} (hcover : ∀ a b, P a → P b → P (a.cover b)) {ps : Parts}
    (h : ps.All P) (typeName : String) (siblings : List Concrete) :
    ∀ o ∈ (classify typeName siblings ps).fences, Parts.Found P o := by
  unfold classify
  split
  any_goals
    (simp [fences, ofConditional, ofModifier, ofClauses, h.token, h.lastToken, h.leadToken,
      h.namedCover hcover, h.opening, h.closing]; done)
  · -- a body, with clauses of its own or without
    split <;> exact List.forall_mem_nil _
  · -- arguments: no closing parenthesis without an opening one
    have hclosing : Parts.Found P (if (ps.leadToken "(").isSome then ps.lastToken ")" else none) := by
      split
      · exact h.lastToken ")"
      · exact Parts.found_none
    simp [fences, h.leadToken, hclosing]

end Kind

namespace Node

/-! ### Trees that are laid out -/

/-- A snug tree in which children follow one another, and in which a child lies within a delimiter
of its parent, or within all the elements, or beside them. -/
structure Laid (root : Node) : Prop extends root.Snug where
  apart : ∀ x ∈ root.cursors, x.node.children.Pairwise fun a b => a.span.stop ≤ b.span.start
  fence : ∀ x ∈ root.cursors, ∀ o ∈ x.kind.fences, ∀ m ∈ o,
    m.start ≤ m.stop ∧ ∀ n ∈ x.node.children, m.Clears n.span

/-- Of two children of a place, one follows the other. -/
theorem Laid.eq_or_apart {root : Node} (h : root.Laid) {x : Cursor} (hx : x ∈ root.cursors)
    {m n : Node} (hm : m ∈ x.node.children) (hn : n ∈ x.node.children) :
    m = n ∨ m.span.stop ≤ n.span.start ∨ n.span.stop ≤ m.span.start := by
  have hpair := h.apart x hx
  exact List.Pairwise.forall_of_forall_of_flip
    (R := fun m n : Node => m = n ∨ m.span.stop ≤ n.span.start ∨ n.span.stop ≤ m.span.start)
    (fun _ _ => .inl rfl) (hpair.imp fun h => .inr (.inl h)) (hpair.imp fun h => .inr (.inr h)) hm hn

/-- **The layout of a tree.** -/
theorem laid_ofRoot (source : Text) {root : Option Concrete} (h : ∀ c ∈ root,
    c.nested ∧ c.forward ∧ c.ordered ∧ Span.covers ⟨0, Text.size source⟩ c.label.span) :
    (ofRoot source root).Laid := by
  have hsnug : (ofRoot source root).Snug := snug_ofRoot source fun c hc => by
    obtain ⟨hnested, hforward, -, hwhole⟩ := h c hc
    exact ⟨hnested, hforward, hwhole⟩
  have hsite {c : Concrete} (hc : c ∈ root) {s : Concrete.Site} (hs : s ∈ c.kept) :
      s.concrete.nested ∧ s.concrete.forward ∧ s.concrete.ordered := by
    obtain ⟨hnested, hforward, hordered, -⟩ := h c hc
    exact ⟨Concrete.every_of_mem_kept hnested hs s.here List.mem_cons_self,
      Concrete.every_of_mem_kept hforward hs s.here List.mem_cons_self,
      Concrete.every_of_mem_kept hordered hs s.here List.mem_cons_self⟩
  refine ⟨hsnug, ?_, ?_⟩
  · intro x hx
    rcases root_or_site hx with rfl | ⟨c, hc, s, hs, hmatches⟩
    · rw [Cursor.node]
      rcases children_ofRoot source root with hnone | ⟨c, hc, t, ht, hchildren⟩
      · exact hnone ▸ List.Pairwise.nil
      · obtain ⟨hnested, -, hordered, -⟩ := h c hc
        exact hchildren ▸ (pairwise_ofConcrete hordered hnested).2 t ht
    · obtain ⟨hnested, -, hordered⟩ := hsite hc hs
      rw [hmatches.node_eq]
      exact pairwise_ofConcretes (Concrete.ordered_iff.1 hordered).1
        (fun d hd => (Concrete.nested_iff.1 hnested d hd).2) fun d hd =>
          (pairwise_ofConcrete ((Concrete.ordered_iff.1 hordered).2 d hd)
            (Concrete.nested_iff.1 hnested d hd).2).1
  · intro x hx
    rcases root_or_site hx with rfl | ⟨c, hc, s, hs, hmatches⟩
    · rw [Cursor.kind, Cursor.node, kind_ofRoot]
      exact List.forall_mem_nil _
    · obtain ⟨hnested, hforward, hordered⟩ := hsite hc hs
      rw [Cursor.kind, hmatches.node_eq]
      exact Kind.fences_classify (fun _ _ => Span.Spares.cover)
        (Parts.all_spares hordered hnested hforward) _ _

end Node

end RubyLens
