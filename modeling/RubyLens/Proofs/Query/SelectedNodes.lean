import RubyLens.Proofs.Query.Selection
import RubyLens.Proofs.Syntax.Layout

/-!
Which nodes are selected. The nodes at an offset and the spans that they offer never cut one another:
of two of them one lies within the other, or they lie beside one another and only touch
(`clears_or_offered`). A list in order of size loses a span only to one that is kept before it and
does not lie within it (`mem_or_exists_of_mem_chainFrom`). So a node is lost exactly where the chain
has a span, no longer than the node, that meets it at the offset alone.

Main statement: `span_mem_spansAt_iff`. That nodes are lost: `span_notMem_spansAt`.
-/

namespace RubyLens

namespace Span

/-- Two spans that are not empty meet at an offset and nowhere else. -/
def MeetAt (offset : Nat) (a b : Span) : Prop :=
  a.start < a.stop ∧ b.start < b.stop ∧
    (a.stop = offset ∧ b.start = offset ∨ b.stop = offset ∧ a.start = offset)

instance (offset : Nat) (a b : Span) : Decidable (MeetAt offset a b) :=
  inferInstanceAs (Decidable (_ ∧ _ ∧ _))

variable {a b : Span} {offset : Nat}

/-- Around an offset, what does not cut the other meets it there alone or lies within it. -/
theorem Clears.meetAt_or_covers (h : a.Clears b) (ha : a.contains offset) (hb : b.contains offset)
    (hlen : a.len ≤ b.len) : MeetAt offset a b ∨ b.covers a := by
  simp only [Clears, MeetAt, covers_iff, contains_iff, len] at *
  omega

theorem MeetAt.not_covers (h : MeetAt offset a b) : ¬ b.covers a := by
  simp only [MeetAt, covers_iff] at *
  omega

end Span

/-- The tree of `abc[]`. -/
def Concrete.emptyBrackets : Concrete :=
  .node ⟨"program", true, false, ⟨0, 5⟩, none⟩ [
    .node ⟨"element_reference", true, false, ⟨0, 5⟩, none⟩ [
      .node ⟨"identifier", true, false, ⟨0, 3⟩, some "object"⟩ [],
      .node ⟨"[", false, false, ⟨3, 4⟩, none⟩ [],
      .node ⟨"]", false, false, ⟨4, 5⟩, none⟩ []]]

namespace Selection

/-! ### Chains of ordered lists -/

/-- Of an ordered list, what is not kept is lost to something that is kept before it. -/
theorem mem_or_exists_of_mem_chainFrom {last s : Span} {l : List Span}
    (hsorted : (last :: l).Pairwise fun a b => a.smaller b) (hs : s ∈ last :: l) :
    s ∈ last :: chainFrom (some last) l ∨
      ∃ t ∈ last :: chainFrom (some last) l, t.len ≤ s.len ∧ ¬ s.covers t := by
  induction l generalizing last with
  | nil => exact .inl hs
  | cons a l ih =>
    obtain ⟨hlast, hrest⟩ := List.pairwise_cons.1 hsorted
    rw [chainFrom]
    split
    · -- `a` is kept, and from now on it is the last one
      rcases List.mem_cons.1 hs with rfl | hs
      · exact .inl List.mem_cons_self
      · rcases ih hrest hs with hmem | ⟨t, ht, hlen⟩
        · exact .inl (List.mem_cons_of_mem last hmem)
        · exact .inr ⟨t, List.mem_cons_of_mem last ht, hlen⟩
    · next hkeep =>
      have hwithout : (last :: l).Pairwise fun a b => a.smaller b :=
        List.pairwise_cons.2
          ⟨fun b hb => hlast b (List.mem_cons_of_mem a hb), (List.pairwise_cons.1 hrest).2⟩
      rcases List.mem_cons.1 hs with rfl | hs
      · exact .inl List.mem_cons_self
      · rcases List.mem_cons.1 hs with rfl | hs
        · -- `s` is lost to the last one, unless it is the last one
          by_cases hcovers : s.covers last
          · left
            rw [hcovers, Bool.true_and, bne_iff_ne, not_not] at hkeep
            rw [hkeep]
            exact List.mem_cons_self
          · exact .inr ⟨last, List.mem_cons_self,
              Span.len_le_of_smaller (hlast s List.mem_cons_self), hcovers⟩
        · exact ih hwithout (List.mem_cons_of_mem last hs)

theorem mem_or_exists_of_mem {s : Span} {l : List Span}
    (hsorted : l.Pairwise fun a b => a.smaller b) (hs : s ∈ l) :
    s ∈ chainFrom none l ∨ ∃ t ∈ chainFrom none l, t.len ≤ s.len ∧ ¬ s.covers t := by
  cases l with
  | nil => cases hs
  | cons a l => exact mem_or_exists_of_mem_chainFrom hsorted hs

theorem encloses_trans {a b c : Span} (hab : Encloses a b) (hbc : Encloses b c) : Encloses a c := by
  refine ⟨Span.covers_trans hbc.1 hab.1, ?_⟩
  rintro rfl
  exact hab.2 (Span.covers_antisymm hab.1 hbc.1)

theorem pairwise_chainFrom (l : List Span) : (chainFrom none l).Pairwise Encloses :=
  have : IsTrans Span Encloses := ⟨fun _ _ _ => encloses_trans⟩
  List.isChain_iff_pairwise.1 (isChain_chainFrom l)

/-- In a chain, what is no longer than another span lies within it. -/
theorem covers_of_mem_chainFrom {l : List Span} {s t : Span} (hs : s ∈ chainFrom none l)
    (ht : t ∈ chainFrom none l) (hforward : s.start ≤ s.stop) (hlen : t.len ≤ s.len) :
    s.covers t := by
  have hcases : s = t ∨ Encloses s t ∨ Encloses t s :=
    List.Pairwise.forall_of_forall_of_flip (R := fun a b => a = b ∨ Encloses a b ∨ Encloses b a)
      (fun _ _ => .inl rfl) ((pairwise_chainFrom l).imp fun h => .inr (.inl h))
      ((pairwise_chainFrom l).imp fun h => .inr (.inr h)) hs ht
  rcases hcases with rfl | hbehind | hbefore
  · exact Span.covers_refl s
  · -- `t` encloses `s` without being longer, so it is `s`
    obtain ⟨hcovers, -⟩ := hbehind
    simp only [Span.covers_iff, Span.len] at *
    omega
  · exact hbefore.1

/-! ### Offers and the nodes at an offset -/

theorem span_mem_offers {n : Node} (h : ∀ endKeyword, n.kind ≠ .loopBody none endKeyword) :
    n.span ∈ offers n := by
  obtain ⟨t, k, s, cs⟩ := n
  have hlast (l : List Span) : s ∈ l ++ [s] := List.mem_append_right l (List.mem_singleton_self s)
  cases k with
  | array d elements percent => exact hlast _
  | call receiver method arguments block => exact hlast _
  | argumentList d => exact hlast _
  | stringLike d interpolated => exact hlast _
  | elementReference d =>
    rw [offers]
    split
    · split
      · exact hlast [_, _]
      · exact hlast []
    · exact hlast []
  | loopBody doKeyword endKeyword =>
    cases doKeyword with
    | none => exact absurd rfl (h endKeyword)
    | some _ => exact hlast []
  | _ => exact hlast []

/-- What a node offers does not cut its children, unless it is what a child offers. -/
theorem clears_child_or_offered {root : Node} (h : root.Laid) {p : Place} {above : List Place}
    (hp : ⟨p, above⟩ ∈ root.cursors) {c : Node} (hc : c ∈ p.node.children) :
    ∀ s ∈ offers p.node, s.Clears c.span ∨ s ∈ offers c := by
  intro s hs
  have hfence {m : Span} (hm : some m ∈ p.node.kind.fences) :
      m.start ≤ m.stop ∧ m.Clears c.span := by
    obtain ⟨hle, hclears⟩ := h.fence _ hp _ hm m rfl
    exact ⟨hle, hclears c hc⟩
  rcases mem_offers_cases hs with rfl | hs | ⟨a, b, ha, hb, hle, hs⟩ | ⟨m, hm, hs⟩
  · exact .inl (.inl (h.toSnug.covers_of_mem_children hp hc))
  · exact .inl (hfence hs).2
  · obtain ⟨hale, hfirst⟩ := hfence ha
    obtain ⟨hble, hlast⟩ := hfence hb
    rcases hs with rfl | rfl
    · exact .inl (hfirst.inner hlast hale hble)
    · have hcover : a.cover b = ⟨a.start, b.stop⟩ := by
        rw [Span.cover, Nat.max_eq_left (by omega)]
      exact .inl (hcover ▸ hfirst.cover hlast hale hble)
  · rcases h.eq_or_apart hp hm hc with rfl | hbefore | hbehind
    · exact .inr hs
    · -- what another child offers lies beside this one
      have hin := Span.covers_iff.1 (covers_of_child_offers h.toSnug hp hm s hs)
      exact .inl (.inr (.inr (Nat.le_trans hin.2 hbefore)))
    · have hin := Span.covers_iff.1 (covers_of_child_offers h.toSnug hp hm s hs)
      exact .inl (.inr (.inl (Nat.le_trans hbehind hin.1)))

/-- What is offered on the way up from a place does not cut the node there, unless the node itself
offers it. -/
theorem clears_or_offered {root : Node} (h : root.Laid) {x : Cursor} (hx : x ∈ root.cursors) :
    ∀ q ∈ x.path, ∀ s ∈ offers q.node, s.Clears x.span ∨ s ∈ offers x.node := by
  refine Node.down (P := fun x => ∀ q ∈ x.path, ∀ s ∈ offers q.node,
    s.Clears x.span ∨ s ∈ offers x.node) ?_ ?_ hx
  · intro q hq s hs
    obtain rfl := List.mem_singleton.1 hq
    exact .inr hs
  · intro x hx c hc ih q hq s hs
    rcases List.mem_cons.1 hq with rfl | hq
    · exact .inr hs
    · have hchild := Place.node_mem_of_mem_children hc
      rcases ih q hq s hs with hclears | hoffered
      · exact .inl (hclears.of_covers (h.toSnug.covers_of_mem_children hx hchild))
      · exact clears_child_or_offered h hx hchild s hoffered

/-- On the way up from a place each node lies within those above it. -/
theorem pairwise_covers_path {root : Node} (h : root.Snug) {x : Cursor} (hx : x ∈ root.cursors) :
    x.path.Pairwise fun a b => b.node.span.covers a.node.span := by
  refine Node.down (P := fun x => x.path.Pairwise fun a b => b.node.span.covers a.node.span)
    (List.pairwise_singleton _ _) ?_ hx
  intro x hx q hq ih
  refine List.pairwise_cons.2 ⟨fun r hr => ?_, ih⟩
  have hchild : x.span.covers q.node.span := h.child x hx q hq
  rcases List.mem_cons.1 hr with rfl | hr
  · exact hchild
  · exact Span.covers_trans ((List.pairwise_cons.1 ih).1 r hr) hchild

/-- Of the spans offered around an offset, the chain loses that of a node exactly to one that is
offered further up, no longer than the node, and meets it at the offset alone. -/
theorem span_mem_chain_iff {root : Node} (h : root.Laid) {x : Cursor} (hx : x ∈ root.cursors)
    {offset : Nat} (hoffset : ∀ q ∈ x.path, q.node.span.contains offset) {p : Place}
    {above : List Place} (hpath : p :: above <:+ x.path)
    (hbody : ∀ endKeyword, p.node.kind ≠ .loopBody none endKeyword) :
    let spans := chainFrom none (((x.path.flatMap fun q => offers q.node).filter
      fun s => s.contains offset).mergeSort Span.smaller)
    p.node.span ∈ spans ↔ ¬ ∃ q ∈ above, ∃ s ∈ offers q.node,
      s ∈ spans ∧ s.len ≤ p.node.span.len ∧ Span.MeetAt offset s p.node.span := by
  intro spans
  have haround (s : Span) : s ∈ ((x.path.flatMap fun q => offers q.node).filter
      fun s => s.contains offset).mergeSort Span.smaller ↔
        (∃ q ∈ x.path, s ∈ offers q.node) ∧ s.contains offset := by
    rw [List.mem_mergeSort, List.mem_filter, List.mem_flatMap]
  have hlisted : ⟨p, above⟩ ∈ root.cursors := Node.mem_cursors_of_suffix hx hpath
  obtain ⟨below, hbelow⟩ := hpath
  have hp : p ∈ x.path := hbelow ▸ List.mem_append_right below List.mem_cons_self
  constructor
  · rintro hmem ⟨q, -, s, -, hs, hlen, hmeet⟩
    exact hmeet.not_covers (covers_of_mem_chainFrom hmem hs hmeet.2.1.le hlen)
  · intro hnone
    have hoffered := (haround p.node.span).2 ⟨⟨p, hp, span_mem_offers hbody⟩, hoffset p hp⟩
    rcases mem_or_exists_of_mem (Span.pairwise_mergeSort_smaller _) hoffered with
      hmem | ⟨s, hs, hlen, hnot⟩
    · exact hmem
    refine absurd ?_ hnone
    obtain ⟨⟨q, hq, hsq⟩, hcontains⟩ := (haround s).1 ((sublist_chainFrom none _).subset hs)
    -- `s` is not offered at the node or below it, for it would lie within the node
    have hq : q ∈ above := by
      have hpair := pairwise_covers_path h.toSnug hx
      obtain ⟨rest, hq'⟩ := Node.exists_cursor_of_mem_path hx q hq
      have hin := covers_of_snug h.toSnug hq' s hsq
      rw [← hbelow] at hq hpair
      rcases List.mem_append.1 hq with hq | hq
      · have hcovers := (List.pairwise_append.1 hpair).2.2 q hq p List.mem_cons_self
        exact absurd (Span.covers_trans hcovers hin) hnot
      · rcases List.mem_cons.1 hq with rfl | hq
        · exact absurd hin hnot
        · exact hq
    rcases clears_or_offered h hlisted q (List.mem_cons_of_mem p hq) s hsq with hclears | hown
    · rcases hclears.meetAt_or_covers hcontains (hoffset p hp) hlen with hmeet | hcovers
      · exact ⟨q, hq, s, hsq, hs, hlen, hmeet⟩
      · exact absurd hcovers hnot
    · exact absurd (covers_of_snug h.toSnug hlisted s hown) hnot

/-- **Selected nodes.** The most specific node at an offset and all nodes above it are selected, but
for loop bodies without `do` and for those that the chain loses. It loses a node exactly if it has
another span that is no longer and meets the node at the offset alone: there one of them ends and the
other starts. Such a span is offered by a node further up, as its arguments or its brackets. -/
theorem span_mem_spansAt_iff (parser : Parser) (text : Text) (offset : Nat)
    (hparser : ∀ c ∈ parser text, c.nested ∧ c.forward ∧ c.ordered ∧
      Span.covers ⟨0, Text.size text⟩ c.label.span)
    {p : Place} {above : List Place}
    (hpath : p :: above <:+ ((Source.parse parser text).root.cursorAt offset).path)
    (hbody : ∀ endKeyword, p.node.kind ≠ .loopBody none endKeyword) :
    p.node.span ∈ spansAt (Source.parse parser text) offset ↔
      ¬ ∃ q ∈ above, ∃ s ∈ offers q.node, s ∈ spansAt (Source.parse parser text) offset ∧
        s.len ≤ p.node.span.len ∧
          Span.MeetAt (min offset (Text.size text)) s p.node.span := by
  have hspan := Node.span_ofRoot text (parser text)
  have hroot : (Node.ofRoot text (parser text)).span.contains
      (min offset (Node.ofRoot text (parser text)).span.stop) := by
    rw [hspan, Span.contains_iff]
    exact ⟨Nat.zero_le _, Nat.min_le_right _ _⟩
  have hcontains := Node.contains_cursorAt hroot
  rw [hspan] at hcontains
  exact span_mem_chain_iff (Node.laid_ofRoot text hparser)
    (Node.cursorAt_mem_cursors (Node.ofRoot text (parser text)) offset) hcontains hpath hbody

/-! ### A node that is lost -/

open Concrete (emptyBrackets)

theorem spansAt_emptyBrackets :
    spansAt (Source.parse (fun _ => some emptyBrackets) "abc[]".toList) 3 = [⟨3, 5⟩, ⟨0, 5⟩] := by
  rw [spansAt_of_around (l := [⟨3, 5⟩, ⟨0, 3⟩, ⟨0, 5⟩, ⟨0, 5⟩]) (by decide) (by decide) (by decide)]
  decide

/-- Behind `abc` in `abc[]` the brackets are selected, and the word is not. -/
theorem span_notMem_spansAt :
    let text : Text := "abc[]".toList
    let parser : Parser := fun _ => some emptyBrackets
    let found := (Source.parse parser text).root.cursorAt 3
    (∀ c ∈ parser text, c.nested ∧ c.forward ∧ c.ordered ∧
        Span.covers ⟨0, Text.size text⟩ c.label.span) ∧
      found.here ∈ found.path ∧ (∀ endKeyword, found.kind ≠ .loopBody none endKeyword) ∧
      found.span = ⟨0, 3⟩ ∧ found.span ∉ spansAt (Source.parse parser text) 3 := by
  intro text parser found
  have hspan : found.span = ⟨0, 3⟩ := by decide
  have hkind : found.kind = .identifier := by decide
  refine ⟨fun c hc => ?_, List.mem_cons_self, fun e => by rw [hkind]; exact Kind.noConfusion, hspan,
    ?_⟩
  · obtain rfl := Option.some.inj hc
    decide
  · rw [hspan, spansAt_emptyBrackets]
    decide

theorem span_mem_spansAt_iff_emptyBrackets :
    let text : Text := "abc[]".toList
    let parser : Parser := fun _ => some emptyBrackets
    let root := (Source.parse parser text).root
    (emptyBrackets.nested ∧ emptyBrackets.forward ∧ emptyBrackets.ordered ∧
        Span.covers ⟨0, Text.size text⟩ emptyBrackets.label.span) ∧
      (∃ p above, p :: above <:+ (root.cursorAt 2).path ∧ p.node.kind = .identifier ∧
        p.node.span = ⟨0, 3⟩ ∧ p.node.span ∈ spansAt (Source.parse parser text) 2) ∧
      ∃ p above, p :: above <:+ (root.cursorAt 3).path ∧ p.node.kind = .identifier ∧
        p.node.span = ⟨0, 3⟩ ∧ p.node.span ∉ spansAt (Source.parse parser text) 3 := by
  intro text parser root
  have hwell : emptyBrackets.nested ∧ emptyBrackets.forward ∧ emptyBrackets.ordered ∧
      Span.covers ⟨0, Text.size text⟩ emptyBrackets.label.span := by decide
  have hparser : ∀ c ∈ parser text, c.nested ∧ c.forward ∧ c.ordered ∧
      Span.covers ⟨0, Text.size text⟩ c.label.span := by
    intro c hc
    obtain rfl := Option.some.inj hc
    exact hwell
  refine ⟨hwell, ⟨(root.cursorAt 2).here, (root.cursorAt 2).above, List.suffix_refl _, by decide,
    by decide, ?_⟩, (root.cursorAt 3).here, (root.cursorAt 3).above, List.suffix_refl _, by decide,
    by decide, ?_⟩
  · have hkind : (root.cursorAt 2).here.node.kind = .identifier := by decide
    -- nothing that is offered further up meets the word at its last letter alone
    have hnone : ∀ q ∈ (root.cursorAt 2).above, ∀ s ∈ offers q.node,
        ¬ Span.MeetAt (min 2 (Text.size text)) s (root.cursorAt 2).here.node.span := by decide
    refine (span_mem_spansAt_iff parser text 2 hparser (List.suffix_refl _) fun e => by
      rw [hkind]; exact Kind.noConfusion).2 ?_
    rintro ⟨q, hq, s, hs, -, -, hmeet⟩
    exact hnone q hq s hs hmeet
  · have hkind : (root.cursorAt 3).here.node.kind = .identifier := by decide
    have hbrackets : ∃ q ∈ (root.cursorAt 3).above, ⟨3, 5⟩ ∈ offers q.node ∧
        Span.len ⟨3, 5⟩ ≤ (root.cursorAt 3).here.node.span.len ∧
        Span.MeetAt (min 3 (Text.size text)) ⟨3, 5⟩ (root.cursorAt 3).here.node.span := by decide
    obtain ⟨q, hq, hs, hlen, hmeet⟩ := hbrackets
    intro hmem
    refine (span_mem_spansAt_iff parser text 3 hparser (List.suffix_refl _) fun e => by
      rw [hkind]; exact Kind.noConfusion).1 hmem ⟨q, hq, ⟨3, 5⟩, hs, ?_, hlen, hmeet⟩
    rw [spansAt_emptyBrackets]
    decide

end Selection

end RubyLens
