import Mathlib.Data.List.Chain
import RubyLens.Proofs.Syntax.Layout
import RubyLens.Query.Selection

/-!
Growing selections. In a snug tree a node offers nothing outside itself (`covers_of_mem_offers`), so
the whole text encloses all that is offered. Of a list of spans `chainFrom` keeps those that strictly
enclose the last one kept. Which spans these are depends on their order, but not that the chain ends
with a span that encloses all of them (`getLast?_cons_chainFrom`).

Main statement: `spansAt_encloses`.
-/

namespace RubyLens

/-! ### Order of size -/

namespace Span

variable {a b : Span}

theorem smaller_iff : a.smaller b ↔ a.len < b.len ∨ a.len = b.len ∧ a.start ≤ b.start := by
  simp [smaller]

theorem len_le_of_smaller (h : a.smaller b) : a.len ≤ b.len := by
  rw [smaller_iff] at h
  omega

theorem smaller_antisymm (ha : a.start ≤ a.stop) (hb : b.start ≤ b.stop) (hab : a.smaller b)
    (hba : b.smaller a) : a = b := by
  obtain ⟨i, j⟩ := a
  obtain ⟨k, l⟩ := b
  rw [smaller_iff] at hab hba
  simp only [len] at *
  rw [mk.injEq]
  omega

theorem pairwise_mergeSort_smaller (l : List Span) :
    (l.mergeSort smaller).Pairwise fun a b => a.smaller b := by
  refine List.pairwise_mergeSort ?_ ?_ l
  · intro a b c hab hbc
    rw [smaller_iff] at *
    omega
  · intro a b
    rw [Bool.or_eq_true, smaller_iff, smaller_iff]
    omega

/-- Spans that are not backwards have only one order by size. -/
theorem mergeSort_smaller_eq {l l' : List Span} (h : l.Perm l')
    (hsorted : l'.Pairwise fun a b => a.smaller b) (hforward : ∀ m ∈ l', m.start ≤ m.stop) :
    l.mergeSort smaller = l' := by
  have hperm := (List.mergeSort_perm l smaller).trans h
  refine hperm.eq_of_pairwise (fun a b ha hb => ?_) (pairwise_mergeSort_smaller l) hsorted
  exact smaller_antisymm (hforward a (hperm.mem_iff.1 ha)) (hforward b hb)

end Span

namespace Selection

/-! ### What nodes offer -/

theorem mem_offersAt {slot : Slot} {ns : List Node} {s : Span} (h : s ∈ offersAt slot ns) :
    ∃ n ∈ ns, s ∈ offers n := by
  induction ns generalizing slot with
  | nil => cases h
  | cons n ns ih =>
    cases slot with
    | zero => exact ⟨n, List.mem_cons_self, h⟩
    | succ slot =>
      obtain ⟨m, hm, hs⟩ := ih h
      exact ⟨m, List.mem_cons_of_mem n hm, hs⟩

theorem offers_of_program {n : Node} (h : n.kind = .program) : offers n = [n.span] := by
  obtain ⟨t, k, s, cs⟩ := n
  obtain rfl : k = .program := h
  rfl

/-- What a node offers is its own span, one of its fences, what lies between two fences, what reaches
from one to the other, or what a child offers. -/
theorem mem_offers_cases {n : Node} {s : Span} (h : s ∈ offers n) :
    s = n.span ∨ some s ∈ n.kind.fences ∨
      (∃ a b, some a ∈ n.kind.fences ∧ some b ∈ n.kind.fences ∧ a.stop ≤ b.start ∧
        (s = ⟨a.stop, b.start⟩ ∨ s = ⟨a.start, b.stop⟩)) ∨
      ∃ m ∈ n.children, s ∈ offers m := by
  obtain ⟨t, k, whole, cs⟩ := n
  have hlast {l : List Span} (hs : s ∈ l ++ [whole]) : s ∈ l ∨ s = whole := by
    rwa [List.mem_append, List.mem_singleton] at hs
  have hinner {d : Delimiters} (hs : s ∈ d.inner.toList) :
      ∃ a b, d.opening = some a ∧ d.closing = some b ∧ a.stop ≤ b.start ∧ s = ⟨a.stop, b.start⟩ := by
    obtain ⟨opening, closing⟩ := d
    rcases opening with _ | a
    · cases hs
    rcases closing with _ | b
    · cases hs
    simp only [Delimiters.inner, Option.mem_toList, Option.ite_none_right_eq_some,
      Option.some.injEq] at hs
    exact ⟨a, b, rfl, rfl, hs.1, hs.2.symm⟩
  cases k with
  | array d elements percent =>
    rcases hlast h with hs | rfl
    · cases percent with
      | true =>
        obtain ⟨a, b, ha, hb, hle, rfl⟩ := hinner hs
        exact .inr (.inr (.inl ⟨a, b, by simp [Kind.fences, Node.kind, ha],
          by simp [Kind.fences, Node.kind, hb], hle, .inl rfl⟩))
      | false =>
        obtain rfl := Option.mem_toList.1 hs
        exact .inr (.inl (by simp [Kind.fences, Node.kind]))
    · exact .inl rfl
  | call receiver method arguments block =>
    rcases hlast h with hs | rfl
    · cases arguments with
      | none => cases hs
      | some slot => exact .inr (.inr (.inr (mem_offersAt hs)))
    · exact .inl rfl
  | argumentList d | stringLike d interpolated =>
    rcases hlast h with hs | rfl
    · obtain ⟨a, b, ha, hb, hle, rfl⟩ := hinner hs
      exact .inr (.inr (.inl ⟨a, b, by simp [Kind.fences, Node.kind, ha],
        by simp [Kind.fences, Node.kind, hb], hle, .inl rfl⟩))
    · exact .inl rfl
  | elementReference d =>
    obtain ⟨opening, closing⟩ := d
    rcases opening with _ | a
    · exact .inl (List.mem_singleton.1 h)
    rcases closing with _ | b
    · exact .inl (List.mem_singleton.1 h)
    simp only [offers] at h
    split at h
    · next hle =>
      -- what is in the brackets, and then the brackets as well
      simp only [List.mem_cons, List.not_mem_nil, or_false] at h
      have hfences : some a ∈ Kind.fences (.elementReference ⟨some a, some b⟩) ∧
          some b ∈ Kind.fences (.elementReference ⟨some a, some b⟩) := by simp [Kind.fences]
      rcases h with rfl | rfl | rfl
      · exact .inr (.inr (.inl ⟨a, b, hfences.1, hfences.2, hle, .inl rfl⟩))
      · exact .inr (.inr (.inl ⟨a, b, hfences.1, hfences.2, hle, .inr rfl⟩))
      · exact .inl rfl
    · exact .inl (List.mem_singleton.1 h)
  | loopBody doKeyword endKeyword =>
    cases doKeyword with
    | none => cases h
    | some _ => exact .inl (List.mem_singleton.1 h)
  | _ => exact .inl (List.mem_singleton.1 h)

/-- A node offers nothing outside itself if its children do not. -/
theorem covers_of_mem_offers {n : Node} (hmarks : ∀ o ∈ n.kind.marks, n.span.Holds o)
    (hbelow : ∀ m ∈ n.children, ∀ s ∈ offers m, n.span.covers s) :
    ∀ s ∈ offers n, n.span.covers s := by
  have hfences {m : Span} (hm : some m ∈ n.kind.fences) : n.span.covers m ∧ m.start ≤ m.stop :=
    hmarks _ (Kind.fences_subset_marks n.kind hm) m rfl
  intro s hs
  rcases mem_offers_cases hs with rfl | hs | ⟨a, b, ha, hb, hle, hs⟩ | ⟨m, hm, hs⟩
  · exact Span.covers_refl _
  · exact (hfences hs).1
  · have hfirst := hfences ha
    have hlast := hfences hb
    simp only [Span.covers_iff] at *
    rcases hs with rfl | rfl <;> simp only <;> omega
  · exact hbelow m hm s hs

/-- In a snug tree nodes offer nothing outside themselves. -/
theorem covers_of_snug {root : Node} (h : root.Snug) {p : Place} {above : List Place}
    (hp : ⟨p, above⟩ ∈ root.cursors) : ∀ s ∈ offers p.node, p.node.span.covers s := by
  induction p using Place.ind generalizing above with
  | h p ih =>
    refine covers_of_mem_offers (h.marks _ hp) fun m hm s hs => ?_
    obtain ⟨q, hq, rfl⟩ := Place.exists_mem_children hm
    have hlisted := Node.child_mem_cursors hp hq
    exact Span.covers_trans (h.child _ hp q hq) (ih q hq hlisted s hs)

theorem covers_of_child_offers {root : Node} (h : root.Snug) {p : Place} {above : List Place}
    (hp : ⟨p, above⟩ ∈ root.cursors) {n : Node} (hn : n ∈ p.node.children) :
    ∀ s ∈ offers n, n.span.covers s := by
  obtain ⟨q, hq, rfl⟩ := Place.exists_mem_children hn
  exact covers_of_snug h (Node.child_mem_cursors hp hq)

/-! ### Chains -/

/-- The second span strictly encloses the first one. -/
def Encloses (a b : Span) : Prop := b.covers a ∧ b ≠ a

theorem sublist_chainFrom (last : Option Span) (l : List Span) : (chainFrom last l).Sublist l := by
  induction l generalizing last with
  | nil => cases last <;> exact List.Sublist.refl []
  | cons s ss ih =>
    cases last with
    | none => exact (ih (some s)).cons_cons s
    | some last =>
      rw [chainFrom]
      split
      · exact (ih (some s)).cons_cons s
      · exact (ih (some last)).cons s

theorem isChain_cons_chainFrom (last : Span) (l : List Span) :
    (last :: chainFrom (some last) l).IsChain Encloses := by
  induction l generalizing last with
  | nil => exact List.IsChain.singleton last
  | cons s ss ih =>
    rw [chainFrom]
    split
    · next h =>
      rw [Bool.and_eq_true, bne_iff_ne] at h
      exact List.IsChain.cons_cons h (ih s)
    · exact ih last

/-- A span that encloses all others ends the chain, wherever it stands among them. -/
theorem getLast?_cons_chainFrom {whole last : Span} {l : List Span} (hmem : whole ∈ last :: l)
    (hwhole : ∀ s ∈ last :: l, whole.covers s) :
    (last :: chainFrom (some last) l).getLast? = some whole := by
  induction l generalizing last with
  | nil =>
    obtain rfl := List.mem_singleton.1 hmem
    rfl
  | cons s ss ih =>
    rw [List.forall_mem_cons, List.forall_mem_cons] at hwhole
    obtain ⟨hlast, hs, hss⟩ := hwhole
    rw [chainFrom]
    split
    · next h =>
      rw [Bool.and_eq_true, bne_iff_ne] at h
      have hne : whole ≠ last := by
        rintro rfl
        exact h.2 (Span.covers_antisymm h.1 hs)
      rw [List.getLast?_cons_cons]
      exact ih ((List.mem_cons.1 hmem).resolve_left hne) (List.forall_mem_cons.2 ⟨hs, hss⟩)
    · next h =>
      refine ih ?_ (List.forall_mem_cons.2 ⟨hlast, hss⟩)
      rcases List.mem_cons.1 hmem with rfl | hmem
      · exact List.mem_cons_self
      rcases List.mem_cons.1 hmem with rfl | hmem
      · -- it was not kept, though it covers the last one, so it is the last one
        rw [Bool.and_eq_true, bne_iff_ne, not_and, not_not] at h
        rw [h hlast]
        exact List.mem_cons_self
      · exact List.mem_cons_of_mem last hmem

theorem isChain_chainFrom (l : List Span) : (chainFrom none l).IsChain Encloses := by
  cases l with
  | nil => exact List.IsChain.nil
  | cons s ss => exact isChain_cons_chainFrom s ss

theorem chainFrom_ne_nil {l : List Span} (h : l ≠ []) : chainFrom none l ≠ [] := by
  cases l with
  | nil => exact h
  | cons s ss => exact List.cons_ne_nil _ _

theorem getLast?_chainFrom {whole : Span} {l : List Span} (hmem : whole ∈ l)
    (hwhole : ∀ s ∈ l, whole.covers s) : (chainFrom none l).getLast? = some whole := by
  cases l with
  | nil => cases hmem
  | cons s ss => exact getLast?_cons_chainFrom hmem hwhole

/-- Of spans that all lie within one of them, those around an offset make up a chain. -/
theorem chainFrom_around {whole : Span} {l : List Span} (hmem : whole ∈ l)
    (hwhole : ∀ s ∈ l, whole.covers s) {offset : Nat} (hoffset : whole.contains offset) :
    let spans := chainFrom none ((l.filter fun s => s.contains offset).mergeSort Span.smaller)
    spans ≠ [] ∧ (∀ s ∈ spans, s.contains offset) ∧ spans.IsChain Encloses ∧
      spans.getLast? = some whole := by
  intro spans
  have haround (s : Span) :
      s ∈ (l.filter fun s => s.contains offset).mergeSort Span.smaller ↔
        s ∈ l ∧ s.contains offset := by
    rw [List.mem_mergeSort, List.mem_filter]
  have hlast : spans.getLast? = some whole :=
    getLast?_chainFrom ((haround whole).2 ⟨hmem, hoffset⟩)
      fun s hs => hwhole s ((haround s).1 hs).1
  refine ⟨?_, ?_, isChain_chainFrom _, hlast⟩
  · intro hnil
    rw [hnil] at hlast
    cases hlast
  · intro s hs
    exact ((haround s).1 ((sublist_chainFrom none _).subset hs)).2

/-! ### The spans around an offset -/

/-- Which spans there are around an offset is all that matters. -/
theorem spansAt_of_around {s : Source} {offset : Nat} {l : List Span}
    (h : (((s.root.cursorAt offset).path.flatMap fun p => offers p.node).filter
      fun span => span.contains (min offset (Text.size s.text))).Perm l)
    (hsorted : l.Pairwise fun a b => a.smaller b) (hforward : ∀ m ∈ l, m.start ≤ m.stop) :
    spansAt s offset = chainFrom none l := by
  rw [spansAt, Span.mergeSort_smaller_eq h hsorted hforward]

/-- The root encloses all that is offered on the way up to it. -/
theorem covers_of_mem_path {root : Node} (h : root.Snug) {x : Cursor} (hx : x ∈ root.cursors)
    {s : Span} (hs : s ∈ x.path.flatMap fun p => offers p.node) : root.span.covers s := by
  obtain ⟨p, hp, hs⟩ := List.mem_flatMap.1 hs
  obtain ⟨above, hlisted⟩ := Node.exists_cursor_of_mem_path hx p hp
  exact Span.covers_trans (h.covers hlisted) (covers_of_snug h hlisted s hs)

/-- A root that is a program is itself offered. -/
theorem span_mem_path {root : Node} (h : root.kind = .program) {x : Cursor}
    (hx : x ∈ root.cursors) : root.span ∈ x.path.flatMap fun p => offers p.node := by
  have hroot := List.mem_of_getLast? (Node.getLast?_path hx)
  refine List.mem_flatMap.2 ⟨_, hroot, ?_⟩
  rw [offers_of_program h]
  exact List.mem_singleton_self root.span

/-- **Selections.** If the spans of concrete trees nest, then there is always something to select.
All of it contains the offset, or the end of the text if the offset lies behind it; each span strictly
encloses the one before; and the last one is the whole text. -/
theorem spansAt_encloses (parser : Parser) (text : Text) (offset : Nat)
    (hparser : ∀ c ∈ parser text,
      c.nested ∧ c.forward ∧ Span.covers ⟨0, Text.size text⟩ c.label.span) :
    spansAt (Source.parse parser text) offset ≠ [] ∧
      (∀ s ∈ spansAt (Source.parse parser text) offset,
        s.contains (min offset (Text.size text))) ∧
      (spansAt (Source.parse parser text) offset).IsChain Encloses ∧
      (spansAt (Source.parse parser text) offset).getLast? = some ⟨0, Text.size text⟩ := by
  have hsnug := Node.snug_ofRoot text hparser
  have hlisted := Node.cursorAt_mem_cursors (Node.ofRoot text (parser text)) offset
  rw [← Node.span_ofRoot text (parser text)]
  refine chainFrom_around (span_mem_path (Node.kind_ofRoot text (parser text)) hlisted)
    (fun s hs => covers_of_mem_path hsnug hlisted hs) ?_
  rw [Node.span_ofRoot, Span.contains_iff]
  exact ⟨Nat.zero_le _, Nat.min_le_right _ _⟩

open Concrete (unclosedCall) in
theorem spansAt_encloses_unclosedCall :
    let text : Text := ['f', '(', 'a']
    let parser : Parser := fun _ => some unclosedCall
    (unclosedCall.nested ∧ unclosedCall.forward ∧
        Span.covers ⟨0, Text.size text⟩ unclosedCall.label.span) ∧
      spansAt (Source.parse parser text) 2 = [⟨2, 3⟩, ⟨1, 3⟩, ⟨0, 3⟩] ∧
      (spansAt (Source.parse parser text) 2).IsChain Encloses := by
  intro text parser
  have hparser : unclosedCall.nested ∧ unclosedCall.forward ∧
      Span.covers ⟨0, Text.size text⟩ unclosedCall.label.span := by decide
  obtain ⟨-, -, hchain, -⟩ := spansAt_encloses parser text 2 fun c hc => by
    obtain rfl := Option.some.inj hc
    exact hparser
  have haround : (((Source.parse parser text).root.cursorAt 2).path.flatMap fun p =>
      offers p.node).filter (fun s => s.contains (min 2 (Text.size text))) =
        [⟨2, 3⟩, ⟨1, 3⟩, ⟨1, 3⟩, ⟨0, 3⟩, ⟨0, 3⟩] := by decide
  refine ⟨hparser, ?_, hchain⟩
  calc spansAt (Source.parse parser text) 2
      = chainFrom none (List.mergeSort [⟨2, 3⟩, ⟨1, 3⟩, ⟨1, 3⟩, ⟨0, 3⟩, ⟨0, 3⟩] Span.smaller) :=
        congrArg (fun l : List Span => chainFrom none (l.mergeSort Span.smaller)) haround
    _ = [⟨2, 3⟩, ⟨1, 3⟩, ⟨0, 3⟩] := by rw [List.mergeSort_of_pairwise (by decide)]; decide

end Selection

end RubyLens
