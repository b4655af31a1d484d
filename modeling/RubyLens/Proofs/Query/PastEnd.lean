import RubyLens.Proofs.Query.Highlight
import RubyLens.Query.Selection

/-!
Offsets past the end of a text. To the search for a place and to selections such an offset counts as
the end. So it does to highlights, unless the cursor comes to a clause whose link word is the last of
the text: that word is asked for the offset as it is, and does not contain one past the end.

Main statement: `Node.past_end`.
-/

namespace RubyLens

/-- The tree of a text that breaks off, `if a` on one line and `elsif b then` on the next. -/
def Concrete.brokenChain : Concrete :=
  .node ⟨"program", true, false, ⟨0, 17⟩, none⟩ [
    .node ⟨"ERROR", true, false, ⟨0, 17⟩, none⟩ [
      .node ⟨"if", false, false, ⟨0, 2⟩, none⟩ [],
      .node ⟨"identifier", true, false, ⟨3, 4⟩, none⟩ [],
      .node ⟨"elsif", true, false, ⟨5, 17⟩, none⟩ [
        .node ⟨"elsif", false, false, ⟨5, 10⟩, none⟩ [],
        .node ⟨"identifier", true, false, ⟨11, 12⟩, some "condition"⟩ [],
        .node ⟨"then", true, false, ⟨13, 17⟩, some "consequence"⟩ [
          .node ⟨"then", false, false, ⟨13, 17⟩, none⟩ []]]]]

namespace Node

/-- The place at the end of a tree is a clause, and its link word ends there too. -/
def endsInLink (root : Node) : Bool :=
  (Highlight.linkWord (root.cursorAt root.span.stop).kind).any fun keyword =>
    keyword.any fun m => m.stop == root.span.stop

theorem cursorAt_of_stop_le {root : Node} {offset : Nat} (h : root.span.stop ≤ offset) :
    root.cursorAt offset = root.cursorAt root.span.stop := by
  rw [cursorAt, cursorAt, Nat.min_eq_right h, Nat.min_self]

end Node

theorem Selection.spansAt_of_size_le {s : Source} {offset : Nat}
    (hroot : s.root.span.stop = Text.size s.text) (h : Text.size s.text ≤ offset) :
    spansAt s offset = spansAt s (Text.size s.text) := by
  have hcursor : s.root.cursorAt offset = s.root.cursorAt (Text.size s.text) := by
    rw [← hroot] at h ⊢
    exact Node.cursorAt_of_stop_le h
  rw [spansAt, spansAt, hcursor, Nat.min_eq_right h, Nat.min_self]

namespace Highlight

/-- From a clause without link word, or with the cursor off it, nothing is found. -/
theorem spansFrom_of_off {offset : Nat} {y w : Cursor} (hparent : y.parent? = some w)
    {keyword : Option Span} (h : linkWord y.kind = some keyword)
    (hoff : ∀ m ∈ keyword, ¬ m.contains offset) : spansFrom offset y.here y.above = [] := by
  obtain ⟨here, above⟩ := y
  cases above with
  | nil => cases hparent
  | cons p above =>
    have hlink : linkWord here.node.kind = some keyword := h
    rw [spansFrom, hlink]
    refine if_neg fun hany => ?_
    obtain ⟨m, hm, hcontains⟩ := (Option.any_eq_true _ _).1 hany
    exact hoff m hm hcontains

theorem linkWord_mem_marks {k : Kind} {keyword : Option Span} (h : linkWord k = some keyword) :
    keyword ∈ k.marks := by
  cases k with
  | thenClause _ | forIn _ =>
    obtain rfl := Option.some.inj h
    exact List.mem_singleton_self _
  | _ => cases h

/-- A clause with a link word stands below something, unless the root is one. -/
theorem exists_parent_of_linkWord {root : Node} (hroot : linkWord root.kind = none) {x : Cursor}
    (hx : x ∈ root.cursors) {keyword : Option Span} (h : linkWord x.kind = some keyword) :
    ∃ w, x.parent? = some w := by
  rcases Place.mem_cursors_cases (p := ⟨0, root⟩) hx with rfl | ⟨q, rest, habove, -⟩
  · cases hroot.symm.trans h
  · exact ⟨⟨q, rest⟩, by rw [Cursor.parent?, habove]⟩

section Snug

variable {root : Node} (hsnug : root.Snug)

include hsnug

/-- A link word ends within the tree. -/
theorem stop_le_of_linkWord {x : Cursor} (hx : x ∈ root.cursors) {m : Span}
    (h : linkWord x.kind = some (some m)) : m.stop ≤ root.span.stop := by
  have hin := Span.covers_iff.1 (hsnug.marks x hx (some m) (linkWord_mem_marks h) m rfl).1
  have hwhole := Span.covers_iff.1 (hsnug.covers hx)
  exact hin.2.trans hwhole.2

/-- **Highlights past the end.** Only a link word at the end tells an offset past it from the end. -/
theorem spansAt_of_stop_lt (hroot : linkWord root.kind = none) {offset : Nat}
    (h : root.span.stop < offset) :
    spansAt root offset = if root.endsInLink then [] else spansAt root root.span.stop := by
  rw [spansAt_eq, spansAt_eq, Node.cursorAt_of_stop_le h.le]
  have hlisted := Node.cursorAt_mem_cursors root root.span.stop
  unfold Node.endsInLink
  generalize root.cursorAt root.span.stop = x at hlisted ⊢
  cases hlink : linkWord x.kind with
  | none =>
    rw [spansFrom_eq_constructSpans _ hlink, spansFrom_eq_constructSpans _ hlink]
    rfl
  | some keyword =>
    obtain ⟨w, hparent⟩ := exists_parent_of_linkWord hroot hlisted hlink
    have hend : ∀ m ∈ keyword, m.stop ≤ root.span.stop := fun m hm =>
      stop_le_of_linkWord hsnug hlisted (hlink.trans (congrArg some hm))
    have hpast : spansFrom offset x.here x.above = [] := by
      refine spansFrom_of_off hparent hlink fun m hm hcontains => ?_
      have := hend m hm
      have := (Span.contains_iff.1 hcontains).2
      omega
    rw [hpast, Option.any_some]
    split
    · exact tidy_eq_self List.Pairwise.nil
    · next hshort =>
      -- a link word that ends before the end is not under a cursor at the end either
      rw [spansFrom_of_off hparent hlink fun m hm hcontains => hshort ?_]
      refine (Option.any_eq_true _ _).2 ⟨m, hm, beq_iff_eq.2 ?_⟩
      exact Nat.le_antisymm (hend m hm) (Span.contains_iff.1 hcontains).2

end Snug

end Highlight

/-- **Past the end.** An offset past the end of a text leads to the same place as the end and to the
same selections. It leads to the same highlights unless the text ends in the link word of a clause:
then nothing is highlighted past the end. -/
theorem Node.past_end (parser : Parser) (text : Text)
    (hwell : ∀ c ∈ parser text, c.nested ∧ c.forward ∧ Span.covers ⟨0, Text.size text⟩ c.label.span)
    (offset : Nat) (hpast : Text.size text ≤ offset) :
    let s := Source.parse parser text
    s.root.cursorAt offset = s.root.cursorAt (Text.size text) ∧
      Selection.spansAt s offset = Selection.spansAt s (Text.size text) ∧
      Highlight.spansAt s.root offset =
        if Text.size text < offset ∧ s.root.endsInLink then []
        else Highlight.spansAt s.root (Text.size text) := by
  intro s
  have hsnug : s.root.Snug := snug_ofRoot text hwell
  have hroot : Highlight.linkWord s.root.kind = none := by
    rw [show s.root.kind = .program from kind_ofRoot text (parser text)]
    rfl
  have hstop : s.root.span.stop = Text.size text :=
    congrArg Span.stop (span_ofRoot text (parser text))
  refine ⟨?_, Selection.spansAt_of_size_le hstop hpast, ?_⟩
  · rw [← hstop] at hpast ⊢
    exact cursorAt_of_stop_le hpast
  · rw [← hstop] at hpast ⊢
    rcases hpast.lt_or_eq with hlt | heq
    · rw [Highlight.spansAt_of_stop_lt hsnug hroot hlt]
      simp [hlt]
    · rw [← heq]
      simp

open Concrete (brokenChain) in
/-- At the end of a text that ends in `then`, the keywords of the conditional are found, but not one
byte further on. -/
theorem Node.past_end_brokenChain :
    let s := Source.parse (fun _ => some brokenChain) "if a\nelsif b then".toList
    s.root.endsInLink ∧ s.root.cursorAt 18 = s.root.cursorAt 17 ∧
      Highlight.spansAt s.root 17 = [⟨5, 10⟩, ⟨13, 17⟩] ∧ Highlight.spansAt s.root 18 = [] := by
  intro s
  have hend : s.root.endsInLink := by decide
  obtain ⟨hcursor, -, hspans⟩ := Node.past_end (fun _ => some brokenChain)
    "if a\nelsif b then".toList (fun c hc => by obtain rfl := Option.some.inj hc; decide) 18 (by decide)
  refine ⟨hend, hcursor, Highlight.tidy_eq_self (l := [⟨5, 10⟩, ⟨13, 17⟩]) (by decide), ?_⟩
  exact hspans.trans (if_pos ⟨by decide, hend⟩)

end RubyLens
