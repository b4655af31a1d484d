import RubyLens.Proofs.Syntax.Tokens
import RubyLens.Query.Highlight
import Mathlib.Data.List.Destutter
import Mathlib.Data.List.Sort

/-!
What is highlighted. The search for the keywords of a construct goes up and down the tree; wherever
it goes, each span that it comes back with is a keyword in the kind of a node of that tree. What it
comes back with is put in order and rid of repetitions, so that only the set of spans matters.

Main statements: `Highlight.keyword_of_mem_spansAt`, `Highlight.tidy_congr` and, for the tree of a
text, `Highlight.spansAt_tokens`.
-/

namespace RubyLens

/-- The tree of `for x in y do`, with an `end` that the parser made up. -/
def Concrete.unclosedLoop : Concrete :=
  .node ⟨"program", true, false, ⟨0, 13⟩, none⟩ [
    .node ⟨"for", true, false, ⟨0, 13⟩, none⟩ [
      .node ⟨"for", false, false, ⟨0, 3⟩, none⟩ [],
      .node ⟨"identifier", true, false, ⟨4, 5⟩, some "pattern"⟩ [],
      .node ⟨"in", true, false, ⟨6, 10⟩, some "value"⟩ [
        .node ⟨"in", false, false, ⟨6, 8⟩, none⟩ [],
        .node ⟨"identifier", true, false, ⟨9, 10⟩, none⟩ []],
      .node ⟨"do", true, false, ⟨11, 13⟩, some "body"⟩ [
        .node ⟨"do", false, false, ⟨11, 13⟩, none⟩ [],
        .node ⟨"end", false, true, ⟨13, 13⟩, none⟩ []]]]

/-! ### Order without repetition -/

namespace Span

variable {a b c : Span}

/-- One span stands in front of another in the order of highlights. -/
def Precedes (a b : Span) : Prop := a.before b ∧ a ≠ b

instance (a b : Span) : Decidable (Precedes a b) := inferInstanceAs (Decidable (_ ∧ _))

theorem before_iff : a.before b ↔ a.start < b.start ∨ a.start = b.start ∧ a.stop ≤ b.stop := by
  simp [before]

theorem precedes_iff :
    a.Precedes b ↔ a.start < b.start ∨ a.start = b.start ∧ a.stop < b.stop := by
  obtain ⟨i, j⟩ := a
  obtain ⟨k, l⟩ := b
  simp only [Precedes, before_iff, ne_eq, mk.injEq]
  omega

instance : IsTrans Span Precedes where
  trans a b c hab hbc := by
    rw [precedes_iff] at *
    omega

instance : Std.Asymm Precedes where
  asymm a b hab hba := by
    rw [precedes_iff] at *
    omega

theorem pairwise_mergeSort_before (l : List Span) :
    (l.mergeSort before).Pairwise fun a b => a.before b := by
  apply List.pairwise_mergeSort
  · intro a b c hab hbc
    rw [before_iff] at *
    omega
  · intro a b
    rw [Bool.or_eq_true, before_iff, before_iff]
    omega

end Span

theorem eraseRepsBy_loop_eq {α : Type} [DecidableEq α] (a : α) (l acc : List α) :
    List.eraseRepsBy.loop (· == ·) a l acc = acc.reverse ++ l.destutter' (· ≠ ·) a := by
  induction l generalizing a acc with
  | nil => simp [List.eraseRepsBy.loop]
  | cons b l ih =>
    rw [List.eraseRepsBy.loop]
    by_cases hab : a = b
    · simp [hab, ih]
    · rw [beq_false_of_ne hab]
      simp [hab, ih]

theorem eraseReps_eq_destutter {α : Type} [DecidableEq α] (l : List α) :
    l.eraseReps = l.destutter (· ≠ ·) := by
  cases l with
  | nil => rfl
  | cons a l => exact eraseRepsBy_loop_eq a l []

theorem mem_destutter_ne {α : Type} [DecidableEq α] {a b : α} {l : List α} :
    b ∈ l.destutter' (· ≠ ·) a ↔ b = a ∨ b ∈ l := by
  induction l generalizing a with
  | nil => simp
  | cons c l ih =>
    by_cases hac : a = c
    · simp [hac, ih]
    · simp [hac, ih]

namespace Highlight

/-- In order and without repetition. -/
def tidy (l : List Span) : List Span := (l.mergeSort Span.before).eraseReps

@[simp] theorem mem_tidy {m : Span} {l : List Span} : m ∈ tidy l ↔ m ∈ l := by
  have hsame : m ∈ l.mergeSort Span.before ↔ m ∈ l := List.mem_mergeSort
  rw [tidy, eraseReps_eq_destutter, ← hsame]
  cases l.mergeSort Span.before with
  | nil => rfl
  | cons a l => rw [List.destutter_cons', mem_destutter_ne, List.mem_cons]

theorem pairwise_tidy (l : List Span) : (tidy l).Pairwise Span.Precedes := by
  rw [tidy, eraseReps_eq_destutter]
  have hbefore := (Span.pairwise_mergeSort_before l).sublist (List.destutter_sublist (· ≠ ·) _)
  have hne := List.isChain_destutter (· ≠ ·) (l.mergeSort Span.before)
  rw [← List.isChain_iff_pairwise, List.isChain_iff_getElem]
  intro i hi
  exact ⟨List.isChain_iff_getElem.1 hbefore.isChain i hi, List.isChain_iff_getElem.1 hne i hi⟩

/-- Only the set of spans matters. -/
theorem tidy_congr {l l' : List Span} (h : ∀ m, m ∈ l ↔ m ∈ l') : tidy l = tidy l' := by
  refine (pairwise_tidy l).eq_of_mem_iff (pairwise_tidy l') fun m => ?_
  rw [mem_tidy, mem_tidy, h]

theorem tidy_eq_self {l : List Span} (h : l.Pairwise Span.Precedes) : tidy l = l :=
  (pairwise_tidy l).eq_of_mem_iff h fun _ => mem_tidy

/-- However spans are arranged, they come out in order. -/
theorem tidy_of_perm {l l' : List Span} (h : l.Perm l') (hordered : l'.Pairwise Span.Precedes) :
    tidy l = l' := by
  rw [tidy_congr fun _ => h.mem_iff, tidy_eq_self hordered]

end Highlight

namespace Node

/-- The span is a keyword in the kind of a node of the tree. -/
def Keyword (root : Node) (m : Span) : Prop := ∃ x ∈ root.cursors, some m ∈ x.kind.keywords

section Keyword

variable {root : Node} {x : Cursor}

theorem keyword_of_mem (hx : x ∈ root.cursors) {o : Option Span} (ho : o ∈ x.kind.keywords) :
    ∀ m ∈ o.toList, root.Keyword m := by
  intro m hm
  rw [Option.mem_toList] at hm
  exact ⟨x, hx, hm ▸ ho⟩

theorem keyword_of_lead (hx : x ∈ root.cursors) : ∀ m ∈ x.kind.lead.toList, root.Keyword m :=
  fun _ hm => ⟨x, hx, Kind.lead_mem_keywords (Option.mem_toList.1 hm)⟩

theorem keyword_of_child? (hx : x ∈ root.cursors) (slot : Option Slot) :
    ∀ m ∈ ((x.node.child? slot).bind fun n => n.kind.lead).toList, root.Keyword m := by
  rcases hchild : x.node.child? slot with _ | n
  · exact List.forall_mem_nil _
  · obtain ⟨q, -, rfl, hq⟩ := exists_cursor_of_mem_children hx (mem_children_of_child? hchild)
    exact keyword_of_lead hq

end Keyword

end Node

namespace Highlight

open Node (keyword_of_mem keyword_of_lead keyword_of_child?)

variable {root : Node} {x : Cursor}

/-! ### Clauses of a `begin` -/

theorem keyword_of_mem_beginKeywords (hx : x ∈ root.cursors) {b : Begin} (h : x.kind = .begin b) :
    ∀ m ∈ beginKeywords b, root.Keyword m := by
  have hmem {o : Option Span} (ho : o ∈ (Kind.begin b).keywords) :=
    keyword_of_mem hx (o := o) (by rwa [h])
  simp only [beginKeywords, List.forall_mem_append]
  refine ⟨⟨⟨⟨hmem ?_, fun m hm => hmem (o := some m) ?_ m ?_⟩, hmem ?_⟩, hmem ?_⟩, hmem ?_⟩ <;>
    simp_all [Kind.keywords]

/-- The keywords of a body that acts as a `begin` are its own and those of the node above. -/
theorem keyword_of_mem_beginSpans (hx : x ∈ root.cursors) {b : Begin} (h : x.kind = .begin b)
    {owner : Option Kind} (howner : ∀ k ∈ owner, ∃ y ∈ root.cursors, y.kind = k) :
    ∀ m ∈ beginSpans b owner, root.Keyword m := by
  have hown := keyword_of_mem_beginKeywords hx h
  unfold beginSpans
  split
  · split
    · next outer =>
      obtain ⟨y, hy, hkind⟩ := howner _ rfl
      split
      · exact hown
      · exact keyword_of_mem_beginKeywords hy hkind
    · next m =>
      obtain ⟨y, hy, hkind⟩ := howner _ rfl
      refine List.forall_mem_append.2 ⟨hown, keyword_of_mem hy ?_⟩
      simp [hkind, Kind.keywords]
    · next d body =>
      obtain ⟨y, hy, hkind⟩ := howner _ rfl
      refine List.forall_mem_append.2 ⟨hown, keyword_of_mem hy ?_⟩
      simp [hkind, Kind.keywords]
    · exact hown
  · exact hown

theorem keyword_of_mem_beginSpansAt (hx : x ∈ root.cursors) :
    ∀ m ∈ beginSpansAt x, root.Keyword m := by
  unfold beginSpansAt
  split
  · next b h =>
    refine keyword_of_mem_beginSpans hx h fun k hk => ?_
    obtain ⟨y, hy, rfl⟩ := Option.map_eq_some_iff.1 hk
    exact ⟨y, Node.parent?_mem_cursors hx hy, rfl⟩
  · exact List.forall_mem_nil _

/-! ### Branches of a `case` -/

theorem keyword_of_mem_caseSpans (hx : x ∈ root.cursors) :
    ∀ m ∈ caseSpans x.node, root.Keyword m := by
  unfold caseSpans
  split
  · next keyword endKeyword clauses elseClause h =>
    simp only [List.forall_mem_append]
    refine ⟨⟨keyword_of_mem hx ?_, keyword_of_mem hx ?_⟩, ?_⟩
    · simp [Cursor.kind, h, Kind.keywords]
    · simp [Cursor.kind, h, Kind.keywords]
    · intro m hm
      obtain ⟨slot, -, hslot⟩ := List.mem_filterMap.1 hm
      exact keyword_of_child? hx (some slot) m (Option.mem_toList.2 hslot)
  · exact List.forall_mem_nil _

theorem keyword_of_mem_wholeCaseSpans (hx : x ∈ root.cursors) :
    ∀ m ∈ wholeCaseSpans x.node, root.Keyword m := by
  unfold wholeCaseSpans
  split
  · exact List.forall_mem_append.2 ⟨keyword_of_mem_caseSpans hx, keyword_of_child? hx _⟩
  · exact List.forall_mem_nil _

/-! ### Chains of conditionals -/

/-- The keywords of an `elsif` or an `else` and of all that follows it. -/
def consequentSpans (n : Node) : List Span :=
  match n.kind with
  | .elseClause keyword => keyword.toList
  | _ => chainSpans n

theorem chainSpansAt_eq (slot : Slot) (ns : List Node) :
    chainSpansAt slot ns = (ns[slot]?.map consequentSpans).getD [] := by
  induction ns generalizing slot with
  | nil => rw [chainSpansAt]; rfl
  | cons n ns ih =>
    cases slot with
    | zero => rw [chainSpansAt]; rfl
    | succ slot => rw [chainSpansAt, ih, List.getElem?_cons_succ]

/-- The keywords of a conditional are its own, that of its `then`, and those of what follows it. -/
theorem chainSpans_of_conditional {n : Node} {c : Conditional} (h : n.kind = .conditional c) :
    chainSpans n = c.keyword.toList ++
      ((n.child? c.thenClause).bind fun clause => clause.kind.lead).toList ++
      c.endKeyword.toList ++ ((n.child? c.consequent).map consequentSpans).getD [] := by
  obtain ⟨t, k, s, cs⟩ := n
  obtain rfl : k = .conditional c := h
  rw [chainSpans]
  congr 1
  cases c.consequent with
  | none => rfl
  | some slot => exact chainSpansAt_eq slot cs

theorem chainSpans_of_not_conditional {n : Node} (h : n.kind.isConditional = false) :
    chainSpans n = [] := by
  obtain ⟨t, k, s, cs⟩ := n
  cases k <;> first | rfl | cases h

theorem keyword_of_mem_consequentSpans (hx : x ∈ root.cursors)
    (h : ∀ m ∈ chainSpans x.node, root.Keyword m) :
    ∀ m ∈ consequentSpans x.node, root.Keyword m := by
  unfold consequentSpans
  split
  · next keyword hkind =>
    apply keyword_of_mem hx
    simp [Cursor.kind, hkind, Kind.keywords]
  · exact h

theorem keyword_of_mem_chainSpans {p : Place} {above : List Place}
    (hp : ⟨p, above⟩ ∈ root.cursors) : ∀ m ∈ chainSpans p.node, root.Keyword m := by
  induction p using Place.ind generalizing above with
  | h p ih =>
    cases hkind : p.node.kind with
    | conditional c =>
      have hmem {o : Option Span} (ho : o = c.keyword ∨ o = c.endKeyword) :
          ∀ m ∈ o.toList, root.Keyword m := by
        apply keyword_of_mem hp
        simpa [Cursor.kind, Cursor.node, hkind, Kind.keywords] using ho
      rw [chainSpans_of_conditional hkind]
      simp only [List.forall_mem_append]
      refine ⟨⟨⟨hmem (.inl rfl), keyword_of_child? hp _⟩, hmem (.inr rfl)⟩, ?_⟩
      rcases hnext : p.node.child? c.consequent with _ | n
      · exact List.forall_mem_nil _
      · obtain ⟨q, hq, rfl, hlisted⟩ :=
          Node.exists_cursor_of_mem_children hp (Node.mem_children_of_child? hnext)
        exact keyword_of_mem_consequentSpans hlisted (ih q hq hlisted)
    | _ =>
      rw [chainSpans_of_not_conditional (by rw [hkind]; rfl)]
      exact List.forall_mem_nil _

/-- The conditional with which a chain starts is a node of the tree. -/
theorem chainHead_mem_cursors {p : Place} {above : List Place} (hp : ⟨p, above⟩ ∈ root.cursors) :
    ∃ y ∈ root.cursors, y.node = chainHead p.node above := by
  induction above generalizing p with
  | nil => exact ⟨_, hp, rfl⟩
  | cons q above ih =>
    rw [chainHead]
    split
    · exact ih (Node.parent?_mem_cursors hp rfl)
    · exact ⟨_, hp, rfl⟩

theorem keyword_of_mem_conditionalSpans (hx : x ∈ root.cursors) :
    ∀ m ∈ conditionalSpans x, root.Keyword m := by
  obtain ⟨y, hy, hhead⟩ := chainHead_mem_cursors hx
  rw [conditionalSpans, Cursor.node, ← hhead]
  exact keyword_of_mem_chainSpans hy

/-! ### Loops -/

theorem keyword_of_mem_loopBody (hx : x ∈ root.cursors) (body : Option Slot) :
    ∀ m ∈ (match (x.node.child? body).map Node.kind with
      | some (.loopBody doKeyword endKeyword) => doKeyword.toList ++ endKeyword.toList
      | _ => []), root.Keyword m := by
  split
  · next doKeyword endKeyword hbody =>
    obtain ⟨n, hn, hkind⟩ := Option.map_eq_some_iff.1 hbody
    obtain ⟨q, -, rfl, hq⟩ :=
      Node.exists_cursor_of_mem_children hx (Node.mem_children_of_child? hn)
    have hmem {o : Option Span} (ho : o = doKeyword ∨ o = endKeyword) :
        ∀ m ∈ o.toList, root.Keyword m := by
      apply keyword_of_mem hq
      simpa [Cursor.kind, Cursor.node, hkind, Kind.keywords] using ho
    exact List.forall_mem_append.2 ⟨hmem (.inl rfl), hmem (.inr rfl)⟩
  · exact List.forall_mem_nil _

theorem keyword_of_mem_loopSpans (hx : x ∈ root.cursors) :
    ∀ m ∈ loopSpans x.node, root.Keyword m := by
  unfold loopSpans
  split
  · next keyword body modifier h =>
    refine List.forall_mem_append.2 ⟨keyword_of_mem hx ?_, keyword_of_mem_loopBody hx body⟩
    simp [Cursor.kind, h, Kind.keywords]
  · next keyword inClause body h =>
    simp only [List.forall_mem_append]
    refine ⟨⟨keyword_of_mem hx ?_, keyword_of_child? hx inClause⟩, keyword_of_mem_loopBody hx body⟩
    simp [Cursor.kind, h, Kind.keywords]
  · exact List.forall_mem_nil _

/-! ### Constructs -/

theorem keyword_of_mem_elseSpans (hx : x ∈ root.cursors) :
    ∀ m ∈ elseSpans x, root.Keyword m := by
  unfold elseSpans
  split
  · exact List.forall_mem_nil _
  · next p hparent =>
    have hp := Node.parent?_mem_cursors hx hparent
    split
    · exact keyword_of_mem_beginSpansAt hp
    · exact List.forall_mem_append.2 ⟨keyword_of_lead hx, keyword_of_mem_caseSpans hp⟩
    · exact keyword_of_mem_conditionalSpans hp
    · exact List.forall_mem_nil _

theorem keyword_of_mem_ownerSpans (hx : x ∈ root.cursors) (body : Option Slot) {own : List Span}
    (hown : ∀ m ∈ own, root.Keyword m) : ∀ m ∈ ownerSpans x.node body own, root.Keyword m := by
  unfold ownerSpans
  split
  · next b hbody =>
    obtain ⟨n, hn, hkind⟩ := Option.map_eq_some_iff.1 hbody
    obtain ⟨q, -, rfl, hq⟩ :=
      Node.exists_cursor_of_mem_children hx (Node.mem_children_of_child? hn)
    split
    · refine keyword_of_mem_beginSpans hq hkind fun k hk => ?_
      obtain rfl := Option.some.inj hk
      exact ⟨x, hx, rfl⟩
    · exact hown
  · exact hown

theorem keyword_of_mem_constructSpans (hx : x ∈ root.cursors) :
    ∀ m ∈ constructSpans x, root.Keyword m := by
  have hmem {l : List (Option Span)} (hkeywords : x.kind.keywords = l) {o : Option Span}
      (ho : o ∈ l) : ∀ m ∈ o.toList, root.Keyword m := keyword_of_mem hx (hkeywords ▸ ho)
  have hboth {a b : Option Span} (hkeywords : x.kind.keywords = [a, b]) :
      ∀ m ∈ a.toList ++ b.toList, root.Keyword m :=
    List.forall_mem_append.2 ⟨hmem hkeywords (by simp), hmem hkeywords (by simp)⟩
  -- a clause has the keywords of what it stands in
  have hparent {f : Cursor → List Span}
      (hf : ∀ y ∈ root.cursors, ∀ m ∈ f y, root.Keyword m) :
      ∀ m ∈ (x.parent?.map f).getD [], root.Keyword m := by
    cases habove : x.parent? with
    | none => exact List.forall_mem_nil _
    | some y => exact hf y (Node.parent?_mem_cursors hx habove)
  unfold constructSpans
  split
  · exact keyword_of_mem_beginSpansAt hx
  · next h => exact keyword_of_mem_ownerSpans hx _ (hboth (by rw [h]; rfl))
  · exact keyword_of_mem_wholeCaseSpans hx
  · next h => exact hboth (by rw [h]; rfl)
  · next h => exact hboth (by rw [h]; rfl)
  · next h => exact hboth (by rw [h]; rfl)
  · next h => exact keyword_of_mem_ownerSpans hx _ (hboth (by rw [h]; rfl))
  · exact keyword_of_mem_conditionalSpans hx
  · exact keyword_of_mem_loopSpans hx
  · exact keyword_of_mem_loopSpans hx
  · exact keyword_of_mem_elseSpans hx
  · exact hparent fun y hy => keyword_of_mem_beginSpansAt hy
  · exact hparent fun y hy => keyword_of_mem_beginSpansAt hy
  · exact hparent fun y hy => keyword_of_mem_wholeCaseSpans hy
  · exact hparent fun y hy => keyword_of_mem_loopSpans hy
  · exact List.forall_mem_nil _

theorem keyword_of_mem_spansFrom (offset : Nat) {here : Place} {above : List Place}
    (hhere : ⟨here, above⟩ ∈ root.cursors) :
    ∀ m ∈ spansFrom offset here above, root.Keyword m := by
  induction above generalizing here with
  | nil => exact keyword_of_mem_constructSpans hhere
  | cons p above ih =>
    rw [spansFrom]
    split
    · split
      · exact ih (Node.parent?_mem_cursors hhere rfl)
      · exact List.forall_mem_nil _
    · exact keyword_of_mem_constructSpans hhere

theorem spansAt_eq (root : Node) (offset : Nat) : spansAt root offset =
    tidy (spansFrom offset (root.cursorAt offset).here (root.cursorAt offset).above) := rfl

/-- **Where highlights come from.** -/
theorem keyword_of_mem_spansAt (root : Node) (offset : Nat) :
    ∀ m ∈ spansAt root offset, root.Keyword m := by
  intro m hm
  exact keyword_of_mem_spansFrom offset (Node.cursorAt_mem_cursors root offset) m (mem_tidy.1 hm)

/-- **Highlights are tokens.** Whatever the tree of the parser looks like, highlights come in order,
no span twice, and each of them is the span of a token that spells a keyword and that the parser has
not made up. In a tree whose nodes lie within the text and within one another, highlights do so too.
If keywords take up room, then nothing that the parser made up is highlighted. -/
theorem spansAt_tokens (parser : Parser) (text : Text) (offset : Nat) :
    let spans := spansAt (Source.parse parser text).root offset
    spans.Pairwise Span.Precedes ∧
    (∀ m ∈ spans, ∃ c ∈ parser text, ∃ s ∈ c.sites, s.Keyword m) ∧
    ((∀ c ∈ parser text, c.nested ∧ c.forward ∧ Span.covers ⟨0, Text.size text⟩ c.label.span) →
      ∀ m ∈ spans, m.start ≤ m.stop ∧ m.stop ≤ Text.size text) ∧
    ∀ c ∈ parser text, c.solid → ∀ s ∈ c.sites, s.label.missing → s.span ∉ spans := by
  intro spans
  have htoken : ∀ m ∈ spans, ∃ c ∈ parser text, ∃ s ∈ c.sites, s.Keyword m := by
    intro m hm
    obtain ⟨x, hx, hkeyword⟩ := keyword_of_mem_spansAt _ offset m hm
    exact Node.exists_token_of_mem_keywords hx hkeyword
  refine ⟨pairwise_tidy _, htoken, ?_, ?_⟩
  · intro hwell m hm
    obtain ⟨c, hc, s, hs, hkeyword⟩ := htoken m hm
    obtain ⟨hnested, hforward, hwhole⟩ := hwell c hc
    have hin := Span.covers_iff.1
      (Span.covers_trans hwhole (Concrete.covers_of_mem_sitesFrom hnested hs))
    have hspot := Concrete.every_of_mem_sitesFrom hforward (List.forall_mem_nil _) hs s.here
      List.mem_cons_self
    rw [← hkeyword.span_eq]
    exact ⟨(Concrete.forward_iff.1 hspot).1, hin.2⟩
  · intro c hc hsolid s hs hmissing hm
    obtain ⟨d, hd, t, ht, hkeyword⟩ := htoken s.span hm
    obtain rfl := Option.mem_unique hc hd
    have hempty := s.len_of_missing hsolid hs hmissing
    have hlong := hkeyword.len_pos hsolid ht
    omega

open Concrete (unclosedLoop) in
/-- From `for`, the keywords of a loop without its `end` are found, each within the text. -/
theorem spansAt_tokens_unclosedLoop :
    let text := "for x in y do".toList
    let spans := spansAt (Source.parse (fun _ => some unclosedLoop) text).root 0
    spans = [⟨0, 3⟩, ⟨6, 8⟩, ⟨11, 13⟩] ∧ (∀ m ∈ spans, m.start ≤ m.stop ∧ m.stop ≤ Text.size text) ∧
      ⟨13, 13⟩ ∉ spans := by
  intro text spans
  obtain ⟨-, -, hbounds, hmissing⟩ := spansAt_tokens (fun _ => some unclosedLoop) text 0
  have hlisted : unclosedLoop.sites[9] ∈ unclosedLoop.sites := List.getElem_mem (by decide)
  refine ⟨?_, hbounds fun c hc => ?_, hmissing unclosedLoop rfl (by decide) _ hlisted rfl⟩
  · exact tidy_eq_self (l := [⟨0, 3⟩, ⟨6, 8⟩, ⟨11, 13⟩]) (by decide)
  · obtain rfl := Option.some.inj hc
    decide

/-! ### What is highlighted together -/

theorem spansFrom_eq_constructSpans (offset : Nat) {y : Cursor} (h : linkWord y.kind = none) :
    spansFrom offset y.here y.above = constructSpans y := by
  obtain ⟨here, above⟩ := y
  cases above with
  | nil => rw [spansFrom]
  | cons p above =>
    have hnone : linkWord here.node.kind = none := h
    rw [spansFrom, hnone]

/-- With the cursor on its link word, a clause has the keywords of what it is part of. -/
theorem spansFrom_of_linkWord {offset : Nat} {y w : Cursor} (hparent : y.parent? = some w)
    {m : Span} (h : linkWord y.kind = some (some m)) (hm : m.contains offset) :
    spansFrom offset y.here y.above = spansFrom offset w.here w.above := by
  obtain ⟨here, above⟩ := y
  cases above with
  | nil => cases hparent
  | cons p above =>
    obtain rfl := Option.some.inj hparent
    have hlink : linkWord here.node.kind = some (some m) := h
    rw [spansFrom, hlink]
    exact if_pos hm

/-- From all the entries the same spans are highlighted, which are the given keywords in order and
without repetition. -/
def Together (root : Node) (entry : Nat → Cursor → Prop) (keywords : Span → Prop) : Prop :=
  ∃ spans : List Span, spans.Pairwise Span.Precedes ∧ (∀ m, m ∈ spans ↔ keywords m) ∧
    ∀ offset, entry offset (root.cursorAt offset) → spansAt root offset = spans

theorem together_of {entry : Nat → Cursor → Prop} {keywords : Span → Prop} (l : List Span)
    (hkeywords : ∀ m, m ∈ l ↔ keywords m)
    (h : ∀ offset, ∀ y ∈ root.cursors, entry offset y →
      ∀ m, m ∈ spansFrom offset y.here y.above ↔ m ∈ l) : Together root entry keywords := by
  refine ⟨tidy l, pairwise_tidy l, fun m => mem_tidy.trans (hkeywords m), fun offset hentry => ?_⟩
  rw [spansAt_eq]
  exact tidy_congr (h offset _ (Node.cursorAt_mem_cursors root offset) hentry)

theorem Together.spansAt_eq {entry : Nat → Cursor → Prop} {keywords : Span → Prop}
    (h : Together root entry keywords) {a b : Nat} (ha : entry a (root.cursorAt a))
    (hb : entry b (root.cursorAt b)) : spansAt root a = spansAt root b := by
  obtain ⟨spans, -, -, hsame⟩ := h
  rw [hsame a ha, hsame b hb]

end Highlight

end RubyLens
