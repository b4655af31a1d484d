import RubyLens.Proofs.Query.Constructs
import RubyLens.Proofs.Syntax.Layout

/-!
Classes and modules whose body has clauses of its own. Such a body takes the `end` of what it is the
body of, but other than for a method or a block neither of the two leads to the other: from the class
its keyword and its `end` are highlighted, and from a clause all clauses and that `end`.

Main statement: `Highlight.container_apart`.
-/

namespace RubyLens

/-- The tree of `module M; x; ensure; y; end`. -/
def Concrete.guardedModule : Concrete :=
  .node ⟨"program", true, false, ⟨0, 27⟩, none⟩ [
    .node ⟨"module", true, false, ⟨0, 27⟩, none⟩ [
      .node ⟨"module", false, false, ⟨0, 6⟩, none⟩ [],
      .node ⟨"constant", true, false, ⟨7, 8⟩, some "name"⟩ [],
      .node ⟨";", false, false, ⟨8, 9⟩, none⟩ [],
      .node ⟨"body_statement", true, false, ⟨10, 23⟩, some "body"⟩ [
        .node ⟨"identifier", true, false, ⟨10, 11⟩, none⟩ [],
        .node ⟨";", false, false, ⟨11, 12⟩, none⟩ [],
        .node ⟨"ensure", true, false, ⟨13, 23⟩, none⟩ [
          .node ⟨"ensure", false, false, ⟨13, 19⟩, none⟩ [],
          .node ⟨"empty_statement", true, false, ⟨19, 20⟩, none⟩ [
            .node ⟨";", false, false, ⟨19, 20⟩, none⟩ []],
          .node ⟨"identifier", true, false, ⟨21, 22⟩, none⟩ [],
          .node ⟨";", false, false, ⟨22, 23⟩, none⟩ []]],
      .node ⟨"end", false, false, ⟨24, 27⟩, none⟩ []]]

/-- Nodes lie within one another and follow one another, tokens have nothing below them and keywords
take up room. -/
structure Concrete.WellFormed (c : Concrete) : Prop where
  nested : c.nested
  forward : c.forward
  ordered : c.ordered
  leafTokens : c.leafTokens
  solid : c.solid

instance (c : Concrete) : Decidable c.WellFormed :=
  decidable_of_iff (c.nested ∧ c.forward ∧ c.ordered ∧ c.leafTokens ∧ c.solid)
    ⟨fun h => ⟨h.1, h.2.1, h.2.2.1, h.2.2.2.1, h.2.2.2.2⟩, fun h =>
      ⟨h.nested, h.forward, h.ordered, h.leafTokens, h.solid⟩⟩

/-- The body of a node, with clauses of its own. -/
def Node.Guarded (n : Node) : Prop :=
  n.typeName = "body_statement" ∧ ∃ c ∈ n.children, c.typeName ∈ ["rescue", "else", "ensure"]

/-- The keywords of the clauses of a `begin`. -/
def Begin.HasClause (b : Begin) (m : Span) : Prop :=
  m ∈ b.rescueKeywords ∨ b.elseKeyword = some m ∨ b.ensureKeyword = some m

theorem Begin.has_iff {b : Begin} {m : Span} :
    b.Has m ↔ b.HasClause m ∨ b.endKeyword = some m := by
  simp only [Has, HasClause, or_assoc]

namespace Kind

/-- A class, a module or a singleton class. -/
def container? : Kind → Option Container
  | classDef c | singletonClass c | moduleDef c => some c
  | _ => none

theorem keywords_of_container {k : Kind} {c : Container} (h : k.container? = some c) :
    k.keywords = [c.keyword, c.endKeyword] := by
  cases k with
  | classDef _ | singletonClass _ | moduleDef _ =>
    obtain rfl := Option.some.inj h
    rfl
  | _ => cases h

theorem keywords_of_clause {b : Begin} {m : Span} (h : b.HasClause m) :
    some m ∈ (begin b).keywords ∧ some m ∈ (begin b).marks := by
  simp only [keywords, marks, List.mem_append, List.mem_cons, List.mem_map, Option.some.injEq,
    exists_eq_right]
  rcases h with h | h | h
  · exact ⟨.inr h, .inr h⟩
  · exact ⟨.inl (.inr (.inl h.symm)), .inl (.inr (.inl h.symm))⟩
  · exact ⟨.inl (.inr (.inr (.inl h.symm))), .inl (.inr (.inr (.inl h.symm)))⟩

theorem container_classify {typeName : String} {siblings : List Concrete} {ps : Parts}
    {k : Container} (h : (classify typeName siblings ps).container? = some k) :
    ∃ w ∈ ["class", "module"], k.keyword = ps.token w ∧ k.endKeyword = ps.token "end" := by
  unfold classify at h
  split at h
  any_goals (simp [container?, ofClauses, ofConditional, ofModifier] at h; done)
  any_goals (obtain rfl := Option.some.inj h; simp [ofContainer])
  · -- a body, with clauses of its own or without
    split at h <;> simp [container?, ofClauses] at h

/-- A body with clauses of its own takes its `end` from beside it. -/
theorem exists_begin_of_body (siblings : List Concrete) {ps : Parts}
    (h : (ps.firstNamed ["rescue", "else", "ensure"]).isSome) :
    ∃ b, classify "body_statement" siblings ps = .begin b ∧ b.beginKeyword = none ∧
      b.endKeyword = (Parts.of siblings).token "end" :=
  ⟨_, if_pos h, rfl, rfl⟩

end Kind

namespace Parts

/-- Tokens with different spellings do not share a place. -/
theorem token_ne {c : Concrete} (hordered : c.ordered) {v w : String} (hvw : v ≠ w) {m : Span}
    (hm : m ∈ (of c.children).token v) (hlen : 0 < m.len) : (of c.children).token w ≠ some m := by
  intro hm'
  obtain ⟨p, hp, hv, hspan⟩ := exists_of_mem_token hm
  obtain ⟨q, hq, hw, rfl⟩ := exists_of_mem_token hm'
  rw [Concrete.isToken, Bool.and_eq_true, beq_iff_eq] at hv hw
  have hspan : p.concrete.label.span = q.concrete.label.span := hspan
  rcases Concrete.eq_or_apart_of_ordered hordered (Part.mem_of_mem_listFrom hp).1
    (Part.mem_of_mem_listFrom hq).1 with heq | happart
  · exact hvw (hv.2.symm.trans ((congrArg (·.label.typeName) heq).trans hw.2))
  · rw [hspan] at happart
    simp only [Part.span, Span.len] at hlen
    omega

/-- A token does not stand within a node with a name beside it. -/
theorem token_apart {c : Concrete} (hordered : c.ordered) {w : String} {m : Span}
    (hm : m ∈ (of c.children).token w) {d : Concrete} (hd : d ∈ c.children) (hnamed : d.label.named) :
    m.stop ≤ d.label.span.start ∨ d.label.span.stop ≤ m.start := by
  obtain ⟨p, hp, htoken, rfl⟩ := exists_of_mem_token hm
  rw [Concrete.isToken, Bool.and_eq_true, Bool.not_eq_true'] at htoken
  rcases Concrete.eq_or_apart_of_ordered hordered (Part.mem_of_mem_listFrom hp).1 hd with heq | h
  · rw [← heq, htoken.1] at hnamed
    cases hnamed
  · exact h

end Parts

namespace Highlight

variable {root : Node} {x q : Cursor}

theorem together_container {k : Container} (hk : x.kind.container? = some k) :
    Together root (fun _ y => y = x) (fun m => k.keyword = some m ∨ k.endKeyword = some m) := by
  refine together_of (k.keyword.toList ++ k.endKeyword.toList) (fun m => ?_) fun offset y _ hy m => ?_
  · rw [List.mem_append, Option.mem_toList, Option.mem_toList]
  · subst hy
    have hspans : spansFrom offset y.here y.above = k.keyword.toList ++ k.endKeyword.toList := by
      cases hkind : y.kind with
      | classDef c | singletonClass c | moduleDef c =>
        rw [hkind] at hk
        obtain rfl := Option.some.inj hk
        rw [spansFrom_eq_constructSpans offset (by rw [hkind]; rfl), constructSpans, hkind]
      | _ =>
        rw [hkind] at hk
        cases hk
    rw [hspans]

/-- Neither a class nor a module is what a body with clauses of its own belongs to. -/
theorem beginSpans_of_container {b : Begin} {k : Kind} (hk : k.container?.isSome) :
    beginSpans b (some k) = beginKeywords b := by
  cases k with
  | classDef _ | singletonClass _ | moduleDef _ => simp [beginSpans]
  | _ => cases hk

theorem together_containerBody {k : Container} (hk : x.kind.container? = some k) {b : Begin}
    (hq : q.kind = .begin b) (hparent : q.parent? = some x) (hnone : b.beginKeyword = none) :
    Together root (fun _ y => y = q ∨ ClauseOf y q) b.Has := by
  refine together_of (beginKeywords b) (fun m => ?_) fun offset y _ hy m => ?_
  · rw [mem_beginKeywords, hnone]
    simp
  · have hspans : beginSpansAt q = beginKeywords b := by
      rw [beginSpansAt_of_parent hq hparent, beginSpans_of_container (by rw [hk]; rfl)]
    rcases hy with rfl | hclause
    · rw [spansFrom_of_begin hq, hspans]
    · rw [hclause.spansFrom_eq hq, hspans]

section Tree

variable {source : Text} {c : Option Concrete} (hwell : ∀ d ∈ c, d.WellFormed)
  (hx : x ∈ (Node.ofRoot source c).cursors) {k : Container} (hk : x.kind.container? = some k)

include hwell hx hk

omit hwell in
/-- The keywords of a class are two of its tokens. -/
theorem exists_grown_of_container : ∃ s w, Node.Grown c x s ∧ w ≠ "end" ∧
    k.keyword = (Parts.of s.concrete.children).token w ∧
      k.endKeyword = (Parts.of s.concrete.children).token "end" := by
  obtain ⟨s, hs⟩ := Node.exists_grown_of_kind hx fun h => by rw [h] at hk; cases hk
  rw [hs.kind_eq] at hk
  obtain ⟨w, hw, hkeyword, hend⟩ := Kind.container_classify hk
  have hwords : ∀ w ∈ ["class", "module"], w ≠ "end" := by decide
  exact ⟨s, w, hs, hwords w hw, hkeyword, hend⟩

/-- The body of a class takes the `end` of the class. -/
theorem exists_begin_of_guarded {n : Node} (hn : n ∈ x.node.children) (hguarded : n.Guarded) :
    ∃ b, n.kind = .begin b ∧ b.beginKeyword = none ∧ b.endKeyword = k.endKeyword := by
  obtain ⟨s, -, hs, -, -, hend⟩ := exists_grown_of_container hx hk
  have hleaf : ∀ d ∈ c, d.leafTokens := fun d hd => (hwell d hd).leafTokens
  obtain ⟨d, hd, -, rfl⟩ := hs.exists_of_mem_children hleaf hn
  obtain ⟨htype, child, hchild, hclause⟩ := hguarded
  have hbelow : ∀ e ∈ d.children, e.label.named || e.children.isEmpty := fun e he =>
    (Concrete.every_iff.1 ((Concrete.every_iff.1
      ((Concrete.every_iff.1 (hs.every _ hleaf)).2 d hd)).2 e he)).1
  have hfirst : ((Parts.of d.children).firstNamed ["rescue", "else", "ensure"]).isSome := by
    obtain ⟨p, hp, -⟩ := (Node.exists_named_iff hbelow).2 ⟨hchild, hclause⟩
    rw [Parts.firstNamed, Option.isSome_map, List.isSome_head?]
    exact List.ne_nil_of_mem hp
  rw [Node.typeName] at htype
  rw [Node.kind, htype, hend]
  exact Kind.exists_begin_of_body s.concrete.children hfirst

/-- The keyword and the `end` of a class are two tokens. -/
theorem container_keywords_ne {m : Span} (hm : k.keyword = some m) : k.endKeyword ≠ some m := by
  obtain ⟨s, w, hs, hw, hkeyword, hend⟩ := exists_grown_of_container hx hk
  have hordered : s.concrete.ordered := hs.every _ fun d hd => (hwell d hd).ordered
  have hlen : 0 < m.len := by
    refine Node.len_pos_of_mem_keywords (fun d hd => (hwell d hd).solid) hx ?_
    rw [Kind.keywords_of_container hk]
    simp [hm]
  rw [hend]
  exact Parts.token_ne hordered hw (hkeyword.symm.trans hm) hlen

/-- The keyword and the `end` of a class lie outside its body. -/
theorem container_keywords_apart {m : Span} (hm : k.keyword = some m ∨ k.endKeyword = some m)
    {n : Node} (hn : n ∈ x.node.children) : m.stop ≤ n.span.start ∨ n.span.stop ≤ m.start := by
  obtain ⟨s, w, hs, -, hkeyword, hend⟩ := exists_grown_of_container hx hk
  have hordered : s.concrete.ordered := hs.every _ fun d hd => (hwell d hd).ordered
  obtain ⟨d, hd, hnamed, rfl⟩ :=
    hs.exists_of_mem_children (fun d hd => (hwell d hd).leafTokens) hn
  rcases hm with hm | hm
  · exact Parts.token_apart hordered (hkeyword.symm.trans hm) hd hnamed
  · exact Parts.token_apart hordered (hend.symm.trans hm) hd hnamed

/-- A clause stands within the body, so its keyword is not one of the class. -/
theorem clause_ne_container_keyword
    (hwhole : ∀ d ∈ c, Span.covers ⟨0, Text.size source⟩ d.label.span)
    (hq : q ∈ (Node.ofRoot source c).cursors) (hparent : q.parent? = some x) {b : Begin}
    (hb : q.kind = .begin b) {m : Span} (hm : b.HasClause m) :
    ¬ (k.keyword = some m ∨ k.endKeyword = some m) := by
  intro hkeyword
  obtain ⟨hlisted, hmarked⟩ := Kind.keywords_of_clause hm
  rw [← hb] at hlisted hmarked
  have hlen := Node.len_pos_of_mem_keywords (fun d hd => (hwell d hd).solid) hq hlisted
  have hsnug : (Node.ofRoot source c).Snug := Node.snug_ofRoot source fun d hd =>
    ⟨(hwell d hd).nested, (hwell d hd).forward, hwhole d hd⟩
  have hin := Span.covers_iff.1 (hsnug.marks q hq (some m) hmarked m rfl).1
  have hchild : q.node ∈ x.node.children :=
    Place.node_mem_of_mem_children (Node.here_mem_children_of_parent? hq hparent)
  have houtside := container_keywords_apart hwell hx hk hkeyword hchild
  simp only [Span.len, Cursor.span] at hlen hin
  omega

end Tree

/-- **Classes and their clauses.** In a tree without flaws, the body of a class, a module or a
singleton class that has clauses of its own takes the `end` of the class. From the class its keyword
and its `end` are highlighted, from the body and its clauses the keywords of the clauses and that
`end`. So the two agree only if the class has no keyword and the clauses have none. -/
theorem container_apart (parser : Parser) (text : Text)
    (hwell : ∀ c ∈ parser text, c.WellFormed ∧ Span.covers ⟨0, Text.size text⟩ c.label.span) :
    let root := (Source.parse parser text).root
    ∀ x ∈ root.cursors, ∀ k, x.kind.container? = some k →
    ∀ q ∈ root.cursors, q.parent? = some x → q.node.Guarded →
    ∃ b, q.kind = .begin b ∧ b.endKeyword = k.endKeyword ∧
      Together root (fun _ y => y = x) (fun m => k.keyword = some m ∨ k.endKeyword = some m) ∧
      Together root (fun _ y => y = q ∨ ClauseOf y q) b.Has ∧
      ∀ i j, root.cursorAt i = x → root.cursorAt j = q ∨ ClauseOf (root.cursorAt j) q →
        (spansAt root i = spansAt root j ↔ k.keyword = none ∧ ∀ m, ¬ b.HasClause m) := by
  intro root x hx k hk q hq hparent hguarded
  have hclean : ∀ c ∈ parser text, c.WellFormed := fun c hc => (hwell c hc).1
  have hchild : q.node ∈ x.node.children :=
    Place.node_mem_of_mem_children (Node.here_mem_children_of_parent? hq hparent)
  obtain ⟨b, hb, hnone, hend⟩ := exists_begin_of_guarded hclean hx hk hchild hguarded
  have hfrom : Together root (fun _ y => y = x)
      (fun m => k.keyword = some m ∨ k.endKeyword = some m) := together_container hk
  have hback : Together root (fun _ y => y = q ∨ ClauseOf y q) b.Has :=
    together_containerBody hk hb hparent hnone
  refine ⟨b, hb, hend, hfrom, hback, fun i j hi hj => ?_⟩
  obtain ⟨own, hown, hmemown, hi'⟩ := hfrom
  obtain ⟨clauses, hclauses, hmemclauses, hj'⟩ := hback
  rw [hi' i hi, hj' j hj]
  constructor
  · rintro rfl
    have hsame (m : Span) : (k.keyword = some m ∨ k.endKeyword = some m) ↔
        b.HasClause m ∨ k.endKeyword = some m := by
      rw [← hend, ← Begin.has_iff, hend]
      exact (hmemown m).symm.trans (hmemclauses m)
    have hapart : ∀ m, ¬ b.HasClause m := fun m hm =>
      clause_ne_container_keyword hclean hx hk (fun c hc => (hwell c hc).2) hq hparent hb hm
        ((hsame m).2 (.inl hm))
    refine ⟨Option.eq_none_iff_forall_not_mem.2 fun m hm => ?_, hapart⟩
    rcases (hsame m).1 (.inl hm) with hclause | hlast
    · exact hapart m hclause
    · exact container_keywords_ne hclean hx hk hm hlast
  · rintro ⟨hkeyword, hclause⟩
    refine hown.eq_of_mem_iff hclauses fun m => ?_
    rw [hmemown, hmemclauses, Begin.has_iff, hkeyword, hend]
    simp [hclause m]

open Concrete (guardedModule) in
/-- From `module`, its `end` is found, and from `ensure` the same `end`, but neither from the other. -/
theorem container_apart_guardedModule :
    let text := "module M; x; ensure; y; end".toList
    let root := (Source.parse (fun _ => some guardedModule) text).root
    spansAt root 0 = [⟨0, 6⟩, ⟨24, 27⟩] ∧ spansAt root 13 = [⟨13, 19⟩, ⟨24, 27⟩] ∧
      spansAt root 0 ≠ spansAt root 13 := by
  intro text root
  have hlisted (offset : Nat) : root.cursorAt offset ∈ root.cursors :=
    Node.cursorAt_mem_cursors root offset
  have hwell : ∀ c ∈ (fun _ => some guardedModule : Parser) text,
      c.WellFormed ∧ Span.covers ⟨0, Text.size text⟩ c.label.span := by
    intro c hc
    obtain rfl := Option.some.inj hc
    decide
  obtain ⟨b, -, -, -, -, hiff⟩ := container_apart (fun _ => some guardedModule) text hwell
    (root.cursorAt 0) (hlisted 0) _ rfl (root.cursorAt 12) (hlisted 12) rfl
    ⟨rfl, (root.cursorAt 13).node, List.mem_of_getElem? (i := 1) rfl, by decide⟩
  have hclause : ClauseOf (root.cursorAt 13) (root.cursorAt 12) := ⟨rfl, .inr (.inr ⟨_, rfl⟩)⟩
  refine ⟨?_, ?_, fun hsame => ?_⟩
  · exact tidy_eq_self (l := [⟨0, 6⟩, ⟨24, 27⟩]) (by decide)
  · exact tidy_eq_self (l := [⟨13, 19⟩, ⟨24, 27⟩]) (by decide)
  · cases ((hiff 0 13 rfl (.inr hclause)).1 hsame).1

end Highlight

end RubyLens
