import RubyLens.Proofs.Syntax.Payload

/-!
Keywords. The keywords in the kinds of nodes (`Kind.keywords`) are tokens of the concrete tree: some
are tokens of the node itself, some of clauses below it, and the `end` of a body with clauses of its
own is a token of the node above.

Main statements: `Node.isKeyword_of_mem_keywords`, for the tree of a text, and
`Node.exists_token_of_mem_keywords`, which names the token.
-/

namespace RubyLens

/-- The spellings of keywords, and of the delimiters of a block. -/
def Kind.words : List String :=
  ["begin", "rescue", "else", "ensure", "end", "def", "do", "\x7b", "\x7d", "case", "when", "in",
    "class", "module", "if", "unless", "elsif", "then", "while", "until", "for"]

/-- The keywords that a kind holds, and the delimiters of a block. -/
def Kind.keywords : Kind → List (Option Span)
  | begin b =>
    [b.beginKeyword, b.elseKeyword, b.ensureKeyword, b.endKeyword] ++ b.rescueKeywords.map some
  | block d _ => [d.opening, d.closing]
  | caseOf keyword endKeyword _ _ => [keyword, endKeyword]
  | clause keyword => [keyword]
  | classDef c | singletonClass c | moduleDef c => [c.keyword, c.endKeyword]
  | method m => [m.keyword, m.endKeyword]
  | elseClause keyword => [keyword]
  | conditional c => [c.keyword, c.endKeyword]
  | loop keyword _ _ => [keyword]
  | forLoop keyword _ _ => [keyword]
  | loopBody doKeyword endKeyword => [doKeyword, endKeyword]
  | forIn keyword => [keyword]
  | rescue keyword => [keyword]
  | ensure keyword => [keyword]
  | thenClause keyword => [keyword]
  | _ => []

theorem Kind.lead_mem_keywords {k : Kind} {m : Span} (h : k.lead = some m) :
    some m ∈ k.keywords := by
  cases k <;> simp_all [lead, keywords]

namespace Concrete

/-- A token that the parser has not made up, and that meets a condition, spells a keyword at the
span. -/
def IsKeyword (p : Concrete → Bool) (m : Span) : Prop :=
  ∃ d, p d ∧ d.label.named = false ∧ d.label.missing = false ∧ d.label.typeName ∈ Kind.words ∧
    d.label.span = m

/-- Keywords take up room, and what the parser made up takes up none. -/
def solid (c : Concrete) : Bool := c.every fun d =>
  if d.label.missing then d.label.span.len == 0
  else d.label.named || !Kind.words.contains d.label.typeName || d.label.span.len != 0

/-- A node that stands in the text and spells a keyword. -/
structure Site.Keyword (s : Site) (m : Span) : Prop where
  anonymous : s.label.named = false
  present : s.label.missing = false
  spelling : s.label.typeName ∈ Kind.words
  span_eq : s.span = m

section Solid

variable {c : Concrete} (h : c.solid) {s : Site} (hs : s ∈ c.sites)

include h hs

theorem Site.solid : (if s.label.missing then s.span.len == 0
    else s.label.named || !Kind.words.contains s.label.typeName || s.span.len != 0) = true :=
  (every_iff.1 (every_of_mem_sitesFrom h (List.forall_mem_nil _) hs s.here List.mem_cons_self)).1

theorem Site.len_of_missing (hmissing : s.label.missing) : s.span.len = 0 := by
  have hlen := s.solid h hs
  rw [if_pos hmissing] at hlen
  exact eq_of_beq hlen

theorem Site.Keyword.len_pos {m : Span} (hkeyword : s.Keyword m) : 0 < m.len := by
  have hlen := s.solid h hs
  obtain ⟨hnamed, hpresent, hword, rfl⟩ := hkeyword
  rw [hpresent, hnamed, List.contains_iff_mem.2 hword] at hlen
  exact Nat.pos_of_ne_zero (bne_iff_ne.1 hlen)

end Solid

end Concrete

namespace Parts

/-- All nodes of the parts meet a condition, and the parser has made none of the parts up. -/
def Every (p : Concrete → Bool) (ps : Parts) : Prop :=
  ∀ q ∈ ps, q.concrete.label.missing = false ∧ q.concrete.every p

section Every

variable {p : Concrete → Bool} {ps : Parts}

theorem every_of {cs : List Concrete} (h : ∀ d ∈ cs, d.every p) : Every p (of cs) := by
  intro q hq
  obtain ⟨hmem, hpresent⟩ := Part.mem_of_mem_listFrom hq
  exact ⟨hpresent, h _ hmem⟩

theorem Every.below (h : Every p ps) {q : Part} (hq : q ∈ ps) :
    Every p (of q.concrete.children) :=
  every_of (Concrete.every_iff.1 (h q hq).2).2

variable {word : String} (hword : word ∈ Kind.words)

include hword

theorem Every.isKeyword (h : Every p ps) {m : Span}
    (hm : ∃ q ∈ ps, q.concrete.isToken word ∧ q.span = m) : Concrete.IsKeyword p m := by
  obtain ⟨q, hq, htoken, rfl⟩ := hm
  obtain ⟨hpresent, hevery⟩ := h q hq
  rw [Concrete.isToken, Bool.and_eq_true, Bool.not_eq_true', beq_iff_eq] at htoken
  exact ⟨q.concrete, (Concrete.every_iff.1 hevery).1, htoken.1, hpresent, htoken.2 ▸ hword, rfl⟩

theorem Every.token (h : Every p ps) : Found (Concrete.IsKeyword p) (ps.token word) :=
  fun _ hm => h.isKeyword hword (exists_of_mem_token hm)

theorem Every.lastToken (h : Every p ps) : Found (Concrete.IsKeyword p) (ps.lastToken word) :=
  fun _ hm => h.isKeyword hword (exists_of_mem_lastToken hm)

theorem Every.leadToken (h : Every p ps) : Found (Concrete.IsKeyword p) (ps.leadToken word) :=
  fun _ hm => h.isKeyword hword (exists_of_mem_leadToken hm)

theorem Every.keyword (h : Every p ps) {q : Part} (hq : q ∈ ps) :
    Found (Concrete.IsKeyword p) (q.concrete.keyword word) :=
  (h.below hq).token hword

end Every

end Parts

namespace Kind

open Concrete (IsKeyword)

theorem keywords_ofClauses {p : Concrete → Bool} {ps : Parts} (h : ps.Every p)
    {beginKeyword endKeyword : Option Span} (implicit : Bool)
    (hbegin : Parts.Found (IsKeyword p) beginKeyword)
    (hend : Parts.Found (IsKeyword p) endKeyword) :
    ∀ o ∈ (ofClauses ps beginKeyword endKeyword implicit).keywords,
      Parts.Found (IsKeyword p) o := by
  have hnamed {types : List String} {q : Part} (hq : q ∈ ps.named types) : q ∈ ps :=
    (List.mem_filter.1 hq).1
  have hclause {type : String} (hword : type ∈ words) : Parts.Found (IsKeyword p)
      ((ps.named [type]).head?.bind fun q => q.concrete.keyword type) := by
    rcases hhead : (ps.named [type]).head? with _ | q
    · exact Parts.found_none
    · exact h.keyword hword (hnamed (List.mem_of_head? hhead))
  have hrescue : ∀ m ∈ (ps.named ["rescue"]).filterMap fun q => q.concrete.keyword "rescue",
      Parts.Found (IsKeyword p) (some m) := by
    intro m hm
    obtain ⟨q, hq, hm⟩ := List.mem_filterMap.1 hm
    rw [← hm]
    exact h.keyword (by decide) (hnamed hq)
  simp only [ofClauses, keywords, List.forall_mem_append, List.forall_mem_cons,
    List.forall_mem_map]
  exact ⟨⟨hbegin, hclause (by decide), hclause (by decide), hend, List.forall_mem_nil _⟩, hrescue⟩

theorem keywords_classify {p : Concrete → Bool} {ps : Parts} (h : ps.Every p) (typeName : String)
    {siblings : List Concrete} (hsiblings : ∀ d ∈ siblings, d.every p) :
    ∀ o ∈ (classify typeName siblings ps).keywords, Parts.Found (IsKeyword p) o := by
  unfold classify
  split
  -- most types look up each keyword by itself
  any_goals
    (simp (disch := decide) [keywords, ofContainer, ofConditional, ofModifier, h.token,
      h.lastToken, h.leadToken]; done)
  · -- `begin`: the clauses may stand in a body
    refine keywords_ofClauses ?_ false (h.token (by decide)) (h.token (by decide))
    split
    · next q hq => exact h.below (List.mem_filter.1 (List.mem_of_head? hq)).1
    · exact h
  · -- a body with clauses of its own takes its `end` from around it
    split
    · exact keywords_ofClauses h true Parts.found_none
        ((Parts.every_of hsiblings).token (by decide))
    · exact List.forall_mem_nil _

end Kind

namespace Node

/-- **Keywords are tokens.** In the tree of a text each keyword is a token of the concrete tree. -/
theorem isKeyword_of_mem_keywords {source : Text} {root : Option Concrete} {p : Concrete → Bool}
    (h : ∀ c ∈ root, c.every p) {x : Cursor} (hx : x ∈ (ofRoot source root).cursors) {m : Span}
    (hm : some m ∈ x.kind.keywords) : Concrete.IsKeyword p m := by
  rcases root_or_site hx with rfl | ⟨c, hc, s, hs, hmatches⟩
  · rw [Cursor.kind, Cursor.node, kind_ofRoot] at hm
    cases hm
  · have hpath := Concrete.every_of_mem_kept (h c hc) hs
    have hbelow : ∀ a ∈ s.here :: s.above, ∀ d ∈ a.concrete.children, d.every p :=
      fun a ha => (Concrete.every_iff.1 (hpath a ha)).2
    have hbeside : ∀ d ∈ Concrete.beside s.above, d.every p := by
      cases habove : s.above with
      | nil => exact List.forall_mem_nil _
      | cons a above =>
        refine hbelow a ?_
        rw [habove]
        exact List.mem_cons_of_mem _ List.mem_cons_self
    rw [Cursor.kind, hmatches.node_eq] at hm
    exact Kind.keywords_classify (Parts.every_of (hbelow s.here List.mem_cons_self)) _ hbeside _ hm
      m rfl

/-- **Tokens behind keywords.** In the tree of a text each keyword is a token among the nodes of the
concrete tree. -/
theorem exists_token_of_mem_keywords {source : Text} {root : Option Concrete} {x : Cursor}
    (hx : x ∈ (ofRoot source root).cursors) {m : Span} (hm : some m ∈ x.kind.keywords) :
    ∃ c ∈ root, ∃ s ∈ c.sites, s.Keyword m := by
  classical
  -- the condition that the keyword's token meets is that it is one of the nodes
  let listed (d : Concrete) : Bool := decide (∃ c ∈ root, ∃ s ∈ c.sites, s.concrete = d)
  have hevery : ∀ c ∈ root, c.every listed := fun c hc =>
    Concrete.every_of_forall_sitesFrom fun s hs => decide_eq_true ⟨c, hc, s, hs, rfl⟩
  obtain ⟨d, hd, hnamed, hpresent, hword, hspan⟩ := isKeyword_of_mem_keywords hevery hx hm
  obtain ⟨c, hc, s, hs, rfl⟩ := of_decide_eq_true hd
  exact ⟨c, hc, s, hs, hnamed, hpresent, hword, hspan⟩

theorem len_pos_of_mem_keywords {source : Text} {root : Option Concrete}
    (h : ∀ c ∈ root, c.solid) {x : Cursor} (hx : x ∈ (ofRoot source root).cursors) {m : Span}
    (hm : some m ∈ x.kind.keywords) : 0 < m.len := by
  obtain ⟨c, hc, s, hs, hkeyword⟩ := exists_token_of_mem_keywords hx hm
  exact hkeyword.len_pos (h c hc) hs

end Node

end RubyLens
