import RubyLens.Proofs.Query.Highlight
import RubyLens.Proofs.Syntax.Types

/-!
Chains of conditionals. An `if` or an `unless`, the `elsif` clauses that follow one another behind it
and the `else` at the end are highlighted as one: wherever the cursor is in such a chain, the search
goes up to its head and from there down again.

A chain follows what is recorded. `Node.Chained` says what the search relies on, that kinds go by types
and that an `elsif` is told from other conditionals; it holds in the tree of a text
(`Node.chained_ofRoot`). Main statement: `Highlight.together_chain`.
-/

namespace RubyLens

namespace Concrete

/-- The types of conditionals that are written in front of what they govern. -/
def conditionals : List String := ["if", "unless", "elsif"]

/-- The types of what may follow a conditional. -/
def followers : List String := ["else", "elsif"]

/-- The keyword of a conditional is as long as its spelling, unless the parser made it up. -/
def spelled (c : Concrete) : Bool := c.every fun d =>
  d.label.named || d.label.missing || !conditionals.contains d.label.typeName ||
    d.label.span.len == Text.size d.label.typeName.toList

/-- An `elsif` has its keyword, unless the parser made it up. -/
def keyedElsifs (c : Concrete) : Bool := c.every fun d =>
  d.label.missing || !d.isNamed ["elsif"] || (d.keyword "elsif").isSome

/-- The tree of `if a then b elsif c then d else e end`. -/
def longConditional : Concrete :=
  .node ⟨"program", true, false, ⟨0, 37⟩, none⟩ [
    .node ⟨"if", true, false, ⟨0, 37⟩, none⟩ [
      .node ⟨"if", false, false, ⟨0, 2⟩, none⟩ [],
      .node ⟨"identifier", true, false, ⟨3, 4⟩, some "condition"⟩ [],
      .node ⟨"then", true, false, ⟨5, 11⟩, some "consequence"⟩ [
        .node ⟨"then", false, false, ⟨5, 9⟩, none⟩ [],
        .node ⟨"identifier", true, false, ⟨10, 11⟩, none⟩ []],
      .node ⟨"elsif", true, false, ⟨12, 33⟩, some "alternative"⟩ [
        .node ⟨"elsif", false, false, ⟨12, 17⟩, none⟩ [],
        .node ⟨"identifier", true, false, ⟨18, 19⟩, some "condition"⟩ [],
        .node ⟨"then", true, false, ⟨20, 26⟩, some "consequence"⟩ [
          .node ⟨"then", false, false, ⟨20, 24⟩, none⟩ [],
          .node ⟨"identifier", true, false, ⟨25, 26⟩, none⟩ []],
        .node ⟨"else", true, false, ⟨27, 33⟩, some "alternative"⟩ [
          .node ⟨"else", false, false, ⟨27, 31⟩, none⟩ [],
          .node ⟨"identifier", true, false, ⟨32, 33⟩, none⟩ []]],
      .node ⟨"end", false, false, ⟨34, 37⟩, none⟩ []]]

end Concrete

open Concrete (conditionals followers)

/-- The slot of what is recorded to follow a conditional. -/
def Kind.consequent? : Kind → Option Slot
  | conditional c => c.consequent
  | _ => none

namespace Node

/-- Conditionals and their clauses have the kinds of their types, only an `elsif` is taken for one, and
only clauses are recorded to follow. -/
structure Chained (root : Node) : Prop where
  conditional : ∀ x ∈ root.cursors, x.node.typeName ∈ conditionals → ∃ c, x.kind = .conditional c
  isElsif_iff : ∀ x ∈ root.cursors, x.node.typeName ∈ conditionals →
    (x.kind.isElsif ↔ x.node.typeName = "elsif")
  otherwise : ∀ x ∈ root.cursors, x.node.typeName = "else" →
    ∃ keyword, x.kind = .elseClause keyword
  thenClause : ∀ x ∈ root.cursors, x.node.typeName = "then" →
    ∃ keyword, x.kind = .thenClause keyword
  consequent : ∀ x ∈ root.cursors, x.node.typeName ∈ conditionals →
    ∀ n ∈ x.node.child? x.kind.consequent?, n.typeName ∈ followers

end Node

namespace Highlight

open Node (Chained)

/-! ### Chains -/

/-- The `elsif` clauses that follow a conditional, each recorded for the one before, and the `else` at
the end. -/
inductive Chain : Cursor → List Cursor → Option Cursor → Prop
  | last {x : Cursor} (h : x.node.child? x.kind.consequent? = none) : Chain x [] none
  | otherwise {x : Cursor} {q : Place} (hq : q ∈ x.here.children)
    (hnext : x.node.child? x.kind.consequent? = some q.node) (h : q.node.typeName = "else") :
    Chain x [] (some ⟨q, x.path⟩)
  | elsif {x : Cursor} {q : Place} {elsifs : List Cursor} {otherwise : Option Cursor}
    (hq : q ∈ x.here.children) (hnext : x.node.child? x.kind.consequent? = some q.node)
    (h : q.node.typeName = "elsif") (rest : Chain ⟨q, x.path⟩ elsifs otherwise) :
    Chain x (⟨q, x.path⟩ :: elsifs) otherwise

theorem mem_conditionals_of_elsif {n : Node} (h : n.typeName = "elsif") :
    n.typeName ∈ conditionals := by
  rw [h]
  decide

/-- Every conditional has a chain. -/
theorem exists_chain {root : Node} (htree : root.Chained) {p : Place} {above : List Place}
    (hp : ⟨p, above⟩ ∈ root.cursors) (htype : p.node.typeName ∈ conditionals) :
    ∃ elsifs otherwise, Chain ⟨p, above⟩ elsifs otherwise := by
  induction p using Place.ind generalizing above with
  | h p ih =>
    cases hnext : p.node.child? p.node.kind.consequent? with
    | none => exact ⟨[], none, .last hnext⟩
    | some n =>
      have hfollower := htree.consequent _ hp htype n hnext
      obtain ⟨q, hq, rfl, hlisted⟩ :=
        Node.exists_cursor_of_mem_children hp (Node.mem_children_of_child? hnext)
      simp only [followers, List.mem_cons, List.not_mem_nil, or_false] at hfollower
      rcases hfollower with helse | helsif
      · exact ⟨[], _, .otherwise (x := ⟨p, above⟩) hq hnext helse⟩
      · obtain ⟨elsifs, otherwise, hrest⟩ := ih q hq hlisted (mem_conditionals_of_elsif helsif)
        exact ⟨_, _, .elsif (x := ⟨p, above⟩) hq hnext helsif hrest⟩

/-- The keywords recorded for a conditional: its own, that of its `then` and its `end`. -/
def ownSpans (z : Cursor) : List Span :=
  match z.kind with
  | .conditional c =>
    c.keyword.toList ++ ((z.node.child? c.thenClause).bind fun n => n.kind.lead).toList ++
      c.endKeyword.toList
  | _ => []

variable {root : Node} {x : Cursor} {elsifs : List Cursor} {otherwise : Option Cursor}

/-- The members of a chain are places of the tree, and those behind the first one are `elsif`s. -/
theorem Chain.elsifs_listed (h : Chain x elsifs otherwise) (hx : x ∈ root.cursors) :
    ∀ z ∈ elsifs, z ∈ root.cursors ∧ z.node.typeName = "elsif" := by
  induction h with
  | last | otherwise => exact List.forall_mem_nil _
  | elsif hq _ htype rest ih =>
    have hlisted := Node.child_mem_cursors hx hq
    exact List.forall_mem_cons.2 ⟨⟨hlisted, htype⟩, ih hlisted⟩

/-- The `else` of a chain is a place of the tree below a member of the chain. -/
theorem Chain.otherwise_listed (h : Chain x elsifs otherwise) (hx : x ∈ root.cursors) :
    ∀ z ∈ otherwise, z ∈ root.cursors ∧ z.node.typeName = "else" ∧
      ∃ w ∈ x :: elsifs, z.parent? = some w := by
  induction h with
  | last => exact fun z hz => by cases hz
  | @otherwise x q hq _ htype =>
    intro z hz
    obtain rfl := Option.some.inj hz
    exact ⟨Node.child_mem_cursors hx hq, htype, x, List.mem_cons_self, rfl⟩
  | elsif hq _ htype rest ih =>
    intro z hz
    obtain ⟨hlisted, htype, w, hw, hparent⟩ :=
      ih (Node.child_mem_cursors hx hq) z hz
    exact ⟨hlisted, htype, w, List.mem_cons_of_mem _ hw, hparent⟩

/-- If all that follows a conditional is recorded, then it is part of the chain. -/
theorem Chain.exists_of_follower (h : Chain x elsifs otherwise) (hx : x ∈ root.cursors)
    (htype : x.node.typeName ∈ conditionals)
    (hall : ∀ y ∈ root.cursors, y.node.typeName ∈ conditionals → ∀ n ∈ y.node.children,
      n.typeName ∈ followers → y.node.child? y.kind.consequent? = some n) :
    ∀ z ∈ x :: elsifs, ∀ n ∈ z.node.children, n.typeName ∈ followers →
      ∃ w, (w ∈ elsifs ∨ w ∈ otherwise) ∧ w.node = n ∧ w.parent? = some z := by
  induction h with
  | @last x hlast =>
    intro z hz n hn hfollower
    rw [List.mem_singleton.1 hz] at hn
    rw [hall x hx htype n hn hfollower] at hlast
    cases hlast
  | @otherwise x q hq hnext _ =>
    intro z hz n hn hfollower
    obtain rfl := List.mem_singleton.1 hz
    rw [hall z hx htype n hn hfollower, Option.some.injEq] at hnext
    exact ⟨_, .inr rfl, hnext.symm, rfl⟩
  | @elsif x q elsifs otherwise hq hnext helsif rest ih =>
    have hlisted : ⟨q, x.path⟩ ∈ root.cursors := Node.child_mem_cursors hx hq
    rw [List.forall_mem_cons]
    constructor
    · intro n hn hfollower
      rw [hall x hx htype n hn hfollower, Option.some.injEq] at hnext
      exact ⟨_, .inl List.mem_cons_self, hnext.symm, rfl⟩
    · intro z hz n hn hfollower
      obtain ⟨w, hw, hrest⟩ := ih hlisted (mem_conditionals_of_elsif helsif) z hz n hn hfollower
      exact ⟨w, hw.imp_left (List.mem_cons_of_mem _), hrest⟩

/-! ### Up and down a chain -/

/-- From every member of a chain the search goes up to where it goes from the first one. -/
theorem Chain.chainHead_eq (htree : root.Chained) (h : Chain x elsifs otherwise)
    (hx : x ∈ root.cursors) (htype : x.node.typeName ∈ conditionals) :
    ∀ z ∈ x :: elsifs, chainHead z.node z.above = chainHead x.node x.above := by
  induction h with
  | last | otherwise =>
    intro z hz
    rw [List.mem_singleton.1 hz]
  | @elsif x q elsifs otherwise hq _ hname rest ih =>
    have hlisted : ⟨q, x.path⟩ ∈ root.cursors := Node.child_mem_cursors hx hq
    have hmember := mem_conditionals_of_elsif hname
    have hstep : chainHead q.node x.path = chainHead x.node x.above := by
      have helsif : q.node.kind.isElsif := (htree.isElsif_iff _ hlisted hmember).2 hname
      obtain ⟨c, hc⟩ := htree.conditional x hx htype
      have hconditional : x.here.node.kind.isConditional := by
        rw [show x.here.node.kind = .conditional c from hc]
        rfl
      rw [Cursor.path, chainHead, helsif, hconditional, Bool.and_self, if_pos rfl]
      rfl
    refine List.forall_mem_cons.2 ⟨rfl, fun z hz => ?_⟩
    rw [ih hlisted hmember z hz]
    exact hstep

theorem chainSpans_eq {c : Conditional} (hkind : x.kind = .conditional c) :
    chainSpans x.node =
      ownSpans x ++ ((x.node.child? x.kind.consequent?).map consequentSpans).getD [] := by
  rw [chainSpans_of_conditional hkind, ownSpans, hkind]
  rfl

/-- Going down from a conditional, the search comes to the members of its chain. -/
theorem Chain.mem_chainSpans_iff (htree : root.Chained) (h : Chain x elsifs otherwise)
    (hx : x ∈ root.cursors) (htype : x.node.typeName ∈ conditionals) (m : Span) :
    m ∈ chainSpans x.node ↔
      (∃ z ∈ x :: elsifs, m ∈ ownSpans z) ∨ ∃ z ∈ otherwise, z.kind.lead = some m := by
  induction h with
  | @last x hlast =>
    obtain ⟨c, hc⟩ := htree.conditional x hx htype
    rw [chainSpans_eq hc, hlast]
    simp
  | @otherwise x q hq hnext hname =>
    obtain ⟨c, hc⟩ := htree.conditional x hx htype
    have hlisted : ⟨q, x.path⟩ ∈ root.cursors := Node.child_mem_cursors hx hq
    obtain ⟨keyword, hkeyword⟩ := htree.otherwise _ hlisted hname
    have hspans : consequentSpans q.node = keyword.toList := by
      rw [consequentSpans, show q.node.kind = .elseClause keyword from hkeyword]
    have hlead : Cursor.kind ⟨q, x.path⟩ = .elseClause keyword := hkeyword
    rw [chainSpans_eq hc, hnext]
    simp [hspans, hlead, Kind.lead]
  | @elsif x q elsifs otherwise hq hnext hname rest ih =>
    obtain ⟨c, hc⟩ := htree.conditional x hx htype
    have hlisted : ⟨q, x.path⟩ ∈ root.cursors := Node.child_mem_cursors hx hq
    have hmember := mem_conditionals_of_elsif hname
    obtain ⟨c', hc'⟩ := htree.conditional _ hlisted hmember
    have hspans : consequentSpans q.node = chainSpans q.node := by
      rw [consequentSpans, show q.node.kind = .conditional c' from hc']
    have hih := ih hlisted hmember
    rw [chainSpans_eq hc, hnext, Option.map_some, Option.getD_some, List.mem_append, hspans,
      List.exists_mem_cons_iff, or_assoc]
    exact or_congr_right hih

/-! ### Entries -/

/-- The search does not go up from an `if` or an `unless`. -/
theorem chainHead_of_not_elsif {n : Node} (h : n.kind.isElsif = false) (above : List Place) :
    chainHead n above = n := by
  cases above with
  | nil => rfl
  | cons p above => rw [chainHead, h, Bool.false_and, if_neg Bool.false_ne_true]

theorem mem_conditionals_of_head (htype : x.node.typeName ∈ ["if", "unless"]) :
    x.node.typeName ∈ conditionals := by
  simp only [conditionals, List.mem_cons, List.not_mem_nil, or_false] at htype ⊢
  tauto

/-- From every member of a chain all of it is found. -/
theorem Chain.conditionalSpans_eq (htree : root.Chained) (h : Chain x elsifs otherwise)
    (hx : x ∈ root.cursors) (htype : x.node.typeName ∈ ["if", "unless"]) :
    ∀ z ∈ x :: elsifs, (∃ c, z.kind = .conditional c) ∧ conditionalSpans z = chainSpans x.node := by
  have hmember := mem_conditionals_of_head htype
  have htop : chainHead x.node x.above = x.node := by
    apply chainHead_of_not_elsif
    rw [← Bool.not_eq_true]
    intro helsif
    rw [(htree.isElsif_iff x hx hmember).1 helsif] at htype
    exact absurd htype (by decide)
  intro z hz
  constructor
  · rcases List.mem_cons.1 hz with rfl | hz
    · exact htree.conditional z hx hmember
    · obtain ⟨hlisted, hname⟩ := h.elsifs_listed hx z hz
      exact htree.conditional z hlisted (by rw [hname]; decide)
  · rw [conditionalSpans, h.chainHead_eq htree hx hmember z hz, htop]

/-- The places of a chain: its conditionals, the `else`, and clauses with `then` while the cursor is
on that word. -/
def ChainEntry (x : Cursor) (elsifs : List Cursor) (otherwise : Option Cursor) (offset : Nat)
    (y : Cursor) : Prop :=
  y ∈ x :: elsifs ∨ y ∈ otherwise ∨
    y.node.typeName = "then" ∧ (∃ w ∈ x :: elsifs, y.parent? = some w) ∧
      ∃ m, y.kind.lead = some m ∧ m.contains offset

/-- The keywords of a chain. -/
def ChainKeyword (x : Cursor) (elsifs : List Cursor) (otherwise : Option Cursor) (m : Span) : Prop :=
  (∃ z ∈ x :: elsifs, m ∈ ownSpans z) ∨ ∃ z ∈ otherwise, z.kind.lead = some m

theorem Chain.together (htree : root.Chained) (h : Chain x elsifs otherwise)
    (hx : x ∈ root.cursors) (htype : x.node.typeName ∈ ["if", "unless"]) :
    Together root (ChainEntry x elsifs otherwise) (ChainKeyword x elsifs otherwise) := by
  refine together_of (chainSpans x.node)
    (h.mem_chainSpans_iff htree hx (mem_conditionals_of_head htype)) ?_
  intro offset y hy hentry
  suffices hspans : spansFrom offset y.here y.above = chainSpans x.node from
    fun m => by rw [hspans]
  have hmembers := h.conditionalSpans_eq htree hx htype
  have hconstruct : ∀ w ∈ x :: elsifs, spansFrom offset w.here w.above = chainSpans x.node := by
    intro w hw
    obtain ⟨⟨c, hc⟩, hspans⟩ := hmembers w hw
    rw [spansFrom_eq_constructSpans offset (by rw [hc]; rfl), constructSpans, hc]
    exact hspans
  rcases hentry with hmember | helse | ⟨hthen, ⟨w, hw, hparent⟩, m, hlead, hm⟩
  · exact hconstruct y hmember
  · -- from the `else` to the conditional above it
    obtain ⟨hlisted, hname, w, hw, hparent⟩ := h.otherwise_listed hx y helse
    obtain ⟨keyword, hkind⟩ := htree.otherwise y hlisted hname
    obtain ⟨⟨c, hc⟩, hspans⟩ := hmembers w hw
    rw [spansFrom_eq_constructSpans offset (by rw [hkind]; rfl), constructSpans, hkind]
    simp only [elseSpans, hparent, hc]
    exact hspans
  · -- from the `then` to the conditional that it belongs to
    obtain ⟨keyword, hkind⟩ := htree.thenClause y hy hthen
    rw [hkind] at hlead
    obtain rfl : keyword = some m := hlead
    rw [spansFrom_of_linkWord hparent (by rw [hkind]; rfl) hm]
    exact hconstruct w hw

end Highlight

namespace Node

/-! ### The tree of a text -/

theorem classify_of_mem_conditionals {word : String} (h : word ∈ conditionals)
    (siblings : List Concrete) (ps : Parts) :
    Kind.classify word siblings ps = Kind.ofConditional ps word := by
  simp only [conditionals, List.mem_cons, List.not_mem_nil, or_false] at h
  rcases h with rfl | rfl | rfl <;> rfl

theorem Grown.kind_of_conditional {root : Option Concrete} {x : Cursor} {s : Concrete.Site}
    (h : Grown root x s) (htype : x.node.typeName ∈ conditionals) :
    x.kind = Kind.ofConditional (Parts.of s.concrete.children) x.node.typeName := by
  rw [h.kind_eq, classify_of_mem_conditionals htype]

theorem ne_program_of_mem_conditionals {word : String} (h : word ∈ conditionals) :
    word ≠ "program" := by
  rintro rfl
  exact absurd h (by decide)

/-- Of the keywords of conditionals only `elsif` is five bytes long. -/
theorem isElsif_ofConditional_iff {cs : List Concrete} {word : String} (hword : word ∈ conditionals)
    (hspelled : ∀ d ∈ cs, d.spelled)
    (helsif : word = "elsif" → ((Parts.of cs).token word).isSome) :
    (Kind.ofConditional (Parts.of cs) word).isElsif ↔ word = "elsif" := by
  have hlen : ∀ m ∈ (Parts.of cs).token word, m.len = Text.size word.toList := by
    intro m hm
    obtain ⟨p, hp, htoken, rfl⟩ := Parts.exists_of_mem_token hm
    obtain ⟨hmem, hpresent⟩ := Part.mem_of_mem_listFrom hp
    have hthis := (Concrete.every_iff.1 (hspelled _ hmem)).1
    rw [Concrete.isToken, Bool.and_eq_true, Bool.not_eq_true', beq_iff_eq] at htoken
    rw [htoken.1, hpresent, htoken.2, List.contains_iff_mem.2 hword, Bool.not_true, Bool.or_self,
      Bool.or_false, Bool.false_or, beq_iff_eq] at hthis
    exact hthis
  have hshort (hsize : Text.size word.toList = 5) : word = "elsif" := by
    simp only [conditionals, List.mem_cons, List.not_mem_nil, or_false] at hword
    rcases hword with rfl | rfl | rfl
    · exact absurd hsize (by decide)
    · exact absurd hsize (by decide)
    · rfl
  rw [Kind.ofConditional, Kind.isElsif]
  constructor
  · intro hany
    obtain ⟨m, hm, hfive⟩ := (Option.any_eq_true ..).1 hany
    exact hshort ((hlen m hm).symm.trans (beq_iff_eq.1 hfive))
  · intro h
    obtain ⟨m, hm⟩ := Option.isSome_iff_exists.1 (helsif h)
    have hfive := hlen m hm
    rw [hm, Option.any_some, beq_iff_eq, hfive, h]
    decide

theorem chained_ofRoot (source : Text) {root : Option Concrete}
    (h : ∀ c ∈ root, c.isNamed ["program"] ∧ c.spelled ∧ c.keyedElsifs) :
    (ofRoot source root).Chained := by
  have hgrown {x : Cursor} (hx : x ∈ (ofRoot source root).cursors)
      (htype : x.node.typeName ≠ "program") : ∃ s, Grown root x s :=
    exists_grown_of_typeName (fun c hc => (h c hc).1) hx htype
  constructor
  case conditional =>
    intro x hx htype
    obtain ⟨s, hs⟩ := hgrown hx (ne_program_of_mem_conditionals htype)
    exact ⟨_, hs.kind_of_conditional htype⟩
  case isElsif_iff =>
    intro x hx htype
    obtain ⟨s, hs⟩ := hgrown hx (ne_program_of_mem_conditionals htype)
    have hspelled := hs.every _ fun c hc => (h c hc).2.1
    have hkeyed := hs.every _ fun c hc => (h c hc).2.2
    rw [hs.kind_of_conditional htype]
    refine isElsif_ofConditional_iff htype (Concrete.every_iff.1 hspelled).2 fun helsif => ?_
    have hthis := (Concrete.every_iff.1 hkeyed).1
    have hpresent : s.concrete.label.missing = false := hs.present
    have hnamed : s.concrete.isNamed ["elsif"] := by
      rw [Concrete.isNamed, Bool.and_eq_true, List.contains_iff_mem, List.mem_singleton]
      exact ⟨hs.named, hs.typeName_eq.symm.trans helsif⟩
    rw [hpresent, hnamed, Bool.not_true, Bool.false_or, Bool.false_or] at hthis
    rw [helsif]
    exact hthis
  case otherwise =>
    intro x hx htype
    obtain ⟨s, hs⟩ := hgrown hx (by rw [htype]; decide)
    rw [hs.kind_eq, htype]
    exact ⟨_, rfl⟩
  case thenClause =>
    intro x hx htype
    obtain ⟨s, hs⟩ := hgrown hx (by rw [htype]; decide)
    rw [hs.kind_eq, htype]
    exact ⟨_, rfl⟩
  case consequent =>
    intro x hx htype n hn
    obtain ⟨s, hs⟩ := hgrown hx (ne_program_of_mem_conditionals htype)
    rw [hs.kind_of_conditional htype] at hn
    exact hs.typeName_of_child? hn

/-- What follows a conditional is recorded, if there is only one such child and tokens are leaves. -/
theorem child?_consequent_of_follower {source : Text} {root : Option Concrete}
    (h : ∀ c ∈ root, c.isNamed ["program"] ∧ c.leafTokens) {x : Cursor}
    (hx : x ∈ (ofRoot source root).cursors) (htype : x.node.typeName ∈ conditionals)
    (honce : x.node.atMostOne followers) {n : Node} (hn : n ∈ x.node.children)
    (hfollower : n.typeName ∈ followers) : x.node.child? x.kind.consequent? = some n := by
  obtain ⟨s, hs⟩ := exists_grown_of_typeName (fun c hc => (h c hc).1) hx
    (ne_program_of_mem_conditionals htype)
  rw [atMostOne, decide_eq_true_eq, hs.children_eq] at honce
  rw [hs.children_eq] at hn
  rw [hs.kind_of_conditional htype, child?, hs.children_eq]
  exact (child_firstNamed_iff (hs.leaf fun c hc => (h c hc).2) honce).2 ⟨hn, hfollower⟩

end Node

namespace Highlight

/-- **Chains of conditionals.** An `if` or an `unless` has a chain of `elsif` clauses, possibly with
an `else`. From every place of such a chain the same is highlighted: the keywords of its members and
nothing else. If tokens are leaves and no conditional is followed by more than one clause, then each
such clause below a member is itself part of the chain. -/
theorem together_chain (parser : Parser) (text : Text)
    (hparser : ∀ c ∈ parser text, c.isNamed ["program"] ∧ c.spelled ∧ c.keyedElsifs) {x : Cursor}
    (hx : x ∈ (Source.parse parser text).root.cursors)
    (htype : x.node.typeName ∈ ["if", "unless"]) :
    (∃ elsifs otherwise, Chain x elsifs otherwise) ∧
      ∀ elsifs otherwise, Chain x elsifs otherwise →
        Together (Source.parse parser text).root (ChainEntry x elsifs otherwise)
          (ChainKeyword x elsifs otherwise) ∧
        ((∀ c ∈ parser text, c.leafTokens) →
          (∀ y ∈ (Source.parse parser text).root.cursors, y.node.typeName ∈ conditionals →
            y.node.atMostOne followers) →
          ∀ z ∈ x :: elsifs, ∀ n ∈ z.node.children, n.typeName ∈ followers →
            ∃ w, (w ∈ elsifs ∨ w ∈ otherwise) ∧ w.node = n ∧ w.parent? = some z) := by
  have htree := Node.chained_ofRoot text hparser
  have hmember := mem_conditionals_of_head htype
  refine ⟨exists_chain htree hx hmember, fun elsifs otherwise h => ⟨h.together htree hx htype, ?_⟩⟩
  intro hleaf honce
  refine h.exists_of_follower hx hmember fun y hy hy' n hn hfollower => ?_
  exact Node.child?_consequent_of_follower (fun c hc => ⟨(hparser c hc).1, hleaf c hc⟩) hy hy'
    (honce y hy hy') hn hfollower

open Concrete (longConditional) in
theorem together_chain_longConditional :
    let text := "if a then b elsif c then d else e end".toList
    let root := (Source.parse (fun _ => some longConditional) text).root
    (longConditional.isNamed ["program"] ∧ longConditional.spelled ∧ longConditional.keyedElsifs) ∧
      (longConditional.leafTokens ∧
        ∀ y ∈ root.cursors, y.node.typeName ∈ conditionals → y.node.atMostOne followers) ∧
      Chain (root.cursorAt 0) [root.cursorAt 12] (some (root.cursorAt 27)) ∧
      spansAt root 0 = [⟨0, 2⟩, ⟨5, 9⟩, ⟨12, 17⟩, ⟨20, 24⟩, ⟨27, 31⟩, ⟨34, 37⟩] ∧
      spansAt root 12 = spansAt root 0 ∧ spansAt root 20 = spansAt root 0 ∧
      spansAt root 27 = spansAt root 0 := by
  intro text root
  have hwell : longConditional.isNamed ["program"] ∧ longConditional.spelled ∧
      longConditional.keyedElsifs := by decide
  have honce : longConditional.leafTokens ∧
      ∀ y ∈ root.cursors, y.node.typeName ∈ conditionals → y.node.atMostOne followers := by decide
  have hchain : Chain (root.cursorAt 0) [root.cursorAt 12] (some (root.cursorAt 27)) :=
    .elsif (q := (root.cursorAt 12).here) (List.mem_of_getElem? (i := 2) rfl) rfl (by decide)
      (.otherwise (q := (root.cursorAt 27).here) (List.mem_of_getElem? (i := 2) rfl) rfl
        (by decide))
  obtain ⟨-, htogether⟩ := together_chain (fun _ => some longConditional) text
    (fun c hc => by
      obtain rfl := Option.some.inj hc
      exact hwell)
    (Node.cursorAt_mem_cursors root 0) (by decide)
  have hsame := (htogether _ _ hchain).1
  have hhead {offset : Nat}
      (h : ChainEntry (root.cursorAt 0) [root.cursorAt 12] (some (root.cursorAt 27)) offset
        (root.cursorAt offset)) : spansAt root offset = spansAt root 0 :=
    hsame.spansAt_eq h (.inl List.mem_cons_self)
  refine ⟨hwell, honce, hchain, ?_, hhead ?_, hhead ?_, hhead ?_⟩
  · have hfound : spansFrom 0 (root.cursorAt 0).here (root.cursorAt 0).above =
        [⟨0, 2⟩, ⟨5, 9⟩, ⟨34, 37⟩, ⟨12, 17⟩, ⟨20, 24⟩, ⟨27, 31⟩] := by decide
    rw [spansAt_eq, hfound]
    exact tidy_of_perm (by decide) (by decide)
  · exact .inl (List.mem_cons_of_mem _ (List.mem_singleton_self _))
  · -- on the `then` of the `elsif`
    exact .inr (.inr ⟨by decide, ⟨root.cursorAt 12, by simp, rfl⟩, ⟨20, 24⟩, by decide, by decide⟩)
  · exact .inr (.inl rfl)

end Highlight

end RubyLens
