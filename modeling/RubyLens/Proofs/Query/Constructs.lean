import RubyLens.Proofs.Query.Highlight
import RubyLens.Proofs.Syntax.Types

/-!
Constructs with clauses. A `begin` with its clauses, a method or a block whose body has clauses of its
own, a `case` with its branches and a loop with its body are each highlighted as one, wherever in the
construct the cursor is.

Main statement: `Highlight.together_constructs`.
-/

namespace RubyLens

/-- The tree of `def f;for a in b do end;rescue;end`. -/
def Concrete.guardedLoop : Concrete :=
  .node ⟨"program", true, false, ⟨0, 34⟩, none⟩ [
    .node ⟨"method", true, false, ⟨0, 34⟩, none⟩ [
      .node ⟨"def", false, false, ⟨0, 3⟩, none⟩ [],
      .node ⟨"identifier", true, false, ⟨4, 5⟩, some "name"⟩ [],
      .node ⟨";", false, false, ⟨5, 6⟩, none⟩ [],
      .node ⟨"body_statement", true, false, ⟨6, 31⟩, some "body"⟩ [
        .node ⟨"for", true, false, ⟨6, 23⟩, none⟩ [
          .node ⟨"for", false, false, ⟨6, 9⟩, none⟩ [],
          .node ⟨"identifier", true, false, ⟨10, 11⟩, some "pattern"⟩ [],
          .node ⟨"in", true, false, ⟨12, 16⟩, some "value"⟩ [
            .node ⟨"in", false, false, ⟨12, 14⟩, none⟩ [],
            .node ⟨"identifier", true, false, ⟨15, 16⟩, none⟩ []],
          .node ⟨"do", true, false, ⟨17, 23⟩, some "body"⟩ [
            .node ⟨"do", false, false, ⟨17, 19⟩, none⟩ [],
            .node ⟨"end", false, false, ⟨20, 23⟩, none⟩ []]],
        .node ⟨";", false, false, ⟨23, 24⟩, none⟩ [],
        .node ⟨"rescue", true, false, ⟨24, 30⟩, none⟩ [
          .node ⟨"rescue", false, false, ⟨24, 30⟩, none⟩ []],
        .node ⟨";", false, false, ⟨30, 31⟩, none⟩ []],
      .node ⟨"end", false, false, ⟨31, 34⟩, none⟩ []]]

/-- The keywords of the clauses of a `begin`, and its `end`. -/
def Begin.Has (b : Begin) (m : Span) : Prop :=
  m ∈ b.rescueKeywords ∨ b.elseKeyword = some m ∨ b.ensureKeyword = some m ∨ b.endKeyword = some m

namespace Kind

/-- The body of a method or a block. -/
def body? : Kind → Option Slot
  | method m => m.body
  | block _ body => body
  | _ => none

/-- What a method or a block starts with: `def`, or the opening delimiter. -/
def front : Kind → Option Span
  | method m => m.keyword
  | block d _ => d.opening
  | _ => none

/-- What a kind records by the types of its parts. A body that acts as a `begin` has no keyword in
front. -/
def Records (ps : Parts) : Kind → Prop
  | begin b => b.implicit → b.beginKeyword = none
  | caseOf _ _ clauses otherwise =>
    clauses = (ps.named ["when", "in_clause"]).map Part.slot ∧ otherwise = ps.firstNamed ["else"]
  | loop _ body _ => body = none ∨ body = ps.firstNamed ["do"]
  | forLoop _ inClause body => inClause = ps.firstNamed ["in"] ∧ body = ps.firstNamed ["do"]
  | _ => True

theorem records_classify (typeName : String) (siblings : List Concrete) (ps : Parts) :
    (classify typeName siblings ps).Records ps := by
  unfold classify
  split
  any_goals (simp [Records, ofClauses, ofConditional, ofModifier]; done)
  · -- a body, with clauses of its own or without
    split <;> simp [Records, ofClauses]

end Kind

/-- A place that is not the root has the records of the concrete node that it comes from. -/
theorem Node.exists_grown_records {source : Text} {c : Option Concrete} {x : Cursor}
    (hx : x ∈ (ofRoot source c).cursors) (hkind : x.kind ≠ .program) :
    ∃ s, Grown c x s ∧ x.kind.Records (Parts.of s.concrete.children) := by
  obtain ⟨s, hs⟩ := exists_grown_of_kind hx hkind
  exact ⟨s, hs, hs.kind_eq ▸ Kind.records_classify _ _ _⟩

namespace Highlight

variable {root : Node} {x y q : Cursor}

/-! ### Clauses of a `begin` -/

theorem mem_beginKeywords {b : Begin} {m : Span} :
    m ∈ beginKeywords b ↔ b.beginKeyword = some m ∨ b.Has m := by
  simp only [beginKeywords, Begin.Has, List.mem_append, Option.mem_toList, or_assoc]

/-- `rescue`, `else` or `ensure` directly below a place. -/
def ClauseOf (y q : Cursor) : Prop :=
  y.parent? = some q ∧ ((∃ k, y.kind = .rescue k) ∨ (∃ k, y.kind = .elseClause k) ∨
    ∃ k, y.kind = .ensure k)

/-- From a clause of a `begin` the search goes to that. -/
theorem ClauseOf.spansFrom_eq (h : ClauseOf y q) {b : Begin} (hq : q.kind = .begin b)
    (offset : Nat) : spansFrom offset y.here y.above = beginSpansAt q := by
  obtain ⟨hparent, ⟨k, hk⟩ | ⟨k, hk⟩ | ⟨k, hk⟩⟩ := h
  · rw [spansFrom_eq_constructSpans offset (by rw [hk]; rfl), constructSpans, hk]
    simp only [hparent, Option.map_some, Option.getD_some]
  · rw [spansFrom_eq_constructSpans offset (by rw [hk]; rfl), constructSpans, hk]
    simp only [elseSpans, hparent, hq]
  · rw [spansFrom_eq_constructSpans offset (by rw [hk]; rfl), constructSpans, hk]
    simp only [hparent, Option.map_some, Option.getD_some]

theorem spansFrom_of_begin {b : Begin} (hq : q.kind = .begin b) (offset : Nat) :
    spansFrom offset q.here q.above = beginSpansAt q := by
  rw [spansFrom_eq_constructSpans offset (by rw [hq]; rfl), constructSpans, hq]

theorem beginSpansAt_of_explicit {b : Begin} (hx : x.kind = .begin b) (h : b.implicit = false) :
    beginSpansAt x = beginKeywords b := by
  rw [beginSpansAt, hx]
  simp only [beginSpans, h, Bool.false_eq_true, if_false]

theorem beginSpansAt_of_parent {b : Begin} (hq : q.kind = .begin b) (hparent : q.parent? = some x) :
    beginSpansAt q = beginSpans b (some x.kind) := by
  rw [beginSpansAt, hq]
  simp only [hparent, Option.map_some]

/-- A body that acts as a `begin` belongs to the `begin` around it. -/
theorem beginSpans_of_explicit {b outer : Begin} (h : b.implicit) (houter : outer.implicit = false) :
    beginSpans b (some (.begin outer)) = beginKeywords outer := by
  simp [beginSpans, h, houter]

/-- A `begin` that is written out: the place itself, its clauses, and a body with clauses of its
own. -/
def BeginEntry (x y : Cursor) : Prop :=
  y = x ∨ ClauseOf y x ∨ ∃ q b, q.parent? = some x ∧ q.kind = .begin b ∧ b.implicit ∧
    (y = q ∨ ClauseOf y q)

theorem together_begin {b : Begin} (hx : x.kind = .begin b) (h : b.implicit = false) :
    Together root (fun _ y => BeginEntry x y) (fun m => b.beginKeyword = some m ∨ b.Has m) := by
  refine together_of (beginKeywords b) (fun _ => mem_beginKeywords) ?_
  intro offset y _ hentry
  suffices hspans : spansFrom offset y.here y.above = beginKeywords b from
    fun m => by rw [hspans]
  have hown := beginSpansAt_of_explicit hx h
  rcases hentry with rfl | hclause | ⟨q, b', hparent, hq, himplicit, hy⟩
  · rw [spansFrom_of_begin hx, hown]
  · rw [hclause.spansFrom_eq hx, hown]
  · -- the body belongs to the `begin` around it
    have hbody : beginSpansAt q = beginKeywords b := by
      rw [beginSpansAt_of_parent hq hparent, hx, beginSpans_of_explicit himplicit h]
    rcases hy with rfl | hclause
    · rw [spansFrom_of_begin hq, hbody]
    · rw [hclause.spansFrom_eq hq, hbody]

/-! ### Methods and blocks -/

/-- A method or a block whose body acts as a `begin`: the place itself, its body and the clauses of
that. -/
def OwnerEntry (x : Cursor) (body : Node) (y : Cursor) : Prop :=
  y = x ∨ ∃ q, q.parent? = some x ∧ q.node = body ∧ (y = q ∨ ClauseOf y q)

theorem beginSpans_of_owner {b : Begin} (h : b.implicit) {k : Kind} {slot : Slot}
    (hk : k.body? = some slot) : beginSpans b (some k) = beginKeywords b ++ k.front.toList := by
  cases k with
  | method _ | block _ _ => simp [beginSpans, h, Kind.front]
  | _ => cases hk

/-- From a method or a block the search goes to a body that acts as a `begin`. -/
theorem spansFrom_of_owner {body : Node} {b : Begin} {slot : Slot} (hslot : x.kind.body? = some slot)
    (hbody : x.node.child? (some slot) = some body) (hb : body.kind = .begin b) (h : b.implicit)
    (offset : Nat) : spansFrom offset x.here x.above = beginSpans b (some x.kind) := by
  have hown (own : List Span) : ownerSpans x.node (some slot) own = beginSpans b (some x.kind) := by
    rw [ownerSpans, hbody, Option.map_some, hb]
    exact if_pos h
  cases hx : x.kind with
  | method m =>
    obtain hm : m.body = some slot := by
      rw [hx] at hslot
      exact hslot
    rw [spansFrom_eq_constructSpans offset (by rw [hx]; rfl), constructSpans, hx]
    simp only [hm, hown, hx]
  | block d body =>
    obtain rfl : body = some slot := by
      rw [hx] at hslot
      exact hslot
    rw [spansFrom_eq_constructSpans offset (by rw [hx]; rfl), constructSpans, hx]
    simp only [hown, hx]
  | _ =>
    rw [hx] at hslot
    cases hslot

theorem together_owner {body : Node} {b : Begin} {slot : Slot} (hslot : x.kind.body? = some slot)
    (hbody : x.node.child? (some slot) = some body) (hb : body.kind = .begin b) (h : b.implicit)
    (hnone : b.beginKeyword = none) :
    Together root (fun _ y => OwnerEntry x body y)
      (fun m => x.kind.front = some m ∨ b.Has m) := by
  refine together_of (beginSpans b (some x.kind)) (fun m => ?_) ?_
  · rw [beginSpans_of_owner h hslot, List.mem_append, mem_beginKeywords, hnone,
      Option.mem_toList, or_comm]
    simp
  · intro offset y _ hentry
    suffices hspans : spansFrom offset y.here y.above = beginSpans b (some x.kind) from
      fun m => by rw [hspans]
    rcases hentry with rfl | ⟨q, hparent, hq, hy⟩
    · exact spansFrom_of_owner hslot hbody hb h offset
    · have hkind : q.kind = .begin b := by rw [Cursor.kind, hq, hb]
      rcases hy with rfl | hclause
      · rw [spansFrom_of_begin hkind, beginSpansAt_of_parent hkind hparent]
      · rw [hclause.spansFrom_eq hkind, beginSpansAt_of_parent hkind hparent]

/-! ### Branches of a `case` -/

/-- A `case`: the place itself, its branches and the `else` that is recorded for it. -/
def CaseEntry (x : Cursor) (otherwise : Option Slot) (y : Cursor) : Prop :=
  y = x ∨ y.parent? = some x ∧
    (y.node.typeName ∈ ["when", "in_clause"] ∨ x.node.child? otherwise = some y.node)

theorem mem_caseSpans_iff {keyword endKeyword : Option Span} {clauses : List Slot}
    {otherwise : Option Slot} (hkind : x.kind = .caseOf keyword endKeyword clauses otherwise)
    (m : Span) :
    m ∈ caseSpans x.node ↔ keyword = some m ∨ endKeyword = some m ∨
      ∃ slot ∈ clauses, ∃ n, x.node.child? (some slot) = some n ∧ n.kind.lead = some m := by
  rw [caseSpans, show x.node.kind = _ from hkind]
  simp only [List.mem_append, Option.mem_toList, or_assoc, List.mem_filterMap,
    Option.bind_eq_some_iff]

/-- The `else` of a `case` adds its keyword. -/
theorem mem_wholeCaseSpans_iff {keyword endKeyword : Option Span} {clauses : List Slot}
    {otherwise : Option Slot} (hkind : x.kind = .caseOf keyword endKeyword clauses otherwise)
    (m : Span) :
    m ∈ wholeCaseSpans x.node ↔ m ∈ caseSpans x.node ∨
      ∃ n, x.node.child? otherwise = some n ∧ n.kind.lead = some m := by
  rw [wholeCaseSpans, show x.node.kind = _ from hkind]
  simp only [List.mem_append, Option.mem_toList, Option.bind_eq_some_iff]

section Tree

variable {source : Text} {c : Option Concrete} (hx : x ∈ (Node.ofRoot source c).cursors)
  {keyword endKeyword : Option Span} {clauses : List Slot} {otherwise : Option Slot}
  (hkind : x.kind = .caseOf keyword endKeyword clauses otherwise)

include hx hkind

/-- The places that are recorded for a `case` are those of its branches and of its `else`. -/
theorem exists_grown_of_case : ∃ s, Node.Grown c x s ∧
    clauses = ((Parts.of s.concrete.children).named ["when", "in_clause"]).map Part.slot ∧
    otherwise = (Parts.of s.concrete.children).firstNamed ["else"] := by
  obtain ⟨s, hs, hrecords⟩ :=
    Node.exists_grown_records hx (by rw [hkind]; exact Kind.noConfusion)
  rw [hkind] at hrecords
  exact ⟨s, hs, hrecords⟩

/-- If tokens are leaves, then all branches are recorded. -/
theorem exists_clause_iff (hleaf : ∀ d ∈ c, d.leafTokens) (n : Node) :
    (∃ slot ∈ clauses, x.node.child? (some slot) = some n) ↔
      n ∈ x.node.children ∧ n.typeName ∈ ["when", "in_clause"] := by
  obtain ⟨s, hs, rfl, -⟩ := exists_grown_of_case hx hkind
  rw [hs.children_eq, ← Node.exists_named_iff (hs.leaf hleaf)]
  simp only [List.mem_map, exists_exists_and_eq_and, Node.child?, Option.bind_some, hs.children_eq]

/-- If tokens are leaves, then an `else` that is the only one is recorded. -/
theorem child?_otherwise_iff (hleaf : ∀ d ∈ c, d.leafTokens) (honce : x.node.atMostOne ["else"])
    (n : Node) :
    x.node.child? otherwise = some n ↔ n ∈ x.node.children ∧ n.typeName ∈ ["else"] := by
  obtain ⟨s, hs, -, rfl⟩ := exists_grown_of_case hx hkind
  rw [Node.atMostOne, decide_eq_true_eq, hs.children_eq] at honce
  rw [Node.child?, hs.children_eq]
  exact Node.child_firstNamed_iff (hs.leaf hleaf) honce

theorem together_case : Together (Node.ofRoot source c) (fun _ y => CaseEntry x otherwise y)
    (fun m => keyword = some m ∨ endKeyword = some m ∨
      (∃ slot ∈ clauses, ∃ n, x.node.child? (some slot) = some n ∧ n.kind.lead = some m) ∨
        ∃ n, x.node.child? otherwise = some n ∧ n.kind.lead = some m) := by
  have hwhole (m : Span) := mem_wholeCaseSpans_iff hkind m
  refine together_of (wholeCaseSpans x.node) (fun m => ?_) ?_
  · rw [hwhole, mem_caseSpans_iff hkind, or_assoc, or_assoc]
  · intro offset y hy hentry
    rcases hentry with rfl | ⟨hparent, hbranch⟩
    · intro m
      rw [spansFrom_eq_constructSpans offset (by rw [hkind]; rfl), constructSpans, hkind]
    · have hmem : y.node ∈ x.node.children :=
        Place.node_mem_of_mem_children (Node.here_mem_children_of_parent? hy hparent)
      obtain ⟨siblings, ps, hclassify⟩ : ∃ siblings ps,
          y.kind = Kind.classify y.node.typeName siblings ps := Node.kind_of_mem_children hx hmem
      rcases hbranch with htype | helse
      · obtain ⟨k, hk⟩ : ∃ k, y.kind = .clause k := by
          simp only [List.mem_cons, List.not_mem_nil, or_false] at htype
          rcases htype with hname | hname
          · exact ⟨_, hclassify.trans (by rw [hname]; rfl)⟩
          · exact ⟨_, hclassify.trans (by rw [hname]; rfl)⟩
        intro m
        rw [spansFrom_eq_constructSpans offset (by rw [hk]; rfl), constructSpans, hk]
        simp only [hparent, Option.map_some, Option.getD_some]
      · -- the `else` adds its own keyword to those of the other branches
        obtain ⟨s, hs, -, hotherwise⟩ := exists_grown_of_case hx hkind
        have hname := List.mem_singleton.1 (hs.typeName_of_child? (hotherwise ▸ helse))
        have hk : y.kind = .elseClause (ps.token "else") := hclassify.trans (by rw [hname]; rfl)
        intro m
        rw [spansFrom_eq_constructSpans offset (by rw [hk]; rfl), constructSpans, hk]
        simp only [elseSpans, hparent, hkind, List.mem_append, Option.mem_toList]
        rw [hwhole, or_comm, helse]
        simp [Cursor.kind]

end Tree

/-! ### Loops -/

/-- The keywords of the body of a loop. -/
def bodySpans (n : Node) (body : Option Slot) : List Span :=
  match (n.child? body).map Node.kind with
  | some (.loopBody doKeyword endKeyword) => doKeyword.toList ++ endKeyword.toList
  | _ => []

theorem loopSpans_of_loop {n : Node} {keyword : Option Span} {body : Option Slot} {modifier : Bool}
    (h : n.kind = .loop keyword body modifier) :
    loopSpans n = keyword.toList ++ bodySpans n body := by
  rw [loopSpans, h]
  rfl

theorem loopSpans_of_forLoop {n : Node} {keyword : Option Span} {inClause body : Option Slot}
    (h : n.kind = .forLoop keyword inClause body) :
    loopSpans n = keyword.toList ++ ((n.child? inClause).bind fun m => m.kind.lead).toList ++
      bodySpans n body := by
  rw [loopSpans, h]
  rfl

/-- A loop: the place itself, its body, and its `in` while the cursor is on that word. -/
def LoopEntry (x : Cursor) (offset : Nat) (y : Cursor) : Prop :=
  y = x ∨ y.parent? = some x ∧ ((∃ doKeyword endKeyword, y.kind = .loopBody doKeyword endKeyword) ∨
    ∃ m, y.kind = .forIn (some m) ∧ m.contains offset)

theorem LoopEntry.spansFrom_eq {offset : Nat} (h : LoopEntry x offset y)
    (hloop : linkWord x.kind = none) (hx : constructSpans x = loopSpans x.node) :
    spansFrom offset y.here y.above = loopSpans x.node := by
  have hwhole : spansFrom offset x.here x.above = loopSpans x.node := by
    rw [spansFrom_eq_constructSpans offset hloop, hx]
  rcases h with rfl | ⟨hparent, ⟨doKeyword, endKeyword, hbody⟩ | ⟨m, hin, hm⟩⟩
  · exact hwhole
  · rw [spansFrom_eq_constructSpans offset (by rw [hbody]; rfl), constructSpans, hbody]
    simp only [hparent, Option.map_some, Option.getD_some]
  · rw [spansFrom_of_linkWord hparent (by rw [hin]; rfl) hm, hwhole]

section Tree

variable {source : Text} {c : Option Concrete} (hx : x ∈ (Node.ofRoot source c).cursors)

include hx

/-- The keywords of a body that is recorded. -/
theorem mem_bodySpans_iff {body : Option Slot}
    (htype : ∀ n, x.node.child? body = some n → n.typeName ∈ ["do"]) (m : Span) :
    m ∈ bodySpans x.node body ↔
      ∃ n, x.node.child? body = some n ∧ some m ∈ n.kind.keywords := by
  rw [bodySpans]
  cases hbody : x.node.child? body with
  | none => simp
  | some n =>
    obtain ⟨siblings, ps, hclassify⟩ :=
      Node.kind_of_mem_children hx (Node.mem_children_of_child? hbody)
    rw [List.mem_singleton.1 (htype n hbody)] at hclassify
    have hkind : n.kind = .loopBody (ps.leadToken "do") (ps.lastToken "end") := hclassify
    simp [hkind, Kind.keywords, eq_comm]

/-- The keyword of an `in` that is recorded. -/
theorem mem_inSpans_iff {inClause : Option Slot}
    (htype : ∀ n, x.node.child? inClause = some n → n.typeName ∈ ["in"]) (m : Span) :
    m ∈ ((x.node.child? inClause).bind fun n => n.kind.lead).toList ↔
      ∃ n, x.node.child? inClause = some n ∧ some m ∈ n.kind.keywords := by
  cases hin : x.node.child? inClause with
  | none => simp
  | some n =>
    obtain ⟨siblings, ps, hclassify⟩ :=
      Node.kind_of_mem_children hx (Node.mem_children_of_child? hin)
    rw [List.mem_singleton.1 (htype n hin)] at hclassify
    have hkind : n.kind = .forIn (ps.token "in") := hclassify
    simp [hkind, Kind.keywords, Kind.lead, eq_comm]

theorem together_loop {keyword : Option Span} {body : Option Slot} {modifier : Bool}
    (hkind : x.kind = .loop keyword body modifier) :
    Together (Node.ofRoot source c) (LoopEntry x) (fun m => keyword = some m ∨
      ∃ n, x.node.child? body = some n ∧ some m ∈ n.kind.keywords) := by
  obtain ⟨s, hs, hrecords⟩ :=
    Node.exists_grown_records hx (by rw [hkind]; exact Kind.noConfusion)
  rw [hkind] at hrecords
  have htype : ∀ n, x.node.child? body = some n → n.typeName ∈ ["do"] := by
    intro n hn
    rcases hrecords with rfl | rfl
    · cases hn
    · exact hs.typeName_of_child? hn
  refine together_of (loopSpans x.node) (fun m => ?_) fun offset y _ hentry m => ?_
  · rw [loopSpans_of_loop hkind, List.mem_append, Option.mem_toList, mem_bodySpans_iff hx htype]
  · rw [hentry.spansFrom_eq (by rw [hkind]; rfl) (by rw [constructSpans, hkind])]

theorem together_forLoop {keyword : Option Span} {inClause body : Option Slot}
    (hkind : x.kind = .forLoop keyword inClause body) :
    Together (Node.ofRoot source c) (LoopEntry x) (fun m => keyword = some m ∨
      (∃ n, x.node.child? inClause = some n ∧ some m ∈ n.kind.keywords) ∨
        ∃ n, x.node.child? body = some n ∧ some m ∈ n.kind.keywords) := by
  obtain ⟨s, hs, hrecords⟩ :=
    Node.exists_grown_records hx (by rw [hkind]; exact Kind.noConfusion)
  rw [hkind] at hrecords
  obtain ⟨rfl, rfl⟩ := hrecords
  refine together_of (loopSpans x.node) (fun m => ?_) fun offset y _ hentry m => ?_
  · rw [loopSpans_of_forLoop hkind, List.mem_append, List.mem_append, Option.mem_toList,
      mem_inSpans_iff hx (fun n hn => hs.typeName_of_child? hn),
      mem_bodySpans_iff hx (fun n hn => hs.typeName_of_child? hn), or_assoc]
  · rw [hentry.spansFrom_eq (by rw [hkind]; rfl) (by rw [constructSpans, hkind])]

end Tree

/-- **Constructs with clauses.** From every place of a construct the same is highlighted: the keywords
that are recorded for it and nothing else. This holds for a `begin` that is written out, for a method
or a block whose body acts as a `begin`, for a `case` and for loops. If tokens are leaves, then all
branches of a `case` are recorded, and so is an `else` that is the only one. -/
theorem together_constructs (parser : Parser) (text : Text) :
    let root := (Source.parse parser text).root
    (∀ x ∈ root.cursors, ∀ b, x.kind = .begin b → b.implicit = false →
      Together root (fun _ y => BeginEntry x y) (fun m => b.beginKeyword = some m ∨ b.Has m)) ∧
    (∀ x ∈ root.cursors, ∀ body b, x.node.child? x.kind.body? = some body →
      body.kind = .begin b → b.implicit →
      Together root (fun _ y => OwnerEntry x body y)
        (fun m => x.kind.front = some m ∨ b.Has m)) ∧
    (∀ x ∈ root.cursors, ∀ keyword endKeyword clauses otherwise,
      x.kind = .caseOf keyword endKeyword clauses otherwise →
      Together root (fun _ y => CaseEntry x otherwise y)
        (fun m => keyword = some m ∨ endKeyword = some m ∨
          (∃ slot ∈ clauses, ∃ n, x.node.child? (some slot) = some n ∧ n.kind.lead = some m) ∨
            ∃ n, x.node.child? otherwise = some n ∧ n.kind.lead = some m) ∧
      ((∀ c ∈ parser text, c.leafTokens) → ∀ n,
        ((∃ slot ∈ clauses, x.node.child? (some slot) = some n) ↔
          n ∈ x.node.children ∧ n.typeName ∈ ["when", "in_clause"]) ∧
        (x.node.atMostOne ["else"] → (x.node.child? otherwise = some n ↔
          n ∈ x.node.children ∧ n.typeName ∈ ["else"])))) ∧
    (∀ x ∈ root.cursors, ∀ keyword body modifier, x.kind = .loop keyword body modifier →
      Together root (LoopEntry x) (fun m => keyword = some m ∨
        ∃ n, x.node.child? body = some n ∧ some m ∈ n.kind.keywords)) ∧
    (∀ x ∈ root.cursors, ∀ keyword inClause body, x.kind = .forLoop keyword inClause body →
      Together root (LoopEntry x) (fun m => keyword = some m ∨
        (∃ n, x.node.child? inClause = some n ∧ some m ∈ n.kind.keywords) ∨
          ∃ n, x.node.child? body = some n ∧ some m ∈ n.kind.keywords)) := by
  intro root
  refine ⟨?_, ?_, ?_, ?_, ?_⟩
  · intro x _ b hb hexplicit
    exact together_begin hb hexplicit
  · intro x hx body b hbody hb himplicit
    obtain ⟨slot, hslot, hchild⟩ := Option.bind_eq_some_iff.1 hbody
    have hnone : b.beginKeyword = none := by
      obtain ⟨siblings, ps, hclassify⟩ :=
        Node.kind_of_mem_children hx (Node.mem_children_of_child? hbody)
      have hrecords := Kind.records_classify body.typeName siblings ps
      rw [← hclassify, hb] at hrecords
      exact hrecords himplicit
    exact together_owner hslot (hslot ▸ hbody) hb himplicit hnone
  · intro x hx keyword endKeyword clauses otherwise hkind
    refine ⟨together_case hx hkind, fun hleaf n => ⟨exists_clause_iff hx hkind hleaf n, ?_⟩⟩
    intro honce
    exact child?_otherwise_iff hx hkind hleaf honce n
  · intro x hx keyword body modifier hkind
    exact together_loop hx hkind
  · intro x hx keyword inClause body hkind
    exact together_forLoop hx hkind

open Concrete (guardedLoop) in
/-- From `def`, from the body behind it and from `rescue` the same is found, and from `for`, `in` and
`do`. -/
theorem together_constructs_guardedLoop :
    let text := "def f;for a in b do end;rescue;end".toList
    let root := (Source.parse (fun _ => some guardedLoop) text).root
    spansAt root 0 = [⟨0, 3⟩, ⟨24, 30⟩, ⟨31, 34⟩] ∧
      spansAt root 31 = spansAt root 0 ∧ spansAt root 24 = spansAt root 0 ∧
      spansAt root 12 = spansAt root 6 ∧ spansAt root 17 = spansAt root 6 := by
  intro text root
  have hlisted (offset : Nat) : root.cursorAt offset ∈ root.cursors :=
    Node.cursorAt_mem_cursors root offset
  obtain ⟨-, howner, -, -, hfor⟩ := together_constructs (fun _ => some guardedLoop) text
  have howner := howner (root.cursorAt 0) (hlisted 0) (root.cursorAt 31).node _ rfl rfl rfl
  have hfor := hfor (root.cursorAt 6) (hlisted 6) _ _ _ rfl
  refine ⟨?_, ?_, ?_, ?_, ?_⟩
  · have hfound : spansFrom 0 (root.cursorAt 0).here (root.cursorAt 0).above =
        [⟨24, 30⟩, ⟨31, 34⟩, ⟨0, 3⟩] := by decide
    rw [spansAt_eq, hfound]
    exact tidy_of_perm (by decide) (by decide)
  · exact howner.spansAt_eq (.inr ⟨root.cursorAt 31, rfl, rfl, .inl rfl⟩) (.inl rfl)
  · exact howner.spansAt_eq
      (.inr ⟨root.cursorAt 31, rfl, rfl, .inr ⟨rfl, .inl ⟨_, rfl⟩⟩⟩) (.inl rfl)
  · exact hfor.spansAt_eq (.inr ⟨rfl, .inr ⟨_, rfl, by decide⟩⟩) (.inl rfl)
  · exact hfor.spansAt_eq (.inr ⟨rfl, .inl ⟨_, _, rfl⟩⟩) (.inl rfl)

end Highlight

end RubyLens
