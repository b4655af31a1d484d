import RubyLens.Proofs.Syntax.Sites

/-!
The data in the kinds of nodes: the slots of children (`Kind.slots`) and the places of keywords and
delimiters (`Kind.marks`). All of it comes from looking something up among the parts of the node.

* `Part.exists_of_mem_listFrom`: the slot of a part with a name holds what the part turns into.
* `Parts.All`: whatever is looked up among the parts meets a condition that the spans of the parts
  meet (`All.token`, `All.namedCover`, …).
* `Parts.Held`: the parts lie within a span, with all below them, so whatever is looked up among them
  does too.
* `Kind.names_classify`, `Kind.holds_classify`, `Kind.borrowed_classify`: what each type of node looks
  up.
* `Node.Snug`: a tree in which all of this holds, which is what the tree of a text is.

Main statement: `Node.data_ofRoot`.
-/

namespace RubyLens

namespace Kind

/-! ### The data of a kind -/

/-- The children that a kind refers to. -/
def slots : Kind → List (Option Slot)
  | program => []
  | array _ _ _ => []
  | begin _ => []
  | block _ body => [body]
  | call receiver name arguments attached => [receiver, name, arguments, attached]
  | argumentList _ => []
  | caseOf _ _ clauses otherwise => otherwise :: clauses.map some
  | clause _ => []
  | classDef c | singletonClass c | moduleDef c => [c.head, c.body]
  | constant => []
  | scopeResolution scope name => [scope, name]
  | assignment target value => [target, value]
  | method m => [m.receiver, m.name, m.body]
  | elseClause _ => []
  | conditional c => [c.thenClause, c.consequent]
  | loop _ body _ => [body]
  | forLoop _ inClause body => [inClause, body]
  | loopBody _ _ => []
  | forIn _ => []
  | rescue _ => []
  | ensure _ => []
  | thenClause _ => []
  | stringLike _ _ => []
  | symbol => []
  | elementReference _ => []
  | identifier => []
  | selfRef => []
  | other => []

/-- The spans that a kind holds. -/
def marks : Kind → List (Option Span)
  | program => []
  | array d elements _ => [d.opening, d.closing, elements]
  | begin b =>
    [b.beginKeyword, b.elseKeyword, b.ensureKeyword, if b.implicit then none else b.endKeyword] ++
      b.rescueKeywords.map some
  | block d _ => [d.opening, d.closing]
  | call _ _ _ _ => []
  | argumentList d => [d.opening, d.closing]
  | caseOf keyword endKeyword _ _ => [keyword, endKeyword]
  | clause keyword => [keyword]
  | classDef c | singletonClass c | moduleDef c => [c.keyword, c.endKeyword]
  | constant => []
  | scopeResolution _ _ => []
  | assignment _ _ => []
  | method m => [m.keyword, m.endKeyword]
  | elseClause keyword => [keyword]
  | conditional c => [c.keyword, c.endKeyword]
  | loop keyword _ _ => [keyword]
  | forLoop keyword _ _ => [keyword]
  | loopBody doKeyword endKeyword => [doKeyword, endKeyword]
  | forIn keyword => [keyword]
  | rescue keyword => [keyword]
  | ensure keyword => [keyword]
  | thenClause keyword => [keyword]
  | stringLike d _ => [d.opening, d.closing]
  | symbol => []
  | elementReference d => [d.opening, d.closing]
  | identifier => []
  | selfRef => []
  | other => []

/-- The one span that is not among the marks: a body with clauses of its own takes its `end` from
around it. -/
def borrowed : Kind → Option Span
  | begin b => if b.implicit then b.endKeyword else none
  | _ => none

/-- From the first to the last element of a list literal. -/
def elements : Kind → Option Span
  | array _ elements _ => elements
  | _ => none

end Kind

namespace Span

/-- If there is a second span, then it lies within this one and does not end before it starts. -/
def Holds (s : Span) (o : Option Span) : Prop := ∀ m ∈ o, s.covers m ∧ m.start ≤ m.stop

variable {s : Span}

@[simp] theorem holds_none (s : Span) : s.Holds none := fun m hm => by cases hm

theorem covers_cover {a b : Span} (ha : s.covers a ∧ a.start ≤ a.stop)
    (hb : s.covers b ∧ b.start ≤ b.stop) :
    s.covers (a.cover b) ∧ (a.cover b).start ≤ (a.cover b).stop := by
  rw [covers_iff] at *
  simp only [Span.cover]
  omega

/-- What lies between two delimiters lies within what they enclose. -/
theorem Holds.inner {d : Delimiters} (hopening : s.Holds d.opening) (hclosing : s.Holds d.closing) :
    s.Holds d.inner := by
  obtain ⟨opening, closing⟩ := d
  rcases opening with _ | o
  · exact holds_none s
  rcases closing with _ | c
  · exact holds_none s
  intro m hm
  simp only [Delimiters.inner, Option.mem_def, Option.ite_none_right_eq_some] at hm
  obtain ⟨hle, hm⟩ := hm
  obtain rfl := Option.some.inj hm
  have hfirst := hopening o rfl
  have hlast := hclosing c rfl
  rw [covers_iff] at *
  simp only
  omega

end Span

theorem Kind.holds_inner {k : Kind} {s : Span} (h : ∀ o ∈ k.marks, s.Holds o) :
    s.Holds k.inner := by
  have hpair {d : Delimiters} {rest : List (Option Span)}
      (h : ∀ o ∈ d.opening :: d.closing :: rest, s.Holds o) : s.Holds d.inner :=
    .inner (h _ List.mem_cons_self) (h _ (List.mem_cons_of_mem _ List.mem_cons_self))
  cases k with
  | array d _ _ => exact hpair h
  | block d _ => exact hpair h
  | argumentList d => exact hpair h
  | stringLike d _ => exact hpair h
  | elementReference d => exact hpair h
  | _ => exact Span.holds_none s

theorem Kind.holds_elements {k : Kind} {s : Span} (h : ∀ o ∈ k.marks, s.Holds o) :
    s.Holds k.elements := by
  cases k with
  | array d elements percent => exact h elements (by simp [marks])
  | _ => exact Span.holds_none s

/-! ### Parts and children -/

namespace Node

theorem length_ofConcretes {siblings cs : List Concrete}
    (h : ∀ c ∈ cs, (ofConcrete siblings c).length = c.width) :
    (ofConcretes siblings cs).length = Concrete.widthAll cs := by
  induction cs with
  | nil => rfl
  | cons c cs ih =>
    rw [List.forall_mem_cons] at h
    rw [ofConcretes, List.length_append, h.1, ih h.2, Concrete.widthAll]

theorem length_ofConcrete (siblings : List Concrete) (c : Concrete) :
    (ofConcrete siblings c).length = c.width := by
  induction c using Concrete.ind generalizing siblings with
  | h l cs ih =>
    rw [ofConcrete, Concrete.width]
    split
    · rfl
    · split
      · rfl
      · exact length_ofConcretes fun c hc => ih c hc cs

end Node

namespace Part

variable {i : Slot} {cs : List Concrete} {p : Part}

theorem mem_of_mem_listFrom (h : p ∈ listFrom i cs) :
    p.concrete ∈ cs ∧ p.concrete.label.missing = false := by
  induction cs generalizing i with
  | nil => cases h
  | cons c cs ih =>
    rw [listFrom] at h
    split at h
    · have := ih h
      exact ⟨List.mem_cons_of_mem c this.1, this.2⟩
    · next hpresent =>
      rcases List.mem_cons.1 h with rfl | h
      · exact ⟨List.mem_cons_self, by simpa using hpresent⟩
      · have := ih h
        exact ⟨List.mem_cons_of_mem c this.1, this.2⟩

/-- The slot of a part with a name holds what the part turns into. -/
theorem exists_of_mem_listFrom (h : p ∈ listFrom i cs) (hnamed : p.concrete.label.named)
    (siblings : List Concrete) :
    ∃ k t, p.slot = i + k ∧ (Node.ofConcretes siblings cs)[k]? = some t ∧
      Node.ofConcrete siblings p.concrete = [t] := by
  induction cs generalizing i with
  | nil => cases h
  | cons c cs ih =>
    rw [listFrom] at h
    rw [Node.ofConcretes]
    split at h
    · next hmissing =>
      rw [Node.ofConcrete_of_missing hmissing, List.nil_append]
      exact ih h
    · next hpresent =>
      rcases List.mem_cons.1 h with rfl | h
      · have htree := Node.ofConcrete_of_named (by simpa using hpresent) hnamed siblings
        exact ⟨0, _, rfl, by rw [htree, List.singleton_append, List.getElem?_cons_zero], htree⟩
      · obtain ⟨k, t, hslot, ht, htree⟩ := ih h
        refine ⟨c.width + k, t, by rw [hslot, Nat.add_assoc], ?_, htree⟩
        rw [List.getElem?_append_right (by rw [Node.length_ofConcrete]; omega),
          Node.length_ofConcrete, Nat.add_sub_cancel_left, ht]

end Part

namespace Parts

/-! ### Looking up slots -/

/-- If there is a slot, then it is that of a part with a name. -/
def Names (ps : Parts) (o : Option Slot) : Prop :=
  ∀ slot ∈ o, ∃ p ∈ ps, p.concrete.label.named ∧ p.slot = slot

section Names

variable {ps : Parts}

@[simp] theorem names_none (ps : Parts) : ps.Names none := fun slot hslot => by cases hslot

theorem Names.or {o o' : Option Slot} (h : ps.Names o) (h' : ps.Names o') :
    ps.Names (o.or o') := by
  cases o with
  | none => exact h'
  | some slot => exact h

theorem names_find {q : Part → Bool} (h : ∀ p, q p → p.concrete.label.named) :
    ps.Names ((ps.find? q).map Part.slot) := by
  intro slot hslot
  obtain ⟨p, hp, rfl⟩ := Option.map_eq_some_iff.1 hslot
  exact ⟨p, List.mem_of_find?_eq_some hp, h p (List.find?_some hp), rfl⟩

theorem names_of_mem_named {types : List String} {p : Part} (h : p ∈ ps.named types) :
    ps.Names (some p.slot) := by
  intro slot hslot
  obtain ⟨hp, htype⟩ := List.mem_filter.1 h
  rw [Concrete.isNamed, Bool.and_eq_true] at htype
  exact ⟨p, hp, htype.1, Option.some.inj hslot⟩

@[simp] theorem names_field (ps : Parts) (name : String) : ps.Names (ps.field name) :=
  names_find fun _ h => (Bool.and_eq_true_iff.1 h).1

@[simp] theorem names_firstNamed (ps : Parts) (types : List String) :
    ps.Names (ps.firstNamed types) := by
  intro slot hslot
  obtain ⟨p, hp, rfl⟩ := Option.map_eq_some_iff.1 hslot
  exact names_of_mem_named (List.mem_of_head? hp) p.slot rfl

@[simp] theorem names_body (ps : Parts) : ps.Names ps.body :=
  (names_field ps "body").or (names_firstNamed ps _)

end Names

/-! ### Looking up spans -/

/-- The spans of the parts meet a condition. -/
def All (P : Span → Prop) (ps : Parts) : Prop := ∀ p ∈ ps, P p.span

/-- If there is a span, then it meets a condition. -/
def Found (P : Span → Prop) (o : Option Span) : Prop := ∀ m ∈ o, P m

section Tokens

variable {ps ps' : Parts} {spelling : String} {m : Span}

theorem exists_of_mem_token (h : m ∈ ps.token spelling) :
    ∃ p ∈ ps, p.concrete.isToken spelling ∧ p.span = m := by
  obtain ⟨p, hp, rfl⟩ := Option.map_eq_some_iff.1 h
  exact ⟨p, List.mem_of_find?_eq_some hp, by simpa using List.find?_some hp, rfl⟩

theorem exists_of_mem_lastToken (h : m ∈ ps.lastToken spelling) :
    ∃ p ∈ ps, p.concrete.isToken spelling ∧ p.span = m := by
  obtain ⟨p, hp, htoken⟩ := exists_of_mem_token h
  exact ⟨p, List.mem_reverse.1 hp, htoken⟩

theorem exists_of_mem_leadToken (h : m ∈ ps.leadToken spelling) :
    ∃ p ∈ ps, p.concrete.isToken spelling ∧ p.span = m := by
  obtain ⟨p, hp, htoken⟩ := exists_of_mem_token h
  exact ⟨p, List.mem_of_mem_take hp, htoken⟩

theorem exists_of_mem_opening (h : m ∈ ps.delimiters.opening) : ∃ p ∈ ps, p.span = m := by
  obtain ⟨p, hp, rfl⟩ := Option.map_eq_some_iff.1 h
  exact ⟨p, List.mem_of_head? (Option.mem_filter_iff.1 hp).1, rfl⟩

theorem exists_of_mem_closing (h : m ∈ ps.delimiters.closing) : ∃ p ∈ ps, p.span = m := by
  rw [delimiters] at h
  split at h
  · cases h
  · obtain ⟨p, hp, rfl⟩ := Option.map_eq_some_iff.1 h
    exact ⟨p, List.mem_of_getLast? (Option.mem_filter_iff.1 hp).1, rfl⟩

variable {P : Span → Prop}

@[simp] theorem found_none : Found P none := fun m hm => by cases hm

theorem All.token (h : All P ps) (spelling : String) : Found P (ps.token spelling) := by
  intro m hm
  obtain ⟨p, hp, -, rfl⟩ := exists_of_mem_token hm
  exact h p hp

theorem All.lastToken (h : All P ps) (spelling : String) : Found P (ps.lastToken spelling) := by
  intro m hm
  obtain ⟨p, hp, -, rfl⟩ := exists_of_mem_lastToken hm
  exact h p hp

theorem All.leadToken (h : All P ps) (spelling : String) : Found P (ps.leadToken spelling) := by
  intro m hm
  obtain ⟨p, hp, -, rfl⟩ := exists_of_mem_leadToken hm
  exact h p hp

theorem All.opening (h : All P ps) : Found P ps.delimiters.opening := by
  intro m hm
  obtain ⟨p, hp, rfl⟩ := exists_of_mem_opening hm
  exact h p hp

theorem All.closing (h : All P ps) : Found P ps.delimiters.closing := by
  intro m hm
  obtain ⟨p, hp, rfl⟩ := exists_of_mem_closing hm
  exact h p hp

theorem All.namedCover (h : All P ps) (hcover : ∀ a b, P a → P b → P (a.cover b)) :
    Found P ps.namedCover := by
  intro m hm
  rw [Parts.namedCover] at hm
  split at hm
  · next a b ha hb =>
    obtain rfl := Option.some.inj hm
    exact hcover _ _ (h a (List.mem_filter.1 (List.mem_of_head? ha)).1)
      (h b (List.mem_filter.1 (List.mem_of_getLast? hb)).1)
  · cases hm

end Tokens

/-- The parts lie within a span, and all below them lies within them. -/
def Held (s : Span) (ps : Parts) : Prop :=
  ∀ p ∈ ps, s.covers p.span ∧ p.concrete.nested ∧ p.concrete.forward

section Held

variable {s : Span} {ps : Parts}

theorem held_of {c : Concrete} (hcovers : s.covers c.label.span) (hnested : c.nested)
    (hforward : c.forward) : Held s (of c.children) := by
  intro p hp
  have hmem := (Part.mem_of_mem_listFrom hp).1
  have hbelow := Concrete.nested_iff.1 hnested p.concrete hmem
  exact ⟨Span.covers_trans hcovers hbelow.1, hbelow.2,
    (Concrete.forward_iff.1 hforward).2 p.concrete hmem⟩

theorem Held.below (h : Held s ps) {p : Part} (hp : p ∈ ps) : Held s (of p.concrete.children) := by
  obtain ⟨hcovers, hnested, hforward⟩ := h p hp
  exact held_of hcovers hnested hforward

theorem Held.all (h : Held s ps) : All (fun m => s.covers m ∧ m.start ≤ m.stop) ps := by
  intro p hp
  obtain ⟨hcovers, -, hforward⟩ := h p hp
  exact ⟨hcovers, (Concrete.forward_iff.1 hforward).1⟩

theorem Held.token (h : Held s ps) (spelling : String) : s.Holds (ps.token spelling) :=
  h.all.token spelling

theorem Held.lastToken (h : Held s ps) (spelling : String) : s.Holds (ps.lastToken spelling) :=
  h.all.lastToken spelling

theorem Held.leadToken (h : Held s ps) (spelling : String) : s.Holds (ps.leadToken spelling) :=
  h.all.leadToken spelling

theorem Held.namedCover (h : Held s ps) : s.Holds ps.namedCover :=
  h.all.namedCover fun _ _ => Span.covers_cover

theorem Held.opening (h : Held s ps) : s.Holds ps.delimiters.opening := h.all.opening

theorem Held.closing (h : Held s ps) : s.Holds ps.delimiters.closing := h.all.closing

theorem Held.keyword (h : Held s ps) {p : Part} (hp : p ∈ ps) (spelling : String) :
    s.Holds (p.concrete.keyword spelling) := (h.below hp).token spelling

end Held

end Parts

namespace Kind

/-! ### What each type of node looks up -/

theorem holds_ofClauses {s : Span} {ps : Parts} (h : ps.Held s)
    {beginKeyword endKeyword : Option Span} {implicit : Bool} (hbegin : s.Holds beginKeyword)
    (hend : implicit = false → s.Holds endKeyword) :
    ∀ o ∈ (ofClauses ps beginKeyword endKeyword implicit).marks, s.Holds o := by
  have hnamed {types : List String} {p : Part} (hp : p ∈ ps.named types) : p ∈ ps :=
    (List.mem_filter.1 hp).1
  have hkeyword (type : String) :
      s.Holds ((ps.named [type]).head?.bind fun p => p.concrete.keyword type) := by
    rcases hhead : (ps.named [type]).head? with _ | p
    · exact Span.holds_none s
    · exact h.keyword (hnamed (List.mem_of_head? hhead)) type
  have hrescue : ∀ m ∈ (ps.named ["rescue"]).filterMap fun p => p.concrete.keyword "rescue",
      s.Holds (some m) := by
    intro m hm
    obtain ⟨p, hp, hm⟩ := List.mem_filterMap.1 hm
    rw [← hm]
    exact h.keyword (hnamed hp) "rescue"
  have hlast : s.Holds (if implicit then none else endKeyword) := by
    cases implicit with
    | true => exact Span.holds_none s
    | false => exact hend rfl
  simp only [ofClauses, marks, List.forall_mem_append, List.forall_mem_cons, List.forall_mem_map]
  exact ⟨⟨hbegin, hkeyword "else", hkeyword "ensure", hlast, List.forall_mem_nil _⟩, hrescue⟩

theorem holds_classify {s : Span} {ps : Parts} (h : ps.Held s) (typeName : String)
    (siblings : List Concrete) : ∀ o ∈ (classify typeName siblings ps).marks, s.Holds o := by
  unfold classify
  split
  -- most types look up each span by itself
  any_goals
    (simp [marks, ofContainer, ofConditional, ofModifier, h.token, h.lastToken, h.leadToken,
      h.namedCover, h.opening, h.closing]; done)
  · -- `begin`: the clauses may stand in a body
    refine holds_ofClauses ?_ (h.token _) fun _ => h.token _
    split
    · next p hp => exact h.below (List.mem_filter.1 (List.mem_of_head? hp)).1
    · exact h
  · -- a body with clauses of its own: its `end` is not among the marks
    split
    · exact holds_ofClauses h (Span.holds_none s) fun hfalse => by cases hfalse
    · exact List.forall_mem_nil _
  · -- arguments: no closing parenthesis without an opening one
    have hclosing : s.Holds (if (ps.leadToken "(").isSome then ps.lastToken ")" else none) := by
      split
      · exact h.lastToken ")"
      · exact Span.holds_none s
    simp [marks, h.leadToken, hclosing]

theorem names_classify (typeName : String) (siblings : List Concrete) (ps : Parts) :
    ∀ o ∈ (classify typeName siblings ps).slots, ps.Names o := by
  have hclauses : ∀ o ∈ (ps.firstNamed ["else"]) ::
      (((ps.named ["when", "in_clause"]).map Part.slot).map some), ps.Names o := by
    rw [List.forall_mem_cons, List.map_map, List.forall_mem_map]
    exact ⟨Parts.names_firstNamed ps _, fun _ => Parts.names_of_mem_named⟩
  have hvalue : ps.Names ((ps.field "value").or ((ps.find? fun p =>
      p.concrete.label.named && p.concrete.label.typeName != "comment").map Part.slot)) :=
    (Parts.names_field ps "value").or (Parts.names_find fun _ h => (Bool.and_eq_true_iff.1 h).1)
  unfold classify
  split
  any_goals
    (simp [slots, ofContainer, ofConditional, ofModifier, ofClauses, hvalue]; done)
  any_goals exact hclauses
  -- a body, with clauses of its own or without
  split <;> exact List.forall_mem_nil _

theorem borrowed_classify (typeName : String) (siblings : List Concrete) (ps : Parts) :
    ∀ m ∈ (classify typeName siblings ps).borrowed, m ∈ (Parts.of siblings).token "end" := by
  unfold classify
  split
  any_goals
    (simp [borrowed, ofConditional, ofModifier, ofClauses]; done)
  split
  · exact fun m hm => hm
  · exact fun m hm => by cases hm

end Kind

namespace Node

/-! ### The data in the tree of a text -/

section Data

variable {source : Text} {c : Concrete} {i : Nat} {x : Cursor}

/-- The root is a program, and every other place matches a node that is kept. -/
theorem program_or_exists_site (hx : (ofRoot source (some c)).cursors[i]? = some x) :
    x.kind = .program ∨ ∃ s, c.kept[i]? = some s ∧ s.Matches c.kept x := by
  by_cases hi : i = 0
  · rw [hi, getElem?_cursors_zero, Option.some.injEq] at hx
    rw [← hx]
    exact .inl (kind_ofRoot source (some c))
  · exact .inr (exists_site_ofRoot hi hx)

/-- A slot in the kind of a node is that of a child, which a part with a name turns into. -/
theorem exists_child_of_mem_slots (hx : (ofRoot source (some c)).cursors[i]? = some x) {slot : Slot}
    (hslot : some slot ∈ x.kind.slots) :
    ∃ child, x.here.children[slot]? = some child ∧ ∃ s, c.kept[i]? = some s ∧
      ∃ d ∈ s.concrete.children, d.label.named ∧ d.label.missing = false ∧
        ofConcrete s.concrete.children d = [child.node] := by
  rcases program_or_exists_site hx with hprogram | ⟨s, hs, hmatches⟩
  · rw [hprogram] at hslot
    cases hslot
  · rw [Cursor.kind, hmatches.node_eq] at hslot
    obtain ⟨p, hp, hnamed, rfl⟩ := Kind.names_classify _ _ _ _ hslot slot rfl
    obtain ⟨k, t, hk, ht, htree⟩ :=
      Part.exists_of_mem_listFrom hp hnamed s.concrete.children
    have hchildren : x.here.children.map Place.node =
        ofConcretes s.concrete.children s.concrete.children := by
      rw [Place.children, Place.map_node_siblings]
      exact congrArg children hmatches.node_eq
    rw [← hchildren, List.getElem?_map] at ht
    obtain ⟨child, hchild, rfl⟩ := Option.map_eq_some_iff.1 ht
    rw [hk, Nat.zero_add]
    obtain ⟨hmem, hpresent⟩ := Part.mem_of_mem_listFrom hp
    exact ⟨child, hchild, s, hs, p.concrete, hmem, hnamed, hpresent, htree⟩

/-- The parts of a kept node, or of a node above it, lie within that node. -/
theorem held_of_mem_kept (hnested : c.nested) (hforward : c.forward) {s : Concrete.Site}
    (hs : s ∈ c.kept) :
    ∀ a ∈ s.here :: s.above, (Parts.of a.concrete.children).Held a.label.span :=
  fun a ha => Parts.held_of (Span.covers_refl a.label.span)
    (Concrete.every_of_mem_kept hnested hs a ha) (Concrete.every_of_mem_kept hforward hs a ha)

/-- The spans in the kind of a node lie within the node. -/
theorem holds_of_mem_marks (hnested : c.nested) (hforward : c.forward)
    (hx : (ofRoot source (some c)).cursors[i]? = some x) : ∀ o ∈ x.kind.marks, x.span.Holds o := by
  rcases program_or_exists_site hx with hprogram | ⟨s, hs, hmatches⟩
  · rw [hprogram]
    exact List.forall_mem_nil _
  · have hheld := held_of_mem_kept hnested hforward (List.mem_of_getElem? hs)
    rw [Cursor.kind, Cursor.span, hmatches.node_eq]
    exact Kind.holds_classify (hheld s.here List.mem_cons_self) _ _

/-- An `end` that is taken from around a node is a token directly below the node above it. -/
theorem exists_token_of_mem_borrowed (hnested : c.nested) (hforward : c.forward)
    (hx : (ofRoot source (some c)).cursors[i]? = some x) {m : Span} (hm : m ∈ x.kind.borrowed) :
    ∃ s a, c.kept[i]? = some s ∧ s.above.head? = some a ∧
      (∃ d ∈ a.concrete.children, d.isToken "end" ∧ d.label.missing = false ∧ d.label.span = m) ∧
      a.label.span.Holds (some m) := by
  rcases program_or_exists_site hx with hprogram | ⟨s, hs, hmatches⟩
  · rw [hprogram] at hm
    cases hm
  · rw [Cursor.kind, hmatches.node_eq] at hm
    have htoken := Kind.borrowed_classify _ _ _ m hm
    rcases habove : s.above with _ | ⟨a, above⟩
    · rw [habove] at htoken
      cases htoken
    · have ha : a ∈ s.here :: s.above := by
        rw [habove]
        exact List.mem_cons_of_mem _ List.mem_cons_self
      have hheld := held_of_mem_kept hnested hforward (List.mem_of_getElem? hs) a ha
      rw [habove, Concrete.beside] at htoken
      have hholds : a.label.span.Holds (some m) := by
        rw [← Option.mem_def.1 htoken]
        exact hheld.token "end"
      obtain ⟨p, hp, rfl⟩ := Option.map_eq_some_iff.1 htoken
      obtain ⟨hmemp, hpresent⟩ := Part.mem_of_mem_listFrom (List.mem_of_find?_eq_some hp)
      have hspelling : p.concrete.isToken "end" := by simpa using List.find?_some hp
      exact ⟨s, a, hs, by rw [habove]; rfl, ⟨p.concrete, hmemp, hspelling, hpresent, rfl⟩, hholds⟩

end Data

/-- **The data of nodes.** In the tree of a concrete tree whose spans nest, every slot in the kind of
a node is that of a child of this node, and every span in it lies within the node. Only a body with
clauses of its own has an `end` from outside, which is a token of the node above and lies within that
node. The part between the delimiters and that from the first to the last element lie within the
node, too. -/
theorem data_ofRoot (source : Text) (c : Concrete) (hnested : c.nested) (hforward : c.forward)
    {i : Nat} {x : Cursor} (hx : (ofRoot source (some c)).cursors[i]? = some x) :
    (∀ slot, some slot ∈ x.kind.slots → ∃ child, x.here.children[slot]? = some child ∧
      (ofRoot source (some c)).cursors[child.number]? = some ⟨child, x.path⟩ ∧
      ∃ s, c.kept[i]? = some s ∧ ∃ d ∈ s.concrete.children, d.label.named ∧
        d.label.missing = false ∧ ofConcrete s.concrete.children d = [child.node]) ∧
      (∀ m, some m ∈ x.kind.marks → x.span.covers m ∧ m.start ≤ m.stop) ∧
      (∀ m ∈ x.kind.borrowed, ∃ s a, c.kept[i]? = some s ∧ s.above.head? = some a ∧
        (∃ d ∈ a.concrete.children,
          d.isToken "end" ∧ d.label.missing = false ∧ d.label.span = m) ∧
        a.label.span.covers m ∧ m.start ≤ m.stop) ∧
      (∀ m ∈ x.kind.inner, x.span.covers m ∧ m.start ≤ m.stop) ∧
      ∀ m ∈ x.kind.elements, x.span.covers m ∧ m.start ≤ m.stop := by
  have hmarks := holds_of_mem_marks hnested hforward hx
  refine ⟨?_, fun m hm => hmarks _ hm m rfl, ?_, Kind.holds_inner hmarks, Kind.holds_elements hmarks⟩
  · intro slot hslot
    obtain ⟨child, hchild, hpart⟩ := exists_child_of_mem_slots hx hslot
    have hlisted := Place.child_mem_cursors (getElem?_cursors_iff.1 hx).1
      (List.mem_of_getElem? hchild)
    exact ⟨child, hchild, getElem?_cursors_iff.2 ⟨hlisted, rfl⟩, hpart⟩
  · intro m hm
    obtain ⟨s, a, hs, ha, htoken, hholds⟩ := exists_token_of_mem_borrowed hnested hforward hx hm
    exact ⟨s, a, hs, ha, htoken, hholds m rfl⟩

open Concrete (guardedMethod) in
theorem data_ofRoot_guardedMethod :
    let source : Text := "def f\nrescue\nend".toList
    guardedMethod.nested ∧ guardedMethod.forward ∧
      (∃ x y, (ofRoot source (some guardedMethod)).cursors[1]? = some x ∧
        x.kind.slots = [none, some 0, some 1] ∧ x.here.children[1]? = some y ∧
        (ofRoot source (some guardedMethod)).cursors[y.number]? = some ⟨y, x.path⟩) ∧
      ∃ x, (ofRoot source (some guardedMethod)).cursors[3]? = some x ∧ x.span = ⟨6, 12⟩ ∧
        x.kind.marks = [none, none, none, none, some ⟨6, 12⟩] ∧ x.span.covers ⟨6, 12⟩ ∧
        x.kind.borrowed = some ⟨13, 16⟩ ∧ ∃ s a, guardedMethod.kept[3]? = some s ∧
          s.above.head? = some a ∧ a.label.span.covers ⟨13, 16⟩ := by
  intro source
  have hnested : guardedMethod.nested := by decide
  have hforward : guardedMethod.forward := by decide
  refine ⟨hnested, hforward, ?_, ?_⟩
  · obtain ⟨x, hx, hslots⟩ : ∃ x, (ofRoot source (some guardedMethod)).cursors[1]? = some x ∧
        x.kind.slots = [none, some 0, some 1] := ⟨_, rfl, by decide⟩
    obtain ⟨hslot, -⟩ := data_ofRoot source guardedMethod hnested hforward hx
    obtain ⟨y, hy, hlisted, -⟩ := hslot 1 (by rw [hslots]; decide)
    exact ⟨x, y, hx, hslots, hy, hlisted⟩
  · obtain ⟨x, hx, hspan, hlist, hborrowed⟩ : ∃ x,
        (ofRoot source (some guardedMethod)).cursors[3]? = some x ∧ x.span = ⟨6, 12⟩ ∧
          x.kind.marks = [none, none, none, none, some ⟨6, 12⟩] ∧
          x.kind.borrowed = some ⟨13, 16⟩ := ⟨_, rfl, by decide⟩
    obtain ⟨-, hmarks, htaken, -⟩ := data_ofRoot source guardedMethod hnested hforward hx
    obtain ⟨s, a, hs, ha, -, hcovers, -⟩ := htaken ⟨13, 16⟩ hborrowed
    exact ⟨x, hx, hspan, hlist, (hmarks ⟨6, 12⟩ (by rw [hlist]; decide)).1, hborrowed, s, a, hs, ha,
      hcovers⟩

/-! ### Snug trees -/

/-- What is directly below a place lies within it, and so do the spans in its kind. -/
structure Snug (root : Node) : Prop where
  child : ∀ x ∈ root.cursors, ∀ q ∈ x.here.children, x.span.covers q.node.span
  marks : ∀ x ∈ root.cursors, ∀ o ∈ x.kind.marks, x.span.Holds o

theorem snug_ofRoot (source : Text) {root : Option Concrete} (h : ∀ c ∈ root,
    c.nested ∧ c.forward ∧ Span.covers ⟨0, Text.size source⟩ c.label.span) :
    (ofRoot source root).Snug := by
  cases root with
  | none =>
    have hcursors : (ofRoot source none).cursors = [⟨⟨0, ofRoot source none⟩, []⟩] := rfl
    constructor
    · intro x hx q hq
      rw [hcursors, List.mem_singleton] at hx
      subst hx
      cases hq
    · intro x hx o ho
      rw [hcursors, List.mem_singleton] at hx
      subst hx
      cases ho
  | some c =>
    obtain ⟨hnested, hforward, hwhole⟩ := h c rfl
    constructor
    · intro x hx q hq
      obtain ⟨i, hi⟩ := List.mem_iff_getElem?.1 hx
      exact covers_of_mem_children_ofRoot hnested hwhole hi hq
    · intro x hx o ho
      obtain ⟨i, hi⟩ := List.mem_iff_getElem?.1 hx
      exact holds_of_mem_marks hnested hforward hi o ho

theorem Snug.covers_of_mem_children {root : Node} (h : root.Snug) {x : Cursor}
    (hx : x ∈ root.cursors) {n : Node} (hn : n ∈ x.node.children) : x.span.covers n.span := by
  obtain ⟨q, hq, rfl⟩ := Place.exists_mem_children hn
  exact h.child x hx q hq

/-- All places of a snug tree lie within its root. -/
theorem Snug.covers {root : Node} (h : root.Snug) {x : Cursor} (hx : x ∈ root.cursors) :
    root.span.covers x.span :=
  down (P := fun x => root.span.covers x.span) (Span.covers_refl root.span)
    (fun x hx q hq ih => Span.covers_trans ih (h.child x hx q hq)) hx

end Node

end RubyLens
