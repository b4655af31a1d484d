import RubyLens.Proofs.Syntax.Payload

/-!
Children by type. A kind records children as the first part with one of some types, or as all parts
with such types. If tokens are leaves, then these are the children of the node whose types are among
those: all of them (`exists_named_iff`), or the only one there is (`child_firstNamed_iff`).
-/

namespace RubyLens

namespace Concrete

/-- Tokens have nothing below them. -/
def leafTokens (c : Concrete) : Bool := c.every fun d => d.label.named || d.children.isEmpty

end Concrete

namespace Node

/-- At most one child has one of some types. -/
def atMostOne (types : List String) (n : Node) : Bool :=
  (n.children.filter fun m => types.contains m.typeName).length ≤ 1

theorem eq_of_length_le_one {α : Type} {l : List α} (h : l.length ≤ 1) {a b : α} (ha : a ∈ l)
    (hb : b ∈ l) : a = b := by
  match l, h with
  | [c], _ => rw [List.mem_singleton.1 ha, List.mem_singleton.1 hb]

section Children

variable {cs : List Concrete} {types : List String} {n : Node}

theorem typeName_of_ofConcrete {d : Concrete} (hpresent : d.label.missing = false)
    (hnamed : d.label.named) (h : ofConcrete cs d = [n]) : n.typeName = d.label.typeName := by
  rw [ofConcrete_of_named hpresent hnamed, List.singleton_inj] at h
  rw [← h, typeName]

/-- A node below a concrete one is what a child with a name turns into, if tokens are leaves. -/
theorem exists_named_of_mem_ofConcretes (hleaf : ∀ d ∈ cs, d.label.named || d.children.isEmpty)
    (h : n ∈ ofConcretes cs cs) :
    ∃ d ∈ cs, d.label.missing = false ∧ d.label.named ∧ ofConcrete cs d = [n] := by
  obtain ⟨d, hd, hn⟩ := mem_ofConcretes.1 h
  cases hmissing : d.label.missing with
  | true =>
    rw [ofConcrete_of_missing hmissing] at hn
    cases hn
  | false =>
    cases hnamed : d.label.named with
    | true =>
      have htree := ofConcrete_of_named hmissing hnamed cs
      rw [htree, List.mem_singleton] at hn
      exact ⟨d, hd, hmissing, hnamed, hn ▸ htree⟩
    | false =>
      have hnone : d.children = [] := by
        have hthis := hleaf d hd
        rw [hnamed, Bool.false_or, List.isEmpty_iff] at hthis
        exact hthis
      obtain ⟨l, ds⟩ := d
      obtain rfl : ds = [] := hnone
      rw [Concrete.label] at hmissing hnamed
      rw [ofConcrete, if_neg (by simp [hmissing]), if_neg (by simp [hnamed])] at hn
      cases hn

theorem exists_part_of_mem {d : Concrete} (hd : d ∈ cs) (hpresent : d.label.missing = false)
    (i : Slot) : ∃ p ∈ Part.listFrom i cs, p.concrete = d := by
  induction cs generalizing i with
  | nil => cases hd
  | cons c cs ih =>
    rw [Part.listFrom]
    rcases List.mem_cons.1 hd with rfl | hd
    · rw [if_neg (by simp [hpresent])]
      exact ⟨_, List.mem_cons_self, rfl⟩
    · split
      · exact ih hd i
      · obtain ⟨p, hp, hconcrete⟩ := ih hd (i + c.width)
        exact ⟨p, List.mem_cons_of_mem _ hp, hconcrete⟩

/-- The slot of a part with one of some types holds a node with that type. -/
theorem exists_node_of_mem_named {p : Part} (hp : p ∈ (Parts.of cs).named types) :
    ∃ t, (ofConcretes cs cs)[p.slot]? = some t ∧ ofConcrete cs p.concrete = [t] ∧
      t.typeName ∈ types := by
  obtain ⟨hmem, htype⟩ := List.mem_filter.1 hp
  rw [Concrete.isNamed, Bool.and_eq_true, List.contains_iff_mem] at htype
  obtain ⟨k, t, hslot, ht, htree⟩ := Part.exists_of_mem_listFrom hmem htype.1 cs
  rw [Nat.zero_add] at hslot
  refine ⟨t, hslot ▸ ht, htree, ?_⟩
  rw [typeName_of_ofConcrete (Part.mem_of_mem_listFrom hmem).2 htype.1 htree]
  exact htype.2

/-- The slots of the parts with some types are those of the nodes with these types. -/
theorem exists_named_iff (hleaf : ∀ d ∈ cs, d.label.named || d.children.isEmpty) :
    (∃ p ∈ (Parts.of cs).named types, (ofConcretes cs cs)[p.slot]? = some n) ↔
      n ∈ ofConcretes cs cs ∧ n.typeName ∈ types := by
  constructor
  · rintro ⟨p, hp, hn⟩
    obtain ⟨t, ht, -, htype⟩ := exists_node_of_mem_named hp
    obtain rfl := Option.some.inj (ht.symm.trans hn)
    exact ⟨List.mem_of_getElem? hn, htype⟩
  · rintro ⟨hmem, htype⟩
    obtain ⟨d, hd, hpresent, hnamed, htree⟩ := exists_named_of_mem_ofConcretes hleaf hmem
    obtain ⟨p, hp, rfl⟩ := exists_part_of_mem hd hpresent 0
    have hfilter : p ∈ (Parts.of cs).named types := by
      refine List.mem_filter.2 ⟨hp, ?_⟩
      rw [Concrete.isNamed, hnamed, Bool.true_and, List.contains_iff_mem,
        ← typeName_of_ofConcrete hpresent hnamed htree]
      exact htype
    obtain ⟨t, ht, htree', -⟩ := exists_node_of_mem_named hfilter
    rw [htree, List.singleton_inj] at htree'
    exact ⟨p, hfilter, htree' ▸ ht⟩

/-- The slot of the first part with one of some types holds a node with such a type. -/
theorem typeName_of_child_firstNamed
    (h : ((Parts.of cs).firstNamed types).bind (fun i => (ofConcretes cs cs)[i]?) = some n) :
    n.typeName ∈ types := by
  obtain ⟨slot, hslot, hn⟩ := Option.bind_eq_some_iff.1 h
  obtain ⟨p, hp, rfl⟩ := Option.map_eq_some_iff.1 hslot
  obtain ⟨t, ht, -, htype⟩ := exists_node_of_mem_named (List.mem_of_head? hp)
  obtain rfl := Option.some.inj (ht.symm.trans hn)
  exact htype

/-- If there is at most one node with such a type, then it is the one in that slot. -/
theorem child_firstNamed_iff (hleaf : ∀ d ∈ cs, d.label.named || d.children.isEmpty)
    (honce : ((ofConcretes cs cs).filter fun m => types.contains m.typeName).length ≤ 1) :
    ((Parts.of cs).firstNamed types).bind (fun i => (ofConcretes cs cs)[i]?) = some n ↔
      n ∈ ofConcretes cs cs ∧ n.typeName ∈ types := by
  constructor
  · intro h
    obtain ⟨slot, -, hn⟩ := Option.bind_eq_some_iff.1 h
    exact ⟨List.mem_of_getElem? hn, typeName_of_child_firstNamed h⟩
  · intro h
    obtain ⟨p, hp, -⟩ := (exists_named_iff hleaf).2 h
    cases hfirst : ((Parts.of cs).named types).head? with
    | none => exact absurd hp (List.head?_eq_none_iff.1 hfirst ▸ List.not_mem_nil)
    | some q =>
      obtain ⟨t, ht, -, htype⟩ := exists_node_of_mem_named (List.mem_of_head? hfirst)
      have hsame : t = n := eq_of_length_le_one honce
        (List.mem_filter.2 ⟨List.mem_of_getElem? ht, List.contains_iff_mem.2 htype⟩)
        (List.mem_filter.2 ⟨h.1, List.contains_iff_mem.2 h.2⟩)
      rw [Parts.firstNamed, hfirst, Option.map_some, Option.bind_some, ht, hsame]

end Children

/-! ### Places by type -/

section Places

variable {source : Text} {root : Option Concrete} {x : Cursor}

theorem typeName_ofRoot (h : ∀ c ∈ root, c.isNamed ["program"]) :
    (ofRoot source root).typeName = "program" := by
  cases root with
  | none => rfl
  | some c =>
    have hprogram := h c rfl
    rw [Concrete.isNamed, Bool.and_eq_true] at hprogram
    cases hpresent : c.label.missing with
    | true =>
      simp only [ofRoot, Option.toList_some, List.flatMap_singleton, ofConcrete_of_missing hpresent]
      rfl
    | false =>
      simp only [ofRoot, Option.toList_some, List.flatMap_singleton,
        ofConcrete_of_named hpresent hprogram.1]
      exact List.mem_singleton.1 (List.contains_iff_mem.1 hprogram.2)

/-- The place of the tree of a text is what a concrete node turns into. -/
structure Grown (root : Option Concrete) (x : Cursor) (s : Concrete.Site) : Prop where
  node_eq : x.node = s.node
  named : s.label.named
  present : s.label.missing = false
  every : ∀ p : Concrete → Bool, (∀ c ∈ root, c.every p) → s.concrete.every p

theorem root_or_grown (hx : x ∈ (ofRoot source root).cursors) :
    x = ⟨⟨0, ofRoot source root⟩, []⟩ ∨ ∃ s, Grown root x s := by
  rcases root_or_site hx with hroot | ⟨c, hc, s, hs, hmatches⟩
  · exact .inl hroot
  · have hkept := (List.mem_filter.1 hs).2
    rw [Concrete.Site.kept, Bool.and_eq_true, List.all_cons, Bool.and_eq_true,
      Bool.not_eq_true'] at hkept
    exact .inr ⟨s, hmatches.node_eq, hkept.1, hkept.2.1, fun p hp =>
      Concrete.every_of_mem_kept (hp c hc) hs s.here List.mem_cons_self⟩

section Grown

variable {s : Concrete.Site} (h : Grown root x s)

include h

theorem Grown.kind_eq : x.kind = Kind.classify x.node.typeName (Concrete.beside s.above)
    (Parts.of s.concrete.children) := by
  rw [Cursor.kind, h.node_eq]
  rfl

theorem Grown.typeName_eq : x.node.typeName = s.label.typeName := by
  rw [h.node_eq]
  rfl

theorem Grown.children_eq :
    x.node.children = ofConcretes s.concrete.children s.concrete.children := by
  rw [h.node_eq]
  rfl

theorem Grown.leaf (hleaf : ∀ c ∈ root, c.leafTokens) :
    ∀ d ∈ s.concrete.children, d.label.named || d.children.isEmpty :=
  fun d hd => (Concrete.every_iff.1 ((Concrete.every_iff.1 (h.every _ hleaf)).2 d hd)).1

/-- If tokens are leaves, then a child is what a node with a name directly below turns into. -/
theorem Grown.exists_of_mem_children (hleaf : ∀ c ∈ root, c.leafTokens) {n : Node}
    (hn : n ∈ x.node.children) : ∃ d ∈ s.concrete.children, d.label.named ∧
      n = Node.mk d.label.typeName
        (Kind.classify d.label.typeName s.concrete.children (Parts.of d.children)) d.label.span
        (ofConcretes d.children d.children) := by
  rw [h.children_eq] at hn
  obtain ⟨d, hd, hpresent, hnamed, htree⟩ := exists_named_of_mem_ofConcretes (h.leaf hleaf) hn
  rw [ofConcrete_of_named hpresent hnamed, List.singleton_inj] at htree
  exact ⟨d, hd, hnamed, htree.symm⟩

/-- The child in the slot of the first part with one of some types has such a type. -/
theorem Grown.typeName_of_child? {types : List String} {n : Node}
    (hn : x.node.child? ((Parts.of s.concrete.children).firstNamed types) = some n) :
    n.typeName ∈ types := by
  rw [child?, h.children_eq] at hn
  exact typeName_of_child_firstNamed hn

end Grown

/-- Only the root has the type of a program. -/
theorem exists_grown_of_typeName (h : ∀ c ∈ root, c.isNamed ["program"])
    (hx : x ∈ (ofRoot source root).cursors) (htype : x.node.typeName ≠ "program") :
    ∃ s, Grown root x s := by
  rcases root_or_grown hx with rfl | hgrown
  · exact absurd (typeName_ofRoot h) htype
  · exact hgrown

/-- Only the root has nothing above it. -/
theorem exists_grown_of_parent (hx : x ∈ (ofRoot source root).cursors) {y : Cursor}
    (hparent : x.parent? = some y) : ∃ s, Grown root x s := by
  rcases root_or_grown hx with rfl | hgrown
  · cases hparent
  · exact hgrown

theorem kind_of_mem_children (hx : x ∈ (ofRoot source root).cursors) {n : Node}
    (hn : n ∈ x.node.children) : ∃ siblings ps, n.kind = Kind.classify n.typeName siblings ps := by
  obtain ⟨q, -, rfl, hq⟩ := exists_cursor_of_mem_children hx hn
  obtain ⟨s, hs⟩ := exists_grown_of_parent hq rfl
  exact ⟨_, _, hs.kind_eq⟩

/-- Only the root has the kind of a program. -/
theorem exists_grown_of_kind (hx : x ∈ (ofRoot source root).cursors) (hkind : x.kind ≠ .program) :
    ∃ s, Grown root x s := by
  rcases root_or_grown hx with rfl | hgrown
  · exact absurd (kind_ofRoot source root) hkind
  · exact hgrown

end Places

end Node

end RubyLens
