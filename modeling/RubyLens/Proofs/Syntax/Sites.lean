import Mathlib.Data.List.Forall2
import RubyLens.Proofs.Syntax.Cursors
import RubyLens.Syntax.Build

/-!
The nodes of a concrete tree and the places of the syntax tree. The nodes of a concrete tree are
listed in pre-order, each with those above it (`Concrete.sites`). Of these the nodes are kept that
have a name, unless the parser made them or something above them up (`Site.kept`).

Main statement: `forall₂_kept`. The kept nodes and the places of the tree correspond one by one: the
place with number `i` holds what the kept node at index `i` turns into, and the places above it hold
what the nodes with a name above that node turn into (`Site.Matches`).
-/

namespace RubyLens

theorem Node.ofConcrete_of_missing {c : Concrete} (h : c.label.missing)
    (siblings : List Concrete) : ofConcrete siblings c = [] := by
  obtain ⟨l, cs⟩ := c
  exact if_pos h

theorem Node.ofConcrete_of_named {c : Concrete} (hpresent : c.label.missing = false)
    (hnamed : c.label.named) (siblings : List Concrete) :
    ofConcrete siblings c =
      [mk c.label.typeName (Kind.classify c.label.typeName siblings (Parts.of c.children))
        c.label.span (ofConcretes c.children c.children)] := by
  obtain ⟨l, cs⟩ := c
  rw [Concrete.label] at hpresent hnamed
  rw [ofConcrete, if_neg (by simp [hpresent]), if_pos hnamed]
  rfl

theorem Node.mem_ofConcretes {siblings cs : List Concrete} {t : Node} :
    t ∈ ofConcretes siblings cs ↔ ∃ c ∈ cs, t ∈ ofConcrete siblings c := by
  induction cs with
  | nil => simp [ofConcretes]
  | cons c cs ih => rw [ofConcretes, List.mem_append, ih, List.exists_mem_cons_iff]

namespace Concrete

/-- The tree of `f(a`, with a parenthesis that the parser made up. -/
def unclosedCall : Concrete :=
  .node ⟨"program", true, false, ⟨0, 3⟩, none⟩ [
    .node ⟨"call", true, false, ⟨0, 3⟩, none⟩ [
      .node ⟨"identifier", true, false, ⟨0, 1⟩, some "method"⟩ [],
      .node ⟨"argument_list", true, false, ⟨1, 3⟩, some "arguments"⟩ [
        .node ⟨"(", false, false, ⟨1, 2⟩, none⟩ [],
        .node ⟨"identifier", true, false, ⟨2, 3⟩, none⟩ [],
        .node ⟨")", false, true, ⟨3, 3⟩, none⟩ []]]]

/-- The tree of a method `f` that consists of `rescue` alone, on three lines. -/
def guardedMethod : Concrete :=
  .node ⟨"program", true, false, ⟨0, 16⟩, none⟩ [
    .node ⟨"method", true, false, ⟨0, 16⟩, none⟩ [
      .node ⟨"def", false, false, ⟨0, 3⟩, none⟩ [],
      .node ⟨"identifier", true, false, ⟨4, 5⟩, some "name"⟩ [],
      .node ⟨"body_statement", true, false, ⟨6, 12⟩, some "body"⟩ [
        .node ⟨"rescue", true, false, ⟨6, 12⟩, none⟩ [
          .node ⟨"rescue", false, false, ⟨6, 12⟩, none⟩ []]],
      .node ⟨"end", false, false, ⟨13, 16⟩, none⟩ []]]

/-- Induction over a concrete tree, with the assumption for all nodes directly below. -/
@[elab_as_elim]
theorem ind {P : Concrete → Prop} (h : ∀ l cs, (∀ c ∈ cs, P c) → P (.node l cs)) (c : Concrete) :
    P c :=
  Concrete.rec (motive_1 := P) (motive_2 := fun cs => ∀ c ∈ cs, P c) h (List.forall_mem_nil P)
    (fun _ _ hc hcs => List.forall_mem_cons.2 ⟨hc, hcs⟩) c

/-! ### The nodes of a concrete tree -/

mutual
/-- The number of nodes in a concrete tree. -/
def size : Concrete → Nat
  | node _ cs => sizeAll cs + 1

/-- The number of nodes in some concrete trees. -/
def sizeAll : List Concrete → Nat
  | [] => 0
  | c :: cs => size c + sizeAll cs
end

/-- A node of a concrete tree and its number in pre-order. -/
structure Spot where
  number : Nat
  concrete : Concrete

def Spot.label (a : Spot) : Label := a.concrete.label

/-- A node of a concrete tree and the nodes above it, innermost first. -/
structure Site where
  here : Spot
  above : List Spot

mutual
/-- All nodes of a concrete tree in pre-order, for a tree whose root has the given number and lies
below `above`. -/
def sitesFrom (number : Nat) (above : List Spot) : Concrete → List Site
  | node l cs =>
    ⟨⟨number, node l cs⟩, above⟩ :: sitesOf (number + 1) (⟨number, node l cs⟩ :: above) cs

def sitesOf (number : Nat) (above : List Spot) : List Concrete → List Site
  | [] => []
  | c :: cs => sitesFrom number above c ++ sitesOf (number + size c) above cs
end

/-- All nodes of a concrete tree in pre-order. -/
def sites (c : Concrete) : List Site := sitesFrom 0 [] c

/-- The nodes directly below the innermost of some nodes, which stand beside one another. -/
def beside : List Spot → List Concrete
  | [] => []
  | a :: _ => a.concrete.children

namespace Site

def concrete (s : Site) : Concrete := s.here.concrete

def label (s : Site) : Label := s.concrete.label

def span (s : Site) : Span := s.label.span

/-- The node has a name, and the parser made up neither it nor a node above it. -/
def kept (s : Site) : Bool := s.label.named && (s.here :: s.above).all fun a => !a.label.missing

/-- The innermost node with a name above. -/
def owner? (s : Site) : Option Spot := s.above.find? fun a => a.label.named

/-- What a kept node turns into. -/
def node (s : Site) : Node :=
  .mk s.label.typeName
    (Kind.classify s.label.typeName (beside s.above) (Parts.of s.concrete.children)) s.label.span
    (Node.ofConcretes s.concrete.children s.concrete.children)

end Site

/-- The nodes that are kept, in pre-order. -/
def kept (c : Concrete) : List Site := c.sites.filter Site.kept

theorem mem_sites_of_mem_kept {c : Concrete} {s : Site} (h : s ∈ c.kept) : s ∈ c.sites :=
  (List.mem_filter.1 h).1

/-- The nodes are numbered one after another. -/
theorem map_number_sitesFrom (n : Nat) (above : List Spot) (c : Concrete) :
    (sitesFrom n above c).map (fun s => s.here.number) = List.range' n c.size := by
  induction c using ind generalizing n above with
  | h l cs ih =>
    have hrest (m : Nat) (above : List Spot) :
        (sitesOf m above cs).map (fun s => s.here.number) = List.range' m (sizeAll cs) := by
      induction cs generalizing m with
      | nil => rfl
      | cons c cs ihcs =>
        rw [List.forall_mem_cons] at ih
        rw [sitesOf, List.map_append, ih.1, ihcs ih.2, sizeAll, List.range'_append_1]
    rw [sitesFrom, List.map_cons, hrest]
    rfl

theorem exists_of_mem_sitesOf {m : Nat} {above : List Spot} {cs : List Concrete} {s : Site}
    (h : s ∈ sitesOf m above cs) : ∃ k, ∃ c ∈ cs, s ∈ sitesFrom k above c := by
  induction cs generalizing m with
  | nil => cases h
  | cons c cs ih =>
    rcases List.mem_append.1 h with h | h
    · exact ⟨m, c, List.mem_cons_self, h⟩
    · obtain ⟨k, d, hd, hs⟩ := ih h
      exact ⟨k, d, List.mem_cons_of_mem c hd, hs⟩

theorem mem_sitesFrom_cases {n : Nat} {above : List Spot} {c : Concrete} {s : Site}
    (h : s ∈ sitesFrom n above c) :
    s = ⟨⟨n, c⟩, above⟩ ∨ ∃ k, ∃ d ∈ c.children, s ∈ sitesFrom k (⟨n, c⟩ :: above) d := by
  obtain ⟨l, cs⟩ := c
  rcases List.mem_cons.1 h with rfl | h
  · exact .inl rfl
  · exact .inr (exists_of_mem_sitesOf h)

theorem subset_above_of_mem_sitesFrom {n : Nat} {above : List Spot} {c : Concrete} {s : Site}
    (h : s ∈ sitesFrom n above c) : above ⊆ s.above := by
  induction c using ind generalizing n above with
  | h l cs ih =>
    rcases mem_sitesFrom_cases h with rfl | ⟨k, d, hd, hs⟩
    · exact List.Subset.refl above
    · exact List.Subset.trans (List.subset_cons_self _ above) (ih d hd hs)

theorem mem_path_of_mem_sitesFrom {n : Nat} {above : List Spot} {c : Concrete} {s : Site}
    (h : s ∈ sitesFrom n above c) : ⟨n, c⟩ ∈ s.here :: s.above := by
  rcases mem_sitesFrom_cases h with rfl | ⟨k, d, -, hs⟩
  · exact List.mem_cons_self
  · exact List.mem_cons_of_mem _ (subset_above_of_mem_sitesFrom hs List.mem_cons_self)

/-! ### Conditions on all nodes -/

mutual
/-- All nodes of a concrete tree meet a condition. -/
def every (p : Concrete → Bool) : Concrete → Bool
  | node l cs => p (node l cs) && everyOf p cs

def everyOf (p : Concrete → Bool) : List Concrete → Bool
  | [] => true
  | c :: cs => every p c && everyOf p cs
end

section Every

variable {p : Concrete → Bool}

theorem everyOf_iff {cs : List Concrete} : everyOf p cs ↔ ∀ c ∈ cs, every p c := by
  induction cs with
  | nil => simp [everyOf]
  | cons c cs ih => rw [everyOf, Bool.and_eq_true, ih, List.forall_mem_cons]

theorem every_iff {c : Concrete} : every p c ↔ p c ∧ ∀ d ∈ c.children, every p d := by
  obtain ⟨l, cs⟩ := c
  rw [every, Bool.and_eq_true, everyOf_iff]
  rfl

theorem exists_sitesFrom_subset {m : Nat} {above : List Spot} {cs : List Concrete} {d : Concrete}
    (h : d ∈ cs) : ∃ k, sitesFrom k above d ⊆ sitesOf m above cs := by
  induction cs generalizing m with
  | nil => cases h
  | cons c cs ih =>
    rw [sitesOf]
    rcases List.mem_cons.1 h with rfl | h
    · exact ⟨m, List.subset_append_left _ _⟩
    · obtain ⟨k, hk⟩ := ih h
      exact ⟨k, List.subset_append_of_subset_right _ hk⟩

/-- What holds for all nodes of the list holds throughout the tree. -/
theorem every_of_forall_sitesFrom {c : Concrete} {n : Nat} {above : List Spot}
    (h : ∀ s ∈ sitesFrom n above c, p s.concrete) : every p c := by
  induction c using ind generalizing n above with
  | h l cs ih =>
    rw [sitesFrom, List.forall_mem_cons] at h
    refine every_iff.2 ⟨h.1, fun d hd => ?_⟩
    obtain ⟨k, hk⟩ := exists_sitesFrom_subset hd
    exact ih d hd fun s hs => h.2 s (hk hs)

/-- What holds for all nodes holds for those above a node. -/
theorem every_of_mem_sitesFrom {c : Concrete} (h : every p c) {n : Nat} {above : List Spot}
    (habove : ∀ a ∈ above, every p a.concrete) {s : Site} (hs : s ∈ sitesFrom n above c) :
    ∀ a ∈ s.here :: s.above, every p a.concrete := by
  induction c using ind generalizing n above with
  | h l cs ih =>
    have hpath : ∀ a ∈ ⟨n, node l cs⟩ :: above, every p a.concrete :=
      List.forall_mem_cons.2 ⟨h, habove⟩
    rcases mem_sitesFrom_cases hs with rfl | ⟨k, d, hd, hs⟩
    · exact hpath
    · exact ih d hd ((every_iff.1 h).2 d hd) hpath hs

theorem every_of_mem_kept {c : Concrete} (h : every p c) {s : Site} (hs : s ∈ c.kept) :
    ∀ a ∈ s.here :: s.above, every p a.concrete :=
  every_of_mem_sitesFrom h (List.forall_mem_nil _) (mem_sites_of_mem_kept hs)

end Every

/-- What is directly below a node lies within it. -/
def nested (c : Concrete) : Bool :=
  c.every fun d => d.children.all fun e => d.label.span.covers e.label.span

theorem nested_iff {c : Concrete} :
    c.nested ↔ ∀ d ∈ c.children, c.label.span.covers d.label.span ∧ d.nested := by
  rw [nested, every_iff, List.all_eq_true]
  exact ⟨fun h d hd => ⟨h.1 d hd, h.2 d hd⟩, fun h => ⟨fun d hd => (h d hd).1, fun d hd => (h d hd).2⟩⟩

/-- No node ends before it starts. -/
def forward (c : Concrete) : Bool := c.every fun d => d.label.span.start ≤ d.label.span.stop

theorem forward_iff {c : Concrete} :
    c.forward ↔ c.label.span.start ≤ c.label.span.stop ∧ ∀ d ∈ c.children, d.forward := by
  rw [forward, every_iff, decide_eq_true_eq]
  rfl

/-- All nodes lie within the root. -/
theorem covers_of_mem_sitesFrom {c : Concrete} (h : c.nested) {n : Nat} {above : List Spot}
    {s : Site} (hs : s ∈ sitesFrom n above c) : c.label.span.covers s.span := by
  induction c using ind generalizing n above with
  | h l cs ih =>
    rcases mem_sitesFrom_cases hs with rfl | ⟨k, d, hd, hs⟩
    · exact Span.covers_refl l.span
    · have hbelow := nested_iff.1 h d hd
      exact Span.covers_trans hbelow.1 (ih d hd hbelow.2 hs)

/-- What a node turns into lies within it. -/
theorem covers_of_mem_ofConcrete {c : Concrete} (h : c.nested) {siblings : List Concrete} {t : Node}
    (ht : t ∈ Node.ofConcrete siblings c) : c.label.span.covers t.span := by
  induction c using ind generalizing siblings with
  | h l cs ih =>
    rw [Node.ofConcrete] at ht
    split at ht
    · cases ht
    · split at ht
      · obtain rfl := List.mem_singleton.1 ht
        exact Span.covers_refl l.span
      · obtain ⟨d, hd, ht⟩ := Node.mem_ofConcretes.1 ht
        have hbelow := nested_iff.1 h d hd
        exact Span.covers_trans hbelow.1 (ih d hd hbelow.2 ht)

/-- The trees below what a kept node turns into lie within that node. -/
theorem Site.covers_of_mem_children {s : Site} (h : s.concrete.nested) {t : Node}
    (ht : t ∈ s.node.children) : s.span.covers t.span := by
  obtain ⟨d, hd, ht⟩ := Node.mem_ofConcretes.1 ht
  have hbelow := nested_iff.1 h d hd
  exact Span.covers_trans hbelow.1 (covers_of_mem_ofConcrete hbelow.2 ht)

/-! ### Which nodes are kept -/

/-- The nodes that are kept of a tree in its surroundings. -/
def keptFrom (n : Nat) (above : List Spot) (c : Concrete) : List Site :=
  (sitesFrom n above c).filter Site.kept

def keptOf (n : Nat) (above : List Spot) (cs : List Concrete) : List Site :=
  (sitesOf n above cs).filter Site.kept

/-- The parser made none of the nodes up. -/
def Present (above : List Spot) : Prop := ∀ a ∈ above, a.label.missing = false

section Kept

variable {n : Nat} {above : List Spot} {l : Label} {cs : List Concrete}

theorem keptOf_cons (c : Concrete) :
    keptOf n above (c :: cs) = keptFrom n above c ++ keptOf (n + c.size) above cs := by
  rw [keptOf, sitesOf, List.filter_append]
  rfl

theorem keptFrom_of_missing (h : l.missing = true) : keptFrom n above (node l cs) = [] := by
  rw [keptFrom, List.filter_eq_nil_iff]
  intro s hs hkept
  simp only [Site.kept, Bool.and_eq_true, List.all_eq_true] at hkept
  have hpresent := hkept.2 _ (mem_path_of_mem_sitesFrom hs)
  simp [Spot.label, label, h] at hpresent

theorem keptFrom_of_named (habove : Present above) (hm : l.missing = false)
    (hn : l.named = true) :
    keptFrom n above (node l cs) =
      ⟨⟨n, node l cs⟩, above⟩ :: keptOf (n + 1) (⟨n, node l cs⟩ :: above) cs := by
  have hkept : Site.kept ⟨⟨n, node l cs⟩, above⟩ = true := by
    simp only [Site.kept, Bool.and_eq_true, List.all_eq_true]
    refine ⟨hn, fun a ha => ?_⟩
    rcases List.mem_cons.1 ha with rfl | ha
    · simp [Spot.label, label, hm]
    · simp [habove a ha]
  rw [keptFrom, sitesFrom, List.filter_cons_of_pos hkept]
  rfl

theorem keptFrom_of_unnamed (hn : l.named = false) :
    keptFrom n above (node l cs) = keptOf (n + 1) (⟨n, node l cs⟩ :: above) cs := by
  have hkept : ¬ Site.kept ⟨⟨n, node l cs⟩, above⟩ = true := by
    simp [Site.kept, Site.label, Site.concrete, label, hn]
  rw [keptFrom, sitesFrom, List.filter_cons_of_neg hkept]
  rfl

end Kept

/-! ### Kept nodes and places -/

/-- Of the given nodes, those with a name are kept at the given indices. -/
def Owned (K : List Site) (above : List Spot) (numbers : List Nat) : Prop :=
  List.Forall₂ (fun a n => ∃ s, K[n]? = some s ∧ s.here = a) (above.filter fun a => a.label.named)
    numbers

/-- A kept node, at an index of all kept nodes, and the place with that number. -/
structure Site.Matches (K : List Site) (s : Site) (x : Cursor) : Prop where
  getElem?_number : K[x.here.number]? = some s
  node_eq : x.node = s.node
  owned : Owned K s.above (x.above.map Place.number)

section Matches

variable {K : List Site}

theorem Owned.cons_of_unnamed {a : Spot} {above : List Spot} {numbers : List Nat}
    (h : Owned K above numbers) (ha : a.label.named = false) : Owned K (a :: above) numbers := by
  rw [Owned, List.filter_cons_of_neg (by simp [ha])]
  exact h

theorem Owned.cons_of_named {a : Spot} {above : List Spot} {n : Nat} {numbers : List Nat}
    (h : Owned K above numbers) (ha : a.label.named = true) {s : Site} (hs : K[n]? = some s)
    (hhere : s.here = a) : Owned K (a :: above) (n :: numbers) := by
  rw [Owned, List.filter_cons_of_pos (by simp [ha])]
  exact List.Forall₂.cons ⟨s, hs, hhere⟩ h

/-- Wherever the kept nodes of `c` stand one after another among all kept nodes, they match the
places of what `c` turns into. -/
def Corresponds (K : List Site) (c : Concrete) : Prop :=
  ∀ n above m (places : List Place), Present above → Owned K above (places.map Place.number) →
    keptFrom n above c <+: K.drop m →
    List.Forall₂ (Site.Matches K) (keptFrom n above c)
      (Node.cursorsOf m places (Node.ofConcrete (beside above) c))

theorem forall₂_keptOf {cs : List Concrete} (h : ∀ c ∈ cs, Corresponds K c) {n m : Nat}
    {above : List Spot} {places : List Place} (hpresent : Present above)
    (howned : Owned K above (places.map Place.number)) (hpre : keptOf n above cs <+: K.drop m) :
    List.Forall₂ (Site.Matches K) (keptOf n above cs)
      (Node.cursorsOf m places (Node.ofConcretes (beside above) cs)) := by
  induction cs generalizing n m with
  | nil => exact List.Forall₂.nil
  | cons c cs ih =>
    rw [List.forall_mem_cons] at h
    rw [keptOf_cons] at hpre
    obtain ⟨rest, hrest⟩ := hpre
    have hfirst : List.Forall₂ (Site.Matches K) (keptFrom n above c)
        (Node.cursorsOf m places (Node.ofConcrete (beside above) c)) :=
      h.1 n above m places hpresent howned ⟨keptOf (n + c.size) above cs ++ rest, by
        rw [← List.append_assoc, hrest]⟩
    have hlength := hfirst.length_eq
    rw [Node.length_cursorsOf] at hlength
    rw [keptOf_cons, Node.ofConcretes, Node.cursorsOf_append]
    refine List.rel_append hfirst (ih h.2 ⟨rest, ?_⟩)
    rw [← hlength, ← List.drop_drop, ← hrest, List.append_assoc, List.drop_left]

theorem corresponds (K : List Site) (c : Concrete) : Corresponds K c := by
  induction c using ind with
  | h l cs ih =>
    intro n above m places hpresent howned hpre
    rw [Node.ofConcrete]
    by_cases hm : l.missing = true
    · rw [if_pos hm, keptFrom_of_missing hm]
      exact List.Forall₂.nil
    · rw [Bool.not_eq_true] at hm
      have hnext : Present (⟨n, node l cs⟩ :: above) := by
        intro a ha
        rcases List.mem_cons.1 ha with rfl | ha
        · exact hm
        · exact hpresent a ha
      rw [if_neg (by simp [hm])]
      by_cases hn : l.named = true
      · rw [keptFrom_of_named hpresent hm hn] at hpre ⊢
        obtain ⟨rest, hrest⟩ := hpre
        have hhere : K[m]? = some ⟨⟨n, node l cs⟩, above⟩ := by
          have := congrArg List.head? hrest
          simpa [List.head?_drop] using this.symm
        have hbehind : keptOf (n + 1) (⟨n, node l cs⟩ :: above) cs <+: K.drop (m + 1) := by
          refine ⟨rest, ?_⟩
          rw [← List.drop_drop, ← hrest]
          rfl
        rw [if_pos hn, Node.cursorsOf, Node.cursorsOf, Node.cursorsFrom, List.append_nil]
        refine List.Forall₂.cons ⟨hhere, rfl, howned⟩ ?_
        exact forall₂_keptOf ih hnext (howned.cons_of_named hn hhere rfl) hbehind
      · rw [Bool.not_eq_true] at hn
        rw [keptFrom_of_unnamed hn] at hpre ⊢
        rw [if_neg (by simp [hn])]
        exact forall₂_keptOf ih hnext (howned.cons_of_unnamed hn) hpre

theorem exists_matches {sites : List Site} {cursors : List Cursor}
    (h : List.Forall₂ (Site.Matches K) sites cursors) {i : Nat} {x : Cursor}
    (hx : cursors[i]? = some x) : ∃ s, sites[i]? = some s ∧ s.Matches K x := by
  obtain ⟨hi, rfl⟩ := List.getElem?_eq_some_iff.1 hx
  have hi' : i < sites.length := h.length_eq ▸ hi
  exact ⟨sites[i], List.getElem?_eq_getElem hi', h.get hi' hi⟩

theorem Site.Matches.congr {s : Site} {x y : Cursor} (h : s.Matches K x) (hhere : x.here = y.here)
    (habove : x.above.map Place.number = y.above.map Place.number) : s.Matches K y := by
  obtain ⟨hnumber, hnode, howned⟩ := h
  refine ⟨hhere ▸ hnumber, ?_, habove ▸ howned⟩
  rw [← hnode, Cursor.node, Cursor.node, hhere]

/-- The children of a place lie within it, if all is nested below the node that it matches. -/
theorem Site.Matches.covers_of_mem_children {s : Site} {x : Cursor} (h : s.Matches K x)
    (hnested : s.concrete.nested) {q : Place} (hq : q ∈ x.here.children) :
    x.span.covers q.node.span := by
  have hbelow : q.node ∈ s.node.children := by
    rw [← h.node_eq]
    exact Place.node_mem_of_mem_children hq
  rw [Cursor.span, h.node_eq]
  exact Site.covers_of_mem_children hnested hbelow

end Matches

/-- **Kept nodes and places.** The kept nodes correspond, one by one and in order, to the places of
what the concrete tree turns into. -/
theorem forall₂_kept (c : Concrete) :
    List.Forall₂ (Site.Matches c.kept) c.kept (Node.cursorsOf 0 [] (Node.ofConcrete [] c)) := by
  refine corresponds c.kept c 0 [] 0 [] (fun a ha => absurd ha List.not_mem_nil) List.Forall₂.nil ?_
  rw [List.drop_zero]
  exact List.prefix_refl _

end Concrete

namespace Node

open Concrete (Site)

/-! ### The tree of a text -/

theorem kind_ofRoot (source : Text) (root : Option Concrete) :
    (ofRoot source root).kind = .program := by
  rw [ofRoot]
  split <;> rfl

theorem span_ofRoot (source : Text) (root : Option Concrete) :
    (ofRoot source root).span = ⟨0, Text.size source⟩ := by
  rw [ofRoot]
  split <;> rfl

/-- The root of a text has the children of the first tree that the concrete root turns into. -/
theorem children_ofRoot_of_cons (source : Text) {c : Concrete} {first : Node} {others : List Node}
    (h : ofConcrete [] c = first :: others) :
    (ofRoot source (some c)).children = first.children := by
  obtain ⟨t, k, s, cs⟩ := first
  simp only [ofRoot, Option.toList_some, List.flatMap_singleton, h]
  rfl

/-- The places below the root of a text match the nodes that are kept of its concrete tree. -/
theorem exists_site_ofRoot {source : Text} {c : Concrete} {i : Nat} {x : Cursor} (hi : i ≠ 0)
    (hx : (ofRoot source (some c)).cursors[i]? = some x) :
    ∃ s, c.kept[i]? = some s ∧ s.Matches c.kept x := by
  have hkept := c.forall₂_kept
  obtain ⟨i, rfl⟩ := Nat.exists_eq_succ_of_ne_zero hi
  rcases hc : ofConcrete [] c with _ | ⟨first, others⟩
  · -- the root stands alone
    have hroot : ofRoot source (some c) = mk "program" .program ⟨0, Text.size source⟩ [] := by
      simp only [ofRoot, Option.toList_some, List.flatMap_singleton, hc]
    rw [hroot] at hx
    cases hx
  · have hfound := congrArg (·[i]?) (map_tail_cursors_congr (children_ofRoot_of_cons source hc))
    simp only [List.getElem?_map, List.getElem?_tail, hx, Option.map_some] at hfound
    obtain ⟨y, hy, hxy⟩ := Option.map_eq_some_iff.1 hfound.symm
    rw [Prod.mk.injEq] at hxy
    have hlist : (first.cursors ++ cursorsOf (0 + first.count) [] others)[i + 1]? = some y := by
      rw [List.getElem?_append_left (List.getElem?_eq_some_iff.1 hy).1, hy]
    rw [hc, cursorsOf] at hkept
    obtain ⟨s, hs, hmatches⟩ := Concrete.exists_matches hkept hlist
    exact ⟨s, hs, hmatches.congr hxy.1 hxy.2⟩

/-- A place of the tree of a text is the root or matches a node that is kept. -/
theorem root_or_site {source : Text} {root : Option Concrete} {x : Cursor}
    (hx : x ∈ (ofRoot source root).cursors) :
    x = ⟨⟨0, ofRoot source root⟩, []⟩ ∨
      ∃ c ∈ root, ∃ s ∈ c.kept, s.Matches c.kept x := by
  cases root with
  | none =>
    have hcursors : (ofRoot source none).cursors = [⟨⟨0, ofRoot source none⟩, []⟩] := rfl
    rw [hcursors, List.mem_singleton] at hx
    exact .inl hx
  | some c =>
    obtain ⟨i, hi⟩ := List.mem_iff_getElem?.1 hx
    by_cases h0 : i = 0
    · rw [h0, getElem?_cursors_zero, Option.some.injEq] at hi
      exact .inl hi.symm
    · obtain ⟨s, hs, hmatches⟩ := exists_site_ofRoot h0 hi
      exact .inr ⟨c, rfl, s, List.mem_of_getElem? hs, hmatches⟩

/-- In the tree of a text, too, children lie within their parents. -/
theorem covers_of_mem_children_ofRoot {source : Text} {c : Concrete} (hnested : c.nested)
    (hwhole : Span.covers ⟨0, Text.size source⟩ c.label.span) {i : Nat} {x : Cursor}
    (hx : (ofRoot source (some c)).cursors[i]? = some x) {q : Place} (hq : q ∈ x.here.children) :
    x.span.covers q.node.span := by
  obtain ⟨hmem, hi⟩ := getElem?_cursors_iff.1 hx
  by_cases h0 : i = 0
  · -- whatever is below the root is kept, so it lies within the concrete root
    have hchild := getElem?_cursors_iff.2 ⟨Place.child_mem_cursors hmem hq, rfl⟩
    have hnumber := (Place.bounds_of_mem_children hq).1
    obtain ⟨s, hs, hmatches⟩ := exists_site_ofRoot (Nat.ne_of_gt (Nat.zero_lt_of_lt hnumber)) hchild
    have hsite := Concrete.covers_of_mem_sitesFrom hnested
      (Concrete.mem_sites_of_mem_kept (List.mem_of_getElem? hs))
    have hroot : x = ⟨⟨0, ofRoot source (some c)⟩, []⟩ := by
      rw [h0, getElem?_cursors_zero, Option.some.injEq] at hx
      exact hx.symm
    have hspan : q.node.span = s.span := congrArg span hmatches.node_eq
    rw [hroot, Cursor.span, Cursor.node, span_ofRoot, hspan]
    exact Span.covers_trans hwhole hsite
  · obtain ⟨s, hs, hmatches⟩ := exists_site_ofRoot h0 hx
    have hsite : s.concrete.nested :=
      Concrete.every_of_mem_kept hnested (List.mem_of_getElem? hs) s.here List.mem_cons_self
    exact hmatches.covers_of_mem_children hsite hq

end Node

end RubyLens
