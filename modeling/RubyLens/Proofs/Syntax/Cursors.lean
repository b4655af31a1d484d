import Mathlib.Data.List.Nodup
import Mathlib.Data.List.Pairwise
import RubyLens.Syntax.Node

/-!
The places of a tree. A tree is listed as its root and then the trees of its children
(`Place.cursors_eq`), so a fact about all places of a tree is shown for a place under the assumption
that it holds for its children (`Place.ind`), or under the assumption that it holds for the place
above (`Node.down`).

* `map_number_cursors`: the numbers of the places are those from the number of the root on, without
  a gap, so the list of all places can be read by number (`getElem?_cursors_iff`).
* `mem_cursors_cases`, `child_mem_cursors`: the place above a place is listed and has it among its
  children, and the children of a place are listed below it.
* `mem_above_of_lt_stop`: the places below a place have the numbers right behind its own.
-/

namespace RubyLens

namespace Node

/-- Induction over a tree, with the assumption for all children. -/
@[elab_as_elim]
theorem ind {P : Node → Prop} (h : ∀ t k s cs, (∀ c ∈ cs, P c) → P (.mk t k s cs)) (n : Node) :
    P n :=
  Node.rec (motive_1 := P) (motive_2 := fun cs => ∀ c ∈ cs, P c) h (List.forall_mem_nil P)
    (fun _ _ hc hcs => List.forall_mem_cons.2 ⟨hc, hcs⟩) n

theorem count_pos (n : Node) : 0 < n.count := by
  cases n with
  | mk t k s cs => exact Nat.succ_pos _

end Node

namespace Place

/-! ### Children -/

/-- The number behind those of the tree at a place. -/
def stop (p : Place) : Nat := p.number + p.node.count

theorem number_lt_stop (p : Place) : p.number < p.stop := Nat.lt_add_of_pos_right p.node.count_pos

theorem map_node_siblings (m : Nat) (ns : List Node) : (siblings m ns).map Place.node = ns := by
  induction ns generalizing m with
  | nil => rfl
  | cons n ns ih => rw [siblings, List.map_cons, ih]

theorem siblings_append (m : Nat) (ns ns' : List Node) :
    siblings m (ns ++ ns') = siblings m ns ++ siblings (m + Node.countAll ns) ns' := by
  induction ns generalizing m with
  | nil => rfl
  | cons n ns ih =>
    rw [List.cons_append, siblings, siblings, Node.countAll, ih, List.cons_append, Nat.add_assoc]

theorem bounds_of_mem_siblings {m : Nat} {ns : List Node} {q : Place} (h : q ∈ siblings m ns) :
    m ≤ q.number ∧ q.stop ≤ m + Node.countAll ns := by
  induction ns generalizing m with
  | nil => cases h
  | cons n ns ih =>
    rw [Node.countAll]
    rcases List.mem_cons.1 h with rfl | h
    · exact ⟨Nat.le_refl _, by simp only [stop]; omega⟩
    · have := ih h
      omega

/-- The trees of siblings follow one another. -/
theorem pairwise_siblings (m : Nat) (ns : List Node) :
    (siblings m ns).Pairwise fun a b => a.stop ≤ b.number := by
  induction ns generalizing m with
  | nil => exact List.Pairwise.nil
  | cons n ns ih =>
    exact List.Pairwise.cons (fun b hb => (bounds_of_mem_siblings hb).1) (ih (m + n.count))

theorem stop_eq (p : Place) : p.stop = p.number + 1 + Node.countAll p.node.children := by
  obtain ⟨i, t, k, s, cs⟩ := p
  simp only [stop, Node.count, Node.children]
  omega

theorem bounds_of_mem_children {p q : Place} (h : q ∈ p.children) :
    p.number < q.number ∧ q.stop ≤ p.stop := by
  have := bounds_of_mem_siblings h
  rw [p.stop_eq]
  omega

theorem node_mem_of_mem_children {p q : Place} (h : q ∈ p.children) : q.node ∈ p.node.children := by
  rw [← map_node_siblings (p.number + 1) p.node.children]
  exact List.mem_map_of_mem h

theorem exists_mem_children {p : Place} {n : Node} (h : n ∈ p.node.children) :
    ∃ q ∈ p.children, q.node = n := by
  rw [← map_node_siblings (p.number + 1) p.node.children] at h
  exact List.mem_map.1 h

/-- The trees of two children are the same one or do not share a number. -/
theorem eq_or_apart_of_mem_children {p q r : Place} (hq : q ∈ p.children) (hr : r ∈ p.children) :
    q = r ∨ q.stop ≤ r.number ∨ r.stop ≤ q.number := by
  have hpair := pairwise_siblings (p.number + 1) p.node.children
  exact List.Pairwise.forall_of_forall_of_flip
    (R := fun a b : Place => a = b ∨ a.stop ≤ b.number ∨ b.stop ≤ a.number)
    (fun _ _ => .inl rfl) (hpair.imp fun h => .inr (.inl h)) (hpair.imp fun h => .inr (.inr h)) hq hr

/-- Induction over the places of a tree, with the assumption for all children of a place. -/
@[elab_as_elim]
theorem ind {P : Place → Prop} (h : ∀ p, (∀ q ∈ p.children, P q) → P p) (p : Place) : P p := by
  obtain ⟨i, n⟩ := p
  induction n using Node.ind generalizing i with
  | h t k s cs ih =>
    exact h _ fun q hq => ih q.node (node_mem_of_mem_children hq) q.number

/-! ### The list of all places -/

/-- The places of the tree at a place, which lies below `above`. -/
def cursors (above : List Place) (p : Place) : List Cursor := p.node.cursorsFrom p.number above

theorem cursorsOf_eq (m : Nat) (above : List Place) (ns : List Node) :
    Node.cursorsOf m above ns = (siblings m ns).flatMap (cursors above) := by
  induction ns generalizing m with
  | nil => rfl
  | cons n ns ih => rw [Node.cursorsOf, siblings, List.flatMap_cons, ih, cursors]

/-- A place, and then the places of its children. -/
theorem cursors_eq (above : List Place) (p : Place) :
    p.cursors above = ⟨p, above⟩ :: p.children.flatMap (cursors (p :: above)) := by
  obtain ⟨i, t, k, s, cs⟩ := p
  rw [cursors, Node.cursorsFrom, cursorsOf_eq]
  rfl

theorem mem_cursors {x : Cursor} {above : List Place} {p : Place} :
    x ∈ p.cursors above ↔ x = ⟨p, above⟩ ∨ ∃ q ∈ p.children, x ∈ q.cursors (p :: above) := by
  rw [cursors_eq, List.mem_cons, List.mem_flatMap]

theorem self_mem_cursors (above : List Place) (p : Place) : ⟨p, above⟩ ∈ p.cursors above :=
  mem_cursors.2 (.inl rfl)

/-- **The numbers of the places.** The places of a tree are numbered one after another. -/
theorem map_number_cursors (above : List Place) (p : Place) :
    (p.cursors above).map (fun x => x.here.number) = List.range' p.number p.node.count := by
  induction p using Place.ind generalizing above with
  | h p ih =>
    have hrest (m : Nat) (ns : List Node)
        (h : ∀ q ∈ siblings m ns, (q.cursors (p :: above)).map (fun x => x.here.number) =
          List.range' q.number q.node.count) :
        ((siblings m ns).flatMap (cursors (p :: above))).map (fun x => x.here.number) =
          List.range' m (Node.countAll ns) := by
      induction ns generalizing m with
      | nil => rfl
      | cons n ns ihns =>
        rw [siblings, List.forall_mem_cons] at h
        rw [siblings, List.flatMap_cons, List.map_append, h.1, ihns (m + n.count) h.2,
          Node.countAll, List.range'_append_1]
    obtain ⟨i, t, k, s, cs⟩ := p
    rw [cursors_eq, List.map_cons, children, hrest _ _ fun q hq => ih q hq _]
    rfl

/-- The places of a tree are listed by number. -/
theorem pairwise_number_cursors (above : List Place) (p : Place) :
    (p.cursors above).Pairwise fun x y => x.here.number < y.here.number := by
  rw [← List.pairwise_map, map_number_cursors]
  exact List.pairwise_lt_range'

theorem length_cursors (above : List Place) (p : Place) :
    (p.cursors above).length = p.node.count := by
  have h := congrArg List.length (map_number_cursors above p)
  rwa [List.length_map, List.length_range'] at h

/-- The tree of a listed place lies within the tree that is listed. -/
theorem bounds_of_mem_cursors {x : Cursor} {above : List Place} {p : Place}
    (h : x ∈ p.cursors above) : p.number ≤ x.here.number ∧ x.here.stop ≤ p.stop := by
  induction p using Place.ind generalizing above with
  | h p ih =>
    rcases mem_cursors.1 h with rfl | ⟨q, hq, hx⟩
    · exact ⟨Nat.le_refl _, Nat.le_refl _⟩
    · have hbelow := ih q hq hx
      have hchild := bounds_of_mem_children hq
      omega

theorem suffix_above_of_mem_cursors {x : Cursor} {above : List Place} {p : Place}
    (h : x ∈ p.cursors above) : above <:+ x.above := by
  induction p using Place.ind generalizing above with
  | h p ih =>
    rcases mem_cursors.1 h with rfl | ⟨q, hq, hx⟩
    · exact List.suffix_refl above
    · exact (List.suffix_cons p above).trans (ih q hq hx)

/-- The way up from a listed place leads to the root of the tree, and on. -/
theorem suffix_path_of_mem_cursors {x : Cursor} {above : List Place} {p : Place}
    (h : x ∈ p.cursors above) : p :: above <:+ x.path := by
  rcases mem_cursors.1 h with rfl | ⟨q, -, hx⟩
  · exact List.suffix_refl _
  · exact (suffix_above_of_mem_cursors hx).trans (List.suffix_cons x.here x.above)

/-- The place above a listed place is listed, and has it among its children. -/
theorem mem_cursors_cases {x : Cursor} {above : List Place} {p : Place} (h : x ∈ p.cursors above) :
    x = ⟨p, above⟩ ∨
      ∃ q rest, x.above = q :: rest ∧ ⟨q, rest⟩ ∈ p.cursors above ∧ x.here ∈ q.children := by
  induction p using Place.ind generalizing above with
  | h p ih =>
    rcases mem_cursors.1 h with rfl | ⟨q, hq, hx⟩
    · exact .inl rfl
    · right
      rcases ih q hq hx with rfl | ⟨r, rest, habove, hr, hhere⟩
      · exact ⟨p, above, rfl, self_mem_cursors above p, hq⟩
      · exact ⟨r, rest, habove, mem_cursors.2 (.inr ⟨q, hq, hr⟩), hhere⟩

/-- The children of a listed place are listed, below it. -/
theorem child_mem_cursors {x : Cursor} {above : List Place} {p q : Place} (h : x ∈ p.cursors above)
    (hq : q ∈ x.here.children) : ⟨q, x.path⟩ ∈ p.cursors above := by
  induction p using Place.ind generalizing above with
  | h p ih =>
    rcases mem_cursors.1 h with rfl | ⟨r, hr, hx⟩
    · exact mem_cursors.2 (.inr ⟨q, hq, self_mem_cursors _ q⟩)
    · exact mem_cursors.2 (.inr ⟨r, hr, ih r hr hx⟩)

/-- **Blocks of numbers.** A place whose number is among those of the tree at a place before it lies
below that place. -/
theorem mem_above_of_lt_stop {x y : Cursor} {above : List Place} {p : Place}
    (hx : x ∈ p.cursors above) (hy : y ∈ p.cursors above) (hlt : x.here.number < y.here.number)
    (hstop : y.here.number < x.here.stop) : x.here ∈ y.above := by
  induction p using Place.ind generalizing above with
  | h p ih =>
    rcases mem_cursors.1 hy with rfl | ⟨r, hr, hyr⟩
    · exact absurd hlt (Nat.not_lt.2 (bounds_of_mem_cursors hx).1)
    · rcases mem_cursors.1 hx with rfl | ⟨q, hq, hxq⟩
      · exact (suffix_above_of_mem_cursors hyr).subset List.mem_cons_self
      · have hxbounds := bounds_of_mem_cursors hxq
        have hybounds := bounds_of_mem_cursors hyr
        have hynumber := y.here.number_lt_stop
        rcases eq_or_apart_of_mem_children hq hr with rfl | hqr | hrq
        · exact ih q hq hxq hyr
        · omega
        · omega

/-- What is above a tree matters for its places only in so far as it is above them. -/
theorem map_cursors_congr {above above' : List Place}
    (h : above.map number = above'.map number) (p : Place) :
    (p.cursors above).map (fun x => (x.here, x.above.map number)) =
      (p.cursors above').map fun x => (x.here, x.above.map number) := by
  induction p using Place.ind generalizing above above' with
  | h p ih =>
    have hnext : (p :: above).map number = (p :: above').map number := by
      rw [List.map_cons, List.map_cons, h]
    rw [cursors_eq, cursors_eq, List.map_cons, List.map_cons, List.map_flatMap, List.map_flatMap, h,
      List.flatMap_congr fun q hq => ih q hq hnext]

end Place

namespace Node

/-! ### The places of several trees -/

theorem countAll_append (ns ns' : List Node) :
    countAll (ns ++ ns') = countAll ns + countAll ns' := by
  induction ns with
  | nil => simp [countAll]
  | cons n ns ih => rw [List.cons_append, countAll, countAll, ih, Nat.add_assoc]

theorem cursorsOf_append (m : Nat) (above : List Place) (ns ns' : List Node) :
    cursorsOf m above (ns ++ ns') =
      cursorsOf m above ns ++ cursorsOf (m + countAll ns) above ns' := by
  induction ns generalizing m with
  | nil => rfl
  | cons n ns ih =>
    rw [List.cons_append, cursorsOf, cursorsOf, countAll, ih, List.append_assoc, Nat.add_assoc]

theorem length_cursorsOf (m : Nat) (above : List Place) (ns : List Node) :
    (cursorsOf m above ns).length = countAll ns := by
  induction ns generalizing m with
  | nil => rfl
  | cons n ns ih =>
    have hfirst : (cursorsFrom m above n).length = n.count := Place.length_cursors above ⟨m, n⟩
    rw [cursorsOf, List.length_append, ih, countAll, hfirst]

/-! ### The places of a whole tree -/

theorem cursors_eq (root : Node) : root.cursors = Place.cursors [] ⟨0, root⟩ := rfl

/-- The place with number `i` stands at index `i`. -/
theorem getElem?_cursors_iff {root : Node} {i : Nat} {x : Cursor} :
    root.cursors[i]? = some x ↔ x ∈ Place.cursors [] ⟨0, root⟩ ∧ x.here.number = i := by
  have hnumbers : root.cursors.map (fun x => x.here.number) = List.range' 0 root.count :=
    Place.map_number_cursors [] ⟨0, root⟩
  have hat {j : Nat} {y : Cursor} (hy : root.cursors[j]? = some y) : y.here.number = j := by
    have hj : (root.cursors.map fun x => x.here.number)[j]? = some y.here.number := by
      rw [List.getElem?_map, hy, Option.map_some]
    rw [hnumbers, List.getElem?_eq_some_iff] at hj
    obtain ⟨hlt, hj⟩ := hj
    simpa using hj.symm
  refine ⟨fun h => ⟨List.mem_of_getElem? h, hat h⟩, fun ⟨h, hi⟩ => ?_⟩
  obtain ⟨j, hj⟩ := List.mem_iff_getElem?.1 h
  rw [← hi, hat hj]
  exact hj

/-- The places below the root do not depend on what the root is. -/
theorem map_tail_cursors_congr {root root' : Node} (h : root.children = root'.children) :
    root.cursors.tail.map (fun x => (x.here, x.above.map Place.number)) =
      root'.cursors.tail.map fun x => (x.here, x.above.map Place.number) := by
  have hplaces : Place.children ⟨0, root⟩ = Place.children ⟨0, root'⟩ :=
    congrArg (Place.siblings 1) h
  have hnumbers : [Place.mk 0 root].map Place.number = [Place.mk 0 root'].map Place.number := rfl
  rw [cursors_eq, cursors_eq, Place.cursors_eq, Place.cursors_eq, List.tail_cons, List.tail_cons,
    hplaces, List.map_flatMap, List.map_flatMap]
  exact List.flatMap_congr fun q _ => Place.map_cursors_congr hnumbers q

theorem getElem?_cursors_zero (root : Node) : root.cursors[0]? = some ⟨⟨0, root⟩, []⟩ := by
  rw [cursors_eq, Place.cursors_eq, List.getElem?_cons_zero]

/-- Induction over the places of a tree from the root down. -/
theorem down {root : Node} {P : Cursor → Prop} (hroot : P ⟨⟨0, root⟩, []⟩)
    (hchild : ∀ x ∈ root.cursors, ∀ q ∈ x.here.children, P x → P ⟨q, x.path⟩) {x : Cursor}
    (hx : x ∈ root.cursors) : P x := by
  obtain ⟨here, above⟩ := x
  rw [cursors_eq] at hx
  induction above generalizing here with
  | nil =>
    rcases Place.mem_cursors_cases hx with hx | ⟨q, rest, habove, -⟩
    · rw [hx]
      exact hroot
    · cases habove
  | cons q above ih =>
    rcases Place.mem_cursors_cases hx with hx | ⟨r, rest, habove, hr, hmem⟩
    · cases hx
    · cases habove
      exact hchild ⟨q, above⟩ hr here hmem (ih q hr)

theorem getLast?_path {root : Node} {x : Cursor} (h : x ∈ root.cursors) :
    x.path.getLast? = some ⟨0, root⟩ := by
  rw [cursors_eq] at h
  obtain ⟨below, hpath⟩ := Place.suffix_path_of_mem_cursors h
  rw [← hpath, List.getLast?_append_cons]
  rfl

/-- Every place on the way up from a place is one of the whole tree, and the place is one of the tree
there. -/
theorem mem_cursors_and_of_suffix {root : Node} {x : Cursor} (h : x ∈ root.cursors) {p : Place}
    {above : List Place} (hsuffix : p :: above <:+ x.path) :
    ⟨p, above⟩ ∈ root.cursors ∧ x ∈ p.cursors above := by
  refine down (P := fun x => p :: above <:+ x.path → ⟨p, above⟩ ∈ root.cursors ∧
    x ∈ p.cursors above) ?_ ?_ h hsuffix
  · intro hsuffix
    rcases List.suffix_cons_iff.1 hsuffix with heq | hnil
    · cases heq
      exact ⟨Place.self_mem_cursors [] _, Place.self_mem_cursors [] _⟩
    · exact absurd (List.suffix_nil.1 hnil) (List.cons_ne_nil p above)
  · intro x hx q hq ih hsuffix
    rcases List.suffix_cons_iff.1 hsuffix with heq | hrest
    · cases heq
      exact ⟨Place.child_mem_cursors (p := ⟨0, root⟩) hx hq, Place.self_mem_cursors _ _⟩
    · obtain ⟨hp, hx⟩ := ih hrest
      exact ⟨hp, Place.child_mem_cursors hx hq⟩

theorem mem_cursors_of_suffix {root : Node} {x : Cursor} (h : x ∈ root.cursors) {p : Place}
    {above : List Place} (hsuffix : p :: above <:+ x.path) : ⟨p, above⟩ ∈ root.cursors :=
  (mem_cursors_and_of_suffix h hsuffix).1

/-- The children of a place of a tree are places of that tree. -/
theorem child_mem_cursors {root : Node} {p q : Place} {above : List Place}
    (hp : ⟨p, above⟩ ∈ root.cursors) (hq : q ∈ p.children) : ⟨q, p :: above⟩ ∈ root.cursors :=
  Place.child_mem_cursors (p := ⟨0, root⟩) hp hq

/-- The places of the tree at a place are places of the whole tree. -/
theorem cursors_subset {root : Node} {p : Place} {above : List Place}
    (hp : ⟨p, above⟩ ∈ root.cursors) : p.cursors above ⊆ root.cursors := by
  induction p using Place.ind generalizing above with
  | h p ih =>
    intro y hy
    rcases Place.mem_cursors.1 hy with rfl | ⟨q, hq, hy⟩
    · exact hp
    · exact ih q hq (child_mem_cursors hp hq) hy

/-- A number is that of one place. -/
theorem eq_of_number_eq {root : Node} {x y : Cursor} (hx : x ∈ root.cursors)
    (hy : y ∈ root.cursors) (h : x.here.number = y.here.number) : x = y := by
  have hat := getElem?_cursors_iff.2 ⟨hx, h⟩
  rw [getElem?_cursors_iff.2 ⟨hy, rfl⟩] at hat
  exact (Option.some.inj hat).symm

theorem exists_cursor_of_mem_path {root : Node} {x : Cursor} (h : x ∈ root.cursors) :
    ∀ p ∈ x.path, ∃ above, ⟨p, above⟩ ∈ root.cursors := by
  intro p hp
  obtain ⟨below, above, hpath⟩ := List.append_of_mem hp
  exact ⟨above, mem_cursors_of_suffix h (hpath ▸ List.suffix_append below (p :: above))⟩

/-- The child in a slot is among the children. -/
theorem mem_children_of_child? {n c : Node} {slot : Option Slot} (h : n.child? slot = some c) :
    c ∈ n.children := by
  obtain ⟨i, -, hi⟩ := Option.bind_eq_some_iff.1 h
  exact List.mem_of_getElem? hi

/-- The place above a place of a tree is one of that tree. -/
theorem parent?_mem_cursors {root : Node} {x y : Cursor} (hx : x ∈ root.cursors)
    (h : x.parent? = some y) : y ∈ root.cursors := by
  obtain ⟨here, above⟩ := x
  cases above with
  | nil => cases h
  | cons p above =>
    obtain rfl := Option.some.inj h
    exact mem_cursors_of_suffix hx (List.suffix_cons here (p :: above))

/-- A place is a child of the place above it. -/
theorem here_mem_children_of_parent? {root : Node} {x y : Cursor} (hx : x ∈ root.cursors)
    (h : x.parent? = some y) : x.here ∈ y.here.children := by
  rcases Place.mem_cursors_cases (p := ⟨0, root⟩) hx with rfl | ⟨q, rest, habove, -, hmem⟩
  · cases h
  · rw [Cursor.parent?, habove, Option.some.injEq] at h
    rw [← h]
    exact hmem

/-- A child of a place of a tree has a place in that tree. -/
theorem exists_cursor_of_mem_children {root : Node} {x : Cursor} (hx : x ∈ root.cursors) {n : Node}
    (h : n ∈ x.node.children) : ∃ q ∈ x.here.children, q.node = n ∧ ⟨q, x.path⟩ ∈ root.cursors := by
  obtain ⟨q, hq, rfl⟩ := Place.exists_mem_children h
  exact ⟨q, hq, rfl, child_mem_cursors hx hq⟩

/-! ### Looking for a place -/

theorem seek_eq (offset : Nat) (best : Cursor) (above : List Place) (p : Place) :
    seek offset best p.number above p.node =
      seekAll offset (if p.node.span.len ≤ best.span.len then ⟨p, above⟩ else best) (p.number + 1)
        (p :: above) p.node.children := by
  obtain ⟨i, t, k, s, cs⟩ := p
  rw [seek]
  rfl

theorem seekAll_cases {offset : Nat} {above : List Place} {m : Nat} {ns : List Node}
    (h : ∀ q ∈ Place.siblings m ns, ∀ best, seek offset best q.number above q.node = best ∨
      seek offset best q.number above q.node ∈ q.cursors above) (best : Cursor) :
    seekAll offset best m above ns = best ∨
      ∃ q ∈ Place.siblings m ns, seekAll offset best m above ns ∈ q.cursors above := by
  induction ns generalizing m best with
  | nil => exact .inl rfl
  | cons n ns ih =>
    rw [Place.siblings, List.forall_mem_cons] at h
    rw [seekAll, Place.siblings]
    rcases ih h.2 (if n.span.contains offset then seek offset best m above n else best) with
      hbest | ⟨q, hq, hmem⟩
    · rw [hbest]
      split
      · rcases h.1 best with hsame | hfound
        · exact .inl hsame
        · exact .inr ⟨_, List.mem_cons_self, hfound⟩
      · exact .inl rfl
    · exact .inr ⟨q, List.mem_cons_of_mem _ hq, hmem⟩

/-- The search comes back with the best place so far or with a place of the tree. -/
theorem seek_cases (offset : Nat) (p : Place) (best : Cursor) (above : List Place) :
    seek offset best p.number above p.node = best ∨
      seek offset best p.number above p.node ∈ p.cursors above := by
  induction p using Place.ind generalizing best above with
  | h p ih =>
    rw [seek_eq]
    rcases seekAll_cases (fun q hq best => ih q hq best (p :: above))
      (if p.node.span.len ≤ best.span.len then ⟨p, above⟩ else best) with hbest | ⟨q, hq, hmem⟩
    · rw [hbest]
      split
      · exact .inr (Place.self_mem_cursors above p)
      · exact .inl rfl
    · exact .inr (Place.mem_cursors.2 (.inr ⟨q, hq, hmem⟩))

theorem contains_seekAll {offset : Nat} {above : List Place} {m : Nat} {ns : List Node}
    (h : ∀ q ∈ Place.siblings m ns, q.node.span.contains offset → ∀ best : Cursor,
      (∀ r ∈ best.path, r.node.span.contains offset) →
      ∀ r ∈ (seek offset best q.number above q.node).path, r.node.span.contains offset)
    {best : Cursor} (hbest : ∀ r ∈ best.path, r.node.span.contains offset) :
    ∀ r ∈ (seekAll offset best m above ns).path, r.node.span.contains offset := by
  induction ns generalizing m best with
  | nil => exact hbest
  | cons n ns ih =>
    rw [Place.siblings, List.forall_mem_cons] at h
    rw [seekAll]
    refine ih h.2 ?_
    split
    · next hn => exact h.1 hn best hbest
    · exact hbest

/-- The search only goes where the offset is. -/
theorem contains_seek {offset : Nat} {p : Place} {best : Cursor} {above : List Place}
    (hbest : ∀ r ∈ best.path, r.node.span.contains offset)
    (hpath : ∀ r ∈ p :: above, r.node.span.contains offset) :
    ∀ r ∈ (seek offset best p.number above p.node).path, r.node.span.contains offset := by
  induction p using Place.ind generalizing best above with
  | h p ih =>
    rw [seek_eq]
    refine contains_seekAll (fun q hq hcontains best hbest =>
      ih q hq hbest (List.forall_mem_cons.2 ⟨hcontains, hpath⟩)) ?_
    split
    · exact hpath
    · exact hbest

/-- The place that is found is one of the tree. -/
theorem cursorAt_mem_cursors (root : Node) (offset : Nat) :
    root.cursorAt offset ∈ root.cursors := by
  rcases seek_cases (min offset root.span.stop) ⟨0, root⟩ ⟨⟨0, root⟩, []⟩ [] with h | h
  · rw [cursorAt, h]
    exact Place.self_mem_cursors [] _
  · exact h

/-- The place that is found, and all above it, contain the offset, or the end of the tree if the
offset lies behind it. -/
theorem contains_cursorAt {root : Node} {offset : Nat}
    (hroot : root.span.contains (min offset root.span.stop)) :
    ∀ r ∈ (root.cursorAt offset).path, r.node.span.contains (min offset root.span.stop) := by
  have hpath : ∀ r ∈ [Place.mk 0 root], r.node.span.contains (min offset root.span.stop) := by
    intro r hr
    obtain rfl := List.mem_singleton.1 hr
    exact hroot
  exact contains_seek (p := ⟨0, root⟩) hpath hpath

end Node

end RubyLens
