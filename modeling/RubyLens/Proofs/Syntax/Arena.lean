import Mathlib.Logic.Relation
import RubyLens.Proofs.Syntax.Sites

/-!
Syntax trees as a list of entries in pre-order, in which the nodes refer to one another by number.
The list is put together by a walk over the concrete tree with an explicit stack (`Entry.walk`).

* `Entry.walked`: the walk adds to the entries it has those of what the tree on top of the stack
  turns into, and their numbers to the children of their parent (`Entry.extend`).
* `Node.preOrder_arena`: the numbers in the entries agree with one another (`Entry.PreOrder`). The
  entries below an entry are a block right behind it (`Node.descends_iff`).
* `Concrete.Owned.parent_iff`: the parent of an entry is the innermost node with a name above.

Main statement: `Entry.ofConcrete_lists_kept`.
-/

namespace RubyLens

/-- What the list of a tree's nodes says about one of them: its parent and its children are given by
their numbers. -/
structure Entry where
  typeName : String
  span : Span
  parent : Option Nat
  children : List Nat
deriving DecidableEq, Repr

def Cursor.entry (x : Cursor) : Entry where
  typeName := x.node.typeName
  span := x.span
  parent := x.above.head?.map Place.number
  children := x.here.children.map Place.number

/-- The nodes of a tree in pre-order. -/
def Node.arena (root : Node) : List Entry := root.cursors.map Cursor.entry

namespace Entry

/-! ### The walk -/

/-- How many entries can have a number of their own. Numbers have 32 bits. -/
def capacity : Nat := 0x100000000

/-- The number of the next entry. -/
def nextNumber (entries : List Entry) : Nat := min entries.length (capacity - 1)

/-- Some entries get a parent, if there is one. -/
def adopt (owner : Option Nat) (numbers : List Nat) (entries : List Entry) : List Entry :=
  match owner with
  | none => entries
  | some p => entries.modify p fun e => { e with children := e.children ++ numbers }

/-- Puts some trees on top of a stack, the first one on top. -/
def push (owner : Option Nat) (cs : List Concrete) (stack : List (Concrete × Option Nat)) :
    List (Concrete × Option Nat) := cs.map (fun c => (c, owner)) ++ stack

theorem sizeAll_push (owner : Option Nat) (cs : List Concrete)
    (stack : List (Concrete × Option Nat)) :
    Concrete.sizeAll ((push owner cs stack).map Prod.fst) =
      Concrete.sizeAll cs + Concrete.sizeAll (stack.map Prod.fst) := by
  induction cs with
  | nil => exact (Nat.zero_add _).symm
  | cons c cs ih =>
    have hpush : push owner (c :: cs) stack = (c, owner) :: push owner cs stack := rfl
    rw [hpush, List.map_cons, Concrete.sizeAll, ih, Concrete.sizeAll, Nat.add_assoc]

/-- Walks over the concrete trees on a stack, each of which comes with the number of the entry that
its nodes belong to. -/
def walk : List (Concrete × Option Nat) → List Entry → List Entry
  | [], entries => entries
  | (.node l cs, owner) :: stack, entries =>
    if l.missing then walk stack entries
    else if l.named then
      let number := nextNumber entries
      walk (push (some number) cs stack)
        (adopt owner [number] (entries ++ [⟨l.typeName, l.span, owner, []⟩]))
    else walk (push owner cs stack) entries
termination_by stack => Concrete.sizeAll (stack.map Prod.fst)
decreasing_by
  all_goals simp only [sizeAll_push, List.map_cons, Concrete.sizeAll, Concrete.size]; omega

/-- The entries of a text with a concrete tree. The first one always spans the whole text. -/
def ofConcrete (source : Text) (c : Concrete) : List Entry :=
  (walk [(c, none)] []).modifyHead fun e => { e with span := ⟨0, Text.size source⟩ }

/-! ### What the walk does -/

theorem adopt_nil (owner : Option Nat) (entries : List Entry) : adopt owner [] entries = entries := by
  cases owner with
  | none => rfl
  | some p =>
    simp only [adopt, List.append_nil]
    exact List.modify_id p entries

theorem adopt_adopt (owner : Option Nat) (xs ys : List Nat) (entries : List Entry) :
    adopt owner ys (adopt owner xs entries) = adopt owner (xs ++ ys) entries := by
  cases owner with
  | none => rfl
  | some p =>
    simp only [adopt, List.modify_modify_eq]
    congr 1
    funext e
    simp

@[simp] theorem length_adopt (owner : Option Nat) (numbers : List Nat) (entries : List Entry) :
    (adopt owner numbers entries).length = entries.length := by
  cases owner with
  | none => rfl
  | some p => exact List.length_modify _ _ _

/-- Entries behind the parent do not stand in its way. -/
theorem adopt_append {owner : Option Nat} {entries : List Entry}
    (h : ∀ p ∈ owner, p < entries.length) (numbers : List Nat) (more : List Entry) :
    adopt owner numbers (entries ++ more) = adopt owner numbers entries ++ more := by
  cases owner with
  | none => rfl
  | some p =>
    have hp : p < entries.length := h p rfl
    have hp' : p < (entries ++ more).length := by rw [List.length_append]; omega
    simp only [adopt]
    rw [List.modify_eq_take_cons_drop hp, List.modify_eq_take_cons_drop hp',
      List.take_append_of_le_length (Nat.le_of_lt hp), List.drop_append_of_le_length hp,
      List.getElem_append_left hp, List.append_assoc, List.cons_append]

theorem adopt_last {n : Nat} {entries : List Entry} (h : entries.length = n) (e : Entry)
    (numbers : List Nat) :
    adopt (some n) numbers (entries ++ [e]) =
      entries ++ [{ e with children := e.children ++ numbers }] := by
  subst h
  rw [adopt, List.modify_eq_take_cons_drop (by simp)]
  simp

/-- Entries, and behind them those of some trees, which lie below `above`. -/
def extend (above : List Place) (entries : List Entry) (ns : List Node) : List Entry :=
  adopt (above.head?.map Place.number) ((Place.siblings entries.length ns).map Place.number)
      entries ++
    (Node.cursorsOf entries.length above ns).map Cursor.entry

/-- The parent of what is added is among the entries. -/
def Ready (above : List Place) (entries : List Entry) : Prop :=
  ∀ p ∈ above.head?.map Place.number, p < entries.length

@[simp] theorem length_extend (above : List Place) (entries : List Entry) (ns : List Node) :
    (extend above entries ns).length = entries.length + Node.countAll ns := by
  rw [extend, List.length_append, length_adopt, List.length_map, Node.length_cursorsOf]

theorem extend_nil (above : List Place) (entries : List Entry) : extend above entries [] = entries := by
  rw [extend, Place.siblings, List.map_nil, adopt_nil]
  exact List.append_nil entries

theorem extend_append {above : List Place} {entries : List Entry} (h : Ready above entries)
    (ns ns' : List Node) :
    extend above entries (ns ++ ns') = extend above (extend above entries ns) ns' := by
  have hready : ∀ p ∈ above.head?.map Place.number,
      p < (adopt (above.head?.map Place.number)
        ((Place.siblings entries.length ns).map Place.number) entries).length := by
    rw [length_adopt]
    exact h
  have hlength := length_extend above entries ns
  rw [extend, extend, hlength]
  conv_rhs => rw [extend, adopt_append hready, adopt_adopt]
  rw [Place.siblings_append, Node.cursorsOf_append, List.map_append, List.map_append,
    List.append_assoc]

/-- A tree is its root, which its parent takes as a child, and then the trees of its children. -/
theorem extend_singleton {above : List Place} {entries : List Entry} (h : Ready above entries)
    (t : Node) :
    extend above entries [t] =
      extend (⟨entries.length, t⟩ :: above)
        (adopt (above.head?.map Place.number) [entries.length]
          (entries ++ [⟨t.typeName, t.span, above.head?.map Place.number, []⟩])) t.children := by
  have hbase := length_adopt (above.head?.map Place.number) [entries.length] entries
  have hcursors : Node.cursorsOf entries.length above [t] =
      ⟨⟨entries.length, t⟩, above⟩ ::
        Node.cursorsOf (entries.length + 1) (⟨entries.length, t⟩ :: above) t.children := by
    obtain ⟨ty, k, s, cs⟩ := t
    rw [Node.cursorsOf, Node.cursorsOf, List.append_nil]
    rfl
  rw [adopt_append h, extend, extend, hcursors, Place.siblings, Place.siblings, List.length_append,
    hbase, List.length_singleton, List.head?_cons, Option.map_some, adopt_last hbase]
  simp only [List.map_cons, List.map_nil, List.nil_append, List.append_assoc, List.cons_append]
  rfl

theorem Ready.cons {p : Place} {above : List Place} {entries : List Entry}
    (h : p.number < entries.length) : Ready (p :: above) entries := by
  intro q hq
  obtain rfl : p.number = q := Option.some.inj hq
  exact h

theorem Ready.extend {above : List Place} {entries : List Entry} (h : Ready above entries)
    (ns : List Node) : Ready above (extend above entries ns) := by
  intro p hp
  have := h p hp
  rw [length_extend]
  omega

/-- With `c` on top of the stack, the walk adds the entries of what `c` turns into. -/
def Walked (c : Concrete) : Prop :=
  ∀ siblings above stack entries, Ready above entries →
    entries.length + Node.countAll (Node.ofConcrete siblings c) < capacity →
    walk ((c, above.head?.map Place.number) :: stack) entries =
      walk stack (extend above entries (Node.ofConcrete siblings c))

theorem walk_push {cs : List Concrete} (h : ∀ c ∈ cs, Walked c) (siblings : List Concrete)
    (above : List Place) (stack : List (Concrete × Option Nat)) {entries : List Entry}
    (hready : Ready above entries)
    (hfit : entries.length + Node.countAll (Node.ofConcretes siblings cs) < capacity) :
    walk (push (above.head?.map Place.number) cs stack) entries =
      walk stack (extend above entries (Node.ofConcretes siblings cs)) := by
  induction cs generalizing entries with
  | nil =>
    rw [Node.ofConcretes, extend_nil]
    rfl
  | cons c cs ih =>
    rw [List.forall_mem_cons] at h
    rw [Node.ofConcretes, Node.countAll_append] at hfit
    have hfirst := h.1 siblings above (push (above.head?.map Place.number) cs stack) entries hready
      (by omega)
    have hrest := ih h.2 (hready.extend (Node.ofConcrete siblings c)) (by rw [length_extend]; omega)
    rw [Node.ofConcretes, extend_append hready, ← hrest, ← hfirst]
    rfl

/-- **One tree.** The walk adds the entries of what the tree on top of the stack turns into. -/
theorem walked (c : Concrete) : Walked c := by
  induction c using Concrete.ind with
  | h l cs ih =>
    intro siblings above stack entries hready hfit
    rw [Node.ofConcrete] at hfit ⊢
    rw [walk]
    by_cases hm : l.missing = true
    · rw [if_pos hm, if_pos hm, extend_nil]
    · rw [if_neg hm] at hfit ⊢
      rw [if_neg hm]
      by_cases hn : l.named = true
      · -- the node gets an entry, and what is below belongs to that entry
        rw [if_pos hn] at hfit ⊢
        rw [if_pos hn]
        rw [Node.countAll, Node.count, Node.countAll] at hfit
        have hnumber : nextNumber entries = entries.length := Nat.min_eq_left (by omega)
        have hlength := length_adopt (above.head?.map Place.number) [entries.length]
          (entries ++ [⟨l.typeName, l.span, above.head?.map Place.number, []⟩])
        rw [List.length_append, List.length_singleton] at hlength
        rw [extend_singleton hready]
        simp only [hnumber]
        exact walk_push ih cs (⟨entries.length, _⟩ :: above) stack
          (Ready.cons (Nat.lt_of_lt_of_eq (Nat.lt_succ_self _) hlength.symm))
          (by rw [hlength]; omega)
      · -- no entry: what is below belongs to the entry that the node belongs to
        rw [if_neg hn] at hfit ⊢
        rw [if_neg hn]
        exact walk_push ih cs above stack hready hfit

/-! ### Entries that refer to one another -/

/-- The first entry stands somewhere below the second one. -/
def Descends (entries : List Entry) : Nat → Nat → Prop :=
  Relation.TransGen fun j i => ∃ e, entries[j]? = some e ∧ e.parent = some i

/-- The numbers in some entries are those of a tree in pre-order. -/
structure PreOrder (entries : List Entry) : Prop where
  /-- Parents and children agree. -/
  mem_children_iff : ∀ {i} {e : Entry}, entries[i]? = some e →
    ∀ j, j ∈ e.children ↔ ∃ e' : Entry, entries[j]? = some e' ∧ e'.parent = some i
  increasing : ∀ e ∈ entries, e.children.Pairwise (· < ·)
  parent_lt : ∀ {j} {e : Entry}, entries[j]? = some e → ∀ i ∈ e.parent, i < j
  /-- All that is below an entry comes right behind it. -/
  block : ∀ i < entries.length, ∃ stop, ∀ j, Descends entries j i ↔ i < j ∧ j < stop

end Entry

namespace Node

open Entry (Descends PreOrder)

section Arena

variable {root : Node} {i j : Nat} {x y : Cursor}

theorem getElem?_arena {e : Entry} :
    root.arena[i]? = some e ↔ ∃ x, root.cursors[i]? = some x ∧ x.entry = e := by
  rw [arena, List.getElem?_map, Option.map_eq_some_iff]

theorem exists_parent (hy : root.cursors[j]? = some y) (h : y.entry.parent = some i) :
    ∃ x, root.cursors[i]? = some x ∧ y.here ∈ x.here.children := by
  rcases Place.mem_cursors_cases (getElem?_cursors_iff.1 hy).1 with rfl | ⟨q, rest, habove, hq, hmem⟩
  · cases h
  · have hi : q.number = i := by
      rw [Cursor.entry, habove] at h
      exact Option.some.inj h
    exact ⟨⟨q, rest⟩, getElem?_cursors_iff.2 ⟨hq, hi⟩, hmem⟩

theorem exists_child (hx : root.cursors[i]? = some x) {q : Place} (hq : q ∈ x.here.children) :
    ∃ y, root.cursors[q.number]? = some y ∧ y.here = q ∧ y.entry.parent = some i := by
  obtain ⟨hmem, rfl⟩ := getElem?_cursors_iff.1 hx
  exact ⟨⟨q, x.path⟩, getElem?_cursors_iff.2 ⟨Place.child_mem_cursors hmem hq, rfl⟩, rfl, rfl⟩

theorem here_mem_children (hx : root.cursors[i]? = some x) (hy : root.cursors[j]? = some y)
    (h : y.entry.parent = some i) : y.here ∈ x.here.children := by
  obtain ⟨x', hx', hmem⟩ := exists_parent hy h
  rw [hx, Option.some.injEq] at hx'
  rw [hx']
  exact hmem

theorem mem_children_iff (hx : root.cursors[i]? = some x) (j : Nat) :
    j ∈ x.entry.children ↔ ∃ e, root.arena[j]? = some e ∧ e.parent = some i := by
  constructor
  · intro h
    obtain ⟨q, hq, rfl⟩ := List.mem_map.1 h
    obtain ⟨y, hy, -, hparent⟩ := exists_child hx hq
    exact ⟨y.entry, getElem?_arena.2 ⟨y, hy, rfl⟩, hparent⟩
  · rintro ⟨e, he, hparent⟩
    obtain ⟨y, hy, rfl⟩ := getElem?_arena.1 he
    exact List.mem_map.2
      ⟨y.here, here_mem_children hx hy hparent, (getElem?_cursors_iff.1 hy).2⟩

theorem parent_lt (hy : root.cursors[j]? = some y) (h : y.entry.parent = some i) : i < j := by
  obtain ⟨x, hx, hmem⟩ := exists_parent hy h
  rw [← (getElem?_cursors_iff.1 hx).2, ← (getElem?_cursors_iff.1 hy).2]
  exact (Place.bounds_of_mem_children hmem).1

theorem increasing_children (x : Cursor) : x.entry.children.Pairwise (· < ·) := by
  refine List.pairwise_map.2 ((Place.pairwise_siblings _ _).imp fun {a b} h => ?_)
  exact Nat.lt_of_lt_of_le a.number_lt_stop h

/-- What is below a place has its numbers among those of the tree at that place. -/
theorem bounds_of_descends (hx : root.cursors[i]? = some x) (h : Descends root.arena j i) :
    ∃ y, root.cursors[j]? = some y ∧ i < j ∧ y.here.stop ≤ x.here.stop := by
  have hstep {j i : Nat} {x : Cursor} (hx : root.cursors[i]? = some x)
      (h : ∃ e, root.arena[j]? = some e ∧ e.parent = some i) :
      ∃ y, root.cursors[j]? = some y ∧ i < j ∧ y.here.stop ≤ x.here.stop := by
    obtain ⟨e, he, hparent⟩ := h
    obtain ⟨y, hy, rfl⟩ := getElem?_arena.1 he
    have hmem := here_mem_children hx hy hparent
    exact ⟨y, hy, parent_lt hy hparent, (Place.bounds_of_mem_children hmem).2⟩
  induction h using Relation.TransGen.head_induction_on with
  | single h => exact hstep hx h
  | head h _ ih =>
    obtain ⟨z, hz, hlt, hstop⟩ := ih
    obtain ⟨y, hy, hlt', hstop'⟩ := hstep hz h
    exact ⟨y, hy, Nat.lt_trans hlt hlt', Nat.le_trans hstop' hstop⟩

theorem descends_of_mem_above (hy : y ∈ root.cursors) :
    ∀ p ∈ y.above, Descends root.arena y.here.number p.number := by
  refine down (P := fun y => ∀ p ∈ y.above, Descends root.arena y.here.number p.number) ?_ ?_ hy
  · exact List.forall_mem_nil _
  · intro x hx q hq ih p hp
    obtain ⟨y, hy, rfl, hparent⟩ := exists_child (getElem?_cursors_iff.2 ⟨hx, rfl⟩) hq
    have hstep : Descends root.arena y.here.number x.here.number :=
      Relation.TransGen.single ⟨y.entry, getElem?_arena.2 ⟨y, hy, rfl⟩, hparent⟩
    rcases List.mem_cons.1 hp with rfl | hp
    · exact hstep
    · exact hstep.trans (ih p hp)

/-- **Blocks.** What is below the place with number `i` has the numbers right behind `i`. -/
theorem descends_iff (hx : root.cursors[i]? = some x) :
    Descends root.arena j i ↔ i < j ∧ j < x.here.stop := by
  obtain ⟨hmem, hi⟩ := getElem?_cursors_iff.1 hx
  constructor
  · intro h
    obtain ⟨y, hy, hlt, hstop⟩ := bounds_of_descends hx h
    have hj := (getElem?_cursors_iff.1 hy).2
    have := y.here.number_lt_stop
    omega
  · rintro ⟨hlt, hstop⟩
    have hroot : x.here.stop ≤ 0 + root.count := (Place.bounds_of_mem_cursors hmem).2
    have hlength : root.cursors.length = root.count := Place.length_cursors [] ⟨0, root⟩
    obtain ⟨y, hy⟩ : ∃ y, root.cursors[j]? = some y :=
      ⟨_, List.getElem?_eq_getElem (by omega)⟩
    obtain ⟨hymem, hj⟩ := getElem?_cursors_iff.1 hy
    have habove := Place.mem_above_of_lt_stop hmem hymem (by omega) (by omega)
    rw [← hi, ← hj]
    exact descends_of_mem_above hymem x.here habove

theorem preOrder_arena (root : Node) : PreOrder root.arena where
  mem_children_iff := by
    intro i e he j
    obtain ⟨x, hx, rfl⟩ := getElem?_arena.1 he
    exact mem_children_iff hx j
  increasing := by
    intro e he
    obtain ⟨x, -, rfl⟩ := List.mem_map.1 he
    exact increasing_children x
  parent_lt := by
    intro j e he i hi
    obtain ⟨y, hy, rfl⟩ := getElem?_arena.1 he
    exact parent_lt hy hi
  block := by
    intro i hi
    rw [arena, List.length_map] at hi
    exact ⟨_, fun j => descends_iff (List.getElem?_eq_getElem hi)⟩

end Arena

end Node

namespace Concrete

/-! ### The entries of a concrete tree -/

theorem length_kept_le (c : Concrete) : c.kept.length ≤ c.size := by
  have hlength := congrArg List.length (map_number_sitesFrom 0 [] c)
  rw [List.length_map, List.length_range'] at hlength
  rw [← hlength]
  exact List.length_filter_le _ _

/-- No two kept nodes are the same node. -/
theorem index_eq_of_here_eq {c : Concrete} {i j : Nat} {s s' : Site} (hs : c.kept[i]? = some s)
    (hs' : c.kept[j]? = some s') (h : s.here = s'.here) : i = j := by
  have hnodup : (c.kept.map fun s => s.here.number).Nodup := by
    refine List.Nodup.sublist (List.filter_sublist.map _) ?_
    rw [sites, map_number_sitesFrom]
    exact List.nodup_range'
  have hi : i < (c.kept.map fun s => s.here.number).length := by
    rw [List.length_map]
    exact (List.getElem?_eq_some_iff.1 hs).1
  refine (List.getElem?_inj hi hnodup).1 ?_
  rw [List.getElem?_map, List.getElem?_map, hs, hs', Option.map_some, Option.map_some, h]

/-- The parent of an entry is the innermost node with a name above the node it stands for. -/
theorem Owned.parent_iff {c : Concrete} {s : Site} {x : Cursor}
    (h : Owned c.kept s.above (x.above.map Place.number)) (p : Nat) :
    x.entry.parent = some p ↔ ∃ o, c.kept[p]? = some o ∧ s.owner? = some o.here := by
  have hparent : x.entry.parent = (x.above.map Place.number).head? := List.head?_map.symm
  have howner : s.owner? = (s.above.filter fun a => a.label.named).head? := List.head?_filter.symm
  rw [hparent, howner]
  rcases hnumbers : x.above.map Place.number with _ | ⟨n, numbers⟩
  · rw [hnumbers, Owned, List.forall₂_nil_right_iff] at h
    simp [h]
  · rw [hnumbers, Owned, List.forall₂_cons_right_iff] at h
    obtain ⟨a, others, ⟨o, ho, rfl⟩, -, hothers⟩ := h
    rw [hothers, List.head?_cons, List.head?_cons, Option.some.injEq]
    constructor
    · rintro rfl
      exact ⟨o, ho, rfl⟩
    · rintro ⟨o', ho', hsame⟩
      exact index_eq_of_here_eq ho ho' (Option.some.inj hsame)

section Named

variable {c : Concrete}

theorem ofRoot_of_named (source : Text) (hnamed : c.label.named)
    (hpresent : c.label.missing = false) :
    Node.ofRoot source (some c) =
      .mk c.label.typeName .program ⟨0, Text.size source⟩
        (Node.ofConcretes c.children c.children) := by
  rw [Node.ofRoot, Option.toList_some, List.flatMap_singleton, Node.ofConcrete_of_named hpresent hnamed]

theorem getElem?_kept_zero (hnamed : c.label.named) (hpresent : c.label.missing = false) :
    c.kept[0]? = some ⟨⟨0, c⟩, []⟩ := by
  obtain ⟨l, cs⟩ := c
  have hkept : kept (node l cs) = ⟨⟨0, node l cs⟩, []⟩ :: keptOf 1 [⟨0, node l cs⟩] cs :=
    keptFrom_of_named (fun a ha => absurd ha List.not_mem_nil) hpresent hnamed
  rw [hkept, List.getElem?_cons_zero]

end Named

end Concrete

namespace Node

/-! ### The entries of a text -/

theorem entry_root (root : Node) :
    root.arena = ⟨root.typeName, root.span, none, (Place.siblings 1 root.children).map Place.number⟩ ::
      root.arena.tail := by
  rw [arena, cursors_eq, Place.cursors_eq]
  rfl

theorem tail_arena_congr {root root' : Node} (h : root.children = root'.children) :
    root.arena.tail = root'.arena.tail := by
  have hentry : Cursor.entry = (fun y : Place × List Nat =>
      (⟨y.1.node.typeName, y.1.node.span, y.2.head?, y.1.children.map Place.number⟩ : Entry)) ∘
        fun x => (x.here, x.above.map Place.number) := by
    funext x
    simp only [Cursor.entry, Function.comp_apply, List.head?_map]
    rfl
  rw [arena, arena, ← List.map_tail, ← List.map_tail, hentry, ← List.map_map, ← List.map_map,
    map_tail_cursors_congr h]

variable {source : Text} {c : Concrete}

/-- The walk comes to the entries of the tree. -/
theorem ofConcrete_eq_arena (hnamed : c.label.named) (hpresent : c.label.missing = false)
    (hfit : c.size < Entry.capacity) :
    Entry.ofConcrete source c = (ofRoot source (some c)).arena := by
  have hcount : countAll (ofConcrete [] c) ≤ c.size := by
    rw [← length_cursorsOf 0 [], ← c.forall₂_kept.length_eq]
    exact c.length_kept_le
  have hwalk := Entry.walked c [] [] [] [] (fun p hp => by cases hp)
    (by rw [List.length_nil]; omega)
  rw [ofConcrete_of_named hpresent hnamed] at hwalk
  have hentries : Entry.walk [(c, none)] [] = (Concrete.Site.node ⟨⟨0, c⟩, []⟩).arena := by
    refine hwalk.trans ?_
    rw [Entry.walk, Entry.extend, cursorsOf, cursorsOf, List.append_nil]
    rfl
  rw [Entry.ofConcrete, hentries, entry_root, List.modifyHead_cons, entry_root (ofRoot _ _),
    Concrete.ofRoot_of_named source hnamed hpresent]
  exact congrArg₂ List.cons rfl (tail_arena_congr rfl)

/-- An entry says about the kept node at its index what there is to say. -/
theorem describes (hnamed : c.label.named) (hpresent : c.label.missing = false) {i : Nat}
    {s : Concrete.Site} {e : Entry} (hs : c.kept[i]? = some s)
    (he : (ofRoot source (some c)).arena[i]? = some e) :
    e.typeName = s.label.typeName ∧ e.span = (if i = 0 then ⟨0, Text.size source⟩ else s.span) ∧
      ∀ p, e.parent = some p ↔ ∃ o, c.kept[p]? = some o ∧ s.owner? = some o.here := by
  obtain ⟨x, hx, rfl⟩ := getElem?_arena.1 he
  by_cases hi : i = 0
  · rw [hi, Concrete.getElem?_kept_zero hnamed hpresent, Option.some.injEq] at hs
    rw [hi, getElem?_cursors_zero, Option.some.injEq] at hx
    subst hs hx
    rw [if_pos hi]
    refine ⟨?_, span_ofRoot source (some c), Concrete.Owned.parent_iff List.Forall₂.nil⟩
    rw [Concrete.ofRoot_of_named source hnamed hpresent]
    rfl
  · obtain ⟨s', hs', hmatches⟩ := exists_site_ofRoot hi hx
    rw [hs, Option.some.injEq] at hs'
    subst hs'
    rw [if_neg hi]
    exact ⟨congrArg typeName hmatches.node_eq, congrArg span hmatches.node_eq,
      hmatches.owned.parent_iff⟩

theorem length_arena_ofRoot (source : Text) (hnamed : c.label.named)
    (hpresent : c.label.missing = false) :
    (ofRoot source (some c)).arena.length = c.kept.length := by
  have hlength := c.forall₂_kept.length_eq
  rw [length_cursorsOf, ofConcrete_of_named hpresent hnamed] at hlength
  have hcount : (ofRoot source (some c)).cursors.length = (ofRoot source (some c)).count :=
    Place.length_cursors [] ⟨0, _⟩
  rw [arena, List.length_map, hcount, hlength, Concrete.ofRoot_of_named source hnamed hpresent]
  rfl

/-- In a nested tree the span of an entry lies within that of its parent. -/
theorem covers_of_parent (hnested : c.nested)
    (hwhole : Span.covers ⟨0, Text.size source⟩ c.label.span) {i j : Nat} {e e' : Entry}
    (he : (ofRoot source (some c)).arena[i]? = some e)
    (he' : (ofRoot source (some c)).arena[j]? = some e') (hparent : e'.parent = some i) :
    e.span.covers e'.span := by
  obtain ⟨x, hx, rfl⟩ := getElem?_arena.1 he
  obtain ⟨y, hy, rfl⟩ := getElem?_arena.1 he'
  exact covers_of_mem_children_ofRoot hnested hwhole hx (here_mem_children hx hy hparent)

end Node

/-- **The entries of a text.** The walk comes to the nodes of the syntax tree. There is one entry for
each kept node, in the same order, and its parent is the entry of the innermost node with a name
above. The first entry is that of the root and spans the whole text. The numbers in the entries are
those of a tree in pre-order, and spans nest if those of the concrete tree do. -/
theorem Entry.ofConcrete_lists_kept (source : Text) (c : Concrete) (hnamed : c.label.named)
    (hpresent : c.label.missing = false) (hfit : c.size < capacity) :
    ofConcrete source c = (Node.ofRoot source (some c)).arena ∧
      (ofConcrete source c).length = c.kept.length ∧
      (∀ i s e, c.kept[i]? = some s → (ofConcrete source c)[i]? = some e →
        e.typeName = s.label.typeName ∧
          e.span = (if i = 0 then ⟨0, Text.size source⟩ else s.span) ∧
          ∀ p, e.parent = some p ↔ ∃ o, c.kept[p]? = some o ∧ s.owner? = some o.here) ∧
      (∃ e, (ofConcrete source c)[0]? = some e ∧ e.span = ⟨0, Text.size source⟩ ∧
        e.parent = none) ∧
      PreOrder (ofConcrete source c) ∧
      (c.nested → Span.covers ⟨0, Text.size source⟩ c.label.span →
        ∀ (i j : Nat) (e e' : Entry), (ofConcrete source c)[i]? = some e →
          (ofConcrete source c)[j]? = some e' → e'.parent = some i → e.span.covers e'.span) := by
  rw [Node.ofConcrete_eq_arena hnamed hpresent hfit]
  refine ⟨rfl, Node.length_arena_ofRoot source hnamed hpresent, ?_, ?_, Node.preOrder_arena _, ?_⟩
  · intro i s e hs he
    exact Node.describes hnamed hpresent hs he
  · exact ⟨_, congrArg (·[0]?) (Node.entry_root _), Node.span_ofRoot source (some c), rfl⟩
  · intro hnested hwhole i j e e' he he' hparent
    exact Node.covers_of_parent hnested hwhole he he' hparent

open Concrete (unclosedCall) in
theorem Entry.ofConcrete_lists_kept_unclosedCall :
    let source : Text := ['f', '(', 'a']
    let entries : List Entry :=
      [⟨"program", ⟨0, 3⟩, none, [1]⟩, ⟨"call", ⟨0, 3⟩, some 0, [2, 3]⟩,
        ⟨"identifier", ⟨0, 1⟩, some 1, []⟩, ⟨"argument_list", ⟨1, 3⟩, some 1, [4]⟩,
        ⟨"identifier", ⟨2, 3⟩, some 3, []⟩]
    unclosedCall.label.named ∧ unclosedCall.label.missing = false ∧ unclosedCall.size < capacity ∧
      unclosedCall.nested ∧ Span.covers ⟨0, Text.size source⟩ unclosedCall.label.span ∧
      ofConcrete source unclosedCall = entries ∧ PreOrder entries ∧
      Span.covers ⟨1, 3⟩ ⟨2, 3⟩ := by
  intro source entries
  obtain ⟨harena, -, -, -, horder, hcovers⟩ :=
    ofConcrete_lists_kept source unclosedCall (by decide) (by decide) (by decide)
  have hentries : ofConcrete source unclosedCall = entries := harena.trans (by decide)
  rw [hentries] at horder hcovers
  exact ⟨by decide, by decide, by decide, by decide, by decide, hentries, horder,
    hcovers (by decide) (by decide) 3 4 _ _ rfl rfl rfl⟩

end RubyLens
