import Mathlib.Data.List.Perm.Basic
import Mathlib.Data.List.Sort
import RubyLens.Proofs.Query.Outline

/-!
Where the entries of an outline stand. Each place of the tree adds entries of its own, under the
qualifier of the nearest singleton class above it (`Outline.own`). They stand inside the first entry of
the nearest place above that has entries (`Outline.holder?`), next to one another, and behind those of
places with a lower number.

* `outline_eq_flatMap`: the outline of a tree, told by holders.
* `inside_eq_flatMap`: what stands inside the first entry of a place.
* `perm_flatten_outline`: each entry is there once.

Main statement: `Outline.ranges_placement`.
-/

namespace RubyLens

namespace Cursor

def ancestorsOf : List Place → List Cursor
  | [] => []
  | p :: ps => ⟨p, ps⟩ :: ancestorsOf ps

/-- The places above, innermost first, each with those above it. -/
def ancestors (x : Cursor) : List Cursor := ancestorsOf x.above

theorem ancestors_child (x : Cursor) (q : Place) :
    (⟨q, x.path⟩ : Cursor).ancestors = x :: x.ancestors := rfl

theorem suffix_of_mem_ancestors {x y : Cursor} (h : y ∈ x.ancestors) : y.path <:+ x.above := by
  obtain ⟨here, above⟩ := x
  simp only [ancestors] at h ⊢
  induction above with
  | nil => cases h
  | cons p ps ih =>
    rcases List.mem_cons.1 h with rfl | h
    · exact List.suffix_refl _
    · exact (ih h).trans (List.suffix_cons p ps)

end Cursor

namespace Symbol

variable {α β : Type}

mutual
/-- An entry and those inside it, one by one. -/
def flatten : Symbol α → List (Symbol α)
  | mk n k e s cs => mk n k e s [] :: flattenAll cs

def flattenAll : List (Symbol α) → List (Symbol α)
  | [] => []
  | c :: cs => flatten c ++ flattenAll cs
end

theorem flattenAll_eq (cs : List (Symbol α)) : flattenAll cs = cs.flatMap flatten := by
  induction cs with
  | nil => rfl
  | cons c cs ih => rw [flattenAll, ih, List.flatMap_cons]

theorem flatten_withChildren (cs : List (Symbol α)) (y : Symbol α) :
    (y.withChildren cs).flatten = y.withChildren [] :: cs.flatMap flatten := by
  obtain ⟨n, k, e, s, cs'⟩ := y
  rw [withChildren, withChildren, flatten, flattenAll_eq]

theorem withChildren_of_children {y : Symbol α} (h : y.children = []) : y.withChildren [] = y := by
  obtain ⟨n, k, e, s, cs⟩ := y
  obtain rfl : cs = [] := h
  rfl

theorem flatten_of_children {y : Symbol α} (h : y.children = []) : y.flatten = [y] := by
  obtain ⟨n, k, e, s, cs⟩ := y
  obtain rfl : cs = [] := h
  rfl

theorem flatten_map (f : α → β) (y : Symbol α) : (y.map f).flatten = y.flatten.map (map f) := by
  induction y using ind with
  | h n k e s cs ih =>
    rw [map_mk, flatten, flatten, flattenAll_eq, flattenAll_eq, List.map_cons, map_mk,
      List.flatMap_map, List.map_flatMap, List.flatMap_congr ih]
    rfl

theorem kind_map (f : α → β) (y : Symbol α) : (y.map f).kind = y.kind := by
  obtain ⟨n, k, e, s, cs⟩ := y
  rw [map_mk, kind, kind]

theorem children_map (f : α → β) (y : Symbol α) : (y.map f).children = y.children.map (map f) := by
  obtain ⟨n, k, e, s, cs⟩ := y
  rw [map_mk, children, children]

end Symbol

namespace Outline

variable (s : Source)

/-! ### Entries of places -/

/-- The qualifier that a singleton class sets. -/
def qualifier? (n : Node) : Option Qualifier :=
  match n.kind with
  | .singletonClass c => some (qualifierOf s (n.child? c.head))
  | _ => none

/-- The qualifier of the nearest singleton class above a place. -/
def context (x : Cursor) : Option Qualifier := x.ancestors.findSome? fun y => qualifier? s y.node

/-- What a place itself adds to the outline. -/
def own (x : Cursor) : List (Symbol Span) :=
  entriesFor s (context s x) x.node (x.above.map Place.node)

/-- The nearest place above that adds something to the outline. -/
def holder? (x : Cursor) : Option Cursor := x.ancestors.find? fun y => !(own s y).isEmpty

/-- The number of the holder of a place. -/
def level (x : Cursor) : Option Nat := (holder? s x).map fun y => y.here.number

/-- The places that the place with the given number holds, or those without holder. -/
def heldBy (number : Option Nat) : List Cursor :=
  s.root.cursors.filter fun x => level s x == number

/-- What a place itself adds to the outline, by ranges. -/
def emit (e : Encoding) (x : Cursor) : List (Symbol Range) :=
  (own s x).map (Symbol.map (Text.rangeOf e s.text))

/-- The outline of the tree at a place. -/
def outline (x : Cursor) : List (Symbol Span) :=
  entries s (context s x) (x.above.map Place.node) x.node

/-- What is declared below a place. -/
def inside (x : Cursor) : List (Symbol Span) := below s (context s x) (x.above.map Place.node) x.node

/-- The entries of a place, filled with what is declared below it. -/
def placed (x : Cursor) : List (Symbol Span) :=
  match own s x with
  | [] => []
  | first :: rest => first.withChildren (inside s x) :: rest

theorem qualifierInside_eq (around : Option Qualifier) (n : Node) :
    qualifierInside s around n = (qualifier? s n).or around := by
  unfold qualifierInside qualifier?
  cases n.kind <;> rfl

section Child

variable (x : Cursor) (q : Place)

theorem context_child : context s ⟨q, x.path⟩ = qualifierInside s (context s x) x.node := by
  rw [qualifierInside_eq, context, Cursor.ancestors_child, List.findSome?_cons]
  cases qualifier? s x.node <;> rfl

theorem level_child :
    level s ⟨q, x.path⟩ = if own s x = [] then level s x else some x.here.number := by
  rw [level, holder?, Cursor.ancestors_child, List.find?_cons]
  cases hown : own s x with
  | nil => rfl
  | cons first rest => rfl

end Child

theorem inside_eq (x : Cursor) :
    inside s x = x.here.children.flatMap fun q => outline s ⟨q, x.path⟩ := by
  have hchildren : x.node.children = x.here.children.map Place.node :=
    (Place.map_node_siblings _ _).symm
  rw [inside, below, hchildren, List.flatMap_map]
  refine List.flatMap_congr fun q _ => ?_
  rw [outline, context_child]
  rfl

theorem outline_eq (x : Cursor) :
    outline s x = match own s x with
      | [] => inside s x
      | first :: rest => first.withChildren (inside s x) :: rest :=
  entries_eq s (context s x) (x.above.map Place.node) x.node

/-! ### Entries by their holders -/

/-- Below a place, the holder is that of the place or at least that place. -/
theorem level_cases {p : Place} {above : List Place} {y : Cursor} (hy : y ∈ p.cursors above) :
    level s y = level s ⟨p, above⟩ ∨ ∃ n, level s y = some n ∧ p.number ≤ n := by
  induction p using Place.ind generalizing above with
  | h p ih =>
    rcases Place.mem_cursors.1 hy with rfl | ⟨q, hq, hy⟩
    · exact .inl rfl
    · have hnumber := (Place.bounds_of_mem_children hq).1
      rcases ih q hq hy with hsame | ⟨n, hn, hle⟩
      · rw [hsame]
        have hstep := level_child s ⟨p, above⟩ q
        rw [Cursor.path] at hstep
        rw [hstep]
        split
        · exact .inl rfl
        · exact .inr ⟨p.number, rfl, Nat.le_refl _⟩
      · exact .inr ⟨n, hn, by omega⟩

/-- The holder of a place comes before it. -/
theorem lt_of_level_eq {x : Cursor} (hx : x ∈ s.root.cursors) {n : Nat} (h : level s x = some n) :
    n < x.here.number := by
  refine Node.down (P := fun x => ∀ n, level s x = some n → n < x.here.number) ?_ ?_ hx n h
  · intro n hn
    cases hn
  · intro x hx q hq ih n hn
    have hnumber := (Place.bounds_of_mem_children hq).1
    rw [level_child] at hn
    split at hn
    · exact Nat.lt_trans (ih n hn) hnumber
    · cases hn
      exact hnumber

/-- Below a place with entries, the holder is that place or one further down. -/
theorem exists_level_of_mem_children {x : Cursor} (hown : own s x ≠ []) {q : Place}
    (hq : q ∈ x.here.children) {y : Cursor} (hy : y ∈ q.cursors x.path) :
    ∃ n, level s y = some n ∧ x.here.number ≤ n := by
  have hnumber := (Place.bounds_of_mem_children hq).1
  rcases level_cases s hy with hsame | ⟨n, hn, hle⟩
  · rw [hsame, level_child, if_neg hown]
    exact ⟨_, rfl, Nat.le_refl _⟩
  · exact ⟨n, hn, by omega⟩

/-- What stands inside the first entry of a place, or in its stead if it has none: the entries of the
places below with the same holder. -/
theorem inside_eq_flatMap {x : Cursor} (number : Option Nat)
    (hnumber : number = if own s x = [] then level s x else some x.here.number)
    (h : ∀ q ∈ x.here.children, outline s ⟨q, x.path⟩ =
      ((q.cursors x.path).filter fun y => level s y == level s ⟨q, x.path⟩).flatMap (placed s)) :
    inside s x = ((x.here.children.flatMap (Place.cursors x.path)).filter
      fun y => level s y == number).flatMap (placed s) := by
  rw [inside_eq, List.filter_flatMap, List.flatMap_assoc]
  refine List.flatMap_congr fun q hq => ?_
  rw [h q hq, level_child, hnumber]

/-- **The outline of a tree.** It is made of the entries of all places that have the holder of its
root. -/
theorem outline_eq_flatMap {p : Place} {above : List Place} (hp : ⟨p, above⟩ ∈ s.root.cursors) :
    outline s ⟨p, above⟩ =
      ((p.cursors above).filter fun y => level s y == level s ⟨p, above⟩).flatMap (placed s) := by
  induction p using Place.ind generalizing above with
  | h p ih =>
    have hinside := inside_eq_flatMap s (x := ⟨p, above⟩) _ rfl fun q hq =>
      ih q hq (Place.child_mem_cursors (p := ⟨0, s.root⟩) hp hq)
    rw [outline_eq, Place.cursors_eq, List.filter_cons_of_pos (by simp), List.flatMap_cons, placed]
    cases hown : own s ⟨p, above⟩ with
    | nil =>
      rw [hown, if_pos rfl] at hinside
      exact hinside
    | cons first rest =>
      -- what is below has its holder here or further down
      have hnone : (p.children.flatMap (Place.cursors (p :: above))).filter
          (fun y => level s y == level s ⟨p, above⟩) = [] := by
        refine List.filter_eq_nil_iff.2 fun y hy hlevel => ?_
        obtain ⟨q, hq, hy⟩ := List.mem_flatMap.1 hy
        obtain ⟨n, hn, hle⟩ := exists_level_of_mem_children s (x := ⟨p, above⟩) (by simp [hown]) hq hy
        have hlt := lt_of_level_eq s hp ((eq_of_beq hlevel).symm.trans hn)
        exact Nat.not_lt.2 hle hlt
      rw [hnone]
      simp

/-- The places that a place with entries holds are among those below it. -/
theorem heldBy_eq {x : Cursor} (hx : x ∈ s.root.cursors) (hown : own s x ≠ []) :
    heldBy s (some x.here.number) = (x.here.children.flatMap (Place.cursors x.path)).filter
      fun y => level s y == some x.here.number := by
  have htree : x.here.cursors x.above = x :: x.here.children.flatMap (Place.cursors x.path) :=
    Place.cursors_eq x.above x.here
  have hsub : x.here.children.flatMap (Place.cursors x.path) ⊆ s.root.cursors := fun y hy =>
    Node.cursors_subset hx (htree ▸ List.mem_cons_of_mem x hy)
  have hsorted := Place.pairwise_number_cursors x.above x.here
  rw [htree, List.pairwise_cons] at hsorted
  have : IsStrictOrder Cursor fun x y => x.here.number < y.here.number :=
    { irrefl := fun _ => Nat.lt_irrefl _, trans := fun _ _ _ => Nat.lt_trans }
  refine ((Place.pairwise_number_cursors [] ⟨0, s.root⟩).filter _).eq_of_mem_iff
    (hsorted.2.filter _) fun y => ?_
  rw [List.mem_filter, List.mem_filter]
  refine and_congr_left fun hlevel => ⟨fun hy => ?_, fun hy => hsub hy⟩
  -- the holder of the place is above it
  obtain ⟨z, hz, hnumber⟩ := Option.map_eq_some_iff.1 (eq_of_beq hlevel)
  have hsuffix := (Cursor.suffix_of_mem_ancestors (List.mem_of_find?_eq_some hz)).trans
    (List.suffix_cons y.here y.above)
  obtain ⟨hlisted, hbelow⟩ := Node.mem_cursors_and_of_suffix hy hsuffix
  obtain rfl := Node.eq_of_number_eq hlisted hx hnumber
  rw [htree] at hbelow
  rcases List.mem_cons.1 hbelow with rfl | hbelow
  · exact absurd (lt_of_level_eq s hx (eq_of_beq hlevel)) (Nat.lt_irrefl _)
  · exact hbelow

/-- **What stands inside an entry.** Inside the first entry of a place stand the entries of the places
that it holds. -/
theorem placed_eq {x : Cursor} (hx : x ∈ s.root.cursors) : placed s x =
    match own s x with
    | [] => []
    | first :: rest =>
      first.withChildren ((heldBy s (some x.here.number)).flatMap (placed s)) :: rest := by
  rw [placed]
  cases hown : own s x with
  | nil => rfl
  | cons first rest =>
    have hne : own s x ≠ [] := by simp [hown]
    have hinside := inside_eq_flatMap s (some x.here.number) (if_neg hne).symm fun q hq =>
      outline_eq_flatMap s (Place.child_mem_cursors (p := ⟨0, s.root⟩) hx hq)
    rw [heldBy_eq s hx hne, ← hinside]

theorem spans_eq : spans s = (heldBy s none).flatMap (placed s) :=
  outline_eq_flatMap s (p := ⟨0, s.root⟩) (Place.self_mem_cursors [] _)

/-! ### All entries -/

theorem children_of_mem_own {x : Cursor} {y : Symbol Span} (h : y ∈ own s x) : y.children = [] :=
  (added_of_mem_entriesFor s h).children

theorem perm_flatten_outline (p : Place) (above : List Place) :
    ((outline s ⟨p, above⟩).flatMap Symbol.flatten).Perm
      ((p.cursors above).flatMap (own s)) := by
  induction p using Place.ind generalizing above with
  | h p ih =>
    have hinside : ((inside s ⟨p, above⟩).flatMap Symbol.flatten).Perm
        ((p.children.flatMap (Place.cursors (p :: above))).flatMap (own s)) := by
      rw [inside_eq, List.flatMap_assoc, List.flatMap_assoc]
      exact List.Perm.flatMap_left _ fun q hq => ih q hq (p :: above)
    rw [outline_eq, Place.cursors_eq, List.flatMap_cons]
    cases hown : own s ⟨p, above⟩ with
    | nil => exact hinside
    | cons first rest =>
      have hbare : ∀ y ∈ first :: rest, y.children = [] := fun y hy =>
        children_of_mem_own s (hown ▸ hy)
      rw [List.forall_mem_cons] at hbare
      have hrest : rest.flatMap Symbol.flatten = rest := by
        rw [List.flatMap_congr fun y hy => Symbol.flatten_of_children (hbare.2 y hy)]
        exact List.flatMap_singleton' rest
      rw [List.flatMap_cons, Symbol.flatten_withChildren, Symbol.withChildren_of_children hbare.1,
        hrest, List.cons_append, List.cons_append]
      exact (List.perm_append_comm.trans (hinside.append_left rest)).cons first

/-- **Where entries stand.** The outline consists of the entries of the places without holder, in the
order of these places. The entries of a place stay together and stay as they are, but for the first
one, inside of which stand the entries of the places that it holds. So each entry of each place is in
the outline once, and nothing else is. -/
theorem ranges_placement (e : Encoding) :
    (∃ fill : Cursor → List (Symbol Range), ranges e s = (heldBy s none).flatMap fill ∧
      ∀ x ∈ s.root.cursors, fill x =
        match emit s e x with
        | [] => []
        | first :: rest =>
          first.withChildren ((heldBy s (some x.here.number)).flatMap fill) :: rest) ∧
    (∀ number, (heldBy s number).Pairwise fun x y => x.here.number < y.here.number) ∧
    ((ranges e s).flatMap Symbol.flatten).Perm (s.root.cursors.flatMap (emit s e)) ∧
    ∀ x, ∀ y ∈ emit s e x, y.children = [] := by
  refine ⟨⟨fun x => (placed s x).map (Symbol.map (Text.rangeOf e s.text)), ?_, fun x hx => ?_⟩,
    fun number => (Place.pairwise_number_cursors [] ⟨0, s.root⟩).filter _, ?_, fun x y hy => ?_⟩
  · rw [ranges, spans_eq, List.map_flatMap]
  · simp only [placed_eq s hx, emit]
    cases own s x with
    | nil => rfl
    | cons first rest =>
      rw [List.map_cons, List.map_cons, Symbol.map_withChildren, List.map_flatMap]
  · have hforest : (ranges e s).flatMap Symbol.flatten =
        ((spans s).flatMap Symbol.flatten).map (Symbol.map (Text.rangeOf e s.text)) := by
      rw [ranges, List.flatMap_map, List.map_flatMap]
      exact List.flatMap_congr fun y _ => Symbol.flatten_map _ y
    have hemitted : s.root.cursors.flatMap (emit s e) =
        (s.root.cursors.flatMap (own s)).map (Symbol.map (Text.rangeOf e s.text)) :=
      List.map_flatMap.symm
    rw [hforest, hemitted]
    exact (perm_flatten_outline s ⟨0, s.root⟩ []).map _
  · obtain ⟨z, hz, rfl⟩ := List.mem_map.1 hy
    rw [Symbol.children_map, children_of_mem_own s hz, List.map_nil]

end Outline

end RubyLens
