import RubyLens.Proofs.Syntax.Cursors
import RubyLens.Query.Outline

/-!
Outlines as trees of entries. What a node adds to an outline are entries without entries inside; such
an entry stands where the node stands, and its selection is at a child of the node, at two of them or
at a child of a child (`added_of_mem_entriesFor`). From this a change of the places of all entries is
followed through an outline (`map_entries`).
-/

namespace RubyLens

namespace Symbol

variable {α β γ : Type}

/-- Induction over an entry, with the assumption for all entries inside. -/
@[elab_as_elim]
theorem ind {P : Symbol α → Prop}
    (h : ∀ n k e s cs, (∀ c ∈ cs, P c) → P (.mk n k e s cs)) (y : Symbol α) : P y :=
  Symbol.rec (motive_1 := P) (motive_2 := fun cs => ∀ c ∈ cs, P c) h (List.forall_mem_nil P)
    (fun _ _ hc hcs => List.forall_mem_cons.2 ⟨hc, hcs⟩) y

theorem mapAll_eq (f : α → β) (cs : List (Symbol α)) : mapAll f cs = cs.map (map f) := by
  induction cs with
  | nil => rfl
  | cons c cs ih => rw [mapAll, ih, List.map_cons]

theorem map_mk (f : α → β) (n : String) (k : SymbolKind) (e s : α) (cs : List (Symbol α)) :
    (mk n k e s cs).map f = mk n k (f e) (f s) (cs.map (map f)) := by
  rw [map, mapAll_eq]

theorem map_map (f : α → β) (g : β → γ) (y : Symbol α) : (y.map f).map g = y.map (g ∘ f) := by
  induction y using ind with
  | h n k e s cs ih =>
    rw [map_mk, map_mk, map_mk, List.map_map]
    congr 1
    exact List.map_congr_left ih

theorem map_withChildren (f : α → β) (cs : List (Symbol α)) (y : Symbol α) :
    (y.withChildren cs).map f = (y.map f).withChildren (cs.map (map f)) := by
  obtain ⟨n, k, e, s, cs'⟩ := y
  rw [withChildren, map_mk, map_mk, withChildren]

/-- An entry without entries inside stays as it is, if where it stands does. -/
theorem map_eq_self {f : α → α} {y : Symbol α} (hchildren : y.children = [])
    (hextent : f y.extent = y.extent) (hselection : f y.selection = y.selection) :
    y.map f = y := by
  obtain ⟨n, k, e, s, cs⟩ := y
  obtain rfl : cs = [] := hchildren
  rw [extent] at hextent
  rw [selection] at hselection
  rw [map_mk, hextent, hselection, List.map_nil]

end Symbol

namespace Outline

/-- The selection of what a node adds: at one of its children, at two of them, or at a child of a
child. -/
inductive Selects (n : Node) : Span → Prop
  | child {c : Node} (hc : c ∈ n.children) : Selects n c.span
  | children {a b : Node} (ha : a ∈ n.children) (hb : b ∈ n.children) :
    Selects n (a.span.cover b.span)
  | grandchild {c d : Node} (hc : c ∈ n.children) (hd : d ∈ c.children) : Selects n d.span

/-- What a node adds to an outline. -/
structure Added (n : Node) (y : Symbol Span) : Prop where
  children : y.children = []
  extent : y.extent = n.span
  selection : Selects n y.selection

variable (s : Source)

theorem added_of_mem_methodEntry {around : Option Qualifier} {n : Node} {m : Method}
    {y : Symbol Span} (h : y ∈ methodEntry s around n m) : Added n y := by
  unfold methodEntry at h
  split at h
  · cases h
  · next name hname =>
    split at h
    · obtain rfl := List.mem_singleton.1 h
      exact ⟨rfl, rfl, .child (Node.mem_children_of_child? hname)⟩
    · next receiver hreceiver =>
      split at h
      · cases h
      · obtain rfl := List.mem_singleton.1 h
        exact ⟨rfl, rfl, .children (Node.mem_children_of_child? hreceiver)
          (Node.mem_children_of_child? hname)⟩

theorem added_of_mem_fieldEntries {n arguments : Node} (harguments : arguments ∈ n.children)
    {y : Symbol Span} (h : y ∈ fieldEntries s n arguments) : Added n y := by
  obtain ⟨argument, hargument, hname⟩ := List.mem_filterMap.1 h
  obtain ⟨name, -, rfl⟩ := Option.map_eq_some_iff.1 hname
  exact ⟨rfl, rfl, .grandchild harguments hargument⟩

theorem added_of_mem_entriesFor {around : Option Qualifier} {n : Node} {above : List Node}
    {y : Symbol Span} (h : y ∈ entriesFor s around n above) : Added n y := by
  have hnamed {name : Option Node} (hname : ∀ c ∈ name, c ∈ n.children) {kind : SymbolKind}
      (hy : y ∈ name.toList.map fun name =>
        .mk (qualifiedName s (n :: above)) kind n.span name.span []) : Added n y := by
    obtain ⟨c, hc, rfl⟩ := List.mem_map.1 hy
    exact ⟨rfl, rfl, .child (hname c (Option.mem_toList.1 hc))⟩
  unfold entriesFor at h
  split at h
  · exact hnamed (fun _ => Node.mem_children_of_child?) h
  · exact hnamed (fun _ => Node.mem_children_of_child?) h
  · refine hnamed (fun c hc => ?_) h
    exact Node.mem_children_of_child? (Option.filter_eq_some_iff.1 hc).1
  · exact added_of_mem_methodEntry s h
  · split at h
    · next hmethod harguments =>
      split at h
      · exact added_of_mem_fieldEntries s (Node.mem_children_of_child? harguments) h
      · cases h
    · cases h
  · cases h

theorem entriesOf_eq (around : Option Qualifier) (above ns : List Node) :
    entriesOf s around above ns = ns.flatMap (entries s around above) := by
  induction ns with
  | nil => rw [entriesOf, List.flatMap_nil]
  | cons n ns ih => rw [entriesOf, ih, List.flatMap_cons]

/-- What is declared below a node. -/
def below (around : Option Qualifier) (above : List Node) (n : Node) : List (Symbol Span) :=
  n.children.flatMap (entries s (qualifierInside s around n) (n :: above))

theorem entries_eq (around : Option Qualifier) (above : List Node) (n : Node) :
    entries s around above n =
      match entriesFor s around n above with
      | [] => below s around above n
      | first :: rest => first.withChildren (below s around above n) :: rest := by
  obtain ⟨t, k, span, cs⟩ := n
  rw [entries, entriesOf_eq]
  rfl

/-- Entries of a tree stay as they are, if the spans of its nodes do and what reaches from one child
to another. -/
theorem map_entries {root : Node} {f : Span → Span} (hspan : ∀ x ∈ root.cursors, f x.span = x.span)
    (hcover : ∀ x ∈ root.cursors, ∀ a ∈ x.node.children, ∀ b ∈ x.node.children,
      f (a.span.cover b.span) = a.span.cover b.span)
    {p : Place} {up : List Place} (hp : ⟨p, up⟩ ∈ root.cursors) (around : Option Qualifier)
    (above : List Node) :
    (entries s around above p.node).map (Symbol.map f) = entries s around above p.node := by
  induction p using Place.ind generalizing up around above with
  | h p ih =>
    have hbelow : (below s around above p.node).map (Symbol.map f) = below s around above p.node := by
      rw [below, List.map_flatMap]
      refine List.flatMap_congr fun c hc => ?_
      obtain ⟨q, hq, rfl, hlisted⟩ := Node.exists_cursor_of_mem_children hp hc
      exact ih q hq hlisted _ _
    have hadded : ∀ y ∈ entriesFor s around p.node above, y.map f = y := by
      intro y hy
      obtain ⟨hchildren, hextent, hselection⟩ := added_of_mem_entriesFor s hy
      refine Symbol.map_eq_self hchildren (hextent ▸ hspan _ hp) ?_
      generalize y.selection = m at hselection ⊢
      cases hselection with
      | child hc =>
        obtain ⟨q, -, rfl, hq⟩ := Node.exists_cursor_of_mem_children hp hc
        exact hspan _ hq
      | children ha hb => exact hcover _ hp _ ha _ hb
      | grandchild hc hd =>
        obtain ⟨q, -, rfl, hq⟩ := Node.exists_cursor_of_mem_children hp hc
        obtain ⟨r, -, rfl, hr⟩ := Node.exists_cursor_of_mem_children hq hd
        exact hspan _ hr
    rw [entries_eq]
    split
    · exact hbelow
    · next first rest h =>
      rw [h, List.forall_mem_cons] at hadded
      rw [List.map_cons, Symbol.map_withChildren, hadded.1, hbelow, List.map_congr_left hadded.2,
        List.map_id']

end Outline

end RubyLens
