import RubyLens.Proofs.Syntax.Arena

/-!
The search for the most specific node at an offset. It goes over the entries of a text with a stack
of numbers, on which it puts only those children of an entry whose spans contain the offset
(`Entry.Search.step?`).

* `Node.spreads_ofRoot`: in a nested tree, whatever contains an offset of the text has only nodes
  above it that contain the offset too (`Node.Spreads`). So what contains the offset below a place
  is either that place together with what contains it below the children, or nothing
  (`Place.hits_of_contains`, `Node.Spreads.hits_of_not_contains`).
* `Node.seek_eq_foldl` and `Node.run_hits`: both forms of the search go through exactly the places
  that contain the offset, in the order of their numbers.
* `Cursor.foldl_better`: to take the better of two each time, in that order, gives the shortest
  one, and the last one of these.

Main statement: `Source.cursorAt_most_specific`.
-/

namespace RubyLens

/-! ### The better of two places -/

namespace Cursor

/-- The better one of the best place so far and a later one. -/
def better (best x : Cursor) : Cursor := if x.span.len ≤ best.span.len then x else best

/-- The first place has a shorter span than the second, or one as short and a number no smaller. -/
def AsSpecificAs (x y : Cursor) : Prop :=
  x.span.len < y.span.len ∨ x.span.len = y.span.len ∧ y.here.number ≤ x.here.number

section Better

variable {x y z : Cursor}

theorem AsSpecificAs.refl (x : Cursor) : x.AsSpecificAs x := .inr ⟨rfl, Nat.le_refl _⟩

theorem AsSpecificAs.trans (hxy : x.AsSpecificAs y) (hyz : y.AsSpecificAs z) :
    x.AsSpecificAs z := by
  unfold AsSpecificAs at *
  omega

theorem better_eq_or (x y : Cursor) : x.better y = x ∨ x.better y = y := by
  rw [better]
  split
  · exact .inr rfl
  · exact .inl rfl

theorem better_asSpecificAs (h : x.here.number ≤ y.here.number) :
    (x.better y).AsSpecificAs x ∧ (x.better y).AsSpecificAs y := by
  rw [better]
  split
  · next hle => exact ⟨(Nat.lt_or_eq_of_le hle).imp id fun heq => ⟨heq, h⟩, .refl y⟩
  · next hlt => exact ⟨.refl x, .inl (Nat.lt_of_not_le hlt)⟩

theorem foldl_better_mem (x : Cursor) (ys : List Cursor) : ys.foldl better x ∈ x :: ys := by
  induction ys generalizing x with
  | nil => exact List.mem_singleton_self x
  | cons y ys ih =>
    rw [List.foldl_cons]
    rcases List.mem_cons.1 (ih (x.better y)) with h | h
    · rw [h]
      rcases x.better_eq_or y with hx | hy
      · rw [hx]
        exact List.mem_cons_self
      · rw [hy]
        exact List.mem_cons_of_mem x List.mem_cons_self
    · exact List.mem_cons_of_mem x (List.mem_cons_of_mem y h)

/-- **The best of many.** The better one of two, taken again and again in the order of the numbers,
is the shortest one, and the last one of these. -/
theorem foldl_better {ys : List Cursor}
    (h : (x :: ys).Pairwise fun a b => a.here.number ≤ b.here.number) :
    ∀ y ∈ x :: ys, (ys.foldl better x).AsSpecificAs y := by
  induction ys generalizing x with
  | nil =>
    intro y hy
    obtain rfl := List.mem_singleton.1 hy
    exact .refl y
  | cons y ys ih =>
    obtain ⟨hx, hys⟩ := List.pairwise_cons.1 h
    have hnext : (x.better y :: ys).Pairwise fun a b => a.here.number ≤ b.here.number := by
      rcases x.better_eq_or y with heq | heq
      · rw [heq]
        exact List.pairwise_cons.2
          ⟨fun z hz => hx z (List.mem_cons_of_mem y hz), (List.pairwise_cons.1 hys).2⟩
      · rw [heq]
        exact hys
    have hbest := ih hnext
    have hboth := better_asSpecificAs (hx y List.mem_cons_self)
    have hfirst := hbest (x.better y) List.mem_cons_self
    rw [List.foldl_cons]
    intro z hz
    rcases List.mem_cons.1 hz with rfl | hz
    · exact hfirst.trans hboth.1
    · rcases List.mem_cons.1 hz with rfl | hz
      · exact hfirst.trans hboth.2
      · exact hbest z (List.mem_cons_of_mem _ hz)

end Better

end Cursor

/-! ### Where the offset is -/

namespace Place

/-- Those of some places that contain an offset. -/
def holding (offset : Nat) (qs : List Place) : List Place :=
  qs.filter fun q => q.node.span.contains offset

/-- The places of a tree that contain an offset. -/
def hits (offset : Nat) (above : List Place) (p : Place) : List Cursor :=
  (p.cursors above).filter fun x => x.span.contains offset

section Hits

variable {offset : Nat} {above qs : List Place} {p : Place}

theorem holding_cons_of_pos (h : p.node.span.contains offset) :
    holding offset (p :: qs) = p :: holding offset qs := List.filter_cons_of_pos h

theorem holding_cons_of_neg (h : ¬ p.node.span.contains offset) :
    holding offset (p :: qs) = holding offset qs := List.filter_cons_of_neg h

theorem hits_of_contains (h : p.node.span.contains offset) :
    p.hits offset above = ⟨p, above⟩ :: p.children.flatMap (hits offset (p :: above)) := by
  rw [hits, cursors_eq, List.filter_cons, List.filter_flatMap]
  exact if_pos h

end Hits

end Place

namespace Node

/-- An offset that a node contains is also contained in the node above it. -/
def Spreads (root : Node) (offset : Nat) : Prop :=
  ∀ x ∈ root.cursors, ∀ q ∈ x.here.children, q.node.span.contains offset →
    x.span.contains offset

/-- In the tree of a text, what contains an offset of the text is only below what contains it. -/
theorem spreads_ofRoot {source : Text} {parsed : Option Concrete}
    (hnested : ∀ c ∈ parsed, c.nested) {offset : Nat} (hoffset : offset ≤ Text.size source) :
    (ofRoot source parsed).Spreads offset := by
  intro x hx q hq hcontains
  rcases root_or_site hx with rfl | ⟨c, hc, s, hs, hmatches⟩
  · -- the root spans the text, whatever is below it
    rw [Cursor.span, Cursor.node, span_ofRoot, Span.contains_iff]
    exact ⟨Nat.zero_le _, hoffset⟩
  · have hsite : s.concrete.nested :=
      Concrete.every_of_mem_kept (hnested c hc) hs s.here List.mem_cons_self
    have hcovers := Span.covers_iff.1 (hmatches.covers_of_mem_children hsite hq)
    rw [Span.contains_iff] at hcontains ⊢
    omega

section Spreads

variable {root : Node} {offset : Nat}

/-- Below a place that does not contain the offset, nothing does. -/
theorem Spreads.hits_of_not_contains (h : root.Spreads offset) {p : Place} {above : List Place}
    (hp : ⟨p, above⟩ ∈ root.cursors) (hnot : ¬ p.node.span.contains offset) :
    p.hits offset above = [] := by
  induction p using Place.ind generalizing above with
  | h p ih =>
    rw [Place.hits, List.filter_eq_nil_iff]
    intro x hx hcontains
    rcases Place.mem_cursors.1 hx with rfl | ⟨q, hq, hx⟩
    · exact hnot hcontains
    · have hnone := ih q hq (child_mem_cursors hp hq) fun hqc => hnot (h _ hp q hq hqc)
      have hmem : x ∈ q.hits offset (p :: above) := List.mem_filter.2 ⟨hx, hcontains⟩
      rw [hnone] at hmem
      cases hmem

/-! ### The search that goes down the tree -/

theorem seekAll_eq_foldl {above : List Place} {m : Nat} {ns : List Node}
    (h : ∀ q ∈ Place.siblings m ns, ∀ best,
      (if q.node.span.contains offset then seek offset best q.number above q.node else best) =
        (q.hits offset above).foldl Cursor.better best) (best : Cursor) :
    seekAll offset best m above ns =
      ((Place.siblings m ns).flatMap (Place.hits offset above)).foldl Cursor.better best := by
  induction ns generalizing m best with
  | nil => rfl
  | cons n ns ih =>
    rw [Place.siblings, List.forall_mem_cons] at h
    rw [seekAll, Place.siblings, List.flatMap_cons, List.foldl_append, ← h.1 best]
    exact ih h.2 _

/-- The search takes the better one of two again and again, over all places of the tree that contain
the offset. -/
theorem seek_eq_foldl (hspreads : root.Spreads offset) {p : Place} {above : List Place}
    (hp : ⟨p, above⟩ ∈ root.cursors) (hcontains : p.node.span.contains offset) (best : Cursor) :
    seek offset best p.number above p.node =
      (p.hits offset above).foldl Cursor.better best := by
  induction p using Place.ind generalizing above best with
  | h p ih =>
    rw [seek_eq, Place.hits_of_contains hcontains, List.foldl_cons]
    refine seekAll_eq_foldl (fun q hq best => ?_) _
    have hchild := child_mem_cursors hp hq
    split
    · next hqc => exact ih q hq hchild hqc best
    · next hqc =>
      rw [hspreads.hits_of_not_contains hchild hqc]
      rfl

end Spreads

end Node

/-! ### The search with a stack -/

namespace Entry

/-- Those of some entries, which are given by number, whose spans contain an offset. There is no
answer if a number is not that of an entry. -/
def containing? (entries : List Entry) (offset : Nat) : List Nat → Option (List Nat)
  | [] => some []
  | i :: is => do
    let e ← entries[i]?
    let rest ← containing? entries offset is
    return if e.span.contains offset then i :: rest else rest

/-- A search under way: the best entry so far, and the entries still to come, the next one first. -/
structure Search where
  best : Nat
  stack : List Nat
deriving DecidableEq, Repr

namespace Search

/-- Looks at the entry on top of the stack, and puts the children that contain the offset there
instead. It does not go on from an empty stack, or with a number that is not that of an entry. -/
def step? (entries : List Entry) (offset : Nat) (s : Search) : Option Search :=
  match s.stack with
  | [] => none
  | i :: stack => do
    let e ← entries[i]?
    let best ← entries[s.best]?
    let below ← containing? entries offset e.children
    return ⟨if e.span.len ≤ best.span.len then i else s.best, below ++ stack⟩

/-- The search comes from one point to another and on its way looks at the given entries. -/
inductive Run (entries : List Entry) (offset : Nat) : Search → List Nat → Search → Prop
  | stay (s : Search) : Run entries offset s [] s
  | go {best i : Nat} {stack visited : List Nat} {s t : Search}
      (hstep : step? entries offset ⟨best, i :: stack⟩ = some s)
      (hrest : Run entries offset s visited t) :
      Run entries offset ⟨best, i :: stack⟩ (i :: visited) t

theorem Run.append {entries : List Entry} {offset : Nat} {s t u : Search} {is js : List Nat}
    (hst : Run entries offset s is t) (htu : Run entries offset t js u) :
    Run entries offset s (is ++ js) u := by
  induction hst with
  | stay s => exact htu
  | go hstep _ ih => exact .go hstep (ih htu)

end Search

end Entry

namespace Node

open Entry (Search containing?)

section Run

variable {root : Node} {offset : Nat}

theorem getElem?_arena_of_mem {x : Cursor} (hx : x ∈ root.cursors) :
    root.arena[x.here.number]? = some x.entry :=
  getElem?_arena.2 ⟨x, getElem?_cursors_iff.2 ⟨hx, rfl⟩, rfl⟩

theorem containing?_eq {above : List Place} {qs : List Place}
    (h : ∀ q ∈ qs, ⟨q, above⟩ ∈ root.cursors) :
    containing? root.arena offset (qs.map Place.number) =
      some ((Place.holding offset qs).map Place.number) := by
  induction qs with
  | nil => rfl
  | cons q qs ih =>
    rw [List.forall_mem_cons] at h
    have hentry := getElem?_arena_of_mem h.1
    have hspan : (Cursor.mk q above).entry.span = q.node.span := rfl
    rw [List.map_cons, containing?, hentry, ih h.2]
    simp only [Option.bind_eq_bind, Option.bind_some, Option.pure_def, hspan]
    by_cases hq : q.node.span.contains offset
    · rw [if_pos hq, Place.holding_cons_of_pos hq, List.map_cons]
    · rw [if_neg hq, Place.holding_cons_of_neg hq]

/-- One step at a place takes the better of two, and goes on with the children. -/
theorem step?_eq {best : Cursor} {p : Place} {above : List Place} (hbest : best ∈ root.cursors)
    (hp : ⟨p, above⟩ ∈ root.cursors) (stack : List Nat) :
    Search.step? root.arena offset ⟨best.here.number, p.number :: stack⟩ =
      some ⟨(best.better ⟨p, above⟩).here.number,
        (Place.holding offset p.children).map Place.number ++ stack⟩ := by
  have hentry : root.arena[p.number]? = some (Cursor.mk p above).entry := getElem?_arena_of_mem hp
  have hbelow : containing? root.arena offset (Cursor.mk p above).entry.children = _ :=
    containing?_eq fun q hq => child_mem_cursors hp hq
  simp only [Search.step?, hentry, getElem?_arena_of_mem hbest, hbelow, Option.bind_eq_bind,
    Option.bind_some, Option.pure_def, Cursor.better, Option.some.injEq, Search.mk.injEq, and_true]
  rw [apply_ite (fun x : Cursor => x.here.number)]
  rfl

theorem better_mem_cursors {x y : Cursor} (hx : x ∈ root.cursors) (hy : y ∈ root.cursors) :
    x.better y ∈ root.cursors := by
  rcases x.better_eq_or y with h | h
  · rwa [h]
  · rwa [h]

theorem foldl_better_mem_cursors {x : Cursor} {ys : List Cursor} (hx : x ∈ root.cursors)
    (hys : ys ⊆ root.cursors) : ys.foldl Cursor.better x ∈ root.cursors :=
  List.cons_subset.2 ⟨hx, hys⟩ (Cursor.foldl_better_mem x ys)

theorem hits_subset (offset : Nat) {p : Place} {above : List Place}
    (hp : ⟨p, above⟩ ∈ root.cursors) : p.hits offset above ⊆ root.cursors :=
  List.Subset.trans (List.filter_subset_self _) (cursors_subset hp)

/-- With the number of `p` on top of the stack, the search looks at all that contains the offset in
the tree at `p`, and takes the better of two each time. -/
def Visited (root : Node) (offset : Nat) (above : List Place) (p : Place) : Prop :=
  ∀ best ∈ root.cursors, ∀ stack,
    Search.Run root.arena offset ⟨best.here.number, p.number :: stack⟩
      ((p.hits offset above).map fun x => x.here.number)
      ⟨((p.hits offset above).foldl Cursor.better best).here.number, stack⟩

theorem run_siblings (hspreads : root.Spreads offset) {above : List Place} {qs : List Place}
    (hqs : ∀ q ∈ qs, ⟨q, above⟩ ∈ root.cursors)
    (h : ∀ q ∈ qs, q.node.span.contains offset → Visited root offset above q)
    {best : Cursor} (hbest : best ∈ root.cursors) (stack : List Nat) :
    Search.Run root.arena offset
      ⟨best.here.number,
        (Place.holding offset qs).map Place.number ++ stack⟩
      ((qs.flatMap (Place.hits offset above)).map fun x => x.here.number)
      ⟨((qs.flatMap (Place.hits offset above)).foldl Cursor.better best).here.number, stack⟩ := by
  induction qs generalizing best with
  | nil => exact .stay _
  | cons q qs ih =>
    rw [List.forall_mem_cons] at hqs h
    rw [List.flatMap_cons, List.map_append, List.foldl_append]
    by_cases hq : q.node.span.contains offset
    · rw [Place.holding_cons_of_pos hq]
      have hnext := foldl_better_mem_cursors hbest (hits_subset offset hqs.1)
      exact (h.1 hq best hbest _).append (ih hqs.2 h.2 hnext)
    · rw [Place.holding_cons_of_neg hq, hspreads.hits_of_not_contains hqs.1 hq]
      exact ih hqs.2 h.2 hbest

/-- **One tree.** With a place that contains the offset on top of the stack, the search goes through
what contains it in the tree there. -/
theorem run_hits (hspreads : root.Spreads offset) {p : Place} {above : List Place}
    (hp : ⟨p, above⟩ ∈ root.cursors) (hcontains : p.node.span.contains offset) :
    Visited root offset above p := by
  induction p using Place.ind generalizing above with
  | h p ih =>
    intro best hbest stack
    rw [Place.hits_of_contains hcontains, List.map_cons, List.foldl_cons]
    refine .go (step?_eq hbest hp stack) ?_
    exact run_siblings hspreads (fun q hq => child_mem_cursors hp hq)
      (fun q hq => ih q hq (child_mem_cursors hp hq))
      (better_mem_cursors hbest hp) stack

/-! ### The search from the root -/

theorem mem_hits_root {x : Cursor} :
    x ∈ Place.hits offset [] ⟨0, root⟩ ↔ x ∈ root.cursors ∧ x.span.contains offset :=
  List.mem_filter

theorem mem_numbers_hits_root {i : Nat} :
    i ∈ (Place.hits offset [] ⟨0, root⟩).map (fun x => x.here.number) ↔
      ∃ e, root.arena[i]? = some e ∧ e.span.contains offset := by
  constructor
  · intro h
    obtain ⟨x, hx, rfl⟩ := List.mem_map.1 h
    obtain ⟨hmem, hcontains⟩ := mem_hits_root.1 hx
    exact ⟨x.entry, getElem?_arena_of_mem hmem, hcontains⟩
  · rintro ⟨e, he, hcontains⟩
    obtain ⟨x, hx, rfl⟩ := getElem?_arena.1 he
    obtain ⟨hmem, hnumber⟩ := getElem?_cursors_iff.1 hx
    exact List.mem_map.2 ⟨x, mem_hits_root.2 ⟨hmem, hcontains⟩, hnumber⟩

theorem pairwise_hits_root :
    (Place.hits offset [] ⟨0, root⟩).Pairwise fun x y => x.here.number < y.here.number :=
  (Place.pairwise_number_cursors [] ⟨0, root⟩).sublist List.filter_sublist

/-- The best of all places that contain the offset is as specific as any of them. -/
theorem foldl_hits_root_asSpecificAs {x : Cursor} (hx : x ∈ root.cursors)
    (hcontains : x.span.contains offset) :
    ((Place.hits offset [] ⟨0, root⟩).foldl Cursor.better ⟨⟨0, root⟩, []⟩).AsSpecificAs x := by
  refine Cursor.foldl_better (List.pairwise_cons.2 ⟨fun y _ => Nat.zero_le _, ?_⟩) x
    (List.mem_cons_of_mem _ (mem_hits_root.2 ⟨hx, hcontains⟩))
  exact pairwise_hits_root.imp Nat.le_of_lt

end Run

end Node

/-- **The most specific node.** In the syntax tree of a text whose concrete tree is nested, the
search with a stack ends with the node that is found at an offset. It has then looked at exactly
those nodes that contain the offset, or the end of the text if the offset lies behind it, in the
order of their numbers. The node that is found is one of them; each other one is longer, or as long
and comes earlier. -/
theorem Source.cursorAt_most_specific (parser : Parser) (text : Text)
    (hnested : ∀ c ∈ parser text, c.nested) (offset : Nat) :
    let root := (Source.parse parser text).root
    let o := min offset (Text.size text)
    let best := root.cursorAt offset
    best ∈ root.cursors ∧ root.arena[best.here.number]? = some best.entry ∧
      best.entry.span.contains o ∧
      (∀ i e, root.arena[i]? = some e → e.span.contains o →
        best.entry.span.len < e.span.len ∨
          best.entry.span.len = e.span.len ∧ i ≤ best.here.number) ∧
      ∃ visited : List Nat,
        Entry.Search.Run root.arena o ⟨0, [0]⟩ visited ⟨best.here.number, []⟩ ∧
        visited.Pairwise (· < ·) ∧
        ∀ i, i ∈ visited ↔ ∃ e, root.arena[i]? = some e ∧ e.span.contains o := by
  intro root o best
  have hspan : root.span = ⟨0, Text.size text⟩ := Node.span_ofRoot text (parser text)
  have hspreads : root.Spreads o := Node.spreads_ofRoot hnested (Nat.min_le_right _ _)
  have hroot : ⟨⟨0, root⟩, []⟩ ∈ root.cursors := Place.self_mem_cursors [] _
  have hend : o = min offset root.span.stop := by rw [hspan]
  have hcontains : root.span.contains o := by
    rw [hspan, Span.contains_iff]
    exact ⟨Nat.zero_le _, Nat.min_le_right _ _⟩
  have hbest : best = (Place.hits o [] ⟨0, root⟩).foldl Cursor.better ⟨⟨0, root⟩, []⟩ := by
    rw [← Node.seek_eq_foldl hspreads hroot hcontains, hend]
    rfl
  have hmem : best ∈ root.cursors := Node.cursorAt_mem_cursors root offset
  refine ⟨hmem, Node.getElem?_arena_of_mem hmem, ?_, ?_, ?_⟩
  · rw [hend] at hcontains ⊢
    exact Node.contains_cursorAt hcontains best.here List.mem_cons_self
  · intro i e he hec
    obtain ⟨x, hx, rfl⟩ := Node.getElem?_arena.1 he
    obtain ⟨hlisted, rfl⟩ := Node.getElem?_cursors_iff.1 hx
    rw [hbest]
    exact Node.foldl_hits_root_asSpecificAs hlisted hec
  · refine ⟨_, ?_, List.pairwise_map.2 Node.pairwise_hits_root, fun i => Node.mem_numbers_hits_root⟩
    rw [hbest]
    exact Node.run_hits hspreads hroot hcontains _ hroot []

open Concrete (guardedMethod) in
theorem Source.cursorAt_most_specific_guardedMethod :
    let parser : Parser := fun _ => some guardedMethod
    let text : Text := "def f\nrescue\nend".toList
    let root := (Source.parse parser text).root
    guardedMethod ∈ parser text ∧ guardedMethod.nested ∧
      (root.cursorAt 8).entry = ⟨"rescue", ⟨6, 12⟩, some 3, []⟩ ∧
      root.arena[3]? = some ⟨"body_statement", ⟨6, 12⟩, some 1, [4]⟩ ∧
      root.arena[4]? = some (root.cursorAt 8).entry ∧
      ∃ visited, Entry.Search.Run root.arena 8 ⟨0, [0]⟩ visited ⟨4, []⟩ ∧
        visited.Pairwise (· < ·) ∧ 3 ∈ visited ∧ 4 ∈ visited ∧ 2 ∉ visited := by
  intro parser text root
  have hguarded : guardedMethod.nested := by decide
  have hnested : ∀ c ∈ parser text, c.nested := by
    intro c hc
    obtain rfl := Option.some.inj hc
    exact hguarded
  have hnumber : (root.cursorAt 8).here.number = 4 := by decide
  obtain ⟨-, hentry, -, -, visited, hrun, hsorted, hvisited⟩ :=
    Source.cursorAt_most_specific parser text hnested 8
  have hat (i : Nat) : i ∈ visited ↔ ∃ e, root.arena[i]? = some e ∧ e.span.contains 8 := hvisited i
  refine ⟨rfl, hguarded, by decide, by decide, hnumber ▸ hentry, visited, hnumber ▸ hrun, hsorted,
    ?_, ?_, ?_⟩
  · exact (hat 3).2 ⟨⟨"body_statement", ⟨6, 12⟩, some 1, [4]⟩, by decide, by decide⟩
  · exact (hat 4).2 ⟨⟨"rescue", ⟨6, 12⟩, some 3, []⟩, by decide, by decide⟩
  · intro h2
    obtain ⟨e, he, hcontains⟩ := (hat 2).1 h2
    have hidentifier : root.arena[2]? = some ⟨"identifier", ⟨4, 5⟩, some 1, []⟩ := by decide
    rw [hidentifier, Option.some.injEq] at he
    subst he
    exact absurd hcontains (by decide)

end RubyLens
