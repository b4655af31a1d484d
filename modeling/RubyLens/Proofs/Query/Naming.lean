import RubyLens.Proofs.Query.Containers
import RubyLens.Proofs.Query.Declarations

/-!
How the entries of an outline are named. What declares a class, a module or a constant takes the
name of the nearest such declaration around it and adds its own, whatever else lies between them. A
method without receiver takes the qualifier of the nearest singleton class around it; a class or a
module in between does not take it back.

* `nameAt_eq`: a name is that of the declaration around it and a segment.
* `context_eq`: the qualifier in force is that of the nearest singleton class.

Main statements: `Outline.name_composed`, `Outline.name_of_method`.
-/

namespace RubyLens

/-- The tree of a class `A`, with a singleton class of `self` in it, with a class `B` in that and a
method `n` in `B`. -/
def Concrete.classInSingleton : Concrete :=
  .node ⟨"program", true, false, ⟨0, 70⟩, none⟩ [
    .node ⟨"class", true, false, ⟨0, 70⟩, none⟩ [
      .node ⟨"class", false, false, ⟨0, 5⟩, none⟩ [],
      .node ⟨"constant", true, false, ⟨6, 7⟩, some "name"⟩ [],
      .node ⟨"body_statement", true, false, ⟨10, 66⟩, some "body"⟩ [
        .node ⟨"singleton_class", true, false, ⟨10, 66⟩, none⟩ [
          .node ⟨"class", false, false, ⟨10, 15⟩, none⟩ [],
          .node ⟨"<<", false, false, ⟨16, 18⟩, none⟩ [],
          .node ⟨"self", true, false, ⟨19, 23⟩, some "value"⟩ [],
          .node ⟨"body_statement", true, false, ⟨28, 60⟩, some "body"⟩ [
            .node ⟨"class", true, false, ⟨28, 60⟩, none⟩ [
              .node ⟨"class", false, false, ⟨28, 33⟩, none⟩ [],
              .node ⟨"constant", true, false, ⟨34, 35⟩, some "name"⟩ [],
              .node ⟨"body_statement", true, false, ⟨42, 52⟩, some "body"⟩ [
                .node ⟨"method", true, false, ⟨42, 52⟩, none⟩ [
                  .node ⟨"def", false, false, ⟨42, 45⟩, none⟩ [],
                  .node ⟨"identifier", true, false, ⟨46, 47⟩, some "name"⟩ [],
                  .node ⟨";", false, false, ⟨47, 48⟩, none⟩ [],
                  .node ⟨"end", false, false, ⟨49, 52⟩, none⟩ []]],
              .node ⟨"end", false, false, ⟨57, 60⟩, none⟩ []]],
          .node ⟨"end", false, false, ⟨63, 66⟩, none⟩ []]],
      .node ⟨"end", false, false, ⟨67, 70⟩, none⟩ []]]

def Source.classInSingleton : Source :=
  .parse (fun _ => some .classInSingleton)
    "class A\n  class << self\n    class B\n      def n; end\n    end\n  end\nend".toList

/-- The node that names what a node declares, and what this is: a class or a module with a name, or
a constant that is assigned to. -/
def Node.declared? (n : Node) : Option (SymbolKind × Node) :=
  match n.kind with
  | .classDef c => (n.child? c.head).map fun t => (.classDef, t)
  | .moduleDef c => (n.child? c.head).map fun t => (.moduleDef, t)
  | .assignment target _ =>
    ((n.child? target).filter fun t => t.kind == .constant).map fun t => (.constant, t)
  | _ => none

def Node.isSingletonClass (n : Node) : Bool :=
  match n.kind with
  | .singletonClass _ => true
  | _ => false

theorem Node.exists_container_of_isSingletonClass {n : Node} (h : n.isSingletonClass) :
    ∃ c, n.kind = .singletonClass c := by
  unfold isSingletonClass at h
  split at h
  · next c hkind => exact ⟨c, hkind⟩
  · cases h

namespace Cursor

/-- The nearest place above whose node is of some sort. -/
def nearest? (sort : Node → Bool) (x : Cursor) : Option Cursor :=
  x.ancestors.find? fun a => sort a.node

/-- The nearest place above that declares a class, a module or a constant. -/
def declarer? (x : Cursor) : Option Cursor := x.nearest? fun n => n.declared?.isSome

variable {sort : Node → Bool} {x a : Cursor}

theorem nearest?_child (q : Place) :
    nearest? sort ⟨q, x.path⟩ = if sort x.node then some x else x.nearest? sort := by
  rw [nearest?, ancestors_child, List.find?_cons]
  split
  · next h => rw [if_pos h]
  · next h => rw [if_neg (by simp [h])]; rfl

theorem of_nearest? (h : x.nearest? sort = some a) : sort a.node :=
  List.find?_some (p := fun b : Cursor => sort b.node) h

theorem mem_cursors_of_nearest? {root : Node} (hx : x ∈ root.cursors)
    (h : x.nearest? sort = some a) : a ∈ root.cursors := by
  have hsuffix := suffix_of_mem_ancestors (List.mem_of_find?_eq_some h)
  exact Node.mem_cursors_of_suffix hx (hsuffix.trans (List.suffix_cons x.here x.above))

/-- Places are told apart by their numbers. -/
theorem nearest?_eq_some {root : Node} (hx : x ∈ root.cursors) (ha : a ∈ root.cursors)
    (h : ((x.nearest? sort).map fun b => b.here.number) = some a.here.number) :
    x.nearest? sort = some a := by
  obtain ⟨b, hb, hnumber⟩ := Option.map_eq_some_iff.1 h
  rw [hb, Node.eq_of_number_eq (mem_cursors_of_nearest? hx hb) ha hnumber]

end Cursor

namespace Outline

variable (s : Source)

/-- The entries of an outline, with those inside others, one by one. -/
def flat (e : Encoding) : List (Symbol Range) := (ranges e s).flatMap Symbol.flatten

theorem mem_flat_iff {e : Encoding} {y : Symbol Range} :
    y ∈ flat s e ↔ ∃ x ∈ s.root.cursors, y ∈ emit s e x := by
  have hflat : flat s e =
      ((spans s).flatMap Symbol.flatten).map (Symbol.map (Text.rangeOf e s.text)) := by
    rw [flat, ranges, List.flatMap_map, List.map_flatMap]
    exact List.flatMap_congr fun y _ => Symbol.flatten_map _ y
  have hspans : ((spans s).flatMap Symbol.flatten).Perm (s.root.cursors.flatMap (own s)) :=
    perm_flatten_outline s ⟨0, s.root⟩ []
  rw [hflat, (hspans.map _).mem_iff, List.map_flatMap, List.mem_flatMap]
  rfl

theorem mem_flat_of_emit {e : Encoding} {x : Cursor} (hx : x ∈ s.root.cursors) {y : Symbol Range}
    (h : emit s e x = [y]) : y ∈ flat s e :=
  (mem_flat_iff s).2 ⟨x, hx, h ▸ List.mem_singleton_self y⟩

/-! ### Names with a path -/

/-- The name of what is declared at a place, with the names around it. -/
def nameAt (x : Cursor) : String := qualifiedName s (x.path.map Place.node)

theorem segment?_eq (n : Node) : segment? s n = n.declared?.map fun d => s.textOf d.2 := by
  unfold segment? Node.declared? constantTarget?
  cases n.kind <;> simp [Function.comp_def]

theorem segments_of_declared {x : Cursor} {d : SymbolKind × Node} (h : x.node.declared? = some d) :
    (x.path.map Place.node).filterMap (segment? s) =
      s.textOf d.2 :: (x.above.map Place.node).filterMap (segment? s) := by
  rw [Cursor.path, List.map_cons, List.filterMap_cons_some]
  rw [segment?_eq, show x.here.node.declared? = some d from h, Option.map_some]

/-- The segments around a place are those of the nearest declaration and of what is around that. -/
theorem segments_above (x : Cursor) :
    (x.above.map Place.node).filterMap (segment? s) =
      match x.declarer? with
      | none => []
      | some a => (a.path.map Place.node).filterMap (segment? s) := by
  obtain ⟨here, above⟩ := x
  -- up the path: what a place sees above it depends on the places there alone
  induction above generalizing here with
  | nil => rfl
  | cons p above ih =>
    have hstep : Cursor.declarer? ⟨here, p :: above⟩ =
        if p.node.declared?.isSome then some ⟨p, above⟩ else Cursor.declarer? ⟨p, above⟩ :=
      Cursor.nearest?_child (x := ⟨p, above⟩) here
    rw [hstep]
    cases hdeclared : p.node.declared? with
    | some d => rfl
    | none =>
      -- a node that declares nothing adds no segment
      have hskip : segment? s p.node = none := by rw [segment?_eq, hdeclared, Option.map_none]
      rw [List.map_cons, List.filterMap_cons_none hskip]
      exact ih p

/-- **One segment more.** A name is made of the name of the nearest declaration around it, if there
is one, and of its own segment. -/
theorem nameAt_eq {x : Cursor} {d : SymbolKind × Node} (h : x.node.declared? = some d) :
    nameAt s x =
      match x.declarer? with
      | none => s.textOf d.2
      | some a => nameAt s a ++ "::" ++ s.textOf d.2 := by
  rw [nameAt, qualifiedName, segments_of_declared s h, segments_above, List.reverse_cons]
  cases houter : x.declarer? with
  | none => exact String.intercalate_singleton
  | some a =>
    obtain ⟨d', hd'⟩ := Option.isSome_iff_exists.1 (Cursor.of_nearest? houter)
    have hne : ((a.path.map Place.node).filterMap (segment? s)).reverse ≠ [] := by
      rw [segments_of_declared s hd', List.reverse_ne_nil_iff]
      exact List.cons_ne_nil _ _
    rw [String.intercalate_append_of_ne_nil hne (List.cons_ne_nil _ _),
      String.intercalate_singleton]
    rfl

/-- What declares a class, a module or a constant adds one entry, under the name of its place. -/
theorem own_of_declared {x : Cursor} {k : SymbolKind} {t : Node}
    (h : x.node.declared? = some (k, t)) :
    own s x = [.mk (nameAt s x) k x.span t.span []] := by
  unfold Node.declared? at h
  unfold own entriesFor
  split at h
  case h_1 c hkind | h_2 c hkind =>
    obtain ⟨t, ht, heq⟩ := Option.map_eq_some_iff.1 h
    cases heq
    simp only [hkind, ht]
    rfl
  case h_3 target value hkind =>
    obtain ⟨t, ht, heq⟩ := Option.map_eq_some_iff.1 h
    cases heq
    simp only [hkind, constantTarget?, ht]
    rfl
  case h_4 => cases h

theorem emit_of_declared (e : Encoding) {x : Cursor} {k : SymbolKind} {t : Node}
    (h : x.node.declared? = some (k, t)) :
    emit s e x =
      [.mk (nameAt s x) k (Text.rangeOf e s.text x.span) (Text.rangeOf e s.text t.span) []] := by
  rw [emit, own_of_declared s h, List.map_singleton, Symbol.map_mk, List.map_nil]

theorem kind_of_mem_methodEntry {around : Option Qualifier} {n : Node} {m : Method}
    {y : Symbol Span} (h : y ∈ methodEntry s around n m) : y.kind = .method := by
  unfold methodEntry at h
  split at h
  · cases h
  · split at h
    · obtain rfl := List.mem_singleton.1 h
      rfl
    · split at h
      · cases h
      · obtain rfl := List.mem_singleton.1 h
        rfl

theorem kind_of_mem_fieldEntries {n arguments : Node} {y : Symbol Span}
    (h : y ∈ fieldEntries s n arguments) : y.kind = .field := by
  obtain ⟨argument, -, hname⟩ := List.mem_filterMap.1 h
  obtain ⟨name, -, rfl⟩ := Option.map_eq_some_iff.1 hname
  rfl

/-- What declares neither a class nor a module nor a constant adds methods or fields. -/
theorem kind_of_mem_own {x : Cursor} (h : x.node.declared? = none) {y : Symbol Span}
    (hy : y ∈ own s x) : y.kind = .method ∨ y.kind = .field := by
  unfold Node.declared? at h
  unfold own entriesFor at hy
  cases hkind : x.node.kind with
  | classDef c | moduleDef c | assignment target value =>
    simp only [hkind, Option.map_eq_none_iff] at h
    simp [hkind, h, constantTarget?] at hy
  | method m =>
    rw [hkind] at hy
    exact .inl (kind_of_mem_methodEntry s hy)
  | call receiver method arguments block =>
    rw [hkind] at hy
    cases receiver with
    | some _ => cases hy
    | none =>
      dsimp only at hy
      split at hy
      · split at hy
        · exact .inr (kind_of_mem_fieldEntries s hy)
        · cases hy
      · cases hy
  | _ => simp [hkind] at hy

/-- **Composed names.** What declares a class, a module or a constant has one entry, and no other
entries are for such. Its name is that of the entry of the nearest place above that declares a
class, a module or a constant, and its own segment behind it; without such a place it is its own
segment. -/
theorem name_composed (e : Encoding) {x : Cursor} (hx : x ∈ s.root.cursors) :
    (∀ y ∈ emit s e x, y.kind ∈ [.classDef, .moduleDef, .constant] →
      ∃ t, x.node.declared? = some (y.kind, t)) ∧
    ∀ k t, x.node.declared? = some (k, t) →
      ∃ y ∈ flat s e, emit s e x = [y] ∧ y.kind = k ∧
        (x.declarer? = none → y.name = s.textOf t) ∧
        ∀ a, x.declarer? = some a →
          ∃ z ∈ flat s e, emit s e a = [z] ∧ y.name = z.name ++ "::" ++ s.textOf t := by
  constructor
  · intro y hy hkind
    cases hdeclared : x.node.declared? with
    | none =>
      obtain ⟨z, hz, rfl⟩ := List.mem_map.1 hy
      rw [Symbol.kind_map] at hkind
      rcases kind_of_mem_own s hdeclared hz with h | h <;> simp [h] at hkind
    | some d =>
      obtain ⟨k, t⟩ := d
      rw [emit_of_declared s e hdeclared, List.mem_singleton] at hy
      exact ⟨t, hy ▸ rfl⟩
  · intro k t hdeclared
    have hsole := emit_of_declared s e hdeclared
    have hname := nameAt_eq s hdeclared
    refine ⟨_, mem_flat_of_emit s hx hsole, hsole, rfl, fun hnone => ?_, fun a houter => ?_⟩
    · rw [hnone] at hname
      exact hname
    · rw [houter] at hname
      obtain ⟨⟨k', t'⟩, hdeclared'⟩ := Option.isSome_iff_exists.1 (Cursor.of_nearest? houter)
      have hsole' := emit_of_declared s e hdeclared'
      have ha := Cursor.mem_cursors_of_nearest? hx houter
      exact ⟨_, mem_flat_of_emit s ha hsole', hsole', hname⟩

open Source (classInSingleton) in
/-- The class `B` is named after the class `A`, though it stands in a singleton class of it. -/
theorem name_composed_classInSingleton :
    let s := classInSingleton
    let outer := s.root.cursorAt 2
    let inner := s.root.cursorAt 30
    outer.declarer? = none ∧ inner.declarer? = some outer ∧
      (inner.nearest? Node.isSingletonClass).isSome ∧
      (∃ z ∈ flat s .utf16, emit s .utf16 outer = [z] ∧ z.kind = .classDef ∧ z.name = "A") ∧
      ∃ y ∈ flat s .utf16, emit s .utf16 inner = [y] ∧ y.kind = .classDef ∧ y.name = "A::B" := by
  intro s outer inner
  have houtside : outer ∈ s.root.cursors := Node.cursorAt_mem_cursors s.root 2
  have hinside : inner ∈ s.root.cursors := Node.cursorAt_mem_cursors s.root 30
  have hfound : outer.declarer?.isNone ∧ (inner.nearest? Node.isSingletonClass).isSome ∧
      (inner.declarer?.map fun a => a.here.number) = some outer.here.number ∧
      (outer.node.declared?.map fun d => (d.1, Text.slice s.text d.2.span)) =
        some (.classDef, ['A']) ∧
      (inner.node.declared?.map fun d => (d.1, Text.slice s.text d.2.span)) =
        some (.classDef, ['B']) := by
    decide +kernel
  obtain ⟨hnone, hsingleton, hnumber, hA, hB⟩ := hfound
  obtain ⟨⟨_, t⟩, ht, hA⟩ := Option.map_eq_some_iff.1 hA
  obtain ⟨⟨_, u⟩, hu, hB⟩ := Option.map_eq_some_iff.1 hB
  obtain ⟨rfl, hA⟩ := Prod.mk.inj hA
  obtain ⟨rfl, hB⟩ := Prod.mk.inj hB
  have hnone := Option.isNone_iff_eq_none.1 hnone
  have houter : inner.declarer? = some outer := Cursor.nearest?_eq_some hinside houtside hnumber
  obtain ⟨z, hz, hsole, hkind, hname, -⟩ := (name_composed s .utf16 houtside).2 _ _ ht
  obtain ⟨y, hy, hsole', hkind', -, hname'⟩ := (name_composed s .utf16 hinside).2 _ _ hu
  obtain ⟨z', -, hsame, hname'⟩ := hname' outer houter
  obtain rfl := List.singleton_inj.1 (hsole.symm.trans hsame)
  have hfirst : z.name = "A" := (hname hnone).trans (congrArg String.ofList hA)
  have hlast : s.textOf u = "B" := congrArg String.ofList hB
  refine ⟨hnone, houter, hsingleton, ⟨z, hz, hsole, hkind, hfirst⟩, y, hy, hsole', hkind', ?_⟩
  rw [hname', hfirst, hlast]
  rfl

/-! ### Qualifiers -/

theorem qualifierOf_selfRef {v : Node} (h : v.kind = .selfRef) :
    qualifierOf s (some v) = .selfRef := by
  rw [qualifierOf, h]

theorem qualifierOf_constant {v : Node} (h : v.kind = .constant) :
    qualifierOf s (some v) = .constant (s.textOf v) := by
  rw [qualifierOf, h]

theorem qualifierOf_unknown {value : Option Node}
    (h : ∀ v, value = some v → v.kind ≠ .selfRef ∧ v.kind ≠ .constant) :
    qualifierOf s value = .unknown := by
  cases value with
  | none => rfl
  | some v =>
    obtain ⟨hself, hconstant⟩ := h v rfl
    simp only [qualifierOf]

theorem qualifier?_isSome (n : Node) : (qualifier? s n).isSome = n.isSingletonClass := by
  unfold qualifier? Node.isSingletonClass
  cases n.kind <;> rfl

/-- **The qualifier in force.** It is that of the nearest singleton class above. -/
theorem context_eq (x : Cursor) :
    context s x = (x.nearest? Node.isSingletonClass).bind fun a => qualifier? s a.node := by
  obtain ⟨here, above⟩ := x
  induction above generalizing here with
  | nil => rfl
  | cons p above ih =>
    have hstep : context s ⟨here, p :: above⟩ =
        (qualifier? s p.node).or (context s ⟨p, above⟩) := by
      rw [← qualifierInside_eq]
      exact context_child s ⟨p, above⟩ here
    have hnearest : Cursor.nearest? Node.isSingletonClass ⟨here, p :: above⟩ =
        if (qualifier? s p.node).isSome then some ⟨p, above⟩
        else Cursor.nearest? Node.isSingletonClass ⟨p, above⟩ := by
      rw [qualifier?_isSome]
      exact Cursor.nearest?_child (x := ⟨p, above⟩) here
    rw [hstep, hnearest, ih p]
    cases hqualifier : qualifier? s p.node with
    | some q => exact hqualifier.symm
    | none => rfl

/-- A method without receiver adds one entry. -/
theorem emit_of_method (e : Encoding) {x : Cursor} {m : Method} (hkind : x.kind = .method m)
    (hreceiver : x.node.child? m.receiver = none) {t : Node}
    (hname : x.node.child? m.name = some t) :
    emit s e x = [.mk (methodName (context s x) (s.textOf t)) .method
      (Text.rangeOf e s.text x.span) (Text.rangeOf e s.text t.span) []] := by
  have hown : own s x = [.mk (methodName (context s x) (s.textOf t)) .method x.span t.span []] := by
    unfold own entriesFor
    rw [show x.node.kind = .method m from hkind]
    simp only [methodEntry, hname, hreceiver]
    rfl
  rw [emit, hown, List.map_singleton, Symbol.map_mk, List.map_nil]

/-- **Names of methods.** A method without receiver has one entry, under a name that tells what the
nearest singleton class around it is opened on, whatever classes and modules lie in between. Without
a singleton class around it, it is a method of instances. -/
theorem name_of_method (e : Encoding) {x : Cursor} (hx : x ∈ s.root.cursors) {m : Method}
    (hkind : x.kind = .method m) (hreceiver : x.node.child? m.receiver = none) {t : Node}
    (hname : x.node.child? m.name = some t) :
    ∃ y ∈ flat s e, emit s e x = [y] ∧ y.kind = .method ∧
      (x.nearest? Node.isSingletonClass = none → y.name = "#" ++ s.textOf t) ∧
      ∀ a, x.nearest? Node.isSingletonClass = some a → ∃ c, a.kind = .singletonClass c ∧
        (∀ v, a.node.child? c.head = some v → v.kind = .selfRef → y.name = "." ++ s.textOf t) ∧
        (∀ v, a.node.child? c.head = some v → v.kind = .constant →
          y.name = s.textOf v ++ "." ++ s.textOf t) ∧
        ((∀ v, a.node.child? c.head = some v → v.kind ≠ .selfRef ∧ v.kind ≠ .constant) →
          y.name = "<unknown>." ++ s.textOf t) := by
  have hsole := emit_of_method s e hkind hreceiver hname
  refine ⟨_, mem_flat_of_emit s hx hsole, hsole, rfl, fun hnone => ?_, fun a ha => ?_⟩
  · rw [Symbol.name, context_eq, hnone]
    rfl
  · obtain ⟨c, hc⟩ := Node.exists_container_of_isSingletonClass (Cursor.of_nearest? ha)
    have hcontext : context s x = some (qualifierOf s (a.node.child? c.head)) := by
      rw [context_eq, ha, Option.bind_some, qualifier?, hc]
    rw [Symbol.name, hcontext]
    refine ⟨c, hc, fun v hv hself => ?_, fun v hv hconstant => ?_, fun hother => ?_⟩
    · rw [hv, qualifierOf_selfRef s hself, methodName]
    · rw [hv, qualifierOf_constant s hconstant, methodName]
    · rw [qualifierOf_unknown s hother, methodName]

section ClassInSingleton

open Source (classInSingleton)

/-- The method `n` has a name and no receiver. -/
theorem exists_name_classInSingleton :
    let s := classInSingleton
    let x := s.root.cursorAt 43
    ∃ m t, x.kind = .method m ∧ x.node.child? m.receiver = none ∧ x.node.child? m.name = some t ∧
      s.textOf t = "n" := by
  intro s x
  have hfound : x.kind = .method ⟨some ⟨42, 45⟩, some ⟨49, 52⟩, none, some 0, none⟩ ∧
      ((x.node.child? (some 0)).map fun t => Text.slice s.text t.span) = some ['n'] := by
    decide +kernel
  obtain ⟨t, ht, hspelled⟩ := Option.map_eq_some_iff.1 hfound.2
  exact ⟨_, t, hfound.1, rfl, ht, congrArg String.ofList hspelled⟩

/-- The method `n` of the class `B` is named as one on `self`, on which the singleton class around
`B` is opened. -/
theorem name_of_method_classInSingleton :
    let s := classInSingleton
    let x := s.root.cursorAt 43
    let a := s.root.cursorAt 11
    (∃ m t, x.kind = .method m ∧ x.node.child? m.receiver = none ∧ x.node.child? m.name = some t) ∧
      x.nearest? Node.isSingletonClass = some a ∧
      ∃ y ∈ flat s .utf16, emit s .utf16 x = [y] ∧ y.name = ".n" := by
  intro s x a
  have hx : x ∈ s.root.cursors := Node.cursorAt_mem_cursors s.root 43
  have ha : a ∈ s.root.cursors := Node.cursorAt_mem_cursors s.root 11
  have hfound : ((x.nearest? Node.isSingletonClass).map fun b => b.here.number) =
        some a.here.number ∧
      a.kind.container?.map Container.head = some (some 0) ∧
      (a.node.child? (some 0)).map Node.kind = some .selfRef := by
    decide +kernel
  obtain ⟨hnumber, hhead, hvalue⟩ := hfound
  have hnearest := Cursor.nearest?_eq_some hx ha hnumber
  obtain ⟨m, t, hkind, hreceiver, hname, hn⟩ := exists_name_classInSingleton
  obtain ⟨y, hy, hsole, -, -, hnamed⟩ := name_of_method s .utf16 hx hkind hreceiver hname
  obtain ⟨c, hc, hself, -, -⟩ := hnamed a hnearest
  rw [hc] at hhead
  obtain ⟨v, hv, hvkind⟩ := Option.map_eq_some_iff.1 hvalue
  rw [← Option.some.inj hhead] at hv
  refine ⟨⟨m, t, hkind, hreceiver, hname⟩, hnearest, y, hy, hsole, ?_⟩
  rw [hself v hv hvkind, hn]
  rfl

/-- The class nearest to the method `n` is `B`, but `n` is not named as a method of instances. -/
theorem not_named_by_nearest_class :
    let s := classInSingleton
    let x := s.root.cursorAt 43
    let a := s.root.cursorAt 30
    x ∈ s.root.cursors ∧ (x.nearest? fun n => n.kind.container?.isSome) = some a ∧
      (∃ c, a.kind = .classDef c) ∧
      ∃ m t, x.kind = .method m ∧ x.node.child? m.receiver = none ∧
        x.node.child? m.name = some t ∧
        ∃ y ∈ flat s .utf16, emit s .utf16 x = [y] ∧ y.name = ".n" ∧
          y.name ≠ "#" ++ s.textOf t := by
  intro s x a
  have hx : x ∈ s.root.cursors := Node.cursorAt_mem_cursors s.root 43
  have ha : a ∈ s.root.cursors := Node.cursorAt_mem_cursors s.root 30
  have hfound : ((x.nearest? fun n => n.kind.container?.isSome).map fun b => b.here.number) =
        some a.here.number ∧
      a.kind = .classDef ⟨some ⟨28, 33⟩, some ⟨57, 60⟩, some 0, some 1⟩ ∧
      context s x = some .selfRef := by
    decide +kernel
  obtain ⟨hnumber, hclass, hcontext⟩ := hfound
  obtain ⟨m, t, hkind, hreceiver, hname, hn⟩ := exists_name_classInSingleton
  have hsole := emit_of_method s .utf16 hkind hreceiver hname
  refine ⟨hx, Cursor.nearest?_eq_some hx ha hnumber, ⟨_, hclass⟩, m, t, hkind, hreceiver, hname, _,
    mem_flat_of_emit s hx hsole, hsole, ?_⟩
  rw [Symbol.name, hcontext, hn]
  decide

end ClassInSingleton

end Outline

end RubyLens
