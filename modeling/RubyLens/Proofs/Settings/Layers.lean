import RubyLens.Settings.Layer

/-!
Layers as one. Where sections or whole layers are missing, the other side stands for both
(`merge_eq`); so their laws are those of merging what is there. Sections are merged apart from one
another, and the value of a merged section is that of the upper section or else that of the lower one
(`Section.get?_merge`); so what a whole stack of layers sets in a section is what the last of them
sets that sets anything there (`setIn_mergeAll`), whatever sections are there and empty. Layers form
a monoid, and a stack is its product (`mergeAll_append`).

Main statement: `resolve_mergeAll`.
-/

namespace RubyLens

variable {α : Type}

/-! ### Sections -/

namespace Section

/-- Two sections that are there, as one. -/
def overlay (l u : Section α) : Section α := ⟨u.value.or l.value⟩

instance : Std.Associative (@overlay α) := ⟨fun _ _ _ => congrArg mk Option.or_assoc.symm⟩

variable (a b c : Option (Section α))

theorem merge_eq : merge a b = Option.merge overlay a b := by cases a <;> cases b <;> rfl

theorem merge_assoc : merge (merge a b) c = merge a (merge b c) := by
  simp only [merge_eq]
  exact Std.Associative.assoc a b c

/-- The upper section decides where it sets its value. -/
theorem get?_merge : get? (merge a b) = (get? b).or (get? a) := by
  cases a <;> cases b <;> simp [merge, get?]

end Section

namespace Layer

/-! ### Layers -/

instance : Std.Associative mergeSections :=
  ⟨fun l m u => by simp only [mergeSections, Section.merge_assoc]⟩

section Monoid

variable (a b c : Option Layer)

theorem merge_eq : merge a b = Option.merge mergeSections a b := by cases a <;> cases b <;> rfl

@[simp] theorem none_merge : merge none a = a := by rw [merge_eq, Option.merge_none_left]

@[simp] theorem merge_none : merge a none = a := by rw [merge_eq, Option.merge_none_right]

theorem merge_assoc : merge (merge a b) c = merge a (merge b c) := by
  simp only [merge_eq]
  exact Std.Associative.assoc a b c

instance : Std.Associative merge := ⟨merge_assoc⟩

theorem merge_eq_none_iff : merge a b = none ↔ a = none ∧ b = none := by
  rw [merge_eq, Option.merge_eq_none_iff]

end Monoid

/-! ### Stacks of layers -/

variable {xs : List (Option Layer)}

theorem mergeAll_cons (l : Option Layer) (xs : List (Option Layer)) :
    mergeAll (l :: xs) = merge l (mergeAll xs) := by
  have h := @List.foldl_assoc _ merge _ xs l none
  rw [merge_none] at h
  rw [mergeAll, List.foldl_cons, none_merge, h, mergeAll]

theorem mergeAll_append (xs ys : List (Option Layer)) :
    mergeAll (xs ++ ys) = merge (mergeAll xs) (mergeAll ys) := by
  induction xs with
  | nil => exact (none_merge (mergeAll ys)).symm
  | cons l xs ih => rw [List.cons_append, mergeAll_cons, ih, mergeAll_cons, merge_assoc]

theorem mergeAll_eq_none_iff : mergeAll xs = none ↔ ∀ l ∈ xs, l = none := by
  induction xs with
  | nil => simp [mergeAll]
  | cons l xs ih => rw [mergeAll_cons, merge_eq_none_iff, ih, List.forall_mem_cons]

/-- Layers that are not there may be left out. -/
theorem mergeAll_filterMap {β : Type} (f : β → Option Layer) (cs : List β) :
    mergeAll ((cs.filterMap f).map some) = mergeAll (cs.map f) := by
  induction cs with
  | nil => rfl
  | cons c cs ih =>
    rw [List.map_cons, mergeAll_cons, ← ih]
    cases hc : f c with
    | none => rw [List.filterMap_cons_none hc, none_merge]
    | some l => rw [List.filterMap_cons_some hc, List.map_cons, mergeAll_cons]

/-! ### What a stack sets -/

/-- The value that a layer sets in one of its sections, if it is there and does. -/
def setIn (part : Layer → Option (Section α)) (l : Option Layer) : Option α :=
  l.bind fun l => Section.get? (part l)

/-- The value that the last layer sets that sets one. -/
def lastSet? (part : Layer → Option (Section α)) (xs : List (Option Layer)) : Option α :=
  xs.findSomeRev? (setIn part)

/-- The section is merged from the sections in its place and from nothing else. -/
def MergedApart (part : Layer → Option (Section α)) : Prop :=
  ∀ l u, part (mergeSections l u) = Section.merge (part l) (part u)

section SetIn

variable {part : Layer → Option (Section α)} (h : MergedApart part)

include h

theorem setIn_merge (a b : Option Layer) :
    setIn part (merge a b) = (setIn part b).or (setIn part a) := by
  cases a with
  | none => simp [setIn]
  | some l =>
    cases b with
    | none => simp [setIn]
    | some u => simp only [merge, setIn, Option.bind_some, h l u, Section.get?_merge]

/-- **What a stack sets in a section.** -/
theorem setIn_mergeAll (xs : List (Option Layer)) : setIn part (mergeAll xs) = lastSet? part xs := by
  induction xs with
  | nil => rfl
  | cons l xs ih =>
    -- the search from the top meets the lowest layer last, and the merge asks it last too
    rw [mergeAll_cons, setIn_merge h, ih, lastSet?, lastSet?, List.findSomeRev?]
    cases xs.findSomeRev? (setIn part) <;> rfl

end SetIn

theorem lastSet?_eq_some_iff {part : Layer → Option (Section α)} {v : α} :
    lastSet? part xs = some v ↔ ∃ below l above, xs = below ++ l :: above ∧
      setIn part l = some v ∧ ∀ u ∈ above, setIn part u = none := by
  rw [lastSet?, List.findSomeRev?_eq_findSome?_reverse, List.findSome?_eq_some_iff]
  constructor
  · rintro ⟨above, l, below, hxs, hl, habove⟩
    refine ⟨below.reverse, l, above.reverse, ?_, hl, fun u hu => habove u (List.mem_reverse.1 hu)⟩
    rw [← List.reverse_reverse xs, hxs]
    simp
  · rintro ⟨below, l, above, rfl, hl, habove⟩
    exact ⟨above.reverse, l, below.reverse, by simp, hl, fun u hu =>
      habove u (List.mem_reverse.1 hu)⟩

/-! ### Main statement -/

/-- **A stack of layers.** Layers form a monoid, in which no layer is the unit, and a stack is its
product, which is no layer only if there is none in it. Whatever a stack leads to has in each place
what the last layer sets that sets this place, or the default, and nothing that is set elsewhere
counts. -/
theorem resolve_mergeAll :
    (∀ a b c, merge (merge a b) c = merge a (merge b c)) ∧
    (∀ a, merge none a = a ∧ merge a none = a) ∧
    (∀ xs ys, mergeAll (xs ++ ys) = merge (mergeAll xs) (mergeAll ys)) ∧
    (∀ xs, mergeAll xs = none ↔ ∀ l ∈ xs, l = none) ∧
    (∀ xs, (mergeAll xs).map resolve =
      if ∀ l ∈ xs, l = none then none
      else some
        { diagnostics := (lastSet? diagnostics xs).getD defaults.resolve.diagnostics
          documentFormatting :=
            (lastSet? documentFormatting xs).getD defaults.resolve.documentFormatting
          documentHighlight :=
            (lastSet? documentHighlight xs).getD defaults.resolve.documentHighlight
          documentSymbol := (lastSet? documentSymbol xs).getD defaults.resolve.documentSymbol
          selectionRanges := (lastSet? selectionRanges xs).getD defaults.resolve.selectionRanges
          rubocopTimeoutMs := (lastSet? rubocop xs).getD defaults.resolve.rubocopTimeoutMs }) ∧
    (∀ {β : Type} (part : Layer → Option (Section β)) (xs : List (Option Layer)) (v : β),
      lastSet? part xs = some v ↔ ∃ below l above, xs = below ++ l :: above ∧
        setIn part l = some v ∧ ∀ u ∈ above, setIn part u = none) := by
  refine ⟨merge_assoc, fun a => ⟨none_merge a, merge_none a⟩, mergeAll_append,
    fun xs => mergeAll_eq_none_iff, fun xs => ?_, fun part xs v => lastSet?_eq_some_iff⟩
  by_cases hnone : ∀ l ∈ xs, l = none
  · rw [if_pos hnone, mergeAll_eq_none_iff.2 hnone, Option.map_none]
  · obtain ⟨l, hl⟩ := Option.ne_none_iff_exists'.1 (mt mergeAll_eq_none_iff.1 hnone)
    have hset {β : Type} (part : Layer → Option (Section β)) (h : MergedApart part) :
        Section.get? (part l) = lastSet? part xs := by
      rw [← setIn_mergeAll h, hl]
      rfl
    rw [if_neg hnone, hl, Option.map_some, resolve, hset diagnostics fun _ _ => rfl,
      hset documentFormatting fun _ _ => rfl, hset documentHighlight fun _ _ => rfl,
      hset documentSymbol fun _ _ => rfl, hset selectionRanges fun _ _ => rfl,
      hset rubocop fun _ _ => rfl]
    rfl

/-- A section that is there and empty hides nothing, and neither does a layer that is not there. -/
example : (mergeAll [some { blank with diagnostics := some ⟨some false⟩ }, none,
    some { blank with diagnostics := some ⟨none⟩, rubocop := some ⟨some 250⟩ }]).map resolve =
      some { defaults.resolve with diagnostics := false, rubocopTimeoutMs := 250 } := by decide

end Layer

end RubyLens
