import RubyLens.Proofs.Text.Wire
import RubyLens.Text.Edit

/-!
What edits do to a text when all of them are made at once. An edit becomes a patch, which is a span
of bytes with the text that takes its place, and patches that follow one another are made in one
pass over the text (`replaceFrom`).

* A comparison is read as one patch for each change that is let through (`Change.patches`); making
  these gives the text in which only those changes are made (`replaceFrom_patches`).
* The edits for single changes are these patches, with their spans sent as ranges
  (`single_eq_map`), and joining edits that touch does not change what they do (`join_map`).

Main statement: `applyAll_between`.
-/

namespace RubyLens.Text

/-! ### Patches -/

/-- A span and the text that takes its place. -/
structure Patch where
  span : Span
  text : Text
deriving DecidableEq, Repr

/-- The text from byte `start` on, with all patches made at once. -/
def replaceFrom (t : Text) : Nat → List Patch → Text
  | start, [] => beyond .utf8 start t
  | start, p :: ps => slice t ⟨start, p.span.start⟩ ++ p.text ++ replaceFrom t p.span.stop ps

/-- The patches follow one another from byte `start` on, and their ends are boundaries. -/
def Successive (t : Text) : Nat → List Patch → Prop
  | _, [] => True
  | start, p :: ps => start ≤ p.span.start ∧ p.span.start ≤ p.span.stop ∧
      IsBoundary t p.span.start ∧ IsBoundary t p.span.stop ∧ Successive t p.span.stop ps

theorem Successive.weaken {t : Text} {m n : Nat} {ps : List Patch} (h : Successive t n ps)
    (hle : m ≤ n) : Successive t m ps := by
  cases ps with
  | nil => trivial
  | cons p ps => exact ⟨hle.trans h.1, h.2⟩

theorem Successive.of_mem {t : Text} {start : Nat} {ps : List Patch} (h : Successive t start ps) :
    ∀ p ∈ ps, start ≤ p.span.start ∧ p.span.start ≤ p.span.stop ∧ IsBoundary t p.span.start ∧
      IsBoundary t p.span.stop := by
  induction ps generalizing start with
  | nil => simp
  | cons q ps ih =>
    obtain ⟨hpos, hle, hstart, hstop, hrest⟩ := h
    intro p hp
    rcases List.mem_cons.1 hp with rfl | hp
    · exact ⟨hpos, hle, hstart, hstop⟩
    · exact ih (hrest.weaken (hpos.trans hle)) p hp

theorem slice_self (t : Text) (n : Nat) : slice t ⟨n, n⟩ = [] := by
  rw [slice, Span.len, Nat.sub_self, within_zero]

/-- A character that no patch touches stays. -/
theorem replaceFrom_keep (a b : Text) (c : Char) {ps : List Patch}
    (h : Successive (a ++ c :: b) (size a + c.utf8Size) ps) :
    replaceFrom (a ++ c :: b) (size a) ps =
      c :: replaceFrom (a ++ c :: b) (size a + c.utf8Size) ps := by
  have hbehind : beyond .utf8 (size a + c.utf8Size) (a ++ c :: b) = b := by
    have := beyond_size_append (a ++ [c]) b
    simpa using this
  cases ps with
  | nil => rw [replaceFrom, replaceFrom, hbehind, beyond_size_append]
  | cons p ps =>
    have hle := h.1
    rw [replaceFrom, replaceFrom, slice, slice, hbehind, beyond_size_append, Span.len, Span.len,
      within, if_pos (by simp only [Encoding.charLen]; omega)]
    simp only [Encoding.charLen, List.cons_append, Nat.sub_add_eq]

/-- Two patches that touch do the same as one. -/
theorem replaceFrom_merge (t : Text) (start : Nat) {p q : Patch} (ps : List Patch)
    (h : p.span.stop = q.span.start) :
    replaceFrom t start (⟨⟨p.span.start, q.span.stop⟩, p.text ++ q.text⟩ :: ps) =
      replaceFrom t start (p :: q :: ps) := by
  rw [replaceFrom, replaceFrom, replaceFrom, h, slice_self]
  simp

end RubyLens.Text

namespace RubyLens.Change

open Text (Patch size)

/-! ### The changes of a comparison -/

/-- The text that was compared with another. -/
def oldText : List Change → Text
  | [] => []
  | .keep c :: cs => c :: oldText cs
  | .delete c :: cs => c :: oldText cs
  | .insert _ :: cs => oldText cs

/-- The text that it was compared with. -/
def newText : List Change → Text
  | [] => []
  | .keep c :: cs => c :: newText cs
  | .delete _ :: cs => newText cs
  | .insert c :: cs => c :: newText cs

/-- The text in which only those changes are made whose byte offset in the old text is admitted. The
changes left begin at byte `offset`. -/
def partly (admitted : Nat → Bool) : Nat → List Change → Text
  | _, [] => []
  | offset, .keep c :: cs => c :: partly admitted (offset + c.utf8Size) cs
  | offset, .delete c :: cs =>
    if admitted offset then partly admitted (offset + c.utf8Size) cs
    else c :: partly admitted (offset + c.utf8Size) cs
  | offset, .insert c :: cs =>
    if admitted offset then c :: partly admitted offset cs else partly admitted offset cs

/-- One patch for each change that is admitted. -/
def patches (admitted : Nat → Bool) : Nat → List Change → List Patch
  | _, [] => []
  | offset, .keep c :: cs => patches admitted (offset + c.utf8Size) cs
  | offset, .delete c :: cs =>
    let rest := patches admitted (offset + c.utf8Size) cs
    if admitted offset then ⟨⟨offset, offset + c.utf8Size⟩, []⟩ :: rest else rest
  | offset, .insert c :: cs =>
    let rest := patches admitted offset cs
    if admitted offset then ⟨⟨offset, offset⟩, [c]⟩ :: rest else rest

/-- A patch for a change deletes or inserts something. -/
theorem changes_of_mem_patches {admitted : Nat → Bool} {offset : Nat} {cs : List Change}
    {p : Patch} (h : p ∈ patches admitted offset cs) :
    p.span.start < p.span.stop ∨ p.text ≠ [] := by
  induction cs generalizing offset with
  | nil => simp [patches] at h
  | cons change cs ih =>
    cases change with
    | keep c => exact ih h
    | delete c =>
      rw [patches] at h
      split at h
      · rcases List.mem_cons.1 h with rfl | h
        · exact Or.inl (Nat.lt_add_of_pos_right c.utf8Size_pos)
        · exact ih h
      · exact ih h
    | insert c =>
      rw [patches] at h
      split at h
      · rcases List.mem_cons.1 h with rfl | h
        · exact Or.inr (List.cons_ne_nil c [])
        · exact ih h
      · exact ih h

theorem partly_of_all {admitted : Nat → Bool} (h : ∀ n, admitted n = true) (offset : Nat)
    (cs : List Change) : partly admitted offset cs = newText cs := by
  induction cs generalizing offset with
  | nil => rfl
  | cons change cs ih => cases change <;> simp [partly, newText, h, ih]

section Patches

variable {t : Text} (admitted : Nat → Bool)

/-- The patches for changes follow one another. The part `a` of the text is behind us. -/
theorem successive_patches (a : Text) (cs : List Change) (h : t = a ++ oldText cs) :
    Text.Successive t (size a) (patches admitted (size a) cs) := by
  induction cs generalizing a with
  | nil => trivial
  | cons change cs ih =>
    cases change with
    | keep c =>
      have ih := ih (a ++ [c]) (by simpa [oldText] using h)
      rw [Text.size_concat] at ih
      exact ih.weaken (Nat.le_add_right _ _)
    | delete c =>
      have hnext : t = (a ++ [c]) ++ oldText cs := by simpa [oldText] using h
      have ih := ih (a ++ [c]) hnext
      have hstop : Text.IsBoundary t (size (a ++ [c])) :=
        hnext ▸ Text.isBoundary_size_append (a ++ [c]) _
      rw [Text.size_concat] at ih hstop
      rw [patches]
      split
      · exact ⟨le_rfl, Nat.le_add_right _ _, h ▸ Text.isBoundary_size_append a _, hstop, ih⟩
      · exact ih.weaken (Nat.le_add_right _ _)
    | insert c =>
      have ih := ih a h
      have hb : Text.IsBoundary t (size a) := h ▸ Text.isBoundary_size_append a _
      rw [patches]
      split
      · exact ⟨le_rfl, le_rfl, hb, hb, ih⟩
      · exact ih

/-- **Making the patches makes the changes.** -/
theorem replaceFrom_patches (a : Text) (cs : List Change) (h : t = a ++ oldText cs) :
    Text.replaceFrom t (size a) (patches admitted (size a) cs) = partly admitted (size a) cs := by
  induction cs generalizing a with
  | nil =>
    rw [h, oldText, patches, Text.replaceFrom, Text.beyond_size_append, partly]
  | cons change cs ih =>
    cases change with
    | keep c =>
      have hnext : t = (a ++ [c]) ++ oldText cs := by simpa [oldText] using h
      have ih := ih (a ++ [c]) hnext
      have hsucc := successive_patches admitted (a ++ [c]) cs hnext
      rw [Text.size_concat, h, oldText] at ih hsucc
      rw [patches, partly, h, oldText, Text.replaceFrom_keep _ _ _ hsucc, ih]
    | delete c =>
      have hnext : t = (a ++ [c]) ++ oldText cs := by simpa [oldText] using h
      have ih := ih (a ++ [c]) hnext
      have hsucc := successive_patches admitted (a ++ [c]) cs hnext
      rw [Text.size_concat, h, oldText] at ih hsucc
      rw [patches, partly, h, oldText]
      split
      · rw [Text.replaceFrom, Text.slice_self, ih]
        rfl
      · rw [Text.replaceFrom_keep _ _ _ hsucc, ih]
    | insert c =>
      have ih := ih a h
      rw [patches, partly]
      split
      · rw [Text.replaceFrom, Text.slice_self, ih]
        rfl
      · exact ih

end Patches

end RubyLens.Change

namespace RubyLens.Edit

open Text (Patch FitsWire rangeOf spanOf positionAt replaceFrom Successive)

variable {e : Encoding} {t : Text}

/-! ### Edits as patches -/

/-- What an edit asks for, in bytes. -/
def patch (e : Encoding) (t : Text) (a : Edit) : Patch := ⟨spanOf e t a.range, a.text⟩

/-- A patch as it is sent. -/
def ofPatch (e : Encoding) (t : Text) (p : Patch) : Edit := ⟨rangeOf e t p.span, p.text⟩

/-- A text with all edits made at once. -/
def applyAll (e : Encoding) (t : Text) (edits : List Edit) : Text :=
  replaceFrom t 0 (edits.map (patch e t))

theorem patch_ofPatch (hfit : FitsWire e t) {start : Nat} {ps : List Patch}
    (h : Successive t start ps) : (ps.map (ofPatch e t)).map (patch e t) = ps := by
  induction ps generalizing start with
  | nil => rfl
  | cons p ps ih =>
    obtain ⟨-, hle, hstart, hstop, hrest⟩ := h
    rw [List.map_cons, List.map_cons, ih hrest, patch, ofPatch]
    simp only [hfit.spanOf_rangeOf hstart hstop hle]

/-- The edits for single changes are patches. -/
theorem single_eq_map (e : Encoding) (t : Text) (filter : Option Range) (offset : Nat)
    (cs : List Change) :
    single e t filter offset cs =
      (Change.patches (fun n => admits filter (positionAt e t n).toWire) offset cs).map
        (ofPatch e t) := by
  induction cs generalizing offset with
  | nil => rfl
  | cons change cs ih =>
    cases change with
    | keep c => rw [single, Change.patches, ih]
    | delete c =>
      rw [single, Change.patches, ih, apply_ite (List.map (ofPatch e t))]
      rfl
    | insert c =>
      rw [single, Change.patches, ih, apply_ite (List.map (ofPatch e t))]
      rfl

/-! ### Joining -/

/-- The edit that two edits become that touch. -/
def merge (a b : Edit) : Edit := ⟨⟨a.range.start, b.range.stop⟩, a.text ++ b.text⟩

theorem join_cons_of_touching {a b : Edit} {edits more : List Edit} (h : join edits = b :: more)
    (ht : a.range.stop = b.range.start) : join (a :: edits) = merge a b :: more := by
  rw [join, h]
  simp only [ht, if_true, merge]

theorem join_cons_of_apart {a : Edit} {edits : List Edit}
    (h : ∀ b ∈ (join edits).head?, a.range.stop ≠ b.range.start) :
    join (a :: edits) = a :: join edits := by
  rw [join]
  rcases hj : join edits with _ | ⟨b, more⟩
  · rfl
  · rw [hj] at h
    simp only [h b rfl, if_false]

/-- Edits that touch are joined as patches are, and do the same as before. -/
theorem join_map (hfit : FitsWire e t) {start : Nat} {ps : List Patch}
    (h : Successive t start ps) :
    ∃ qs, join (ps.map (ofPatch e t)) = qs.map (ofPatch e t) ∧ Successive t start qs ∧
      replaceFrom t start qs = replaceFrom t start ps := by
  induction ps generalizing start with
  | nil => exact ⟨[], rfl, trivial, rfl⟩
  | cons p ps ih =>
    obtain ⟨hpos, hle, hstart, hstop, hrest⟩ := h
    obtain ⟨qs, hjoin, hsucc, hsame⟩ := ih hrest
    -- `p` stays as it is, in front of what the others have become
    have hcons : replaceFrom t start (p :: qs) = replaceFrom t start (p :: ps) := by
      rw [replaceFrom, hsame, replaceFrom]
    rcases qs with _ | ⟨q, qs⟩
    · refine ⟨[p], ?_, ⟨hpos, hle, hstart, hstop, trivial⟩, hcons⟩
      rw [List.map_cons, join_cons_of_apart (by simp [hjoin]), hjoin]
      rfl
    · by_cases ht : p.span.stop = q.span.start
      · obtain ⟨hpos', hle', hstart', hstop', hrest'⟩ := hsucc
        refine ⟨⟨⟨p.span.start, q.span.stop⟩, p.text ++ q.text⟩ :: qs, ?_,
          ⟨hpos, by simp only; omega, hstart, hstop', hrest'⟩, ?_⟩
        · rw [List.map_cons, join_cons_of_touching hjoin (by simp [ofPatch, rangeOf, ht])]
          rfl
        · rw [Text.replaceFrom_merge t start qs ht, hcons]
      · refine ⟨p :: q :: qs, ?_, ⟨hpos, hle, hstart, hstop, hsucc⟩, hcons⟩
        rw [List.map_cons, join_cons_of_apart, hjoin]
        · rfl
        · intro b hb
          rw [hjoin] at hb
          obtain rfl : ofPatch e t q = b := by simpa using hb
          simp only [ofPatch, hfit.rangeOf_eq]
          exact fun heq => ht ((Text.positionAt_inj e hstop hsucc.2.2.1).1 heq)

/-- The edits between two texts are patches that make the changes let through by the filter. -/
theorem between_eq_map {before after : Text} {changes : List Change} (filter : Option Range)
    (hold : Change.oldText changes = before) (hfit : FitsWire e before) (hne : before ≠ after) :
    ∃ ps, between e before after changes filter = ps.map (ofPatch e before) ∧
      Successive before 0 ps ∧
      replaceFrom before 0 ps =
        Change.partly (fun n => admits filter (positionAt e before n)) 0 changes := by
  have hsplit : before = [] ++ Change.oldText changes := hold.symm
  have hsingle := single_eq_map e before filter 0 changes
  simp only [hfit.toWire_positionAt] at hsingle
  have hpatches :=
    Change.successive_patches (fun n => admits filter (positionAt e before n)) [] _ hsplit
  obtain ⟨ps, hjoin, hsucc, hsame⟩ := join_map hfit hpatches
  refine ⟨ps, ?_, hsucc, ?_⟩
  · rw [between, if_neg hne, hsingle]
    exact hjoin
  · exact hsame.trans (Change.replaceFrom_patches _ [] changes hsplit)

/-! ### No edits -/

theorem join_eq_nil_iff {edits : List Edit} : join edits = [] ↔ edits = [] := by
  cases edits with
  | nil => exact iff_of_true rfl rfl
  | cons a edits =>
    rw [join]
    split
    · simp
    · split <;> simp

/-- Where no change makes an edit, none changes anything. -/
theorem oldText_eq_newText_of_single {e : Encoding} {t : Text} {offset : Nat} {cs : List Change}
    (h : single e t none offset cs = []) : Change.oldText cs = Change.newText cs := by
  induction cs generalizing offset with
  | nil => rfl
  | cons change cs ih =>
    cases change with
    | keep c => rw [Change.oldText, Change.newText, ih h]
    | delete c => cases h
    | insert c => cases h

/-- Without a filter, only equal texts have no edits between them. -/
theorem between_eq_nil_iff (e : Encoding) {before after : Text} {changes : List Change}
    (hold : Change.oldText changes = before) (hnew : Change.newText changes = after) :
    between e before after changes none = [] ↔ before = after := by
  unfold between
  split
  · next heq => simp [heq]
  · next hne =>
    rw [join_eq_nil_iff]
    refine iff_of_false (fun h => hne ?_) hne
    rw [← hold, ← hnew, oldText_eq_newText_of_single h]

/-! ### Main statement -/

/-- **The edits between two texts make the changes that are let through.** If the changes spell the
two texts, all edits can be made at once, in their order, and give the old text with exactly those
changes made whose position the filter includes; without a filter that is the new text. -/
theorem applyAll_between (e : Encoding) (before after : Text) (changes : List Change)
    (filter : Option Range) (hold : Change.oldText changes = before)
    (hnew : Change.newText changes = after) (hfit : FitsWire e before) :
    (before = after → between e before after changes filter = []) ∧
    (before ≠ after →
      Successive before 0 ((between e before after changes filter).map (patch e before)) ∧
      applyAll e before (between e before after changes filter) =
        Change.partly (fun n => admits filter (positionAt e before n)) 0 changes) ∧
    (filter = none → applyAll e before (between e before after changes filter) = after) := by
  have hequal : before = after → between e before after changes filter = [] :=
    fun h => if_pos h
  have hpartly (hne : before ≠ after) :
      Successive before 0 ((between e before after changes filter).map (patch e before)) ∧
      applyAll e before (between e before after changes filter) =
        Change.partly (fun n => admits filter (positionAt e before n)) 0 changes := by
    obtain ⟨ps, hbetween, hsucc, hsame⟩ := between_eq_map filter hold hfit hne
    rw [applyAll, hbetween, patch_ofPatch hfit hsucc]
    exact ⟨hsucc, hsame⟩
  refine ⟨hequal, hpartly, ?_⟩
  rintro rfl
  by_cases hne : before = after
  · rw [hequal hne, ← hne]
    exact Text.beyond_size_append [] before
  · have hall :=
      Change.partly_of_all (fun n => rfl : ∀ n, admits none (positionAt e before n) = true)
    rw [(hpartly hne).2, hall, hnew]

/-- A replacement that straddles the end of the filter, with a line feed and a character of two
units before it: what starts inside is deleted, and nothing is inserted. -/
theorem applyAll_between_straddling :
    let before : Text := ['😀', '\n', 'a', 'b']
    let changes : List Change :=
      [.keep '😀', .keep '\n', .delete 'a', .delete 'b', .insert 'x']
    let filter : Option Range := some ⟨⟨0, 2⟩, ⟨1, 0⟩⟩
    FitsWire .utf16 before ∧
      applyAll .utf16 before (between .utf16 before ['😀', '\n', 'x'] changes filter) =
        ['😀', '\n', 'b'] := by
  intro before changes filter
  have hfit : FitsWire .utf16 before := by decide
  have h := (applyAll_between .utf16 before ['😀', '\n', 'x'] changes filter rfl rfl hfit).2.1
    (by decide)
  exact ⟨hfit, h.2.trans (by decide)⟩

end RubyLens.Edit
