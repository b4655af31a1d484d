import Mathlib.Data.List.TakeWhile
import Mathlib.Data.Nat.Find
import Mathlib.Order.Bounds.Basic
import RubyLens.Text.Lines

/-!
Leading parts of a text and the boundaries between its characters. A boundary is the size in bytes
of a leading part, and every fact about offsets is one about leading parts:

* `prefix_within_iff`: `within e n t` is the longest leading part of `t` that takes at most `n`
  units;
* `len_le_len_iff`: of two leading parts of one text, the shorter one is part of the other;
* `isGreatest_size_within`: the bytes of `within .utf8 n t` are the greatest boundary up to `n`.
-/

namespace RubyLens.Encoding

theorem len_mono (e : Encoding) {a b : Text} (h : a <+: b) : e.len a ≤ e.len b := by
  obtain ⟨c, rfl⟩ := h
  rw [len_append]
  omega

theorem len_pos (e : Encoding) {t : Text} (h : t ≠ []) : 0 < e.len t := by
  obtain ⟨c, t, rfl⟩ := List.exists_cons_of_ne_nil h
  have := e.charLen_pos c
  rw [len_cons]
  omega

end RubyLens.Encoding

namespace RubyLens.Text

/-! ### Leading parts -/

/-- Leading parts of one text are ordered by their length, whatever the unit. -/
theorem len_le_len_iff (e : Encoding) {a b t : Text} (ha : a <+: t) (hb : b <+: t) :
    e.len a ≤ e.len b ↔ a <+: b := by
  refine ⟨fun h => ?_, e.len_mono⟩
  rcases List.prefix_or_prefix_of_prefix ha hb with hab | ⟨c, rfl⟩
  · exact hab
  · by_cases hc : c = []
    · simp [hc]
    · have := e.len_pos hc
      rw [e.len_append] at h
      omega

theorem eq_of_len_eq (e : Encoding) {a b t : Text} (ha : a <+: t) (hb : b <+: t)
    (h : e.len a = e.len b) : a = b :=
  List.IsPrefix.eq_of_length_le ((len_le_len_iff e ha hb).1 h.le)
    ((len_le_len_iff e hb ha).1 h.ge).length_le

theorem within_isPrefix (e : Encoding) (n : Nat) (t : Text) : within e n t <+: t :=
  ⟨beyond e n t, within_append_beyond e n t⟩

/-- **Cutting.** The part of a text that is cut off is the longest one that takes at most `n`
units. -/
theorem prefix_within_iff {e : Encoding} {n : Nat} {a t : Text} :
    a <+: within e n t ↔ a <+: t ∧ e.len a ≤ n := by
  refine ⟨fun h => ⟨h.trans (within_isPrefix e n t), ?_⟩, ?_⟩
  · exact (e.len_mono h).trans (len_within_le e n t)
  · rintro ⟨h, hn⟩
    induction t generalizing n a with
    | nil => simpa [within] using h
    | cons c t ih =>
      rcases List.prefix_cons_iff.1 h with rfl | ⟨a, rfl, ha⟩
      · exact List.nil_prefix
      · rw [e.len_cons] at hn
        have hc : e.charLen c ≤ n := by omega
        rw [within, if_pos hc]
        exact List.cons_prefix_cons.2 ⟨rfl, ih ha (by omega)⟩

theorem within_eq_of_len {e : Encoding} {n : Nat} {a t : Text} (h : a <+: t) (hn : e.len a = n) :
    within e n t = a := by
  have hle : a <+: within e n t := prefix_within_iff.2 ⟨h, hn.le⟩
  refine eq_of_len_eq e (within_isPrefix e n t) h (Nat.le_antisymm ?_ (e.len_mono hle))
  rw [hn]
  exact len_within_le e n t

theorem within_size {a t : Text} (h : a <+: t) : within .utf8 (size a) t = a :=
  within_eq_of_len h rfl

theorem within_append (e : Encoding) (a b : Text) : within e (e.len a) (a ++ b) = a :=
  within_eq_of_len (List.prefix_append a b) rfl

theorem within_len_add (e : Encoding) (a b : Text) (n : Nat) :
    within e (e.len a + n) (a ++ b) = a ++ within e n b := by
  induction a with
  | nil => simp
  | cons c a ih =>
    have hc : e.charLen c ≤ e.len (c :: a) + n := by rw [e.len_cons]; omega
    have hsub : e.len (c :: a) + n - e.charLen c = e.len a + n := by rw [e.len_cons]; omega
    rw [List.cons_append, within, if_pos hc, hsub, ih, List.cons_append]

theorem within_zero (e : Encoding) (t : Text) : within e 0 t = [] :=
  within_eq_of_len List.nil_prefix e.len_nil

theorem beyond_append (e : Encoding) (a b : Text) : beyond e (e.len a) (a ++ b) = b := by
  have h := within_append_beyond e (e.len a) (a ++ b)
  rw [within_append] at h
  exact List.append_cancel_left h

theorem within_size_append (a b : Text) : within .utf8 (size a) (a ++ b) = a :=
  within_append .utf8 a b

theorem beyond_size_append (a b : Text) : beyond .utf8 (size a) (a ++ b) = b :=
  beyond_append .utf8 a b

theorem within_mono (e : Encoding) {n m : Nat} (h : n ≤ m) (t : Text) :
    within e n t <+: within e m t :=
  prefix_within_iff.2 ⟨within_isPrefix e n t, (len_within_le e n t).trans h⟩

@[simp] theorem size_append (a b : Text) : size (a ++ b) = size a + size b :=
  Encoding.utf8.len_append a b

theorem size_concat (a : Text) (c : Char) : size (a ++ [c]) = size a + c.utf8Size := by simp

theorem size_le_size_iff {a b t : Text} (ha : a <+: t) (hb : b <+: t) :
    size a ≤ size b ↔ a <+: b := len_le_len_iff .utf8 ha hb

theorem firstLine_isPrefix (t : Text) : firstLine t <+: t := List.takeWhile_prefix _

theorem newline_notMem_firstLine (t : Text) : '\n' ∉ firstLine t := by
  intro h
  simpa using List.mem_takeWhile_imp h

theorem firstLine_append {a : Text} (h : '\n' ∉ a) (b : Text) :
    firstLine (a ++ b) = a ++ firstLine b := by
  refine List.takeWhile_append_of_pos fun c hc => ?_
  simp only [bne_iff_ne, ne_eq]
  rintro rfl
  exact h hc

theorem prefix_firstLine_iff {a t : Text} : a <+: firstLine t ↔ a <+: t ∧ '\n' ∉ a := by
  constructor
  · intro h
    exact ⟨h.trans (firstLine_isPrefix t), fun hn => newline_notMem_firstLine t (h.subset hn)⟩
  · rintro ⟨⟨b, rfl⟩, hn⟩
    rw [firstLine_append hn]
    exact List.prefix_append _ _

/-! ### Boundaries -/

/-- A byte offset that lies between two characters, or at either end of the text. -/
def IsBoundary (t : Text) (b : Nat) : Prop := ∃ a, a <+: t ∧ size a = b

theorem isBoundary_iff_size_within {t : Text} {b : Nat} :
    IsBoundary t b ↔ size (within .utf8 b t) = b := by
  constructor
  · rintro ⟨a, ha, rfl⟩
    rw [within_size ha]
  · exact fun h => ⟨_, within_isPrefix .utf8 b t, h⟩

instance (t : Text) : DecidablePred (IsBoundary t) :=
  fun _ => decidable_of_iff _ isBoundary_iff_size_within.symm

theorem IsBoundary.le_size {t : Text} {b : Nat} (h : IsBoundary t b) : b ≤ size t := by
  obtain ⟨a, ha, rfl⟩ := h
  exact Encoding.utf8.len_mono ha

theorem isBoundary_size_append (a b : Text) : IsBoundary (a ++ b) (size a) :=
  ⟨a, List.prefix_append a b, rfl⟩

theorem isBoundary_size_within (t : Text) (n : Nat) : IsBoundary t (size (within .utf8 n t)) :=
  ⟨_, within_isPrefix .utf8 n t, rfl⟩

theorem isGreatest_size_within (t : Text) (n : Nat) :
    IsGreatest {b | IsBoundary t b ∧ b ≤ min n (size t)} (size (within .utf8 n t)) := by
  have hb := isBoundary_size_within t n
  refine ⟨⟨hb, le_min (len_within_le .utf8 n t) hb.le_size⟩, ?_⟩
  rintro b ⟨⟨a, ha, rfl⟩, hn⟩
  exact Encoding.utf8.len_mono (prefix_within_iff.2 ⟨ha, hn.trans (min_le_left _ _)⟩)

end RubyLens.Text
