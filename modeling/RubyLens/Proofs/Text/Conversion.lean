import RubyLens.Proofs.Text.LineIndex

/-!
Offsets in different units. An offset is converted by cutting the text at it and measuring what was
cut off, and there are two ways to cut: an offset in bytes is moved back to a boundary, an offset in
other units is looked for by a walk over the characters. Both come to the longest leading part that
takes at most so many units (`cut?_eq`), so what is cut off at a converted offset is what was cut off
before (`within_convert`), and all laws of `convert` follow from that.

Main statement: `convert_between_units`.
-/

namespace RubyLens.Text

/-! ### Two ways to cut -/

/-- The leading part up to a boundary, found from a byte offset by moving back. -/
def cutAtByte? (n : Nat) (t : Text) : Option Text :=
  if size t ≤ n then some t else slice? t ⟨0, Nat.findGreatest (IsBoundary t) n⟩

/-- The leading part before the first character that goes past `n` units. The walk is in front of
`rest`, has come by `measured` units and is at byte `index`. -/
def cutWalking? (e : Encoding) (n : Nat) (t : Text) : Nat → Nat → Text → Option Text
  | _, _, [] => some t
  | measured, index, c :: rest =>
    if n < measured + e.charLen c then slice? t ⟨0, index⟩
    else cutWalking? e n t (measured + e.charLen c) (index + c.utf8Size) rest

/-- The leading part of a text up to an offset. -/
def cut? (e : Encoding) (n : Nat) (t : Text) : Option Text :=
  if n = 0 then some []
  else match e with
  | .utf8 => cutAtByte? n t
  | e => cutWalking? e n t 0 0 t

/-- Of the leading parts of `t` that take at most `n` units, `a` is the longest one. -/
def IsLongest (e : Encoding) (n : Nat) (t a : Text) : Prop :=
  (a <+: t ∧ e.len a ≤ n) ∧ ∀ b, b <+: t → e.len b ≤ n → b <+: a

theorem isLongest_within (e : Encoding) (n : Nat) (t : Text) : IsLongest e n t (within e n t) :=
  ⟨⟨within_isPrefix e n t, len_within_le e n t⟩, fun _ hb hn => prefix_within_iff.2 ⟨hb, hn⟩⟩

theorem slice?_of_isPrefix {a t : Text} (h : a <+: t) : slice? t ⟨0, size a⟩ = some a := by
  obtain ⟨b, rfl⟩ := h
  exact slice?_append [] a b

theorem within_of_len_le {e : Encoding} {n : Nat} {t : Text} (h : e.len t ≤ n) :
    within e n t = t :=
  List.IsPrefix.eq_of_length_le (within_isPrefix e n t)
    (prefix_within_iff.2 ⟨List.prefix_refl t, h⟩).length_le

theorem cutAtByte?_eq (n : Nat) (t : Text) : cutAtByte? n t = some (within .utf8 n t) := by
  rw [cutAtByte?]
  split
  · next h => rw [within_of_len_le h]
  · next h =>
    have hback := findGreatest_isBoundary t n
    rw [Nat.min_eq_left (Nat.le_of_not_le h)] at hback
    rw [hback]
    exact slice?_of_isPrefix (within_isPrefix .utf8 n t)

/-- The walk has passed the part `a`, which is within the offset. -/
theorem cutWalking?_eq {e : Encoding} {n : Nat} {a rest t : Text} (ht : t = a ++ rest)
    (ha : e.len a ≤ n) : cutWalking? e n t (e.len a) (size a) rest = some (within e n t) := by
  induction rest generalizing a with
  | nil =>
    rw [List.append_nil] at ht
    subst ht
    rw [cutWalking?, within_of_len_le ha]
  | cons c rest ih =>
    rw [cutWalking?]
    split
    · next hpast =>
      -- the next character goes past the offset, so the cut is behind `a`
      obtain ⟨k, rfl⟩ := Nat.exists_eq_add_of_le ha
      have hc : ¬ e.charLen c ≤ k := by omega
      rw [ht, within_len_add, within, if_neg hc, List.append_nil]
      exact slice?_of_isPrefix (List.prefix_append a (c :: rest))
    · next hin =>
      have hlen : e.len (a ++ [c]) = e.len a + e.charLen c := by simp
      rw [← hlen, ← size_concat]
      exact ih (by simpa using ht) (by omega)

/-- **Cutting.** Every way to cut comes to the longest leading part, and never cuts inside a
character. -/
theorem cut?_eq (e : Encoding) (n : Nat) (t : Text) : cut? e n t = some (within e n t) := by
  have hwalk : cutWalking? e n t 0 0 t = some (within e n t) :=
    cutWalking?_eq (a := []) rfl (Nat.zero_le n)
  unfold cut?
  by_cases hzero : n = 0
  · rw [if_pos hzero, hzero, within_zero]
  · rw [if_neg hzero]
    cases e with
    | utf8 => exact cutAtByte?_eq n t
    | utf16 => exact hwalk
    | utf32 => exact hwalk

/-! ### Converting -/

/-- A converted offset cuts off what the offset cuts off. -/
theorem within_convert (a b : Encoding) (t : Text) (n : Nat) :
    within b (convert a b t n) t = within a n t :=
  within_eq_of_len (within_isPrefix a n t) rfl

theorem convert_convert (a b c : Encoding) (t : Text) (n : Nat) :
    convert b c t (convert a b t n) = convert a c t n := by
  rw [convert, within_convert, convert]

theorem convert_mono (a b : Encoding) (t : Text) {n m : Nat} (h : n ≤ m) :
    convert a b t n ≤ convert a b t m :=
  b.len_mono (within_mono a h t)

/-- There and back again leads to the same offset exactly if it is one between two characters. -/
theorem convert_convert_eq_self_iff (a b : Encoding) (t : Text) (n : Nat) :
    convert b a t (convert a b t n) = n ↔ ∃ p, p <+: t ∧ a.len p = n := by
  rw [convert_convert]
  constructor
  · intro h
    exact ⟨within a n t, within_isPrefix a n t, h⟩
  · rintro ⟨p, hp, hn⟩
    rw [convert, within_eq_of_len hp hn, hn]

/-! ### Main statement -/

/-- **Offsets in different units.** However a text is cut at an offset, what is cut off is the longest
leading part that takes at most so many units. Hence converting to a unit by way of another one is
converting to it at once, converting to the same unit does no more the second time, conversions are
monotone, and going there and back leads to the same offset exactly from between two characters. -/
theorem convert_between_units (t : Text) :
    (∀ e n, ∃ a, cut? e n t = some a ∧ IsLongest e n t a ∧ ∀ b, convert e b t n = b.len a) ∧
    (∀ n, cutAtByte? n t = cutWalking? .utf8 n t 0 0 t) ∧
    (∀ a b c n, convert b c t (convert a b t n) = convert a c t n) ∧
    (∀ a n, convert a a t (convert a a t n) = convert a a t n) ∧
    (∀ a b, Monotone (convert a b t)) ∧
    (∀ a b n, convert b a t (convert a b t n) = n ↔ ∃ p, p <+: t ∧ a.len p = n) := by
  refine ⟨fun e n => ?_, fun n => ?_, fun a b c => convert_convert a b c t,
    fun a => convert_convert a a a t, fun a b n m => convert_mono a b t,
    fun a b => convert_convert_eq_self_iff a b t⟩
  · exact ⟨within e n t, cut?_eq e n t, isLongest_within e n t, fun b => rfl⟩
  · rw [cutAtByte?_eq]
    exact (cutWalking?_eq (a := []) rfl (Nat.zero_le n)).symm

/-- An offset inside a surrogate pair is moved back in front of it. -/
example : convert .utf16 .utf8 ['a', '😀', 'x'] 2 = 1 := by decide

end RubyLens.Text
