import RubyLens.Text.Encoding

/-!
Cutting a text at an offset counted in any encoding. An offset inside a character belongs to
the boundary before it, and an offset past the end to the end.
-/

namespace RubyLens.Text

/-- The longest leading part of a text whose length in `e` is at most `n`. -/
def within (e : Encoding) : Nat → Text → Text
  | _, [] => []
  | n, c :: t => if e.charLen c ≤ n then c :: within e (n - e.charLen c) t else []

/-- What is left of a text after `within e n`. -/
def beyond (e : Encoding) : Nat → Text → Text
  | _, [] => []
  | n, c :: t => if e.charLen c ≤ n then beyond e (n - e.charLen c) t else c :: t

/-- An offset counted in `src`, counted in `dst` instead. -/
def convert (src dst : Encoding) (t : Text) (n : Nat) : Nat := dst.len (within src n t)

/-- The length of a text in bytes. -/
def size (t : Text) : Nat := Encoding.utf8.len t

@[simp] theorem size_nil : size [] = 0 := rfl

@[simp] theorem size_cons (c : Char) (t : Text) : size (c :: t) = c.utf8Size + size t := by
  simp [size, Encoding.charLen]

theorem within_append_beyond (e : Encoding) (n : Nat) (t : Text) :
    within e n t ++ beyond e n t = t := by
  induction t generalizing n with
  | nil => rfl
  | cons c t ih =>
    simp only [within, beyond]
    split
    · simp [ih]
    · rfl

theorem len_within_le (e : Encoding) (n : Nat) (t : Text) : e.len (within e n t) ≤ n := by
  induction t generalizing n with
  | nil => exact Nat.zero_le n
  | cons c t ih =>
    simp only [within]
    split
    next h =>
      have := ih (n - e.charLen c)
      simp only [Encoding.len_cons]
      omega
    · exact Nat.zero_le n

end RubyLens.Text
