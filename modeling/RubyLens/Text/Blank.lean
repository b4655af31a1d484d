import RubyLens.Text.Encoding

/-!
White space, which includes that of other scripts, and trimming it off.
-/

namespace RubyLens

/-- A character with the property White_Space. -/
def isBlank (c : Char) : Bool :=
  let n := c.toNat
  (9 ≤ n && n ≤ 13) || (0x2000 ≤ n && n ≤ 0x200A) ||
    [0x20, 0x85, 0xA0, 0x1680, 0x2028, 0x2029, 0x202F, 0x205F, 0x3000].contains n

namespace Text

/-- The text without the white space in front. -/
def trimStart (t : Text) : Text := t.dropWhile isBlank

/-- The text without the white space at both ends. -/
def trim (t : Text) : Text := (trimStart (trimStart t).reverse).reverse

end Text

/-- Every character that counts as white space in ASCII is white space. -/
theorem isBlank_of_isWhitespace {c : Char} (h : c.isWhitespace) : isBlank c := by
  simp only [Char.isWhitespace, Bool.or_eq_true, decide_eq_true_eq] at h
  rcases h with ((rfl | rfl) | rfl) | rfl <;> decide

end RubyLens
