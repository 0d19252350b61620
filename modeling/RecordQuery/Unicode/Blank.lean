import RecordQuery.Unicode.Ranges
/-!
# White space

The characters that separate tokens and that surround a literal without belonging to it: the
`White_Space` property of the Unicode standard.
-/

namespace RecordQuery.Unicode

/-- The code points with the `White_Space` property. -/
def blankRanges : List (Nat × Nat) :=
  [(0x9, 0xD), (0x20, 0x20), (0x85, 0x85), (0xA0, 0xA0), (0x1680, 0x1680), (0x2000, 0x200A),
   (0x2028, 0x2029), (0x202F, 0x202F), (0x205F, 0x205F), (0x3000, 0x3000)]

/-- `isBlank c` holds when `c` is white space. -/
def isBlank (c : Char) : Bool :=
  inRanges blankRanges c

/-- Removes the white space in front. -/
def trimStart (text : List Char) : List Char :=
  text.dropWhile isBlank

/-- Removes the white space at the end. -/
def trimEnd (text : List Char) : List Char :=
  (text.reverse.dropWhile isBlank).reverse

/-- Removes the white space at both ends. -/
def trim (text : List Char) : List Char :=
  trimEnd (trimStart text)

/-- A text whose first and last characters are not white space keeps all of itself. -/
theorem trim_eq_self {text : List Char} (first : ∀ c ∈ text.head?, isBlank c = false)
    (last : ∀ c ∈ text.getLast?, isBlank c = false) : trim text = text := by
  have keep : ∀ cs : List Char, (∀ c ∈ cs.head?, isBlank c = false) →
      cs.dropWhile isBlank = cs := by
    intro cs h
    cases cs with
    | nil => rfl
    | cons c r => simp [List.dropWhile, h c (by simp)]
  have back : ∀ c ∈ text.reverse.head?, isBlank c = false := by
    simpa [List.head?_reverse] using last
  simp [trim, trimStart, trimEnd, keep text first, keep _ back]

end RecordQuery.Unicode
