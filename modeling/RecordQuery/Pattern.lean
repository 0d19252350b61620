import RecordQuery.Unicode.Folding
/-!
# Patterns

A pattern is matched against a whole text: `%` stands for any text, `_` for any one character, line
ends included, and every other character for itself without regard to case. A pattern that takes too much
room is refused when it is made.

Matching is done for all the ends of the text at once: `matchEnds` says of every suffix whether the
pattern matches it, going over the pattern from its end.
-/

namespace RecordQuery

/-! ## The room that a pattern takes

A pattern is compiled to states that read the bytes of a text from its end, and the room of these is limited. A
state takes 32 bytes, an arc out of a state with several of them 8 more, and a way out of a choice 4. -/

/-- The states that characters share where their encodings begin with the same bytes: for each number of bytes
short of all, how many bytes the encoding has and what of the code point the first of them say. -/
def encodingStarts (c : Char) : List (Nat × Nat) :=
  (List.range (c.utf8Size - 1)).map fun n => (c.utf8Size, c.toNat >>> (6 * (n + 1)))

/-- The room of a choice between characters. In ASCII it is one state with an arc for each. Else it is a choice
between their encodings, of which those that follow one another, all but the last byte alike, are one. -/
def choiceWeight (variants : List Char) : Nat :=
  if variants.all fun c => c.toNat < 128 then 64 + 8 * variants.length
  else
    let follows (c : Char) : Bool := c.toNat % 64 != 0 && variants.any fun d => d.toNat + 1 == c.toNat
    let ends := (variants.filter fun c => !follows c).length
    let starts := (variants.flatMap encodingStarts).eraseDups.length
    64 + 36 * ends + 32 * starts

/-- The room of a sign of a pattern. The two open signs stand for any character; any other character stands for
its case variants, and without such for its bytes alone. -/
def signWeight : Char → Nat
  | '%' => 1004
  | '_' => 964
  | c =>
    match Unicode.caseVariants c with
    | [_] => 32 * c.utf8Size
    | variants => choiceWeight variants

/-- The room of a pattern: that of its signs and of what stands around them. -/
def patternWeight (source : List Char) : Nat :=
  source.foldl (fun room c => room + signWeight c) 192

/-- The largest weight a pattern may have. -/
def maxPatternWeight : Nat :=
  1048576

/-- A pattern that is not too heavy to be matched. -/
structure Pattern where
  source : String
  weight_le : patternWeight source.toList ≤ maxPatternWeight

namespace Pattern

/-- The pattern of a text, if it is not refused. -/
def ofText? (source : String) : Option Pattern :=
  if h : patternWeight source.toList ≤ maxPatternWeight then some ⟨source, h⟩ else none

/-- The list of all suffixes' answers after one more character `c` must stand in front: the suffix
starts with a character that `accepts`, and what follows it is answered by `ends`. -/
def matchOne (accepts : Char → Bool) : (text : List Char) → (ends : List Bool) → List Bool
  | c :: text, _ :: next :: ends => (accepts c && next) :: matchOne accepts text (next :: ends)
  | _, _ => [false]

/-- The list of all suffixes' answers after any text may stand in front: some suffix of it is
answered by `ends`. -/
def matchAny : (ends : List Bool) → List Bool
  | [] => []
  | [last] => [last]
  | answer :: ends =>
    let rest := matchAny ends
    (answer || rest.headD false) :: rest

/-- For each suffix of the text, the whole first and the empty one last, whether the pattern matches
it. -/
def matchEnds (text : List Char) : List Char → List Bool
  | [] => List.replicate text.length false ++ [true]
  | '%' :: rest => matchAny (matchEnds text rest)
  | '_' :: rest => matchOne (fun _ => true) text (matchEnds text rest)
  | c :: rest => matchOne (Unicode.sameFolded c) text (matchEnds text rest)

/-- `matchesChars pattern text` holds when the pattern matches the whole text. -/
def matchesChars (pattern text : List Char) : Bool :=
  (matchEnds text pattern).headD false

/-- `p.isMatch text` holds when the pattern matches the whole text. -/
def isMatch (p : Pattern) (text : String) : Bool :=
  matchesChars p.source.toList text.toList

end Pattern

end RecordQuery
