import Mathlib.Data.List.Forall2
import RecordQuery.Pattern.Regex
/-!
# What a pattern matches

A pattern matches a text when the text can be cut into pieces, one for each sign of the pattern, such
that every sign takes its piece. The matcher never searches for a cut: it answers for all the ends of
the text at once, and one more sign in front turns the answers of the rest into its own
(`Answers.matchOne`, `Answers.matchAny`).

The same pieces are what the pattern's regular expression finds. It is read sign by sign as it was put
together (`read?_regexText`), and its anchors leave nothing of the text over.
-/

namespace RecordQuery

/-- `SameButCase a b` holds when two texts differ in case at most, character by character. -/
def Unicode.SameButCase (a b : String) : Prop :=
  a.toList.map Unicode.fold = b.toList.map Unicode.fold

instance (a b : String) : Decidable (Unicode.SameButCase a b) :=
  inferInstanceAs (Decidable (_ = _))

namespace Pattern

/-! ## Pieces -/

/-- `Takes sign piece` holds when a sign of a pattern may stand for the piece. -/
def Takes : (sign : Char) → (piece : List Char) → Prop
  | '%', _ => True
  | '_', piece => ∃ c, piece = [c]
  | sign, piece => ∃ c, piece = [c] ∧ Unicode.sameFolded sign c = true

/-- `Cuts pattern text` holds when the text is made of pieces that the pattern's signs take one by
one. -/
def Cuts (pattern text : List Char) : Prop :=
  ∃ pieces : List (List Char), pieces.flatten = text ∧ List.Forall₂ Takes pattern pieces

theorem takes_run (piece : List Char) : Takes '%' piece := by
  simp [Takes]

theorem takes_open_iff {piece : List Char} : Takes '_' piece ↔ ∃ c, piece = [c] := by
  simp [Takes]

theorem takes_plain_iff {sign : Char} {piece : List Char} (run : sign ≠ '%') (one : sign ≠ '_') :
    Takes sign piece ↔ ∃ c, piece = [c] ∧ Unicode.sameFolded sign c = true := by
  rw [Takes] <;> assumption

theorem cuts_nil_iff {text : List Char} : Cuts [] text ↔ text = [] := by
  constructor
  · rintro ⟨pieces, rfl, taken⟩
    simp [List.forall₂_nil_left_iff.1 taken]
  · rintro rfl
    exact ⟨[], rfl, .nil⟩

theorem cuts_cons_iff {sign : Char} {pattern text : List Char} :
    Cuts (sign :: pattern) text ↔
      ∃ piece rest, text = piece ++ rest ∧ Takes sign piece ∧ Cuts pattern rest := by
  constructor
  · rintro ⟨pieces, rfl, taken⟩
    obtain ⟨piece, others, first, behind, rfl⟩ := List.forall₂_cons_left_iff.1 taken
    exact ⟨piece, others.flatten, rfl, first, others, rfl, behind⟩
  · rintro ⟨piece, rest, rfl, first, others, rfl, behind⟩
    exact ⟨piece :: others, rfl, .cons first behind⟩

theorem cuts_run_iff {pattern text : List Char} :
    Cuts ('%' :: pattern) text ↔ ∃ piece rest, text = piece ++ rest ∧ Cuts pattern rest := by
  simp [cuts_cons_iff, takes_run]

theorem cuts_open_iff {pattern text : List Char} :
    Cuts ('_' :: pattern) text ↔ ∃ c rest, text = c :: rest ∧ Cuts pattern rest := by
  simp only [cuts_cons_iff, takes_open_iff]
  constructor
  · rintro ⟨_, rest, rfl, ⟨c, rfl⟩, cut⟩
    exact ⟨c, rest, rfl, cut⟩
  · rintro ⟨c, rest, rfl, cut⟩
    exact ⟨[c], rest, rfl, ⟨c, rfl⟩, cut⟩

theorem cuts_plain_iff {sign : Char} {pattern text : List Char} (run : sign ≠ '%')
    (one : sign ≠ '_') :
    Cuts (sign :: pattern) text ↔
      ∃ c rest, text = c :: rest ∧ Unicode.sameFolded sign c = true ∧ Cuts pattern rest := by
  simp only [cuts_cons_iff, takes_plain_iff run one]
  constructor
  · rintro ⟨_, rest, rfl, ⟨c, rfl, same⟩, cut⟩
    exact ⟨c, rest, rfl, same, cut⟩
  · rintro ⟨c, rest, rfl, same, cut⟩
    exact ⟨[c], rest, rfl, ⟨c, rfl, same⟩, cut⟩

/-- Without an open sign a pattern has one cut only, character by character. -/
theorem cuts_iff_of_plain {pattern text : List Char} (run : '%' ∉ pattern) (one : '_' ∉ pattern) :
    Cuts pattern text ↔ text.map Unicode.fold = pattern.map Unicode.fold := by
  induction pattern generalizing text with
  | nil => simp [cuts_nil_iff]
  | cons sign pattern ih =>
    simp only [List.mem_cons, not_or] at run one
    rw [cuts_plain_iff (Ne.symm run.1) (Ne.symm one.1)]
    cases text with
    | nil => simp
    | cons c rest =>
      simp [ih run.2 one.2, Unicode.sameFolded, eq_comm (a := Unicode.fold sign)]

/-! ## All ends at once -/

/-- `Answers P text ends` holds when `ends` says of each suffix of the text, the whole first and the
empty one last, whether `P` holds of it. -/
inductive Answers (P : List Char → Prop) : (text : List Char) → (ends : List Bool) → Prop where
  | last {answer : Bool} (right : answer = true ↔ P []) : Answers P [] [answer]
  | suffix {c : Char} {text : List Char} {answer : Bool} {ends : List Bool}
      (right : answer = true ↔ P (c :: text)) (behind : Answers P text ends) :
      Answers P (c :: text) (answer :: ends)

namespace Answers

variable {P Q : List Char → Prop} {text : List Char} {ends : List Bool}

theorem headD (answers : Answers P text ends) : ends.headD false = true ↔ P text := by
  cases answers with
  | last right => exact right
  | suffix right _ => exact right

theorem congr (answers : Answers P text ends) (same : ∀ suffix, P suffix ↔ Q suffix) :
    Answers Q text ends := by
  induction answers with
  | last right => exact .last (right.trans (same _))
  | suffix right _ ih => exact .suffix (right.trans (same _)) ih

/-- Only the last end is empty. -/
theorem empty (text : List Char) :
    Answers (· = []) text (List.replicate text.length false ++ [true]) := by
  induction text with
  | nil => exact .last (by simp)
  | cons c text ih => exact .suffix (by simp) ih

/-- One more character in front, which a test accepts. -/
theorem matchOne (accepts : Char → Bool) (answers : Answers P text ends) :
    Answers (fun suffix => ∃ c rest, suffix = c :: rest ∧ accepts c = true ∧ P rest) text
      (Pattern.matchOne accepts text ends) := by
  induction answers with
  | last _ => exact .last (by simp)
  | suffix _ behind ih =>
    cases behind with
    | last right => exact .suffix (by simp [right]) ih
    | suffix right _ => exact .suffix (by simp [right]) ih

/-- Any run of characters in front: an end has the answer `true` when a later one had it. -/
theorem matchAny (answers : Answers P text ends) :
    Answers (fun suffix => ∃ piece rest, suffix = piece ++ rest ∧ P rest) text
      (Pattern.matchAny ends) := by
  induction answers with
  | last right =>
    apply Answers.last
    rw [right]
    constructor
    · intro holds
      exact ⟨[], [], rfl, holds⟩
    · rintro ⟨piece, rest, parts, holds⟩
      rwa [(List.append_eq_nil_iff.1 parts.symm).2] at holds
  | @suffix c text answer ends right behind ih =>
    have unfolded : Pattern.matchAny (answer :: ends) =
        (answer || (Pattern.matchAny ends).headD false) :: Pattern.matchAny ends := by
      cases behind <;> rfl
    rw [unfolded]
    refine .suffix ?_ ih
    rw [Bool.or_eq_true, right, ih.headD]
    constructor
    · rintro (whole | ⟨piece, rest, rfl, later⟩)
      · exact ⟨[], c :: text, rfl, whole⟩
      · exact ⟨c :: piece, rest, rfl, later⟩
    · rintro ⟨piece, rest, parts, holds⟩
      cases piece with
      | nil => exact .inl (parts ▸ holds)
      | cons _ piece =>
        exact .inr ⟨piece, rest, (List.cons_eq_cons.1 parts).2, holds⟩

end Answers

/-- The answers of a pattern are those of its cuts. The induction is on the pattern, whose rest is
matched first. -/
theorem answers_matchEnds (pattern text : List Char) :
    Answers (Cuts pattern) text (matchEnds text pattern) := by
  fun_induction matchEnds text pattern with
  | case1 => exact (Answers.empty text).congr fun _ => cuts_nil_iff.symm
  | case2 rest ih => exact ih.matchAny.congr fun _ => cuts_run_iff.symm
  | case3 rest ih => exact (ih.matchOne _).congr fun _ => by simp [cuts_open_iff]
  | case4 sign rest run one ih => exact (ih.matchOne _).congr fun _ => (cuts_plain_iff run one).symm

theorem matchesChars_iff {pattern text : List Char} :
    matchesChars pattern text = true ↔ Cuts pattern text :=
  (answers_matchEnds pattern text).headD

theorem isMatch_iff {p : Pattern} {text : String} :
    p.isMatch text = true ↔ Cuts p.source.toList text.toList :=
  matchesChars_iff

theorem isMatch_iff_of_plain {p : Pattern} {text : String} (run : '%' ∉ p.source.toList)
    (one : '_' ∉ p.source.toList) :
    p.isMatch text = true ↔ Unicode.SameButCase text p.source :=
  isMatch_iff.trans (cuts_iff_of_plain run one)

theorem source_of_ofText? {source : String} {p : Pattern} (h : ofText? source = some p) :
    p.source = source := by
  unfold ofText? at h
  split at h
  · cases h
    rfl
  · cases h

/-! ## The regular expression -/

/-- The part that a sign of a pattern is in the pattern's regular expression. -/
def partOf : Char → Regex.Part
  | '%' => .anyRun
  | '_' => .any
  | c => .char c

end Pattern

namespace Regex

/-- A sign that was escaped, if it had to be, is read as itself. -/
theorem read?_escape (c : Char) (rest : List Char) :
    read? (escape c ++ rest) = (read? rest).map (.char c :: ·) := by
  by_cases special : isMeta c = true
  · simp [escape, special, read?]
  · have plain : escape c = [c] := by simp [escape, special]
    rw [plain, List.singleton_append, read?.eq_def]
    split <;> simp_all [isMeta]

theorem read?_point {rest : List Char} (unstarred : rest.head? ≠ some '*') :
    read? ('.' :: rest) = (read? rest).map (.any :: ·) := by
  cases rest with
  | nil => rfl
  | cons c rest =>
    have other : c ≠ '*' := by simpa using unstarred
    simp [read?, other]

end Regex

namespace Pattern

/-- No star stands in front of what a pattern is translated to, so that a point before it stays without
one. -/
theorem head?_translated (source : List Char) :
    (source.flatMap regexOf ++ ['$']).head? ≠ some '*' := by
  cases source with
  | nil => simp
  | cons c source =>
    rw [List.flatMap_cons]
    fun_cases regexOf c with
    | case1 => simp
    | case2 => simp
    | case3 c run one =>
      by_cases special : Regex.isMeta c = true
      · simp [Regex.escape, special]
      · have other : c ≠ '*' := by
          rintro rfl
          exact special rfl
        simp [Regex.escape, special, other]

theorem read?_translated (source : List Char) :
    Regex.read? (source.flatMap regexOf ++ ['$']) = some (source.map partOf ++ [.stop]) := by
  induction source with
  | nil => rfl
  | cons c source ih =>
    rw [List.flatMap_cons, List.append_assoc]
    fun_cases regexOf c with
    | case1 => simp [Regex.read?, ih, partOf]
    | case2 => simp [Regex.read?_point (head?_translated source), ih, partOf]
    | case3 c run one => simp [Regex.read?_escape, ih, partOf]

/-- The regular expression of a pattern is read as the anchors and between them one part for each
sign. -/
theorem read?_regexText (source : List Char) :
    Regex.read? (regexText source) = some (.start :: source.map partOf ++ [.stop]) := by
  show (Regex.read? (source.flatMap regexOf ++ ['$'])).map _ = _
  rw [read?_translated source]
  rfl

@[simp] theorem pointTakes_regexOptions (c : Char) : regexOptions.pointTakes c = true :=
  rfl

@[simp] theorem sameChar_regexOptions (c d : Char) :
    regexOptions.sameChar c d = Unicode.sameFolded c d :=
  rfl

theorem holdsFrom_iff {source before behind : List Char} :
    Regex.HoldsFrom regexOptions (source.map partOf ++ [.stop]) before behind ↔
      Cuts source behind := by
  induction source generalizing before behind with
  | nil => simp [Regex.HoldsFrom, cuts_nil_iff]
  | cons c source ih =>
    rw [List.map_cons, List.cons_append]
    fun_cases partOf c with
    | case1 => simp [Regex.HoldsFrom, ih, cuts_run_iff]
    | case2 => simp [Regex.HoldsFrom, ih, cuts_open_iff]
    | case3 c run one => simp [Regex.HoldsFrom, ih, cuts_plain_iff run one]

/-- Between the anchors the whole text has to be matched. -/
theorem foundIn_iff {source text : List Char} :
    Regex.FoundIn regexOptions (.start :: source.map partOf ++ [.stop]) text ↔ Cuts source text := by
  constructor
  · rintro ⟨before, behind, rfl, rfl, holds⟩
    exact holdsFrom_iff.1 holds
  · intro cut
    exact ⟨[], text, rfl, rfl, holdsFrom_iff.2 cut⟩

/-- A pattern matches a text exactly when the text can be cut into pieces, one for each sign: any piece
for `%`, one character of any kind for `_`, and one that differs in case at most for every other sign.
The regular expression written for the pattern can always be read, and finds something in the same
texts. -/
theorem isMatch_iff_pieces (p : Pattern) (text : String) :
    (p.isMatch text = true ↔
      ∃ pieces : List (List Char),
        pieces.flatten = text.toList ∧ List.Forall₂ Takes p.source.toList pieces) ∧
    ∃ parts, Regex.read? (regexText p.source.toList) = some parts ∧
      (Regex.FoundIn regexOptions parts text.toList ↔ p.isMatch text = true) := by
  refine ⟨isMatch_iff, _, read?_regexText _, ?_⟩
  rw [foundIn_iff, isMatch_iff]

example : matchesChars "A%.c_".toList "a\nB.C.".toList = true := by decide

end Pattern

end RecordQuery
