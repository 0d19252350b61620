import RecordQuery.Proofs.Number.Digits
import RecordQuery.Proofs.Lexing.Words
import RecordQuery.Literal.Reading
/-!
# Numerals

The numbers that are printed are numerals of one shape: an optional minus sign, digits, an optional
fraction and an optional exponent. Such a numeral is one literal span for the lexer, it is recognised
as a numeral when the span is typed, and what it is read as depends on its digits and exponent only.
-/

namespace RecordQuery

/-- A numeral as it is printed. -/
structure Numeral where
  negative : Bool
  /-- the digits in front of the point -/
  whole : List Char
  /-- the digits behind the point, if there is one -/
  fraction : List Char
  exponent : Option Int
  whole_ne_nil : whole ≠ []
  isDigit_whole : ∀ c ∈ whole, c.isDigit = true
  isDigit_fraction : ∀ c ∈ fraction, c.isDigit = true
  /-- a numeral with an exponent has one digit in front of the point -/
  length_whole : exponent = none ∨ whole.length = 1

namespace Numeral

/-- Where no digits stand, there is none to be checked. -/
theorem isDigit_of_mem_nil : ∀ c ∈ ([] : List Char), c.isDigit = true := by
  intro c h
  cases h

theorem isDigit_of_mem_zero : ∀ c ∈ ['0'], c.isDigit = true := by
  intro c h
  rw [List.mem_singleton.mp h]
  rfl

/-- The fraction with its point. -/
def fractionText (n : Numeral) : List Char :=
  if n.fraction = [] then [] else '.' :: n.fraction

/-- The exponent with its mark. -/
def exponentText (n : Numeral) : List Char :=
  match n.exponent with
  | some e => 'E' :: (toString e).toList
  | none => []

/-- The numeral without its sign. -/
def magnitude (n : Numeral) : List Char :=
  n.whole ++ (n.fractionText ++ n.exponentText)

/-- The text of a numeral. -/
def text (n : Numeral) : List Char :=
  if n.negative then '-' :: n.magnitude else n.magnitude

/-- The sign as it is printed. -/
def sign (n : Numeral) : List Char :=
  if n.negative then ['-'] else []

theorem text_eq (n : Numeral) : n.text = n.sign ++ n.magnitude := by
  unfold text sign
  split <;> rfl

/-- A numeral without an exponent. -/
theorem text_of_positional {n : Numeral} (h : n.exponent = none) :
    n.text = n.sign ++ n.whole ++ n.fractionText := by
  rw [text_eq, magnitude, exponentText, h, List.append_nil, List.append_assoc]

/-- What may stand behind a numeral: no word character, no point and no hyphen. -/
def End (rest : List Char) : Prop :=
  ∀ c ∈ rest.head?, Lexer.isWordChar c = false ∧ c ≠ '.' ∧ c ≠ '-'

theorem end_nil : End [] := by
  rintro c ⟨⟩

theorem isWordChar_of_isDigit {c : Char} (h : c.isDigit = true) : Lexer.isWordChar c = true := by
  have hascii : c.toNat < 128 := by
    rw [Char.isDigit, Bool.and_eq_true, decide_eq_true_eq, decide_eq_true_eq] at h
    exact Nat.lt_of_le_of_lt (UInt32.le_iff_toNat_le.mp h.2) (by decide)
  unfold Lexer.isWordChar
  rw [Unicode.isAlphanumeric_of_ascii hascii, Char.isAlphanum, h]
  simp

theorem End.not_isDigit {rest : List Char} (h : End rest) : ∀ c ∈ rest.head?, c.isDigit = false := by
  intro c hc
  rw [← Bool.not_eq_true]
  intro hdigit
  have hword := isWordChar_of_isDigit hdigit
  rw [(h c hc).1] at hword
  cases hword

/-- The text of an exponent: an optional minus sign and digits. -/
theorem exists_toString (e : Int) :
    ∃ sign digits, (toString e).toList = sign ++ digits ∧ (sign = [] ∨ sign = ['-']) ∧ digits ≠ [] ∧
      (∀ c ∈ digits, c.isDigit = true) ∧
      e = (if sign = [] then (Digits.value digits : Int) else -(Digits.value digits : Int)) := by
  rw [Int.toString_eq_repr, Int.repr_eq_if]
  split
  next h =>
    refine ⟨[], Digits.render e.toNat, Nat.toList_repr, .inl rfl, Digits.render_ne_nil _,
      fun c hc => Digits.isDigit_of_mem_render hc, ?_⟩
    rw [if_pos rfl, Digits.value_render]
    omega
  next h =>
    refine ⟨['-'], Digits.render (-e).toNat, ?_, .inr rfl, Digits.render_ne_nil _,
      fun c hc => Digits.isDigit_of_mem_render hc, ?_⟩
    · rw [String.toList_append, Nat.toList_repr]
      rfl
    · rw [if_neg (List.cons_ne_nil _ _), Digits.value_render]
      omega

/-! ## As a literal span -/

/-- What stands behind the digits of a numeral starts with no digit. -/
theorem not_isDigit_behind (n : Numeral) {rest : List Char} (h : ∀ c ∈ rest.head?, c.isDigit = false) :
    ∀ c ∈ (n.exponentText ++ rest).head?, c.isDigit = false := by
  intro c hc
  unfold exponentText at hc
  split at hc
  · cases hc
    rfl
  · exact h c hc

theorem not_isDigit_behind_whole (n : Numeral) {rest : List Char}
    (h : ∀ c ∈ rest.head?, c.isDigit = false) :
    ∀ c ∈ (n.fractionText ++ (n.exponentText ++ rest)).head?, c.isDigit = false := by
  intro c hc
  unfold fractionText at hc
  split at hc
  · exact n.not_isDigit_behind h c hc
  · cases hc
    rfl

theorem fraction_append (n : Numeral) {rest : List Char} (h : End rest) :
    Lexer.fraction (n.fractionText ++ (n.exponentText ++ rest)) = n.fractionText := by
  unfold fractionText
  split
  next =>
    -- without a fraction, no point comes next
    have hpoint : ∀ c ∈ (n.exponentText ++ rest).head?, c ≠ '.' := by
      intro c hc
      unfold exponentText at hc
      split at hc
      · cases hc
        decide
      · exact (h c hc).2.1
    rw [List.nil_append]
    cases hrest : n.exponentText ++ rest with
    | nil => rfl
    | cons c others =>
        unfold Lexer.fraction
        split
        · next heq =>
            cases heq
            exact absurd rfl (hpoint '.' (by rw [hrest]; rfl))
        · rfl
  next hne =>
    have htake : (n.fraction ++ (n.exponentText ++ rest)).takeWhile Char.isDigit = n.fraction :=
      takeWhile_append_stop n.isDigit_fraction (n.not_isDigit_behind h.not_isDigit)
    rw [List.cons_append]
    unfold Lexer.fraction
    simp only [htake]
    rw [if_neg]
    rw [List.isEmpty_iff]
    exact hne

theorem exponent_append (n : Numeral) {rest : List Char} (h : End rest) :
    Lexer.exponent (n.exponentText ++ rest) = n.exponentText := by
  unfold exponentText
  split
  next e he =>
    obtain ⟨sign, digits, htext, hsign, hne, hdigits, -⟩ := exists_toString e
    have htake : (digits ++ rest).takeWhile Char.isDigit = digits :=
      takeWhile_append_stop hdigits h.not_isDigit
    have hfilter : ((sign ++ digits ++ rest).take 1).filter (fun c => c == '+' || c == '-') =
        sign := by
      rcases hsign with rfl | rfl
      · obtain ⟨d, ds, rfl⟩ := List.exists_cons_of_ne_nil hne
        have hd := hdigits d (by simp)
        rw [List.nil_append, List.cons_append, List.take_succ_cons, List.take_zero,
          List.filter_cons_of_neg, List.filter_nil]
        rw [Bool.or_eq_true, beq_iff_eq, beq_iff_eq]
        rintro (rfl | rfl) <;> exact absurd hd (by decide)
      · rfl
    rw [htext, List.cons_append]
    rw [Lexer.exponent, if_pos (.inr rfl)]
    simp only [hfilter]
    rw [List.append_assoc, Lexer.drop_append_self, htake, if_neg]
    rw [List.isEmpty_iff]
    exact hne
  next =>
    rw [List.nil_append]
    cases rest with
    | nil => rfl
    | cons c others =>
        rw [Lexer.exponent, if_neg]
        rintro (rfl | rfl)
        · exact absurd (h 'e' rfl).1 (by decide)
        · exact absurd (h 'E' rfl).1 (by decide)

theorem word_of_end {rest : List Char} (h : End rest) : Lexer.word rest = [] := by
  cases rest with
  | nil => rfl
  | cons c others =>
      rw [Lexer.word, List.takeWhile_cons_of_neg]
      rw [(h c rfl).1]
      exact Bool.false_ne_true

theorem exists_head (n : Numeral) : ∃ c cs, n.magnitude = c :: cs ∧ c.isDigit = true := by
  obtain ⟨c, cs, hcs⟩ := List.exists_cons_of_ne_nil n.whole_ne_nil
  refine ⟨c, cs ++ (n.fractionText ++ n.exponentText), ?_, n.isDigit_whole c (by rw [hcs]; simp)⟩
  rw [magnitude, hcs, List.cons_append]

/-- Behind the sign there is no second hyphen. -/
theorem takeWhile_sign (n : Numeral) (rest : List Char) :
    (n.text ++ rest).takeWhile (· == '-') = n.sign := by
  obtain ⟨c, cs, hcs, hc⟩ := n.exists_head
  rw [text_eq, List.append_assoc]
  apply takeWhile_append_stop
  · intro d hd
    unfold sign at hd
    split at hd
    · rw [List.mem_singleton.mp hd]
      rfl
    · cases hd
  · rw [hcs]
    rintro d ⟨⟩
    rw [beq_eq_false_iff_ne]
    rintro rfl
    exact absurd hc (by decide)

theorem filter_sign (n : Numeral) (rest : List Char) :
    ((n.text ++ rest).take 1).filter (· == '-') = n.sign := by
  obtain ⟨c, cs, hcs, hc⟩ := n.exists_head
  unfold text sign
  split
  · rfl
  · rw [hcs, List.cons_append, List.take_succ_cons, List.take_zero, List.filter_cons_of_neg]
    · rfl
    · rw [beq_iff_eq]
      rintro rfl
      exact absurd hc (by decide)

theorem drop_sign (n : Numeral) (rest : List Char) :
    (n.text ++ rest).drop n.sign.length =
      n.whole ++ (n.fractionText ++ (n.exponentText ++ rest)) := by
  rw [text_eq, List.append_assoc, Lexer.drop_append_self, magnitude, List.append_assoc,
    List.append_assoc]

/-- The lexer takes exactly the numeral. -/
theorem number_append (n : Numeral) {rest : List Char} (h : End rest) :
    Lexer.number (n.text ++ rest) = n.text := by
  have hwhole := takeWhile_append_stop n.isDigit_whole (n.not_isDigit_behind_whole h.not_isDigit)
  unfold Lexer.number
  simp only [n.filter_sign, n.drop_sign, hwhole, Lexer.drop_append_self, n.fraction_append h,
    n.exponent_append h, word_of_end h, List.append_nil]
  rw [text_eq, magnitude, List.append_assoc, List.append_assoc]

/-- No numeral looks like the start of an identifier of 128 bits. -/
theorem not_startsWithUuid (n : Numeral) {rest : List Char} (h : End rest) :
    Lexer.startsWithUuid (n.magnitude ++ rest) = false := by
  have hwhole : ∀ c ∈ n.whole, Lexer.isWordChar c = true := fun c hc =>
    isWordChar_of_isDigit (n.isDigit_whole c hc)
  by_cases hfraction : n.fraction = []
  · cases hexponent : n.exponent with
    | none =>
        rw [show n.magnitude = n.whole by
          simp [magnitude, fractionText, exponentText, hfraction, hexponent]]
        exact Lexer.not_startsWithUuid hwhole (fun c hc => (h c hc).1) fun _ c hc => (h c hc).2.2
    | some e =>
        obtain ⟨sign, digits, htext, hsign, -, hdigits, -⟩ := exists_toString e
        have hone : n.whole.length = 1 := n.length_whole.resolve_left (by simp [hexponent])
        have hmagnitude : n.magnitude = n.whole ++ 'E' :: (sign ++ digits) := by
          rw [magnitude, fractionText, exponentText, hfraction, hexponent, if_pos rfl]
          simp only [htext, List.nil_append]
        have hE : Lexer.isWordChar 'E' = true := by decide
        rcases hsign with rfl | rfl
        · rw [hmagnitude]
          refine Lexer.not_startsWithUuid ?_ (fun c hc => (h c hc).1) fun _ c hc => (h c hc).2.2
          intro c hc
          rcases List.mem_append.mp hc with hc | hc
          · exact hwhole c hc
          · rcases List.mem_cons.mp hc with rfl | hc
            · exact hE
            · exact isWordChar_of_isDigit (hdigits c hc)
        · -- the sign of the exponent comes too early for the first hyphen
          rw [show n.magnitude ++ rest = (n.whole ++ ['E']) ++ ('-' :: (digits ++ rest)) by
            simp [hmagnitude]]
          refine Lexer.not_startsWithUuid ?_ ?_ ?_
          · intro c hc
            rcases List.mem_append.mp hc with hc | hc
            · exact hwhole c hc
            · rw [List.mem_singleton.mp hc]
              exact hE
          · rintro c ⟨⟩
            decide
          · intro hlength
            rw [List.length_append, hone] at hlength
            simp at hlength
  · rw [show n.magnitude ++ rest = n.whole ++ ('.' :: (n.fraction ++ (n.exponentText ++ rest))) by
      simp [magnitude, fractionText, hfraction]]
    refine Lexer.not_startsWithUuid hwhole ?_ fun _ c hc => ?_
    · rintro c ⟨⟩
      decide
    · cases hc
      decide

/-- Where an operand may start, a numeral is read as one literal span. -/
theorem reads (n : Numeral) {prev : Option Token} {d : Nat} {rest : List Char}
    (hprev : Lexer.OperandStart prev) (h : End rest) :
    Lexer.Reads prev d (n.text ++ rest) [.span (String.ofList n.text)]
      (some (.span (String.ofList n.text))) d rest := by
  obtain ⟨hsign, hdot⟩ := hprev
  obtain ⟨c, cs, hcs, hc⟩ := n.exists_head
  have hnumber := n.number_append h
  refine .single (n := n.text.length) ?_ ?_ rfl (Lexer.drop_append_self _ _)
  · show Lexer.frontAfter prev (n.text ++ rest) = Lexer.Front.span n.text
    unfold Lexer.frontAfter
    rw [hsign, beq_eq_false_iff_ne.mpr hdot]
    by_cases hneg : n.negative = true
    · have htext : n.text ++ rest = '-' :: (c :: (cs ++ rest)) := by
        simp [text, hneg, hcs]
      rw [htext] at hnumber ⊢
      show (if true && c.isDigit then _ else _) = _
      rw [hc, if_pos (by rfl), hnumber]
    · have htext : n.text ++ rest = c :: (cs ++ rest) := by
        simp [text, hneg, hcs]
      have huuid := n.not_startsWithUuid h
      rw [hcs, List.cons_append] at huuid
      rw [htext] at hnumber ⊢
      have hword := isWordChar_of_isDigit hc
      rw [Lexer.front_of_isWordChar hword]
      simp only [Lexer.Front.other, hword, huuid, hc, if_true, Bool.false_eq_true, if_false, hnumber]
  · intro x hx
    unfold text at hx
    split at hx
    · cases hx
      decide
    · rw [hcs] at hx
      cases hx
      exact Lexer.not_isBlank_of_isWordChar (isWordChar_of_isDigit hc)

end Numeral

end RecordQuery
