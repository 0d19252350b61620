import RecordQuery.Proofs.Lexing.Steps
import RecordQuery.Proofs.Number.Digits
import RecordQuery.Name
/-!
# Words

A word is read as a name where it is none of the keywords, starts with no ASCII digit and is not the
beginning of an identifier of 128 bits. The last cannot happen in a printed text: such an identifier
has a hyphen behind its eighth digit (`Uuid.exists_of_isGrouped`), and no word is printed right in
front of one.
-/

namespace RecordQuery

/-! ## ASCII letters in lower case -/

/-- What holds of the 128 ASCII characters can be checked one by one. -/
theorem of_ascii {P : Char → Prop} (h : ∀ n < 128, P (Char.ofNat n)) {c : Char} (hc : c.toNat < 128) :
    P c := by
  have hchar := h c.toNat hc
  rwa [Char.ofNat_toNat] at hchar

/-- Only ASCII letters have another lower case. -/
theorem toLower_eq_self_or (c : Char) : c.toLower = c ∨ c.toNat < 128 := by
  unfold Char.toLower
  split
  next h => exact .inr (Nat.lt_of_le_of_lt (UInt32.le_iff_toNat_le.mp h.2) (by decide))
  next => exact .inl rfl

theorem isWordChar_toLower {c : Char} (h : Lexer.isWordChar c = true) :
    Lexer.isWordChar c.toLower = true := by
  rcases toLower_eq_self_or c with hc | hc
  · rw [hc]
    exact h
  · exact of_ascii (P := fun c => Lexer.isWordChar c = true → Lexer.isWordChar c.toLower = true)
      (by decide) hc h

theorem toUpper_toLower (c : Char) : c.toLower.toUpper = c.toUpper := by
  rcases toLower_eq_self_or c with hc | hc
  · rw [hc]
  · exact of_ascii (P := fun c => c.toLower.toUpper = c.toUpper) (by decide) hc

theorem toLower_toLower (c : Char) : c.toLower.toLower = c.toLower := by
  rcases toLower_eq_self_or c with hc | hc
  · rw [hc, hc]
  · exact of_ascii (P := fun c => c.toLower.toLower = c.toLower) (by decide) hc

theorem isDigit_toLower (c : Char) : c.toLower.isDigit = c.isDigit := by
  rcases toLower_eq_self_or c with hc | hc
  · rw [hc]
  · exact of_ascii (P := fun c => c.toLower.isDigit = c.isDigit) (by decide) hc

/-! ## Identifiers of 128 bits -/

namespace Uuid

theorem length_of_isGrouped {text : List Char} (h : isGrouped text = true) : text.length = 36 := by
  unfold isGrouped at h
  simp only [Bool.and_eq_true, beq_iff_eq] at h
  exact h.1.1.1

theorem eq_hyphen_or_isHex {text : List Char} (h : isGrouped text = true) {c : Char} (hc : c ∈ text) :
    c = '-' ∨ isHex c = true := by
  unfold isGrouped at h
  simp only [Bool.and_eq_true, List.all_eq_true] at h
  by_cases hhyphen : c = '-'
  · exact .inl hhyphen
  · exact .inr (h.1.2 c (List.mem_filter.mpr ⟨hc, bne_iff_ne.mpr hhyphen⟩))

/-- An identifier of 128 bits starts with eight hexadecimal digits and a hyphen. -/
theorem exists_of_isGrouped {text : List Char} (h : isGrouped text = true) :
    ∃ a b, text = a ++ '-' :: b ∧ a.length = 8 ∧ ∀ c ∈ a, isHex c = true := by
  unfold isGrouped at h
  simp only [Bool.and_eq_true, beq_iff_eq] at h
  obtain ⟨⟨⟨-, hdigits⟩, hhex⟩, htext⟩ := h
  generalize text.filter (· != '-') = digits at hdigits hhex htext
  refine ⟨digits.take 8, (digits.drop 8).take 4 ++ '-' :: (digits.drop 12).take 4 ++
    '-' :: (digits.drop 16).take 4 ++ '-' :: digits.drop 20, ?_, ?_, ?_⟩
  · rw [htext]
    simp only [grouped, List.append_assoc, List.cons_append]
  · rw [List.length_take, hdigits]
    rfl
  · intro c hc
    exact List.all_eq_true.mp hhex c (List.mem_of_mem_take hc)

theorem toNat_lt_of_isHex {c : Char} (h : isHex c = true) : c.toNat < 128 := by
  unfold isHex hexValue? at h
  -- a digit is bounded by the last one of its range
  have hle : ∀ d : Char, c ≤ d → d.toNat < 128 → c.toNat < 128 := by
    intro d hcd hd
    exact Nat.lt_of_le_of_lt (UInt32.le_iff_toNat_le.mp (Char.le_def.mp hcd)) hd
  split at h
  next hdigit =>
    rw [Char.isDigit, Bool.and_eq_true, decide_eq_true_eq, decide_eq_true_eq] at hdigit
    exact hle '9' hdigit.2 (by decide)
  next =>
    split at h
    next hlower => exact hle 'f' hlower.2 (by decide)
    next =>
      split at h
      next hupper => exact hle 'F' hupper.2 (by decide)
      next => cases h

theorem isWordChar_of_isHex {c : Char} (h : isHex c = true) : Lexer.isWordChar c = true :=
  of_ascii (P := fun c => isHex c = true → Lexer.isWordChar c = true) (by decide)
    (toNat_lt_of_isHex h) h

end Uuid

namespace Lexer

/-- No identifier of 128 bits starts with a word that ends before something else than a hyphen, or
ends too early or too late for the first hyphen. -/
theorem not_startsWithUuid {w rest : List Char} (hw : ∀ c ∈ w, isWordChar c = true)
    (hrest : ∀ c ∈ rest.head?, isWordChar c = false)
    (hhyphen : w.length = 8 → ∀ c ∈ rest.head?, c ≠ '-') :
    startsWithUuid (w ++ rest) = false := by
  rw [← Bool.not_eq_true]
  intro hs
  unfold startsWithUuid at hs
  rw [Bool.and_eq_true] at hs
  obtain ⟨a, b, htake, ha, hhex⟩ := Uuid.exists_of_isGrouped hs.1
  have hsplit : w ++ rest = a ++ '-' :: (b ++ (w ++ rest).drop 36) := by
    conv => lhs; rw [← List.take_append_drop 36 (w ++ rest), htake]
    simp
  rcases List.append_eq_append_iff.mp hsplit with ⟨v, hv, hrest'⟩ | ⟨v, hv, hrest'⟩
  · cases v with
    | nil => exact hhyphen (by rw [← ha, hv, List.append_nil]) '-' (by rw [hrest']; rfl) rfl
    | cons x v =>
        -- the first character behind the word is one of the eight digits
        have hx := Uuid.isWordChar_of_isHex (hhex x (by rw [hv]; simp))
        rw [hrest x (by rw [hrest']; rfl)] at hx
        cases hx
  · cases v with
    | nil =>
        -- the word is the eight digits, and the hyphen stands right behind it
        rw [List.append_nil] at hv
        exact hhyphen (by rw [hv, ha]) '-' (by rw [← List.nil_append rest, ← hrest']; rfl) rfl
    | cons x v =>
        -- the hyphen is a character of the word
        rw [List.cons_append, List.cons.injEq] at hrest'
        have hx := hw x (by rw [hv]; simp)
        rw [← hrest'.1] at hx
        exact absurd hx (by decide)

/-! ## Words in front of something else -/

/-- What may stand behind a word: no word character, and no hyphen. -/
def WordEnd (rest : List Char) : Prop :=
  ∀ c ∈ rest.head?, isWordChar c = false ∧ c ≠ '-'

/-- A word. -/
def IsWord (name : String) : Prop :=
  name.toList ≠ [] ∧ ∀ c ∈ name.toList, isWordChar c = true

/-- A word that is read as a name wherever it stands. -/
structure IsName (name : String) : Prop where
  word : IsWord name
  notKeyword : Keyword.ofWord? name = none
  notNumeral : ∀ c ∈ name.toList.head?, c.isDigit = false

theorem toList_lower (name : String) : (Name.lower name).toList = name.toList.map Char.toLower :=
  String.toList_ofList

theorem lower_lower (name : String) : Name.lower (Name.lower name) = Name.lower name := by
  have hmap : (name.toList.map Char.toLower).map Char.toLower = name.toList.map Char.toLower := by
    rw [List.map_map]
    exact List.map_congr_left fun c _ => toLower_toLower c
  rw [Name.lower, toList_lower, hmap]
  rfl

/-- A name in lower case is a name. -/
theorem IsName.lower {name : String} (h : IsName name) : IsName (Name.lower name) := by
  refine ⟨⟨?_, fun c hc => ?_⟩, ?_, fun c hc => ?_⟩
  · rw [toList_lower]
    exact fun hnil => h.word.1 (List.map_eq_nil_iff.mp hnil)
  · rw [toList_lower] at hc
    obtain ⟨x, hx, rfl⟩ := List.mem_map.mp hc
    exact isWordChar_toLower (h.word.2 x hx)
  · -- keywords are looked up in upper case, which the lower case does not change
    have hupper : (name.toList.map Char.toLower).map Char.toUpper = name.toList.map Char.toUpper := by
      rw [List.map_map]
      exact List.map_congr_left fun c _ => toUpper_toLower c
    rw [Keyword.ofWord?, toList_lower, hupper]
    exact h.notKeyword
  · rw [toList_lower, List.head?_map] at hc
    obtain ⟨x, hx, rfl⟩ := Option.map_eq_some_iff.mp hc
    rw [isDigit_toLower]
    exact h.notNumeral x hx

/-- A word that starts with no digit, behind something else than a dot. -/
theorem frontAfter_word {prev : Option Token} {w : String} {rest : List Char} (hw : IsWord w)
    (hdigit : ∀ c ∈ w.toList.head?, c.isDigit = false) (hprev : prev ≠ some (.symbol .dot))
    (hrest : WordEnd rest) :
    frontAfter prev (w.toList ++ rest) = .token
      (match Keyword.ofWord? w with
        | some k => .keyword k
        | none => .identifier w) w.toList.length := by
  obtain ⟨hne, hall⟩ := hw
  have hword : word (w.toList ++ rest) = w.toList :=
    takeWhile_append_stop hall fun c hc => (hrest c hc).1
  have huuid : startsWithUuid (w.toList ++ rest) = false :=
    not_startsWithUuid hall (fun c hc => (hrest c hc).1) fun _ c hc => (hrest c hc).2
  have hfront : frontAfter prev (w.toList ++ rest) = Front.word false (w.toList ++ rest) := by
    obtain ⟨c, cs, hcs⟩ := List.exists_cons_of_ne_nil hne
    rw [hcs] at huuid ⊢
    rw [List.cons_append] at huuid ⊢
    have hc : isWordChar c = true := hall c (by rw [hcs]; simp)
    unfold frontAfter
    rw [front_of_isWordChar hc, beq_eq_false_iff_ne.mpr hprev]
    simp only [Front.other, hc, huuid, hdigit c (by rw [hcs]; rfl), if_true, Bool.false_eq_true,
      if_false]
  rw [hfront]
  unfold Front.word
  rw [hword, String.ofList_toList]
  rfl

theorem drop_append_self (w rest : List Char) : (w ++ rest).drop w.length = rest := by
  rw [List.drop_append_of_le_length (Nat.le_refl _), List.drop_length, List.nil_append]

theorem IsWord.not_isBlank {name : String} (h : IsWord name) {rest : List Char} :
    ∀ c ∈ (name.toList ++ rest).head?, Unicode.isBlank c = false := by
  obtain ⟨c, cs, hcs⟩ := List.exists_cons_of_ne_nil h.1
  intro d hd
  rw [hcs] at hd
  cases hd
  exact not_isBlank_of_isWordChar (h.2 c (by rw [hcs]; simp))

/-- A name is read as that name. -/
theorem reads_name {name : String} (h : IsName name) {prev : Option Token} {d : Nat}
    {rest : List Char} (hprev : prev ≠ some (.symbol .dot)) (hrest : WordEnd rest) :
    Reads prev d (name.toList ++ rest) [.identifier name] (some (.identifier name)) d rest := by
  refine .single (n := name.toList.length) ?_ h.word.not_isBlank rfl (drop_append_self _ _)
  rw [frontAfter_word h.word h.notNumeral hprev hrest, h.notKeyword]

theorem ofWord?_text (k : Keyword) : Keyword.ofWord? k.text = some k := by
  cases k <;> decide

theorem isWord_text (k : Keyword) : IsWord k.text := by
  refine ⟨?_, List.all_eq_true.mp ?_⟩
  · cases k <;> decide
  · cases k <;> decide

theorem notNumeral_text (k : Keyword) : ∀ c ∈ k.text.toList.head?, c.isDigit = false := by
  intro c hc
  cases k <;> cases hc <;> rfl

/-- A keyword is read as that keyword. -/
theorem reads_keyword (k : Keyword) {prev : Option Token} {d : Nat} {rest : List Char}
    (hprev : prev ≠ some (.symbol .dot)) (hrest : WordEnd rest) :
    Reads prev d (k.text.toList ++ rest) [.keyword k] (some (.keyword k)) d rest := by
  refine .single (n := k.text.toList.length) ?_ (isWord_text k).not_isBlank rfl
    (drop_append_self _ _)
  rw [frontAfter_word (isWord_text k) (notNumeral_text k) hprev hrest, ofWord?_text]

/-- Behind a dot every word is a name. -/
theorem reads_segment {name : String} (h : IsWord name) {d : Nat} {rest : List Char}
    (hrest : ∀ c ∈ rest.head?, isWordChar c = false) :
    Reads (some (.symbol .dot)) d (name.toList ++ rest) [.identifier name]
      (some (.identifier name)) d rest := by
  refine .single (n := name.toList.length) ?_ h.not_isBlank rfl (drop_append_self _ _)
  have hword : word (name.toList ++ rest) = name.toList := takeWhile_append_stop h.2 hrest
  obtain ⟨c, cs, hcs⟩ := List.exists_cons_of_ne_nil h.1
  have hc : isWordChar c = true := h.2 c (by rw [hcs]; simp)
  have hfront : frontAfter (some (.symbol .dot)) (name.toList ++ rest) =
      Front.word true (name.toList ++ rest) := by
    rw [hcs, List.cons_append]
    unfold frontAfter
    rw [front_of_isWordChar hc]
    simp only [Front.other, hc, if_true, beq_self_eq_true]
  rw [hfront, Front.word]
  simp only [hword, String.ofList_toList, if_true]

/-- Behind `prev` an operand may start: a minus is a sign, and a word is not bound to be a name. -/
def OperandStart (prev : Option Token) : Prop :=
  prev.any Token.endsOperand = false ∧ prev ≠ some (.symbol .dot)

/-! ## Symbols -/

theorem reads_openParen {prev : Option Token} {d : Nat} {rest : List Char} :
    Reads prev d ('(' :: rest) [.symbol .openParen] (some (.symbol .openParen)) (d + 1) rest :=
  .single (n := 1) rfl (by rintro c ⟨⟩; decide) rfl rfl

theorem reads_closeParen {prev : Option Token} {d : Nat} {rest : List Char} :
    Reads prev (d + 1) (')' :: rest) [.symbol .closeParen] (some (.symbol .closeParen)) d rest :=
  .single (n := 1) rfl (by rintro c ⟨⟩; decide) rfl rfl

theorem reads_comma {prev : Option Token} {d : Nat} {rest : List Char} :
    Reads prev d (',' :: rest) [.symbol .comma] (some (.symbol .comma)) d rest :=
  .single (n := 1) rfl (by rintro c ⟨⟩; decide) rfl rfl

theorem reads_dot {prev : Option Token} {d : Nat} {rest : List Char} :
    Reads prev d ('.' :: rest) [.symbol .dot] (some (.symbol .dot)) d rest :=
  .single (n := 1) rfl (by rintro c ⟨⟩; decide) rfl rfl

theorem reads_star {prev : Option Token} {d : Nat} {rest : List Char} :
    Reads prev d ('*' :: rest) [.symbol .star] (some (.symbol .star)) d rest :=
  .single (n := 1) rfl (by rintro c ⟨⟩; decide) rfl rfl

theorem reads_placeholder {prev : Option Token} {d : Nat} {rest : List Char} :
    Reads prev d ('?' :: rest) [.placeholder] (some .placeholder) d rest :=
  .single (n := 1) rfl (by rintro c ⟨⟩; decide) rfl rfl

theorem reads_space {prev prev' : Option Token} {d d' : Nat} {text text' : List Char}
    {ts : List Token} (h : Reads prev d text ts prev' d' text') :
    Reads prev d (' ' :: text) ts prev' d' text' :=
  .blank (by decide) h

/-- A symbol other than a parenthesis, with a space behind it. -/
theorem reads_symbol {s : Symbol} (hopen : s ≠ .openParen) (hclose : s ≠ .closeParen)
    {prev : Option Token} {d : Nat} {rest : List Char} :
    Reads prev d (s.text.toList ++ ' ' :: rest) [.symbol s] (some (.symbol s)) d (' ' :: rest) := by
  refine .single (n := s.text.length) ?_ ?_ ?_ ?_
  · unfold frontAfter
    generalize (!prev.any Token.endsOperand) = signAllowed
    cases s with
    | minus =>
        -- a minus is a sign in front of a digit only, and here a space stands behind it
        show (if signAllowed && false then _ else _) = _
        rw [Bool.and_false]
        rfl
    | _ => rfl
  · cases s <;> rintro c ⟨⟩ <;> decide
  · cases s <;> first | rfl | contradiction
  · cases s <;> rfl

end Lexer

end RecordQuery
