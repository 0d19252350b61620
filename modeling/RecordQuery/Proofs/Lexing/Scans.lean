import RecordQuery.Proofs.Lexing.Words
import RecordQuery.Proofs.Literal.Numeral
/-!
# Where tokens end

What takes characters off the start of a text looks no further than to where it stops. So it takes the
same of a text that goes on behind its end with a character at which every token stops (`Stop`), and of a
text that is cut anywhere behind what is taken (`Scans`). For tokens this means that one in front of a text
is also in front of the text with a stop and more behind it (`front_stop`), and in front of its own
characters alone (`front_cut`).

An identifier of 128 bits is looked for 36 characters ahead. Where there is none, none comes up by cutting
behind a word or a number, for what stands behind either is no word character.
-/

namespace RecordQuery

namespace Lexer

/-! ## Characters at which tokens stop -/

/-- `Stop c` holds for a character that is no part of a word, a number or a symbol of two characters, and no
quote. -/
structure Stop (c : Char) : Prop where
  notWord : isWordChar c = false
  notSign : c ∉ ['.', '+', '-', '=', '>', '\'', '"']

theorem stop_closeParen : Stop ')' :=
  ⟨by decide, by decide⟩

theorem stop_of_isBlank {c : Char} (h : Unicode.isBlank c = true) : Stop c where
  notWord := isWordChar_of_isBlank h
  notSign hmem := by
    have hnone : (['.', '+', '-', '=', '>', '\'', '"'].all fun d => !Unicode.isBlank d) = true := by decide
    have hblank := List.all_eq_true.mp hnone c hmem
    rw [h] at hblank
    cases hblank

namespace Stop

variable {c : Char}

theorem isDigit (h : Stop c) : c.isDigit = false := by
  rw [← Bool.not_eq_true]
  intro hdigit
  have hword := Numeral.isWordChar_of_isDigit hdigit
  rw [h.notWord] at hword
  cases hword

theorem ne (h : Stop c) {d : Char} (hd : d ∈ ['.', '+', '-', '=', '>', '\'', '"']) : c ≠ d := by
  rintro rfl
  exact h.notSign hd

theorem ne_of_isWordChar (h : Stop c) {d : Char} (hd : isWordChar d = true) : c ≠ d := by
  rintro rfl
  rw [h.notWord] at hd
  cases hd

end Stop

/-! ## Taking characters off a text -/

/-- `Scans f` holds when `f` takes the start of a text, the same with a stop and more behind the text, and
the same of the text cut anywhere behind it. -/
structure Scans (f : List Char → List Char) : Prop where
  takes : ∀ text, f text <+: text
  stops : ∀ {c}, Stop c → ∀ text rest, f (text ++ c :: rest) = f text
  cuts : ∀ text n, (f text).length ≤ n → f (text.take n) = f text

theorem scans_takeWhile {p : Char → Bool} (hp : ∀ c, Stop c → p c = false) :
    Scans (List.takeWhile p) where
  takes _ := List.takeWhile_prefix p
  stops {c} hc text rest := by
    induction text with
    | nil => exact List.takeWhile_cons_of_neg (by rw [hp c hc]; exact Bool.false_ne_true)
    | cons d text ih => rw [List.cons_append, List.takeWhile_cons, List.takeWhile_cons, ih]
  cuts text n hn := by
    induction text generalizing n with
    | nil => rw [List.take_nil]
    | cons d text ih =>
        cases n with
        | zero => exact (List.length_eq_zero_iff.mp (Nat.le_zero.mp hn)).symm
        | succ n =>
            rw [List.take_succ_cons, List.takeWhile_cons, List.takeWhile_cons]
            by_cases hd : p d = true
            · rw [List.takeWhile_cons_of_pos hd] at hn
              rw [if_pos hd, if_pos hd, ih n (Nat.le_of_succ_le_succ hn)]
            · rw [if_neg hd, if_neg hd]

/-- At most one character. -/
theorem scans_optional {p : Char → Bool} (hp : ∀ c, Stop c → p c = false) :
    Scans fun text => (text.take 1).filter p where
  takes text := by
    cases text with
    | nil => exact List.nil_prefix
    | cons c text =>
        by_cases hc : p c = true
        · exact ⟨text, by simp [hc]⟩
        · exact ⟨c :: text, by simp [hc]⟩
  stops {c} hc text rest := by
    cases text with
    | nil => simp [hp c hc]
    | cons d text => rfl
  cuts text n hn := by
    cases n with
    | zero => exact (List.length_eq_zero_iff.mp (Nat.le_zero.mp hn)).symm
    | succ n => rw [List.take_take, Nat.min_eq_left (Nat.le_add_left 1 n)]

theorem length_optional_le {p : Char → Bool} (text : List Char) :
    ((text.take 1).filter p).length ≤ 1 :=
  Nat.le_trans (List.length_filter_le _ _) (List.length_take_le 1 text)

/-- One part, and then another off what is left. -/
def andThen (f g : List Char → List Char) (text : List Char) : List Char :=
  f text ++ g (text.drop (f text).length)

theorem Scans.andThen {f g : List Char → List Char} (hf : Scans f) (hg : Scans g) :
    Scans (andThen f g) where
  takes text := by
    obtain ⟨behind, htext⟩ := hf.takes text
    unfold Lexer.andThen
    generalize f text = part at htext ⊢
    subst htext
    rw [List.drop_left]
    exact (List.prefix_append_right_inj part).mpr (hg.takes behind)
  stops hc text rest := by
    unfold Lexer.andThen
    rw [hf.stops hc, List.drop_append_of_le_length (hf.takes text).length_le, hg.stops hc]
  cuts text n hn := by
    unfold Lexer.andThen at hn ⊢
    rw [List.length_append] at hn
    rw [hf.cuts text n (by omega), List.drop_take, hg.cuts _ _ (by omega)]

theorem scans_word : Scans word :=
  scans_takeWhile fun _ hc => hc.notWord

theorem scans_digits : Scans (List.takeWhile Char.isDigit) :=
  scans_takeWhile fun _ hc => hc.isDigit

theorem scans_sign : Scans fun text => (text.take 1).filter fun c => c == '+' || c == '-' :=
  scans_optional fun c hc => by
    rw [beq_eq_false_iff_ne.mpr (hc.ne (by decide)), beq_eq_false_iff_ne.mpr (hc.ne (by decide))]
    rfl

theorem fraction_of_ne {c : Char} (hc : c ≠ '.') (text : List Char) : fraction (c :: text) = [] := by
  unfold fraction
  split
  next heq =>
    cases heq
    exact absurd rfl hc
  next => rfl

theorem exponent_of_ne {c : Char} (he : c ≠ 'e') (hE : c ≠ 'E') (text : List Char) :
    exponent (c :: text) = [] := by
  unfold exponent
  exact if_neg (not_or.mpr ⟨he, hE⟩)

theorem scans_fraction : Scans fraction where
  takes text := by
    unfold fraction
    split
    next text =>
      split
      · exact List.nil_prefix
      · exact (List.prefix_cons_inj '.').mpr (scans_digits.takes text)
    next => exact List.nil_prefix
  stops hc text rest := by
    cases text with
    | nil => exact fraction_of_ne (hc.ne (by decide)) rest
    | cons d text =>
        rw [List.cons_append]
        by_cases hd : d = '.'
        · subst hd
          simp only [fraction, scans_digits.stops hc]
        · rw [fraction_of_ne hd, fraction_of_ne hd]
  cuts text n hn := by
    cases n with
    | zero => exact (List.length_eq_zero_iff.mp (Nat.le_zero.mp hn)).symm
    | succ n =>
        cases text with
        | nil => rfl
        | cons d text =>
            rw [List.take_succ_cons]
            by_cases hd : d = '.'
            · subst hd
              have hdigits : (text.takeWhile Char.isDigit).length ≤ n := by
                simp only [fraction] at hn
                split at hn
                next hempty => rw [List.isEmpty_iff.mp hempty]; exact Nat.zero_le n
                next => exact Nat.le_of_succ_le_succ hn
              simp only [fraction, scans_digits.cuts text n hdigits]
            · rw [fraction_of_ne hd, fraction_of_ne hd]

theorem scans_exponent : Scans exponent where
  takes text := by
    cases text with
    | nil => exact List.nil_prefix
    | cons mark text =>
        simp only [exponent]
        split
        · split
          · exact List.nil_prefix
          · exact (List.prefix_cons_inj mark).mpr ((scans_sign.andThen scans_digits).takes text)
        · exact List.nil_prefix
  stops hc text rest := by
    cases text with
    | nil => exact exponent_of_ne (hc.ne_of_isWordChar (by decide)) (hc.ne_of_isWordChar (by decide)) rest
    | cons mark text =>
        rw [List.cons_append]
        simp only [exponent]
        rw [scans_sign.stops hc, List.drop_append_of_le_length (scans_sign.takes text).length_le,
          scans_digits.stops hc]
  cuts text n hn := by
    cases n with
    | zero => exact (List.length_eq_zero_iff.mp (Nat.le_zero.mp hn)).symm
    | succ n =>
        cases text with
        | nil => rfl
        | cons mark text =>
            rw [List.take_succ_cons]
            simp only [exponent] at hn ⊢
            split at hn
            next hmark =>
              rw [if_pos hmark, if_pos hmark]
              cases n with
              | zero =>
                  -- a mark alone is no exponent, and neither is one with a sign
                  split at hn
                  next hempty => rw [if_pos hempty]; rfl
                  next hdigits =>
                    have hpos := List.length_pos_iff.mpr fun h => hdigits (List.isEmpty_iff.mpr h)
                    rw [List.length_cons, List.length_append] at hn
                    omega
              | succ n =>
                  have hsign := scans_sign.cuts text (n + 1)
                    (Nat.le_trans (length_optional_le text) (Nat.le_add_left 1 n))
                  rw [hsign, List.drop_take, scans_digits.cuts]
                  split at hn
                  next hempty => rw [List.isEmpty_iff.mp hempty]; exact Nat.zero_le _
                  next =>
                    rw [List.length_cons, List.length_append] at hn
                    omega
            next hmark => rw [if_neg hmark, if_neg hmark]

/-- A number is taken part by part. -/
theorem number_eq : number = andThen (fun text => (text.take 1).filter (· == '-'))
    (andThen (List.takeWhile Char.isDigit) (andThen fraction (andThen exponent word))) := by
  funext text
  simp only [number, andThen, List.append_assoc]

theorem scans_number : Scans number := by
  have hminus : Scans fun text => (text.take 1).filter (· == '-') :=
    scans_optional fun c hc => beq_eq_false_iff_ne.mpr (hc.ne (by decide))
  rw [number_eq]
  exact hminus.andThen
    (scans_digits.andThen (scans_fraction.andThen (scans_exponent.andThen scans_word)))

/-- `TakesWords f` holds when no word character is left behind what `f` takes. -/
def TakesWords (f : List Char → List Char) : Prop :=
  ∀ text : List Char, ∀ c ∈ (text.drop (f text).length).head?, isWordChar c = false

theorem takesWords_word : TakesWords word := by
  intro text c hc
  have hsplit : word text ++ text.dropWhile isWordChar = text := List.takeWhile_append_dropWhile
  have hdrop : text.drop (word text).length = text.dropWhile isWordChar := by
    calc text.drop (word text).length
        = (word text ++ text.dropWhile isWordChar).drop (word text).length := by rw [hsplit]
      _ = text.dropWhile isWordChar := List.drop_left
  have hhead := List.head?_dropWhile_not isWordChar text
  rw [hdrop] at hc
  rwa [Option.mem_def.mp hc] at hhead

theorem TakesWords.andThen {f g : List Char → List Char} (hg : TakesWords g) :
    TakesWords (andThen f g) := by
  intro text
  rw [Lexer.andThen, List.length_append, ← List.drop_drop]
  exact hg _

theorem takesWords_number : TakesWords number := by
  rw [number_eq]
  exact takesWords_word.andThen.andThen.andThen.andThen

/-! ## Quoted texts -/

/-- The closing quote is found where it was. -/
theorem quotedContent?_stop {quote c : Char} (hc : c ≠ quote) (text rest : List Char) :
    ∀ {content : List Char} {n : Nat}, quotedContent? quote text = some (content, n) →
      quotedContent? quote (text ++ c :: rest) = some (content, n) ∧ n ≤ text.length := by
  fun_induction quotedContent? quote text with
  | case1 =>
      intro content n h
      cases h
  | case2 =>
      rintro content n ⟨⟩
      simp [quotedContent?, hc]
  | case3 d hd =>
      intro content n h
      cases h
  | case4 text ih =>
      intro content n h
      obtain ⟨⟨content, n⟩, hinner, heq⟩ := Option.map_eq_some_iff.mp h
      cases heq
      obtain ⟨hstop, hle⟩ := ih hinner
      refine ⟨?_, Nat.add_le_add_right hle 2⟩
      simp [quotedContent?, hstop]
  | case5 d text hd =>
      rintro content n ⟨⟩
      refine ⟨?_, Nat.le_add_left 1 _⟩
      simp [quotedContent?, hd]
  | case6 d e text hd ih =>
      intro content n h
      obtain ⟨⟨content, n⟩, hinner, heq⟩ := Option.map_eq_some_iff.mp h
      cases heq
      obtain ⟨hstop, hle⟩ := ih hinner
      refine ⟨?_, Nat.add_le_add_right hle 1⟩
      rw [List.cons_append] at hstop
      simp [quotedContent?, hd, hstop]

/-- Nothing behind the closing quote is needed to find it. -/
theorem quotedContent?_cut {quote : Char} (text : List Char) :
    ∀ {content : List Char} {n : Nat}, quotedContent? quote text = some (content, n) →
      quotedContent? quote (text.take n) = some (content, n) ∧ 0 < n := by
  fun_induction quotedContent? quote text with
  | case1 =>
      intro content n h
      cases h
  | case2 =>
      rintro content n ⟨⟩
      simp [quotedContent?]
  | case3 d hd =>
      intro content n h
      cases h
  | case4 text ih =>
      intro content n h
      obtain ⟨⟨content, n⟩, hinner, heq⟩ := Option.map_eq_some_iff.mp h
      cases heq
      rw [List.take_succ_cons, List.take_succ_cons]
      simp [quotedContent?, (ih hinner).1]
  | case5 d text hd =>
      rintro content n ⟨⟩
      simp [quotedContent?]
  | case6 d e text hd ih =>
      intro content n h
      obtain ⟨⟨content, n⟩, hinner, heq⟩ := Option.map_eq_some_iff.mp h
      cases heq
      obtain ⟨hcut, hpos⟩ := ih hinner
      obtain ⟨m, rfl⟩ := Nat.exists_eq_succ_of_ne_zero (Nat.pos_iff_ne_zero.mp hpos)
      rw [List.take_succ_cons] at hcut
      rw [List.take_succ_cons, List.take_succ_cons]
      simp [quotedContent?, hd, hcut]

/-! ## Identifiers of 128 bits -/

theorem length_of_startsWithUuid {text : List Char} (h : startsWithUuid text = true) :
    36 ≤ text.length := by
  unfold startsWithUuid at h
  rw [Bool.and_eq_true] at h
  have hlength := Uuid.length_of_isGrouped h.1
  rw [List.length_take] at hlength
  omega

/-- An identifier of 128 bits is all in front of the stop, or there is none. -/
theorem startsWithUuid_stop {c : Char} (hc : Stop c) (text rest : List Char) :
    startsWithUuid (text ++ c :: rest) = startsWithUuid text := by
  rcases Nat.lt_or_ge text.length 36 with h | h
  · -- too short without the stop, which is part of no identifier
    have hshort : startsWithUuid text = false := by
      rw [← Bool.not_eq_true]
      intro huuid
      exact absurd (length_of_startsWithUuid huuid) (Nat.not_le.mpr h)
    have hstop : Uuid.isGrouped ((text ++ c :: rest).take 36) = false := by
      rw [← Bool.not_eq_true]
      intro hgrouped
      have hmem : c ∈ (text ++ c :: rest).take 36 := by
        refine List.mem_of_getElem? (i := text.length) ?_
        rw [List.getElem?_take_of_lt h, List.getElem?_append_right (Nat.le_refl _), Nat.sub_self]
        rfl
      rcases Uuid.eq_hyphen_or_isHex hgrouped hmem with hhyphen | hhex
      · exact hc.ne (by decide) hhyphen
      · have hword := Uuid.isWordChar_of_isHex hhex
        rw [hc.notWord] at hword
        cases hword
    rw [hshort, startsWithUuid, hstop]
    rfl
  · unfold startsWithUuid
    rw [List.take_append_of_le_length h, List.drop_append_of_le_length h]
    cases text.drop 36 with
    | nil => simp [hc.notWord]
    | cons d behind => rfl

/-- Cutting a text in front of something else than a word character brings up no identifier. -/
theorem startsWithUuid_cut {text : List Char} {n : Nat}
    (hend : ∀ c ∈ (text.drop n).head?, isWordChar c = false) (h : startsWithUuid text = false) :
    startsWithUuid (text.take n) = false := by
  rw [← Bool.not_eq_true]
  intro hcut
  have hlength := length_of_startsWithUuid hcut
  rw [List.length_take] at hlength
  have hn : 36 ≤ n := by omega
  unfold startsWithUuid at hcut
  rw [Bool.and_eq_true, List.take_take, Nat.min_eq_left hn, List.drop_take] at hcut
  obtain ⟨hgrouped, hnot⟩ := hcut
  have hglued : (text.drop 36).head?.any isWordChar = false := by
    rcases Nat.eq_or_lt_of_le hn with rfl | hlt
    · rw [Option.any_eq_false]
      exact hend
    · rw [List.head?_take, if_neg (by omega), Bool.not_eq_true'] at hnot
      exact hnot
  rw [startsWithUuid, hgrouped, hglued] at h
  cases h

/-! ## Tokens with more behind -/

/-- `f.Keeps g m` holds when a token that `f` has in front is also the one that `g` has, and takes at most
`m` characters. -/
def Front.Keeps (f g : Front) (m : Nat) : Prop :=
  ∀ t n, f = .token t n → g = .token t n ∧ n ≤ m

namespace Front

variable {m : Nat}

theorem keeps_token (t : Token) {n : Nat} (h : n ≤ m) : (Front.token t n).Keeps (.token t n) m := by
  rintro _ _ ⟨⟩
  exact ⟨rfl, h⟩

theorem keeps_unknown (c : Char) (g : Front) : (Front.unknown c).Keeps g m := by
  rintro _ _ ⟨⟩

theorem keeps_quoted {quote c : Char} (hc : c ≠ quote) (text rest : List Char) :
    (Front.quoted quote text).Keeps (Front.quoted quote (text ++ c :: rest)) (text.length + 1) := by
  unfold Front.quoted
  cases h : quotedContent? quote text with
  | none =>
      rintro _ _ ⟨⟩
  | some p =>
      obtain ⟨hstop, hle⟩ := quotedContent?_stop hc text rest h
      rw [hstop]
      exact keeps_token _ (Nat.succ_le_succ hle)

variable {c : Char}

theorem keeps_span {f : List Char → List Char} (hf : Scans f) (hc : Stop c) (text rest : List Char) :
    (Front.span (f text)).Keeps (Front.span (f (text ++ c :: rest))) text.length := by
  rw [hf.stops hc]
  exact keeps_token _ (hf.takes text).length_le

theorem keeps_word (afterDot : Bool) (hc : Stop c) (text rest : List Char) :
    (Front.word afterDot text).Keeps (Front.word afterDot (text ++ c :: rest)) text.length := by
  unfold Front.word
  rw [scans_word.stops hc]
  exact keeps_token _ (scans_word.takes text).length_le

theorem keeps_other (afterDot : Bool) (hc : Stop c) (d : Char) (text rest : List Char) :
    (Front.other afterDot d text).Keeps (Front.other afterDot d (text ++ c :: rest))
      (d :: text).length := by
  unfold Front.other
  simp only
  rw [← List.cons_append, startsWithUuid_stop hc]
  split
  · split
    · exact keeps_word true hc _ rest
    · split
      next huuid =>
        have hlength := length_of_startsWithUuid huuid
        rw [List.take_append_of_le_length hlength]
        refine keeps_token _ ?_
        rw [List.length_take]
        exact Nat.min_le_right _ _
      next =>
        split
        · exact keeps_span scans_number hc _ rest
        · exact keeps_word false hc _ rest
  · exact keeps_unknown d _

end Front

/-- A stop behind a text is not taken for the second character of a symbol. -/
theorem append_stop_ne_cons {c d : Char} {text : List Char} (hc : c ≠ d) (h : ∀ tail, text ≠ d :: tail)
    (rest tail : List Char) : text ++ c :: rest ≠ d :: tail := by
  cases text with
  | nil =>
      intro heq
      exact hc (List.cons.inj heq).1
  | cons e text =>
      intro heq
      exact h text (congrArg (· :: text) (List.cons.inj heq).1)

/-- A token in front of a text is there too with a stop and more behind the text. -/
theorem front_stop (signAllowed afterDot : Bool) {c : Char} (hc : Stop c) {text : List Char}
    (hne : text ≠ []) (rest : List Char) :
    (front signAllowed afterDot text).Keeps (front signAllowed afterDot (text ++ c :: rest))
      text.length := by
  have hdigit : ∀ text : List Char, (text ++ c :: rest).head?.any Char.isDigit =
      text.head?.any Char.isDigit := by
    intro text
    cases text with
    | nil => exact hc.isDigit
    | cons d text => rfl
  fun_cases front signAllowed afterDot text
  case case1 => contradiction
  case case2 => exact Front.keeps_quoted (hc.ne (by decide)) _ rest
  case case3 => exact Front.keeps_quoted (hc.ne (by decide)) _ rest
  case case13 text hsign =>
    rw [List.cons_append, front, hdigit, if_pos hsign]
    exact Front.keeps_span scans_number hc _ rest
  case case14 text hsign =>
    rw [List.cons_append, front, hdigit, if_neg hsign]
    exact Front.keeps_token _ (Nat.le_add_left 1 _)
  case case16 => exact Front.keeps_unknown _ _
  case case19 text hequal hgreater =>
    rw [List.cons_append, front]
    · exact Front.keeps_token _ (Nat.le_add_left 1 _)
    · exact append_stop_ne_cons (hc.ne (by decide)) hequal rest
    · exact append_stop_ne_cons (hc.ne (by decide)) hgreater rest
  case case21 text hequal =>
    rw [List.cons_append, front]
    · exact Front.keeps_token _ (Nat.le_add_left 1 _)
    · exact append_stop_ne_cons (hc.ne (by decide)) hequal rest
  case case22 =>
    -- no other character starts a symbol
    rw [List.cons_append, front]
    · exact Front.keeps_other _ hc _ _ rest
    all_goals
      first
      | assumption
      | (intro _ hd _; contradiction)
  all_goals
    first
    | exact Front.keeps_token _ (Nat.le_add_left 1 _)
    | exact Front.keeps_token _ (Nat.le_add_left 2 _)

/-! ## Tokens alone -/

namespace Front

theorem quoted_cut {quote : Char} {rest : List Char} {t : Token} {n : Nat}
    (h : Front.quoted quote rest = .token t (n + 1)) :
    Front.quoted quote (rest.take n) = .token t (n + 1) := by
  unfold Front.quoted at h ⊢
  cases hcontent : quotedContent? quote rest with
  | none =>
      rw [hcontent] at h
      cases h
  | some p =>
      rw [hcontent] at h
      cases h
      rw [(quotedContent?_cut rest hcontent).1]

theorem word_cut {afterDot : Bool} {text : List Char} {t : Token} {n : Nat}
    (h : Front.word afterDot text = .token t n) : Front.word afterDot (text.take n) = .token t n := by
  have hn : (Lexer.word text).length = n := (Front.token.inj h).2
  have hword : Lexer.word (text.take n) = Lexer.word text := scans_word.cuts text n (Nat.le_of_eq hn)
  rw [← h, Front.word, Front.word, hword]

theorem length_of_span {raw : List Char} {t : Token} {n : Nat} (h : Front.span raw = .token t n) :
    raw.length = n :=
  (Front.token.inj h).2

theorem isWordChar_of_other {afterDot : Bool} {c : Char} {rest : List Char} {t : Token} {n : Nat}
    (h : Front.other afterDot c rest = .token t n) : isWordChar c = true := by
  unfold Front.other at h
  split at h
  next hword => exact hword
  next => cases h

/-- A word, a number or an identifier is in front of its characters alone. -/
theorem other_cut {afterDot : Bool} {c : Char} {rest : List Char} {t : Token} {n : Nat}
    (h : Front.other afterDot c rest = .token t (n + 1)) :
    Front.other afterDot c (rest.take n) = .token t (n + 1) := by
  have htext : c :: rest.take n = (c :: rest).take (n + 1) := List.take_succ_cons.symm
  unfold Front.other at h ⊢
  simp only [htext] at h ⊢
  generalize c :: rest = text at h ⊢
  split at h
  next hword =>
    rw [if_pos hword]
    split at h
    next hdot => rw [if_pos hdot]; exact word_cut h
    next hdot =>
      rw [if_neg hdot]
      split at h
      next huuid =>
        -- the identifier alone has nothing glued to it
        have hlength := length_of_startsWithUuid huuid
        have hn : n + 1 = 36 := by
          rw [← length_of_span h, List.length_take, Nat.min_eq_left hlength]
        have hcut : startsWithUuid (text.take 36) = true := by
          unfold startsWithUuid at huuid ⊢
          rw [Bool.and_eq_true] at huuid
          rw [List.take_take, Nat.min_self, huuid.1, List.drop_take, Nat.sub_self]
          rfl
        rw [hn] at h ⊢
        rw [if_pos hcut, List.take_take, Nat.min_self]
        exact h
      next huuid =>
        have hend : ∀ d ∈ (text.drop (n + 1)).head?, isWordChar d = false := by
          split at h
          next => rw [← length_of_span h]; exact takesWords_number text
          next => rw [← (Front.token.inj h).2]; exact takesWords_word text
        rw [if_neg (by rw [startsWithUuid_cut hend (Bool.not_eq_true _ ▸ huuid)]; exact Bool.false_ne_true)]
        split at h
        next hdigit =>
          rw [if_pos hdigit, scans_number.cuts text (n + 1) (Nat.le_of_eq (length_of_span h))]
          exact h
        next hdigit => rw [if_neg hdigit]; exact word_cut h
  next => cases h

end Front

/-- A number with a sign has a digit behind the sign. -/
theorem length_number_signed {rest : List Char} (h : rest.head?.any Char.isDigit = true) :
    1 < (number ('-' :: rest)).length := by
  cases rest with
  | nil => cases h
  | cons d rest =>
      have hdigit : d.isDigit = true := h
      simp [number, List.takeWhile_cons_of_pos hdigit]

/-- **A token alone.** What is in front of a text is in front of its own characters. -/
theorem front_cut {signAllowed afterDot : Bool} {text : List Char} {t : Token} {n : Nat}
    (h : front signAllowed afterDot text = .token t n) :
    front signAllowed afterDot (text.take n) = .token t n := by
  obtain rfl | hpos := front_progresses _ _ _ _ _ h
  · obtain rfl := eq_nil_of_front h
    rw [List.take_nil, h]
  obtain ⟨n, rfl⟩ := Nat.exists_eq_succ_of_ne_zero (Nat.pos_iff_ne_zero.mp hpos)
  revert h
  fun_cases front signAllowed afterDot text
  case case1 => rintro ⟨⟩
  case case2 => exact Front.quoted_cut
  case case3 => exact Front.quoted_cut
  case case13 rest hsign =>
    intro h
    obtain ⟨hallowed, hdigit⟩ := Bool.and_eq_true_iff.mp hsign
    have hlength := length_number_signed hdigit
    rw [Front.length_of_span h] at hlength
    obtain ⟨m, rfl⟩ := Nat.exists_eq_succ_of_ne_zero (show n ≠ 0 by omega)
    have hkept : (rest.take (m + 1)).head?.any Char.isDigit = true := by
      cases rest with
      | nil => cases hdigit
      | cons d rest => exact hdigit
    have hcut : number ('-' :: rest.take (m + 1)) = number ('-' :: rest) :=
      scans_number.cuts ('-' :: rest) (m + 2) (Nat.le_of_eq (Front.length_of_span h))
    rw [List.take_succ_cons, front, hallowed, hkept, Bool.and_self, if_pos rfl, hcut, h]
  case case14 =>
    rintro ⟨⟩
    cases signAllowed <;> rfl
  case case16 => rintro ⟨⟩
  case case22 =>
    intro h
    rw [List.take_succ_cons, front_of_isWordChar (Front.isWordChar_of_other h)]
    exact Front.other_cut h
  all_goals
    rintro ⟨⟩
    rfl

end Lexer

end RecordQuery
