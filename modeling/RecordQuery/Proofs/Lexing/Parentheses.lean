import RecordQuery.Proofs.Lexing.Nesting
/-!
# Errors about parentheses are exact

The lexer keeps the positions of the parentheses that are open. They are those of the text that it has read
(`Lexer.Tracks`): a token that is no parenthesis is a level piece of the text, since what words, numbers and
identifiers of 128 bits are made of is no quote and no parenthesis, and quotes hide what is between them.

So a run that succeeds has read a balanced text, and one that fails does so for a reason that can be seen in
the text (`Lexer.Explains`). These exclude each other, which makes the errors exact
(`parenthesis_errors_exact`).
-/

namespace RecordQuery

open Nesting

/-- `t.IsWordlike` holds for the tokens that are words, numbers or identifiers of 128 bits. -/
def Token.IsWordlike : Token → Prop
  | .keyword _ => True
  | .identifier _ => True
  | .span _ => True
  | _ => False

namespace Lexer

/-! ## Plain characters -/

theorem isPlain_of_isWordChar {c : Char} (h : isWordChar c = true) : IsPlain c := by
  have hnone : ['\'', '"', '(', ')'].any isWordChar = false := by decide
  intro hmem
  rw [List.any_eq_true.mpr ⟨c, hmem, h⟩] at hnone
  cases hnone

theorem isPlain_of_isDigit {c : Char} (h : c.isDigit = true) : IsPlain c :=
  isPlain_of_isWordChar (Numeral.isWordChar_of_isDigit h)

theorem isPlain_of_isBlank {c : Char} (h : Unicode.isBlank c = true) : IsPlain c := by
  have hnone : ['\'', '"', '(', ')'].any Unicode.isBlank = false := by decide
  intro hmem
  rw [List.any_eq_true.mpr ⟨c, hmem, h⟩] at hnone
  cases hnone

/-- `TakesPlain f` holds when `f` takes no quotes and no parentheses off a text. -/
def TakesPlain (f : List Char → List Char) : Prop :=
  ∀ text, ∀ c ∈ f text, IsPlain c

theorem TakesPlain.andThen {f g : List Char → List Char} (hf : TakesPlain f) (hg : TakesPlain g) :
    TakesPlain (andThen f g) := by
  intro text c hc
  rcases List.mem_append.mp hc with hc | hc
  · exact hf text c hc
  · exact hg _ c hc

theorem takesPlain_word : TakesPlain word :=
  fun _ c hc => isPlain_of_isWordChar (List.all_eq_true.mp List.all_takeWhile c hc)

theorem takesPlain_digits : TakesPlain (List.takeWhile Char.isDigit) :=
  fun _ c hc => isPlain_of_isDigit (List.all_eq_true.mp List.all_takeWhile c hc)

theorem takesPlain_sign : TakesPlain fun text => (text.take 1).filter fun c => c == '+' || c == '-' := by
  intro text c hc
  have hsign := (List.mem_filter.mp hc).2
  rw [Bool.or_eq_true, beq_iff_eq, beq_iff_eq] at hsign
  rcases hsign with rfl | rfl <;> decide

theorem takesPlain_minus : TakesPlain fun text => (text.take 1).filter (· == '-') := by
  intro text c hc
  rw [beq_iff_eq.mp (List.mem_filter.mp hc).2]
  decide

theorem takesPlain_fraction : TakesPlain fraction := by
  intro text c hc
  unfold fraction at hc
  split at hc
  · split at hc
    · cases hc
    · rcases List.mem_cons.mp hc with rfl | hc
      · decide
      · exact takesPlain_digits _ c hc
  · cases hc

theorem takesPlain_exponent : TakesPlain exponent := by
  intro text c hc
  unfold exponent at hc
  split at hc
  next mark rest =>
    split at hc
    next hmark =>
      dsimp only at hc
      split at hc
      · cases hc
      · rcases List.mem_cons.mp hc with rfl | hc
        · rcases hmark with rfl | rfl <;> decide
        · exact (takesPlain_sign.andThen takesPlain_digits) rest c hc
    next => cases hc
  next => cases hc

theorem takesPlain_number : TakesPlain number := by
  rw [number_eq]
  exact takesPlain_minus.andThen
    (takesPlain_digits.andThen (takesPlain_fraction.andThen (takesPlain_exponent.andThen takesPlain_word)))

theorem isPlain_of_startsWithUuid {text : List Char} (h : startsWithUuid text = true) :
    ∀ c ∈ text.take 36, IsPlain c := by
  intro c hc
  rw [startsWithUuid, Bool.and_eq_true] at h
  rcases Uuid.eq_hyphen_or_isHex h.1 hc with rfl | hhex
  · decide
  · exact isPlain_of_isWordChar (Uuid.isWordChar_of_isHex hhex)

/-! ## What is in front -/

/-- `f.PlainIn text` holds when a word in front of the text is taken off without quotes and parentheses. -/
def Front.PlainIn (text : List Char) (f : Front) : Prop :=
  ∀ t n, f = .token t n → t.IsWordlike → ∀ c ∈ text.take n, IsPlain c

namespace Front

variable {text : List Char}

theorem plainIn_slice {t : Token} {slice : List Char} (hstart : slice <+: text)
    (h : ∀ c ∈ slice, IsPlain c) : (Front.token t slice.length).PlainIn text := by
  rintro t n ⟨⟩ -
  rwa [← List.prefix_iff_eq_take.mp hstart]

theorem plainIn_word (afterDot : Bool) : (Front.word afterDot text).PlainIn text :=
  plainIn_slice (scans_word.takes text) (takesPlain_word text)

theorem plainIn_number : (Front.span (number text)).PlainIn text :=
  plainIn_slice (scans_number.takes text) (takesPlain_number text)

theorem plainIn_other (afterDot : Bool) (c : Char) (rest : List Char) :
    (Front.other afterDot c rest).PlainIn (c :: rest) := by
  fun_cases Front.other afterDot c rest with
  | case1 => exact plainIn_word true
  | case2 _ _ _ huuid => exact plainIn_slice (List.take_prefix _ _) (isPlain_of_startsWithUuid huuid)
  | case3 => exact plainIn_number
  | case4 => exact plainIn_word false
  | case5 => rintro t n ⟨⟩

theorem plainIn_quoted (quote : Char) (rest : List Char) : (Front.quoted quote rest).PlainIn text := by
  unfold Front.quoted
  split <;> rintro t n ⟨⟩ ⟨⟩

end Front

/-- What is in front of a text has no quotes and no parentheses, if it is a word. -/
theorem front_plainIn (signAllowed afterDot : Bool) (text : List Char) :
    (front signAllowed afterDot text).PlainIn text := by
  fun_cases front signAllowed afterDot text
  case case2 => exact Front.plainIn_quoted _ _
  case case3 => exact Front.plainIn_quoted _ _
  case case13 => exact Front.plainIn_number
  case case22 => exact Front.plainIn_other _ _ _
  all_goals rintro t n ⟨⟩ ⟨⟩

/-- What a token that is no parenthesis takes is a level piece of the text. -/
theorem level_of_front {signAllowed afterDot : Bool} {text : List Char} {t : Token} {n : Nat}
    (h : front signAllowed afterDot text = .token t n) (hopen : t ≠ .symbol .openParen)
    (hclose : t ≠ .symbol .closeParen) : Level (text.take n) := by
  have hplain := front_plainIn signAllowed afterDot text t n h
  have hspelled := (front_spelledIn signAllowed afterDot text t n h).2
  generalize text.take n = slice at hplain hspelled
  cases t with
  | keyword k => exact level_of_plain (hplain trivial)
  | identifier name => exact level_of_plain (hplain trivial)
  | span raw => exact level_of_plain (hplain trivial)
  | quoted content =>
      obtain ⟨quote, hquote, rfl⟩ := hspelled
      exact level_quoted hquote _
  | placeholder =>
      obtain rfl : slice = ['?'] := hspelled
      exact level_of_all (by decide)
  | symbol s =>
      obtain rfl : slice = s.text.toList := hspelled
      cases s with
      | openParen => exact absurd rfl hopen
      | closeParen => exact absurd rfl hclose
      | _ => exact level_of_all (by decide)
  | endOfInput =>
      obtain rfl : slice = [] := hspelled
      exact level_of_plain (List.forall_mem_nil _)

/-- A quote that is not closed stays open to the end of the text. -/
theorem foldl_quoteBehind_of_none {quote : Char} (hquote : quote = '\'' ∨ quote = '"')
    (text : List Char) (h : quotedContent? quote text = none) :
    text.foldl quoteBehind (some quote) = some quote := by
  have hopen : quoteBehind none quote = some quote := if_pos hquote
  have hclose : quoteBehind (some quote) quote = none := if_pos rfl
  fun_induction quotedContent? quote text with
  | case1 => rfl
  | case2 => cases h
  | case3 c hc => exact if_neg hc
  | case4 rest ih =>
      rw [List.foldl_cons, List.foldl_cons, hclose, hopen]
      exact ih (Option.map_eq_none_iff.mp h)
  | case5 => cases h
  | case6 c d rest hc ih =>
      rw [List.foldl_cons, show quoteBehind (some quote) c = some quote from if_neg hc]
      exact ih (Option.map_eq_none_iff.mp h)

theorem not_quotesClosed_of_quoted {quote : Char} {rest : List Char} (hquote : quote = '\'' ∨ quote = '"')
    (h : Front.quoted quote rest = .unterminated) : ¬QuotesClosed (quote :: rest) := by
  have hnone : quotedContent? quote rest = none := by
    unfold Front.quoted at h
    split at h
    next => cases h
    next hnone => exact hnone
  intro hclosed
  rw [QuotesClosed, List.foldl_cons, show quoteBehind none quote = some quote from if_pos hquote,
    foldl_quoteBehind_of_none hquote rest hnone] at hclosed
  cases hclosed

/-- In front of an unclosed quote the quotes of the text do not close. -/
theorem not_quotesClosed_of_front {signAllowed afterDot : Bool} {text : List Char}
    (h : front signAllowed afterDot text = .unterminated) : ¬QuotesClosed text := by
  revert h
  fun_cases front signAllowed afterDot text
  case case2 => exact not_quotesClosed_of_quoted (.inl rfl)
  case case3 => exact not_quotesClosed_of_quoted (.inr rfl)
  case case22 c rest _ _ _ _ _ _ _ _ _ _ _ _ _ _ _ _ _ _ _ =>
    fun_cases Front.other afterDot c rest <;> rintro ⟨⟩
  all_goals rintro ⟨⟩

/-! ## Characters that may stand outside quotes -/

/-- The characters besides those of words that a token may start with. -/
def signs : List Char :=
  ['\'', '"', '(', ')', ',', '.', '+', '*', '/', '?', '=', '-', '<', '>']

/-- `IsExpected c behind` holds for the characters that may stand outside quotes, in front of `behind`. -/
def IsExpected (c : Char) (behind : List Char) : Prop :=
  Unicode.isBlank c = true ∨ isWordChar c = true ∨ c ∈ signs ∨ c = '!' ∧ behind.head? = some '='

theorem Front.other_eq_unknown {afterDot : Bool} {c d : Char} {rest : List Char}
    (h : Front.other afterDot c rest = .unknown d) : c = d ∧ isWordChar c = false := by
  revert h
  fun_cases Front.other afterDot c rest with
  | case5 hword =>
      rintro ⟨⟩
      exact ⟨rfl, Bool.not_eq_true _ ▸ hword⟩
  | _ => rintro ⟨⟩

theorem Front.quoted_ne_unknown (quote : Char) (rest : List Char) (c : Char) :
    Front.quoted quote rest ≠ .unknown c := by
  unfold Front.quoted
  split <;> rintro ⟨⟩

/-- A character that starts no token is not expected. -/
theorem not_isExpected_of_front {signAllowed afterDot : Bool} {text : List Char} {c : Char}
    (h : front signAllowed afterDot text = .unknown c)
    (hblank : ∀ c ∈ text.head?, Unicode.isBlank c = false) :
    ∃ rest, text = c :: rest ∧ ¬IsExpected c rest := by
  revert h
  fun_cases front signAllowed afterDot text
  case case2 => exact fun h => absurd h (Front.quoted_ne_unknown _ _ c)
  case case3 => exact fun h => absurd h (Front.quoted_ne_unknown _ _ c)
  case case16 rest hequal =>
    rintro ⟨⟩
    refine ⟨rest, rfl, ?_⟩
    rintro (hb | hw | hs | ⟨-, hhead⟩)
    · exact absurd hb (by decide)
    · exact absurd hw (by decide)
    · exact absurd hs (by decide)
    · obtain ⟨tail, rfl⟩ := List.head?_eq_some_iff.mp hhead
      exact hequal tail rfl
  case case22 d rest _ _ _ _ _ _ _ _ _ _ _ _ _ hbang _ _ _ _ _ =>
    intro h
    obtain ⟨rfl, hword⟩ := Front.other_eq_unknown h
    refine ⟨rest, rfl, ?_⟩
    rintro (hb | hw | hs | ⟨heq, -⟩)
    · rw [hblank d rfl] at hb
      cases hb
    · rw [hword] at hw
      cases hw
    · -- every sign starts a token of its own
      simp only [signs, List.mem_cons, List.not_mem_nil, or_false] at hs
      tauto
    · exact hbang heq
  all_goals rintro ⟨⟩

/-- `Clean text` holds for a text that closes its quotes and has only expected characters outside them. -/
structure Clean (text : List Char) : Prop where
  quotesClosed : QuotesClosed text
  isExpected : ∀ before c behind, text = before ++ c :: behind → QuotesClosed before →
    IsExpected c behind

/-! ## The lexer in its text -/

variable {text : List Char} {l : Lexer}

/-- `l.Tracks text` holds when `l` has read the start of the text, and the parentheses that it holds open
are those that the start has open. -/
structure Tracks (text : List Char) (l : Lexer) : Prop where
  pending : ∃ passed, text = passed ++ l.rest ∧ l.position = Position.start.after passed ∧
    Pending passed l.openParens

/-- What an error says about the text. -/
def Explains (text : List Char) : LexicalError → Prop
  | .unterminatedString _ => ¬QuotesClosed text
  | .unexpectedCloseParen p => FirstUnpartnered text p
  | .unclosedParen p => NeverOverclosed text ∧ 0 < depth text ∧ LastUnclosed text p
  | .unexpectedCharacter c p => ∃ before behind, text = before ++ c :: behind ∧
      p = Position.start.after before ∧ QuotesClosed before ∧ ¬IsExpected c behind

/-- What a step says about the text: a token leaves the lexer in its text, the end of the input comes where
the whole text is level, and an error explains itself. -/
structure Step.Tells (text : List Char) (s : Step) : Prop where
  token : ∀ t, s.result = .ok t → t ≠ .endOfInput → s.state.Tracks text
  ended : s.result = .ok .endOfInput → Level text
  failed : ∀ e, s.result = .error e → Explains text e

theorem tracks_ofText (text : String) : (ofText text).Tracks text.toList :=
  ⟨[], rfl, rfl, pending_nil⟩

theorem tells_fail {p : Position} {e : LexicalError} (h : Explains text e) :
    (l.fail p e).Tells text where
  token _ ht := by cases ht
  ended ht := by cases ht
  failed _ he := by
    cases he
    exact h

theorem tells_accept {t : Token} {n : Nat} (ht : t ≠ .endOfInput) (h : (l.advance n).Tracks text) :
    (l.accept t n).Tells text where
  token _ _ _ := ⟨h.pending⟩
  ended heq := by
    cases heq
    exact absurd rfl ht
  failed _ he := by cases he

/-- What a run says about the text: it is level where there are tokens, and an error explains itself. -/
def RunTells (text : List Char) : Except LexicalError (List PlacedToken) → Prop
  | .ok _ => Level text
  | .error e => Explains text e

namespace Tracks

/-- A level piece may be taken off. -/
theorem advance (h : l.Tracks text) {n : Nat} (hpiece : Level (l.rest.take n)) :
    (l.advance n).Tracks text := by
  obtain ⟨passed, htext, hposition, hpending⟩ := h.pending
  obtain ⟨htext', hposition'⟩ := passed_advance ⟨htext, hposition⟩ n
  exact ⟨_, htext', hposition', hpending.append hpiece⟩

theorem skipBlanks (h : l.Tracks text) : l.skipBlanks.Tracks text := by
  rw [skipBlanks_eq_advance]
  apply h.advance
  rw [← List.prefix_iff_eq_take.mp (List.takeWhile_prefix _)]
  exact level_of_plain fun c hc => isPlain_of_isBlank (List.all_eq_true.mp List.all_takeWhile c hc)

/-- At the end of the text nothing is open, or the innermost parenthesis is the last that stays open. -/
theorem take_endOfInput (h : l.Tracks text) (hrest : l.rest = []) (n : Nat) :
    (l.take .endOfInput n).Tells text := by
  obtain ⟨passed, htext, -, hpending⟩ := h.pending
  rw [hrest, List.append_nil] at htext
  subst htext
  unfold take
  cases hopen : l.openParens with
  | nil =>
      rw [hopen] at hpending
      exact ⟨fun _ heq hne => absurd (by cases heq; rfl) hne, fun _ => hpending.toLevel, nofun⟩
  | cons innermost others =>
      rw [hopen] at hpending
      have hdepth := hpending.depth_eq
      rw [List.length_cons] at hdepth
      exact tells_fail ⟨hpending.neverOverclosed, by omega, hpending.lastUnclosed⟩

theorem take_openParen (h : l.Tracks text) {n : Nat} (hslice : l.rest.take n = ['(']) :
    (l.take (.symbol .openParen) n).Tells text := by
  obtain ⟨passed, htext, hposition, hpending⟩ := h.pending
  obtain ⟨htext', hposition'⟩ := passed_advance ⟨htext, hposition⟩ n
  rw [hslice] at htext' hposition'
  refine tells_accept (by nofun) ⟨_, htext', hposition', ?_⟩
  show Pending _ (l.position :: l.openParens)
  rw [hposition]
  exact hpending.openParen

theorem take_closeParen (h : l.Tracks text) {n : Nat} (hslice : l.rest.take n = [')']) :
    (l.take (.symbol .closeParen) n).Tells text := by
  obtain ⟨passed, htext, hposition, hpending⟩ := h.pending
  obtain ⟨htext', hposition'⟩ := passed_advance ⟨htext, hposition⟩ n
  rw [hslice] at htext' hposition'
  unfold take
  cases hopen : l.openParens with
  | nil =>
      rw [hopen] at hpending
      refine tells_fail ?_
      rw [htext', hposition, List.append_assoc]
      exact hpending.firstUnpartnered _
  | cons innermost others =>
      rw [hopen] at hpending
      exact tells_accept (by nofun) ⟨_, htext', hposition', hpending.closeParen⟩

/-- A token in front is taken off, or explains why it may not stand there. -/
theorem take (h : l.Tracks text) {signAllowed afterDot : Bool} {t : Token} {n : Nat}
    (hfront : front signAllowed afterDot l.rest = .token t n) : (l.take t n).Tells text := by
  have hspelled := (front_spelledIn signAllowed afterDot l.rest t n hfront).2
  by_cases hend : t = .endOfInput
  · subst hend
    exact h.take_endOfInput (eq_nil_of_front hfront) n
  by_cases hopen : t = .symbol .openParen
  · subst hopen
    exact h.take_openParen hspelled
  by_cases hclose : t = .symbol .closeParen
  · subst hclose
    exact h.take_closeParen hspelled
  -- every other token is level and leaves the open parentheses as they are
  have htake : l.take t n = l.accept t n := by
    unfold Lexer.take
    split
    next => exact absurd rfl hend
    next => exact absurd rfl hopen
    next => exact absurd rfl hclose
    next => rfl
  rw [htake]
  exact tells_accept hend (h.advance (level_of_front hfront hopen hclose))

/-- One step goes on in the text, ends where the text is level, or fails for a reason in the text. -/
theorem next (h : l.Tracks text) : l.next.Tells text := by
  have hskip := h.skipBlanks
  obtain ⟨passed, htext, hposition, hpending⟩ := hskip.pending
  unfold Lexer.next
  simp only
  split
  next t n hfront => exact hskip.take hfront
  next hfront =>
    apply tells_fail
    show ¬QuotesClosed text
    intro hclosed
    rw [htext, QuotesClosed, List.foldl_append, hpending.quotesClosed] at hclosed
    exact not_quotesClosed_of_front hfront hclosed
  next c hfront =>
    obtain ⟨behind, hrest, hnot⟩ := not_isExpected_of_front hfront (not_isBlank_of_skipBlanks l)
    rw [hrest] at htext
    exact tells_fail ⟨passed, behind, htext, hposition, hpending.quotesClosed, hnot⟩

/-- A run with enough fuel reads a level text, or fails for a reason in the text. -/
theorem run (h : l.Tracks text) {fuel : Nat} (hfuel : l.rest.length < fuel) :
    RunTells text (Lexer.run fuel l) := by
  induction fuel generalizing l with
  | zero => omega
  | succ fuel ih =>
      have hnext := h.next
      rcases run_succ fuel l with ⟨e, hr, hrun⟩ | ⟨hr, hrun⟩ | ⟨t, ht, hr, hrun⟩
      · rw [hrun]
        exact hnext.failed e hr
      · rw [hrun]
        exact hnext.ended hr
      · have hless := (next_progresses hr).resolve_left ht
        have hbehind := ih (hnext.token t hr ht) (by omega)
        rw [hrun]
        generalize Lexer.run fuel l.next.state = behind at hbehind
        cases behind <;> exact hbehind

end Tracks

end Lexer

/-! ## The errors of a text -/

theorem tokenize_tells (text : String) : Lexer.RunTells text.toList (tokenize text) :=
  (Lexer.tracks_ofText text).run (Nat.lt_succ_self _)

/-- `e.IsAboutParentheses` holds for an error that is about no quote and no unexpected character. -/
def LexicalError.IsAboutParentheses : LexicalError → Prop
  | .unexpectedCloseParen _ => True
  | .unclosedParen _ => True
  | _ => False

/-- A clean text fails because of its parentheses only. -/
theorem isAboutParentheses_of_clean {text : String} (hclean : Lexer.Clean text.toList) {e : LexicalError}
    (h : tokenize text = .error e) : e.IsAboutParentheses := by
  have hexplains := tokenize_tells text
  rw [h] at hexplains
  cases e with
  | unterminatedString p => exact hexplains hclean.quotesClosed
  | unexpectedCloseParen p => trivial
  | unclosedParen p => trivial
  | unexpectedCharacter c p =>
      obtain ⟨before, behind, htext, -, hclosed, hnot⟩ := hexplains
      exact hnot (hclean.isExpected before c behind htext hclosed)

/-- **Errors about parentheses are exact.** In a text that closes its quotes and has only expected characters
outside them, and in any text that does not fail because of these, look at the parentheses outside its
quotes. The text has tokens if and only if they are balanced. If a start of the text closes more than it
opens, it fails at the first closing parenthesis without a partner. If no start does but some parentheses
stay open, it fails at the last that is never closed. -/
theorem parenthesis_errors_exact {text : String}
    (h : Lexer.Clean text.toList ∨ ∀ e, tokenize text = .error e → e.IsAboutParentheses) :
    ((∃ placed, tokenize text = .ok placed) ↔ Balanced text.toList) ∧
      (¬NeverOverclosed text.toList → ∃ p, FirstUnpartnered text.toList p ∧
        tokenize text = .error (.unexpectedCloseParen p)) ∧
      (NeverOverclosed text.toList → 0 < depth text.toList → ∃ p, LastUnclosed text.toList p ∧
        tokenize text = .error (.unclosedParen p)) := by
  have hfails : ∀ e, tokenize text = .error e → e.IsAboutParentheses :=
    h.elim (fun hclean _ => isAboutParentheses_of_clean hclean) id
  have htells := tokenize_tells text
  cases htokens : tokenize text with
  | ok placed =>
      rw [htokens] at htells
      have hbalanced := htells.balanced
      refine ⟨⟨fun _ => hbalanced, fun _ => ⟨placed, rfl⟩⟩, ?_, fun _ hdepth => ?_⟩
      · exact fun hover => absurd hbalanced.neverOverclosed hover
      · rw [hbalanced.depth_eq] at hdepth
        exact absurd hdepth (lt_irrefl 0)
  | error e =>
      rw [htokens] at htells
      cases e with
      | unterminatedString p => exact (hfails _ htokens).elim
      | unexpectedCharacter c p => exact (hfails _ htokens).elim
      | unexpectedCloseParen p =>
          have hover := FirstUnpartnered.overclosed htells
          refine ⟨⟨by rintro ⟨placed, ⟨⟩⟩, fun hbalanced => ?_⟩, fun _ => ⟨p, htells, rfl⟩, ?_⟩
          · exact absurd hbalanced.neverOverclosed hover
          · exact fun hnever _ => absurd hnever hover
      | unclosedParen p =>
          obtain ⟨hnever, hdepth, hlast⟩ := htells
          refine ⟨⟨by rintro ⟨placed, ⟨⟩⟩, fun hbalanced => ?_⟩, ?_, fun _ _ => ⟨p, hlast, rfl⟩⟩
          · rw [hbalanced.depth_eq] at hdepth
            exact absurd hdepth (lt_irrefl 0)
          · exact fun hover => absurd hnever hover

/-- A parenthesis in quotes closes nothing, so the first of these stays open; the second is closed. -/
theorem parenthesis_errors_exact_of_hidden :
    let text := "(a = ')' or (b)"
    Lexer.Clean text.toList ∧ NeverOverclosed text.toList ∧ 0 < depth text.toList ∧
      ∃ p, LastUnclosed text.toList p ∧ tokenize text = .error (.unclosedParen p) := by
  intro text
  have hclean : Lexer.Clean text.toList := by
    have hall : (text.toList.all fun c =>
        Unicode.isBlank c || (Lexer.isWordChar c || decide (c ∈ Lexer.signs))) = true := by
      decide +kernel
    refine ⟨by decide +kernel, fun before c behind htext _ => ?_⟩
    have hc := List.all_eq_true.mp hall c (by rw [htext]; simp)
    rw [Bool.or_eq_true, Bool.or_eq_true, decide_eq_true_iff] at hc
    rcases hc with hblank | hword | hsign
    · exact .inl hblank
    · exact .inr (.inl hword)
    · exact .inr (.inr (.inl hsign))
  have hnever : NeverOverclosed text.toList := by
    decide +kernel
  have hdepth : 0 < depth text.toList := by
    decide +kernel
  exact ⟨hclean, hnever, hdepth, (parenthesis_errors_exact (.inl hclean)).2.2 hnever hdepth⟩

end RecordQuery
