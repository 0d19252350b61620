import RecordQuery.Proofs.Lexing.Words
import RecordQuery.Proofs.Literal.Numeral
import RecordQuery.Expr.Text
/-!
# Pieces of text

What is printed is put together from pieces. `Spells text ts` says that wherever an operand may start,
`text` is read as `ts`, whatever delimiter stands behind it. Pieces are closed under what the printer
does: parentheses around a piece, an operator between two and commas between several of them.
-/

namespace RecordQuery.Lexer

/-! ## What stands behind a piece -/

/-- What may stand behind a piece: a space, a comma, a closing parenthesis or nothing. -/
def Delimited (rest : List Char) : Prop :=
  ∀ c ∈ rest.head?, c = ' ' ∨ c = ',' ∨ c = ')'

theorem delimited_nil : Delimited [] := by
  rintro c ⟨⟩

theorem delimited_space (rest : List Char) : Delimited (' ' :: rest) := by
  rintro c ⟨⟩
  exact .inl rfl

theorem delimited_comma (rest : List Char) : Delimited (',' :: rest) := by
  rintro c ⟨⟩
  exact .inr (.inl rfl)

theorem delimited_close (rest : List Char) : Delimited (')' :: rest) := by
  rintro c ⟨⟩
  exact .inr (.inr rfl)

/-- A delimiter ends a numeral. -/
theorem Delimited.numeralEnd {rest : List Char} (h : Delimited rest) : Numeral.End rest := by
  intro c hc
  rcases h c hc with rfl | rfl | rfl <;> decide

/-- A delimiter ends a word. -/
theorem Delimited.wordEnd {rest : List Char} (h : Delimited rest) : WordEnd rest := by
  intro c hc
  obtain ⟨hword, -, hhyphen⟩ := h.numeralEnd c hc
  exact ⟨hword, hhyphen⟩

theorem wordEnd_open (rest : List Char) : WordEnd ('(' :: rest) := by
  rintro c ⟨⟩
  decide

theorem wordEnd_dot (rest : List Char) : WordEnd ('.' :: rest) := by
  rintro c ⟨⟩
  decide

/-- Wherever an operand may start, `text` is read as `ts`, whatever delimiter stands behind it. -/
structure Spells (text : List Char) (ts : List Token) : Prop where
  reads : ∀ (prev : Option Token) (d : Nat) (rest : List Char), OperandStart prev → Delimited rest →
    ∃ prev', Reads prev d (text ++ rest) ts prev' d rest ∧ prev' ≠ some (.symbol .dot)
  /-- a parenthesis that is read first stands first -/
  opens : ts.head? = some (.symbol .openParen) → text.head? = some '('

/-! ## Single tokens -/

theorem operandStart_symbol {s : Symbol} (hclose : s ≠ .closeParen) (hdot : s ≠ .dot) :
    OperandStart (some (.symbol s)) := by
  refine ⟨?_, fun h => hdot (Token.symbol.inj (Option.some.inj h))⟩
  cases s <;> first | rfl | contradiction

theorem operandStart_keyword {k : Keyword} (h : k ≠ .NULL) : OperandStart (some (.keyword k)) := by
  refine ⟨?_, fun hk => by cases hk⟩
  cases k <;> first | rfl | contradiction

theorem operandStart_none : OperandStart none :=
  ⟨rfl, fun h => by cases h⟩

/-- The tokens of a text are those that it spells. -/
theorem tokenize_of_spells {text : String} {ts : List Token} (h : Spells text.toList ts) :
    ∃ placed, tokenize text = .ok placed ∧ placed.map PlacedToken.token = ts ++ [.endOfInput] := by
  obtain ⟨prev, hreads, -⟩ := h.reads none 0 [] operandStart_none delimited_nil
  rw [List.append_nil] at hreads
  exact tokenize_of_reads hreads

/-- A piece that is read as one token. -/
theorem spells_token {text : List Char} {t : Token} (hopen : t ≠ .symbol .openParen)
    (hdot : t ≠ .symbol .dot) (h : ∀ (prev : Option Token) (d : Nat) (rest : List Char),
      OperandStart prev → Delimited rest → Reads prev d (text ++ rest) [t] (some t) d rest) :
    Spells text [t] where
  reads prev d rest hprev hrest :=
    ⟨some t, h prev d rest hprev hrest, fun heq => hdot (Option.some.inj heq)⟩
  opens heq := absurd (Option.some.inj heq) hopen

theorem spells_nil : Spells [] [] where
  reads _ _ _ hprev _ := ⟨_, .refl _ _ _, hprev.2⟩
  opens h := by cases h

theorem spells_numeral (n : Numeral) : Spells n.text [.span (String.ofList n.text)] :=
  spells_token Token.noConfusion Token.noConfusion fun _ _ _ hprev hrest =>
    n.reads hprev hrest.numeralEnd

theorem spells_name {name : String} (h : IsName name) : Spells name.toList [.identifier name] :=
  spells_token Token.noConfusion Token.noConfusion fun _ _ _ hprev hrest =>
    reads_name h hprev.2 hrest.wordEnd

theorem spells_keyword (k : Keyword) : Spells k.text.toList [.keyword k] :=
  spells_token Token.noConfusion Token.noConfusion fun _ _ _ hprev hrest =>
    reads_keyword k hprev.2 hrest.wordEnd

theorem spells_placeholder : Spells ['?'] [.placeholder] :=
  spells_token Token.noConfusion Token.noConfusion fun _ _ _ _ _ => reads_placeholder

theorem spells_star : Spells ['*'] [.symbol .star] :=
  spells_token (by decide) (by decide) fun _ _ _ _ _ => reads_star

/-- An identifier of 128 bits is one literal span. -/
theorem spells_uuid {text : List Char} (h : Uuid.isGrouped text = true) :
    Spells text [.span (String.ofList text)] := by
  refine spells_token Token.noConfusion Token.noConfusion fun prev d rest hprev hrest => ?_
  have hlength := Uuid.length_of_isGrouped h
  have htake : (text ++ rest).take 36 = text := by
    rw [← hlength, List.take_left]
  have hstarts : startsWithUuid (text ++ rest) = true := by
    unfold startsWithUuid
    rw [htake, h, ← hlength, drop_append_self, Bool.true_and, Bool.not_eq_true']
    cases rest with
    | nil => rfl
    | cons c rest => exact (hrest.wordEnd c rfl).1
  obtain ⟨c, cs, hcs, hc⟩ : ∃ c cs, text = c :: cs ∧ isWordChar c = true := by
    obtain ⟨a, b, hab, ha, hhex⟩ := Uuid.exists_of_isGrouped h
    cases a with
    | nil => cases ha
    | cons c a => exact ⟨c, _, hab, Uuid.isWordChar_of_isHex (hhex c (by simp))⟩
  refine .single (n := text.length) ?_ ?_ rfl (drop_append_self _ _)
  · show frontAfter prev (text ++ rest) = Front.span text
    rw [hcs, List.cons_append] at htake hstarts ⊢
    unfold frontAfter
    rw [front_of_isWordChar hc, beq_eq_false_iff_ne.mpr hprev.2]
    simp only [Front.other, hc, hstarts, if_true, Bool.false_eq_true, if_false, htake]
  · rintro x hx
    rw [hcs] at hx
    cases hx
    exact not_isBlank_of_isWordChar hc

/-! ## Quoted texts -/

open Literal in
/-- A text in quotes is read back to its closing quote, with its doubled quotes read as one. -/
theorem quotedContent?_doubleQuotes (text : List Char) {rest : List Char}
    (h : ∀ c ∈ rest.head?, c ≠ '\'') :
    quotedContent? '\'' (doubleQuotes text ++ '\'' :: rest) =
      some (text, (doubleQuotes text).length + 1) := by
  induction text with
  | nil =>
      -- another quote behind the closing one would be a doubled quote
      cases rest with
      | nil => rfl
      | cons c rest =>
          show quotedContent? '\'' ('\'' :: c :: rest) = _
          rw [quotedContent?, if_pos rfl, if_neg (h c rfl)]
          rfl
  | cons c text ih =>
      rw [doubleQuotes]
      by_cases hc : c = '\''
      · rw [if_pos hc, hc, List.cons_append, List.cons_append, quotedContent?, if_pos rfl, if_pos rfl, ih]
        rfl
      · rw [if_neg hc, List.cons_append]
        obtain ⟨x, xs, hxs⟩ := List.exists_cons_of_ne_nil
          (List.append_ne_nil_of_right_ne_nil (doubleQuotes text) (List.cons_ne_nil '\'' rest))
        rw [hxs] at ih ⊢
        rw [quotedContent?, if_neg hc, ih]
        rfl

theorem spells_quoted (text : String) : Spells (Literal.quoted text).toList [.quoted text] := by
  refine spells_token Token.noConfusion Token.noConfusion fun prev d rest _ hrest => ?_
  have hquote : ∀ c ∈ rest.head?, c ≠ '\'' := by
    intro c hc
    rcases hrest c hc with rfl | rfl | rfl <;> decide
  have htext : (Literal.quoted text).toList ++ rest =
      '\'' :: (Literal.doubleQuotes text.toList ++ '\'' :: rest) := by
    simp [Literal.quoted]
  rw [htext]
  refine .single (n := (Literal.doubleQuotes text.toList).length + 2) ?_ ?_ rfl ?_
  · show Front.quoted '\'' _ = _
    rw [Front.quoted, quotedContent?_doubleQuotes _ hquote]
    simp only [String.ofList_toList]
  · rintro c ⟨⟩
    decide
  · rw [List.drop_succ_cons, List.drop_append, List.drop_of_length_le (Nat.le_succ _),
      Nat.add_sub_cancel_left]
    rfl

/-! ## Pieces from pieces -/

/-- `Enclosable text ts` holds when between parentheses `text` is read as `ts`, whatever stands behind
them. -/
def Enclosable (text : List Char) (ts : List Token) : Prop :=
  ∀ (d : Nat) (rest : List Char), ∃ prev',
    Reads (some (.symbol .openParen)) (d + 1) (text ++ ')' :: rest) ts prev' (d + 1) (')' :: rest)

theorem Spells.enclosable {text : List Char} {ts : List Token} (h : Spells text ts) :
    Enclosable text ts := by
  intro d rest
  obtain ⟨prev', hreads, -⟩ :=
    h.reads (some (.symbol .openParen)) (d + 1) (')' :: rest)
      (operandStart_symbol (by decide) (by decide)) (delimited_close rest)
  exact ⟨prev', hreads⟩

/-- A text in parentheses may stand anywhere. -/
theorem Enclosable.reads_group {text : List Char} {ts : List Token} (h : Enclosable text ts)
    (prev : Option Token) (d : Nat) (rest : List Char) :
    Reads prev d ('(' :: (text ++ ')' :: rest)) (.symbol .openParen :: (ts ++ [.symbol .closeParen]))
      (some (.symbol .closeParen)) d rest := by
  obtain ⟨prev', hreads⟩ := h d rest
  have hopen : Reads prev d ('(' :: (text ++ ')' :: rest)) [.symbol .openParen]
      (some (.symbol .openParen)) (d + 1) (text ++ ')' :: rest) := reads_openParen
  exact hopen.trans (hreads.trans reads_closeParen)

/-- A text in parentheses is a piece. -/
theorem Enclosable.group {text : List Char} {ts : List Token} (h : Enclosable text ts) :
    Spells ('(' :: (text ++ [')'])) (.symbol .openParen :: (ts ++ [.symbol .closeParen])) := by
  refine ⟨fun prev d rest _ _ => ?_, fun _ => rfl⟩
  have hgroup := h.reads_group prev d rest
  refine ⟨some (.symbol .closeParen), ?_, fun h => by cases h⟩
  rw [List.cons_append, List.append_assoc]
  exact hgroup

/-- `OperatorText text t` holds for the text of an operator, which is read as `t` between two
spaces. -/
def OperatorText (text : List Char) (t : Token) : Prop :=
  t ≠ .symbol .openParen ∧ OperandStart (some t) ∧
    ∀ (prev : Option Token) (d : Nat) (rest : List Char), prev ≠ some (.symbol .dot) →
      Reads prev d (text ++ ' ' :: rest) [t] (some t) d (' ' :: rest)

theorem operatorText_symbol {s : Symbol} (hopen : s ≠ .openParen) (hclose : s ≠ .closeParen)
    (hdot : s ≠ .dot) : OperatorText s.text.toList (.symbol s) :=
  ⟨fun h => hopen (Token.symbol.inj h), operandStart_symbol hclose hdot,
    fun _ _ _ _ => reads_symbol hopen hclose⟩

theorem operatorText_keyword {k : Keyword} (h : k ≠ .NULL) :
    OperatorText k.text.toList (.keyword k) :=
  ⟨Token.noConfusion, operandStart_keyword h, fun _ _ rest hprev =>
    reads_keyword k hprev (delimited_space rest).wordEnd⟩

/-- The first part decides whether a parenthesis is read first. -/
theorem Spells.opens_append {a b : List Char} {ts us : List Token} {t : Token} (h : Spells a ts)
    (ht : t ≠ .symbol .openParen) (hopen : (ts ++ t :: us).head? = some (.symbol .openParen)) :
    (a ++ b).head? = some '(' := by
  cases ts with
  | nil => exact absurd (Option.some.inj hopen) ht
  | cons u ts =>
      rw [List.head?_append, h.opens hopen]
      rfl

/-- Two pieces with an operator between. -/
theorem Spells.binary {a b op : List Char} {ts us : List Token} {t : Token} (ha : Spells a ts)
    (hop : OperatorText op t) (hb : Spells b us) :
    Spells (a ++ ' ' :: (op ++ ' ' :: b)) (ts ++ t :: us) := by
  refine ⟨fun prev d rest hprev hrest => ?_, ha.opens_append hop.1⟩
  obtain ⟨prev₁, hfirst, hdot⟩ :=
    ha.reads prev d (' ' :: (op ++ ' ' :: (b ++ rest))) hprev (delimited_space _)
  obtain ⟨prev₂, hsecond, hdot'⟩ := hb.reads (some t) d rest hop.2.1 hrest
  refine ⟨prev₂, ?_, hdot'⟩
  have hmiddle := hop.2.2 prev₁ d (b ++ rest) hdot
  have hall := hfirst.trans (reads_space (hmiddle.trans (reads_space hsecond)))
  simp only [List.append_assoc, List.cons_append]
  exact hall

/-- Two pieces with a comma between. -/
theorem Spells.comma {a b : List Char} {ts us : List Token} (ha : Spells a ts) (hb : Spells b us) :
    Spells (a ++ ',' :: ' ' :: b) (ts ++ .symbol .comma :: us) := by
  refine ⟨fun prev d rest hprev hrest => ?_, ha.opens_append (by decide)⟩
  obtain ⟨prev₁, hfirst, -⟩ := ha.reads prev d (',' :: ' ' :: (b ++ rest)) hprev (delimited_comma _)
  obtain ⟨prev₂, hsecond, hdot⟩ := hb.reads (some (.symbol .comma)) d rest
    (operandStart_symbol (by decide) (by decide)) hrest
  refine ⟨prev₂, ?_, hdot⟩
  have hall := hfirst.trans (reads_comma.trans (reads_space hsecond))
  rw [List.append_assoc]
  exact hall

theorem commaSeparated_singleton (text : String) : Expr.commaSeparated [text] = text := by
  simp [Expr.commaSeparated]

theorem commaSeparated_cons (first second : String) (others : List String) :
    (Expr.commaSeparated (first :: second :: others)).toList =
      first.toList ++ ',' :: ' ' :: (Expr.commaSeparated (second :: others)).toList := by
  simp [Expr.commaSeparated, String.intercalate_cons_cons]

/-! ## Clauses behind pieces -/

/-- A keyword in front of a piece is read where a name may stand, which is more than an operand. -/
theorem Spells.reads_behind {k : Keyword} {text : List Char} {ts : List Token} (h : Spells text ts)
    (hk : k ≠ .NULL) {prev : Option Token} (hprev : prev ≠ some (.symbol .dot)) (d : Nat)
    {rest : List Char} (hrest : Delimited rest) :
    ∃ prev', Reads prev d (k.text.toList ++ ' ' :: text ++ rest) (.keyword k :: ts) prev' d rest ∧
      prev' ≠ some (.symbol .dot) := by
  obtain ⟨prev', hreads, hdot⟩ := h.reads (some (.keyword k)) d rest (operandStart_keyword hk) hrest
  have hkeyword := reads_keyword k (d := d) hprev (delimited_space (text ++ rest)).wordEnd
  refine ⟨prev', ?_, hdot⟩
  rw [List.append_assoc]
  exact hkeyword.trans (reads_space hreads)

/-- A keyword in front of a piece. -/
theorem Spells.behind {k : Keyword} {text : List Char} {ts : List Token} (h : Spells text ts)
    (hk : k ≠ .NULL) : Spells (k.text.toList ++ ' ' :: text) (.keyword k :: ts) where
  reads _ d _ hprev hrest := h.reads_behind hk hprev.2 d hrest
  opens heq := by cases heq

/-- Behind any piece, `text` is read as `ts`: it is empty or starts with a space. -/
structure Follows (text : List Char) (ts : List Token) : Prop where
  space : ∀ c ∈ text.head?, c = ' '
  reads : ∀ (prev : Option Token) (d : Nat) (rest : List Char), prev ≠ some (.symbol .dot) →
    Delimited rest → ∃ prev', Reads prev d (text ++ rest) ts prev' d rest ∧
      prev' ≠ some (.symbol .dot)

theorem follows_nil : Follows [] [] where
  space _ h := by cases h
  reads _ _ _ hprev _ := ⟨_, .refl _ _ _, hprev⟩

theorem Follows.delimited {text rest : List Char} {ts : List Token} (h : Follows text ts)
    (hrest : Delimited rest) : Delimited (text ++ rest) := by
  cases text with
  | nil => exact hrest
  | cons c text =>
      rw [h.space c rfl, List.cons_append]
      exact delimited_space _

/-- What follows may be read behind anything that was read up to it. -/
theorem Follows.reads_behind {a b rest : List Char} {ts us : List Token} {prev prev₁ : Option Token}
    {d : Nat} (hb : Follows b us) (ha : Reads prev d (a ++ (b ++ rest)) ts prev₁ d (b ++ rest))
    (hdot : prev₁ ≠ some (.symbol .dot)) (hrest : Delimited rest) :
    ∃ prev₂, Reads prev d (a ++ b ++ rest) (ts ++ us) prev₂ d rest ∧
      prev₂ ≠ some (.symbol .dot) := by
  obtain ⟨prev₂, hreads, hdot'⟩ := hb.reads prev₁ d rest hdot hrest
  refine ⟨prev₂, ?_, hdot'⟩
  rw [List.append_assoc]
  exact ha.trans hreads

theorem Follows.append {a b : List Char} {ts us : List Token} (ha : Follows a ts)
    (hb : Follows b us) : Follows (a ++ b) (ts ++ us) := by
  refine ⟨fun c hc => ?_, fun prev d rest hprev hrest => ?_⟩
  · cases a with
    | nil => exact hb.space c hc
    | cons x a => exact ha.space c hc
  · obtain ⟨prev₁, hfirst, hdot⟩ := ha.reads prev d (b ++ rest) hprev (hb.delimited hrest)
    exact hb.reads_behind hfirst hdot hrest

/-- A piece with clauses behind it. -/
theorem Spells.append {a b : List Char} {ts us : List Token} (ha : Spells a ts) (hne : ts ≠ [])
    (hb : Follows b us) : Spells (a ++ b) (ts ++ us) := by
  refine ⟨fun prev d rest hprev hrest => ?_, fun hopen => ?_⟩
  · obtain ⟨prev₁, hfirst, hdot⟩ := ha.reads prev d (b ++ rest) hprev (hb.delimited hrest)
    exact hb.reads_behind hfirst hdot hrest
  · cases ts with
    | nil => contradiction
    | cons t ts =>
        rw [List.head?_append, ha.opens hopen]
        rfl

/-- A keyword with a space in front of it. -/
theorem follows_keyword (k : Keyword) : Follows (' ' :: k.text.toList) [.keyword k] where
  space c h := by
    cases h
    rfl
  reads _ _ _ hprev hrest :=
    ⟨_, reads_space (reads_keyword k hprev hrest.wordEnd), fun h => by cases h⟩

/-- A keyword and a piece behind it, with a space in front of each. -/
theorem Spells.follows {k : Keyword} {text : List Char} {ts : List Token} (h : Spells text ts)
    (hk : k ≠ .NULL) : Follows (' ' :: (k.text.toList ++ ' ' :: text)) (.keyword k :: ts) := by
  refine ⟨fun c hc => by cases hc; rfl, fun prev d rest hprev hrest => ?_⟩
  obtain ⟨prev', hreads, hdot⟩ := h.reads_behind hk hprev d hrest
  exact ⟨prev', reads_space hreads, hdot⟩

end RecordQuery.Lexer
