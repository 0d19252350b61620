import RecordQuery.Proofs.Lexing.Progress
/-!
# Tokens one after the other

`Lexer.Reads prev d text ts prev' d' text'` says that the tokens `ts` are taken off `text`, and `text'`
is left. Positions do not matter for that; what matters is the last token (`prev`), which decides
whether a minus is a sign and whether a word is a name, and how many parentheses are open (`d`). The tokens of a text
are those that are read in this way, to its end (`reads_of_tokenize`, `tokenize_of_reads`).
-/

namespace RecordQuery

namespace Lexer

/-- How many parentheses are open behind a token, if it may stand there. -/
def openAfter? (t : Token) (d : Nat) : Option Nat :=
  match t with
  | .symbol .openParen => some (d + 1)
  | .symbol .closeParen => if d = 0 then none else some (d - 1)
  | .endOfInput => none
  | _ => some d

/-- What is in front of a text behind the token `prev`. -/
def frontAfter (prev : Option Token) (text : List Char) : Front :=
  front (!prev.any Token.endsOperand) (prev == some (.symbol .dot)) text

/-- Behind `prev` and `d` open parentheses, the tokens `ts` are taken off a text. -/
inductive Reads : Option Token → Nat → List Char → List Token → Option Token → Nat → List Char → Prop
  | refl (prev : Option Token) (d : Nat) (text : List Char) : Reads prev d text [] prev d text
  | blank {prev prev' : Option Token} {d d' : Nat} {c : Char} {text text' : List Char}
      {ts : List Token} (hc : Unicode.isBlank c = true) (h : Reads prev d text ts prev' d' text') :
      Reads prev d (c :: text) ts prev' d' text'
  | token {prev prev' : Option Token} {d d₁ d' : Nat} {text text₁ text' : List Char} {t : Token}
      {ts : List Token} {n : Nat} (hfront : frontAfter prev text = .token t n)
      (hblank : ∀ c ∈ text.head?, Unicode.isBlank c = false) (hopen : openAfter? t d = some d₁)
      (hdrop : text.drop n = text₁) (h : Reads (some t) d₁ text₁ ts prev' d' text') :
      Reads prev d text (t :: ts) prev' d' text'

namespace Reads

variable {prev prev' prev'' : Option Token} {d d' d'' : Nat} {text text' text'' : List Char}
  {ts ts' : List Token}

theorem trans (h : Reads prev d text ts prev' d' text')
    (h' : Reads prev' d' text' ts' prev'' d'' text'') :
    Reads prev d text (ts ++ ts') prev'' d'' text'' := by
  induction h with
  | refl => exact h'
  | blank hc _ ih => exact .blank hc (ih h')
  | token hfront hblank hopen hdrop _ ih => exact .token hfront hblank hopen hdrop (ih h')

/-- One token. -/
theorem single {t : Token} {n : Nat} (hfront : frontAfter prev text = .token t n)
    (hblank : ∀ c ∈ text.head?, Unicode.isBlank c = false) (hopen : openAfter? t d = some d')
    (hdrop : text.drop n = text') : Reads prev d text [t] (some t) d' text' :=
  .token hfront hblank hopen hdrop (.refl _ _ _)

end Reads

/-! ## Reading to the end -/

theorem skipBlanks_of_blank {l : Lexer} {c : Char} {text : List Char} (hl : l.rest = c :: text)
    (hc : Unicode.isBlank c = true) :
    l.skipBlanks = { l with rest := text, position := l.position.next c }.skipBlanks := by
  simp only [skipBlanks, hl, List.dropWhile_cons_of_pos hc, List.takeWhile_cons_of_pos hc,
    Position.after_cons]

theorem skipBlanks_of_not_blank {l : Lexer} (h : ∀ c ∈ l.rest.head?, Unicode.isBlank c = false) :
    l.skipBlanks = l := by
  obtain ⟨rest, position, previous, openParens⟩ := l
  cases rest with
  | nil => rfl
  | cons c text =>
      have hc := h c rfl
      simp only [skipBlanks]
      rw [List.dropWhile_cons_of_neg (by rw [hc]; exact Bool.false_ne_true),
        List.takeWhile_cons_of_neg (by rw [hc]; exact Bool.false_ne_true), Position.after_nil]

/-- Behind the white space nothing is blank. -/
theorem not_isBlank_of_skipBlanks (l : Lexer) :
    ∀ c ∈ l.skipBlanks.rest.head?, Unicode.isBlank c = false := by
  intro c hc
  have hhead := List.head?_dropWhile_not Unicode.isBlank l.rest
  rwa [show (l.rest.dropWhile Unicode.isBlank).head? = some c from hc] at hhead

/-- A token that may stand there is taken. -/
theorem take_of_openAfter? {l : Lexer} {t : Token} {n d : Nat}
    (h : openAfter? t l.openParens.length = some d) :
    (l.take t n).result = .ok t ∧ (l.take t n).state.previous = some t ∧
      (l.take t n).state.rest = l.rest.drop n ∧ (l.take t n).state.openParens.length = d := by
  unfold openAfter? at h
  unfold take
  split at h
  · cases h
    exact ⟨rfl, rfl, rfl, rfl⟩
  · split at h
    · cases h
    · cases h
      obtain ⟨rest, position, previous, openParens⟩ := l
      cases openParens with
      | nil => contradiction
      | cons p others => exact ⟨rfl, rfl, rfl, rfl⟩
  · cases h
  · cases h
    split
    · contradiction
    · contradiction
    · contradiction
    · exact ⟨rfl, rfl, rfl, rfl⟩

/-- The lexer takes the tokens that are read, if its fuel is more than the text is long. -/
theorem run_of_reads {prev prev' : Option Token} {d d' : Nat} {text text' : List Char}
    {ts : List Token} (h : Reads prev d text ts prev' d' text') (htext : text' = []) (hd : d' = 0)
    {l : Lexer} (hrest : l.rest = text) (hprev : l.previous = prev) (hopen : l.openParens.length = d)
    {fuel : Nat} (hfuel : text.length < fuel) :
    ∃ placed, Lexer.run fuel l = .ok placed ∧
      placed.map PlacedToken.token = ts ++ [.endOfInput] := by
  induction h generalizing l fuel with
  | refl prev d text =>
      -- the text has been read: the next step is the end of the input
      subst htext hd
      obtain ⟨f, rfl⟩ : ∃ f, fuel = f + 1 := ⟨fuel - 1, by omega⟩
      obtain ⟨rest, position, previous, openParens⟩ := l
      obtain rfl : rest = [] := hrest
      obtain rfl : openParens = [] := List.length_eq_zero_iff.mp hopen
      exact ⟨_, rfl, rfl⟩
  | @blank prev prev' d d' c text text' ts hc h ih =>
      obtain ⟨f, rfl⟩ : ∃ f, fuel = f + 1 := ⟨fuel - 1, by omega⟩
      have hskip := skipBlanks_of_blank hrest hc
      have hshorter : text.length < f + 1 := by
        rw [List.length_cons] at hfuel
        omega
      obtain ⟨placed, hrun, htokens⟩ :=
        ih htext hd (l := { l with rest := text, position := l.position.next c }) rfl hprev hopen
          hshorter
      refine ⟨placed, ?_, htokens⟩
      rw [← hrun, Lexer.run, Lexer.run]
      unfold next
      rw [hskip]
  | @token prev prev' d d₁ d' text text₁ text' t ts n hfront hblank hopen' hdrop h ih =>
      obtain ⟨f, rfl⟩ : ∃ f, fuel = f + 1 := ⟨fuel - 1, by omega⟩
      have hnext : l.next = l.take t n := by
        unfold next
        rw [skipBlanks_of_not_blank (by rw [hrest]; exact hblank)]
        unfold frontAfter at hfront
        simp only [hprev, hrest, hfront]
      rw [← hopen] at hopen'
      obtain ⟨hresult, hprev₁, hrest₁, hopen₁⟩ := take_of_openAfter? (n := n) hopen'
      have ht : t ≠ .endOfInput := by
        rintro rfl
        cases hopen'
      -- every token takes a character, so the fuel lasts
      have hless : text₁.length < text.length := by
        have hpos := (front_progresses _ _ _ _ _ hfront).resolve_left ht
        have htext : text ≠ [] := by
          rintro rfl
          cases hfront
          exact ht rfl
        have hlength := List.length_pos_iff.mpr htext
        rw [← hdrop, List.length_drop]
        omega
      have hshorter : text₁.length < f := by omega
      obtain ⟨placed, hrun, htokens⟩ := ih htext hd (l := l.next.state)
        (by rw [hnext, hrest₁, hrest, hdrop]) (by rw [hnext, hprev₁]) (by rw [hnext, hopen₁])
        hshorter
      refine ⟨⟨t, l.next.start⟩ :: placed, ?_, by rw [List.map_cons, htokens]; rfl⟩
      rw [Lexer.run]
      rw [show l.next.result = .ok t by rw [hnext, hresult]]
      simp only
      rw [if_neg ht, hrun]
      rfl

/-! ## What a run reads -/

theorem Front.word_ne_endOfInput (afterDot : Bool) (text : List Char) (n : Nat) :
    Front.word afterDot text ≠ .token .endOfInput n := by
  unfold Front.word
  intro h
  have htoken := (Front.token.inj h).1
  split at htoken
  · cases htoken
  · split at htoken <;> cases htoken

theorem Front.quoted_ne_endOfInput (quote : Char) (text : List Char) (n : Nat) :
    Front.quoted quote text ≠ .token .endOfInput n := by
  unfold Front.quoted
  split <;> rintro ⟨⟩

theorem Front.other_ne_endOfInput (afterDot : Bool) (c : Char) (text : List Char) (n : Nat) :
    Front.other afterDot c text ≠ .token .endOfInput n := by
  fun_cases Front.other afterDot c text with
  | case1 => exact Front.word_ne_endOfInput _ _ n
  | case2 => rintro ⟨⟩
  | case3 => rintro ⟨⟩
  | case4 => exact Front.word_ne_endOfInput _ _ n
  | case5 => rintro ⟨⟩

/-- Where there is text, the end of the input is not in front. -/
theorem eq_nil_of_front {signAllowed afterDot : Bool} {text : List Char} {n : Nat}
    (h : front signAllowed afterDot text = .token .endOfInput n) : text = [] := by
  revert h
  fun_cases front signAllowed afterDot text
  case case1 => exact fun _ => rfl
  case case2 => exact fun h => absurd h (Front.quoted_ne_endOfInput _ _ n)
  case case3 => exact fun h => absurd h (Front.quoted_ne_endOfInput _ _ n)
  case case22 => exact fun h => absurd h (Front.other_ne_endOfInput _ _ _ n)
  all_goals rintro ⟨⟩

/-- Blanks in front of a text change nothing. -/
theorem Reads.of_dropWhile {prev prev' : Option Token} {d d' : Nat} {text text' : List Char}
    {ts : List Token} (h : Reads prev d (text.dropWhile Unicode.isBlank) ts prev' d' text') :
    Reads prev d text ts prev' d' text' := by
  induction text with
  | nil => exact h
  | cons c text ih =>
      by_cases hc : Unicode.isBlank c = true
      · rw [List.dropWhile_cons_of_pos hc] at h
        exact .blank hc (ih h)
      · rwa [List.dropWhile_cons_of_neg hc] at h

/-- A token that is taken may stand there, and the end of the input only where nothing is open. -/
theorem openAfter?_of_take {l : Lexer} {t t' : Token} {n : Nat} (h : (l.take t n).result = .ok t') :
    t = .endOfInput ∧ l.openParens = [] ∨
      openAfter? t l.openParens.length = some (l.take t n).state.openParens.length := by
  obtain ⟨rest, position, previous, openParens⟩ := l
  fun_cases openAfter? t openParens.length with
  | case1 => exact .inr rfl
  | case2 hnone =>
      obtain rfl := List.length_eq_zero_iff.mp hnone
      cases h
  | case3 hsome =>
      cases openParens with
      | nil => exact absurd rfl hsome
      | cons innermost others => exact .inr (by simp [take, accept, advance])
  | case4 =>
      cases openParens with
      | nil => exact .inl ⟨rfl, rfl⟩
      | cons innermost others => cases h
  | case5 hopen hclose hend =>
      right
      unfold take
      split
      · contradiction
      · contradiction
      · contradiction
      · rfl

/-- A token that is read stands in front, behind blanks. -/
theorem next_eq_take {l : Lexer} {t : Token} (h : l.next.result = .ok t) :
    ∃ n, frontAfter l.previous (l.rest.dropWhile Unicode.isBlank) = .token t n ∧
      l.next = l.skipBlanks.take t n := by
  unfold next at h ⊢
  simp only at h ⊢
  cases hf : front (!l.skipBlanks.previous.any Token.endsOperand)
    (l.skipBlanks.previous == some (.symbol .dot)) l.skipBlanks.rest with
  | unterminated =>
      rw [hf] at h
      cases h
  | unknown c =>
      rw [hf] at h
      cases h
  | token t' n =>
      rw [hf] at h
      obtain ⟨rfl, -, -⟩ := take_eq_ok h
      exact ⟨n, hf, rfl⟩

/-- What a run gives was read off the text, to its end. -/
theorem reads_of_run {fuel : Nat} {l : Lexer} {placed : List PlacedToken}
    (hfuel : l.rest.length < fuel) (h : Lexer.run fuel l = .ok placed) :
    ∃ ts prev, placed.map PlacedToken.token = ts ++ [.endOfInput] ∧
      Reads l.previous l.openParens.length l.rest ts prev 0 [] := by
  induction fuel generalizing l placed with
  | zero => omega
  | succ fuel ih =>
      obtain ⟨t, others, hr, htokens, hend⟩ := run_succ_ok h
      obtain ⟨n, hfront, hnext⟩ := next_eq_take hr
      rw [hnext] at hr hend
      obtain ⟨-, hrest, hprevious⟩ := take_eq_ok hr
      obtain ⟨rfl, hnone⟩ | hopen := openAfter?_of_take hr
      · -- nothing is left but blanks
        obtain ⟨-, rfl⟩ : _ ∧ others = [] := hend.resolve_right fun h => h.1 rfl
        refine ⟨[], l.previous, htokens, .of_dropWhile ?_⟩
        rw [show l.openParens = [] from hnone, eq_nil_of_front hfront]
        exact .refl _ _ _
      · have ht : t ≠ .endOfInput := by
          rintro rfl
          cases hopen
        obtain ⟨-, behind, hrun, rfl⟩ := hend.resolve_left fun h => ht h.1
        have hless := (next_progresses (hnext ▸ hr)).resolve_left ht
        rw [hnext] at hless
        obtain ⟨ts, prev, hbehind, hreads⟩ := ih (by omega) hrun
        rw [hrest, hprevious] at hreads
        refine ⟨t :: ts, prev, by rw [htokens, hbehind]; rfl, .of_dropWhile ?_⟩
        refine .token hfront (fun c hc => ?_) hopen rfl hreads
        have hblank := List.head?_dropWhile_not Unicode.isBlank l.rest
        rwa [Option.mem_def.mp hc] at hblank

end Lexer

/-- The tokens of a text are read off it, to its end, with no parenthesis left open. -/
theorem reads_of_tokenize {text : String} {placed : List PlacedToken}
    (h : tokenize text = .ok placed) :
    ∃ ts prev, placed.map PlacedToken.token = ts ++ [.endOfInput] ∧
      Lexer.Reads none 0 text.toList ts prev 0 [] :=
  Lexer.reads_of_run (Nat.lt_succ_self _) h

/-- A text that is read to its end, with no parenthesis left open, has the tokens that are read. -/
theorem tokenize_of_reads {text : String} {ts : List Token} {prev : Option Token}
    (h : Lexer.Reads none 0 text.toList ts prev 0 []) :
    ∃ placed, tokenize text = .ok placed ∧ placed.map PlacedToken.token = ts ++ [.endOfInput] :=
  Lexer.run_of_reads h rfl rfl rfl rfl rfl (Nat.lt_succ_self _)

namespace Lexer

/-! ## Characters of words -/

theorem isWordChar_of_isBlank {c : Char} (h : Unicode.isBlank c = true) : isWordChar c = false := by
  -- the ranges of blanks are few, so their members are checked one by one
  have all : ∀ r ∈ Unicode.blankRanges, ∀ i < r.2 + 1 - r.1,
      isWordChar (Char.ofNat (r.1 + i)) = false := by
    decide +kernel
  obtain ⟨r, hr, hlow, hhigh⟩ := Unicode.inRanges_eq_true_iff.mp h
  have := all r hr (c.toNat - r.1) (by omega)
  rwa [Nat.add_sub_cancel' hlow, Char.ofNat_toNat] at this

theorem not_isBlank_of_isWordChar {c : Char} (h : isWordChar c = true) :
    Unicode.isBlank c = false := by
  cases hb : Unicode.isBlank c with
  | false => rfl
  | true =>
      rw [isWordChar_of_isBlank hb] at h
      cases h

/-- What starts with a word character is a word, a number or an identifier of 128 bits. -/
theorem front_of_isWordChar {signAllowed afterDot : Bool} {c : Char} {rest : List Char}
    (h : isWordChar c = true) :
    front signAllowed afterDot (c :: rest) = Front.other afterDot c rest := by
  have special : ∀ d ∈ ['\'', '"', '(', ')', ',', '.', '+', '*', '/', '?', '=', '-', '!', '<', '>'],
      isWordChar d = false := by
    simp only [List.forall_mem_cons, List.not_mem_nil, false_implies, implies_true, and_true]
    decide +kernel
  unfold front
  split
  all_goals
    next heq =>
      cases heq <;> first
        | rfl
        | (rw [special _ (by decide)] at h; cases h)

end Lexer

end RecordQuery
