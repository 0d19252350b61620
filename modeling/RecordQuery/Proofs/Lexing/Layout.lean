import RecordQuery.Proofs.Lexing.Scans
/-!
# Layout

The lexemes of a text are the characters of its tokens, one after the other (`lexemes`). Laid out in another
way, with white space between any two of them and around them, they are read as the same tokens
(`tokenize_of_layout`): a lexeme by itself has its token in front (`front_cut`), and so it has in front of a
blank, at which every token stops (`front_stop`). What a token is depends besides on the token before, and
that one is the same.
-/

namespace RecordQuery

namespace Lexer

/-! ## Lexemes -/

/-- The characters of the next token. -/
def lexeme (l : Lexer) : List Char :=
  let ahead := l.skipBlanks.rest
  ahead.take (ahead.length - l.next.state.rest.length)

/-- The characters of each token up to the end of the text, as far as at most `fuel` steps go. -/
def lexemes : (fuel : Nat) → Lexer → List (List Char)
  | 0, _ => []
  | fuel + 1, l =>
    match l.next.result with
    | .ok t => if t = .endOfInput then [] else l.lexeme :: lexemes fuel l.next.state
    | .error _ => []

/-- `Layout ls text` holds when the text consists of the pieces `ls` in their order, with white space between
any two of them, and perhaps in front and behind. -/
inductive Layout : List (List Char) → List Char → Prop
  | nil : Layout [] []
  | blank {c : Char} {ls : List (List Char)} {text : List Char} (hc : Unicode.isBlank c = true)
      (h : Layout ls text) : Layout ls (c :: text)
  | piece {l : List Char} {ls : List (List Char)} {text : List Char} (h : Layout ls text)
      (hgap : ls = [] ∨ ∃ c ∈ text.head?, Unicode.isBlank c = true) : Layout (l :: ls) (l ++ text)

end Lexer

/-- The lexemes of a text: the characters of each of its tokens but the last, which has none. -/
def lexemes (text : String) : List (List Char) :=
  Lexer.lexemes (text.toList.length + 1) (Lexer.ofText text)

namespace Lexer

/-! ## A lexeme and what is behind it -/

/-- Behind a piece there is nothing, or white space. -/
theorem Layout.behind {ls : List (List Char)} {text : List Char} (h : Layout ls text)
    (hgap : ls = [] ∨ ∃ c ∈ text.head?, Unicode.isBlank c = true) :
    text = [] ∨ ∃ c rest, text = c :: rest ∧ Unicode.isBlank c = true := by
  obtain rfl | ⟨c, hc, hblank⟩ := hgap
  · cases h with
    | nil => exact .inl rfl
    | blank hc _ => exact .inr ⟨_, _, rfl, hc⟩
  · obtain ⟨rest, rfl⟩ := List.head?_eq_some_iff.mp hc
    exact .inr ⟨c, rest, rfl, hblank⟩

variable {prev : Option Token} {ahead : List Char} {t : Token} {n : Nat}

theorem length_of_frontAfter (ht : t ≠ .endOfInput) (h : frontAfter prev ahead = .token t n) :
    n ≤ ahead.length := by
  have hne : ahead ≠ [] := by
    rintro rfl
    cases h
    exact ht rfl
  exact (front_stop _ _ stop_closeParen hne [] t n h).2

/-- A lexeme has its token in front where nothing or white space is behind it. -/
theorem frontAfter_lexeme (ht : t ≠ .endOfInput) (h : frontAfter prev ahead = .token t n)
    {rest : List Char} (hrest : rest = [] ∨ ∃ c behind, rest = c :: behind ∧ Unicode.isBlank c = true) :
    frontAfter prev (ahead.take n ++ rest) = .token t n := by
  have hcut : frontAfter prev (ahead.take n) = .token t n := front_cut h
  obtain rfl | ⟨c, behind, rfl, hc⟩ := hrest
  · rwa [List.append_nil]
  · have hne : ahead.take n ≠ [] := by
      intro hnil
      rw [hnil] at hcut
      cases hcut
      exact ht rfl
    exact (front_stop _ _ (stop_of_isBlank hc) hne behind t n hcut).1

/-- A lexeme is read as its token, and what is behind it as before. -/
theorem Layout.reads_cons {ls : List (List Char)} {text : List Char} {ts : List Token} {d d₁ : Nat}
    (hlayout : Layout (ahead.take n :: ls) text) (hfront : frontAfter prev ahead = .token t n)
    (hblank : ∀ c ∈ ahead.head?, Unicode.isBlank c = false) (hopen : openAfter? t d = some d₁)
    (hbehind : ∀ rest, Layout ls rest → ∃ prev', Reads (some t) d₁ rest ts prev' 0 []) :
    ∃ prev', Reads prev d text (t :: ts) prev' 0 [] := by
  have ht : t ≠ .endOfInput := by
    rintro rfl
    cases hopen
  have hlength : (ahead.take n).length = n :=
    List.length_take_of_le (length_of_frontAfter ht hfront)
  have hpos : 0 < n := (front_progresses _ _ _ _ _ hfront).resolve_left ht
  generalize hpieces : ahead.take n :: ls = pieces at hlayout
  induction hlayout with
  | nil => cases hpieces
  | blank hc _ ih =>
      obtain ⟨prev', hreads⟩ := ih hpieces
      exact ⟨prev', .blank hc hreads⟩
  | @piece l ls' rest hrest hgap =>
      cases hpieces
      obtain ⟨prev', hreads⟩ := hbehind rest hrest
      refine ⟨prev', .token (frontAfter_lexeme ht hfront (hrest.behind hgap)) ?_ hopen ?_ hreads⟩
      · intro c hc
        refine hblank c ?_
        obtain ⟨first, others, hahead⟩ := List.exists_cons_of_length_pos (l := ahead.take n) (by omega)
        rw [hahead, List.cons_append, List.head?_cons, ← List.head?_cons, ← hahead, List.head?_take,
          if_neg (Nat.pos_iff_ne_zero.mp hpos)] at hc
        exact hc
      · exact List.drop_left' hlength

/-- White space alone is read as nothing. -/
theorem Layout.reads_nil {text : List Char} (h : Layout [] text) (d : Nat) :
    Reads prev d text [] prev d [] := by
  generalize hpieces : ([] : List (List Char)) = pieces at h
  induction h with
  | nil => exact .refl _ _ _
  | blank hc _ ih => exact .blank hc (ih hpieces)
  | piece => cases hpieces

/-! ## The tokens of a layout -/

/-- What is laid out anew is read as it was. -/
theorem reads_of_layout {fuel : Nat} {l : Lexer} {placed : List PlacedToken}
    (hfuel : l.rest.length < fuel) (h : Lexer.run fuel l = .ok placed) {ts : List Token}
    (hts : placed.map PlacedToken.token = ts ++ [.endOfInput]) {text : List Char}
    (hlayout : Layout (lexemes fuel l) text) :
    ∃ prev, Reads l.previous l.openParens.length text ts prev 0 [] := by
  induction fuel generalizing l placed ts text with
  | zero => omega
  | succ fuel ih =>
      obtain ⟨t, others, hr, htokens, hend⟩ := run_succ_ok h
      obtain ⟨n, hfront, hnext⟩ := next_eq_take hr
      have htake : (l.skipBlanks.take t n).result = .ok t := hnext ▸ hr
      obtain ⟨-, hrest, hprevious⟩ := take_eq_ok htake
      rw [htokens] at hts
      rw [lexemes, hr] at hlayout
      dsimp only at hlayout
      obtain ⟨rfl, hnone⟩ | hopen := openAfter?_of_take htake
      · -- nothing is left but white space
        obtain ⟨-, rfl⟩ : _ ∧ others = [] := hend.resolve_right fun h => h.1 rfl
        obtain rfl : [] = ts := List.append_cancel_right hts
        rw [if_pos rfl] at hlayout
        rw [show l.openParens = [] from hnone]
        exact ⟨_, hlayout.reads_nil 0⟩
      · have ht : t ≠ .endOfInput := by
          rintro rfl
          cases hopen
        obtain ⟨-, behind, hrun, rfl⟩ := hend.resolve_left fun h => ht h.1
        have hless := (next_progresses hr).resolve_left ht
        obtain ⟨us, hbehind, -⟩ := run_ends (by omega) hrun
        obtain rfl : t :: us = ts := by
          rw [hbehind] at hts
          exact List.append_cancel_right hts
        have hlexeme : l.lexeme = l.skipBlanks.rest.take n := by
          have hle : n ≤ l.skipBlanks.rest.length := length_of_frontAfter ht hfront
          unfold lexeme
          simp only
          rw [hnext, hrest, List.length_drop, Nat.sub_sub_self hle]
        rw [if_neg ht, hlexeme] at hlayout
        refine hlayout.reads_cons hfront (fun c hc => ?_) hopen fun rest hrestLayout => ?_
        · have hblank := List.head?_dropWhile_not Unicode.isBlank l.rest
          rwa [show (l.rest.dropWhile Unicode.isBlank).head? = some c from hc] at hblank
        · obtain ⟨prev, hreads⟩ := ih (by omega) hrun hbehind hrestLayout
          rw [hnext, hprevious] at hreads
          exact ⟨prev, hreads⟩

/-- Every token but the last has a lexeme. -/
theorem length_lexemes {fuel : Nat} {l : Lexer} {placed : List PlacedToken}
    (h : Lexer.run fuel l = .ok placed) (hfuel : l.rest.length < fuel) :
    (lexemes fuel l).length + 1 = placed.length := by
  induction fuel generalizing l placed with
  | zero => omega
  | succ fuel ih =>
      obtain ⟨t, others, hr, htokens, hend⟩ := run_succ_ok h
      have hlength : placed.length = (t :: others).length := by
        rw [← htokens, List.length_map]
      rw [hlength, lexemes, hr]
      dsimp only
      obtain ⟨rfl, rfl⟩ | ⟨ht, behind, hrun, rfl⟩ := hend
      · rw [if_pos rfl]
        rfl
      · have hless := (next_progresses hr).resolve_left ht
        rw [if_neg ht, List.length_cons, List.length_cons, List.length_map, ih hrun (by omega)]

end Lexer

theorem length_lexemes_of_tokenize {text : String} {placed : List PlacedToken}
    (h : tokenize text = .ok placed) : (lexemes text).length + 1 = placed.length :=
  Lexer.length_lexemes h (Nat.lt_succ_self _)

/-- A text that is laid out anew has the same tokens. -/
theorem tokenize_of_layout {text text' : String} {placed : List PlacedToken}
    (h : tokenize text = .ok placed) (hlayout : Lexer.Layout (lexemes text) text'.toList) :
    ∃ placed', tokenize text' = .ok placed' ∧
      placed'.map PlacedToken.token = placed.map PlacedToken.token := by
  obtain ⟨ts, hts, -⟩ := tokenize_ends h
  obtain ⟨prev, hreads⟩ := Lexer.reads_of_layout (Nat.lt_succ_self _) h hts hlayout
  obtain ⟨placed', hplaced', hts'⟩ := tokenize_of_reads hreads
  exact ⟨placed', hplaced', hts'.trans hts.symm⟩

end RecordQuery
