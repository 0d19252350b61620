import RecordQuery.Proofs.Lexing.Layout
import RecordQuery.Proofs.Lexing.Positions
/-!
# Tokens tile their text

Every token is read from a slice of its text, and the slice says which token it is up to the case of a
keyword (`Token.SpelledBy`). The tokens of a text tile it (`Lexer.Tiles`): slice after slice with nothing
but white space between, in front and behind, each token placed at the start of its own. So the offsets of
the tokens increase strictly, and the end of the input stands at the end of the text and nowhere else.
-/

namespace RecordQuery

/-- A text with each of its quotes doubled. -/
def doubled (quote : Char) (text : List Char) : List Char :=
  text.flatMap fun c => if c = quote then [quote, quote] else [c]

@[simp]
theorem doubled_nil (quote : Char) : doubled quote [] = [] :=
  rfl

theorem doubled_cons_self (quote : Char) (text : List Char) :
    doubled quote (quote :: text) = quote :: quote :: doubled quote text := by
  rw [doubled, List.flatMap_cons, if_pos rfl]
  rfl

theorem doubled_cons_of_ne {quote c : Char} (hc : c ≠ quote) (text : List Char) :
    doubled quote (c :: text) = c :: doubled quote text := by
  rw [doubled, List.flatMap_cons, if_neg hc]
  rfl

/-- `t.SpelledBy slice` holds for the characters that a token is read from. -/
def Token.SpelledBy (slice : List Char) : Token → Prop
  | .keyword k => Keyword.ofWord? (String.ofList slice) = some k
  | .identifier name => slice = name.toList
  | .span raw => slice = raw.toList
  | .quoted content =>
    ∃ quote, (quote = '\'' ∨ quote = '"') ∧ slice = quote :: (doubled quote content.toList ++ [quote])
  | .placeholder => slice = ['?']
  | .symbol s => slice = s.text.toList
  | .endOfInput => slice = []

namespace Lexer

/-! ## What is in front is spelled -/

/-- `f.SpelledIn text` holds when the token in front of the text is spelled by as many characters of it as it
takes. -/
def Front.SpelledIn (text : List Char) (f : Front) : Prop :=
  ∀ t n, f = .token t n → n ≤ text.length ∧ t.SpelledBy (text.take n)

namespace Front

variable {text : List Char}

theorem SpelledIn.ite {p : Prop} [Decidable p] {f g : Front} (hf : p → f.SpelledIn text)
    (hg : ¬p → g.SpelledIn text) : (if p then f else g).SpelledIn text := by
  by_cases h : p
  · rw [if_pos h]
    exact hf h
  · rw [if_neg h]
    exact hg h

/-- A token that is spelled by the start of a text. -/
theorem spelledIn_token {t : Token} (slice : List Char) (hslice : t.SpelledBy slice)
    (h : slice <+: text) : (Front.token t slice.length).SpelledIn text := by
  rintro t n ⟨⟩
  refine ⟨h.length_le, ?_⟩
  rwa [← List.prefix_iff_eq_take.mp h]

theorem spelledIn_unknown (c : Char) : (Front.unknown c).SpelledIn text := by
  rintro t n ⟨⟩

theorem spelledIn_symbol {s : Symbol} (h : s.text.toList <+: text) :
    (Front.symbol s).SpelledIn text := by
  have hspelled := spelledIn_token (t := .symbol s) _ rfl h
  rwa [String.length_toList] at hspelled

theorem spelledIn_span {raw : List Char} (h : raw <+: text) : (Front.span raw).SpelledIn text :=
  spelledIn_token (t := .span (String.ofList raw)) _ (String.toList_ofList).symm h

theorem spelledIn_word (afterDot : Bool) : (Front.word afterDot text).SpelledIn text := by
  have hname : (Token.identifier (String.ofList (Lexer.word text))).SpelledBy (Lexer.word text) :=
    (String.toList_ofList).symm
  unfold Front.word
  refine spelledIn_token _ ?_ (scans_word.takes text)
  split
  · exact hname
  · split
    next k hk => exact hk
    next => exact hname

end Front

/-- The content of a quoted text, with its quotes doubled and the closing quote, is what is taken. -/
theorem take_quotedContent? {quote : Char} (text : List Char) :
    ∀ {content : List Char} {n : Nat}, quotedContent? quote text = some (content, n) →
      n ≤ text.length ∧ text.take n = doubled quote content ++ [quote] := by
  fun_induction quotedContent? quote text with
  | case1 =>
      intro content n h
      cases h
  | case2 =>
      rintro content n ⟨⟩
      exact ⟨Nat.le_refl _, rfl⟩
  | case3 d hd =>
      intro content n h
      cases h
  | case4 text ih =>
      intro content n h
      obtain ⟨⟨content, n⟩, hinner, heq⟩ := Option.map_eq_some_iff.mp h
      cases heq
      obtain ⟨hle, htake⟩ := ih hinner
      refine ⟨Nat.add_le_add_right hle 2, ?_⟩
      rw [List.take_succ_cons, List.take_succ_cons, htake, doubled_cons_self]
      rfl
  | case5 d text hd =>
      rintro content n ⟨⟩
      exact ⟨Nat.le_add_left 1 _, rfl⟩
  | case6 d e text hd ih =>
      intro content n h
      obtain ⟨⟨content, n⟩, hinner, heq⟩ := Option.map_eq_some_iff.mp h
      cases heq
      obtain ⟨hle, htake⟩ := ih hinner
      refine ⟨Nat.add_le_add_right hle 1, ?_⟩
      rw [List.take_succ_cons, htake, doubled_cons_of_ne hd]
      rfl

namespace Front

theorem spelledIn_quoted {quote : Char} (hquote : quote = '\'' ∨ quote = '"') (rest : List Char) :
    (Front.quoted quote rest).SpelledIn (quote :: rest) := by
  intro t n h
  unfold Front.quoted at h
  split at h
  next content length hcontent =>
    cases h
    obtain ⟨hle, htake⟩ := take_quotedContent? rest hcontent
    refine ⟨Nat.succ_le_succ hle, quote, hquote, ?_⟩
    rw [List.take_succ_cons, htake, String.toList_ofList]
  next => cases h

theorem spelledIn_other (afterDot : Bool) (c : Char) (rest : List Char) :
    (Front.other afterDot c rest).SpelledIn (c :: rest) := by
  unfold Front.other
  refine .ite (fun _ => .ite (fun _ => ?_) fun _ => .ite (fun _ => ?_) fun _ =>
    .ite (fun _ => ?_) fun _ => ?_) fun _ => ?_
  · exact spelledIn_word true
  · exact spelledIn_span (List.take_prefix _ _)
  · exact spelledIn_span (scans_number.takes _)
  · exact spelledIn_word false
  · exact spelledIn_unknown c

end Front

/-- What is in front of a text is spelled by the characters that it takes. -/
theorem front_spelledIn (signAllowed afterDot : Bool) (text : List Char) :
    (front signAllowed afterDot text).SpelledIn text := by
  unfold front
  split
  case h_13 =>
    exact .ite (fun _ => Front.spelledIn_span (scans_number.takes _))
      fun _ => Front.spelledIn_symbol ⟨_, rfl⟩
  all_goals
    first
    | exact Front.spelledIn_token [] rfl List.nil_prefix
    | exact Front.spelledIn_quoted (.inl rfl) _
    | exact Front.spelledIn_quoted (.inr rfl) _
    | exact Front.spelledIn_symbol ⟨_, rfl⟩
    | exact Front.spelledIn_token ['?'] rfl ⟨_, rfl⟩
    | exact Front.spelledIn_unknown _
    | exact Front.spelledIn_other _ _ _

/-! ## Tiles -/

/-- `Tiles n text placed` holds when a text that starts at the offset `n` is, from its start to its end, the
slices of the tokens in their order, with white space between them, in front and behind. Each token is placed
where its slice starts, and the last is the end of the input. -/
inductive Tiles : Nat → List Char → List PlacedToken → Prop
  | last {n : Nat} {gap : List Char} {p : Position} (hgap : ∀ c ∈ gap, Unicode.isBlank c = true)
      (hp : p.offset = n + gap.length) : Tiles n gap [⟨.endOfInput, p⟩]
  | token {n : Nat} {gap slice rest : List Char} {t : Token} {p : Position} {placed : List PlacedToken}
      (hgap : ∀ c ∈ gap, Unicode.isBlank c = true) (hslice : t.SpelledBy slice) (hne : slice ≠ [])
      (hp : p.offset = n + gap.length) (h : Tiles (n + gap.length + slice.length) rest placed) :
      Tiles n (gap ++ (slice ++ rest)) (⟨t, p⟩ :: placed)

namespace Tiles

variable {n : Nat} {text : List Char} {placed : List PlacedToken}

theorem le_offset (h : Tiles n text placed) : ∀ t ∈ placed, n ≤ t.position.offset := by
  induction h with
  | last _ hp =>
      intro t ht
      rw [List.mem_singleton.mp ht, hp]
      exact Nat.le_add_right _ _
  | token _ _ _ hp _ ih =>
      intro t ht
      rcases List.mem_cons.mp ht with rfl | ht
      · rw [hp]
        exact Nat.le_add_right _ _
      · have hle := ih t ht
        omega

/-- The tokens are placed one behind the other. -/
theorem pairwise_offset (h : Tiles n text placed) :
    placed.Pairwise fun t u => t.position.offset < u.position.offset := by
  induction h with
  | last => exact List.pairwise_singleton _ _
  | token _ _ hne hp h ih =>
      refine List.pairwise_cons.mpr ⟨fun u hu => ?_, ih⟩
      have hle := h.le_offset u hu
      have hpos := List.length_pos_iff.mpr hne
      rw [hp]
      omega

/-- The last token is the end of the input, at the end of the text; and no other one is. -/
theorem exists_end (h : Tiles n text placed) :
    ∃ body p, placed = body ++ [⟨.endOfInput, p⟩] ∧ p.offset = n + text.length ∧
      ∀ t ∈ body, t.token ≠ .endOfInput := by
  induction h with
  | @last n gap p _ hp => exact ⟨[], p, rfl, hp, fun _ h => by cases h⟩
  | @token n gap slice rest t p placed _ hslice hne _ _ ih =>
      obtain ⟨body, q, rfl, hq, hbody⟩ := ih
      refine ⟨⟨t, p⟩ :: body, q, rfl, ?_, fun u hu => ?_⟩
      · rw [hq, List.length_append, List.length_append]
        omega
      · rcases List.mem_cons.mp hu with rfl | hu
        · rintro rfl
          exact hne hslice
        · exact hbody u hu

end Tiles

/-- A step that reads a token starts behind the white space, and ends behind the characters of the token. -/
theorem take_places {l : Lexer} {t t' : Token} {n : Nat} (h : (l.take t n).result = .ok t') :
    (l.take t n).start = l.position ∧ (l.take t n).state.position = l.position.after (l.rest.take n) := by
  unfold take at h ⊢
  split at h
  · split at h
    · cases h
    · exact ⟨rfl, rfl⟩
  · exact ⟨rfl, rfl⟩
  · split at h
    · exact ⟨rfl, rfl⟩
    · cases h
  · exact ⟨rfl, rfl⟩

/-- A run to the end of a text tiles it. -/
theorem tiles_of_run {fuel : Nat} {l : Lexer} {placed : List PlacedToken}
    (hfuel : l.rest.length < fuel) (h : Lexer.run fuel l = .ok placed) :
    Tiles l.position.offset l.rest placed := by
  induction fuel generalizing l placed with
  | zero => omega
  | succ fuel ih =>
      obtain ⟨t, hr, hend⟩ := run_succ_placed h
      obtain ⟨n, hfront, hnext⟩ := next_eq_take hr
      rw [hnext] at hr hend
      obtain ⟨-, hrest, -⟩ := take_eq_ok hr
      obtain ⟨hstart, hposition⟩ := take_places hr
      have hgap : ∀ c ∈ l.rest.takeWhile Unicode.isBlank, Unicode.isBlank c = true :=
        fun c hc => List.all_eq_true.mp List.all_takeWhile c hc
      have hsplit : l.rest.takeWhile Unicode.isBlank ++ l.skipBlanks.rest = l.rest :=
        List.takeWhile_append_dropWhile
      have hoffset : l.skipBlanks.position.offset =
          l.position.offset + (l.rest.takeWhile Unicode.isBlank).length :=
        Position.offset_after _ _
      obtain ⟨hle, hslice⟩ : n ≤ l.skipBlanks.rest.length ∧ t.SpelledBy (l.skipBlanks.rest.take n) :=
        front_spelledIn _ _ _ t n hfront
      rw [hstart] at hend
      obtain ⟨rfl, rfl⟩ | ⟨ht, behind, hrun, rfl⟩ := hend
      · -- only white space is left
        have hnil : l.skipBlanks.rest = [] := eq_nil_of_front hfront
        rw [hnil, List.append_nil] at hsplit
        have hlast := Tiles.last hgap hoffset
        rwa [hsplit] at hlast
      · have hless := (next_progresses (hnext ▸ hr)).resolve_left ht
        rw [hnext] at hless
        have hbehind := ih (by omega) hrun
        rw [hposition, Position.offset_after, hoffset, hrest] at hbehind
        rw [← hsplit, ← List.take_append_drop n l.skipBlanks.rest]
        refine .token hgap hslice (fun hnil => ?_) hoffset hbehind
        have hpos := (front_progresses _ _ _ _ _ hfront).resolve_left ht
        have hlength := congrArg List.length hnil
        rw [List.length_take_of_le hle, List.length_nil] at hlength
        omega

end Lexer

/-- The tokens of a text tile it. -/
theorem tiles_of_tokenize {text : String} {placed : List PlacedToken} (h : tokenize text = .ok placed) :
    Lexer.Tiles 0 text.toList placed :=
  Lexer.tiles_of_run (Nat.lt_succ_self _) h

end RecordQuery
