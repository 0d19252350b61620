import RecordQuery.Token.Lexer
/-!
# Reading tokens comes to an end

Every token but the end of the input takes at least one character (`Lexer.front_progresses`), so the
number of characters bounds the number of steps, and the tokens of a text end where the text does:
with the end of the input, which stands nowhere else (`tokenize_ends`).
-/

namespace RecordQuery

namespace Lexer

/-! ## What one token takes -/

theorem length_word_pos {c : Char} {rest : List Char} (h : isWordChar c = true) :
    0 < (word (c :: rest)).length := by
  rw [word, List.takeWhile_cons_of_pos h]
  exact Nat.succ_pos _

theorem length_number_pos {c : Char} {rest : List Char} (h : c = '-' ∨ c.isDigit = true) :
    0 < (number (c :: rest)).length := by
  by_cases hminus : c = '-'
  · subst hminus
    simp [number]
  · have hdigit := h.resolve_left hminus
    simp only [number, List.length_append]
    rw [show List.take 1 (c :: rest) = [c] from rfl, List.filter_cons_of_neg (by simpa using hminus)]
    simp only [List.filter_nil, List.length_nil, List.drop_zero]
    rw [List.takeWhile_cons_of_pos hdigit]
    simp only [List.length_cons]
    omega

/-- `f.Progresses` holds when what is in front takes a character, or is the end of the input. -/
def Front.Progresses (f : Front) : Prop :=
  ∀ t n, f = .token t n → t = .endOfInput ∨ 0 < n

theorem Front.symbol_progresses (s : Symbol) : (Front.symbol s).Progresses := by
  intro t n h
  cases h
  right
  cases s <;> decide

theorem Front.quoted_progresses (quote : Char) (rest : List Char) :
    (Front.quoted quote rest).Progresses := by
  intro t n h
  unfold Front.quoted at h
  split at h
  · cases h
    exact .inr (Nat.succ_pos _)
  · cases h

theorem Front.word_progresses {afterDot : Bool} {c : Char} {rest : List Char}
    (hc : isWordChar c = true) : (Front.word afterDot (c :: rest)).Progresses := by
  intro t n h
  cases h
  exact .inr (length_word_pos hc)

theorem Front.Progresses.ite {p : Prop} [Decidable p] {f g : Front} (hf : p → f.Progresses)
    (hg : ¬p → g.Progresses) : (if p then f else g).Progresses := by
  by_cases h : p
  · rw [if_pos h]
    exact hf h
  · rw [if_neg h]
    exact hg h

theorem Front.token_progresses (t : Token) {n : Nat} (hn : 0 < n) :
    (Front.token t n).Progresses := by
  intro t' n' h
  cases h
  exact .inr hn

theorem Front.unknown_progresses (c : Char) : (Front.unknown c).Progresses := by
  intro t n h
  cases h

theorem Front.other_progresses (afterDot : Bool) (c : Char) (rest : List Char) :
    (Front.other afterDot c rest).Progresses := by
  unfold Front.other
  refine .ite (fun hc => .ite (fun _ => ?_) fun _ => .ite (fun _ => ?_) fun _ =>
    .ite (fun hdigit => ?_) fun _ => ?_) fun _ => ?_
  · exact Front.word_progresses hc
  · exact Front.token_progresses _ (by simp)
  · exact Front.token_progresses _ (length_number_pos (.inr hdigit))
  · exact Front.word_progresses hc
  · exact Front.unknown_progresses c

/-- Every token but the end of the input takes a character. -/
theorem front_progresses (signAllowed afterDot : Bool) (text : List Char) :
    (front signAllowed afterDot text).Progresses := by
  unfold front
  split
  case h_1 =>
    intro t n h
    cases h
    exact .inl rfl
  case h_13 =>
    -- a minus is a sign in front of a digit, or an operator
    exact .ite (fun _ => Front.token_progresses _ (length_number_pos (.inl rfl)))
      fun _ => Front.symbol_progresses _
  all_goals
    first
    | exact Front.quoted_progresses _ _
    | exact Front.symbol_progresses _
    | exact Front.token_progresses _ Nat.one_pos
    | exact Front.unknown_progresses _
    | exact Front.other_progresses _ _ _

/-! ## Steps -/

theorem take_eq_ok {l : Lexer} {t t' : Token} {n : Nat} (h : (l.take t n).result = .ok t') :
    t' = t ∧ (l.take t n).state.rest = l.rest.drop n ∧ (l.take t n).state.previous = some t := by
  unfold take at h ⊢
  split at h
  · split at h
    · cases h
    · cases h
      exact ⟨rfl, rfl, rfl⟩
  · cases h
    exact ⟨rfl, rfl, rfl⟩
  · split at h
    · cases h
      exact ⟨rfl, rfl, rfl⟩
    · cases h
  · cases h
    exact ⟨rfl, rfl, rfl⟩

/-- A step that reads a token leaves less text ahead, but at the end. -/
theorem next_progresses {l : Lexer} {t : Token} (h : l.next.result = .ok t) :
    t = .endOfInput ∨ l.next.state.rest.length < l.rest.length := by
  unfold next at h ⊢
  simp only at h ⊢
  generalize hs : l.skipBlanks = s at h ⊢
  have hle : s.rest.length ≤ l.rest.length := by
    rw [← hs]
    exact (List.dropWhile_suffix _).length_le
  generalize hf : front (!s.previous.any Token.endsOperand) (s.previous == some (.symbol .dot))
    s.rest = f at h ⊢
  cases f with
  | unterminated => cases h
  | unknown c => cases h
  | token t' n =>
      simp only at h ⊢
      obtain ⟨rfl, hrest, -⟩ := take_eq_ok h
      rw [hrest, List.length_drop]
      rcases front_progresses _ _ _ _ _ hf with rfl | hn
      · exact .inl rfl
      · by_cases hnil : s.rest = []
        · rw [hnil] at hf
          cases hf
          exact .inl rfl
        · have := List.length_pos_iff.mpr hnil
          exact .inr (by omega)

/-- A run fails with its first step, stops at the end of the input, or goes on behind a token. -/
theorem run_succ (fuel : Nat) (l : Lexer) :
    (∃ e, l.next.result = .error e ∧ Lexer.run (fuel + 1) l = .error e) ∨
      (l.next.result = .ok .endOfInput ∧
        Lexer.run (fuel + 1) l = .ok [⟨.endOfInput, l.next.start⟩]) ∨
      ∃ t, t ≠ .endOfInput ∧ l.next.result = .ok t ∧
        Lexer.run (fuel + 1) l = (Lexer.run fuel l.next.state).map (⟨t, l.next.start⟩ :: ·) := by
  rw [Lexer.run]
  cases hr : l.next.result with
  | error e => exact .inl ⟨e, rfl, rfl⟩
  | ok t =>
      by_cases ht : t = .endOfInput
      · subst ht
        exact .inr (.inl ⟨rfl, rfl⟩)
      · exact .inr (.inr ⟨t, ht, rfl, if_neg ht⟩)

/-- A run that succeeds reads a token, and stops there at the end of the input or goes on behind it. -/
theorem run_succ_placed {fuel : Nat} {l : Lexer} {placed : List PlacedToken}
    (h : Lexer.run (fuel + 1) l = .ok placed) :
    ∃ t, l.next.result = .ok t ∧
      (t = .endOfInput ∧ placed = [⟨t, l.next.start⟩] ∨ t ≠ .endOfInput ∧
        ∃ behind, Lexer.run fuel l.next.state = .ok behind ∧ placed = ⟨t, l.next.start⟩ :: behind) := by
  rcases run_succ fuel l with ⟨e, -, hrun⟩ | ⟨hr, hrun⟩ | ⟨t, ht, hr, hrun⟩
  · rw [hrun] at h
    cases h
  · rw [hrun] at h
    cases h
    exact ⟨_, hr, .inl ⟨rfl, rfl⟩⟩
  · rw [hrun] at h
    cases hbehind : Lexer.run fuel l.next.state with
    | error e =>
        rw [hbehind] at h
        cases h
    | ok behind =>
        rw [hbehind] at h
        cases h
        exact ⟨t, hr, .inr ⟨ht, behind, rfl, rfl⟩⟩

/-- The same about the tokens alone, without their places. -/
theorem run_succ_ok {fuel : Nat} {l : Lexer} {placed : List PlacedToken}
    (h : Lexer.run (fuel + 1) l = .ok placed) :
    ∃ t others, l.next.result = .ok t ∧ placed.map PlacedToken.token = t :: others ∧
      (t = .endOfInput ∧ others = [] ∨ t ≠ .endOfInput ∧
        ∃ behind, Lexer.run fuel l.next.state = .ok behind ∧ others = behind.map PlacedToken.token) := by
  obtain ⟨t, hr, ⟨ht, rfl⟩ | ⟨ht, behind, hrun, rfl⟩⟩ := run_succ_placed h
  · exact ⟨t, [], hr, rfl, .inl ⟨ht, rfl⟩⟩
  · exact ⟨t, _, hr, rfl, .inr ⟨ht, behind, hrun, rfl⟩⟩

theorem run_ends {fuel : Nat} {l : Lexer} {placed : List PlacedToken}
    (hfuel : l.rest.length < fuel) (h : Lexer.run fuel l = .ok placed) :
    ∃ body, placed.map PlacedToken.token = body ++ [.endOfInput] ∧ .endOfInput ∉ body := by
  induction fuel generalizing l placed with
  | zero => omega
  | succ fuel ih =>
      obtain ⟨t, others, hr, htokens, ⟨rfl, rfl⟩ | ⟨ht, behind, hrun, rfl⟩⟩ := run_succ_ok h
      · exact ⟨[], htokens, List.not_mem_nil⟩
      · -- there was something to read, so less is left than steps
        have hless := (next_progresses hr).resolve_left ht
        obtain ⟨body, hbody, hnot⟩ := ih (by omega) hrun
        refine ⟨t :: body, by rw [htokens, hbody, List.cons_append], ?_⟩
        rw [List.mem_cons, not_or]
        exact ⟨Ne.symm ht, hnot⟩

end Lexer

/-- The tokens of a text end with the end of the input, which stands nowhere else. -/
theorem tokenize_ends {text : String} {placed : List PlacedToken} (h : tokenize text = .ok placed) :
    ∃ body, placed.map PlacedToken.token = body ++ [.endOfInput] ∧ .endOfInput ∉ body :=
  Lexer.run_ends (Nat.lt_succ_self _) h

end RecordQuery
