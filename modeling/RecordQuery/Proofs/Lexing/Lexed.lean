import RecordQuery.Proofs.Lexing.Words
/-!
# What the tokens of a text are like

Which names the tokens of a text can be: every name is a word, and one that does not stand behind a
dot is read as a name wherever it is written again (`tokenize_lexed`).
-/

namespace RecordQuery

namespace Lexer

/-- What is known of a token that is read behind `prev`. -/
def FitsAfter (prev : Option Token) : Token → Prop
  | .identifier name => IsWord name ∧ (prev ≠ some (.symbol .dot) → IsName name)
  | _ => True

/-- Every token fits behind the one before. -/
def Lexed : Option Token → List Token → Prop
  | _, [] => True
  | prev, t :: ts => FitsAfter prev t ∧ Lexed (some t) ts

theorem Lexed.tail {prev : Option Token} {t : Token} {ts : List Token} (h : Lexed prev (t :: ts)) :
    Lexed (some t) ts :=
  h.2

/-- `Undotted ts` holds for tokens that fit behind something else than a dot. -/
def Undotted (ts : List Token) : Prop :=
  ∃ prev, prev ≠ some (.symbol .dot) ∧ Lexed prev ts

theorem Undotted.tail {t : Token} {ts : List Token} (h : Undotted (t :: ts))
    (ht : t ≠ .symbol .dot) : Undotted ts := by
  obtain ⟨prev, -, hlexed⟩ := h
  exact ⟨some t, fun heq => ht (Option.some.inj heq), hlexed.tail⟩

/-- Where no dot stands in front, a name is one wherever it is written again. -/
theorem Undotted.isName {name : String} {ts : List Token} (h : Undotted (.identifier name :: ts)) :
    IsName name := by
  obtain ⟨prev, hprev, hlexed⟩ := h
  exact hlexed.1.2 hprev

/-- `f.Fits prev` holds when a token in front fits behind `prev`. -/
def Front.Fits (afterDot : Bool) (f : Front) : Prop :=
  ∀ name n, f = .token (.identifier name) n → IsWord name ∧ (afterDot = false → IsName name)

theorem isWord_word {c : Char} {rest : List Char} (hc : isWordChar c = true) :
    IsWord (String.ofList (word (c :: rest))) := by
  rw [IsWord, String.toList_ofList]
  refine ⟨?_, fun d hd => List.all_eq_true.mp List.all_takeWhile d hd⟩
  rw [word, List.takeWhile_cons_of_pos hc]
  exact List.cons_ne_nil _ _

theorem Front.word_fits {afterDot : Bool} {c : Char} {rest : List Char} (hc : isWordChar c = true)
    (hdigit : afterDot = false → c.isDigit = false) :
    (Front.word afterDot (c :: rest)).Fits afterDot := by
  intro name n h
  unfold Front.word at h
  cases afterDot with
  | true =>
      cases h
      exact ⟨isWord_word hc, fun h => by cases h⟩
  | false =>
      simp only [Bool.false_eq_true, if_false, Front.token.injEq] at h
      cases hk : Keyword.ofWord? (String.ofList (Lexer.word (c :: rest))) with
      | some k =>
          rw [hk] at h
          cases h.1
      | none =>
          rw [hk] at h
          cases h.1
          refine ⟨isWord_word hc, fun _ => ⟨isWord_word hc, hk, ?_⟩⟩
          intro d hd
          rw [String.toList_ofList, Lexer.word, List.takeWhile_cons_of_pos hc] at hd
          cases hd
          exact hdigit rfl

theorem Front.Fits.ite {afterDot : Bool} {p : Prop} [Decidable p] {f g : Front}
    (hf : p → f.Fits afterDot) (hg : ¬p → g.Fits afterDot) : (if p then f else g).Fits afterDot := by
  by_cases h : p
  · rw [if_pos h]
    exact hf h
  · rw [if_neg h]
    exact hg h

theorem Front.other_fits (afterDot : Bool) (c : Char) (rest : List Char) :
    (Front.other afterDot c rest).Fits afterDot := by
  unfold Front.other
  refine .ite (fun hc => ?_) fun _ => ?_
  · cases afterDot with
    | true => exact Front.word_fits hc fun h => by cases h
    | false =>
        rw [if_neg Bool.false_ne_true]
        refine .ite (fun _ => ?_) fun _ => .ite (fun _ => ?_) fun hdigit => ?_
        · intro name n h
          cases h
        · intro name n h
          cases h
        · exact Front.word_fits hc fun _ => Bool.not_eq_true _ ▸ hdigit
  · intro name n h
    cases h

/-- A token in front fits behind the one before. -/
theorem front_fits (signAllowed afterDot : Bool) (text : List Char) :
    (front signAllowed afterDot text).Fits afterDot := by
  unfold front
  split
  case h_13 =>
    exact .ite (fun _ _ _ h => by cases h) fun _ _ _ h => by cases h
  case h_2 =>
    intro name n h
    unfold Front.quoted at h
    split at h <;> cases h
  case h_3 =>
    intro name n h
    unfold Front.quoted at h
    split at h <;> cases h
  all_goals
    first
    | exact Front.other_fits _ _ _
    | (intro name n h; cases h)

theorem fitsAfter_of_front {prev : Option Token} {text : List Char} {t : Token} {n : Nat}
    (h : frontAfter prev text = .token t n) : FitsAfter prev t := by
  -- only names are told apart by what stands in front
  cases t with
  | identifier name =>
      obtain ⟨hword, hname⟩ := front_fits _ _ _ name n h
      exact ⟨hword, fun hprev => hname (beq_eq_false_iff_ne.mpr hprev)⟩
  | _ => trivial

theorem next_eq_ok {l : Lexer} {t : Token} (h : l.next.result = .ok t) :
    FitsAfter l.previous t ∧ l.next.state.previous = some t := by
  unfold next at h ⊢
  simp only at h ⊢
  generalize hf : front (!l.skipBlanks.previous.any Token.endsOperand)
    (l.skipBlanks.previous == some (.symbol .dot)) l.skipBlanks.rest = f at h ⊢
  cases f with
  | unterminated => cases h
  | unknown c => cases h
  | token t' n =>
      simp only at h ⊢
      obtain ⟨rfl, -, hprevious⟩ := take_eq_ok h
      exact ⟨fitsAfter_of_front hf, hprevious⟩

theorem run_lexed {fuel : Nat} {l : Lexer} {placed : List PlacedToken}
    (h : Lexer.run fuel l = .ok placed) : Lexed l.previous (placed.map PlacedToken.token) := by
  induction fuel generalizing l placed with
  | zero =>
      cases h
      trivial
  | succ fuel ih =>
      obtain ⟨t, others, hr, htokens, ⟨rfl, rfl⟩ | ⟨ht, behind, hrun, rfl⟩⟩ := run_succ_ok h
      · rw [htokens]
        exact ⟨(next_eq_ok hr).1, trivial⟩
      · obtain ⟨hfits, hprevious⟩ := next_eq_ok hr
        have hbehind := ih hrun
        rw [hprevious] at hbehind
        rw [htokens]
        exact ⟨hfits, hbehind⟩

end Lexer

/-- In the tokens of a text, every token fits behind the one before. -/
theorem tokenize_lexed {text : String} {placed : List PlacedToken} (h : tokenize text = .ok placed) :
    Lexer.Lexed none (placed.map PlacedToken.token) :=
  Lexer.run_lexed h

theorem undotted_of_tokenize {text : String} {placed : List PlacedToken}
    (h : tokenize text = .ok placed) : Lexer.Undotted (placed.map PlacedToken.token) :=
  ⟨none, by simp, tokenize_lexed h⟩

end RecordQuery
