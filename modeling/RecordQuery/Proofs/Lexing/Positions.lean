import RecordQuery.Proofs.Lexing.Progress
import Mathlib.Data.List.Induction
/-!
# True positions

A position in a text has three numbers, and the offset says what the other two have to be
(`Position.TrueIn`): the line counts the line feeds in front of it, and the column the characters since the
last of them. The lexer never counts them: it goes on from where it is over the characters it takes.

So a lexer stands in its text (`Lexer.StandsIn`) when its position is the one behind the characters that are
taken off, and the parentheses it holds open have true positions. One step keeps this, whether it reads a
token or fails (`Lexer.StandsIn.next`), and with it every step that a caller goes on with
(`Lexer.Reached.standsIn`).
-/

namespace RecordQuery

namespace Position

/-- `p.TrueIn text` holds for a position inside the text or at its end, with the line and the column of its
offset. -/
structure TrueIn (text : List Char) (p : Position) : Prop where
  offset_le : p.offset ≤ text.length
  line_eq : p.line = 1 + (text.take p.offset).count '\n'
  column_eq : p.column = 1 + ((text.take p.offset).reverse.takeWhile (· != '\n')).length

/-! ## Behind a text -/

theorem line_after (p : Position) (text : List Char) :
    (p.after text).line = p.line + text.count '\n' := by
  induction text generalizing p with
  | nil => rfl
  | cons c text ih =>
      rw [after_cons, ih]
      unfold next
      by_cases h : c = '\n'
      · rw [if_pos h, h, List.count_cons_self]
        show p.line + 1 + _ = _
        omega
      · rw [if_neg h, List.count_cons_of_ne h]

/-- A line feed starts a column anew, and every other character adds one: so it is the last characters of a
text that count, up to the last line feed. -/
theorem column_after (text : List Char) :
    (start.after text).column = 1 + (text.reverse.takeWhile (· != '\n')).length := by
  induction text using List.reverseRecOn with
  | nil => rfl
  | append_singleton text c ih =>
      rw [after_append, List.reverse_append]
      show ((start.after text).next c).column = 1 + ((c :: text.reverse).takeWhile _).length
      unfold next
      by_cases h : c = '\n'
      · rw [if_pos h, List.takeWhile_cons_of_neg (by simp [h])]
        rfl
      · rw [if_neg h, List.takeWhile_cons_of_pos (by simpa using h), List.length_cons, ← Nat.add_assoc,
          ← ih]

/-- The position behind the start of a text is true in the text. -/
theorem trueIn_after (passed rest : List Char) : (start.after passed).TrueIn (passed ++ rest) := by
  have hoffset : (start.after passed).offset = passed.length := by
    rw [offset_after]
    exact Nat.zero_add _
  have htake : (passed ++ rest).take (start.after passed).offset = passed := by
    rw [hoffset, List.take_left]
  refine ⟨?_, ?_, ?_⟩
  · rw [hoffset, List.length_append]
    exact Nat.le_add_right _ _
  · rw [htake, line_after]
    rfl
  · rw [htake, column_after]

end Position

namespace Lexer

/-! ## A lexer in its text -/

/-- `l.StandsIn text` holds when what is ahead of `l` is the end of the text, and its position and those of
its open parentheses are positions in the text. -/
structure StandsIn (text : List Char) (l : Lexer) : Prop where
  position : ∃ passed, text = passed ++ l.rest ∧ l.position = Position.start.after passed
  openParens : ∀ p ∈ l.openParens, p.TrueIn text

variable {text : List Char} {l : Lexer}

/-- Behind characters that are taken off, what is passed ends with them. -/
theorem passed_advance {passed : List Char}
    (h : text = passed ++ l.rest ∧ l.position = Position.start.after passed) (n : Nat) :
    text = passed ++ l.rest.take n ++ (l.advance n).rest ∧
      (l.advance n).position = Position.start.after (passed ++ l.rest.take n) := by
  refine ⟨?_, ?_⟩
  · show text = passed ++ l.rest.take n ++ l.rest.drop n
    rw [List.append_assoc, List.take_append_drop, h.1]
  · show l.position.after (l.rest.take n) = _
    rw [h.2, Position.after_append]

/-- White space is taken off like any other characters. -/
theorem skipBlanks_eq_advance (l : Lexer) :
    l.skipBlanks = l.advance (l.rest.takeWhile Unicode.isBlank).length := by
  have hsplit : l.rest.takeWhile Unicode.isBlank ++ l.rest.dropWhile Unicode.isBlank = l.rest :=
    List.takeWhile_append_dropWhile
  have htake := congrArg (List.take (l.rest.takeWhile Unicode.isBlank).length) hsplit
  have hdrop := congrArg (List.drop (l.rest.takeWhile Unicode.isBlank).length) hsplit
  rw [List.take_left] at htake
  rw [List.drop_left] at hdrop
  unfold skipBlanks advance
  rw [← htake, ← hdrop]

theorem standsIn_ofText (text : String) : (ofText text).StandsIn text.toList :=
  ⟨⟨[], rfl, rfl⟩, fun _ h => by cases h⟩

namespace StandsIn

theorem trueIn (h : l.StandsIn text) : l.position.TrueIn text := by
  obtain ⟨passed, rfl, hposition⟩ := h.position
  rw [hposition]
  exact Position.trueIn_after _ _

/-- Characters that are taken off are passed. -/
theorem advance (h : l.StandsIn text) (n : Nat) : (l.advance n).StandsIn text := by
  obtain ⟨passed, hpassed⟩ := h.position
  exact ⟨⟨_, passed_advance hpassed n⟩, h.openParens⟩

theorem skipBlanks (h : l.StandsIn text) : l.skipBlanks.StandsIn text := by
  rw [skipBlanks_eq_advance]
  exact h.advance _

end StandsIn

/-- `s.TrueIn text` holds for a step whose start and error are at true positions, and which leaves a lexer
that stands in the text. -/
structure Step.TrueIn (text : List Char) (s : Step) : Prop where
  start : s.start.TrueIn text
  error : ∀ e, s.result = .error e → e.position.TrueIn text
  state : s.state.StandsIn text

theorem StandsIn.accept (h : l.StandsIn text) (t : Token) (n : Nat) :
    (l.accept t n).TrueIn text where
  start := h.trueIn
  error _ he := by cases he
  state := ⟨(h.advance n).position, h.openParens⟩

theorem StandsIn.fail (h : l.StandsIn text) {p : Position} {e : LexicalError} (hp : p.TrueIn text)
    (he : e.position.TrueIn text) : (l.fail p e).TrueIn text where
  start := hp
  error _ heq := by
    cases heq
    exact he
  state := h

theorem StandsIn.take (h : l.StandsIn text) (t : Token) (n : Nat) : (l.take t n).TrueIn text := by
  unfold Lexer.take
  split
  next =>
    -- at the end of the text a parenthesis may be open, whose position is known
    split
    next innermost _ hopen => exact h.fail h.trueIn (h.openParens innermost (by rw [hopen]; simp))
    next => exact h.accept _ _
  next =>
    have hopened : StandsIn text { l with openParens := l.position :: l.openParens } :=
      ⟨h.position, fun p hp => (List.mem_cons.mp hp).elim (fun heq => heq ▸ h.trueIn) (h.openParens p)⟩
    exact hopened.accept _ _
  next =>
    split
    next innermost others hopen =>
      have hclosed : StandsIn text { l with openParens := others } :=
        ⟨h.position, fun p hp => h.openParens p (by rw [hopen]; exact List.mem_cons_of_mem _ hp)⟩
      exact hclosed.accept _ _
    next => exact h.fail h.trueIn h.trueIn
  next => exact h.accept _ _

/-- One step starts at a true position, fails at none but true ones, and goes on in the text. -/
theorem StandsIn.next (h : l.StandsIn text) : l.next.TrueIn text := by
  have hskip := h.skipBlanks
  unfold Lexer.next
  simp only
  split
  next t n _ => exact hskip.take t n
  next => exact (hskip.advance _).fail hskip.trueIn hskip.trueIn
  next => exact hskip.fail hskip.trueIn hskip.trueIn

/-! ## Any number of steps -/

/-- `Reached text l` holds for the states that a lexer of the text comes to, step by step, whether the steps
read tokens or fail. -/
inductive Reached (text : String) : Lexer → Prop
  | start : Reached text (ofText text)
  | step {l : Lexer} (h : Reached text l) : Reached text l.next.state

theorem Reached.standsIn {text : String} {l : Lexer} (h : Reached text l) :
    l.StandsIn text.toList := by
  induction h with
  | start => exact standsIn_ofText text
  | step _ ih => exact ih.next.state

/-- What a run ends with is true in a text when all its tokens are at true positions, or its error is. -/
def RunTrueIn (text : List Char) : Except LexicalError (List PlacedToken) → Prop
  | .ok placed => ∀ t ∈ placed, t.position.TrueIn text
  | .error e => e.position.TrueIn text

theorem StandsIn.run (h : l.StandsIn text) (fuel : Nat) : RunTrueIn text (Lexer.run fuel l) := by
  induction fuel generalizing l with
  | zero =>
      intro t ht
      cases ht
  | succ fuel ih =>
      have hnext := h.next
      have hbehind := ih hnext.state
      rcases run_succ fuel l with ⟨e, hr, hrun⟩ | ⟨-, hrun⟩ | ⟨t, -, -, hrun⟩
      · rw [hrun]
        exact hnext.error e hr
      · rw [hrun]
        intro u hu
        rw [List.mem_singleton.mp hu]
        exact hnext.start
      · rw [hrun]
        cases hrest : Lexer.run fuel l.next.state with
        | error e =>
            rw [hrest] at hbehind
            exact hbehind
        | ok behind =>
            rw [hrest] at hbehind
            intro u hu
            rcases List.mem_cons.mp hu with rfl | hu
            · exact hnext.start
            · exact hbehind u hu

end Lexer

/-- The tokens of a text are at true positions, and what it fails with is at one. -/
theorem tokenize_trueIn (text : String) : Lexer.RunTrueIn text.toList (tokenize text) :=
  (Lexer.standsIn_ofText text).run _

end RecordQuery
