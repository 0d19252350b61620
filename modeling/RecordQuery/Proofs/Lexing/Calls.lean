import RecordQuery.Proofs.Lexing.Steps
import RecordQuery.Proofs.Lexing.Positions
import Mathlib.Logic.Function.Iterate
/-!
# One call after the other

A lexer may be asked for the next token any number of times, also behind the end of the text and after an
error (`Lexer.calls`). No call moves it back, and one that reads a token moves it on. There are three ways
to come to rest:

* at the end of the input, and at every error but an unclosed quote, a call changes nothing that the next
  one looks at, so all later calls give the same (`Lexer.next_next_of_end`, `Lexer.next_next_of_error`);
* an unclosed quote takes the rest of the text with it (`Lexer.rest_of_unterminated`).

So the first call that gives the end of the input or an error comes before the calls are more than the
characters and one, and the tokens of a text are what the calls up to that one give (`Lexer.run_eq_mapM`).
-/

namespace RecordQuery

namespace Lexer

variable {l : Lexer} {text : List Char}

/-! ## One call -/

theorem skipBlanks_skipBlanks (l : Lexer) : l.skipBlanks.skipBlanks = l.skipBlanks :=
  skipBlanks_of_not_blank (not_isBlank_of_skipBlanks l)

/-- White space in front makes no difference to a call. -/
theorem next_skipBlanks (l : Lexer) : l.skipBlanks.next = l.next := by
  unfold next
  rw [skipBlanks_skipBlanks]

/-- A token that may not stand where it is leaves the lexer in front of it. -/
theorem state_of_take_eq_error {t : Token} {n : Nat} {e : LexicalError}
    (h : (l.take t n).result = .error e) :
    (l.take t n).state = l ∧ ∀ p, e ≠ .unterminatedString p := by
  unfold take at h ⊢
  split at h
  · split at h
    · cases h
      exact ⟨rfl, by nofun⟩
    · cases h
  · cases h
  · split at h
    · cases h
    · cases h
      exact ⟨rfl, by nofun⟩
  · cases h

/-- What a call leaves behind an error: all of the text but its white space, or nothing of it. -/
theorem state_of_error {e : LexicalError} (h : l.next.result = .error e) :
    (∃ p, e = .unterminatedString p) ∧ l.next.state.rest = [] ∨
      (∀ p, e ≠ .unterminatedString p) ∧ l.next.state = l.skipBlanks := by
  unfold next at h ⊢
  simp only at h ⊢
  split at h
  next t n _ =>
    obtain ⟨hstate, he⟩ := state_of_take_eq_error h
    exact .inr ⟨he, hstate⟩
  next =>
    cases h
    exact .inl ⟨⟨_, rfl⟩, List.drop_length⟩
  next =>
    cases h
    exact .inr ⟨by nofun, rfl⟩

/-- An unclosed quote takes the text with it. -/
theorem rest_of_unterminated {p : Position} (h : l.next.result = .error (.unterminatedString p)) :
    l.next.state.rest = [] := by
  rcases state_of_error h with ⟨-, hrest⟩ | ⟨hne, -⟩
  · exact hrest
  · exact absurd rfl (hne p)

/-- Every other error is found again. -/
theorem next_next_of_error {e : LexicalError} (h : l.next.result = .error e)
    (he : ∀ p, e ≠ .unterminatedString p) : l.next.state.next = l.next := by
  rcases state_of_error h with ⟨⟨p, hp⟩, -⟩ | ⟨-, hstate⟩
  · exact absurd hp (he p)
  · rw [hstate, next_skipBlanks]

/-- The end of the input is given where nothing is left and nothing is open. -/
theorem state_of_end (h : l.next.result = .ok .endOfInput) :
    l.next = l.skipBlanks.accept .endOfInput 0 ∧ l.skipBlanks.rest = [] ∧ l.openParens = [] := by
  obtain ⟨n, hfront, hnext⟩ := next_eq_take h
  have hrest : l.skipBlanks.rest = [] := eq_nil_of_front hfront
  have hn : n = 0 := by
    rw [show l.rest.dropWhile Unicode.isBlank = [] from hrest] at hfront
    cases hfront
    rfl
  subst hn
  rw [hnext] at h ⊢
  obtain ⟨-, hopen⟩ | hopen := openAfter?_of_take h
  · refine ⟨?_, hrest, hopen⟩
    unfold take
    simp only [hopen]
  · cases hopen

/-- The end of the input is given again. -/
theorem next_next_of_end (h : l.next.result = .ok .endOfInput) : l.next.state.next = l.next := by
  obtain ⟨hnext, hrest, hopen⟩ := state_of_end h
  have hopen' : l.skipBlanks.openParens = [] := hopen
  generalize l.skipBlanks = s at hnext hrest hopen'
  obtain ⟨rest, position, previous, openParens⟩ := s
  subst hrest hopen'
  rw [hnext]
  rfl

/-- No call puts characters back. -/
theorem length_next_le (l : Lexer) : l.next.state.rest.length ≤ l.rest.length := by
  cases hr : l.next.result with
  | ok t =>
      obtain ⟨n, -, hnext⟩ := next_eq_take hr
      rw [hnext] at hr ⊢
      obtain ⟨-, hrest, -⟩ := take_eq_ok hr
      rw [hrest, List.length_drop]
      exact Nat.le_trans (Nat.sub_le _ _) (List.dropWhile_suffix _).length_le
  | error e =>
      rcases state_of_error hr with ⟨-, hrest⟩ | ⟨-, hstate⟩
      · rw [hrest]
        exact Nat.zero_le _
      · rw [hstate]
        exact (List.dropWhile_suffix _).length_le

/-- A lexer in a text is as far in it as it has characters behind it. -/
theorem StandsIn.offset_add_length (h : l.StandsIn text) :
    l.position.offset + l.rest.length = text.length := by
  obtain ⟨passed, rfl, hposition⟩ := h.position
  rw [hposition, Position.offset_after, List.length_append]
  exact congrArg (· + l.rest.length) (Nat.zero_add _)

/-! ## Any number of calls -/

/-- The lexer after a number of calls, whatever they give. -/
def calls (l : Lexer) (n : Nat) : Lexer :=
  (fun l => l.next.state)^[n] l

theorem reached_calls (text : String) (n : Nat) : Reached text ((ofText text).calls n) := by
  induction n with
  | zero => exact .start
  | succ n ih =>
      rw [calls, Function.iterate_succ_apply']
      exact .step ih

/-- Where a call gives the same as the one before, so do all behind it. -/
theorem next_calls_of_next_next (h : l.next.state.next = l.next) (n : Nat) :
    (l.next.state.calls n).next = l.next := by
  have hfixed : (fun l : Lexer => l.next.state) l.next.state = l.next.state := congrArg Step.state h
  have hcalls : l.next.state.calls n = l.next.state := Function.iterate_fixed hfixed n
  rw [hcalls, h]

/-! ## The tokens of a text -/

/-- What a step gives, with the place where it starts. -/
def Step.placed (s : Step) : Except LexicalError PlacedToken :=
  s.result.map (⟨·, s.start⟩)

theorem Step.placed_of_ok {s : Step} {t : Token} (h : s.result = .ok t) :
    s.placed = .ok ⟨t, s.start⟩ := by
  rw [Step.placed, h]
  rfl

theorem Step.placed_of_error {s : Step} {e : LexicalError} (h : s.result = .error e) :
    s.placed = .error e := by
  rw [Step.placed, h]
  rfl

/-- `s.IsLast` holds for a step that gives the end of the input or an error. -/
def Step.IsLast (s : Step) : Prop :=
  ∀ t, s.result = .ok t → t = .endOfInput

theorem Step.isLast_of_error {s : Step} {e : LexicalError} (h : s.result = .error e) : s.IsLast := by
  intro t ht
  rw [h] at ht
  cases ht

theorem Step.isLast_iff {s : Step} {t : Token} (h : s.result = .ok t) :
    s.IsLast ↔ t = .endOfInput := by
  refine ⟨fun hlast => hlast t h, ?_⟩
  rintro rfl t ht
  rw [h] at ht
  cases ht
  rfl

/-- A run is as many calls as it takes to come to a last one, and there are at most as many before that as
there are characters. -/
theorem run_eq_mapM {fuel : Nat} (hfuel : l.rest.length < fuel) :
    ∃ k ≤ l.rest.length, (∀ i < k, ¬(l.calls i).next.IsLast) ∧ (l.calls k).next.IsLast ∧
      Lexer.run fuel l = (List.range (k + 1)).mapM fun i => (l.calls i).next.placed := by
  induction fuel generalizing l with
  | zero => omega
  | succ fuel ih =>
      rcases run_succ fuel l with ⟨e, hr, hstep⟩ | ⟨hr, hstep⟩ | ⟨t, ht, hr, hstep⟩
      · have hplaced : (l.calls 0).next.placed = .error e := Step.placed_of_error hr
        refine ⟨0, Nat.zero_le _, by omega, Step.isLast_of_error hr, ?_⟩
        rw [hstep, List.range_succ_eq_map, List.mapM_cons, hplaced]
        rfl
      · have hplaced : (l.calls 0).next.placed = .ok ⟨.endOfInput, l.next.start⟩ := Step.placed_of_ok hr
        refine ⟨0, Nat.zero_le _, by omega, (Step.isLast_iff hr).mpr rfl, ?_⟩
        rw [hstep, List.range_succ_eq_map, List.mapM_cons, hplaced]
        rfl
      · -- the first call takes a character, so one call less is needed behind it
        have hplaced : (l.calls 0).next.placed = .ok ⟨t, l.next.start⟩ := Step.placed_of_ok hr
        have hless := (next_progresses hr).resolve_left ht
        obtain ⟨k, hk, hbefore, hlast, hrun⟩ := ih (l := l.next.state) (by omega)
        refine ⟨k + 1, by omega, ?_, hlast, ?_⟩
        · intro i hi
          cases i with
          | zero => exact fun hzero => ht ((Step.isLast_iff hr).mp hzero)
          | succ i => exact hbefore i (by omega)
        · have hshift : (fun i => (l.calls i).next.placed) ∘ Nat.succ =
              fun i => (l.next.state.calls i).next.placed := rfl
          rw [List.range_succ_eq_map, List.mapM_cons, hplaced, List.mapM_map, hshift, hstep, hrun]
          cases (List.range (k + 1)).mapM fun i => (l.next.state.calls i).next.placed <;> rfl

end Lexer

/-- **The lexer goes forward and comes to rest.** Whatever number of calls went before, and whatever they
gave: a call does not move back, and moves on if it reads a token other than the end of the input. Once a
call gives the end of the input, so do all later ones; once it gives an error, all later ones give the same,
unless it is an unclosed quote, behind which nothing of the text is left. So the call that gives the end of
the input or an error comes after at most as many others as there are characters, and the tokens of the text
are what the calls up to that one give. -/
theorem lexing_goes_forward_and_settles (text : String) :
    (∀ n, let l := (Lexer.ofText text).calls n
      l.position.offset ≤ l.next.state.position.offset ∧
      (∀ t, l.next.result = .ok t → t ≠ .endOfInput →
        l.position.offset < l.next.state.position.offset) ∧
      (l.next.result = .ok .endOfInput →
        ∀ m, (l.next.state.calls m).next.result = .ok .endOfInput) ∧
      (∀ e, l.next.result = .error e → (∀ p, e ≠ .unterminatedString p) →
        ∀ m, (l.next.state.calls m).next.result = .error e) ∧
      ∀ p, l.next.result = .error (.unterminatedString p) →
        l.next.state.rest = [] ∧ l.next.state.position.offset = text.toList.length) ∧
    ∃ k ≤ text.toList.length, (∀ i < k, ¬((Lexer.ofText text).calls i).next.IsLast) ∧
      ((Lexer.ofText text).calls k).next.IsLast ∧
      tokenize text = (List.range (k + 1)).mapM fun i => ((Lexer.ofText text).calls i).next.placed := by
  refine ⟨fun n => ?_, Lexer.run_eq_mapM (l := Lexer.ofText text) (Nat.lt_succ_self _)⟩
  intro l
  have hreached : Lexer.Reached text l := Lexer.reached_calls text n
  have hbefore := hreached.standsIn.offset_add_length
  have hbehind := (Lexer.Reached.step hreached).standsIn.offset_add_length
  have hle := Lexer.length_next_le l
  refine ⟨by omega, fun t ht hne => ?_, fun hend m => ?_, fun e he hne m => ?_, fun p hp => ?_⟩
  · have hless := (Lexer.next_progresses ht).resolve_left hne
    omega
  · rw [Lexer.next_calls_of_next_next (Lexer.next_next_of_end hend), hend]
  · rw [Lexer.next_calls_of_next_next (Lexer.next_next_of_error he hne), he]
  · have hrest := Lexer.rest_of_unterminated hp
    refine ⟨hrest, ?_⟩
    rw [hrest] at hbehind
    exact hbehind

/-- A closing parenthesis without partner is found by every call behind the name, and a quote that is never
closed leaves nothing to be read. -/
theorem lexing_goes_forward_and_settles_of_faults :
    ((Lexer.ofText "a) b").calls 1).next.result = .error (.unexpectedCloseParen ⟨1, 1, 2⟩) ∧
      (∀ m, (((Lexer.ofText "a) b").calls 1).next.state.calls m).next.result =
        .error (.unexpectedCloseParen ⟨1, 1, 2⟩)) ∧
      ((Lexer.ofText "(a 'b").calls 2).next.result = .error (.unterminatedString ⟨3, 1, 4⟩) ∧
      ((Lexer.ofText "(a 'b").calls 2).next.state.rest = [] := by
  have hclose : ((Lexer.ofText "a) b").calls 1).next.result =
      .error (.unexpectedCloseParen ⟨1, 1, 2⟩) := by
    rfl
  have hquote : ((Lexer.ofText "(a 'b").calls 2).next.result =
      .error (.unterminatedString ⟨3, 1, 4⟩) := by
    rfl
  obtain ⟨-, -, -, hsame, -⟩ := (lexing_goes_forward_and_settles "a) b").1 1
  obtain ⟨-, -, -, -, hnothing⟩ := (lexing_goes_forward_and_settles "(a 'b").1 2
  exact ⟨hclose, hsame _ hclose fun _ => LexicalError.noConfusion, hquote, (hnothing _ hquote).1⟩

end RecordQuery
