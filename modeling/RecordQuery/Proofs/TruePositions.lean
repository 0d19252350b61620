import RecordQuery.Proofs.Lexing.Slices
import RecordQuery.Proofs.Grammar.Movement
/-!
# Positions in errors

A text that does not compile is at fault at a position, which is that of a token or one that the lexer
fails at. So it is a true position of the text, as those of all its tokens are; and the tokens tile the text
(`positions_true`).
-/

namespace RecordQuery

/-- The tokens of a text are ahead of the cursor at its start. -/
theorem Cursor.within_ofText {text : String} {c : Cursor} (h : Cursor.ofText text = .ok c) :
    c.Within (Position.TrueIn text.toList) := by
  have htrue := tokenize_trueIn text
  unfold Cursor.ofText at h
  cases htokens : tokenize text with
  | error e =>
      rw [htokens] at h
      cases h
  | ok placed =>
      rw [htokens] at h htrue
      cases h
      obtain ⟨body, hbody, -⟩ := tokenize_ends htokens
      refine ⟨⟨body, (tokens_ofTokens hbody).trans hbody⟩, fun t ht => htrue t ?_⟩
      cases placed with
      | nil => simp at hbody
      | cons first rest => exact ht

/-- A text that is not split into tokens is at fault where the lexer fails. -/
theorem Cursor.trueIn_of_ofText {text : String} {e : SyntaxError} (h : Cursor.ofText text = .error e) :
    e.position.TrueIn text.toList := by
  have htrue := tokenize_trueIn text
  unfold Cursor.ofText at h
  cases htokens : tokenize text with
  | error e =>
      rw [htokens] at h htrue
      cases h
      exact htrue
  | ok placed =>
      rw [htokens] at h
      cases h

/-- What a reader fails with is at a true position. -/
theorem Reader.Moves.error_trueIn {α : Type} {text : String} {r : Reader α}
    (hr : r.Moves (Position.TrueIn text.toList)) {e : SyntaxError}
    (h : (match Cursor.ofText text with
      | .ok c => (r.runFrom c).1
      | .error e => .error e) = .error e) : e.position.TrueIn text.toList := by
  cases hc : Cursor.ofText text with
  | error e' =>
      rw [hc] at h
      cases h
      exact Cursor.trueIn_of_ofText hc
  | ok c =>
      rw [hc] at h
      obtain ⟨d, hrun⟩ := runFrom_eq_error.mp h
      have harrives := hr c (Cursor.within_ofText hc)
      rw [hrun] at harrives
      exact harrives.2

/-- **Positions are true and tokens tile the text.** The tokens of a text are its slices one behind the other,
with nothing but white space between; their offsets increase strictly, up to the end of the input at the end
of the text, which stands nowhere else. Each token is at a true position; and so is the error of a text that
has no tokens, of one that does not compile, and of every step that a lexer may come to, whether the steps
before it read tokens or failed. -/
theorem positions_true (text : String) :
    (∀ placed, tokenize text = .ok placed →
      Lexer.Tiles 0 text.toList placed ∧
      placed.Pairwise (fun t u => t.position.offset < u.position.offset) ∧
      (∃ body p, placed = body ++ [⟨.endOfInput, p⟩] ∧ p.offset = text.toList.length ∧
        ∀ t ∈ body, t.token ≠ .endOfInput) ∧
      ∀ t ∈ placed, t.position.TrueIn text.toList) ∧
    (∀ e, tokenize text = .error e → e.position.TrueIn text.toList) ∧
    (∀ l, Lexer.Reached text l → l.next.start.TrueIn text.toList ∧
      ∀ e, l.next.result = .error e → e.position.TrueIn text.toList) ∧
    (∀ e, Query.compile text = .error e → e.position.TrueIn text.toList) ∧
    ∀ e, Predicate.compile text = .error e → e.position.TrueIn text.toList := by
  have htrue := tokenize_trueIn text
  refine ⟨fun placed h => ?_, fun e h => ?_, fun l hl => ?_, fun e h => ?_, fun e h => ?_⟩
  · have htiles := tiles_of_tokenize h
    obtain ⟨body, p, hplaced, hp, hbody⟩ := htiles.exists_end
    rw [Nat.zero_add] at hp
    rw [h] at htrue
    exact ⟨htiles, htiles.pairwise_offset, ⟨body, p, hplaced, hp, hbody⟩, htrue⟩
  · rwa [h] at htrue
  · have hnext := hl.standsIn.next
    exact ⟨hnext.start, hnext.error⟩
  · exact Reader.moves_query.error_trueIn h
  · exact Reader.moves_condition.error_trueIn h

/-- A quote that is never closed, on the second line; and a name where a comparison should go on. -/
theorem positions_true_of_faults :
    Predicate.compile "a =\n 'b" = .error (.lexical (.unterminatedString ⟨5, 2, 2⟩)) ∧
      (⟨5, 2, 2⟩ : Position).TrueIn "a =\n 'b".toList ∧
      Predicate.compile "a\n b" = .error (.unexpected .comparisonOperator "b" ⟨3, 2, 2⟩) ∧
      (⟨3, 2, 2⟩ : Position).TrueIn "a\n b".toList := by
  have hlexical : Predicate.compile "a =\n 'b" =
      .error (.lexical (.unterminatedString ⟨5, 2, 2⟩)) := by
    rfl
  have hname : Predicate.compile "a\n b" = .error (.unexpected .comparisonOperator "b" ⟨3, 2, 2⟩) := by
    rfl
  exact ⟨hlexical, (positions_true _).2.2.2.2 _ hlexical, hname, (positions_true _).2.2.2.2 _ hname⟩

end RecordQuery
