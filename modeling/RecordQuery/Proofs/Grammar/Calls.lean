import RecordQuery.Proofs.Grammar.Loops
import RecordQuery.Proofs.Lexing.Progress
/-!
# One reading after the other

A caller may read an expression, a condition or a query from where the last reading stopped, also if that
failed (`Cursor.Reached`). The cursor always stands at one of the tokens of the text (`Cursor.StandsAt`): that
is its current token, the ones behind it are ahead, and as many parameters are numbered as there are question
marks in front. No reading goes back, and each loop in it comes to an end (`reading_goes_forward_and_ends`).
-/

namespace RecordQuery

/-- What a caller may ask for. -/
inductive EntryPoint where
  | expression
  | condition
  | query

/-- The cursor that a reading leaves behind, whether it succeeds or fails. -/
def EntryPoint.after : EntryPoint → Cursor → Cursor
  | .expression, c => (Reader.expression.runFrom c).2
  | .condition, c => (Reader.condition.runFrom c).2
  | .query, c => (Reader.query.runFrom c).2

namespace Cursor

/-- The cursors that a caller comes to in a text. -/
inductive Reached (text : String) : Cursor → Prop
  | start {c : Cursor} (h : ofText text = .ok c) : Reached text c
  | call {c : Cursor} (h : Reached text c) (entry : EntryPoint) : Reached text (entry.after c)

/-- `c.StandsAt tokens i` holds when the token at `i` is the current one of `c`, those behind it are ahead, and
the question marks in front of it are numbered. -/
structure StandsAt (tokens : List PlacedToken) (i : Nat) (c : Cursor) : Prop where
  current : tokens[i]? = some c.current
  rest : c.rest = tokens.drop (i + 1)
  placeholders : c.placeholders = ((tokens.take i).map PlacedToken.token).count .placeholder

variable {tokens : List PlacedToken} {c d : Cursor} {i : Nat}

theorem StandsAt.placed_eq (h : c.StandsAt tokens i) : c.placed = tokens.drop i := by
  obtain ⟨hi, hcurrent⟩ := List.getElem?_eq_some_iff.mp h.current
  rw [placed, h.rest, ← hcurrent, ← List.drop_eq_getElem_cons hi]

theorem standsAt_of_placed (h : c.placed = tokens.drop i)
    (hcount : c.placeholders = ((tokens.take i).map PlacedToken.token).count .placeholder) :
    c.StandsAt tokens i where
  current := by
    rw [← Nat.add_zero i, ← List.getElem?_drop, ← h]
    rfl
  rest := by
    rw [← List.drop_drop, ← h]
    rfl
  placeholders := hcount

/-- A cursor at a token leads to one at a token that is not in front of it: behind it by as many as were
passed. -/
theorem StandsAt.leads (h : c.StandsAt tokens i) (hleads : c.Leads d) :
    d.StandsAt tokens (i + (c.rest.length - d.rest.length)) := by
  have hle := hleads.length_le
  obtain ⟨passed, hplaced, hcount⟩ := hleads
  have hpassed : c.rest.length - d.rest.length = passed.length := by
    have hlength := congrArg List.length hplaced
    rw [List.length_append, placed, placed, List.length_cons, List.length_cons] at hlength
    omega
  have hdrop : tokens.drop i = passed ++ d.placed := h.placed_eq.symm.trans hplaced
  rw [hpassed]
  apply standsAt_of_placed
  · rw [← List.drop_drop, hdrop, List.drop_left]
  · rw [List.take_add, hdrop, List.take_left, List.map_append, List.count_append, hcount,
      h.placeholders]

/-- A cursor is at the first of the tokens that it is made of. -/
theorem standsAt_ofTokens (h : tokens ≠ []) : (ofTokens tokens).StandsAt tokens 0 := by
  cases tokens with
  | nil => exact absurd rfl h
  | cons t rest => exact ⟨rfl, rfl, rfl⟩

theorem ne_nil_of_tokenize {text : String} (h : tokenize text = .ok tokens) : tokens ≠ [] := by
  obtain ⟨body, hbody, -⟩ := tokenize_ends h
  rintro rfl
  simp at hbody

/-- The end of the input is ahead of every token of a text. -/
theorem StandsAt.ended {text : String} (htokens : tokenize text = .ok tokens) (h : c.StandsAt tokens i) :
    c.Ended := by
  obtain ⟨body, hbody, -⟩ := tokenize_ends htokens
  have hne := ne_nil_of_tokenize htokens
  have hstart : (ofTokens tokens).Ended := ⟨body, (tokens_ofTokens hbody).trans hbody⟩
  have hleads : (ofTokens tokens).Leads c := by
    refine ⟨tokens.take i, ?_, ?_⟩
    · rw [(standsAt_ofTokens hne).placed_eq, h.placed_eq, List.take_append_drop, List.drop_zero]
    · rw [placeholders_ofTokens, Nat.zero_add, h.placeholders]
  exact hleads.ended hstart

end Cursor

namespace Reader

theorem Moves.leads {α : Type} {r : Reader α} (hr : Moves (fun _ => True) r) {c : Cursor} (hc : c.Ended) :
    c.Leads (r.runFrom c).2 := by
  have harrives := hr c hc.within
  unfold runFrom
  cases hrun : r.run c with
  | ok a d =>
      rw [hrun] at harrives
      exact harrives
  | error e d =>
      rw [hrun] at harrives
      exact harrives.1

end Reader

/-- No reading goes back. -/
theorem EntryPoint.leads (entry : EntryPoint) {c : Cursor} (hc : c.Ended) : c.Leads (entry.after c) := by
  cases entry with
  | expression => exact Reader.moves_expression.leads hc
  | condition => exact Reader.moves_condition.leads hc
  | query => exact Reader.moves_query.leads hc

namespace Cursor

variable {text : String} {tokens : List PlacedToken} {c : Cursor} {i : Nat}

/-- A reading that starts at a token stops at one that is not in front of it. -/
theorem StandsAt.after (htokens : tokenize text = .ok tokens) (h : c.StandsAt tokens i)
    (entry : EntryPoint) : ∃ j ≥ i, (entry.after c).StandsAt tokens j :=
  ⟨_, Nat.le_add_right _ _, h.leads (entry.leads (h.ended htokens))⟩

/-- After any number of readings the cursor stands at a token. -/
theorem Reached.standsAt (htokens : tokenize text = .ok tokens) (h : Reached text c) :
    ∃ i, c.StandsAt tokens i := by
  induction h with
  | start hstart =>
      unfold ofText at hstart
      rw [htokens] at hstart
      cases hstart
      exact ⟨0, standsAt_ofTokens (ne_nil_of_tokenize htokens)⟩
  | call _ entry ih =>
      obtain ⟨i, hi⟩ := ih
      obtain ⟨j, -, hj⟩ := hi.after htokens entry
      exact ⟨j, hj⟩

/-- An expression that is read moves the cursor on. -/
theorem StandsAt.expression (htokens : tokenize text = .ok tokens) (h : c.StandsAt tokens i) {e : Expr}
    {d : Cursor} (hrun : Reader.expression.run c = .ok e d) : ∃ j > i, d.StandsAt tokens j := by
  have hc := h.ended htokens
  have harrives := Reader.moves_expression c hc.within
  rw [hrun] at harrives
  obtain ⟨-, hle⟩ := Reader.takes_expression c hc e d hrun
  exact ⟨_, by omega, h.leads harrives⟩

end Cursor

/-- **Readings go forward and come to an end.** After any number of readings of a text, successful or failed,
the cursor stands at one of its tokens: with that as the current one, and the question marks in front of it
numbered. The next reading leaves it at the same token or at a later one.

From every token, an expression that is read moves the cursor on. So all loops end: those over the items of a
list and the arguments of a call, those over the columns, resources, groups and orders of a query, and the one
over its joins. Fuel is never used up: what the readers of expressions and predicates do does not depend on
how much they have, once it is eight steps for each token ahead and six more. -/
theorem reading_goes_forward_and_ends {text : String} {tokens : List PlacedToken}
    (htokens : tokenize text = .ok tokens) :
    (∀ c, Cursor.Reached text c → ∃ i, c.StandsAt tokens i ∧
      ∀ entry : EntryPoint, ∃ j ≥ i, (entry.after c).StandsAt tokens j) ∧
    ∀ i c, c.StandsAt tokens i →
      (∀ e d, Reader.expression.run c = .ok e d → ∃ j > i, d.StandsAt tokens j) ∧
      (∀ fuel ≥ 8 * c.rest.length + 6,
        (Reader.sum fuel).run c = Reader.expression.run c ∧
        (Reader.chain fuel).run c = (Reader.chain c.fuel).run c ∧
        Reader.Loop (Reader.itemRound Reader.expression) c ((Reader.listItems fuel).run c) ∧
        Reader.Loop (Reader.itemRound Reader.callArgument) c ((Reader.arguments fuel).run c)) ∧
      Reader.CommaLoop Reader.selectField c ((Reader.commaSeparated Reader.selectField).run c) ∧
      Reader.CommaLoop (Reader.name .resourceName) c
        ((Reader.commaSeparated (Reader.name .resourceName)).run c) ∧
      Reader.CommaLoop Reader.expression c ((Reader.commaSeparated Reader.expression).run c) ∧
      Reader.CommaLoop Reader.orderField c ((Reader.commaSeparated Reader.orderField).run c) ∧
      ∀ first, Reader.Loop (Reader.joinRound first) c ((Reader.joins first c.rest.length).run c) := by
  refine ⟨fun c hreached => ?_, fun i c hstands => ?_⟩
  · obtain ⟨i, hi⟩ := hreached.standsAt htokens
    exact ⟨i, hi, hi.after htokens⟩
  · have hc := hstands.ended htokens
    have hfuel : c.fuel = 8 * c.rest.length + 8 := rfl
    refine ⟨fun e d hrun => hstands.expression htokens hrun, fun fuel hle => ⟨?_, ?_, ?_, ?_⟩,
      ?_, ?_, ?_, ?_, fun first => ?_⟩
    · exact Reader.agree_expression (by omega) c hc (Nat.le_refl _)
    · exact Reader.agree_chain (by omega) (by omega) c hc (Nat.le_refl _)
    · exact Reader.loop_listItems hc (by omega)
    · exact Reader.loop_arguments hc (by omega)
    · exact Reader.commaLoop_commaSeparated Reader.takes_selectField hc
    · exact Reader.commaLoop_commaSeparated (Reader.takes_name _) hc
    · exact Reader.commaLoop_commaSeparated Reader.takes_expression hc
    · exact Reader.commaLoop_commaSeparated Reader.takes_orderField hc
    · exact Reader.loop_joins first hc (Nat.le_refl _)

/-- A name behind a comparison is no end of a condition; the cursor stays in front of it, and whatever is read
from there goes on. -/
theorem reading_goes_forward_and_ends_of_failure :
    let tokens : List PlacedToken := [⟨.identifier "a", ⟨0, 1, 1⟩⟩, ⟨.symbol .greater, ⟨2, 1, 3⟩⟩,
      ⟨.placeholder, ⟨4, 1, 5⟩⟩, ⟨.identifier "b", ⟨6, 1, 7⟩⟩, ⟨.endOfInput, ⟨7, 1, 8⟩⟩]
    let c := Cursor.ofTokens tokens
    tokenize "a > ? b" = .ok tokens ∧
      (Reader.condition.runFrom c).1 = .error (.unexpected .endOfCondition "b" ⟨6, 1, 7⟩) ∧
      ∃ i, (EntryPoint.condition.after c).StandsAt tokens i ∧ ∀ entry : EntryPoint,
        ∃ j ≥ i, (entry.after (EntryPoint.condition.after c)).StandsAt tokens j := by
  intro tokens c
  have htokens : tokenize "a > ? b" = .ok tokens := by
    rfl
  have hfails : (Reader.condition.runFrom c).1 =
      .error (.unexpected .endOfCondition "b" ⟨6, 1, 7⟩) := by
    rfl
  have hstart : Cursor.Reached "a > ? b" c := by
    apply Cursor.Reached.start
    rw [Cursor.ofText, htokens]
  exact ⟨htokens, hfails, (reading_goes_forward_and_ends htokens).1 _ (hstart.call .condition)⟩

end RecordQuery
