import RecordQuery.Proofs.Printing.Queries
/-!
# The round trip of a query

Printing a compiled query and compiling its text gives the same query again. Every part of a query is
read as a derivation of the grammar, the printed text of the part is read as the tokens of another
derivation of the same meaning, and the readers find that derivation (`Reader.query_reprints`). What
is not kept by printing is said in the hypotheses: a decimal without decimal places and a binary
number in the decimal range change their type or their scale, and arithmetic that starts with a
parenthesis is taken for a list behind `IN`.
-/

namespace RecordQuery

namespace Query

/-- The comparisons of a query: those of its joins, then those of its condition. -/
def comparisons (q : Query) : List Comparison :=
  q.joins.flatMap (fun j => j.condition.comparisons) ++ q.predicate.comparisons

/-- The literals of a query, clause by clause. -/
def literals (q : Query) : List Literal :=
  q.fields.flatMap (fun f => f.expr.literals) ++ (q.comparisons.flatMap Comparison.literals ++
    (q.groupBy.flatMap Expr.literals ++ q.orderBy.flatMap (fun f => f.expr.literals)))

/-- A query is kept when its literals are and no arithmetic behind `IN` looks like a list. -/
theorem kept_of_literals {q : Query} (hliterals : ∀ l ∈ q.literals, l.Kept)
    (hin : ∀ c ∈ q.comparisons, c.op = .isIn → c.right.isArith = true →
      c.right.render.toList.head? ≠ some '(') : q.Kept := by
  have hcomparison : ∀ c ∈ q.comparisons, c.Kept := by
    intro c hc
    refine ⟨fun l hl => hliterals l ?_, hin c hc⟩
    exact List.mem_append_right _ (List.mem_append_left _ (List.mem_flatMap.mpr ⟨c, hc, hl⟩))
  constructor
  · intro f hf l hl
    exact hliterals l (List.mem_append_left _ (List.mem_flatMap.mpr ⟨f, hf, hl⟩))
  · intro j hj c hc
    exact hcomparison c (List.mem_append_left _ (List.mem_flatMap.mpr ⟨j, hj, hc⟩))
  · intro p hp c hc
    apply hcomparison c (List.mem_append_right _ _)
    unfold predicate
    rw [hp]
    exact hc
  · intro e he l hl
    exact hliterals l (List.mem_append_right _ (List.mem_append_right _
      (List.mem_append_left _ (List.mem_flatMap.mpr ⟨e, he, hl⟩))))
  · intro f hf l hl
    exact hliterals l (List.mem_append_right _ (List.mem_append_right _
      (List.mem_append_right _ (List.mem_flatMap.mpr ⟨f, hf, hl⟩))))

/-- **Round trip.** A query that a text is compiled to is printed as text that is compiled to the same
query, and so printed as the same text again: if its decimals have decimal places, its binary numbers
are outside the decimal range and no arithmetic behind `IN` starts with a parenthesis. -/
theorem compile_render {text : String} {q : Query} (h : compile text = .ok q)
    (hdecimal : ∀ d, .decimal d ∈ q.literals → d.scale ≠ 0)
    (hfloat : ∀ x, .float x ∈ q.literals → Literal.exceedsDecimal x = true)
    (hin : ∀ c ∈ q.comparisons, c.op = .isIn → c.right.isArith = true →
      c.right.render.toList.head? ≠ some '(') :
    ∃ q', compile q.render = .ok q' ∧ q' = q ∧ q'.render = q.render := by
  have hkept : q.Kept := by
    refine kept_of_literals (fun l hl => ?_) hin
    cases l with
    | decimal d => exact hdecimal d hl
    | float x => exact hfloat x hl
    | _ => trivial
  obtain ⟨placed, c', htokenize, hrun⟩ := exists_tokens_of_compile h
  obtain ⟨body, hbody, -⟩ := tokenize_ends htokenize
  have htokens := Cursor.tokens_ofTokens hbody
  have hended : (Cursor.ofTokens placed).Ended := ⟨body, htokens.trans hbody⟩
  have hlexed : Lexer.Undotted (Cursor.ofTokens placed).tokens := by
    rw [htokens]
    exact ⟨none, by simp, tokenize_lexed htokenize⟩
  -- the readers say which tokens the printed text has, and that these give the query again
  obtain ⟨-, -, k, -, hecho⟩ := Reader.query_reprints _ _ _ hended hlexed hrun
  obtain ⟨ts, hspells, hecho⟩ := hecho hkept
  -- and the lexer, that the text is split into these tokens
  obtain ⟨prev, hreads, -⟩ := hspells.reads none 0 [] Lexer.operandStart_none Lexer.delimited_nil
  rw [List.append_nil] at hreads
  obtain ⟨placed', htokenize', hbody'⟩ := tokenize_of_reads hreads
  obtain ⟨c'', hrun', -, -⟩ := hecho (Cursor.ofTokens placed') [.endOfInput]
    ((Cursor.tokens_ofTokens hbody').trans hbody') (Reader.stops_below (Nat.le_refl 8))
    ((Cursor.placeholders_ofTokens _).trans (Cursor.placeholders_ofTokens _).symm)
  refine ⟨q, ?_, rfl, rfl⟩
  unfold compile Cursor.ofText
  rw [htokenize']
  exact Reader.runFrom_eq_ok.mpr ⟨c'', hrun'⟩

/-- A query with words, spaces and numbers that are written in another way than they are printed. -/
theorem compile_render_of_clauses :
    ∃ q q', compile "select sum(-1.50*(a.x+?)) as s from a left join b on a.id=b.id
        where b.y in (1,'it''s') or a.z<>0.1e41 group by a.n order by a.n desc limit 5" = .ok q ∧
      q.render = "SELECT sum(-1.50 * (a.x + ?)) AS s FROM a LEFT JOIN b ON a.id = b.id" ++
        " WHERE b.y IN (1, 'it''s') OR a.z <> 1E40 GROUP BY a.n ORDER BY a.n DESC LIMIT 5" ∧
      compile q.render = .ok q' ∧ q' = q ∧ q'.render = q.render := by
  have hcheck : (match compile "select sum(-1.50*(a.x+?)) as s from a left join b on a.id=b.id
        where b.y in (1,'it''s') or a.z<>0.1e41 group by a.n order by a.n desc limit 5" with
      | .ok q => decide ((∀ l ∈ q.literals, l.Kept) ∧
          (∀ c ∈ q.comparisons, c.op = .isIn → c.right.isArith = true →
            c.right.render.toList.head? ≠ some '(') ∧
          q.render = "SELECT sum(-1.50 * (a.x + ?)) AS s FROM a LEFT JOIN b ON a.id = b.id" ++
            " WHERE b.y IN (1, 'it''s') OR a.z <> 1E40 GROUP BY a.n ORDER BY a.n DESC LIMIT 5")
      | .error _ => false) = true := by decide +kernel
  split at hcheck
  next q hq =>
    obtain ⟨hkept, hin, hrender⟩ := of_decide_eq_true hcheck
    obtain ⟨q', hq', heq, htext⟩ :=
      compile_render hq (fun d hd => hkept _ hd) (fun x hx => hkept _ hx) hin
    exact ⟨q, q', hq, hrender, hq', heq, htext⟩
  next => cases hcheck

end Query

end RecordQuery
