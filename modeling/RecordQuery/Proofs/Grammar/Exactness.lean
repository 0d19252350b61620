import RecordQuery.Proofs.Grammar.Soundness
import RecordQuery.Proofs.Grammar.Completeness
import RecordQuery.Proofs.Lexing.Progress
/-!
# The reader of predicates is its grammar

A predicate that stands alone is read exactly when its tokens are derived from the grammar, and what
is read is the predicate of the derivation, of which there is only one.
-/

namespace RecordQuery

namespace Grammar

/-- `d.Derives placed` holds when `d` derives the tokens up to the end of the input. -/
def Chain.Derives (d : Chain) (placed : List PlacedToken) : Prop :=
  d.tokens ++ [.endOfInput] = placed.map PlacedToken.token

/-- Tokens have one derivation at most. -/
theorem Chain.Derives.unique {d d' : Chain} {placed : List PlacedToken} (h : d.Derives placed)
    (h' : d'.Derives placed) : d = d' :=
  (Chain.unique d d' (h.trans h'.symm) (stops_cons.mpr rfl) (stops_cons.mpr rfl)).1

theorem Term.tokens_eq_cons (t : Term) : ∃ u us, t.tokens = u :: us ∧ startsSum u = true := by
  cases t with
  | group inner => exact ⟨_, _, rfl, rfl⟩
  | compare left op right h =>
      obtain ⟨u, us, hs, hu⟩ := left.tokens_eq_cons
      exact ⟨u, us ++ operatorToken op :: right.tokens, by rw [Term.tokens, hs, List.cons_append], hu⟩
  | isIn left items =>
      obtain ⟨u, us, hs, hu⟩ := left.tokens_eq_cons
      exact ⟨u, _, by rw [Term.tokens, hs, List.cons_append], hu⟩

theorem Chain.tokens_eq_cons (d : Chain) : ∃ u us, d.tokens = u :: us ∧ startsSum u = true := by
  obtain ⟨t, tail⟩ := d
  obtain ⟨u, us, ht, hu⟩ := t.tokens_eq_cons
  exact ⟨u, us ++ tail.tokens, by rw [Chain.tokens, ht, List.cons_append], hu⟩

end Grammar

namespace Reader

open Grammar Cursor

/-- The expression of a sum is read. -/
theorem expression_complete {s : Grammar.Sum} {c : Cursor} {r : List Token}
    (hc : c.tokens = s.tokens ++ r) (hr : Stops extendsSum r) :
    Gives expression c (s.expr c.placeholders) r s.placeholders := by
  -- the reader is given eight steps for every token that is left
  have hfuel : 8 * s.tokens.length ≤ c.fuel + 3 := by
    have hlength := c.length_tokens
    rw [hc, List.length_append] at hlength
    have hpos := List.length_pos_iff.mpr hr.ne_nil
    unfold fuel
    omega
  unfold expression
  refine Gives.seq (⟨c, rfl, hc, rfl⟩ : Gives get c c (s.tokens ++ r) 0) ?_
  intro c₁ h₁ n₁
  rw [← n₁]
  exact sum_complete s hfuel h₁ hr

/-- The predicate of a clause that is read is derived. -/
theorem clausePredicate_sound {clause : PredicateClause} {c c' : Cursor} {p : Predicate}
    (hc : c.Ended) (h : (clausePredicate clause).run c = .ok p c') :
    ∃ d : Chain, c.Reads d.tokens d.placeholders c' ∧ (d.written c.placeholders).fold = p := by
  unfold clausePredicate at h
  obtain ⟨c₀, _, hget, h₁⟩ := run_bind_ok.mp h
  cases hget
  split at h₁
  · cases h₁
  · obtain ⟨read, c₁, hread, h₂⟩ := run_bind_ok.mp h₁
    obtain ⟨rfl, rfl⟩ := asPredicate_ok h₂
    exact chain_sound c.fuel hc hread

/-- The predicate of a clause that is derived is read. -/
theorem clausePredicate_complete {clause : PredicateClause} {d : Chain} {c : Cursor}
    {r : List Token} (hc : c.tokens = d.tokens ++ r) (hr : Stops extendsChain r) :
    Gives (clausePredicate clause) c (d.written c.placeholders).fold r d.placeholders := by
  obtain ⟨u, us, hd, hu⟩ := d.tokens_eq_cons
  have hcurrent : c.current.token = u := current_of_tokens (by rw [hc, hd]; rfl)
  have hends : endsClause c.current.token = false := by
    rw [hcurrent]
    exact (Bool.or_eq_false_iff.mp (not_endsClause_of_startsSum hu)).1
  -- the reader is given eight steps for every token that is left
  have hfuel : 8 * d.tokens.length ≤ c.fuel + 1 := by
    have hlength := c.length_tokens
    rw [hc, List.length_append] at hlength
    have hpos := List.length_pos_iff.mpr hr.ne_nil
    unfold fuel
    omega
  unfold clausePredicate
  refine Gives.seq (⟨c, rfl, hc, rfl⟩ : Gives get c c (d.tokens ++ r) 0) ?_
  intro c₁ h₁ n₁
  rw [if_neg (by rw [hends]; exact Bool.false_ne_true), ← n₁]
  refine (chain_complete d hfuel h₁ hr).close ?_
  intro c₂ h₂ _
  exact gives_pure _ h₂

end Reader

namespace Reader

open Grammar Cursor

/-- At the end of the input nothing else is ahead, when the end stands nowhere else. -/
theorem tokens_at_end {c c' : Cursor} {ts body : List Token} {n : Nat}
    (hc : c.tokens = body ++ [.endOfInput]) (hbody : .endOfInput ∉ body) (h : c.Reads ts n c')
    (hend : c'.current.token = .endOfInput) : c'.tokens = [.endOfInput] := by
  have hcons : c'.tokens = .endOfInput :: c'.rest.map PlacedToken.token := by rw [← hend]; rfl
  rcases List.eq_nil_or_concat (c'.rest.map PlacedToken.token) with hrest | ⟨init, last, hrest⟩
  · rw [hcons, hrest]
  · have hall : body ++ [.endOfInput] = (ts ++ .endOfInput :: init) ++ [last] := by
      rw [← hc, h.1, hcons, hrest]
      simp [List.append_assoc]
    have hinit := (List.append_inj' hall rfl).1
    exact absurd (by rw [hinit]; simp) hbody

/-- A predicate with nothing behind it is derived by all its tokens. -/
theorem condition_sound {c c' : Cursor} {p : Predicate} {body : List Token}
    (hc : c.tokens = body ++ [.endOfInput]) (hbody : .endOfInput ∉ body)
    (h : condition.run c = .ok p c') :
    ∃ d : Chain, d.tokens ++ [.endOfInput] = c.tokens ∧ (d.written c.placeholders).fold = p := by
  unfold condition at h
  obtain ⟨q, c₁, hq, h₁⟩ := run_bind_ok.mp h
  obtain ⟨d, rd, rfl⟩ := clausePredicate_sound ⟨body, hc⟩ hq
  rw [run_bind_of_ok (run_isAt _ c₁)] at h₁
  by_cases hend : c₁.current.token = .endOfInput
  · rw [if_pos (beq_iff_eq.mpr hend)] at h₁
    obtain ⟨rfl, rfl⟩ := run_pure_ok.mp h₁
    exact ⟨d, by rw [rd.1, tokens_at_end hc hbody rd hend], rfl⟩
  · rw [if_neg (by rwa [beq_iff_eq])] at h₁
    cases h₁

theorem condition_complete {c : Cursor} {d : Chain} (hc : c.tokens = d.tokens ++ [.endOfInput]) :
    Gives condition c (d.written c.placeholders).fold [.endOfInput] d.placeholders := by
  unfold condition
  refine (clausePredicate_complete hc (stops_cons.mpr rfl)).close ?_
  intro c₁ h₁ _
  refine (gives_isAt _ h₁).seq ?_
  intro c₂ h₂ _
  exact gives_pure _ h₂

end Reader

namespace Predicate

open Grammar Reader Cursor

theorem compile_of_tokenize {text : String} {placed : List PlacedToken}
    (h : tokenize text = .ok placed) :
    compile text = (condition.runFrom (Cursor.ofTokens placed)).1 := by
  unfold compile Cursor.ofText
  rw [h]

/-- **Exactness.** For a text that is split into tokens: they have one derivation at most, and the
text is compiled to a predicate exactly when that is the predicate of a derivation of the tokens. -/
theorem compile_iff_derivation {text : String} {placed : List PlacedToken}
    (h : tokenize text = .ok placed) :
    (∀ d d' : Chain, d.Derives placed → d'.Derives placed → d = d') ∧
      ∀ p : Predicate, compile text = .ok p ↔ ∃ d : Chain, d.Derives placed ∧ d.predicate = p := by
  refine ⟨fun d d' => Chain.Derives.unique, ?_⟩
  intro p
  obtain ⟨body, hbody, hend⟩ := tokenize_ends h
  have htokens := tokens_ofTokens hbody
  have hnone := placeholders_ofTokens placed
  rw [compile_of_tokenize h, runFrom_eq_ok]
  generalize Cursor.ofTokens placed = c at htokens hnone
  constructor
  · rintro ⟨c', hrun⟩
    obtain ⟨d, hd, hp⟩ := condition_sound (htokens.trans hbody) hend hrun
    rw [hnone] at hp
    exact ⟨d, hd.trans htokens, hp⟩
  · rintro ⟨d, hd, rfl⟩
    obtain ⟨c', hrun, -, -⟩ := condition_complete (htokens.trans hd.symm)
    rw [hnone] at hrun
    exact ⟨c', hrun⟩

/-- A text whose first parenthesis turns out to belong to an operand, after it has been read as the
start of a predicate. -/
theorem compile_iff_derivation_of_operand :
    ∃ placed, tokenize "(1)<?" = .ok placed ∧
      compile "(1)<?" = .ok (.comparison ⟨.literal (.ofText "1"), .less, .placeholder 0⟩) := by
  have htokens : tokenize "(1)<?" = .ok [⟨.symbol .openParen, ⟨0, 1, 1⟩⟩, ⟨.span "1", ⟨1, 1, 2⟩⟩,
      ⟨.symbol .closeParen, ⟨2, 1, 3⟩⟩, ⟨.symbol .less, ⟨3, 1, 4⟩⟩, ⟨.placeholder, ⟨4, 1, 5⟩⟩,
      ⟨.endOfInput, ⟨5, 1, 6⟩⟩] := by
    rfl
  refine ⟨_, htokens, ((compile_iff_derivation htokens).2 _).mpr ⟨.mk (.compare
    (.mk (.mk (.primary (.group (.mk (.mk (.primary (.span "1")) .done) .done))) .done) .done) .less
    (.mk (.mk (.primary .placeholder) .done) .done) CompareOp.noConfusion) .done, rfl, rfl⟩⟩

end Predicate

end RecordQuery
