import RecordQuery.Proofs.Grammar.Steps
import RecordQuery.Proofs.Lexing.Layout
/-!
# Layout does not matter

A reader looks at the tokens ahead and never at where they stand; places go into errors and nowhere else. So
two readers that differ in places alone (`Reader.Matches`), on cursors with the same tokens ahead, give the
same result or fail with errors that differ at most in the place they name. Every reader matches itself:
matching goes through sequencing, and where a reader takes the whole cursor it goes on in matching ways.

A text that is laid out anew has the same tokens in other places (`tokenize_of_layout`). So it compiles to the
same, or fails with an error of the same kind (`layout_is_invisible`).
-/

namespace RecordQuery

/-- Two errors that differ at most in the place where the text is at fault. -/
inductive SyntaxError.Alike : SyntaxError → SyntaxError → Prop
  | unexpected (expected : Expected) (found : String) (place place' : Position) :
      Alike (.unexpected expected found place) (.unexpected expected found place')
  | emptyPredicate (clause : PredicateClause) (place place' : Position) :
      Alike (.emptyPredicate clause place) (.emptyPredicate clause place')
  | invalidNumber (clause : CountClause) (found : String) (place place' : Position) :
      Alike (.invalidNumber clause found place) (.invalidNumber clause found place')

/-- Two compilations that give the same, or fail with errors that are alike. -/
inductive CompiledAlike {α : Type} : Except SyntaxError α → Except SyntaxError α → Prop
  | ok (a : α) : CompiledAlike (.ok a) (.ok a)
  | error {e e' : SyntaxError} (h : e.Alike e') : CompiledAlike (.error e) (.error e')

/-- Two cursors with the same tokens ahead, and as many parameters behind them. -/
structure Cursor.Alike (c c' : Cursor) : Prop where
  tokens : c.tokens = c'.tokens
  placeholders : c.placeholders = c'.placeholders

namespace Cursor.Alike

variable {c c' : Cursor}

theorem current (h : c.Alike c') : c.current.token = c'.current.token :=
  (List.cons.inj h.tokens).1

theorem length_rest (h : c.Alike c') : c.rest.length = c'.rest.length := by
  have hlength := congrArg List.length h.tokens
  rw [length_tokens, length_tokens] at hlength
  exact Nat.succ.inj hlength

theorem fuel (h : c.Alike c') : c.fuel = c'.fuel := by
  rw [Cursor.fuel, Cursor.fuel, h.length_rest]

theorem next (h : c.Alike c') : c.next.Alike c'.next := by
  obtain ⟨current, rest, n⟩ := c
  obtain ⟨current', rest', n'⟩ := c'
  obtain ⟨htokens, hplaceholders⟩ := h
  refine ⟨?_, by rwa [placeholders_next, placeholders_next]⟩
  cases rest with
  | nil =>
      cases rest' with
      | nil => exact htokens
      | cons t' rest' => simp [Cursor.tokens] at htokens
  | cons t rest =>
      cases rest' with
      | nil => simp [Cursor.tokens] at htokens
      | cons t' rest' => exact (List.cons.inj htokens).2

theorem withToken (h : c.Alike c') (t : Token) : (c.withToken t).Alike (c'.withToken t) :=
  ⟨congrArg (t :: ·) (List.cons.inj h.tokens).2, h.placeholders⟩

theorem unexpected (h : c.Alike c') (expected : Expected) :
    (c.unexpected expected).Alike (c'.unexpected expected) := by
  unfold Cursor.unexpected
  rw [h.current]
  exact .unexpected _ _ _ _

end Cursor.Alike

namespace Reader

variable {α β : Type}

/-- `r.Matches r'` holds when the readers end alike on cursors that are alike: with one result and alike
again, or with errors that are alike. -/
def Matches (r r' : Reader α) : Prop :=
  ∀ c c', c.Alike c' →
    (∃ a d d', r.run c = .ok a d ∧ r'.run c' = .ok a d' ∧ d.Alike d') ∨
      ∃ e e' d d', r.run c = .error e d ∧ r'.run c' = .error e' d' ∧ e.Alike e'

/-! ## Rules -/

theorem Matches.pure (a : α) : Matches (pure a : Reader α) (Pure.pure a) :=
  fun c c' h => .inl ⟨a, c, c', rfl, rfl, h⟩

theorem Matches.throw {e e' : SyntaxError} (h : e.Alike e') : Matches (throw e : Reader α) (throw e') :=
  fun c c' _ => .inr ⟨e, e', c, c', rfl, rfl, h⟩

theorem Matches.bind {r r' : Reader α} {f f' : α → Reader β} (h : Matches r r')
    (hf : ∀ a, Matches (f a) (f' a)) : Matches (r >>= f) (r' >>= f') := by
  intro c c' hc
  rw [EStateM.run_bind, EStateM.run_bind]
  obtain ⟨a, d, d', hr, hr', hd⟩ | ⟨e, e', d, d', hr, hr', he⟩ := h c c' hc
  · rw [hr, hr']
    exact hf a d d' hd
  · rw [hr, hr']
    exact .inr ⟨e, e', d, d', rfl, rfl, he⟩

/-- A reader that takes the whole cursor. -/
theorem Matches.get {f f' : Cursor → Reader β} (h : ∀ c c', c.Alike c' → Matches (f c) (f' c')) :
    Matches (MonadState.get >>= f) (MonadState.get >>= f') :=
  fun c c' hc => h c c' hc c c' hc

theorem Matches.modify {f : Cursor → Cursor} (h : ∀ c c', c.Alike c' → (f c).Alike (f c')) :
    Matches (modify f) (modify f) :=
  fun c c' hc => .inl ⟨(), f c, f c', rfl, rfl, h c c' hc⟩

theorem Matches.ite {p : Prop} [Decidable p] {r r' s s' : Reader α} (h : Matches r r')
    (h' : Matches s s') : Matches (if p then r else s) (if p then r' else s') := by
  split
  · exact h
  · exact h'

/-! ## Single tokens -/

theorem matches_fail (expected : Expected) : Matches (fail expected : Reader α) (fail expected) :=
  .get fun _ _ h => .throw (h.unexpected expected)

theorem matches_token : Matches token token :=
  .get fun _ _ h => by
    rw [h.current]
    exact .pure _

theorem matches_advance : Matches advance advance :=
  .modify fun _ _ h => h.next

theorem matches_isAt (t : Token) : Matches (isAt t) (isAt t) :=
  matches_token.bind fun _ => .pure _

theorem matches_accept (t : Token) : Matches (accept t) (accept t) :=
  (matches_isAt t).bind fun _ => .ite (matches_advance.bind fun _ => .pure _) (.pure _)

theorem matches_expect (t : Token) : Matches (expect t) (expect t) :=
  (matches_accept t).bind fun _ => .ite (.pure _) (matches_fail _)

theorem matches_takeToken : Matches takeToken takeToken :=
  matches_token.bind fun _ => (Matches.modify fun _ _ h => h.withToken _).bind fun _ => .pure _

theorem matches_putBack (t : Token) : Matches (putBack t) (putBack t) :=
  .modify fun _ _ h => h.withToken t

theorem matches_name (expected : Expected) : Matches (name expected) (name expected) := by
  refine matches_takeToken.bind fun t => ?_
  split
  · exact matches_advance.bind fun _ => .pure _
  · exact (matches_putBack _).bind fun _ => matches_fail _

theorem matches_newPlaceholder : Matches newPlaceholder newPlaceholder := by
  intro c c' h
  have hcount : (c.placeholders : Nat) = c'.placeholders := h.placeholders
  refine .inl ⟨c.placeholders, _, { c' with placeholders := c'.placeholders + 1 }, run_newPlaceholder c, ?_,
    h.tokens, congrArg (· + 1) hcount⟩
  rw [run_newPlaceholder, hcount]

/-! ## Expressions -/

theorem matches_dottedNames (fuel : Nat) : Matches (dottedNames fuel) (dottedNames fuel) := by
  induction fuel with
  | zero => exact matches_fail _
  | succ fuel ih =>
      exact (matches_accept _).bind fun _ => .ite
        ((matches_name _).bind fun _ => ih.bind fun _ => .pure _) (.pure _)

theorem matches_coordinate : Matches coordinate coordinate := by
  refine (matches_accept _).bind fun _ => matches_token.bind fun t => ?_
  split
  · exact matches_advance.bind fun _ => .pure _
  · exact matches_fail _

theorem matches_point : Matches point point := by
  refine .get fun c c' _ => (matches_expect _).bind fun _ => matches_coordinate.bind fun x =>
    matches_coordinate.bind fun y => (matches_expect _).bind fun _ => ?_
  split
  · exact .pure _
  · exact .throw (.unexpected _ _ _ _)

/-- The readers of expressions match themselves with some number of steps. -/
structure ExpressionsMatch (fuel : Nat) : Prop where
  sum : Matches (sum fuel) (sum fuel)
  sumTail : ∀ left, Matches (sumTail fuel left) (sumTail fuel left)
  product : Matches (product fuel) (product fuel)
  productTail : ∀ left, Matches (productTail fuel left) (productTail fuel left)
  factor : Matches (factor fuel) (factor fuel)
  primary : Matches (primary fuel) (primary fuel)
  arguments : Matches (arguments fuel) (arguments fuel)
  argument : Matches (argument fuel) (argument fuel)

theorem ExpressionsMatch.matches_primary {fuel : Nat} (h : ExpressionsMatch fuel) :
    Matches (Reader.primary (fuel + 1)) (Reader.primary (fuel + 1)) := by
  refine matches_takeToken.bind fun t => ?_
  split
  · exact matches_advance.bind fun _ => .pure _
  · exact matches_advance.bind fun _ => .pure _
  · exact matches_advance.bind fun _ => .pure _
  · exact matches_advance.bind fun _ => matches_newPlaceholder.bind fun _ => .pure _
  · exact matches_advance.bind fun _ => h.sum.bind fun _ => (matches_expect _).bind fun _ => .pure _
  · refine matches_advance.bind fun _ => (matches_isAt _).bind fun _ => .ite (.ite matches_point ?_) ?_
    · exact matches_advance.bind fun _ => h.arguments.bind fun _ => .pure _
    · exact (matches_dottedNames _).bind fun _ => .pure _
  · exact (matches_putBack _).bind fun _ => matches_fail _

/-- Items up to a closing parenthesis, with commas between. -/
theorem matches_items {item : Reader Expr} {items : Reader (List Expr)} (hitem : Matches item item)
    (hitems : Matches items items) :
    Matches (do
        let first ← item
        if !(← isAt (.symbol .closeParen)) then expect (.symbol .comma)
        let others ← items
        return first :: others : Reader (List Expr))
      (do
        let first ← item
        if !(← isAt (.symbol .closeParen)) then expect (.symbol .comma)
        let others ← items
        return first :: others) := by
  refine hitem.bind fun first => (matches_isAt _).bind fun _ => .ite ?_ ?_
  · exact (matches_expect _).bind fun _ => hitems.bind fun _ => .pure _
  · exact hitems.bind fun _ => .pure _

/-- The induction is on the steps that the readers may take. -/
theorem expressionsMatch (fuel : Nat) : ExpressionsMatch fuel := by
  induction fuel with
  | zero =>
      exact ⟨matches_fail _, fun _ => matches_fail _, matches_fail _, fun _ => matches_fail _,
        matches_fail _, matches_fail _, matches_fail _, matches_fail _⟩
  | succ fuel ih =>
      refine ⟨ih.product.bind ih.sumTail, fun left => matches_token.bind fun t => ?_,
        ih.factor.bind ih.productTail, fun left => matches_token.bind fun t => ?_,
        (matches_accept _).bind fun _ => .ite (ih.factor.bind fun _ => .pure _) ih.primary,
        ih.matches_primary,
        (matches_accept _).bind fun _ => .ite (.pure _) (matches_items ih.argument ih.arguments),
        (matches_accept _).bind fun _ => .ite (.pure _) ih.sum⟩
      · split
        · exact matches_advance.bind fun _ => ih.product.bind fun _ => ih.sumTail _
        · exact .pure _
      · split
        · exact matches_advance.bind fun _ => ih.factor.bind fun _ => ih.productTail _
        · exact .pure _

theorem matches_sumFrom (fuel : Nat) (first : Expr) : Matches (sumFrom fuel first) (sumFrom fuel first) :=
  ((expressionsMatch fuel).productTail first).bind (expressionsMatch fuel).sumTail

theorem matches_listItems (fuel : Nat) : Matches (listItems fuel) (listItems fuel) := by
  induction fuel with
  | zero => exact matches_fail _
  | succ fuel ih =>
      exact (matches_accept _).bind fun _ => .ite (.pure _) (matches_items (expressionsMatch fuel).sum ih)

theorem matches_expression : Matches expression expression :=
  .get fun _ _ h => by
    rw [h.fuel]
    exact (expressionsMatch _).sum

/-! ## Predicates -/

theorem matches_rightSide (fuel : Nat) (op : CompareOp) : Matches (rightSide fuel op) (rightSide fuel op) :=
  (matches_isAt _).bind fun _ => .ite
    (matches_advance.bind fun _ => (matches_listItems fuel).bind fun _ => .pure _)
    (expressionsMatch fuel).sum

theorem matches_comparisonFrom (fuel : Nat) (left : Expr) :
    Matches (comparisonFrom fuel left) (comparisonFrom fuel left) := by
  refine matches_token.bind fun t => ?_
  split
  · exact matches_advance.bind fun _ => (matches_rightSide fuel _).bind fun _ => .pure _
  · exact .pure _

theorem matches_asPredicate : (t : PredicateOrExpr) → Matches (asPredicate t) (asPredicate t)
  | .predicate _ => .pure _
  | .expr _ => matches_fail _

/-- The readers of predicates match themselves with some number of steps. -/
structure PredicatesMatch (fuel : Nat) : Prop where
  chain : Matches (chain fuel) (chain fuel)
  chainTail : ∀ left, Matches (chainTail fuel left) (chainTail fuel left)
  term : Matches (term fuel) (term fuel)

theorem PredicatesMatch.matches_term {fuel : Nat} (h : PredicatesMatch fuel) :
    Matches (Reader.term (fuel + 1)) (Reader.term (fuel + 1)) := by
  refine (matches_accept _).bind fun _ => .ite ?_ ?_
  · refine h.chain.bind fun inner => (matches_expect _).bind fun _ => ?_
    split
    · exact .pure _
    · exact (matches_sumFrom fuel _).bind (matches_comparisonFrom fuel)
  · exact matches_token.bind fun t => .ite (matches_fail _)
      ((expressionsMatch fuel).sum.bind (matches_comparisonFrom fuel))

/-- The induction is on the steps that the readers may take. -/
theorem predicatesMatch (fuel : Nat) : PredicatesMatch fuel := by
  induction fuel with
  | zero => exact ⟨matches_fail _, fun _ => matches_fail _, matches_fail _⟩
  | succ fuel ih =>
      refine ⟨ih.term.bind fun t => ?_, fun left => matches_token.bind fun t => ?_, ih.matches_term⟩
      · split
        · exact (ih.chainTail _).bind fun _ => .pure _
        · exact .pure _
      · split
        · exact matches_advance.bind fun _ => ih.term.bind fun t =>
            (matches_asPredicate t).bind fun _ => ih.chainTail _
        · exact .pure _

theorem matches_clausePredicate (clause : PredicateClause) :
    Matches (clausePredicate clause) (clausePredicate clause) := by
  refine .get fun c c' h => ?_
  rw [h.current, h.fuel]
  exact .ite (.throw (.emptyPredicate _ _ _)) ((predicatesMatch _).chain.bind matches_asPredicate)

theorem matches_condition : Matches condition condition :=
  (matches_clausePredicate _).bind fun _ => (matches_isAt _).bind fun _ =>
    .ite (.pure _) (matches_fail _)

/-! ## Queries -/

theorem matches_commaList {item : Reader α} (h : Matches item item) (fuel : Nat) :
    Matches (commaList item fuel) (commaList item fuel) := by
  induction fuel with
  | zero => exact h.bind fun _ => .pure _
  | succ fuel ih =>
      exact h.bind fun _ => (matches_accept _).bind fun _ => .ite (ih.bind fun _ => .pure _) (.pure _)

theorem matches_commaSeparated {item : Reader α} (h : Matches item item) :
    Matches (commaSeparated item) (commaSeparated item) :=
  .get fun _ _ hc => by
    rw [hc.length_rest]
    exact matches_commaList h _

theorem matches_columnAlias : Matches columnAlias columnAlias :=
  (matches_accept _).bind fun _ => .ite ((matches_name _).bind fun _ => .pure _) (.pure _)

theorem matches_selectField : Matches selectField selectField :=
  (matches_accept _).bind fun _ => .ite (.pure _)
    (matches_expression.bind fun _ => matches_columnAlias.bind fun _ => .pure _)

theorem matches_orderField : Matches orderField orderField :=
  matches_expression.bind fun _ => (matches_accept _).bind fun _ => .ite (.pure _)
    ((matches_accept _).bind fun _ => .ite (.pure _) (.pure _))

theorem matches_joinKind : Matches joinKind joinKind := by
  refine matches_token.bind fun t => ?_
  split
  · exact matches_advance.bind fun _ => .pure _
  · exact matches_advance.bind fun _ => (matches_expect _).bind fun _ => .pure _
  · exact matches_advance.bind fun _ => (matches_expect _).bind fun _ => .pure _
  · exact matches_advance.bind fun _ => (matches_expect _).bind fun _ => .pure _
  · exact .pure _

theorem matches_join (kind : JoinKind) (first : String) : Matches (join kind first) (join kind first) :=
  (matches_name _).bind fun _ => (matches_expect _).bind fun _ =>
    (matches_clausePredicate _).bind fun _ => .pure _

theorem matches_joins (first : String) (fuel : Nat) : Matches (joins first fuel) (joins first fuel) := by
  induction fuel with
  | zero => exact .pure _
  | succ fuel ih =>
      refine matches_joinKind.bind fun kind? => ?_
      split
      · exact (matches_join _ first).bind fun _ => ih.bind fun _ => .pure _
      · exact .pure _

theorem matches_count (clause : CountClause) : Matches (count clause) (count clause) := by
  refine .get fun c c' h => ?_
  have hinvalid : SyntaxError.Alike (.invalidNumber clause c.current.token.text c.current.position)
      (.invalidNumber clause c'.current.token.text c'.current.position) := by
    rw [h.current]
    exact .invalidNumber _ _ _ _
  simp only [h.current] at hinvalid ⊢
  split
  · split
    · exact .ite (matches_advance.bind fun _ => .pure _) (.throw hinvalid)
    · exact .throw hinvalid
  · exact .throw hinvalid

theorem matches_optional (opening : Keyword) (absent : α) {body : Reader α} (h : Matches body body) :
    Matches (optional opening absent body) (optional opening absent body) :=
  (matches_accept _).bind fun _ => .ite h (.pure _)

theorem matches_filterClause : Matches filterClause filterClause :=
  (matches_clausePredicate _).bind fun _ => .pure _

theorem matches_query : Matches query query := by
  refine (matches_expect _).bind fun _ => (matches_commaSeparated matches_selectField).bind fun fields =>
    (matches_expect _).bind fun _ => (matches_commaSeparated (matches_name _)).bind fun resources =>
    .get fun c c' h => ?_
  rw [h.length_rest]
  refine (matches_joins _ _).bind fun joins => (matches_optional _ _ matches_filterClause).bind fun filter =>
    (matches_optional _ _ ?_).bind fun groupBy => (matches_optional _ _ ?_).bind fun orderBy =>
    (matches_optional _ _ ?_).bind fun start => (matches_optional _ _ ?_).bind fun limit =>
    (matches_isAt _).bind fun _ => .ite (.get fun c c' h => ?_) (matches_fail _)
  · exact (matches_expect _).bind fun _ => matches_commaSeparated matches_expression
  · exact (matches_expect _).bind fun _ => matches_commaSeparated matches_orderField
  · exact (matches_count _).bind fun _ => .pure _
  · exact (matches_count _).bind fun _ => .pure _
  · rw [h.placeholders]
    exact .pure _

/-- Matching readers give results that are alike. -/
theorem Matches.runFrom {r r' : Reader α} (h : Matches r r') {c c' : Cursor} (hc : c.Alike c') :
    CompiledAlike (r.runFrom c).1 (r'.runFrom c').1 := by
  unfold Reader.runFrom
  obtain ⟨a, d, d', hr, hr', -⟩ | ⟨e, e', d, d', hr, hr', he⟩ := h c c' hc
  · rw [hr, hr']
    exact .ok a
  · rw [hr, hr']
    exact .error he

end Reader

/-! ## Texts -/

/-- The tokens of two texts are the same but for their places, so the readings start alike. -/
theorem Cursor.alike_ofTokens {text : String} {placed placed' : List PlacedToken}
    (h : tokenize text = .ok placed)
    (htokens : placed'.map PlacedToken.token = placed.map PlacedToken.token) :
    (ofTokens placed).Alike (ofTokens placed') := by
  obtain ⟨body, hbody, -⟩ := tokenize_ends h
  refine ⟨?_, ?_⟩
  · rw [tokens_ofTokens hbody, tokens_ofTokens (htokens.trans hbody), htokens]
  · rw [placeholders_ofTokens, placeholders_ofTokens]

/-- **Layout does not matter.** The lexemes of a text that is split into tokens, one for each token, may be
laid out anew, with any white space between them and around them: the tokens stay the same, and the text is
still compiled to the same query or predicate, or fails in the same way but for the place. -/
theorem layout_is_invisible {text text' : String} {placed : List PlacedToken}
    (h : tokenize text = .ok placed) (hlayout : Lexer.Layout (lexemes text) text'.toList) :
    (lexemes text).length + 1 = placed.length ∧
      (∃ placed', tokenize text' = .ok placed' ∧
        placed'.map PlacedToken.token = placed.map PlacedToken.token) ∧
      CompiledAlike (Query.compile text) (Query.compile text') ∧
      CompiledAlike (Predicate.compile text) (Predicate.compile text') := by
  obtain ⟨placed', h', htokens⟩ := tokenize_of_layout h hlayout
  have halike := Cursor.alike_ofTokens h htokens
  refine ⟨length_lexemes_of_tokenize h, ⟨placed', h', htokens⟩, ?_, ?_⟩
  · unfold Query.compile Cursor.ofText
    rw [h, h']
    exact Reader.matches_query.runFrom halike
  · unfold Predicate.compile Cursor.ofText
    rw [h, h']
    exact Reader.matches_condition.runFrom halike

/-- A sign and an operator that look the same, in a text without white space. -/
theorem layout_is_invisible_of_sign :
    (∃ placed, tokenize "a=-1-b" = .ok placed) ∧
      lexemes "a=-1-b" = [['a'], ['='], ['-', '1'], ['-'], ['b']] ∧
      CompiledAlike (Predicate.compile "a=-1-b") (Predicate.compile " a =\n-1 - b") := by
  have htokens : tokenize "a=-1-b" = .ok [⟨.identifier "a", ⟨0, 1, 1⟩⟩, ⟨.symbol .equal, ⟨1, 1, 2⟩⟩,
      ⟨.span "-1", ⟨2, 1, 3⟩⟩, ⟨.symbol .minus, ⟨4, 1, 5⟩⟩, ⟨.identifier "b", ⟨5, 1, 6⟩⟩,
      ⟨.endOfInput, ⟨6, 1, 7⟩⟩] := by
    rfl
  have hlexemes : lexemes "a=-1-b" = [['a'], ['='], ['-', '1'], ['-'], ['b']] := by
    rfl
  have hlayout : Lexer.Layout [['a'], ['='], ['-', '1'], ['-'], ['b']] " a =\n-1 - b".toList := by
    have hb : Lexer.Layout [['b']] ['b'] := .piece .nil (.inl rfl)
    have hminus : Lexer.Layout [['-'], ['b']] ['-', ' ', 'b'] :=
      .piece (.blank (by decide) hb) (.inr ⟨_, rfl, by decide⟩)
    have hone : Lexer.Layout [['-', '1'], ['-'], ['b']] ['-', '1', ' ', '-', ' ', 'b'] :=
      .piece (.blank (by decide) hminus) (.inr ⟨_, rfl, by decide⟩)
    have hequal := Lexer.Layout.piece (l := ['=']) (.blank (c := '\n') (by decide) hone)
      (.inr ⟨_, rfl, by decide⟩)
    have ha := Lexer.Layout.piece (l := ['a']) (.blank (c := ' ') (by decide) hequal)
      (.inr ⟨_, rfl, by decide⟩)
    exact .blank (by decide) ha
  exact ⟨⟨_, htokens⟩, hlexemes, (layout_is_invisible htokens (hlexemes ▸ hlayout)).2.2.2⟩

end RecordQuery
