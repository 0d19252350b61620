import RecordQuery.Proofs.Grammar.Steps
/-!
# How readers move

A reader passes tokens, and numbers one parameter for every question mark among them; and when it fails, the
error names the place of a token that was ahead when it started. Both hold of every reader, whether it
succeeds or fails (`Reader.Moves`), because they hold of the small ones and go through sequencing.

A question mark is passed and numbered in two steps, between which the number is behind. So a reader that
moves on says which token it moves over (`Reader.MovesAt`), and a question mark is moved over where it is
numbered and nowhere else.
-/

namespace RecordQuery

variable {α β : Type} {S : Position → Prop}

namespace Cursor

/-- The tokens ahead with their places, the current one first. -/
def placed (c : Cursor) : List PlacedToken :=
  c.current :: c.rest

/-- From `c` to `d` tokens were passed, and a parameter was numbered for every question mark among them. -/
def Leads (c d : Cursor) : Prop :=
  ∃ passed : List PlacedToken, c.placed = passed ++ d.placed ∧
    d.placeholders = c.placeholders + (passed.map PlacedToken.token).count .placeholder

/-- The end of the input is ahead of `c`, and all that is ahead is at places in `S`. -/
structure Within (S : Position → Prop) (c : Cursor) : Prop where
  ended : c.Ended
  places : ∀ t ∈ c.placed, S t.position

/-- What a reader from `c` may end with: a cursor that `c` leads to, and if it fails an error at a place in
`S`. -/
def Arrives (S : Position → Prop) (c : Cursor) : EStateM.Result SyntaxError Cursor α → Prop
  | .ok _ d => c.Leads d
  | .error e d => c.Leads d ∧ S e.position

variable {c d d' : Cursor}

namespace Leads

theorem refl (c : Cursor) : c.Leads c :=
  ⟨[], rfl, rfl⟩

theorem trans (h : c.Leads d) (h' : d.Leads d') : c.Leads d' := by
  obtain ⟨passed, hplaced, hcount⟩ := h
  obtain ⟨passed', hplaced', hcount'⟩ := h'
  refine ⟨passed ++ passed', ?_, ?_⟩
  · rw [hplaced, hplaced', List.append_assoc]
  · rw [hcount', hcount, List.map_append, List.count_append, Nat.add_assoc]

theorem within (h : c.Leads d) (hc : c.Within S) : d.Within S := by
  obtain ⟨passed, hplaced, hcount⟩ := h
  have hreads : c.Reads (passed.map PlacedToken.token)
      ((passed.map PlacedToken.token).count .placeholder) d := by
    refine ⟨?_, hcount⟩
    show c.placed.map PlacedToken.token = _ ++ d.placed.map PlacedToken.token
    rw [hplaced, List.map_append]
  refine ⟨hreads.ended hc.ended, fun t ht => hc.places t ?_⟩
  rw [hplaced]
  exact List.mem_append_right _ ht

theorem arrives (h : c.Leads d) {result : EStateM.Result SyntaxError Cursor α}
    (hd : d.Arrives S result) : c.Arrives S result := by
  cases result with
  | ok a e => exact h.trans hd
  | error e f => exact ⟨h.trans hd.1, hd.2⟩

end Leads

theorem Within.current (h : c.Within S) : S c.current.position :=
  h.places _ (List.mem_cons_self ..)

/-- Moving on passes the current token, or stays at the last. -/
theorem leads_next (h : c.current.token ≠ .placeholder) : c.Leads c.next := by
  obtain ⟨current, rest, n⟩ := c
  cases rest with
  | nil => exact .refl _
  | cons t rest =>
      refine ⟨[current], rfl, ?_⟩
      rw [List.map_singleton, List.count_singleton, if_neg (by simpa using h)]
      rfl

/-- A question mark is not the last token, so moving on passes it. -/
theorem leads_numbered (hc : c.Ended) (h : c.current.token = .placeholder) :
    c.Leads { c.next with placeholders := c.next.placeholders + 1 } := by
  have hlast := hc.current_of_rest
  obtain ⟨current, rest, n⟩ := c
  cases rest with
  | nil =>
      have hcurrent : current.token = .endOfInput := hlast rfl
      rw [show current.token = .placeholder from h] at hcurrent
      cases hcurrent
  | cons t rest =>
      refine ⟨[current], rfl, ?_⟩
      rw [List.map_singleton, show current.token = .placeholder from h]
      rfl

end Cursor

namespace Reader

/-- Wherever the end of the input is ahead and all places are in `S`, the reader arrives. -/
def Moves (S : Position → Prop) (r : Reader α) : Prop :=
  ∀ c : Cursor, c.Within S → c.Arrives S (r.run c)

/-- The same in front of the token `t`. -/
def MovesAt (S : Position → Prop) (t : Token) (r : Reader α) : Prop :=
  ∀ c : Cursor, c.Within S → c.current.token = t → c.Arrives S (r.run c)

/-- The same where the token `t` has just been taken out: nothing of that is left in the end. -/
def MovesTaken (S : Position → Prop) (t : Token) (r : Reader α) : Prop :=
  ∀ c : Cursor, c.Within S → c.current.token = t → c.Arrives S (r.run (c.withToken .endOfInput))

/-! ## Rules -/

namespace Moves

theorem inFront {r : Reader α} (h : Moves S r) {t : Token} : MovesAt S t r :=
  fun c hc _ => h c hc

theorem pure (a : α) : Moves S (pure a : Reader α) :=
  fun c _ => .refl c

theorem throw {e : SyntaxError} (he : S e.position) : Moves S (throw e : Reader α) :=
  fun c _ => ⟨.refl c, he⟩

theorem bind {r : Reader α} {f : α → Reader β} (h : Moves S r) (hf : ∀ a, Moves S (f a)) :
    Moves S (r >>= f) := by
  intro c hc
  have hr := h c hc
  rw [EStateM.run_bind]
  cases hrun : r.run c with
  | ok a d =>
      rw [hrun] at hr
      have hd : c.Leads d := hr
      exact hd.arrives (hf a d (hd.within hc))
  | error e d =>
      rw [hrun] at hr
      exact hr

theorem ite {p : Prop} [Decidable p] {r r' : Reader α} (h : Moves S r) (h' : Moves S r') :
    Moves S (if p then r else r') := by
  split
  · exact h
  · exact h'

/-- A reader that looks at the current token knows it. -/
theorem token {f : Token → Reader β} (h : ∀ t, MovesAt S t (f t)) : Moves S (Reader.token >>= f) :=
  fun c hc => h c.current.token c hc rfl

/-- So does one that takes the whole cursor. -/
theorem get {f : Cursor → Reader β}
    (h : ∀ c : Cursor, c.Within S → MovesAt S c.current.token (f c)) :
    Moves S (MonadState.get >>= f) :=
  fun c hc => h c hc c hc rfl

/-- And one that asks for a token, where that is the current one. -/
theorem isAt {t : Token} {f : Bool → Reader β} (h : MovesAt S t (f true)) (h' : Moves S (f false)) :
    Moves S (Reader.isAt t >>= f) := by
  intro c hc
  rw [run_bind_of_ok (run_isAt t c)]
  by_cases ht : c.current.token = t
  · rw [beq_iff_eq.mpr ht]
    exact h c hc ht
  · rw [beq_eq_false_iff_ne.mpr ht]
    exact h' c hc

end Moves

theorem MovesAt.ite {t : Token} {p : Prop} [Decidable p] {r r' : Reader α} (h : MovesAt S t r)
    (h' : MovesAt S t r') : MovesAt S t (if p then r else r') := by
  split
  · exact h
  · exact h'

/-- Any token but a question mark may be moved over. -/
theorem MovesAt.advance {t : Token} (ht : t ≠ .placeholder) {r : Reader α} (h : Moves S r) :
    MovesAt S t (Reader.advance >>= fun _ => r) := by
  rintro c hc rfl
  have hnext := Cursor.leads_next ht
  exact hnext.arrives (h c.next (hnext.within hc))

/-- So may operators, none of which is a question mark. -/
theorem MovesAt.operator {ω : Type} {operator? : Token → Option ω} {t : Token} {op : ω}
    (hop : operator? t = some op) (hnone : operator? .placeholder = none) {r : Reader α}
    (h : Moves S r) : MovesAt S t (Reader.advance >>= fun _ => r) := by
  refine .advance ?_ h
  rintro rfl
  rw [hnone] at hop
  cases hop

theorem MovesAt.placeholder : MovesAt S .placeholder (do
    Reader.advance
    return Expr.placeholder (← newPlaceholder) : Reader Expr) :=
  fun _ hc ht => Cursor.leads_numbered hc.ended ht

/-- A reader that takes the current token out knows it. -/
theorem Moves.takeToken {f : Token → Reader β} (h : ∀ t, MovesTaken S t (f t)) :
    Moves S (Reader.takeToken >>= f) :=
  fun c hc => h c.current.token c hc rfl

/-- It may move on, -/
theorem MovesTaken.advance {t : Token} {f : Unit → Reader β} (h : MovesAt S t (Reader.advance >>= f)) :
    MovesTaken S t (Reader.advance >>= f) := by
  intro c hc ht
  have harrives := h c hc ht
  rw [run_bind_of_ok (run_advance c)] at harrives
  rwa [run_bind_of_ok (run_advance_taken hc.ended)]

/-- or it puts the token back. -/
theorem MovesTaken.putBack {t : Token} {r : Reader β} (h : MovesAt S t r) :
    MovesTaken S t (Reader.putBack t >>= fun _ => r) := by
  rintro c hc rfl
  rw [run_bind_of_ok (run_putBack _ _), Cursor.withToken_withToken, Cursor.withToken_current]
  exact h c hc rfl

/-! ## Single tokens -/

theorem moves_fail (expected : Expected) : Moves S (fail expected : Reader α) :=
  fun c hc => ⟨.refl c, hc.current⟩

theorem moves_isAt (t : Token) : Moves S (isAt t) :=
  fun c _ => .refl c

theorem moves_accept {t : Token} (ht : t ≠ .placeholder) : Moves S (accept t) := by
  intro c hc
  rw [run_accept]
  split
  next heq => exact Cursor.leads_next (heq ▸ ht)
  next => exact .refl c

theorem moves_expect {t : Token} (ht : t ≠ .placeholder) : Moves S (expect t) :=
  (moves_accept ht).bind fun _ => .ite (.pure _) (moves_fail _)

theorem moves_name (expected : Expected) : Moves S (name expected) := by
  refine .takeToken fun t => ?_
  split
  · exact .advance (.advance (by nofun) (.pure _))
  · exact .putBack (moves_fail _).inFront

/-! ## Expressions -/

theorem moves_dottedNames (fuel : Nat) : Moves S (dottedNames fuel) := by
  induction fuel with
  | zero => exact moves_fail _
  | succ fuel ih =>
      exact (moves_accept (by nofun)).bind fun _ => .ite
        ((moves_name _).bind fun _ => ih.bind fun _ => .pure _) (.pure _)

theorem moves_coordinate : Moves S coordinate := by
  refine (moves_accept (by nofun)).bind fun _ => .token fun t => ?_
  split
  · exact .advance (by nofun) (.pure _)
  · exact (moves_fail _).inFront

/-- What is no point is at fault where the point starts. -/
theorem moves_point : Moves S point := by
  refine .get fun c hc => Moves.inFront ?_
  refine (moves_expect (by nofun)).bind fun _ => moves_coordinate.bind fun x =>
    moves_coordinate.bind fun y => (moves_expect (by nofun)).bind fun _ => ?_
  split
  · exact .pure _
  · exact .throw hc.current

/-- The readers of expressions move with some number of steps. -/
structure ExpressionsMove (S : Position → Prop) (fuel : Nat) : Prop where
  sum : Moves S (sum fuel)
  sumTail : ∀ left, Moves S (sumTail fuel left)
  product : Moves S (product fuel)
  productTail : ∀ left, Moves S (productTail fuel left)
  factor : Moves S (factor fuel)
  primary : Moves S (primary fuel)
  arguments : Moves S (arguments fuel)
  argument : Moves S (argument fuel)

theorem ExpressionsMove.moves_primary {fuel : Nat} (h : ExpressionsMove S fuel) :
    Moves S (Reader.primary (fuel + 1)) := by
  refine .takeToken fun t => ?_
  split
  · exact .advance (.advance (by nofun) (.pure _))
  · exact .advance (.advance (by nofun) (.pure _))
  · exact .advance (.advance (by nofun) (.pure _))
  · exact .advance .placeholder
  · exact .advance (.advance (by nofun) (h.sum.bind fun _ => (moves_expect (by nofun)).bind fun _ => .pure _))
  · -- a name in front of a parenthesis is called, and else it is a field
    refine .advance (.advance (by nofun) (.isAt ?_ ?_))
    · rw [if_pos rfl]
      exact .ite moves_point.inFront (.advance (by nofun) (h.arguments.bind fun _ => .pure _))
    · rw [if_neg Bool.false_ne_true]
      exact (moves_dottedNames _).bind fun _ => .pure _
  · exact .putBack (moves_fail _).inFront

/-- Items up to a closing parenthesis, with commas between. -/
theorem moves_items {item : Reader Expr} {items : Reader (List Expr)} (hitem : Moves S item)
    (hitems : Moves S items) :
    Moves S (do
        let first ← item
        if !(← isAt (.symbol .closeParen)) then expect (.symbol .comma)
        let others ← items
        return first :: others : Reader (List Expr)) := by
  refine hitem.bind fun first => (moves_isAt _).bind fun _ => .ite ?_ ?_
  · exact (moves_expect (by nofun)).bind fun _ => hitems.bind fun _ => .pure _
  · exact hitems.bind fun _ => .pure _

/-- The induction is on the steps that the readers may take. -/
theorem expressionsMove (fuel : Nat) : ExpressionsMove S fuel := by
  induction fuel with
  | zero =>
      exact ⟨moves_fail _, fun _ => moves_fail _, moves_fail _, fun _ => moves_fail _, moves_fail _,
        moves_fail _, moves_fail _, moves_fail _⟩
  | succ fuel ih =>
      refine ⟨ih.product.bind ih.sumTail, fun left => .token fun t => ?_,
        ih.factor.bind ih.productTail, fun left => .token fun t => ?_,
        (moves_accept (by nofun)).bind fun _ => .ite (ih.factor.bind fun _ => .pure _) ih.primary,
        ih.moves_primary,
        (moves_accept (by nofun)).bind fun _ => .ite (.pure _) (moves_items ih.argument ih.arguments),
        (moves_accept (by nofun)).bind fun _ => .ite (.pure _) ih.sum⟩
      · split
        next hop => exact .operator hop rfl (ih.product.bind fun _ => ih.sumTail _)
        next => exact (Moves.pure _).inFront
      · split
        next hop => exact .operator hop rfl (ih.factor.bind fun _ => ih.productTail _)
        next => exact (Moves.pure _).inFront

theorem moves_sumFrom (fuel : Nat) (first : Expr) : Moves S (sumFrom fuel first) :=
  ((expressionsMove fuel).productTail first).bind (expressionsMove fuel).sumTail

theorem moves_listItems (fuel : Nat) : Moves S (listItems fuel) := by
  induction fuel with
  | zero => exact moves_fail _
  | succ fuel ih =>
      exact (moves_accept (by nofun)).bind fun _ =>
        .ite (.pure _) (moves_items (expressionsMove fuel).sum ih)

theorem moves_expression : Moves S expression :=
  .get fun _ _ => (expressionsMove _).sum.inFront

/-! ## Predicates -/

theorem moves_rightSide (fuel : Nat) (op : CompareOp) : Moves S (rightSide fuel op) := by
  refine .isAt (.ite ?_ (expressionsMove fuel).sum.inFront) ?_
  · exact .advance (by nofun) ((moves_listItems fuel).bind fun _ => .pure _)
  · rw [Bool.and_false, if_neg Bool.false_ne_true]
    exact (expressionsMove fuel).sum

theorem moves_comparisonFrom (fuel : Nat) (left : Expr) : Moves S (comparisonFrom fuel left) := by
  refine .token fun t => ?_
  split
  next hop => exact .operator hop rfl ((moves_rightSide fuel _).bind fun _ => .pure _)
  next => exact (Moves.pure _).inFront

theorem moves_asPredicate : (t : PredicateOrExpr) → Moves S (asPredicate t)
  | .predicate _ => .pure _
  | .expr _ => moves_fail _

/-- The readers of predicates move with some number of steps. -/
structure PredicatesMove (S : Position → Prop) (fuel : Nat) : Prop where
  chain : Moves S (chain fuel)
  chainTail : ∀ left, Moves S (chainTail fuel left)
  term : Moves S (term fuel)

theorem PredicatesMove.moves_term {fuel : Nat} (h : PredicatesMove S fuel) :
    Moves S (Reader.term (fuel + 1)) := by
  refine (moves_accept (by nofun)).bind fun _ => .ite ?_ ?_
  · refine h.chain.bind fun inner => (moves_expect (by nofun)).bind fun _ => ?_
    split
    · exact .pure _
    · exact (moves_sumFrom fuel _).bind (moves_comparisonFrom fuel)
  · refine .token fun t => Moves.inFront (.ite (moves_fail _) ?_)
    exact (expressionsMove fuel).sum.bind (moves_comparisonFrom fuel)

/-- The induction is on the steps that the readers may take. -/
theorem predicatesMove (fuel : Nat) : PredicatesMove S fuel := by
  induction fuel with
  | zero => exact ⟨moves_fail _, fun _ => moves_fail _, moves_fail _⟩
  | succ fuel ih =>
      refine ⟨ih.term.bind fun t => ?_, fun left => .token fun t => ?_, ih.moves_term⟩
      · split
        · exact (ih.chainTail _).bind fun _ => .pure _
        · exact .pure _
      · split
        next hop =>
          exact .operator hop rfl (ih.term.bind fun t => (moves_asPredicate t).bind fun _ => ih.chainTail _)
        next => exact (Moves.pure _).inFront

theorem moves_clausePredicate (clause : PredicateClause) : Moves S (clausePredicate clause) := by
  refine .get fun c hc => Moves.inFront (.ite (.throw hc.current) ?_)
  exact (predicatesMove _).chain.bind moves_asPredicate

theorem moves_condition : Moves S condition :=
  (moves_clausePredicate _).bind fun _ => (moves_isAt _).bind fun _ => .ite (.pure _) (moves_fail _)

/-! ## Queries -/

theorem moves_commaList {item : Reader α} (h : Moves S item) (fuel : Nat) :
    Moves S (commaList item fuel) := by
  induction fuel with
  | zero => exact h.bind fun _ => .pure _
  | succ fuel ih =>
      exact h.bind fun _ => (moves_accept (by nofun)).bind fun _ =>
        .ite (ih.bind fun _ => .pure _) (.pure _)

theorem moves_commaSeparated {item : Reader α} (h : Moves S item) : Moves S (commaSeparated item) :=
  .get fun _ _ => (moves_commaList h _).inFront

theorem moves_columnAlias : Moves S columnAlias :=
  (moves_accept (by nofun)).bind fun _ => .ite ((moves_name _).bind fun _ => .pure _) (.pure _)

theorem moves_selectField : Moves S selectField :=
  (moves_accept (by nofun)).bind fun _ => .ite (.pure _)
    (moves_expression.bind fun _ => moves_columnAlias.bind fun _ => .pure _)

theorem moves_orderField : Moves S orderField :=
  moves_expression.bind fun _ => (moves_accept (by nofun)).bind fun _ => .ite (.pure _)
    ((moves_accept (by nofun)).bind fun _ => .ite (.pure _) (.pure _))

theorem moves_joinKind : Moves S joinKind := by
  refine .token fun t => ?_
  split
  · exact .advance (by nofun) (.pure _)
  · exact .advance (by nofun) ((moves_expect (by nofun)).bind fun _ => .pure _)
  · exact .advance (by nofun) ((moves_expect (by nofun)).bind fun _ => .pure _)
  · exact .advance (by nofun) ((moves_expect (by nofun)).bind fun _ => .pure _)
  · exact (Moves.pure _).inFront

theorem moves_join (kind : JoinKind) (first : String) : Moves S (join kind first) :=
  (moves_name _).bind fun _ => (moves_expect (by nofun)).bind fun _ =>
    (moves_clausePredicate _).bind fun _ => .pure _

theorem moves_joins (first : String) (fuel : Nat) : Moves S (joins first fuel) := by
  induction fuel with
  | zero => exact .pure _
  | succ fuel ih =>
      refine moves_joinKind.bind fun kind? => ?_
      split
      · exact (moves_join _ first).bind fun _ => ih.bind fun _ => .pure _
      · exact .pure _

/-- What is no number of rows is at fault where it stands. -/
theorem moves_count (clause : CountClause) : Moves S (count clause) := by
  refine .get fun c hc => ?_
  have hinvalid : Moves S (throw (.invalidNumber clause c.current.token.text c.current.position) :
      Reader Nat) := .throw hc.current
  dsimp only
  split
  next raw hspan =>
    split
    next =>
      have ht : c.current.token ≠ .placeholder := by
        rw [hspan]
        nofun
      exact .ite (.advance ht (.pure _)) hinvalid.inFront
    next => exact hinvalid.inFront
  next => exact hinvalid.inFront

theorem moves_optional (opening : Keyword) (absent : α) {body : Reader α} (h : Moves S body) :
    Moves S (optional opening absent body) :=
  (moves_accept (by nofun)).bind fun _ => .ite h (.pure _)

theorem moves_filterClause : Moves S filterClause :=
  (moves_clausePredicate _).bind fun _ => .pure _

theorem moves_query : Moves S query := by
  refine (moves_expect (by nofun)).bind fun _ => (moves_commaSeparated moves_selectField).bind fun fields =>
    (moves_expect (by nofun)).bind fun _ => (moves_commaSeparated (moves_name _)).bind fun resources =>
    .get fun c _ => Moves.inFront ?_
  refine (moves_joins _ _).bind fun joins => (moves_optional _ _ moves_filterClause).bind fun filter =>
    (moves_optional _ _ ?_).bind fun groupBy => (moves_optional _ _ ?_).bind fun orderBy =>
    (moves_optional _ _ ?_).bind fun start => (moves_optional _ _ ?_).bind fun limit =>
    (moves_isAt _).bind fun _ => .ite (.get fun c _ => (Moves.pure _).inFront) (moves_fail _)
  · exact (moves_expect (by nofun)).bind fun _ => moves_commaSeparated moves_expression
  · exact (moves_expect (by nofun)).bind fun _ => moves_commaSeparated moves_orderField
  · exact (moves_count _).bind fun _ => .pure _
  · exact (moves_count _).bind fun _ => .pure _

end Reader

end RecordQuery
