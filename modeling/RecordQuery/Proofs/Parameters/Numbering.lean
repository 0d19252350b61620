import RecordQuery.Proofs.Parameters.Occurrences
import RecordQuery.Proofs.Grammar.Exactness
/-!
# The numbering of parameters

Reading a text numbers its parameters from zero on, each by its place among the question marks. For
expressions and predicates this is seen in the grammar: the meaning of a derivation with `n` parameters
in front of it has the parameters from `n` on, one for every question mark among its tokens, and folding
keeps them.

A query is read clause by clause, and `Cursor.Numbers c is c'` is what every reader keeps: from `c` to
`c'` tokens were taken, one parameter was numbered for every question mark among them, and `is` are these
numbers.
-/

namespace RecordQuery

/-! ## Derivations -/

namespace Grammar

mutual

/-- The expression of a sum has the parameters from `n` on, as many as there are in the sum. -/
theorem Sum.parameters_expr (n : Nat) : (s : Sum) →
    (s.expr n).parameters = List.range' n s.placeholders
  | .mk first tail => by
      rw [Sum.expr, tail.parameters_expr, first.parameters_expr n, List.range'_append_1,
        Sum.placeholders]

theorem SumTail.parameters_expr (n : Nat) (left : Expr) : (t : SumTail) →
    (t.expr n left).parameters = left.parameters ++ List.range' n t.placeholders
  | .done => by simp [SumTail.expr, SumTail.placeholders]
  | .more op right tail => by
      rw [SumTail.expr, tail.parameters_expr, Expr.parameters, right.parameters_expr n,
        List.append_assoc, List.range'_append_1, SumTail.placeholders]

theorem Product.parameters_expr (n : Nat) : (p : Product) →
    (p.expr n).parameters = List.range' n p.placeholders
  | .mk first tail => by
      rw [Product.expr, tail.parameters_expr, first.parameters_expr n, List.range'_append_1,
        Product.placeholders]

theorem ProductTail.parameters_expr (n : Nat) (left : Expr) : (t : ProductTail) →
    (t.expr n left).parameters = left.parameters ++ List.range' n t.placeholders
  | .done => by simp [ProductTail.expr, ProductTail.placeholders]
  | .more op right tail => by
      rw [ProductTail.expr, tail.parameters_expr, Expr.parameters, right.parameters_expr n,
        List.append_assoc, List.range'_append_1, ProductTail.placeholders]

theorem Factor.parameters_expr (n : Nat) : (f : Factor) →
    (f.expr n).parameters = List.range' n f.placeholders
  | .negated operand => by
      rw [Factor.expr, Expr.parameters, operand.parameters_expr n, Factor.placeholders]
      rfl
  | .primary p => by rw [Factor.expr, p.parameters_expr n, Factor.placeholders]

theorem Primary.parameters_expr (n : Nat) : (p : Primary) →
    (p.expr n).parameters = List.range' n p.placeholders
  | .span _ => rfl
  | .quoted _ => rfl
  | .null => rfl
  | .placeholder => rfl
  | .group inner => by rw [Primary.expr, inner.parameters_expr n, Primary.placeholders]
  | .field _ _ => rfl
  | .call _ _ args => by
      rw [Primary.expr, Expr.parameters, args.parameters_exprs n, Primary.placeholders]
  | .point .. => rfl

theorem Arguments.parameters_exprs (n : Nat) : (a : Arguments) →
    Expr.parametersOfAll (a.exprs n) = List.range' n a.placeholders
  | .done => rfl
  | .last a => by
      rw [Arguments.exprs, Expr.parametersOfAll, Expr.parametersOfAll, a.parameters_expr n,
        List.append_nil, Arguments.placeholders]
  | .more a rest => by
      rw [Arguments.exprs, Expr.parametersOfAll, a.parameters_expr n, rest.parameters_exprs,
        List.range'_append_1, Arguments.placeholders]

theorem Argument.parameters_expr (n : Nat) : (a : Argument) →
    (a.expr n).parameters = List.range' n a.placeholders
  | .star => rfl
  | .sum s => by rw [Argument.expr, s.parameters_expr n, Argument.placeholders]

end

theorem Items.parameters_exprs (n : Nat) (i : Items) :
    Expr.parametersOfAll (i.exprs n) = List.range' n i.placeholders := by
  induction i generalizing n with
  | done => rfl
  | last s =>
      rw [Items.exprs, Expr.parametersOfAll, Expr.parametersOfAll, s.parameters_expr n,
        List.append_nil, Items.placeholders]
  | more s rest ih =>
      rw [Items.exprs, Expr.parametersOfAll, s.parameters_expr n, ih, List.range'_append_1,
        Items.placeholders]

mutual

/-- The predicate that is written has the parameters from `n` on. -/
theorem Chain.parameters_written (n : Nat) : (c : Chain) →
    (c.written n).parameters = List.range' n c.placeholders
  | .mk first tail => by
      rw [Chain.written, tail.parameters_written, first.parameters_written n, List.range'_append_1,
        Chain.placeholders]

theorem ChainTail.parameters_written (n : Nat) (left : Predicate) : (t : ChainTail) →
    (t.written n left).parameters = left.parameters ++ List.range' n t.placeholders
  | .done => by simp [ChainTail.written, ChainTail.placeholders]
  | .more op right tail => by
      rw [ChainTail.written, tail.parameters_written, Predicate.parameters_logic,
        right.parameters_written n, List.append_assoc, List.range'_append_1, ChainTail.placeholders]

theorem Term.parameters_written (n : Nat) : (t : Term) →
    (t.written n).parameters = List.range' n t.placeholders
  | .group inner => by rw [Term.written, inner.parameters_written n, Term.placeholders]
  | .compare left _ right _ => by
      rw [Term.written, Predicate.parameters_comparison, Comparison.parameters,
        left.parameters_expr n, right.parameters_expr, List.range'_append_1, Term.placeholders]
  | .isIn left items => by
      rw [Term.written, Predicate.parameters_comparison, Comparison.parameters,
        left.parameters_expr n, Expr.parameters, items.parameters_exprs, List.range'_append_1,
        Term.placeholders]

end

/-! ## Question marks -/

@[simp]
theorem count_dotted (names : List String) : (dotted names).count .placeholder = 0 := by
  induction names with
  | nil => rfl
  | cons name rest ih => simp [dotted, ih]

@[simp]
theorem Coordinate.count_tokens (x : Coordinate) : x.tokens.count .placeholder = 0 := by
  unfold Coordinate.tokens
  split <;> simp

@[simp]
theorem SumOp.token_ne_placeholder (o : SumOp) : o.token ≠ .placeholder := by
  cases o <;> exact Token.noConfusion

@[simp]
theorem ProductOp.token_ne_placeholder (o : ProductOp) : o.token ≠ .placeholder := by
  cases o <;> exact Token.noConfusion

@[simp]
theorem operatorToken_ne_placeholder (op : CompareOp) : operatorToken op ≠ .placeholder := by
  cases op <;> exact Token.noConfusion

@[simp]
theorem connectiveToken_ne_placeholder (op : LogicOp) : connectiveToken op ≠ .placeholder := by
  cases op <;> exact Token.noConfusion

mutual

/-- The parameters of a sum are the question marks among its tokens. -/
theorem Sum.count_tokens : (s : Sum) → s.tokens.count .placeholder = s.placeholders
  | .mk first tail => by
      rw [Sum.tokens, List.count_append, first.count_tokens, tail.count_tokens, Sum.placeholders]

theorem SumTail.count_tokens : (t : SumTail) → t.tokens.count .placeholder = t.placeholders
  | .done => rfl
  | .more op right tail => by
      rw [SumTail.tokens, List.count_cons_of_ne op.token_ne_placeholder, List.count_append,
        right.count_tokens, tail.count_tokens, SumTail.placeholders]

theorem Product.count_tokens : (p : Product) → p.tokens.count .placeholder = p.placeholders
  | .mk first tail => by
      rw [Product.tokens, List.count_append, first.count_tokens, tail.count_tokens,
        Product.placeholders]

theorem ProductTail.count_tokens : (t : ProductTail) → t.tokens.count .placeholder = t.placeholders
  | .done => rfl
  | .more op right tail => by
      rw [ProductTail.tokens, List.count_cons_of_ne op.token_ne_placeholder, List.count_append,
        right.count_tokens, tail.count_tokens, ProductTail.placeholders]

theorem Factor.count_tokens : (f : Factor) → f.tokens.count .placeholder = f.placeholders
  | .negated operand => by simp [Factor.tokens, Factor.placeholders, operand.count_tokens]
  | .primary p => by rw [Factor.tokens, Factor.placeholders, p.count_tokens]

theorem Primary.count_tokens : (p : Primary) → p.tokens.count .placeholder = p.placeholders
  | .span _ => by simp [Primary.tokens, Primary.placeholders]
  | .quoted _ => by simp [Primary.tokens, Primary.placeholders]
  | .null => by simp [Primary.tokens, Primary.placeholders]
  | .placeholder => by simp [Primary.tokens, Primary.placeholders]
  | .group inner => by simp [Primary.tokens, Primary.placeholders, inner.count_tokens]
  | .field _ _ => by simp [Primary.tokens, Primary.placeholders]
  | .call _ _ args => by simp [Primary.tokens, Primary.placeholders, args.count_tokens]
  | .point .. => by simp [Primary.tokens, Primary.placeholders]

theorem Arguments.count_tokens : (a : Arguments) → a.tokens.count .placeholder = a.placeholders
  | .done => rfl
  | .last a => by rw [Arguments.tokens, Arguments.placeholders, a.count_tokens]
  | .more a rest => by
      simp [Arguments.tokens, Arguments.placeholders, a.count_tokens, rest.count_tokens]

theorem Argument.count_tokens : (a : Argument) → a.tokens.count .placeholder = a.placeholders
  | .star => by simp [Argument.tokens, Argument.placeholders]
  | .sum s => by rw [Argument.tokens, Argument.placeholders, s.count_tokens]

end

theorem Items.count_tokens (i : Items) : i.tokens.count .placeholder = i.placeholders := by
  induction i with
  | done => rfl
  | last s => rw [Items.tokens, Items.placeholders, s.count_tokens]
  | more s rest ih => simp [Items.tokens, Items.placeholders, s.count_tokens, ih]

mutual

/-- The parameters of a chain are the question marks among its tokens. -/
theorem Chain.count_tokens : (c : Chain) → c.tokens.count .placeholder = c.placeholders
  | .mk first tail => by
      rw [Chain.tokens, List.count_append, first.count_tokens, tail.count_tokens, Chain.placeholders]

theorem ChainTail.count_tokens : (t : ChainTail) → t.tokens.count .placeholder = t.placeholders
  | .done => rfl
  | .more op right tail => by
      rw [ChainTail.tokens, List.count_cons_of_ne (connectiveToken_ne_placeholder op),
        List.count_append, right.count_tokens, tail.count_tokens, ChainTail.placeholders]

theorem Term.count_tokens : (t : Term) → t.tokens.count .placeholder = t.placeholders
  | .group inner => by simp [Term.tokens, Term.placeholders, inner.count_tokens]
  | .compare left op right _ => by
      rw [Term.tokens, List.count_append, List.count_cons_of_ne (operatorToken_ne_placeholder op),
        left.count_tokens, right.count_tokens, Term.placeholders]
  | .isIn left items => by
      simp [Term.tokens, Term.placeholders, left.count_tokens, items.count_tokens]

end

end Grammar

/-! ## Readers -/

/-- `t.isPlain` holds for every token but a question mark and the end of the input. -/
def Token.isPlain : Token → Bool
  | .placeholder => false
  | .endOfInput => false
  | _ => true

theorem Token.ne_of_isPlain {t : Token} (h : t.isPlain = true) : t ≠ .placeholder ∧ t ≠ .endOfInput := by
  constructor
  · rintro rfl
    cases h
  · rintro rfl
    cases h

namespace Cursor

/-- From `c` to `c'` tokens were taken, and the parameters among them were numbered `is`, from the next
number on. -/
def Numbers (c : Cursor) (is : List Nat) (c' : Cursor) : Prop :=
  ∃ ts, c.Reads ts (ts.count .placeholder) c' ∧
    is = List.range' c.placeholders (ts.count .placeholder)

namespace Numbers

variable {c c' c'' : Cursor} {is js : List Nat}

theorem refl (c : Cursor) : c.Numbers [] c :=
  ⟨[], Reads.refl c, rfl⟩

theorem trans (h : c.Numbers is c') (h' : c'.Numbers js c'') : c.Numbers (is ++ js) c'' := by
  obtain ⟨ts, hreads, rfl⟩ := h
  obtain ⟨us, hreads', rfl⟩ := h'
  refine ⟨ts ++ us, ?_, ?_⟩
  · rw [List.count_append]
    exact hreads.trans hreads'
  · rw [List.count_append, hreads.2, List.range'_append_1]

theorem ended (h : c.Numbers is c') (hc : c.Ended) : c'.Ended := by
  obtain ⟨ts, hreads, -⟩ := h
  exact hreads.ended hc

/-- A token that is neither a question mark nor the end. -/
theorem token {t : Token} (hc : c.Ended) (hcurrent : c.current.token = t) (ht : t.isPlain = true) :
    c.Numbers [] c.next := by
  obtain ⟨hmark, hend⟩ := Token.ne_of_isPlain ht
  have hcount : [t].count .placeholder = 0 := by
    rw [List.count_cons_of_ne hmark, List.count_nil]
  refine ⟨[t], ?_, ?_⟩
  · rw [hcount]
    exact hc.reads_token hcurrent hend
  · rw [hcount]
    rfl

end Numbers

end Cursor

namespace Reader

open Grammar Cursor

variable {α : Type}

/-- Whatever the reader gives has the parameters that were numbered while it was read. -/
def Numbering (m : Reader α) (parameters : α → List Nat) : Prop :=
  ∀ {c c' : Cursor} {a : α}, c.Ended → m.run c = .ok a c' → c.Numbers (parameters a) c'

theorem expression_numbering : Numbering expression Expr.parameters := by
  intro c c' e hc h
  unfold expression at h
  obtain ⟨_, _, hget, h₁⟩ := run_bind_ok.mp h
  cases hget
  obtain ⟨s, hreads, rfl⟩ := sum_sound c.fuel hc h₁
  refine ⟨s.tokens, ?_, ?_⟩
  · rw [s.count_tokens]
    exact hreads
  · rw [s.count_tokens, s.parameters_expr]

theorem clausePredicate_numbering (clause : PredicateClause) :
    Numbering (clausePredicate clause) Predicate.parameters := by
  intro c c' p hc h
  obtain ⟨d, hreads, rfl⟩ := clausePredicate_sound hc h
  refine ⟨d.tokens, ?_, ?_⟩
  · rw [d.count_tokens]
    exact hreads
  · rw [d.count_tokens, Predicate.parameters_fold, d.parameters_written]

theorem expect_numbers {t : Token} (ht : t.isPlain = true) {c c' : Cursor} {u : Unit} (hc : c.Ended)
    (h : (expect t).run c = .ok u c') : c.Numbers [] c' := by
  obtain ⟨hcurrent, rfl⟩ := run_expect_ok.mp h
  exact .token hc hcurrent ht

theorem accept_numbers {t : Token} (ht : t.isPlain = true) {c c' : Cursor} {b : Bool} (hc : c.Ended)
    (h : (accept t).run c = .ok b c') : c.Numbers [] c' := by
  rw [run_accept] at h
  split at h
  next hcurrent =>
    cases h
    exact .token hc hcurrent ht
  next =>
    cases h
    exact .refl c

theorem name_numbering (expected : Expected) : Numbering (name expected) fun _ => [] := by
  intro c c' word hc h
  obtain ⟨hcurrent, rfl⟩ := (run_name_ok hc).mp h
  exact .token hc hcurrent rfl

theorem columnAlias_numbering : Numbering columnAlias fun _ => [] := by
  intro c c' a hc h
  unfold columnAlias at h
  obtain ⟨named, c₁, haccept, h₁⟩ := run_bind_ok.mp h
  have n₁ := accept_numbers rfl hc haccept
  cases named with
  | true =>
      rw [if_pos rfl] at h₁
      obtain ⟨word, c₂, hword, h₂⟩ := run_bind_ok.mp h₁
      obtain ⟨rfl, rfl⟩ := run_pure_ok.mp h₂
      exact n₁.trans (name_numbering _ (n₁.ended hc) hword)
  | false =>
      rw [if_neg Bool.false_ne_true] at h₁
      obtain ⟨rfl, rfl⟩ := run_pure_ok.mp h₁
      exact n₁

theorem selectField_numbering : Numbering selectField fun f => f.expr.parameters := by
  intro c c' f hc h
  unfold selectField at h
  obtain ⟨star, c₁, haccept, h₁⟩ := run_bind_ok.mp h
  have n₁ := accept_numbers rfl hc haccept
  cases star with
  | true =>
      rw [if_pos rfl] at h₁
      obtain ⟨rfl, rfl⟩ := run_pure_ok.mp h₁
      exact n₁
  | false =>
      rw [if_neg Bool.false_ne_true] at h₁
      obtain ⟨e, c₂, he, h₂⟩ := run_bind_ok.mp h₁
      obtain ⟨name?, c₃, hname, h₃⟩ := run_bind_ok.mp h₂
      obtain ⟨rfl, rfl⟩ := run_pure_ok.mp h₃
      have n₂ := n₁.trans (expression_numbering (n₁.ended hc) he)
      have n₃ := n₂.trans (columnAlias_numbering (n₂.ended hc) hname)
      rwa [List.append_nil] at n₃

theorem orderField_numbering : Numbering orderField fun f => f.expr.parameters := by
  intro c c' f hc h
  unfold orderField at h
  obtain ⟨e, c₁, he, h₁⟩ := run_bind_ok.mp h
  obtain ⟨descending, c₂, hdesc, h₂⟩ := run_bind_ok.mp h₁
  have n₁ := expression_numbering hc he
  have n₂ := n₁.trans (accept_numbers rfl (n₁.ended hc) hdesc)
  cases descending with
  | true =>
      rw [if_pos rfl] at h₂
      obtain ⟨rfl, rfl⟩ := run_pure_ok.mp h₂
      rwa [List.append_nil] at n₂
  | false =>
      rw [if_neg Bool.false_ne_true] at h₂
      obtain ⟨ascending, c₃, hasc, h₃⟩ := run_bind_ok.mp h₂
      have n₃ := n₂.trans (accept_numbers rfl (n₂.ended hc) hasc)
      rw [List.append_nil, List.append_nil] at n₃
      -- the word changes nothing
      cases ascending with
      | true =>
          rw [if_pos rfl] at h₃
          obtain ⟨rfl, rfl⟩ := run_pure_ok.mp h₃
          exact n₃
      | false =>
          rw [if_neg Bool.false_ne_true] at h₃
          obtain ⟨rfl, rfl⟩ := run_pure_ok.mp h₃
          exact n₃

/-- The items of a list have their parameters one after the other. The induction is on the steps that
the reader may take. -/
theorem commaList_numbering {item : Reader α} {parameters : α → List Nat}
    (hitem : Numbering item parameters) (fuel : Nat) :
    Numbering (commaList item fuel) fun as => as.flatMap parameters := by
  induction fuel with
  | zero =>
      intro c c' as hc h
      rw [commaList] at h
      obtain ⟨a, c₁, ha, h₁⟩ := run_bind_ok.mp h
      obtain ⟨rfl, rfl⟩ := run_pure_ok.mp h₁
      simpa using hitem hc ha
  | succ fuel ih =>
      intro c c' as hc h
      rw [commaList] at h
      obtain ⟨a, c₁, ha, h₁⟩ := run_bind_ok.mp h
      obtain ⟨comma, c₂, hcomma, h₂⟩ := run_bind_ok.mp h₁
      have n₁ := hitem hc ha
      have n₂ := n₁.trans (accept_numbers rfl (n₁.ended hc) hcomma)
      rw [List.append_nil] at n₂
      cases comma with
      | true =>
          rw [if_pos rfl] at h₂
          obtain ⟨others, c₃, hothers, h₃⟩ := run_bind_ok.mp h₂
          obtain ⟨rfl, rfl⟩ := run_pure_ok.mp h₃
          have n₃ := n₂.trans (ih (n₂.ended hc) hothers)
          rwa [← List.flatMap_cons] at n₃
      | false =>
          rw [if_neg Bool.false_ne_true] at h₂
          obtain ⟨rfl, rfl⟩ := run_pure_ok.mp h₂
          simpa using n₂

theorem commaSeparated_numbering {item : Reader α} {parameters : α → List Nat}
    (hitem : Numbering item parameters) :
    Numbering (commaSeparated item) fun as => as.flatMap parameters := by
  intro c c' as hc h
  unfold commaSeparated at h
  obtain ⟨_, _, hget, h₁⟩ := run_bind_ok.mp h
  cases hget
  exact commaList_numbering hitem _ hc h₁

theorem optional_numbering {opening : Keyword} {absent : α} {body : Reader α}
    {parameters : α → List Nat} (habsent : parameters absent = []) (hbody : Numbering body parameters) :
    Numbering (optional opening absent body) parameters := by
  intro c c' a hc h
  unfold optional at h
  obtain ⟨opened, c₁, haccept, h₁⟩ := run_bind_ok.mp h
  have n₁ := accept_numbers rfl hc haccept
  cases opened with
  | true =>
      rw [if_pos rfl] at h₁
      exact n₁.trans (hbody (n₁.ended hc) h₁)
  | false =>
      rw [if_neg Bool.false_ne_true] at h₁
      obtain ⟨rfl, rfl⟩ := run_pure_ok.mp h₁
      rw [habsent]
      exact n₁

/-- A list behind `BY`. -/
theorem by_numbering {m : Reader α} {parameters : α → List Nat} (hm : Numbering m parameters) :
    Numbering (do expect (.keyword .BY); m) parameters := by
  intro c c' a hc h
  obtain ⟨_, c₁, hby, h₁⟩ := run_bind_ok.mp h
  have n₁ := expect_numbers rfl hc hby
  exact n₁.trans (hm (n₁.ended hc) h₁)

theorem count_numbering (clause : CountClause) :
    Numbering (do return some (← count clause)) fun _ => [] := by
  intro c c' n? hc h
  obtain ⟨n, c₁, hcount, h₁⟩ := run_bind_ok.mp h
  obtain ⟨rfl, rfl⟩ := run_pure_ok.mp h₁
  obtain ⟨raw, hcurrent, -, -, rfl⟩ := run_count_ok.mp hcount
  exact .token hc hcurrent rfl

/-- A condition that always holds is dropped, which takes no parameter with it. -/
theorem filterClause_numbering :
    Numbering filterClause fun filter => (filter.getD .always).parameters := by
  intro c c' filter hc h
  unfold filterClause at h
  obtain ⟨p, c₁, hp, h₁⟩ := run_bind_ok.mp h
  obtain ⟨rfl, rfl⟩ := run_pure_ok.mp h₁
  have n₁ := clausePredicate_numbering .filter hc hp
  split
  next halways =>
    rwa [Predicate.parameters_of_isAlways halways] at n₁
  next => exact n₁

theorem joinKind_numbering : Numbering joinKind fun _ => [] := by
  intro c c' kind? hc h
  have hjoin : ∀ {k : Keyword} {kind : JoinKind}, c.current.token = .keyword k →
      (do advance; expect (.keyword .JOIN); return some kind : Reader (Option JoinKind)).run c =
        .ok kind? c' → c.Numbers [] c' := by
    intro k kind hk h
    rw [run_bind_of_ok (run_advance c)] at h
    obtain ⟨_, c₁, hexpect, h₁⟩ := run_bind_ok.mp h
    obtain ⟨rfl, rfl⟩ := run_pure_ok.mp h₁
    have n₁ := Numbers.token hc hk rfl
    exact n₁.trans (expect_numbers rfl (n₁.ended hc) hexpect)
  unfold joinKind at h
  rw [run_bind_of_ok (run_token c)] at h
  split at h
  next hk =>
    rw [run_bind_of_ok (run_advance c)] at h
    obtain ⟨rfl, rfl⟩ := run_pure_ok.mp h
    exact .token hc hk rfl
  next hk => exact hjoin hk h
  next hk => exact hjoin hk h
  next hk => exact hjoin hk h
  next =>
    obtain ⟨rfl, rfl⟩ := run_pure_ok.mp h
    exact .refl c

theorem join_numbering (kind : JoinKind) (first : String) :
    Numbering (join kind first) fun j => j.condition.parameters := by
  intro c c' j hc h
  unfold join at h
  obtain ⟨resource, c₁, hresource, h₁⟩ := run_bind_ok.mp h
  obtain ⟨_, c₂, hon, h₂⟩ := run_bind_ok.mp h₁
  obtain ⟨condition, c₃, hcondition, h₃⟩ := run_bind_ok.mp h₂
  obtain ⟨rfl, rfl⟩ := run_pure_ok.mp h₃
  have n₁ := name_numbering _ hc hresource
  have n₂ := n₁.trans (expect_numbers rfl (n₁.ended hc) hon)
  exact n₂.trans (clausePredicate_numbering .join (n₂.ended hc) hcondition)

/-- The induction is on the steps that the reader may take. -/
theorem joins_numbering (first : String) (fuel : Nat) :
    Numbering (joins first fuel) fun js => js.flatMap fun j => j.condition.parameters := by
  induction fuel with
  | zero =>
      intro c c' js hc h
      rw [joins] at h
      obtain ⟨rfl, rfl⟩ := run_pure_ok.mp h
      exact .refl c
  | succ fuel ih =>
      intro c c' js hc h
      rw [joins] at h
      obtain ⟨kind?, c₁, hkind, h₁⟩ := run_bind_ok.mp h
      have n₁ := joinKind_numbering hc hkind
      cases kind? with
      | none =>
          obtain ⟨rfl, rfl⟩ := run_pure_ok.mp h₁
          exact n₁
      | some kind =>
          obtain ⟨j, c₂, hj, h₂⟩ := run_bind_ok.mp h₁
          obtain ⟨others, c₃, hothers, h₃⟩ := run_bind_ok.mp h₂
          obtain ⟨rfl, rfl⟩ := run_pure_ok.mp h₃
          have n₂ := n₁.trans (join_numbering kind first (n₁.ended hc) hj)
          exact n₂.trans (ih (n₂.ended hc) hothers)

/-! ## The whole query -/

/-- The clauses of a query that is read, one behind the other, up to the end of the input. -/
theorem query_ok {c c' : Cursor} {q : Query} (h : query.run c = .ok q c') :
    ∃ c₁ c₂ c₃ c₄ c₅ c₆ c₇ c₈ c₉,
      (expect (.keyword .SELECT)).run c = .ok () c₁ ∧
      (commaSeparated selectField).run c₁ = .ok q.fields c₂ ∧
      (expect (.keyword .FROM)).run c₂ = .ok () c₃ ∧
      (commaSeparated (name .resourceName)).run c₃ = .ok q.resources c₄ ∧
      (joins (q.resources.headD "") c₄.rest.length).run c₄ = .ok q.joins c₅ ∧
      (optional .WHERE none filterClause).run c₅ = .ok q.filter? c₆ ∧
      (optional .GROUP [] (do expect (.keyword .BY); commaSeparated expression)).run c₆ =
        .ok q.groupBy c₇ ∧
      (optional .ORDER [] (do expect (.keyword .BY); commaSeparated orderField)).run c₇ =
        .ok q.orderBy c₈ ∧
      (optional .START none (return some (← count .start))).run c₈ = .ok q.start? c₉ ∧
      (optional .LIMIT none (return some (← count .limit))).run c₉ = .ok q.limit? c' ∧
      q.placeholders = c'.placeholders ∧ c'.current.token = .endOfInput := by
  unfold query at h
  obtain ⟨_, c₁, hselect, h⟩ := run_bind_ok.mp h
  obtain ⟨fields, c₂, hfields, h⟩ := run_bind_ok.mp h
  obtain ⟨_, c₃, hfrom, h⟩ := run_bind_ok.mp h
  obtain ⟨resources, c₄, hresources, h⟩ := run_bind_ok.mp h
  obtain ⟨_, _, hget, h⟩ := run_bind_ok.mp h
  cases hget
  obtain ⟨joins, c₅, hjoins, h⟩ := run_bind_ok.mp h
  obtain ⟨filter, c₆, hfilter, h⟩ := run_bind_ok.mp h
  obtain ⟨groupBy, c₇, hgroup, h⟩ := run_bind_ok.mp h
  obtain ⟨orderBy, c₈, horder, h⟩ := run_bind_ok.mp h
  obtain ⟨start, c₉, hstart, h⟩ := run_bind_ok.mp h
  obtain ⟨limit, c₁₀, hlimit, h⟩ := run_bind_ok.mp h
  rw [run_bind_of_ok (run_isAt _ c₁₀)] at h
  by_cases hend : c₁₀.current.token = .endOfInput
  · rw [if_pos (beq_iff_eq.mpr hend)] at h
    obtain ⟨_, _, hget, h⟩ := run_bind_ok.mp h
    cases hget
    obtain ⟨rfl, rfl⟩ := run_pure_ok.mp h
    exact ⟨c₁, c₂, c₃, c₄, c₅, c₆, c₇, c₈, c₉, hselect, hfields, hfrom, hresources, hjoins, hfilter,
      hgroup, horder, hstart, hlimit, rfl, hend⟩
  · rw [if_neg (by rwa [beq_iff_eq])] at h
    cases h

/-- A query that is read has the parameters that were numbered, it counts them, and nothing but the end
of the input is left. -/
theorem query_numbers {c c' : Cursor} {q : Query} (hc : c.Ended) (h : query.run c = .ok q c') :
    c.Numbers q.parameters c' ∧ q.placeholders = c'.placeholders ∧
      c'.current.token = .endOfInput := by
  obtain ⟨c₁, c₂, c₃, c₄, c₅, c₆, c₇, c₈, c₉, hselect, hfields, hfrom, hresources, hjoins, hfilter,
    hgroup, horder, hstart, hlimit, hcount, hend⟩ := query_ok h
  -- from the first clause to the last: each goes on numbering where the one before it stopped
  have n₁ := expect_numbers rfl hc hselect
  have n₂ := n₁.trans (commaSeparated_numbering selectField_numbering (n₁.ended hc) hfields)
  have n₃ := n₂.trans (expect_numbers rfl (n₂.ended hc) hfrom)
  have n₄ := n₃.trans (commaSeparated_numbering (name_numbering _) (n₃.ended hc) hresources)
  have n₅ := n₄.trans (joins_numbering _ _ (n₄.ended hc) hjoins)
  have n₆ := n₅.trans (optional_numbering rfl filterClause_numbering (n₅.ended hc) hfilter)
  have n₇ := n₆.trans (optional_numbering rfl
    (by_numbering (commaSeparated_numbering expression_numbering)) (n₆.ended hc) hgroup)
  have n₈ := n₇.trans (optional_numbering rfl
    (by_numbering (commaSeparated_numbering orderField_numbering)) (n₇.ended hc) horder)
  have n₉ := n₈.trans (optional_numbering rfl (count_numbering .start) (n₈.ended hc) hstart)
  have n₁₀ := n₉.trans (optional_numbering rfl (count_numbering .limit) (n₉.ended hc) hlimit)
  have hnames : (q.resources.flatMap fun _ => ([] : List Nat)) = [] :=
    List.flatMap_eq_nil_iff.mpr fun _ _ => rfl
  refine ⟨?_, hcount, hend⟩
  simpa [Query.parameters, Query.predicate, List.append_assoc, hnames] using n₁₀

end Reader

namespace Query

open Reader

/-- The parameters of a compiled query are numbered by the question marks among its tokens, and these
are what it counts. -/
theorem exists_numbering_of_compile {text : String} {q : Query} (h : compile text = .ok q) :
    ∃ placed, tokenize text = .ok placed ∧
      (placed.map PlacedToken.token).count .placeholder = q.placeholders ∧
      q.parameters = List.range' 0 q.placeholders := by
  obtain ⟨placed, c', htokenize, hrun⟩ := exists_tokens_of_compile h
  obtain ⟨body, hbody, hlast⟩ := tokenize_ends htokenize
  have htokens := Cursor.tokens_ofTokens hbody
  have hnone := Cursor.placeholders_ofTokens placed
  refine ⟨placed, htokenize, ?_⟩
  rw [← htokens]
  generalize Cursor.ofTokens placed = c at htokens hnone hrun
  obtain ⟨⟨ts, hreads, hparameters⟩, hcount, hend⟩ := query_numbers ⟨body, htokens.trans hbody⟩ hrun
  -- all tokens were taken but the end of the input, which is no question mark
  have hall := hreads.1
  rw [tokens_at_end (htokens.trans hbody) hlast hreads hend] at hall
  have hplaceholders : q.placeholders = ts.count .placeholder := by
    rw [hcount, hreads.2, hnone, Nat.zero_add]
  refine ⟨?_, ?_⟩
  · rw [hall, hplaceholders, List.count_append]
    rfl
  · rw [hparameters, hnone, hplaceholders]

/-- The parameters that a compiled query asks for are those below the number it counts. -/
theorem parameters_of_compile {text : String} {q : Query} (h : compile text = .ok q) :
    q.parameters = List.range q.placeholders := by
  obtain ⟨_, -, -, hparameters⟩ := exists_numbering_of_compile h
  rw [hparameters, List.range_eq_range']

/-- **Numbering.** From the select list to the order, and each expression from left to right, the
parameters of a compiled query are `0, 1, …, n - 1`, where `n` is the number that the query counts, and
the number of question marks in its text. -/
theorem compile_numbers_parameters {text : String} {q : Query} (h : compile text = .ok q) :
    q.parameters = List.range q.placeholders ∧
      ∃ placed, tokenize text = .ok placed ∧
        (placed.map PlacedToken.token).count .placeholder = q.placeholders := by
  obtain ⟨placed, htokenize, hcount, -⟩ := exists_numbering_of_compile h
  exact ⟨parameters_of_compile h, placed, htokenize, hcount⟩

/-- A query whose conditions are folded: a comparison of constants is dropped in front of one with a
parameter, and the whole condition of a join is one of constants. -/
theorem compile_numbers_parameters_of_folded :
    ∃ q, compile "SELECT concat(a.x, ?) FROM a JOIN b ON 1 = 1 JOIN c ON a.x = ?
        WHERE (1 < 2 AND (a.y IN (?, 3, ?))) GROUP BY a.x + ? ORDER BY ? * a.x DESC" = .ok q ∧
      q.parameters = [0, 1, 2, 3, 4, 5] ∧ q.placeholders = 6 := by
  have hcheck : (match compile "SELECT concat(a.x, ?) FROM a JOIN b ON 1 = 1 JOIN c ON a.x = ?
        WHERE (1 < 2 AND (a.y IN (?, 3, ?))) GROUP BY a.x + ? ORDER BY ? * a.x DESC" with
      | .ok q => decide (q.placeholders = 6)
      | .error _ => false) = true := by decide +kernel
  split at hcheck
  next q hq =>
    have hcount := of_decide_eq_true hcheck
    obtain ⟨hparameters, -⟩ := compile_numbers_parameters hq
    rw [hcount] at hparameters
    exact ⟨q, hq, hparameters, hcount⟩
  next => cases hcheck

end Query

end RecordQuery
