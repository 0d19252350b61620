import RecordQuery.Proofs.Grammar.Basic
/-!
# The grammar is unambiguous

A list of tokens has at most one derivation, and more: two derivations of one kind that stand in front
of a text agree, with what is behind them, as long as nothing behind them could continue them. `Stops
p r` is that condition: `r` starts with a token that `p` does not hold of.

The one place that needs thought is the parenthesis that may open a predicate or an operand. A chain
in parentheses has a connective or an operator where a sum in parentheses has the closing parenthesis
(`Chain.ne_sum`), however many parentheses stand around both.
-/

namespace RecordQuery.Grammar

/-- `Stops p r` holds when `r` starts with a token that `p` does not hold of. -/
def Stops (p : Token → Bool) (r : List Token) : Prop :=
  ∃ t ts, r = t :: ts ∧ p t = false

/-- The tokens that continue a primary. -/
def extendsPrimary : Token → Bool
  | .symbol .dot => true
  | .symbol .openParen => true
  | _ => false

/-- The tokens that continue a product. -/
def extendsProduct : Token → Bool
  | .symbol .star => true
  | .symbol .slash => true
  | t => extendsPrimary t

/-- The tokens that continue a sum. -/
def extendsSum : Token → Bool
  | .symbol .plus => true
  | .symbol .minus => true
  | t => extendsProduct t

/-- The tokens that continue a chain. -/
def extendsChain : Token → Bool
  | .keyword .AND => true
  | .keyword .OR => true
  | t => extendsSum t

/-- The tokens that a sum may start with. -/
def startsSum : Token → Bool
  | .symbol .minus => true
  | .symbol .openParen => true
  | .span _ => true
  | .quoted _ => true
  | .keyword .NULL => true
  | .placeholder => true
  | .identifier _ => true
  | _ => false

theorem Stops.mono {p q : Token → Bool} {r : List Token} (h : Stops p r)
    (hpq : ∀ t, p t = false → q t = false) : Stops q r := by
  obtain ⟨t, ts, rfl, ht⟩ := h
  exact ⟨t, ts, rfl, hpq t ht⟩

theorem Stops.ne_nil {p : Token → Bool} {r : List Token} (h : Stops p r) : r ≠ [] := by
  obtain ⟨t, ts, rfl, -⟩ := h
  exact List.cons_ne_nil t ts

/-- Where something stops there is no token that continues it. -/
theorem Stops.ne_cons {p : Token → Bool} {r ts : List Token} {t : Token} (h : Stops p r)
    (ht : p t = true) : r ≠ t :: ts := by
  rintro rfl
  obtain ⟨t', ts', heq, ht'⟩ := h
  rw [← (List.cons.inj heq).1, ht] at ht'
  cases ht'

theorem stops_cons {p : Token → Bool} {t : Token} {ts : List Token} :
    Stops p (t :: ts) ↔ p t = false := by
  constructor
  · rintro ⟨t', ts', h, ht⟩
    cases h
    exact ht
  · exact fun h => ⟨t, ts, rfl, h⟩

theorem extendsPrimary_of_product (t : Token) (h : extendsProduct t = false) :
    extendsPrimary t = false := by
  unfold extendsProduct at h
  split at h
  · cases h
  · cases h
  · exact h

theorem extendsProduct_of_sum (t : Token) (h : extendsSum t = false) :
    extendsProduct t = false := by
  unfold extendsSum at h
  split at h
  · cases h
  · cases h
  · exact h

theorem extendsSum_of_chain (t : Token) (h : extendsChain t = false) : extendsSum t = false := by
  unfold extendsChain at h
  split at h
  · cases h
  · cases h
  · exact h

/-! ## What derivations start with -/

theorem Primary.tokens_eq_cons (p : Primary) :
    ∃ t ts, p.tokens = t :: ts ∧ startsSum t = true ∧ t ≠ .symbol .minus := by
  cases p with
  | span raw => exact ⟨_, _, rfl, rfl, Token.noConfusion⟩
  | quoted content => exact ⟨_, _, rfl, rfl, Token.noConfusion⟩
  | null => exact ⟨_, _, rfl, rfl, Token.noConfusion⟩
  | placeholder => exact ⟨_, _, rfl, rfl, Token.noConfusion⟩
  | group inner => exact ⟨_, _, rfl, rfl, by decide⟩
  | field first others => exact ⟨_, _, rfl, rfl, Token.noConfusion⟩
  | call name hname args => exact ⟨_, _, rfl, rfl, Token.noConfusion⟩
  | point word hword x y p hp => exact ⟨_, _, rfl, rfl, Token.noConfusion⟩

theorem Factor.tokens_eq_cons (f : Factor) :
    ∃ t ts, f.tokens = t :: ts ∧ startsSum t = true := by
  cases f with
  | negated operand => exact ⟨_, _, rfl, rfl⟩
  | primary p =>
      obtain ⟨t, ts, h, ht, -⟩ := p.tokens_eq_cons
      exact ⟨t, ts, h, ht⟩

theorem Sum.tokens_eq_cons (s : Sum) : ∃ t ts, s.tokens = t :: ts ∧ startsSum t = true := by
  obtain ⟨⟨f, pt⟩, st⟩ := s
  obtain ⟨t, ts, h, ht⟩ := f.tokens_eq_cons
  exact ⟨t, ts ++ pt.tokens ++ st.tokens, by simp [Sum.tokens, Product.tokens, h], ht⟩

theorem Factor.length_tokens_pos (f : Factor) : 0 < f.tokens.length := by
  obtain ⟨t, ts, h, -⟩ := f.tokens_eq_cons
  rw [h]
  exact Nat.succ_pos _

theorem Product.length_tokens_pos (p : Product) : 0 < p.tokens.length := by
  obtain ⟨f, t⟩ := p
  rw [Product.tokens, List.length_append]
  exact Nat.add_pos_left f.length_tokens_pos _

theorem Sum.length_tokens_pos (s : Sum) : 0 < s.tokens.length := by
  obtain ⟨p, t⟩ := s
  rw [Sum.tokens, List.length_append]
  exact Nat.add_pos_left p.length_tokens_pos _

theorem Argument.length_tokens_pos (a : Argument) : 0 < a.tokens.length := by
  cases a with
  | star => exact Nat.succ_pos _
  | sum s => exact s.length_tokens_pos

theorem Sum.tokens_ne_close {r ts : List Token} (s : Sum) :
    s.tokens ++ r ≠ .symbol .closeParen :: ts := by
  intro h
  obtain ⟨t, us, hs, ht⟩ := s.tokens_eq_cons
  rw [hs] at h
  rw [(List.cons.inj h).1] at ht
  cases ht

theorem Argument.tokens_ne_close {r ts : List Token} (a : Argument) :
    a.tokens ++ r ≠ .symbol .closeParen :: ts := by
  cases a with
  | star => exact fun h => by cases (List.cons.inj h).1
  | sum s => exact s.tokens_ne_close

theorem ProductTail.stops {r : List Token} (t : ProductTail) (h : Stops extendsProduct r) :
    Stops extendsPrimary (t.tokens ++ r) := by
  cases t with
  | done => exact h.mono extendsPrimary_of_product
  | more op right tail => exact ⟨op.token, _, rfl, by cases op <;> rfl⟩

theorem SumTail.stops {r : List Token} (t : SumTail) (h : Stops extendsSum r) :
    Stops extendsProduct (t.tokens ++ r) := by
  cases t with
  | done => exact h.mono extendsProduct_of_sum
  | more op right tail => exact ⟨op.token, _, rfl, by cases op <;> rfl⟩

theorem ChainTail.stops {r : List Token} (t : ChainTail) (h : Stops extendsChain r) :
    Stops extendsSum (t.tokens ++ r) := by
  cases t with
  | done => exact h.mono extendsSum_of_chain
  | more op right tail => exact ⟨connectiveToken op, _, rfl, by cases op <;> rfl⟩

/-! ## Names and coordinates -/

theorem dotted_unique {names names' : List String} {r r' : List Token}
    (h : dotted names ++ r = dotted names' ++ r') (hr : Stops extendsPrimary r)
    (hr' : Stops extendsPrimary r') : names = names' ∧ r = r' := by
  induction names generalizing names' with
  | nil =>
      cases names' with
      | nil => exact ⟨rfl, h⟩
      | cons name' rest' => exact absurd h (hr.ne_cons rfl)
  | cons name rest ih =>
      cases names' with
      | nil => exact absurd h.symm (hr'.ne_cons rfl)
      | cons name' rest' =>
          simp only [dotted, List.cons_append, List.cons.injEq, true_and,
            Token.identifier.injEq] at h
          obtain ⟨rfl, hrest⟩ := h
          obtain ⟨rfl, rfl⟩ := ih hrest
          exact ⟨rfl, rfl⟩

/-- No name behind a dot looks like the start of a call. -/
theorem dotted_ne_open {names : List String} {r ts : List Token} (hr : Stops extendsPrimary r) :
    dotted names ++ r ≠ .symbol .openParen :: ts := by
  cases names with
  | nil => exact hr.ne_cons rfl
  | cons name rest =>
      intro h
      cases (List.cons.inj h).1

theorem Coordinate.unique {x x' : Coordinate} {r r' : List Token}
    (h : x.tokens ++ r = x'.tokens ++ r') : x = x' ∧ r = r' := by
  obtain ⟨negative, raw⟩ := x
  obtain ⟨negative', raw'⟩ := x'
  cases negative <;> cases negative' <;> simp [tokens] at h
  · obtain ⟨rfl, rfl⟩ := h
    exact ⟨rfl, rfl⟩
  · obtain ⟨rfl, rfl⟩ := h
    exact ⟨rfl, rfl⟩

/-! ## Expressions -/

theorem SumOp.token_inj {o o' : SumOp} (h : o.token = o'.token) : o = o' := by
  cases o <;> cases o' <;> first | rfl | cases h

theorem ProductOp.token_inj {o o' : ProductOp} (h : o.token = o'.token) : o = o' := by
  cases o <;> cases o' <;> first | rfl | cases h

theorem SumOp.extends_token (o : SumOp) : extendsSum o.token = true := by
  cases o <;> rfl

theorem ProductOp.extends_token (o : ProductOp) : extendsProduct o.token = true := by
  cases o <;> rfl

mutual

/-- Two sums in front of texts that continue neither are the same sum. -/
theorem Sum.unique : (s s' : Sum) → {r r' : List Token} → s.tokens ++ r = s'.tokens ++ r' →
    Stops extendsSum r → Stops extendsSum r' → s = s' ∧ r = r'
  | .mk p t, .mk p' t', r, r', h, hr, hr' => by
      rw [Sum.tokens, Sum.tokens, List.append_assoc, List.append_assoc] at h
      obtain ⟨rfl, htail⟩ := Product.unique p p' h (t.stops hr) (t'.stops hr')
      obtain ⟨rfl, rfl⟩ := SumTail.unique t t' htail hr hr'
      exact ⟨rfl, rfl⟩

theorem SumTail.unique : (t t' : SumTail) → {r r' : List Token} →
    t.tokens ++ r = t'.tokens ++ r' → Stops extendsSum r → Stops extendsSum r' → t = t' ∧ r = r'
  | .done, .done, r, r', h, hr, hr' => ⟨rfl, h⟩
  | .done, .more op p t, r, r', h, hr, hr' => absurd h (hr.ne_cons op.extends_token)
  | .more op p t, .done, r, r', h, hr, hr' => absurd h.symm (hr'.ne_cons op.extends_token)
  | .more op p t, .more op' p' t', r, r', h, hr, hr' => by
      simp only [SumTail.tokens, List.cons_append, List.append_assoc, List.cons.injEq] at h
      obtain ⟨hop, h₁⟩ := h
      obtain rfl := SumOp.token_inj hop
      obtain ⟨rfl, htail⟩ := Product.unique p p' h₁ (t.stops hr) (t'.stops hr')
      obtain ⟨rfl, rfl⟩ := SumTail.unique t t' htail hr hr'
      exact ⟨rfl, rfl⟩

theorem Product.unique : (p p' : Product) → {r r' : List Token} →
    p.tokens ++ r = p'.tokens ++ r' → Stops extendsProduct r → Stops extendsProduct r' →
      p = p' ∧ r = r'
  | .mk f t, .mk f' t', r, r', h, hr, hr' => by
      rw [Product.tokens, Product.tokens, List.append_assoc, List.append_assoc] at h
      obtain ⟨rfl, htail⟩ := Factor.unique f f' h (t.stops hr) (t'.stops hr')
      obtain ⟨rfl, rfl⟩ := ProductTail.unique t t' htail hr hr'
      exact ⟨rfl, rfl⟩

theorem ProductTail.unique : (t t' : ProductTail) → {r r' : List Token} →
    t.tokens ++ r = t'.tokens ++ r' → Stops extendsProduct r → Stops extendsProduct r' →
      t = t' ∧ r = r'
  | .done, .done, r, r', h, hr, hr' => ⟨rfl, h⟩
  | .done, .more op f t, r, r', h, hr, hr' => absurd h (hr.ne_cons op.extends_token)
  | .more op f t, .done, r, r', h, hr, hr' => absurd h.symm (hr'.ne_cons op.extends_token)
  | .more op f t, .more op' f' t', r, r', h, hr, hr' => by
      simp only [ProductTail.tokens, List.cons_append, List.append_assoc, List.cons.injEq] at h
      obtain ⟨hop, h₁⟩ := h
      obtain rfl := ProductOp.token_inj hop
      obtain ⟨rfl, htail⟩ := Factor.unique f f' h₁ (t.stops hr) (t'.stops hr')
      obtain ⟨rfl, rfl⟩ := ProductTail.unique t t' htail hr hr'
      exact ⟨rfl, rfl⟩

theorem Factor.unique : (f f' : Factor) → {r r' : List Token} →
    f.tokens ++ r = f'.tokens ++ r' → Stops extendsPrimary r → Stops extendsPrimary r' →
      f = f' ∧ r = r'
  | .negated f, .negated f', r, r', h, hr, hr' => by
      obtain ⟨rfl, rfl⟩ := Factor.unique f f' (List.cons.inj h).2 hr hr'
      exact ⟨rfl, rfl⟩
  | .negated f, .primary p, r, r', h, hr, hr' => by
      obtain ⟨t, ts, hp, -, ht⟩ := p.tokens_eq_cons
      rw [Factor.tokens, Factor.tokens, hp] at h
      exact absurd (List.cons.inj h).1.symm ht
  | .primary p, .negated f, r, r', h, hr, hr' => by
      obtain ⟨t, ts, hp, -, ht⟩ := p.tokens_eq_cons
      rw [Factor.tokens, Factor.tokens, hp] at h
      exact absurd (List.cons.inj h).1 ht
  | .primary p, .primary p', r, r', h, hr, hr' => by
      obtain ⟨rfl, rfl⟩ := Primary.unique p p' h hr hr'
      exact ⟨rfl, rfl⟩

theorem Primary.unique : (p p' : Primary) → {r r' : List Token} →
    p.tokens ++ r = p'.tokens ++ r' → Stops extendsPrimary r → Stops extendsPrimary r' →
      p = p' ∧ r = r'
  | .span raw, p', r, r', h, hr, hr' => by
      cases p' <;> simp [Primary.tokens] at h
      obtain ⟨rfl, rfl⟩ := h
      exact ⟨rfl, rfl⟩
  | .quoted content, p', r, r', h, hr, hr' => by
      cases p' <;> simp [Primary.tokens] at h
      obtain ⟨rfl, rfl⟩ := h
      exact ⟨rfl, rfl⟩
  | .null, p', r, r', h, hr, hr' => by
      cases p' <;> simp [Primary.tokens] at h
      exact ⟨rfl, h⟩
  | .placeholder, p', r, r', h, hr, hr' => by
      cases p' <;> simp [Primary.tokens] at h
      exact ⟨rfl, h⟩
  | .group s, p', r, r', h, hr, hr' => by
      cases p' <;> simp [Primary.tokens] at h
      next s' =>
        obtain ⟨rfl, hclose⟩ := Sum.unique s s' h (stops_cons.mpr rfl) (stops_cons.mpr rfl)
        exact ⟨rfl, (List.cons.inj hclose).2⟩
  | .field first others, p', r, r', h, hr, hr' => by
      cases p' <;> simp [Primary.tokens] at h
      next first' others' =>
        obtain ⟨rfl, hothers⟩ := h
        obtain ⟨rfl, rfl⟩ := dotted_unique hothers hr hr'
        exact ⟨rfl, rfl⟩
      -- a call and a point have a parenthesis behind the name, which no field goes on with
      next => exact absurd h.2 (dotted_ne_open hr)
      next => exact absurd h.2 (dotted_ne_open hr)
  | .call name hname args, p', r, r', h, hr, hr' => by
      cases p' <;> simp [Primary.tokens] at h
      next => exact absurd h.2.symm (dotted_ne_open hr')
      next name' hname' args' =>
        obtain ⟨rfl, hargs⟩ := h
        obtain ⟨rfl, rfl⟩ := Arguments.unique args args' hargs
        exact ⟨rfl, rfl⟩
      -- the word decides between a call and a point
      next word hword x y p hp =>
        rw [h.1, hword] at hname
        cases hname
  | .point word hword x y p hp, p', r, r', h, hr, hr' => by
      cases p' <;> simp [Primary.tokens] at h
      next => exact absurd h.2.symm (dotted_ne_open hr')
      next name' hname' args' =>
        rw [h.1, hname'] at hword
        cases hword
      next word' hword' x' y' p' hp' =>
        obtain ⟨rfl, hxy⟩ := h
        obtain ⟨rfl, hy⟩ := Coordinate.unique hxy
        obtain ⟨rfl, hclose⟩ := Coordinate.unique hy
        -- the coordinates are the same text, so they are the same point
        obtain rfl := Literal.point.inj (hp.symm.trans hp')
        exact ⟨rfl, (List.cons.inj hclose).2⟩

theorem Arguments.unique : (a a' : Arguments) → {r r' : List Token} →
    a.tokens ++ .symbol .closeParen :: r = a'.tokens ++ .symbol .closeParen :: r' →
      a = a' ∧ r = r'
  | .done, .done, r, r', h => ⟨rfl, (List.cons.inj h).2⟩
  | .done, .last a, r, r', h => absurd h.symm a.tokens_ne_close
  | .done, .more a rest, r, r', h => by
      rw [Arguments.tokens, Arguments.tokens, List.append_assoc] at h
      exact absurd h.symm a.tokens_ne_close
  | .last a, .done, r, r', h => absurd h a.tokens_ne_close
  | .last a, .last a', r, r', h => by
      obtain ⟨rfl, hclose⟩ := Argument.unique a a' h (stops_cons.mpr rfl) (stops_cons.mpr rfl)
      exact ⟨rfl, (List.cons.inj hclose).2⟩
  -- one list has a comma where the other one is closed
  | .last a, .more a' rest, r, r', h => by
      rw [Arguments.tokens, Arguments.tokens, List.append_assoc] at h
      obtain ⟨-, hsep⟩ := Argument.unique a a' h (stops_cons.mpr rfl) (stops_cons.mpr rfl)
      cases (List.cons.inj hsep).1
  | .more a rest, .done, r, r', h => by
      rw [Arguments.tokens, Arguments.tokens, List.append_assoc] at h
      exact absurd h a.tokens_ne_close
  | .more a rest, .last a', r, r', h => by
      rw [Arguments.tokens, Arguments.tokens, List.append_assoc] at h
      obtain ⟨-, hsep⟩ := Argument.unique a a' h (stops_cons.mpr rfl) (stops_cons.mpr rfl)
      cases (List.cons.inj hsep).1
  | .more a rest, .more a' rest', r, r', h => by
      rw [Arguments.tokens, Arguments.tokens, List.append_assoc, List.append_assoc] at h
      obtain ⟨rfl, hsep⟩ := Argument.unique a a' h (stops_cons.mpr rfl) (stops_cons.mpr rfl)
      obtain ⟨rfl, rfl⟩ := Arguments.unique rest rest' (List.cons.inj hsep).2
      exact ⟨rfl, rfl⟩

theorem Argument.unique : (a a' : Argument) → {r r' : List Token} →
    a.tokens ++ r = a'.tokens ++ r' → Stops extendsSum r → Stops extendsSum r' →
      a = a' ∧ r = r'
  | .star, .star, r, r', h, hr, hr' => ⟨rfl, (List.cons.inj h).2⟩
  | .star, .sum s, r, r', h, hr, hr' => by
      obtain ⟨t, ts, hs, ht⟩ := s.tokens_eq_cons
      rw [Argument.tokens, Argument.tokens, hs] at h
      rw [← (List.cons.inj h).1] at ht
      cases ht
  | .sum s, .star, r, r', h, hr, hr' => by
      obtain ⟨t, ts, hs, ht⟩ := s.tokens_eq_cons
      rw [Argument.tokens, Argument.tokens, hs] at h
      rw [(List.cons.inj h).1] at ht
      cases ht
  | .sum s, .sum s', r, r', h, hr, hr' => by
      obtain ⟨rfl, rfl⟩ := Sum.unique s s' h hr hr'
      exact ⟨rfl, rfl⟩

end

theorem Items.unique {i i' : Items} {r r' : List Token}
    (h : i.tokens ++ .symbol .closeParen :: r = i'.tokens ++ .symbol .closeParen :: r') :
    i = i' ∧ r = r' := by
  induction i generalizing i' with
  | done =>
      cases i' with
      | done => exact ⟨rfl, (List.cons.inj h).2⟩
      | last s' => exact absurd h.symm s'.tokens_ne_close
      | more s' rest' =>
          rw [Items.tokens, Items.tokens, List.append_assoc] at h
          exact absurd h.symm s'.tokens_ne_close
  | last s =>
      cases i' with
      | done => exact absurd h s.tokens_ne_close
      | last s' =>
          obtain ⟨rfl, hclose⟩ := Sum.unique s s' h (stops_cons.mpr rfl) (stops_cons.mpr rfl)
          exact ⟨rfl, (List.cons.inj hclose).2⟩
      | more s' rest' =>
          rw [Items.tokens, Items.tokens, List.append_assoc] at h
          obtain ⟨-, hsep⟩ := Sum.unique s s' h (stops_cons.mpr rfl) (stops_cons.mpr rfl)
          cases (List.cons.inj hsep).1
  | more s rest ih =>
      rw [Items.tokens, List.append_assoc] at h
      cases i' with
      | done => exact absurd h s.tokens_ne_close
      | last s' =>
          obtain ⟨-, hsep⟩ := Sum.unique s s' h (stops_cons.mpr rfl) (stops_cons.mpr rfl)
          cases (List.cons.inj hsep).1
      | more s' rest' =>
          rw [Items.tokens, List.append_assoc] at h
          obtain ⟨rfl, hsep⟩ := Sum.unique s s' h (stops_cons.mpr rfl) (stops_cons.mpr rfl)
          obtain ⟨rfl, rfl⟩ := ih (List.cons.inj hsep).2
          exact ⟨rfl, rfl⟩

/-! ## Predicates -/

theorem operatorToken_inj {op op' : CompareOp} (h : operatorToken op = operatorToken op') :
    op = op' := by
  cases op <;> cases op' <;> first | rfl | cases h

theorem connectiveToken_inj {op op' : LogicOp} (h : connectiveToken op = connectiveToken op') :
    op = op' := by
  cases op <;> cases op' <;> first | rfl | cases h

theorem extendsSum_operatorToken (op : CompareOp) : extendsSum (operatorToken op) = false := by
  cases op <;> rfl

theorem operatorToken_ne_close (op : CompareOp) : operatorToken op ≠ .symbol .closeParen := by
  cases op <;> decide

theorem extendsChain_connectiveToken (op : LogicOp) :
    extendsChain (connectiveToken op) = true := by
  cases op <;> rfl

theorem Term.length_tokens_pos (t : Term) : 0 < t.tokens.length := by
  cases t with
  | group inner => exact Nat.succ_pos _
  | compare left op right h =>
      rw [Term.tokens, List.length_append]
      exact Nat.add_pos_left left.length_tokens_pos _
  | isIn left items =>
      rw [Term.tokens, List.length_append]
      exact Nat.add_pos_left left.length_tokens_pos _

/-- A sum that starts with a parenthesis starts with a sum in parentheses. -/
theorem Sum.eq_group_of_open {s : Sum} {r ts : List Token}
    (h : s.tokens ++ r = .symbol .openParen :: ts) :
    ∃ (g : Sum) (pt : ProductTail) (st : SumTail), s = .mk (.mk (.primary (.group g)) pt) st := by
  obtain ⟨⟨f, pt⟩, st⟩ := s
  cases f with
  | negated operand => cases (List.cons.inj h).1
  | primary p =>
      cases p with
      | group g => exact ⟨g, pt, st, rfl⟩
      | _ => cases (List.cons.inj h).1

/-- What follows a parenthesis at the start of a sum is a sum up to the closing parenthesis. -/
theorem Sum.inner_of_open {s : Sum} {r ts : List Token}
    (h : s.tokens ++ r = .symbol .openParen :: ts) :
    ∃ (g : Sum) (us : List Token), ts = g.tokens ++ .symbol .closeParen :: us := by
  obtain ⟨g, pt, st, rfl⟩ := Sum.eq_group_of_open h
  refine ⟨g, pt.tokens ++ (st.tokens ++ r), ?_⟩
  rw [← (List.cons.inj h).2]
  simp [List.append_assoc]

mutual

/-- What stands in parentheses is not both a predicate and an operand. -/
theorem Chain.ne_sum : (c : Chain) → (s : Sum) → {r r' : List Token} →
    c.tokens ++ r ≠ s.tokens ++ .symbol .closeParen :: r'
  | .mk first tail, s, r, r' => by
      rw [Chain.tokens, List.append_assoc]
      exact Term.ne_sum first s

/-- So it is for a term, which has an operator where the sum has come to an end. -/
theorem Term.ne_sum : (t : Term) → (s : Sum) → {r r' : List Token} →
    t.tokens ++ r ≠ s.tokens ++ .symbol .closeParen :: r'
  | .group inner, s, r, r' => by
      intro h
      rw [Term.tokens, List.cons_append, List.append_assoc] at h
      -- both are in parentheses, and without them the chain and the sum are shorter
      obtain ⟨g, us, hg⟩ := Sum.inner_of_open h.symm
      exact Chain.ne_sum inner g hg
  | .compare left op right _, s, r, r' => by
      intro h
      rw [Term.tokens, List.append_assoc] at h
      obtain ⟨-, hop⟩ := Sum.unique left s h (stops_cons.mpr (extendsSum_operatorToken op))
        (stops_cons.mpr rfl)
      exact operatorToken_ne_close op (List.cons.inj hop).1
  | .isIn left items, s, r, r' => by
      intro h
      rw [Term.tokens, List.append_assoc] at h
      obtain ⟨-, hop⟩ := Sum.unique left s h (stops_cons.mpr rfl) (stops_cons.mpr rfl)
      cases (List.cons.inj hop).1

end

/-- A predicate in parentheses is not the start of a sum. -/
theorem Term.group_ne_sum {inner : Chain} {s : Sum} {r r' : List Token} :
    (Term.group inner).tokens ++ r ≠ s.tokens ++ r' := by
  intro h
  rw [Term.tokens, List.cons_append, List.append_assoc] at h
  obtain ⟨g, us, hg⟩ := Sum.inner_of_open h.symm
  exact Chain.ne_sum inner g hg

mutual

theorem Chain.unique : (c c' : Chain) → {r r' : List Token} → c.tokens ++ r = c'.tokens ++ r' →
    Stops extendsChain r → Stops extendsChain r' → c = c' ∧ r = r'
  | .mk t tail, .mk t' tail', r, r', h, hr, hr' => by
      rw [Chain.tokens, Chain.tokens, List.append_assoc, List.append_assoc] at h
      obtain ⟨rfl, htail⟩ := Term.unique t t' h (tail.stops hr) (tail'.stops hr')
      obtain ⟨rfl, rfl⟩ := ChainTail.unique tail tail' htail hr hr'
      exact ⟨rfl, rfl⟩

theorem ChainTail.unique : (t t' : ChainTail) → {r r' : List Token} →
    t.tokens ++ r = t'.tokens ++ r' → Stops extendsChain r → Stops extendsChain r' →
      t = t' ∧ r = r'
  | .done, .done, r, r', h, hr, hr' => ⟨rfl, h⟩
  | .done, .more op t tail, r, r', h, hr, hr' =>
      absurd h (hr.ne_cons (extendsChain_connectiveToken op))
  | .more op t tail, .done, r, r', h, hr, hr' =>
      absurd h.symm (hr'.ne_cons (extendsChain_connectiveToken op))
  | .more op t tail, .more op' t' tail', r, r', h, hr, hr' => by
      simp only [ChainTail.tokens, List.cons_append, List.append_assoc, List.cons.injEq] at h
      obtain ⟨hop, h₁⟩ := h
      obtain rfl := connectiveToken_inj hop
      obtain ⟨rfl, htail⟩ := Term.unique t t' h₁ (tail.stops hr) (tail'.stops hr')
      obtain ⟨rfl, rfl⟩ := ChainTail.unique tail tail' htail hr hr'
      exact ⟨rfl, rfl⟩

theorem Term.unique : (t t' : Term) → {r r' : List Token} → t.tokens ++ r = t'.tokens ++ r' →
    Stops extendsSum r → Stops extendsSum r' → t = t' ∧ r = r'
  | .group c, .group c', r, r', h, hr, hr' => by
      simp only [Term.tokens, List.cons_append, List.append_assoc, List.cons.injEq, true_and] at h
      obtain ⟨rfl, hclose⟩ := Chain.unique c c' h (stops_cons.mpr rfl) (stops_cons.mpr rfl)
      exact ⟨rfl, (List.cons.inj hclose).2⟩
  | .group c, .compare left' op' right' _, r, r', h, hr, hr' => by
      rw [Term.tokens.eq_2, List.append_assoc] at h
      exact absurd h Term.group_ne_sum
  | .group c, .isIn left' items', r, r', h, hr, hr' => by
      rw [Term.tokens.eq_3, List.append_assoc] at h
      exact absurd h Term.group_ne_sum
  | .compare left op right _, .group c', r, r', h, hr, hr' => by
      rw [Term.tokens.eq_2, List.append_assoc] at h
      exact absurd h.symm Term.group_ne_sum
  | .isIn left items, .group c', r, r', h, hr, hr' => by
      rw [Term.tokens.eq_3, List.append_assoc] at h
      exact absurd h.symm Term.group_ne_sum
  | .compare left op right _, .compare left' op' right' _, r, r', h, hr, hr' => by
      simp only [Term.tokens, List.cons_append, List.append_assoc] at h
      obtain ⟨rfl, h₁⟩ := Sum.unique left left' h
        (stops_cons.mpr (extendsSum_operatorToken op)) (stops_cons.mpr (extendsSum_operatorToken op'))
      obtain ⟨hop, h₂⟩ := List.cons.inj h₁
      obtain rfl := operatorToken_inj hop
      obtain ⟨rfl, rfl⟩ := Sum.unique right right' h₂ hr hr'
      exact ⟨rfl, rfl⟩
  | .compare left op right hright, .isIn left' items', r, r', h, hr, hr' => by
      simp only [Term.tokens, List.cons_append, List.append_assoc] at h
      obtain ⟨rfl, h₁⟩ := Sum.unique left left' h
        (stops_cons.mpr (extendsSum_operatorToken op)) (stops_cons.mpr rfl)
      obtain ⟨hop, h₂⟩ := List.cons.inj h₁
      -- behind `IN` an opening parenthesis is the start of a list, never of a sum
      obtain ⟨t, ts, hs, -⟩ := right.tokens_eq_cons
      rw [hs] at h₂
      exact absurd (by rw [hs, (List.cons.inj h₂).1]; rfl) (hright (operatorToken_inj hop))
  | .isIn left items, .compare left' op' right' hright', r, r', h, hr, hr' => by
      simp only [Term.tokens, List.cons_append, List.append_assoc] at h
      obtain ⟨rfl, h₁⟩ := Sum.unique left left' h (stops_cons.mpr rfl)
        (stops_cons.mpr (extendsSum_operatorToken op'))
      obtain ⟨hop, h₂⟩ := List.cons.inj h₁
      obtain ⟨t, ts, hs, -⟩ := right'.tokens_eq_cons
      rw [hs] at h₂
      exact absurd (by rw [hs, ← (List.cons.inj h₂).1]; rfl) (hright' (operatorToken_inj hop.symm))
  | .isIn left items, .isIn left' items', r, r', h, hr, hr' => by
      simp only [Term.tokens, List.cons_append, List.append_assoc] at h
      obtain ⟨rfl, h₁⟩ := Sum.unique left left' h (stops_cons.mpr rfl) (stops_cons.mpr rfl)
      obtain ⟨rfl, rfl⟩ := Items.unique (List.cons.inj (List.cons.inj h₁).2).2
      exact ⟨rfl, rfl⟩

end

end RecordQuery.Grammar
