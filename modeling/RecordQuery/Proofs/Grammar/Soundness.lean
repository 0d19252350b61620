import RecordQuery.Proofs.Grammar.Basic
import RecordQuery.Proofs.Grammar.Steps
/-!
# What is read is derived

Whatever a reader accepts is a derivation of the grammar: the tokens it takes are those of the
derivation, it numbers as many parameters as that has, and what it gives is what the derivation means.
The induction is on the steps a reader may take, over all readers of a level at once.

A reader of terms gives an operand back when no operator follows. What it has read is then a sum, in
any number of parentheses, and who asked for it goes on behind that sum (`sumFrom_sound`).
-/

namespace RecordQuery.Reader

open Grammar Cursor

/-! ## Operators -/

theorem sumOperator?_eq_some {t : Token} {op : ArithOp} (h : sumOperator? t = some op) :
    ∃ o : SumOp, t = o.token ∧ op = o.arith := by
  unfold sumOperator? at h
  split at h
  · exact ⟨.plus, rfl, (Option.some.inj h).symm⟩
  · exact ⟨.minus, rfl, (Option.some.inj h).symm⟩
  · cases h

theorem productOperator?_eq_some {t : Token} {op : ArithOp} (h : productOperator? t = some op) :
    ∃ o : ProductOp, t = o.token ∧ op = o.arith := by
  unfold productOperator? at h
  split at h
  · exact ⟨.star, rfl, (Option.some.inj h).symm⟩
  · exact ⟨.slash, rfl, (Option.some.inj h).symm⟩
  · cases h

theorem SumOp.token_ne_end (o : SumOp) : o.token ≠ .endOfInput := by
  cases o <;> exact Token.noConfusion

theorem ProductOp.token_ne_end (o : ProductOp) : o.token ≠ .endOfInput := by
  cases o <;> exact Token.noConfusion

/-! ## Names and coordinates -/

theorem dottedNames_sound : (fuel : Nat) → {c c' : Cursor} → {names : List String} → c.Ended →
    (dottedNames fuel).run c = .ok names c' → c.Reads (dotted names) 0 c'
  | 0, _, _, _, _, h => by simp [dottedNames] at h
  | fuel + 1, c, c', names, hc, h => by
      rw [dottedNames] at h
      by_cases ht : c.current.token = .symbol .dot
      · rw [run_bind_of_ok (run_accept_of_eq ht), if_pos rfl] at h
        obtain ⟨first, c₁, hfirst, h₁⟩ := run_bind_ok.mp h
        obtain ⟨others, c₂, hothers, h₂⟩ := run_bind_ok.mp h₁
        have hdot := hc.reads_token ht Token.noConfusion
        obtain ⟨hname, rfl⟩ := (run_name_ok (hdot.ended hc)).mp hfirst
        obtain ⟨rfl, rfl⟩ := run_pure_ok.mp h₂
        have hword := (hdot.ended hc).reads_token hname Token.noConfusion
        exact hdot.cons (hword.cons (dottedNames_sound fuel (hword.ended (hdot.ended hc)) hothers))
      · rw [run_bind_of_ok (run_accept_of_ne ht), if_neg Bool.false_ne_true] at h
        obtain ⟨rfl, rfl⟩ := run_pure_ok.mp h
        exact Reads.refl c

theorem coordinate_sound {c c' : Cursor} {text : String} (hc : c.Ended)
    (h : coordinate.run c = .ok text c') :
    ∃ x : Coordinate, c.Reads x.tokens 0 c' ∧ x.text = text := by
  unfold coordinate at h
  obtain ⟨negative, c₁, hsign, h⟩ := run_bind_ok.mp h
  rw [run_bind_of_ok (run_token c₁)] at h
  cases ht : c₁.current.token with
  | span raw =>
      rw [ht] at h
      rw [run_bind_of_ok (run_advance c₁)] at h
      obtain ⟨rfl, rfl⟩ := run_pure_ok.mp h
      rw [run_accept] at hsign
      by_cases hminus : c.current.token = .symbol .minus
      · rw [if_pos hminus] at hsign
        cases hsign
        have r := hc.reads_token hminus Token.noConfusion
        exact ⟨⟨true, raw⟩, r.cons ((r.ended hc).reads_token ht Token.noConfusion), rfl⟩
      · rw [if_neg hminus] at hsign
        cases hsign
        exact ⟨⟨false, raw⟩, hc.reads_token ht Token.noConfusion, rfl⟩
  | _ => simp [ht] at h

theorem point_sound {c c' : Cursor} {e : Expr} (hc : c.Ended) (h : point.run c = .ok e c') :
    ∃ (x y : Coordinate) (p : Point), pointLiteral x y = .point p ∧ e = .literal (.point p) ∧
      c.Reads (.symbol .openParen :: (x.tokens ++ (y.tokens ++ [.symbol .closeParen]))) 0 c' := by
  unfold point at h
  obtain ⟨_, _, hget, h⟩ := run_bind_ok.mp h
  cases hget
  obtain ⟨_, _, hopen, h⟩ := run_bind_ok.mp h
  obtain ⟨topen, rfl⟩ := run_expect_ok.mp hopen
  obtain ⟨_, _, hx, h⟩ := run_bind_ok.mp h
  obtain ⟨_, _, hy, h⟩ := run_bind_ok.mp h
  obtain ⟨_, _, hclose, h⟩ := run_bind_ok.mp h
  obtain ⟨tclose, rfl⟩ := run_expect_ok.mp hclose
  have r₁ := hc.reads_token topen Token.noConfusion
  have c₁ := r₁.ended hc
  obtain ⟨x, r₂, rfl⟩ := coordinate_sound c₁ hx
  have c₂ := r₂.ended c₁
  obtain ⟨y, r₃, rfl⟩ := coordinate_sound c₂ hy
  have r₄ := (r₃.ended c₂).reads_token tclose Token.noConfusion
  split at h
  next p hp =>
    obtain ⟨rfl, rfl⟩ := run_pure_ok.mp h
    exact ⟨x, y, p, hp, rfl, r₁.cons (r₂.trans (r₃.trans r₄))⟩
  next => cases h

/-! ## Expressions -/

theorem arguments_at_close {fuel : Nat} {c c' : Cursor} {args : List Expr}
    (hc : c.current.token = .symbol .closeParen) (h : (arguments fuel).run c = .ok args c') :
    args = [] ∧ c' = c.next := by
  cases fuel with
  | zero => simp [arguments] at h
  | succ fuel =>
      rw [arguments, run_bind_of_ok (run_accept_of_eq hc), if_pos rfl] at h
      obtain ⟨rfl, rfl⟩ := run_pure_ok.mp h
      exact ⟨rfl, rfl⟩

mutual

/-- A sum that is read is derived. -/
theorem sum_sound : (fuel : Nat) → {c c' : Cursor} → {e : Expr} → c.Ended →
    (sum fuel).run c = .ok e c' →
      ∃ s : Grammar.Sum, c.Reads s.tokens s.placeholders c' ∧ s.expr c.placeholders = e
  | 0, _, _, _, _, h => by simp [sum] at h
  | fuel + 1, c, c', e, hc, h => by
      rw [sum] at h
      obtain ⟨first, c₁, hfirst, htail⟩ := run_bind_ok.mp h
      obtain ⟨p, rp, rfl⟩ := product_sound fuel hc hfirst
      obtain ⟨t, rt, rfl⟩ := sumTail_sound fuel (rp.ended hc) htail
      refine ⟨.mk p t, rp.trans rt, ?_⟩
      rw [Sum.expr, rp.2]

/-- So is what follows its first operand. -/
theorem sumTail_sound : (fuel : Nat) → {c c' : Cursor} → {left e : Expr} → c.Ended →
    (sumTail fuel left).run c = .ok e c' →
      ∃ t : SumTail, c.Reads t.tokens t.placeholders c' ∧ t.expr c.placeholders left = e
  | 0, _, _, _, _, _, h => by simp [sumTail] at h
  | fuel + 1, c, c', left, e, hc, h => by
      rw [sumTail, run_bind_of_ok (run_token c)] at h
      split at h
      next op hop =>
        obtain ⟨o, ho, rfl⟩ := sumOperator?_eq_some hop
        have r := hc.reads_token ho (SumOp.token_ne_end o)
        rw [run_bind_of_ok (run_advance c)] at h
        obtain ⟨right, c₁, hright, htail⟩ := run_bind_ok.mp h
        obtain ⟨p, rp, rfl⟩ := product_sound fuel (r.ended hc) hright
        obtain ⟨t, rt, rfl⟩ := sumTail_sound fuel (rp.ended (r.ended hc)) htail
        refine ⟨.more o p t, r.cons (rp.trans rt), ?_⟩
        rw [SumTail.expr, rp.2, placeholders_next]
      next =>
        obtain ⟨rfl, rfl⟩ := run_pure_ok.mp h
        exact ⟨.done, Reads.refl c, rfl⟩

/-- A product that is read is derived. -/
theorem product_sound : (fuel : Nat) → {c c' : Cursor} → {e : Expr} → c.Ended →
    (product fuel).run c = .ok e c' →
      ∃ p : Product, c.Reads p.tokens p.placeholders c' ∧ p.expr c.placeholders = e
  | 0, _, _, _, _, h => by simp [product] at h
  | fuel + 1, c, c', e, hc, h => by
      rw [product] at h
      obtain ⟨first, c₁, hfirst, htail⟩ := run_bind_ok.mp h
      obtain ⟨f, rf, rfl⟩ := factor_sound fuel hc hfirst
      obtain ⟨t, rt, rfl⟩ := productTail_sound fuel (rf.ended hc) htail
      refine ⟨.mk f t, rf.trans rt, ?_⟩
      rw [Product.expr, rf.2]

/-- So is what follows its first operand. -/
theorem productTail_sound : (fuel : Nat) → {c c' : Cursor} → {left e : Expr} → c.Ended →
    (productTail fuel left).run c = .ok e c' →
      ∃ t : ProductTail, c.Reads t.tokens t.placeholders c' ∧ t.expr c.placeholders left = e
  | 0, _, _, _, _, _, h => by simp [productTail] at h
  | fuel + 1, c, c', left, e, hc, h => by
      rw [productTail, run_bind_of_ok (run_token c)] at h
      split at h
      next op hop =>
        obtain ⟨o, ho, rfl⟩ := productOperator?_eq_some hop
        have r := hc.reads_token ho (ProductOp.token_ne_end o)
        rw [run_bind_of_ok (run_advance c)] at h
        obtain ⟨right, c₁, hright, htail⟩ := run_bind_ok.mp h
        obtain ⟨f, rf, rfl⟩ := factor_sound fuel (r.ended hc) hright
        obtain ⟨t, rt, rfl⟩ := productTail_sound fuel (rf.ended (r.ended hc)) htail
        refine ⟨.more o f t, r.cons (rf.trans rt), ?_⟩
        rw [ProductTail.expr, rf.2, placeholders_next]
      next =>
        obtain ⟨rfl, rfl⟩ := run_pure_ok.mp h
        exact ⟨.done, Reads.refl c, rfl⟩

/-- A factor that is read is derived. -/
theorem factor_sound : (fuel : Nat) → {c c' : Cursor} → {e : Expr} → c.Ended →
    (factor fuel).run c = .ok e c' →
      ∃ f : Factor, c.Reads f.tokens f.placeholders c' ∧ f.expr c.placeholders = e
  | 0, _, _, _, _, h => by simp [factor] at h
  | fuel + 1, c, c', e, hc, h => by
      rw [factor] at h
      by_cases hminus : c.current.token = .symbol .minus
      · rw [run_bind_of_ok (run_accept_of_eq hminus), if_pos rfl] at h
        obtain ⟨operand, c₁, hoperand, hpure⟩ := run_bind_ok.mp h
        obtain ⟨rfl, rfl⟩ := run_pure_ok.mp hpure
        have r := hc.reads_token hminus Token.noConfusion
        obtain ⟨f, rf, rfl⟩ := factor_sound fuel (r.ended hc) hoperand
        exact ⟨.negated f, r.cons rf, by rw [Factor.expr, placeholders_next]⟩
      · rw [run_bind_of_ok (run_accept_of_ne hminus), if_neg Bool.false_ne_true] at h
        obtain ⟨p, rp, rfl⟩ := primary_sound fuel hc h
        exact ⟨.primary p, rp, rfl⟩

/-- A primary that is read is derived. -/
theorem primary_sound : (fuel : Nat) → {c c' : Cursor} → {e : Expr} → c.Ended →
    (primary fuel).run c = .ok e c' →
      ∃ p : Primary, c.Reads p.tokens p.placeholders c' ∧ p.expr c.placeholders = e
  | 0, _, _, _, _, h => by simp [primary] at h
  | fuel + 1, c, c', e, hc, h => by
      rw [primary, run_bind_of_ok (run_takeToken c)] at h
      split at h
      next raw ht =>
        rw [run_bind_of_ok (run_advance_taken hc)] at h
        obtain ⟨rfl, rfl⟩ := run_pure_ok.mp h
        exact ⟨.span raw, hc.reads_token ht Token.noConfusion, rfl⟩
      next content ht =>
        rw [run_bind_of_ok (run_advance_taken hc)] at h
        obtain ⟨rfl, rfl⟩ := run_pure_ok.mp h
        exact ⟨.quoted content, hc.reads_token ht Token.noConfusion, rfl⟩
      next ht =>
        rw [run_bind_of_ok (run_advance_taken hc)] at h
        obtain ⟨rfl, rfl⟩ := run_pure_ok.mp h
        exact ⟨.null, hc.reads_token ht Token.noConfusion, rfl⟩
      next ht =>
        rw [run_bind_of_ok (run_advance_taken hc), run_bind_of_ok (run_newPlaceholder c.next)] at h
        obtain ⟨rfl, rfl⟩ := run_pure_ok.mp h
        have r := hc.reads_token ht Token.noConfusion
        exact ⟨.placeholder, ⟨r.1, by rw [placeholders_next]; rfl⟩,
          by rw [Primary.expr, placeholders_next]⟩
      next ht =>
        rw [run_bind_of_ok (run_advance_taken hc)] at h
        obtain ⟨inner, c₁, hinner, h₁⟩ := run_bind_ok.mp h
        obtain ⟨_, c₂, hclose, h₂⟩ := run_bind_ok.mp h₁
        obtain ⟨tclose, rfl⟩ := run_expect_ok.mp hclose
        obtain ⟨rfl, rfl⟩ := run_pure_ok.mp h₂
        have r := hc.reads_token ht Token.noConfusion
        obtain ⟨s, rs, rfl⟩ := sum_sound fuel (r.ended hc) hinner
        have r' := (rs.ended (r.ended hc)).reads_token tclose Token.noConfusion
        exact ⟨.group s, r.cons (rs.trans r'), by rw [Primary.expr, placeholders_next]⟩
      next first ht =>
        -- a name is a point, a call or a field, by what stands behind it
        have r := hc.reads_token ht Token.noConfusion
        rw [run_bind_of_ok (run_advance_taken hc), run_bind_of_ok (run_isAt _ c.next)] at h
        by_cases hopen : c.next.current.token = .symbol .openParen
        · rw [if_pos (beq_iff_eq.mpr hopen)] at h
          cases hword : Name.same first "point" with
          | true =>
              rw [hword, if_pos rfl] at h
              obtain ⟨x, y, p, hp, rfl, rp⟩ := point_sound (r.ended hc) h
              exact ⟨.point first hword x y p hp, r.cons rp, rfl⟩
          | false =>
              rw [hword, if_neg Bool.false_ne_true, run_bind_of_ok (run_advance _)] at h
              obtain ⟨args, c₁, hargs, h₁⟩ := run_bind_ok.mp h
              obtain ⟨rfl, rfl⟩ := run_pure_ok.mp h₁
              have r' := (r.ended hc).reads_token hopen Token.noConfusion
              obtain ⟨a, ra, rfl⟩ := arguments_sound fuel (r'.ended (r.ended hc)) hargs
              refine ⟨.call first hword a, r.cons (r'.cons ra), ?_⟩
              rw [Primary.expr, placeholders_next, placeholders_next]
        · rw [if_neg (by rwa [beq_iff_eq])] at h
          obtain ⟨others, c₁, hothers, h₁⟩ := run_bind_ok.mp h
          obtain ⟨rfl, rfl⟩ := run_pure_ok.mp h₁
          have rd := dottedNames_sound fuel (r.ended hc) hothers
          exact ⟨.field first others, r.cons rd, rfl⟩
      next => simp at h

/-- The arguments that are read are derived, with the closing parenthesis behind them. -/
theorem arguments_sound : (fuel : Nat) → {c c' : Cursor} → {args : List Expr} → c.Ended →
    (arguments fuel).run c = .ok args c' →
      ∃ a : Arguments, c.Reads (a.tokens ++ [.symbol .closeParen]) a.placeholders c' ∧
        a.exprs c.placeholders = args
  | 0, _, _, _, _, h => by simp [arguments] at h
  | fuel + 1, c, c', args, hc, h => by
      rw [arguments] at h
      by_cases hclose : c.current.token = .symbol .closeParen
      · rw [run_bind_of_ok (run_accept_of_eq hclose), if_pos rfl] at h
        obtain ⟨rfl, rfl⟩ := run_pure_ok.mp h
        exact ⟨.done, hc.reads_token hclose Token.noConfusion, rfl⟩
      · rw [run_bind_of_ok (run_accept_of_ne hclose), if_neg Bool.false_ne_true] at h
        obtain ⟨first, c₁, hfirst, h₁⟩ := run_bind_ok.mp h
        obtain ⟨a, ra, rfl⟩ := argument_sound fuel hc hfirst
        have hc₁ := ra.ended hc
        rw [run_bind_of_ok (run_isAt _ c₁)] at h₁
        by_cases hend : c₁.current.token = .symbol .closeParen
        · -- without a comma the reader goes on, but only to take the closing parenthesis
          rw [beq_iff_eq.mpr hend] at h₁
          obtain ⟨others, c₂, hothers, h₂⟩ := run_bind_ok.mp h₁
          obtain ⟨rfl, rfl⟩ := run_pure_ok.mp h₂
          obtain ⟨rfl, rfl⟩ := arguments_at_close hend hothers
          exact ⟨.last a, ra.trans (hc₁.reads_token hend Token.noConfusion), rfl⟩
        · rw [beq_eq_false_iff_ne.mpr hend] at h₁
          obtain ⟨_, c₂, hcomma, h₂⟩ := run_bind_ok.mp h₁
          obtain ⟨others, c₃, hothers, h₃⟩ := run_bind_ok.mp h₂
          obtain ⟨tcomma, rfl⟩ := run_expect_ok.mp hcomma
          obtain ⟨rfl, rfl⟩ := run_pure_ok.mp h₃
          have rc := hc₁.reads_token tcomma Token.noConfusion
          obtain ⟨rest, rr, rfl⟩ := arguments_sound fuel (rc.ended hc₁) hothers
          refine ⟨.more a rest, ?_, ?_⟩
          · rw [Arguments.tokens, List.append_assoc, List.cons_append]
            exact ra.trans (rc.cons rr)
          · rw [Arguments.exprs, placeholders_next, ra.2]

/-- An argument that is read is derived. -/
theorem argument_sound : (fuel : Nat) → {c c' : Cursor} → {e : Expr} → c.Ended →
    (argument fuel).run c = .ok e c' →
      ∃ a : Argument, c.Reads a.tokens a.placeholders c' ∧ a.expr c.placeholders = e
  | 0, _, _, _, _, h => by simp [argument] at h
  | fuel + 1, c, c', e, hc, h => by
      rw [argument] at h
      by_cases hstar : c.current.token = .symbol .star
      · rw [run_bind_of_ok (run_accept_of_eq hstar), if_pos rfl] at h
        obtain ⟨rfl, rfl⟩ := run_pure_ok.mp h
        exact ⟨.star, hc.reads_token hstar Token.noConfusion, rfl⟩
      · rw [run_bind_of_ok (run_accept_of_ne hstar), if_neg Bool.false_ne_true] at h
        obtain ⟨s, rs, rfl⟩ := sum_sound fuel hc h
        exact ⟨.sum s, rs, rfl⟩

end

/-- What continues an expression whose first operand `p` is already read. -/
theorem sumFrom_sound {fuel : Nat} {c₀ c c' : Cursor} {p : Primary} {e : Expr} (h₀ : c₀.Ended)
    (rp : c₀.Reads p.tokens p.placeholders c)
    (h : (sumFrom fuel (p.expr c₀.placeholders)).run c = .ok e c') :
    ∃ s : Grammar.Sum, c₀.Reads s.tokens s.placeholders c' ∧ s.expr c₀.placeholders = e := by
  unfold sumFrom at h
  obtain ⟨left, c₁, hleft, h₁⟩ := run_bind_ok.mp h
  obtain ⟨pt, rpt, rfl⟩ := productTail_sound fuel (rp.ended h₀) hleft
  have r := rp.trans rpt
  obtain ⟨st, rst, rfl⟩ := sumTail_sound fuel (r.ended h₀) h₁
  refine ⟨.mk (.mk (.primary p) pt) st, r.trans rst, ?_⟩
  show st.expr _ (pt.expr _ _) = _
  rw [r.2, rp.2]
  rfl

theorem listItems_at_close {fuel : Nat} {c c' : Cursor} {items : List Expr}
    (hc : c.current.token = .symbol .closeParen) (h : (listItems fuel).run c = .ok items c') :
    items = [] ∧ c' = c.next := by
  cases fuel with
  | zero => simp [listItems] at h
  | succ fuel =>
      rw [listItems, run_bind_of_ok (run_accept_of_eq hc), if_pos rfl] at h
      obtain ⟨rfl, rfl⟩ := run_pure_ok.mp h
      exact ⟨rfl, rfl⟩

/-- The items that are read are derived, with the closing parenthesis behind them. -/
theorem listItems_sound : (fuel : Nat) → {c c' : Cursor} → {items : List Expr} → c.Ended →
    (listItems fuel).run c = .ok items c' →
      ∃ i : Items, c.Reads (i.tokens ++ [.symbol .closeParen]) i.placeholders c' ∧
        i.exprs c.placeholders = items
  | 0, _, _, _, _, h => by simp [listItems] at h
  | fuel + 1, c, c', items, hc, h => by
      rw [listItems] at h
      by_cases hclose : c.current.token = .symbol .closeParen
      · rw [run_bind_of_ok (run_accept_of_eq hclose), if_pos rfl] at h
        obtain ⟨rfl, rfl⟩ := run_pure_ok.mp h
        exact ⟨.done, hc.reads_token hclose Token.noConfusion, rfl⟩
      · rw [run_bind_of_ok (run_accept_of_ne hclose), if_neg Bool.false_ne_true] at h
        obtain ⟨first, c₁, hfirst, h₁⟩ := run_bind_ok.mp h
        obtain ⟨s, rs, rfl⟩ := sum_sound fuel hc hfirst
        have hc₁ := rs.ended hc
        rw [run_bind_of_ok (run_isAt _ c₁)] at h₁
        by_cases hend : c₁.current.token = .symbol .closeParen
        · rw [beq_iff_eq.mpr hend] at h₁
          obtain ⟨others, c₂, hothers, h₂⟩ := run_bind_ok.mp h₁
          obtain ⟨rfl, rfl⟩ := run_pure_ok.mp h₂
          obtain ⟨rfl, rfl⟩ := listItems_at_close hend hothers
          exact ⟨.last s, rs.trans (hc₁.reads_token hend Token.noConfusion), rfl⟩
        · rw [beq_eq_false_iff_ne.mpr hend] at h₁
          obtain ⟨_, c₂, hcomma, h₂⟩ := run_bind_ok.mp h₁
          obtain ⟨others, c₃, hothers, h₃⟩ := run_bind_ok.mp h₂
          obtain ⟨tcomma, rfl⟩ := run_expect_ok.mp hcomma
          obtain ⟨rfl, rfl⟩ := run_pure_ok.mp h₃
          have rc := hc₁.reads_token tcomma Token.noConfusion
          obtain ⟨rest, rr, rfl⟩ := listItems_sound fuel (rc.ended hc₁) hothers
          refine ⟨.more s rest, ?_, ?_⟩
          · rw [Items.tokens, List.append_assoc, List.cons_append]
            exact rs.trans (rc.cons rr)
          · rw [Items.exprs, placeholders_next, rs.2]

/-! ## Predicates -/

theorem comparisonOperator?_eq_some {t : Token} {op : CompareOp}
    (h : comparisonOperator? t = some op) : t = operatorToken op := by
  unfold comparisonOperator? at h
  split at h <;> first | (cases h; rfl) | cases h

theorem connective?_eq_some {t : Token} {op : LogicOp} (h : connective? t = some op) :
    t = connectiveToken op := by
  unfold connective? at h
  split at h <;> first | (cases h; rfl) | cases h

theorem operatorToken_ne_end (op : CompareOp) : operatorToken op ≠ .endOfInput := by
  cases op <;> exact Token.noConfusion

theorem connectiveToken_ne_end (op : LogicOp) : connectiveToken op ≠ .endOfInput := by
  cases op <;> exact Token.noConfusion

/-- What a reader of terms may give from `c` to `c'`: the predicate of a term, or the expression of a
sum. -/
def TermRead (c : Cursor) (r : PredicateOrExpr) (c' : Cursor) : Prop :=
  match r with
  | .predicate p =>
    ∃ t : Term, c.Reads t.tokens t.placeholders c' ∧ (t.written c.placeholders).fold = p
  | .expr e => ∃ s : Grammar.Sum, c.Reads s.tokens s.placeholders c' ∧ s.expr c.placeholders = e

/-- What a reader of chains may give from `c` to `c'`: the predicate of a chain, or the expression of
a sum. -/
def ChainRead (c : Cursor) (r : PredicateOrExpr) (c' : Cursor) : Prop :=
  match r with
  | .predicate p =>
    ∃ ch : Chain, c.Reads ch.tokens ch.placeholders c' ∧ (ch.written c.placeholders).fold = p
  | .expr e => ∃ s : Grammar.Sum, c.Reads s.tokens s.placeholders c' ∧ s.expr c.placeholders = e

/-- A right side is a sum, or behind `IN` a list in parentheses. -/
theorem rightSide_sound {fuel : Nat} {op : CompareOp} {c c' : Cursor} {e : Expr} (hc : c.Ended)
    (h : (rightSide fuel op).run c = .ok e c') :
    (∃ s : Grammar.Sum, (op = .isIn → s.tokens.head? ≠ some (.symbol .openParen)) ∧
      c.Reads s.tokens s.placeholders c' ∧ s.expr c.placeholders = e) ∨
    (op = .isIn ∧ ∃ i : Items,
      c.Reads (.symbol .openParen :: (i.tokens ++ [.symbol .closeParen])) i.placeholders c' ∧
        .list (i.exprs c.placeholders) = e) := by
  unfold rightSide at h
  rw [run_bind_of_ok (run_isAt _ c)] at h
  by_cases hlist : op = .isIn ∧ c.current.token = .symbol .openParen
  · obtain ⟨rfl, hopen⟩ := hlist
    rw [if_pos (by simp [hopen]), run_bind_of_ok (run_advance c)] at h
    obtain ⟨items, c₁, hitems, h₁⟩ := run_bind_ok.mp h
    obtain ⟨rfl, rfl⟩ := run_pure_ok.mp h₁
    have r := hc.reads_token hopen Token.noConfusion
    obtain ⟨i, ri, rfl⟩ := listItems_sound fuel (r.ended hc) hitems
    exact .inr ⟨rfl, i, r.cons ri, by rw [placeholders_next]⟩
  · rw [if_neg (by simpa using hlist)] at h
    obtain ⟨s, rs, rfl⟩ := sum_sound fuel hc h
    refine .inl ⟨s, ?_, rs, rfl⟩
    -- behind `IN` the sum cannot start with a parenthesis, or a list would have been read
    intro hop hhead
    have hcurrent : c.tokens.head? = some (.symbol .openParen) := by
      rw [rs.1, List.head?_append, hhead]
      rfl
    exact hlist ⟨hop, Option.some.inj hcurrent⟩

/-- What follows a left operand makes it the left side of a comparison, or leaves it as it is. -/
theorem comparisonFrom_sound {fuel : Nat} {c₀ c c' : Cursor} {left : Grammar.Sum}
    {r : PredicateOrExpr} (h₀ : c₀.Ended) (rl : c₀.Reads left.tokens left.placeholders c)
    (h : (comparisonFrom fuel (left.expr c₀.placeholders)).run c = .ok r c') :
    TermRead c₀ r c' := by
  have hc := rl.ended h₀
  unfold comparisonFrom at h
  rw [run_bind_of_ok (run_token c)] at h
  split at h
  next op hop =>
    have ro := hc.reads_token (comparisonOperator?_eq_some hop) (operatorToken_ne_end op)
    rw [run_bind_of_ok (run_advance c)] at h
    obtain ⟨right, c₁, hright, h₁⟩ := run_bind_ok.mp h
    obtain ⟨rfl, rfl⟩ := run_pure_ok.mp h₁
    have hn : c.next.placeholders = c₀.placeholders + left.placeholders := by
      rw [placeholders_next, rl.2]
    rcases rightSide_sound (ro.ended hc) hright with ⟨s, hs, rs, rfl⟩ | ⟨rfl, i, ri, rfl⟩
    · refine ⟨.compare left op s hs, rl.trans (ro.cons rs), ?_⟩
      rw [Term.written, Predicate.fold, hn]
    · refine ⟨.isIn left i, rl.trans (ro.cons ri), ?_⟩
      rw [Term.written, Predicate.fold, hn]
  next =>
    -- no operator follows: the operand goes back to who asked for a term
    obtain ⟨rfl, rfl⟩ := run_pure_ok.mp h
    exact ⟨left, rl, rfl⟩

theorem asPredicate_ok {r : PredicateOrExpr} {p : Predicate} {c c' : Cursor}
    (h : (asPredicate r).run c = .ok p c') : r = .predicate p ∧ c = c' := by
  cases r with
  | predicate q =>
      obtain ⟨rfl, rfl⟩ := run_pure_ok.mp h
      exact ⟨rfl, rfl⟩
  | expr e => simp [asPredicate] at h

mutual

/-- A chain that is read is derived. -/
theorem chain_sound : (fuel : Nat) → {c c' : Cursor} → {r : PredicateOrExpr} → c.Ended →
    (chain fuel).run c = .ok r c' → ChainRead c r c'
  | 0, _, _, _, _, h => by simp [chain] at h
  | fuel + 1, c, c', r, hc, h => by
      rw [chain] at h
      obtain ⟨first, c₁, hfirst, h₁⟩ := run_bind_ok.mp h
      have hterm := term_sound fuel hc hfirst
      cases first with
      | predicate p =>
          obtain ⟨t, rt, rfl⟩ := hterm
          obtain ⟨q, c₂, hq, h₂⟩ := run_bind_ok.mp h₁
          obtain ⟨rfl, rfl⟩ := run_pure_ok.mp h₂
          obtain ⟨tail, rtail, rfl⟩ := chainTail_sound fuel _ (rt.ended hc) hq
          refine ⟨.mk t tail, rt.trans rtail, ?_⟩
          rw [Chain.written, rt.2]
      | expr e =>
          obtain ⟨rfl, rfl⟩ := run_pure_ok.mp h₁
          exact hterm

/-- So is what follows its first term. -/
theorem chainTail_sound : (fuel : Nat) → (left : Predicate) → {c c' : Cursor} → {p : Predicate} →
    c.Ended →
    (chainTail fuel left.fold).run c = .ok p c' →
      ∃ t : ChainTail, c.Reads t.tokens t.placeholders c' ∧
        (t.written c.placeholders left).fold = p
  | 0, _, _, _, _, _, h => by simp [chainTail] at h
  | fuel + 1, left, c, c', p, hc, h => by
      rw [chainTail, run_bind_of_ok (run_token c)] at h
      split at h
      next op hop =>
        have r := hc.reads_token (connective?_eq_some hop) (connectiveToken_ne_end op)
        rw [run_bind_of_ok (run_advance c)] at h
        obtain ⟨first, c₁, hfirst, h₁⟩ := run_bind_ok.mp h
        obtain ⟨right, c₂, hright, h₂⟩ := run_bind_ok.mp h₁
        obtain ⟨rfl, rfl⟩ := asPredicate_ok hright
        obtain ⟨t, rt, rfl⟩ := term_sound fuel (r.ended hc) hfirst
        -- what is combined while it is read is the fold of the connective that is written
        obtain ⟨tail, rtail, rfl⟩ := chainTail_sound fuel (.logic op left (t.written _))
          (rt.ended (r.ended hc)) h₂
        refine ⟨.more op t tail, r.cons (rt.trans rtail), ?_⟩
        rw [ChainTail.written, rt.2, placeholders_next]
      next =>
        obtain ⟨rfl, rfl⟩ := run_pure_ok.mp h
        exact ⟨.done, Reads.refl c, rfl⟩

/-- A term that is read is derived. -/
theorem term_sound : (fuel : Nat) → {c c' : Cursor} → {r : PredicateOrExpr} → c.Ended →
    (term fuel).run c = .ok r c' → TermRead c r c'
  | 0, _, _, _, _, h => by simp [term] at h
  | fuel + 1, c, c', r, hc, h => by
      rw [term] at h
      by_cases hopen : c.current.token = .symbol .openParen
      · rw [run_bind_of_ok (run_accept_of_eq hopen), if_pos rfl] at h
        obtain ⟨inner, c₁, hinner, h₁⟩ := run_bind_ok.mp h
        obtain ⟨_, c₂, hclose, h₂⟩ := run_bind_ok.mp h₁
        obtain ⟨tclose, rfl⟩ := run_expect_ok.mp hclose
        have r₀ := hc.reads_token hopen Token.noConfusion
        have hchain := chain_sound fuel (r₀.ended hc) hinner
        cases inner with
        | predicate p =>
            obtain ⟨ch, rch, rfl⟩ := hchain
            have r₁ := (rch.ended (r₀.ended hc)).reads_token tclose Token.noConfusion
            obtain ⟨rfl, rfl⟩ := run_pure_ok.mp h₂
            exact ⟨.group ch, r₀.cons (rch.trans r₁), by rw [Term.written, placeholders_next]⟩
        | expr e =>
            -- the parentheses were those of an operand, which may go on behind them
            obtain ⟨s, rs, rfl⟩ := hchain
            have r₁ := (rs.ended (r₀.ended hc)).reads_token tclose Token.noConfusion
            have rg : c.Reads (Primary.group s).tokens (Primary.group s).placeholders c₁.next :=
              r₀.cons (rs.trans r₁)
            rw [placeholders_next] at h₂
            obtain ⟨left, c₃, hleft, h₃⟩ := run_bind_ok.mp h₂
            obtain ⟨s', rs', rfl⟩ := sumFrom_sound hc rg hleft
            exact comparisonFrom_sound hc rs' h₃
      · rw [run_bind_of_ok (run_accept_of_ne hopen), if_neg Bool.false_ne_true,
          run_bind_of_ok (run_token c)] at h
        split at h
        next => simp at h
        next =>
          obtain ⟨left, c₁, hleft, h₁⟩ := run_bind_ok.mp h
          obtain ⟨s, rs, rfl⟩ := sum_sound fuel hc hleft
          exact comparisonFrom_sound hc rs h₁

end

end RecordQuery.Reader
