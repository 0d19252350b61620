import RecordQuery.Proofs.Grammar.Unambiguous
import RecordQuery.Proofs.Grammar.Steps
/-!
# What is derived is read

A reader in front of a derivation takes exactly its tokens, whatever follows, as long as that does not
continue the derivation. The induction is on the derivation; that the steps a reader may take are
enough is part of it: eight for every token pay for all the levels of the grammar, and the few that
are over at each level are what the bounds below add.
-/

namespace RecordQuery.Reader

open Grammar Cursor

/-! ## Operators -/

theorem sumOperator?_token (o : SumOp) : sumOperator? o.token = some o.arith := by
  cases o <;> rfl

theorem productOperator?_token (o : ProductOp) : productOperator? o.token = some o.arith := by
  cases o <;> rfl

theorem sumOperator?_of_stops {t : Token} (h : extendsSum t = false) : sumOperator? t = none := by
  unfold sumOperator?
  split
  · cases h
  · cases h
  · rfl

theorem productOperator?_of_stops {t : Token} (h : extendsProduct t = false) :
    productOperator? t = none := by
  unfold productOperator?
  split
  · cases h
  · cases h
  · rfl

/-! ## Names and coordinates -/

theorem dottedNames_complete {names : List String} {fuel : Nat} {c : Cursor} {r : List Token}
    (hfuel : names.length < fuel) (hc : c.tokens = dotted names ++ r) (hr : Stops extendsPrimary r) :
    Gives (dottedNames fuel) c names r 0 := by
  induction names generalizing fuel c with
  | nil =>
      obtain ⟨f, rfl⟩ := Nat.exists_eq_add_of_lt hfuel
      obtain ⟨t, ts, rfl, ht⟩ := hr
      rw [dottedNames]
      refine (gives_accept_ne hc ?_).seq ?_
      · rintro rfl
        cases ht
      · intro c₁ h₁ _
        exact gives_pure [] h₁
  | cons word rest ih =>
      obtain ⟨f, rfl⟩ := Nat.exists_eq_add_of_lt hfuel
      have hrest : dotted rest ++ r ≠ [] := List.append_ne_nil_of_right_ne_nil _ hr.ne_nil
      rw [dottedNames]
      refine (gives_accept hc (List.cons_ne_nil _ _)).seq ?_
      intro c₁ h₁ _
      refine (gives_name .fieldName h₁ hrest).seq ?_
      intro c₂ h₂ _
      exact (ih (Nat.lt_add_right f (Nat.lt_succ_self _)) h₂).map

theorem coordinate_complete {x : Coordinate} {c : Cursor} {r : List Token}
    (hc : c.tokens = x.tokens ++ r) (hr : r ≠ []) : Gives coordinate c x.text r 0 := by
  obtain ⟨negative, raw⟩ := x
  unfold coordinate
  have hsign : Gives (accept (.symbol .minus)) c negative (.span raw :: r) 0 := by
    cases negative with
    | true => exact gives_accept hc (List.cons_ne_nil _ _)
    | false => exact gives_accept_ne hc Token.noConfusion
  refine hsign.seq ?_
  intro c₁ h₁ _
  refine (gives_token h₁).seq ?_
  intro c₂ h₂ _
  refine (gives_advance h₂ hr).seq ?_
  intro c₃ h₃ _
  exact gives_pure _ h₃

theorem point_complete {x y : Coordinate} {p : Point} (hp : pointLiteral x y = .point p) {c : Cursor}
    {r : List Token} (hr : r ≠ [])
    (hc : c.tokens = .symbol .openParen :: (x.tokens ++ (y.tokens ++ .symbol .closeParen :: r))) :
    Gives point c (.literal (.point p)) r 0 := by
  have hclose : .symbol .closeParen :: r ≠ [] := List.cons_ne_nil _ _
  have hy : y.tokens ++ .symbol .closeParen :: r ≠ [] := List.append_ne_nil_of_right_ne_nil _ hclose
  have hx := List.append_ne_nil_of_right_ne_nil x.tokens hy
  unfold point
  refine Gives.seq (⟨c, rfl, rfl, rfl⟩ : Gives get c c c.tokens 0) ?_
  intro c₀ h₀ _
  -- the place of the point is kept for an error, which does not come to pass
  rw [hc] at h₀
  refine (gives_expect h₀ hx).seq ?_
  intro c₁ h₁ _
  refine (coordinate_complete h₁ hy).seq ?_
  intro c₂ h₂ _
  refine (coordinate_complete h₂ hclose).seq ?_
  intro c₃ h₃ _
  refine (gives_expect h₃ hr).seq ?_
  intro c₄ h₄ _
  rw [show Literal.ofText ("POINT (" ++ x.text ++ " " ++ y.text ++ ")") = .point p from hp]
  exact gives_pure _ h₄

/-! ## Expressions -/

theorem length_dotted (names : List String) : (dotted names).length = 2 * names.length := by
  induction names with
  | nil => rfl
  | cons name rest ih =>
      rw [dotted, List.length_cons, List.length_cons, List.length_cons, ih]
      omega

/-- In front of something else than a closing parenthesis there is none to be taken. -/
theorem gives_not_close {ts r : List Token} {c : Cursor} (hc : c.tokens = ts ++ r)
    (hne : ∀ us, ts ++ r ≠ .symbol .closeParen :: us) :
    Gives (accept (.symbol .closeParen)) c false (ts ++ r) 0 := by
  refine ⟨c, run_accept_of_ne ?_, hc, rfl⟩
  intro h
  exact hne (c.rest.map PlacedToken.token) (by rw [← hc, ← h]; rfl)

mutual

/-- A sum that is derived is read. -/
theorem sum_complete : (s : Grammar.Sum) → {fuel : Nat} → {c : Cursor} → {r : List Token} →
    8 * s.tokens.length ≤ fuel + 3 → c.tokens = s.tokens ++ r → Stops extendsSum r →
      Gives (sum fuel) c (s.expr c.placeholders) r s.placeholders
  | .mk p t, fuel, c, r, hfuel, hc, hr => by
      have hpos := p.length_tokens_pos
      rw [Sum.tokens, List.length_append] at hfuel
      rw [Sum.tokens, List.append_assoc] at hc
      obtain ⟨f, rfl⟩ : ∃ f, fuel = f + 1 := ⟨fuel - 1, by omega⟩
      rw [sum]
      refine (product_complete p (by omega) hc (t.stops hr)).bind ?_
      intro c₁ h₁ n₁
      rw [Sum.expr, ← n₁]
      exact sumTail_complete t (by omega) h₁ hr

theorem sumTail_complete : (t : SumTail) → {left : Expr} → {fuel : Nat} → {c : Cursor} →
    {r : List Token} → 8 * t.tokens.length + 1 ≤ fuel → c.tokens = t.tokens ++ r →
      Stops extendsSum r → Gives (sumTail fuel left) c (t.expr c.placeholders left) r t.placeholders
  | .done, left, fuel, c, r, hfuel, hc, hr => by
      obtain ⟨f, rfl⟩ : ∃ f, fuel = f + 1 := ⟨fuel - 1, by omega⟩
      obtain ⟨u, us, rfl, hu⟩ := hr
      rw [sumTail]
      refine (gives_token hc).seq ?_
      intro c₁ h₁ _
      rw [sumOperator?_of_stops hu]
      exact gives_pure _ h₁
  | .more op p t, left, fuel, c, r, hfuel, hc, hr => by
      rw [SumTail.tokens, List.length_cons, List.length_append] at hfuel
      rw [SumTail.tokens, List.cons_append, List.append_assoc] at hc
      obtain ⟨f, rfl⟩ : ∃ f, fuel = f + 1 := ⟨fuel - 1, by omega⟩
      have hne := List.append_ne_nil_of_right_ne_nil p.tokens (t.stops hr).ne_nil
      rw [sumTail]
      refine (gives_token hc).seq ?_
      intro c₁ h₁ n₁
      rw [sumOperator?_token]
      refine (gives_advance h₁ hne).seq ?_
      intro c₂ h₂ n₂
      rw [SumTail.expr, ← n₁, ← n₂]
      refine (product_complete p (by omega) h₂ (t.stops hr)).bind ?_
      intro c₃ h₃ n₃
      rw [← n₃]
      exact sumTail_complete t (by omega) h₃ hr

/-- A product that is derived is read. -/
theorem product_complete : (p : Product) → {fuel : Nat} → {c : Cursor} → {r : List Token} →
    8 * p.tokens.length ≤ fuel + 4 → c.tokens = p.tokens ++ r → Stops extendsProduct r →
      Gives (product fuel) c (p.expr c.placeholders) r p.placeholders
  | .mk p t, fuel, c, r, hfuel, hc, hr => by
      have hpos := p.length_tokens_pos
      rw [Product.tokens, List.length_append] at hfuel
      rw [Product.tokens, List.append_assoc] at hc
      obtain ⟨f, rfl⟩ : ∃ f, fuel = f + 1 := ⟨fuel - 1, by omega⟩
      rw [product]
      refine (factor_complete p (by omega) hc (t.stops hr)).bind ?_
      intro c₁ h₁ n₁
      rw [Product.expr, ← n₁]
      exact productTail_complete t (by omega) h₁ hr

theorem productTail_complete : (t : ProductTail) → {left : Expr} → {fuel : Nat} → {c : Cursor} →
    {r : List Token} → 8 * t.tokens.length + 1 ≤ fuel → c.tokens = t.tokens ++ r →
      Stops extendsProduct r →
        Gives (productTail fuel left) c (t.expr c.placeholders left) r t.placeholders
  | .done, left, fuel, c, r, hfuel, hc, hr => by
      obtain ⟨f, rfl⟩ : ∃ f, fuel = f + 1 := ⟨fuel - 1, by omega⟩
      obtain ⟨u, us, rfl, hu⟩ := hr
      rw [productTail]
      refine (gives_token hc).seq ?_
      intro c₁ h₁ _
      rw [productOperator?_of_stops hu]
      exact gives_pure _ h₁
  | .more op p t, left, fuel, c, r, hfuel, hc, hr => by
      rw [ProductTail.tokens, List.length_cons, List.length_append] at hfuel
      rw [ProductTail.tokens, List.cons_append, List.append_assoc] at hc
      obtain ⟨f, rfl⟩ : ∃ f, fuel = f + 1 := ⟨fuel - 1, by omega⟩
      have hne := List.append_ne_nil_of_right_ne_nil p.tokens (t.stops hr).ne_nil
      rw [productTail]
      refine (gives_token hc).seq ?_
      intro c₁ h₁ n₁
      rw [productOperator?_token]
      refine (gives_advance h₁ hne).seq ?_
      intro c₂ h₂ n₂
      rw [ProductTail.expr, ← n₁, ← n₂]
      refine (factor_complete p (by omega) h₂ (t.stops hr)).bind ?_
      intro c₃ h₃ n₃
      rw [← n₃]
      exact productTail_complete t (by omega) h₃ hr

/-- A factor that is derived is read. -/
theorem factor_complete : (p : Factor) → {fuel : Nat} → {c : Cursor} → {r : List Token} →
    8 * p.tokens.length ≤ fuel + 5 → c.tokens = p.tokens ++ r → Stops extendsPrimary r →
      Gives (factor fuel) c (p.expr c.placeholders) r p.placeholders
  | .negated operand, fuel, c, r, hfuel, hc, hr => by
      have hpos := operand.length_tokens_pos
      rw [Factor.tokens, List.length_cons] at hfuel
      obtain ⟨f, rfl⟩ : ∃ f, fuel = f + 1 := ⟨fuel - 1, by omega⟩
      rw [factor]
      refine (gives_accept hc (List.append_ne_nil_of_right_ne_nil _ hr.ne_nil)).seq ?_
      intro c₁ h₁ n₁
      rw [Factor.expr, ← n₁]
      exact (factor_complete operand (by omega) h₁ hr).map
  | .primary p, fuel, c, r, hfuel, hc, hr => by
      obtain ⟨t, ts, hp, -, hminus⟩ := p.tokens_eq_cons
      have hc' := hc
      rw [Factor.tokens, hp, List.cons_append] at hc
      rw [Factor.tokens] at hfuel
      rw [hp, List.length_cons] at hfuel
      obtain ⟨f, rfl⟩ : ∃ f, fuel = f + 1 := ⟨fuel - 1, by omega⟩
      rw [factor]
      refine (gives_accept_ne hc hminus).seq ?_
      intro c₁ h₁ n₁
      rw [← List.cons_append, ← hp] at h₁
      rw [Factor.expr, ← n₁]
      exact primary_complete p (by rw [hp, List.length_cons]; omega) h₁ hr

/-- A primary that is derived is read. -/
theorem primary_complete : (p : Primary) → {fuel : Nat} → {c : Cursor} → {r : List Token} →
    8 * p.tokens.length ≤ fuel + 6 → c.tokens = p.tokens ++ r → Stops extendsPrimary r →
      Gives (primary fuel) c (p.expr c.placeholders) r p.placeholders
  | .span raw, fuel, c, r, hfuel, hc, hr => by
      obtain ⟨f, rfl⟩ : ∃ f, fuel = f + 1 := ⟨fuel - 1, by simp [Primary.tokens] at hfuel; omega⟩
      rw [primary]
      refine (gives_takeToken hc).seq ?_
      intro c₁ h₁ _
      refine (gives_advance h₁ hr.ne_nil).seq ?_
      intro c₂ h₂ _
      exact gives_pure _ h₂
  | .quoted content, fuel, c, r, hfuel, hc, hr => by
      obtain ⟨f, rfl⟩ : ∃ f, fuel = f + 1 := ⟨fuel - 1, by simp [Primary.tokens] at hfuel; omega⟩
      rw [primary]
      refine (gives_takeToken hc).seq ?_
      intro c₁ h₁ _
      refine (gives_advance h₁ hr.ne_nil).seq ?_
      intro c₂ h₂ _
      exact gives_pure _ h₂
  | .null, fuel, c, r, hfuel, hc, hr => by
      obtain ⟨f, rfl⟩ : ∃ f, fuel = f + 1 := ⟨fuel - 1, by simp [Primary.tokens] at hfuel; omega⟩
      rw [primary]
      refine (gives_takeToken hc).seq ?_
      intro c₁ h₁ _
      refine (gives_advance h₁ hr.ne_nil).seq ?_
      intro c₂ h₂ _
      exact gives_pure _ h₂
  | .placeholder, fuel, c, r, hfuel, hc, hr => by
      obtain ⟨f, rfl⟩ : ∃ f, fuel = f + 1 := ⟨fuel - 1, by simp [Primary.tokens] at hfuel; omega⟩
      rw [primary]
      refine (gives_takeToken hc).seq ?_
      intro c₁ h₁ n₁
      refine (gives_advance h₁ hr.ne_nil).seq ?_
      intro c₂ h₂ n₂
      rw [Primary.expr, ← n₁, ← n₂]
      exact Gives.map ⟨_, run_newPlaceholder c₂, h₂, rfl⟩
  | .group inner, fuel, c, r, hfuel, hc, hr => by
      simp only [Primary.tokens, List.length_cons, List.length_append, List.length_nil] at hfuel
      obtain ⟨f, rfl⟩ : ∃ f, fuel = f + 1 := ⟨fuel - 1, by omega⟩
      rw [Primary.tokens, List.cons_append, List.append_assoc] at hc
      have hne := List.append_ne_nil_of_right_ne_nil inner.tokens
        (List.cons_ne_nil (.symbol .closeParen) ([] ++ r))
      rw [primary]
      refine (gives_takeToken hc).seq ?_
      intro c₁ h₁ n₁
      refine (gives_advance h₁ hne).seq ?_
      intro c₂ h₂ n₂
      have hinner : 8 * inner.tokens.length ≤ f + 3 := by omega
      rw [Primary.expr, ← n₁, ← n₂]
      refine (sum_complete inner hinner h₂ (stops_cons.mpr rfl)).close ?_
      intro c₃ h₃ n₃
      refine (gives_expect h₃ hr.ne_nil).seq ?_
      intro c₄ h₄ _
      exact gives_pure _ h₄
  | .field first others, fuel, c, r, hfuel, hc, hr => by
      rw [Primary.tokens, List.length_cons, length_dotted] at hfuel
      obtain ⟨f, rfl⟩ : ∃ f, fuel = f + 1 := ⟨fuel - 1, by omega⟩
      rw [primary]
      refine (gives_takeToken hc).seq ?_
      intro c₁ h₁ n₁
      refine (gives_advance h₁ (List.append_ne_nil_of_right_ne_nil _ hr.ne_nil)).seq ?_
      intro c₂ h₂ n₂
      -- an opening parenthesis here would make it a call
      obtain ⟨t, ts, hts⟩ := List.exists_cons_of_ne_nil
        (List.append_ne_nil_of_right_ne_nil (dotted others) hr.ne_nil)
      have hne : t ≠ .symbol .openParen := by
        rintro rfl
        exact dotted_ne_open hr hts
      refine (gives_isAt _ (h₂.trans hts)).seq ?_
      intro c₃ h₃ n₃
      rw [beq_eq_false_iff_ne.mpr hne, if_neg Bool.false_ne_true]
      exact (dottedNames_complete (by omega) (h₃.trans hts.symm) hr).map
  | .call name hname args, fuel, c, r, hfuel, hc, hr => by
      simp only [Primary.tokens, List.length_cons, List.length_append, List.length_nil] at hfuel
      obtain ⟨f, rfl⟩ : ∃ f, fuel = f + 1 := ⟨fuel - 1, by omega⟩
      rw [Primary.tokens, List.cons_append, List.cons_append, List.append_assoc] at hc
      have hne := List.append_ne_nil_of_right_ne_nil args.tokens
        (List.cons_ne_nil (.symbol .closeParen) ([] ++ r))
      rw [primary]
      refine (gives_takeToken hc).seq ?_
      intro c₁ h₁ n₁
      refine (gives_advance h₁ (List.cons_ne_nil _ _)).seq ?_
      intro c₂ h₂ n₂
      refine (gives_isAt _ h₂).seq ?_
      intro c₃ h₃ n₃
      rw [beq_self_eq_true, if_pos rfl, hname, if_neg Bool.false_ne_true]
      refine (gives_advance h₃ hne).seq ?_
      intro c₄ h₄ n₄
      rw [Primary.expr, ← n₁, ← n₂, ← n₃, ← n₄]
      exact (arguments_complete args (by omega) h₄ hr.ne_nil).map
  | .point word hword x y p hp, fuel, c, r, hfuel, hc, hr => by
      obtain ⟨f, rfl⟩ : ∃ f, fuel = f + 1 := ⟨fuel - 1, by simp [Primary.tokens] at hfuel; omega⟩
      simp only [Primary.tokens, List.cons_append, List.append_assoc, List.nil_append] at hc
      rw [primary]
      refine (gives_takeToken hc).seq ?_
      intro c₁ h₁ _
      refine (gives_advance h₁ (List.cons_ne_nil _ _)).seq ?_
      intro c₂ h₂ _
      refine (gives_isAt _ h₂).seq ?_
      intro c₃ h₃ _
      rw [beq_self_eq_true, if_pos rfl, hword, if_pos rfl]
      exact point_complete hp hr.ne_nil h₃

theorem arguments_complete : (a : Arguments) → {fuel : Nat} → {c : Cursor} → {r : List Token} →
    8 * a.tokens.length + 1 ≤ fuel → c.tokens = a.tokens ++ .symbol .closeParen :: r → r ≠ [] →
      Gives (arguments fuel) c (a.exprs c.placeholders) r a.placeholders
  | .done, fuel, c, r, hfuel, hc, hr => by
      obtain ⟨f, rfl⟩ : ∃ f, fuel = f + 1 := ⟨fuel - 1, by omega⟩
      rw [arguments]
      refine (gives_accept hc hr).seq ?_
      intro c₁ h₁ _
      exact gives_pure [] h₁
  | .last a, fuel, c, r, hfuel, hc, hr => by
      have hpos := a.length_tokens_pos
      rw [Arguments.tokens] at hfuel
      obtain ⟨f, rfl⟩ : ∃ f, fuel = f + 2 := ⟨fuel - 2, by omega⟩
      have hfirst : 8 * a.tokens.length ≤ f + 1 + 2 := by omega
      rw [arguments]
      refine (gives_not_close hc fun _ => a.tokens_ne_close).seq ?_
      intro c₁ h₁ n₁
      rw [if_neg Bool.false_ne_true, Arguments.exprs, ← n₁]
      refine (argument_complete a hfirst h₁ (stops_cons.mpr rfl)).close ?_
      intro c₂ h₂ _
      refine (gives_isAt _ h₂).seq ?_
      intro c₃ h₃ _
      rw [arguments]
      refine Gives.map (g := fun others => a.expr c₁.placeholders :: others) ?_
      refine (gives_accept h₃ hr).seq ?_
      intro c₄ h₄ _
      exact gives_pure [] h₄
  | .more a rest, fuel, c, r, hfuel, hc, hr => by
      have hpos := a.length_tokens_pos
      rw [Arguments.tokens, List.length_append, List.length_cons] at hfuel
      rw [Arguments.tokens, List.append_assoc] at hc
      obtain ⟨f, rfl⟩ : ∃ f, fuel = f + 1 := ⟨fuel - 1, by omega⟩
      have hne := List.append_ne_nil_of_right_ne_nil rest.tokens
        (List.cons_ne_nil (.symbol .closeParen) r)
      have hfirst : 8 * a.tokens.length ≤ f + 2 := by omega
      rw [arguments]
      refine (gives_not_close hc fun _ => a.tokens_ne_close).seq ?_
      intro c₁ h₁ n₁
      rw [if_neg Bool.false_ne_true, Arguments.exprs, ← n₁]
      refine (argument_complete a hfirst h₁ (stops_cons.mpr rfl)).bind ?_
      intro c₂ h₂ n₂
      refine (gives_isAt _ h₂).seq ?_
      intro c₃ h₃ n₃
      refine (gives_expect h₃ hne).seq ?_
      intro c₄ h₄ n₄
      rw [← n₂, ← n₃, ← n₄]
      exact (arguments_complete rest (by omega) h₄ hr).map

theorem argument_complete : (a : Argument) → {fuel : Nat} → {c : Cursor} → {r : List Token} →
    8 * a.tokens.length ≤ fuel + 2 → c.tokens = a.tokens ++ r → Stops extendsSum r →
      Gives (argument fuel) c (a.expr c.placeholders) r a.placeholders
  | .star, fuel, c, r, hfuel, hc, hr => by
      obtain ⟨f, rfl⟩ : ∃ f, fuel = f + 1 := ⟨fuel - 1, by simp [Argument.tokens] at hfuel; omega⟩
      rw [argument]
      refine (gives_accept hc hr.ne_nil).seq ?_
      intro c₁ h₁ _
      exact gives_pure _ h₁
  | .sum s, fuel, c, r, hfuel, hc, hr => by
      obtain ⟨t, ts, hs, ht⟩ := s.tokens_eq_cons
      have hpos := s.length_tokens_pos
      have hc' := hc
      rw [Argument.tokens] at hfuel
      rw [Argument.tokens, hs, List.cons_append] at hc
      obtain ⟨f, rfl⟩ : ∃ f, fuel = f + 1 := ⟨fuel - 1, by omega⟩
      -- no sum starts with a star, so it is not taken for one
      have hne : t ≠ .symbol .star := by
        rintro rfl
        cases ht
      rw [argument]
      refine (gives_accept_ne hc hne).seq ?_
      intro c₁ h₁ n₁
      rw [if_neg Bool.false_ne_true, Argument.expr, ← n₁]
      exact sum_complete s (by omega) (by rw [h₁, hs, List.cons_append]) hr

end

theorem listItems_complete {i : Items} {fuel : Nat} {c : Cursor} {r : List Token}
    (hfuel : 8 * i.tokens.length + 1 ≤ fuel)
    (hc : c.tokens = i.tokens ++ .symbol .closeParen :: r) (hr : r ≠ []) :
    Gives (listItems fuel) c (i.exprs c.placeholders) r i.placeholders := by
  induction i generalizing fuel c with
  | done =>
      obtain ⟨f, rfl⟩ : ∃ f, fuel = f + 1 := ⟨fuel - 1, by omega⟩
      rw [listItems]
      refine (gives_accept hc hr).seq ?_
      intro c₁ h₁ _
      exact gives_pure [] h₁
  | last s =>
      -- one step for the item and one for the closing parenthesis behind it
      have hpos := s.length_tokens_pos
      rw [Items.tokens] at hfuel
      obtain ⟨f, rfl⟩ : ∃ f, fuel = f + 2 := ⟨fuel - 2, by omega⟩
      have hfirst : 8 * s.tokens.length ≤ f + 1 + 3 := by omega
      rw [listItems]
      refine (gives_not_close hc fun _ => s.tokens_ne_close).seq ?_
      intro c₁ h₁ n₁
      rw [if_neg Bool.false_ne_true, Items.exprs, ← n₁]
      refine (sum_complete s hfirst h₁ (stops_cons.mpr rfl)).close ?_
      intro c₂ h₂ _
      refine (gives_isAt _ h₂).seq ?_
      intro c₃ h₃ _
      rw [listItems]
      refine Gives.map (g := fun others => s.expr c₁.placeholders :: others) ?_
      refine (gives_accept h₃ hr).seq ?_
      intro c₄ h₄ _
      exact gives_pure [] h₄
  | more s rest ih =>
      have hpos := s.length_tokens_pos
      rw [Items.tokens, List.length_append, List.length_cons] at hfuel
      rw [Items.tokens, List.append_assoc] at hc
      obtain ⟨f, rfl⟩ : ∃ f, fuel = f + 1 := ⟨fuel - 1, by omega⟩
      have hfirst : 8 * s.tokens.length ≤ f + 3 := by omega
      have hrest : 8 * rest.tokens.length + 1 ≤ f := by omega
      have hne := List.append_ne_nil_of_right_ne_nil rest.tokens
        (List.cons_ne_nil (.symbol .closeParen) r)
      rw [listItems]
      refine (gives_not_close hc fun _ => s.tokens_ne_close).seq ?_
      intro c₁ h₁ n₁
      rw [if_neg Bool.false_ne_true, Items.exprs, ← n₁]
      refine (sum_complete s hfirst h₁ (stops_cons.mpr rfl)).bind ?_
      intro c₂ h₂ n₂
      refine (gives_isAt _ h₂).seq ?_
      intro c₃ h₃ n₃
      refine (gives_expect h₃ hne).seq ?_
      intro c₄ h₄ n₄
      rw [← n₂, ← n₃, ← n₄]
      exact (ih hrest h₄).map

/-! ## Operands in front of an operator -/

theorem sumFrom_complete {pt : ProductTail} {st : SumTail} {left : Expr} {fuel : Nat} {c : Cursor}
    {r : List Token} (hfuel : 8 * pt.tokens.length + 8 * st.tokens.length + 1 ≤ fuel)
    (hc : c.tokens = pt.tokens ++ (st.tokens ++ r)) (hr : Stops extendsSum r) :
    Gives (sumFrom fuel left) c
      (st.expr (c.placeholders + pt.placeholders) (pt.expr c.placeholders left)) r
      (pt.placeholders + st.placeholders) := by
  unfold sumFrom
  refine (productTail_complete pt (by omega) hc (st.stops hr)).bind ?_
  intro c₁ h₁ n₁
  rw [← n₁]
  exact sumTail_complete st (by omega) h₁ hr

theorem not_endsClause_of_startsSum {t : Token} (h : startsSum t = true) :
    (endsClause t || t == .symbol .closeParen) = false := by
  unfold startsSum at h
  split at h
  all_goals first | rfl | cases h

/-- An operand that a reader of terms gives is what a reader of chains gives. -/
theorem chain_of_operand {fuel : Nat} {c : Cursor} {e : Expr} {r : List Token} {n : Nat}
    (h : Gives (term fuel) c (.expr e) r n) : Gives (chain (fuel + 1)) c (.expr e) r n := by
  rw [chain]
  refine h.close ?_
  intro c₁ h₁ _
  exact gives_pure _ h₁

theorem comparisonFrom_of_close {fuel : Nat} {left : Expr} {c : Cursor} {r : List Token}
    (h : c.tokens = .symbol .closeParen :: r) :
    Gives (comparisonFrom fuel left) c (.expr left) (.symbol .closeParen :: r) 0 := by
  unfold comparisonFrom
  refine (gives_token h).seq ?_
  intro c₁ h₁ _
  exact gives_pure _ h₁

/-- In front of a sum, with a parenthesis at its start or not, a reader of terms reads the sum and
goes on behind it as a reader of comparisons does. -/
theorem term_of_operand (s : Grammar.Sum) {fuel : Nat} {c : Cursor} {r r' : List Token}
    {a : PredicateOrExpr} {n : Nat} (hfuel : 8 * s.tokens.length ≤ fuel + 3)
    (hc : c.tokens = s.tokens ++ r) (hr : Stops extendsSum r)
    (h : ∀ c', c'.tokens = r → c'.placeholders = c.placeholders + s.placeholders →
      Gives (comparisonFrom fuel (s.expr c.placeholders)) c' a r' n) :
    Gives (term (fuel + 1)) c a r' (s.placeholders + n) := by
  -- by the size of the sum: one that starts with a parenthesis starts with a smaller sum in it
  by_cases hopen : c.current.token = .symbol .openParen
  · have hhead : s.tokens ++ r = .symbol .openParen :: c.rest.map PlacedToken.token := by
      rw [← hc, ← hopen]
      rfl
    obtain ⟨g, pt, st, rfl⟩ := Sum.eq_group_of_open hhead
    simp only [Sum.tokens, Product.tokens, Factor.tokens, Primary.tokens, List.length_cons,
      List.length_append, List.length_nil] at hfuel
    simp only [Sum.tokens, Product.tokens, Factor.tokens, Primary.tokens, List.cons_append,
      List.append_assoc, List.nil_append] at hc
    obtain ⟨f, rfl⟩ : ∃ f, fuel = f + 2 := ⟨fuel - 2, by omega⟩
    have hg : 8 * g.tokens.length ≤ f + 3 := by omega
    have hrest : pt.tokens ++ (st.tokens ++ r) ≠ [] :=
      List.append_ne_nil_of_right_ne_nil _ (List.append_ne_nil_of_right_ne_nil _ hr.ne_nil)
    rw [term]
    refine (gives_accept hc (List.append_ne_nil_of_right_ne_nil _ (List.cons_ne_nil _ _))).seq ?_
    intro c₁ h₁ n₁
    -- the parentheses hold an operand: the reader of chains gives it back
    have hinner : Gives (chain (f + 2)) c₁ (.expr (g.expr c₁.placeholders))
        (.symbol .closeParen :: (pt.tokens ++ (st.tokens ++ r))) g.placeholders :=
      chain_of_operand (term_of_operand g hg h₁ (stops_cons.mpr rfl)
        fun c' h' _ => comparisonFrom_of_close h')
    rw [if_pos rfl]
    show Gives _ _ _ _ (g.placeholders + pt.placeholders + st.placeholders + n)
    rw [Nat.add_assoc, Nat.add_assoc]
    refine hinner.bind ?_
    intro c₂ h₂ n₂
    refine (gives_expect h₂ hrest).seq ?_
    intro c₃ h₃ n₃
    rw [← Nat.add_assoc]
    refine (sumFrom_complete (by omega) h₃ hr).bind ?_
    intro c₄ h₄ n₄
    rw [n₃, n₂, n₁, Nat.add_assoc c.placeholders]
    refine h c₄ h₄ ?_
    rw [n₄, n₃, n₂, n₁]
    show _ = _ + (g.placeholders + pt.placeholders + st.placeholders)
    omega
  · obtain ⟨t, ts, hs, ht⟩ := s.tokens_eq_cons
    have hcurrent : c.current.token = t := current_of_tokens (by rw [hc, hs]; rfl)
    rw [term]
    refine Gives.seq ⟨c, run_accept_of_ne hopen, rfl, rfl⟩ ?_
    intro c₁ h₁ n₁
    have h₁' : c₁.current.token = t := current_of_tokens (h₁.trans (by rw [hc, hs]; rfl))
    rw [if_neg Bool.false_ne_true]
    refine Gives.seq ⟨c₁, run_token c₁, rfl, rfl⟩ ?_
    intro c₂ h₂ n₂
    rw [h₁', if_neg (by rw [not_endsClause_of_startsSum ht]; exact Bool.false_ne_true)]
    refine (sum_complete s hfuel (h₂.trans (h₁.trans hc)) hr).bind ?_
    intro c₃ h₃ n₃
    rw [n₂, n₁]
    exact h c₃ h₃ (by rw [n₃, n₂, n₁])
termination_by sizeOf s
decreasing_by
  subst_vars
  simp +arith

/-! ## Predicates -/

theorem comparisonOperator?_token (op : CompareOp) :
    comparisonOperator? (operatorToken op) = some op := by
  cases op <;> rfl

theorem connective?_token (op : LogicOp) : connective? (connectiveToken op) = some op := by
  cases op <;> rfl

theorem connective?_of_stops {t : Token} (h : extendsChain t = false) : connective? t = none := by
  unfold connective?
  split
  · cases h
  · cases h
  · rfl

/-- An operator with a sum behind it. -/
theorem comparisonFrom_compare {fuel : Nat} {left : Expr} {op : CompareOp} {right : Grammar.Sum}
    (hright : op = .isIn → right.tokens.head? ≠ some (.symbol .openParen)) {c : Cursor}
    {r : List Token} (hfuel : 8 * right.tokens.length ≤ fuel + 3)
    (hc : c.tokens = operatorToken op :: (right.tokens ++ r)) (hr : Stops extendsSum r) :
    Gives (comparisonFrom fuel left) c
      (.predicate (predicateOf ⟨left, op, right.expr c.placeholders⟩)) r right.placeholders := by
  unfold comparisonFrom
  refine (gives_token hc).seq ?_
  intro c₁ h₁ n₁
  rw [comparisonOperator?_token]
  refine (gives_advance h₁ (List.append_ne_nil_of_right_ne_nil _ hr.ne_nil)).seq ?_
  intro c₂ h₂ n₂
  rw [← n₁, ← n₂]
  refine Gives.map (g := fun e => PredicateOrExpr.predicate (predicateOf ⟨left, op, e⟩)) ?_
  obtain ⟨t, ts, hs, -⟩ := right.tokens_eq_cons
  have hcons : c₂.tokens = t :: (ts ++ r) := by rw [h₂, hs, List.cons_append]
  have hlist : ¬(op == .isIn && t == .symbol .openParen) = true := by
    intro h
    rw [Bool.and_eq_true, beq_iff_eq, beq_iff_eq] at h
    exact hright h.1 (by rw [hs, h.2]; rfl)
  unfold rightSide
  refine (gives_isAt _ hcons).seq ?_
  intro c₃ h₃ n₃
  rw [if_neg hlist, ← n₃]
  exact sum_complete right hfuel (h₃.trans (hcons.symm.trans h₂)) hr

/-- `IN` with a list behind it. -/
theorem comparisonFrom_isIn {fuel : Nat} {left : Expr} {items : Items} {c : Cursor} {r : List Token}
    (hfuel : 8 * items.tokens.length + 1 ≤ fuel)
    (hc : c.tokens =
      .keyword .IN :: .symbol .openParen :: (items.tokens ++ .symbol .closeParen :: r))
    (hr : r ≠ []) :
    Gives (comparisonFrom fuel left) c
      (.predicate (predicateOf ⟨left, .isIn, .list (items.exprs c.placeholders)⟩)) r
      items.placeholders := by
  have hne := List.append_ne_nil_of_right_ne_nil items.tokens
    (List.cons_ne_nil (.symbol .closeParen) r)
  unfold comparisonFrom
  refine (gives_token hc).seq ?_
  intro c₁ h₁ n₁
  refine (gives_advance h₁ (List.cons_ne_nil _ _)).seq ?_
  intro c₂ h₂ n₂
  rw [← n₁, ← n₂]
  refine Gives.map (g := fun e => PredicateOrExpr.predicate (predicateOf ⟨left, .isIn, e⟩)) ?_
  unfold rightSide
  refine (gives_isAt _ h₂).seq ?_
  intro c₃ h₃ n₃
  rw [if_pos (by rfl)]
  refine (gives_advance h₃ hne).seq ?_
  intro c₄ h₄ n₄
  rw [← n₃, ← n₄]
  exact (listItems_complete hfuel h₄ hr).map

mutual

/-- A chain that is derived is read. -/
theorem chain_complete : (ch : Chain) → {fuel : Nat} → {c : Cursor} → {r : List Token} →
    8 * ch.tokens.length ≤ fuel + 1 → c.tokens = ch.tokens ++ r → Stops extendsChain r →
      Gives (chain fuel) c (.predicate (ch.written c.placeholders).fold) r ch.placeholders
  | .mk t tail, fuel, c, r, hfuel, hc, hr => by
      have hpos := t.length_tokens_pos
      rw [Chain.tokens, List.length_append] at hfuel
      rw [Chain.tokens, List.append_assoc] at hc
      obtain ⟨f, rfl⟩ : ∃ f, fuel = f + 1 := ⟨fuel - 1, by omega⟩
      rw [chain]
      refine (term_complete t (by omega) hc (tail.stops hr)).bind ?_
      intro c₁ h₁ n₁
      rw [Chain.written, ← n₁]
      exact (chainTail_complete tail _ (by omega) h₁ hr).map

theorem chainTail_complete : (tail : ChainTail) → (left : Predicate) → {fuel : Nat} →
    {c : Cursor} → {r : List Token} → 8 * tail.tokens.length + 1 ≤ fuel →
      c.tokens = tail.tokens ++ r → Stops extendsChain r →
        Gives (chainTail fuel left.fold) c (tail.written c.placeholders left).fold r
          tail.placeholders
  | .done, left, fuel, c, r, hfuel, hc, hr => by
      obtain ⟨f, rfl⟩ : ∃ f, fuel = f + 1 := ⟨fuel - 1, by omega⟩
      obtain ⟨u, us, rfl, hu⟩ := hr
      rw [chainTail]
      refine (gives_token hc).seq ?_
      intro c₁ h₁ _
      rw [connective?_of_stops hu]
      exact gives_pure _ h₁
  | .more op t tail, left, fuel, c, r, hfuel, hc, hr => by
      rw [ChainTail.tokens, List.length_cons, List.length_append] at hfuel
      rw [ChainTail.tokens, List.cons_append, List.append_assoc] at hc
      obtain ⟨f, rfl⟩ : ∃ f, fuel = f + 1 := ⟨fuel - 1, by omega⟩
      have hne := List.append_ne_nil_of_right_ne_nil t.tokens (tail.stops hr).ne_nil
      have htail : 8 * tail.tokens.length + 1 ≤ f := by omega
      rw [chainTail]
      refine (gives_token hc).seq ?_
      intro c₁ h₁ n₁
      rw [connective?_token]
      refine (gives_advance h₁ hne).seq ?_
      intro c₂ h₂ n₂
      rw [ChainTail.written, ← n₁, ← n₂]
      refine (term_complete t (by omega) h₂ (tail.stops hr)).bind ?_
      intro c₃ h₃ n₃
      refine (gives_pure _ h₃).seq ?_
      intro c₄ h₄ n₄
      rw [← n₃, ← n₄]
      exact chainTail_complete tail (.logic op left (t.written _)) htail h₄ hr

/-- A term that is derived is read. -/
theorem term_complete : (t : Term) → {fuel : Nat} → {c : Cursor} → {r : List Token} →
    8 * t.tokens.length ≤ fuel + 2 → c.tokens = t.tokens ++ r → Stops extendsSum r →
      Gives (term fuel) c (.predicate (t.written c.placeholders).fold) r t.placeholders
  | .group inner, fuel, c, r, hfuel, hc, hr => by
      simp only [Term.tokens, List.length_cons, List.length_append, List.length_nil] at hfuel
      simp only [Term.tokens, List.cons_append, List.append_assoc, List.nil_append] at hc
      obtain ⟨f, rfl⟩ : ∃ f, fuel = f + 1 := ⟨fuel - 1, by omega⟩
      have hinner : 8 * inner.tokens.length ≤ f + 1 := by omega
      have hne := List.append_ne_nil_of_right_ne_nil inner.tokens
        (List.cons_ne_nil (.symbol .closeParen) r)
      rw [term]
      refine (gives_accept hc hne).seq ?_
      intro c₁ h₁ n₁
      rw [if_pos rfl, Term.written, ← n₁]
      refine (chain_complete inner hinner h₁ (stops_cons.mpr rfl)).close ?_
      intro c₂ h₂ _
      refine (gives_expect h₂ hr.ne_nil).seq ?_
      intro c₃ h₃ _
      exact gives_pure _ h₃
  | .compare left op right hright, fuel, c, r, hfuel, hc, hr => by
      simp only [Term.tokens, List.length_cons, List.length_append] at hfuel
      simp only [Term.tokens, List.cons_append, List.append_assoc] at hc
      obtain ⟨f, rfl⟩ : ∃ f, fuel = f + 1 := ⟨fuel - 1, by omega⟩
      refine term_of_operand left (by omega) hc
        (stops_cons.mpr (extendsSum_operatorToken op)) ?_
      intro c₁ h₁ n₁
      rw [Term.written, ← n₁]
      exact comparisonFrom_compare hright (by omega) h₁ hr
  | .isIn left items, fuel, c, r, hfuel, hc, hr => by
      simp only [Term.tokens, List.length_cons, List.length_append, List.length_nil] at hfuel
      simp only [Term.tokens, List.cons_append, List.append_assoc, List.nil_append] at hc
      obtain ⟨f, rfl⟩ : ∃ f, fuel = f + 1 := ⟨fuel - 1, by omega⟩
      refine term_of_operand left (by omega) hc (stops_cons.mpr rfl) ?_
      intro c₁ h₁ n₁
      rw [Term.written, ← n₁]
      exact comparisonFrom_isIn (by omega) h₁ hr.ne_nil

end

end RecordQuery.Reader
