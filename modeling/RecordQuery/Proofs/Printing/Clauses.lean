import RecordQuery.Proofs.Printing.Predicates
import RecordQuery.Proofs.Grammar.Exactness
import RecordQuery.Parse.Query
import RecordQuery.Query.Text
/-!
# Printed clauses

A reader `Reprints` when whatever it has read is printed as text that the same reader reads as the
same again, with the same parameters. This is shown for the parts of a query from the inside out:
operands and conditions, entries, lists with commas, and the clauses.

Where a part ends is decided by what stands behind it. The clauses of a query come in a fixed order, so
every token that opens a clause has a rank (`clauseRank`), and behind a clause stands only something
of a higher rank.
-/

namespace RecordQuery.Reader

open Grammar Lexer Cursor

variable {α β : Type}

/-! ## Reading again -/

/-- Wherever the tokens `ts` stand in front of something that `p` does not hold of, with `n` parameters
before them, the reader gives `a` and numbers `k` parameters. -/
def Echoes (m : Reader α) (p : Token → Bool) (n k : Nat) (a : α) (ts : List Token) : Prop :=
  ∀ (c : Cursor) (r : List Token), c.tokens = ts ++ r → Stops p r → c.placeholders = n →
    Gives m c a r k

/-- Whatever the reader gives in the tokens of a text has a text, unless it is not kept, and the tokens
of that are read as the same. -/
def Reprints (m : Reader α) (Kept : α → Prop) (Text : α → List Token → Prop) (p : Token → Bool) :
    Prop :=
  ∀ (c c' : Cursor) (a : α), c.Ended → Undotted c.tokens → m.run c = .ok a c' →
    c'.Ended ∧ Undotted c'.tokens ∧ ∃ k, c'.placeholders = c.placeholders + k ∧
      (Kept a → ∃ ts, Text a ts ∧ Echoes m p c.placeholders k a ts)

/-- Behind a token of a text, other than the last one and a dot, are the tokens of a text again. -/
theorem ended_next {c : Cursor} {t : Token} (hc : c.Ended) (hlexed : Undotted c.tokens)
    (hcurrent : c.current.token = t) (hend : t ≠ .endOfInput) (hdot : t ≠ .symbol .dot) :
    c.next.Ended ∧ Undotted c.next.tokens := by
  have hreads := hc.reads_token hcurrent hend
  rw [hreads.1] at hlexed
  exact ⟨hreads.ended hc, hlexed.tail hdot⟩

theorem Echoes.mono {m : Reader α} {p q : Token → Bool} {n k : Nat} {a : α} {ts : List Token}
    (h : Echoes m p n k a ts) (hpq : ∀ t, q t = false → p t = false) : Echoes m q n k a ts :=
  fun c r hc hr hn => h c r hc (hr.mono hpq) hn

theorem Reprints.mono {m : Reader α} {Kept : α → Prop} {Text : α → List Token → Prop}
    {p q : Token → Bool} (h : Reprints m Kept Text p) (hpq : ∀ t, q t = false → p t = false) :
    Reprints m Kept Text q := by
  intro c c' a hc hlexed hrun
  obtain ⟨hended, hbehind, k, hk, hecho⟩ := h _ _ _ hc hlexed hrun
  refine ⟨hended, hbehind, k, hk, fun hkept => ?_⟩
  obtain ⟨ts, htext, hts⟩ := hecho hkept
  exact ⟨ts, htext, hts.mono hpq⟩

/-! ## The order of clauses -/

/-- The place of the clause that a token opens, in the order of clauses; zero for other tokens. -/
def clauseRank : Token → Nat
  | .keyword .FROM => 1
  | .keyword .JOIN => 2
  | .keyword .INNER => 2
  | .keyword .LEFT => 2
  | .keyword .RIGHT => 2
  | .keyword .WHERE => 3
  | .keyword .GROUP => 4
  | .keyword .ORDER => 5
  | .keyword .START => 6
  | .keyword .LIMIT => 7
  | .endOfInput => 8
  | _ => 0

/-- `below rank t` holds when `t` opens no clause of that rank or a higher one. -/
def below (rank : Nat) (t : Token) : Bool :=
  clauseRank t < rank

/-- `continuesItem t` holds when `t` stands neither behind an item of a list nor behind the list. -/
def continuesItem (t : Token) : Bool :=
  t != .symbol .comma && below 1 t

theorem below_mono {i j : Nat} (hij : i ≤ j) (t : Token) (h : below j t = false) :
    below i t = false := by
  unfold below at h ⊢
  rw [decide_eq_false_iff_not] at h ⊢
  omega

/-- What opens a clause continues no predicate. -/
theorem extendsChain_of_below {i : Nat} (hi : 0 < i) (t : Token) (h : below i t = false) :
    extendsChain t = false := by
  have hrank : clauseRank t ≠ 0 := by
    unfold below at h
    rw [decide_eq_false_iff_not] at h
    omega
  cases t with
  | keyword k => cases k <;> first | rfl | exact absurd rfl hrank
  | endOfInput => rfl
  | _ => exact absurd rfl hrank

theorem extendsSum_of_below {i : Nat} (hi : 0 < i) (t : Token) (h : below i t = false) :
    extendsSum t = false :=
  extendsSum_of_chain t (extendsChain_of_below hi t h)

theorem continuesItem_of_below {i : Nat} (hi : 0 < i) (t : Token) (h : below i t = false) :
    continuesItem t = false := by
  unfold continuesItem
  rw [below_mono hi t h, Bool.and_false]

/-- What stands behind an item continues no operand. -/
theorem extendsSum_of_continuesItem (t : Token) (h : continuesItem t = false) :
    extendsSum t = false := by
  unfold continuesItem at h
  rw [Bool.and_eq_false_iff] at h
  rcases h with h | h
  · rw [bne_eq_false_iff_eq] at h
    rw [h]
    rfl
  · exact extendsSum_of_below Nat.one_pos t h

/-- Another keyword opens a clause of a lower rank. -/
theorem ne_of_below {i : Nat} {t u : Token} (h : below i t = false) (hu : clauseRank u < i) :
    t ≠ u := by
  rintro rfl
  unfold below at h
  rw [decide_eq_false_iff_not] at h
  exact h hu

/-! ## Operands and conditions -/

/-- The text of an operand. -/
def OperandText (e : Expr) (ts : List Token) : Prop :=
  Spells e.render.toList ts ∧ ∃ t us, ts = t :: us ∧ startsSum t = true

theorem expression_reprints : Reprints expression Expr.Kept OperandText extendsSum := by
  intro c c' e hc hlexed h
  unfold expression at h
  obtain ⟨c₀, _, hget, h₁⟩ := run_bind_ok.mp h
  cases hget
  obtain ⟨s, hreads, hs⟩ := sum_sound c.fuel hc h₁
  rw [hreads.1] at hlexed
  obtain ⟨hprints, hbehind⟩ := s.prints c.placeholders hlexed
  rw [hs] at hprints
  refine ⟨hreads.ended hc, hbehind, s.placeholders, hreads.2, fun hkept => ?_⟩
  obtain ⟨s', hs', hk, hspells, -⟩ := hprints.sum hkept
  obtain ⟨t, us, ht, hstarts⟩ := s'.tokens_eq_cons
  refine ⟨s'.tokens, ⟨hspells, t, us, ht, hstarts⟩, ?_⟩
  intro d r hd hr hn
  have hgives := expression_complete hd hr
  rwa [hn, hs', hk] at hgives

theorem clausePredicate_reprints (clause : PredicateClause) :
    Reprints (clausePredicate clause) Predicate.Kept (fun p ts => Spells p.render.toList ts)
      extendsChain := by
  intro c c' p hc hlexed h
  obtain ⟨d, hreads, hd⟩ := clausePredicate_sound hc h
  rw [hreads.1] at hlexed
  obtain ⟨hprints, hbehind⟩ := d.prints c.placeholders hlexed
  rw [hd] at hprints
  refine ⟨hreads.ended hc, hbehind, d.placeholders, hreads.2, fun hkept => ?_⟩
  obtain ⟨d', hd', hk, hspells⟩ := hprints.chain hkept
  refine ⟨d'.tokens, hspells, ?_⟩
  intro e r he hr hn
  have hgives : Gives (clausePredicate clause) e _ r _ := clausePredicate_complete he hr
  rwa [hn, hd', hk] at hgives

/-- A condition that always holds has no parameters. -/
theorem clausePredicate_always {clause : PredicateClause} {c c' : Cursor} (hc : c.Ended)
    (hlexed : Undotted c.tokens) (h : (clausePredicate clause).run c = .ok .always c') :
    c'.placeholders = c.placeholders := by
  obtain ⟨d, hreads, hd⟩ := clausePredicate_sound hc h
  rw [hreads.1] at hlexed
  obtain ⟨hprints, -⟩ := d.prints c.placeholders hlexed
  rw [hd] at hprints
  rw [hreads.2, hprints.counts rfl]
  rfl

theorem name_reprints (expected : Expected) :
    Reprints (name expected) (fun _ => True) (fun word ts => Spells word.toList ts)
      (fun _ => false) := by
  intro c c' word hc hlexed h
  obtain ⟨hcurrent, rfl⟩ := (run_name_ok hc).mp h
  have hreads := hc.reads_token hcurrent Token.noConfusion
  rw [hreads.1] at hlexed
  refine ⟨hreads.ended hc, hlexed.tail Token.noConfusion, 0, hreads.2, fun _ => ?_⟩
  refine ⟨_, spells_name hlexed.isName, ?_⟩
  intro d r hd hr _
  exact gives_name expected hd hr.ne_nil

/-! ## Entries -/

/-- The text of a column name. -/
def aliasText : Option String → List Char
  | some name => ' ' :: (Keyword.AS.text.toList ++ ' ' :: name.toList)
  | none => []

/-- A column name continues the operand in front of it no more than what stands behind it. -/
theorem columnAlias_reprints : Reprints columnAlias (fun _ => True)
    (fun a ts => Follows (aliasText a) ts ∧
      ∀ r, Stops continuesItem r → Stops extendsSum (ts ++ r)) continuesItem := by
  intro c c' a hc hlexed h
  unfold columnAlias at h
  by_cases hcurrent : c.current.token = .keyword .AS
  · rw [run_bind_of_ok (run_accept_of_eq hcurrent), if_pos rfl] at h
    obtain ⟨word, c₁, hword, h₁⟩ := run_bind_ok.mp h
    obtain ⟨rfl, rfl⟩ := run_pure_ok.mp h₁
    obtain ⟨hended₁, hlexed₁⟩ := ended_next hc hlexed hcurrent Token.noConfusion Token.noConfusion
    obtain ⟨hended, hbehind, k, hk, hecho⟩ := name_reprints _ _ _ _ hended₁ hlexed₁ hword
    rw [placeholders_next] at hk
    refine ⟨hended, hbehind, k, hk, fun _ => ?_⟩
    obtain ⟨ts, htext, hts⟩ := hecho trivial
    refine ⟨.keyword .AS :: ts, ⟨htext.follows (by decide), fun r _ => ⟨_, _, rfl, rfl⟩⟩, ?_⟩
    intro d r hd hr hn
    unfold columnAlias
    refine (gives_accept hd (List.append_ne_nil_of_right_ne_nil ts hr.ne_nil)).seq ?_
    intro d₁ h₁ n₁
    rw [if_pos rfl]
    exact (hts d₁ r h₁ (hr.mono fun _ _ => rfl) (by rw [n₁, hn, placeholders_next])).map
  · rw [run_bind_of_ok (run_accept_of_ne hcurrent), if_neg Bool.false_ne_true] at h
    obtain ⟨rfl, rfl⟩ := run_pure_ok.mp h
    refine ⟨hc, hlexed, 0, rfl, fun _ =>
      ⟨[], ⟨follows_nil, fun r hr => hr.mono extendsSum_of_continuesItem⟩, ?_⟩⟩
    intro d r hd hr hn
    obtain ⟨t, us, rfl, ht⟩ := hr
    unfold columnAlias
    refine (gives_accept_ne hd (by rintro rfl; cases ht)).seq ?_
    intro d₁ h₁ _
    rw [if_neg Bool.false_ne_true]
    exact gives_pure _ h₁

theorem startsSum_ne_star {t : Token} (h : startsSum t = true) : t ≠ .symbol .star := by
  rintro rfl
  cases h

theorem toList_render_selectField (e : Expr) (name? : Option String) :
    (SelectField.render ⟨e, name?⟩).toList = e.render.toList ++ aliasText name? := by
  cases name? with
  | none => simp [SelectField.render, aliasText]
  | some name => simp [SelectField.render, aliasText, Keyword.text]

theorem selectField_reprints : Reprints selectField (fun f => f.expr.Kept)
    (fun f ts => Spells f.render.toList ts) continuesItem := by
  intro c c' f hc hlexed h
  unfold selectField at h
  by_cases hcurrent : c.current.token = .symbol .star
  · rw [run_bind_of_ok (run_accept_of_eq hcurrent), if_pos rfl] at h
    obtain ⟨rfl, rfl⟩ := run_pure_ok.mp h
    obtain ⟨hended, hbehind⟩ := ended_next hc hlexed hcurrent Token.noConfusion (by decide)
    refine ⟨hended, hbehind, 0, placeholders_next c, fun _ => ?_⟩
    refine ⟨_, spells_star, ?_⟩
    intro d r hd hr _
    unfold selectField
    refine (gives_accept hd hr.ne_nil).seq ?_
    intro d₁ h₁ _
    rw [if_pos rfl]
    exact gives_pure _ h₁
  · rw [run_bind_of_ok (run_accept_of_ne hcurrent), if_neg Bool.false_ne_true] at h
    obtain ⟨e, c₁, he, h₁⟩ := run_bind_ok.mp h
    obtain ⟨name?, c₂, hname, h₂⟩ := run_bind_ok.mp h₁
    obtain ⟨rfl, rfl⟩ := run_pure_ok.mp h₂
    obtain ⟨hended, hlexed₁, k, hk, hecho⟩ := expression_reprints _ _ _ hc hlexed he
    obtain ⟨hended', hlexed₂, k', hk', hecho'⟩ := columnAlias_reprints _ _ _ hended hlexed₁ hname
    refine ⟨hended', hlexed₂, k + k', by rw [hk', hk, Nat.add_assoc], fun hkept => ?_⟩
    obtain ⟨ts, ⟨htext, t, us, rfl, hstarts⟩, hts⟩ := hecho hkept
    obtain ⟨vs, ⟨htext', hstops⟩, hvs⟩ := hecho' trivial
    refine ⟨t :: us ++ vs, ?_, ?_⟩
    · show Spells (SelectField.render _).toList _
      rw [toList_render_selectField]
      exact htext.append (List.cons_ne_nil _ _) htext'
    · intro d r hd hr hn
      rw [List.append_assoc] at hd
      unfold selectField
      refine (gives_accept_ne hd (startsSum_ne_star hstarts)).seq ?_
      intro d₁ h₁ n₁
      rw [if_neg Bool.false_ne_true]
      refine (hts d₁ _ h₁ (hstops r hr) (by rw [n₁, hn])).bind ?_
      intro d₂ h₂ n₂
      exact (hvs d₂ r h₂ hr (by rw [n₂, n₁, hn, hk])).map

theorem orderField_echoes_ascending {e : Expr} {n k : Nat} {ts : List Token}
    (h : Echoes expression extendsSum n k e ts) :
    Echoes orderField continuesItem n k ⟨e, false⟩ ts := by
  intro c r hc hr hn
  unfold orderField
  refine (h c r hc (hr.mono extendsSum_of_continuesItem) hn).close ?_
  intro c₁ h₁ _
  obtain ⟨t, us, rfl, ht⟩ := hr
  refine (gives_accept_ne h₁ (by rintro rfl; cases ht)).seq ?_
  intro c₂ h₂ _
  rw [if_neg Bool.false_ne_true]
  refine (gives_accept_ne h₂ (by rintro rfl; cases ht)).seq ?_
  intro c₃ h₃ _
  rw [if_neg Bool.false_ne_true]
  exact gives_pure _ h₃

theorem orderField_echoes_descending {e : Expr} {n k : Nat} {ts : List Token}
    (h : Echoes expression extendsSum n k e ts) :
    Echoes orderField continuesItem n k ⟨e, true⟩ (ts ++ [.keyword .DESC]) := by
  intro c r hc hr hn
  rw [List.append_assoc] at hc
  unfold orderField
  refine (h c _ hc ⟨_, _, rfl, rfl⟩ hn).close ?_
  intro c₁ h₁ _
  refine (gives_accept h₁ hr.ne_nil).seq ?_
  intro c₂ h₂ _
  rw [if_pos rfl]
  exact gives_pure _ h₂

theorem orderField_reprints : Reprints orderField (fun f => f.expr.Kept)
    (fun f ts => Spells f.render.toList ts) continuesItem := by
  intro c c' f hc hlexed h
  unfold orderField at h
  obtain ⟨e, c₁, he, h₁⟩ := run_bind_ok.mp h
  obtain ⟨hended, hlexed₁, k, hk, hecho⟩ := expression_reprints _ _ _ hc hlexed he
  by_cases hdesc : c₁.current.token = .keyword .DESC
  · rw [run_bind_of_ok (run_accept_of_eq hdesc), if_pos rfl] at h₁
    obtain ⟨rfl, rfl⟩ := run_pure_ok.mp h₁
    obtain ⟨hended₂, hlexed₂⟩ := ended_next hended hlexed₁ hdesc Token.noConfusion Token.noConfusion
    refine ⟨hended₂, hlexed₂, k, by rw [placeholders_next, hk], fun hkept => ?_⟩
    obtain ⟨ts, ⟨htext, t, us, rfl, -⟩, hts⟩ := hecho hkept
    refine ⟨_, ?_, orderField_echoes_descending hts⟩
    have htext' := htext.append (List.cons_ne_nil _ _) (follows_keyword .DESC)
    simpa [OrderField.render, Keyword.text] using htext'
  · rw [run_bind_of_ok (run_accept_of_ne hdesc), if_neg Bool.false_ne_true] at h₁
    by_cases hasc : c₁.current.token = .keyword .ASC
    · rw [run_bind_of_ok (run_accept_of_eq hasc), if_pos rfl] at h₁
      obtain ⟨rfl, rfl⟩ := run_pure_ok.mp h₁
      obtain ⟨hended₂, hlexed₂⟩ := ended_next hended hlexed₁ hasc Token.noConfusion Token.noConfusion
      -- the word is not printed again, since ascending is how rows are ordered without it
      refine ⟨hended₂, hlexed₂, k, by rw [placeholders_next, hk], fun hkept => ?_⟩
      obtain ⟨ts, ⟨htext, -⟩, hts⟩ := hecho hkept
      exact ⟨ts, htext, orderField_echoes_ascending hts⟩
    · rw [run_bind_of_ok (run_accept_of_ne hasc), if_neg Bool.false_ne_true] at h₁
      obtain ⟨rfl, rfl⟩ := run_pure_ok.mp h₁
      refine ⟨hended, hlexed₁, k, hk, fun hkept => ?_⟩
      obtain ⟨ts, ⟨htext, -⟩, hts⟩ := hecho hkept
      exact ⟨ts, htext, orderField_echoes_ascending hts⟩

/-! ## Lists -/

section Lists

variable {item : Reader α} {Kept : α → Prop} {render : α → String} {p : Token → Bool}

theorem commaList_echoes_last {n k : Nat} {a : α} {ts : List Token}
    (h : Echoes item continuesItem n k a ts) (fuel : Nat) :
    Echoes (commaList item fuel) (below 1) n k [a] ts := by
  intro c r hc hr hn
  have hitem := h c r hc (hr.mono (continuesItem_of_below Nat.one_pos)) hn
  cases fuel with
  | zero => exact hitem.map
  | succ fuel =>
      rw [commaList]
      refine hitem.close ?_
      intro c₁ h₁ _
      obtain ⟨t, us, rfl, ht⟩ := hr
      refine (gives_accept_ne h₁ (by rintro rfl; cases ht)).seq ?_
      intro c₂ h₂ _
      rw [if_neg Bool.false_ne_true]
      exact gives_pure _ h₂

theorem commaList_echoes_more {n k k' : Nat} {a : α} {as : List α} {ts us : List Token} {fuel : Nat}
    (h : Echoes item continuesItem n k a ts)
    (h' : Echoes (commaList item fuel) (below 1) (n + k) k' as us) :
    Echoes (commaList item (fuel + 1)) (below 1) n (k + k') (a :: as)
      (ts ++ .symbol .comma :: us) := by
  intro c r hc hr hn
  rw [List.append_assoc, List.cons_append] at hc
  rw [commaList]
  refine (h c _ hc ⟨_, _, rfl, rfl⟩ hn).bind ?_
  intro c₁ h₁ n₁
  refine (gives_accept h₁ (List.append_ne_nil_of_right_ne_nil us hr.ne_nil)).seq ?_
  intro c₂ h₂ n₂
  rw [if_pos rfl]
  exact (h' c₂ r h₂ hr (by rw [n₂, n₁, hn])).map

/-- The text of a list of items, of which there is at least one. -/
def ListText (render : α → String) (as : List α) (ts : List Token) : Prop :=
  as ≠ [] ∧ Spells (Expr.commaSeparated (as.map render)).toList ts

/-- The text of a list, and that it is read as this list in as many steps as there are tokens. -/
structure ListEcho (item : Reader α) (render : α → String) (n k : Nat) (as : List α)
    (ts : List Token) : Prop where
  text : ListText render as ts
  length_le : as.length ≤ ts.length + 1
  echoes : ∀ steps, as.length ≤ steps + 1 → Echoes (commaList item steps) (below 1) n k as ts

theorem listEcho_last {n k : Nat} {a : α} {ts : List Token} (htext : Spells (render a).toList ts)
    (h : Echoes item continuesItem n k a ts) : ListEcho item render n k [a] ts := by
  refine ⟨⟨List.cons_ne_nil _ _, ?_⟩, Nat.le_add_left _ _, fun steps _ =>
    commaList_echoes_last h steps⟩
  rw [List.map_singleton, commaSeparated_singleton]
  exact htext

theorem ListEcho.more {n k k' : Nat} {a : α} {as : List α} {ts us : List Token}
    (htext : Spells (render a).toList ts) (h : Echoes item continuesItem n k a ts)
    (h' : ListEcho item render (n + k) k' as us) :
    ListEcho item render n (k + k') (a :: as) (ts ++ .symbol .comma :: us) := by
  obtain ⟨⟨hne, htext'⟩, hlength, hechoes⟩ := h'
  obtain ⟨b, others, rfl⟩ := List.exists_cons_of_ne_nil hne
  refine ⟨⟨List.cons_ne_nil _ _, ?_⟩, ?_, fun steps hsteps => ?_⟩
  · rw [List.map_cons, List.map_cons, commaSeparated_cons]
    exact htext.comma htext'
  · simp only [List.length_append, List.length_cons] at hlength ⊢
    omega
  · rw [List.length_cons, List.length_cons] at hsteps
    obtain ⟨s, rfl⟩ : ∃ s, steps = s + 1 := ⟨steps - 1, by omega⟩
    exact commaList_echoes_more h (hechoes s (by rw [List.length_cons]; omega))

/-- The induction is on the steps the first reading may take; the second one has a step for every token
of the list, which is enough for the commas between its items. -/
theorem commaList_reprints
    (hitem : Reprints item Kept (fun a ts => Spells (render a).toList ts) continuesItem) (fuel : Nat)
    {c c' : Cursor} {as : List α} (hc : c.Ended) (hlexed : Undotted c.tokens)
    (h : (commaList item fuel).run c = .ok as c') :
    c'.Ended ∧ Undotted c'.tokens ∧ ∃ k, c'.placeholders = c.placeholders + k ∧
      ((∀ a ∈ as, Kept a) → ∃ ts, ListEcho item render c.placeholders k as ts) := by
  -- the list ends with its first item, because there is no comma or no step left
  have hone : ∀ {a : α} {c c₁ : Cursor}, c.Ended → Undotted c.tokens → item.run c = .ok a c₁ →
      c₁.Ended ∧ Undotted c₁.tokens ∧ ∃ k, c₁.placeholders = c.placeholders + k ∧
        ((∀ b ∈ [a], Kept b) → ∃ ts, ListEcho item render c.placeholders k [a] ts) := by
    intro a c c₁ hc hlexed h
    obtain ⟨hended, hbehind, k, hk, hecho⟩ := hitem _ _ _ hc hlexed h
    refine ⟨hended, hbehind, k, hk, fun hkept => ?_⟩
    obtain ⟨ts, htext, hts⟩ := hecho (hkept a (List.mem_singleton.mpr rfl))
    exact ⟨ts, listEcho_last htext hts⟩
  induction fuel generalizing c c' as with
  | zero =>
      rw [commaList] at h
      obtain ⟨a, c₁, ha, h₁⟩ := run_bind_ok.mp h
      obtain ⟨rfl, rfl⟩ := run_pure_ok.mp h₁
      exact hone hc hlexed ha
  | succ fuel ih =>
      rw [commaList] at h
      obtain ⟨a, c₁, ha, h₁⟩ := run_bind_ok.mp h
      by_cases hcomma : c₁.current.token = .symbol .comma
      · rw [run_bind_of_ok (run_accept_of_eq hcomma), if_pos rfl] at h₁
        obtain ⟨others, c₂, hothers, h₂⟩ := run_bind_ok.mp h₁
        obtain ⟨rfl, rfl⟩ := run_pure_ok.mp h₂
        obtain ⟨hended, hlexed₁, k, hk, hecho⟩ := hitem _ _ _ hc hlexed ha
        obtain ⟨hended₂, hlexed₂⟩ := ended_next hended hlexed₁ hcomma Token.noConfusion (by decide)
        obtain ⟨hended', hbehind, k', hk', hecho'⟩ := ih hended₂ hlexed₂ hothers
        rw [placeholders_next, hk] at hk' hecho'
        refine ⟨hended', hbehind, k + k', by rw [hk', Nat.add_assoc], fun hkept => ?_⟩
        obtain ⟨ts, htext, hts⟩ := hecho (hkept a (by simp))
        obtain ⟨us, hus⟩ := hecho' fun b hb => hkept b (by simp [hb])
        exact ⟨_, ListEcho.more htext hts hus⟩
      · rw [run_bind_of_ok (run_accept_of_ne hcomma), if_neg Bool.false_ne_true] at h₁
        obtain ⟨rfl, rfl⟩ := run_pure_ok.mp h₁
        exact hone hc hlexed ha

theorem commaSeparated_reprints
    (hitem : Reprints item Kept (fun a ts => Spells (render a).toList ts) continuesItem) :
    Reprints (commaSeparated item) (fun as => ∀ a ∈ as, Kept a) (ListText render) (below 1) := by
  intro c c' as hc hlexed h
  unfold commaSeparated at h
  obtain ⟨c₀, _, hget, h₁⟩ := run_bind_ok.mp h
  cases hget
  obtain ⟨hended, hbehind, k, hk, hecho⟩ := commaList_reprints hitem _ hc hlexed h₁
  refine ⟨hended, hbehind, k, hk, fun hkept => ?_⟩
  obtain ⟨ts, hts⟩ := hecho hkept
  refine ⟨ts, hts.text, ?_⟩
  intro d r hd hr hn
  have hsteps : as.length ≤ d.rest.length + 1 := by
    have hlength := hts.length_le
    have htokens := d.length_tokens
    rw [hd, List.length_append] at htokens
    have hpos := List.length_pos_iff.mpr hr.ne_nil
    omega
  unfold commaSeparated
  refine Gives.seq (⟨d, rfl, hd, rfl⟩ : Gives get d d (ts ++ r) 0) ?_
  intro d₁ h₁ n₁
  exact hts.echoes _ hsteps d₁ r h₁ hr (by rw [n₁, hn])

end Lists

end RecordQuery.Reader
