import RecordQuery.Proofs.Printing.Clauses
/-!
# Printed queries

The clauses of a query reprint, each in front of a clause of a higher rank, and so does the query.
-/

namespace RecordQuery.Reader

open Grammar Lexer Cursor

variable {α : Type}

/-- There are no tokens, or the first one opens a clause of a certain rank. -/
def OpensAt (rank : Nat) (ts : List Token) : Prop :=
  ts = [] ∨ ∃ t us, ts = t :: us ∧ clauseRank t = rank

/-- The text of a clause of a certain rank: nothing, or its words with a space in front. -/
structure ClauseText (rank : Nat) (text : List Char) (ts : List Token) : Prop where
  follows : Follows text ts
  opens : OpensAt rank ts

theorem clauseText_nil (rank : Nat) : ClauseText rank [] [] :=
  ⟨follows_nil, .inl rfl⟩

theorem stops_below {i : Nat} {t : Token} {r : List Token} (h : i ≤ clauseRank t) :
    Stops (below i) (t :: r) := by
  refine ⟨t, r, rfl, ?_⟩
  unfold below
  rw [decide_eq_false_iff_not]
  omega

/-- In front of clauses of a higher rank, a clause starts with something of its rank or higher. -/
theorem OpensAt.stops {rank : Nat} {ts r : List Token} (h : OpensAt rank ts)
    (hr : Stops (below (rank + 1)) r) : Stops (below rank) (ts ++ r) := by
  rcases h with rfl | ⟨t, us, rfl, ht⟩
  · exact hr.mono (below_mono (Nat.le_succ rank))
  · exact stops_below (Nat.le_of_eq ht.symm)

/-! ## Clauses that may be missing -/

theorem optional_echoes_absent {opening : Keyword} {rank : Nat} {absent : α} {body : Reader α}
    (hrank : clauseRank (.keyword opening) = rank) (n : Nat) :
    Echoes (optional opening absent body) (below (rank + 1)) n 0 absent [] := by
  intro c r hc hr _
  obtain ⟨t, us, rfl, ht⟩ := hr
  unfold optional
  refine (gives_accept_ne hc (ne_of_below ht (by omega))).seq ?_
  intro c₁ h₁ _
  rw [if_neg Bool.false_ne_true]
  exact gives_pure _ h₁

theorem optional_echoes_body {opening : Keyword} {absent : α} {body : Reader α} {p : Token → Bool}
    {n k : Nat} {a : α} {ts : List Token} (h : Echoes body p n k a ts) :
    Echoes (optional opening absent body) p n k a (.keyword opening :: ts) := by
  intro c r hc hr hn
  unfold optional
  refine (gives_accept hc (List.append_ne_nil_of_right_ne_nil ts hr.ne_nil)).seq ?_
  intro c₁ h₁ n₁
  rw [if_pos rfl]
  exact h c₁ r h₁ hr (by rw [n₁, hn])

/-- A clause that may be missing reprints when what stands behind its opening word does. -/
theorem optional_reprints {opening : Keyword} {rank : Nat} {absent : α} {body : Reader α}
    {Kept : α → Prop} {text : α → List Char} (hrank : clauseRank (.keyword opening) = rank)
    (habsent : text absent = [])
    (hbody : Reprints body Kept (fun a ts => Follows (text a) (.keyword opening :: ts)) (below 1)) :
    Reprints (optional opening absent body) Kept (fun a ts => ClauseText rank (text a) ts)
      (below (rank + 1)) := by
  intro c c' a hc hlexed h
  unfold optional at h
  by_cases hcurrent : c.current.token = .keyword opening
  · rw [run_bind_of_ok (run_accept_of_eq hcurrent), if_pos rfl] at h
    obtain ⟨hended₁, hlexed₁⟩ := ended_next hc hlexed hcurrent Token.noConfusion Token.noConfusion
    obtain ⟨hended, hbehind, k, hk, hecho⟩ := hbody _ _ _ hended₁ hlexed₁ h
    rw [placeholders_next] at hk hecho
    refine ⟨hended, hbehind, k, hk, fun hkept => ?_⟩
    obtain ⟨ts, htext, hts⟩ := hecho hkept
    exact ⟨_, ⟨htext, .inr ⟨_, _, rfl, hrank⟩⟩,
      (optional_echoes_body hts).mono (below_mono (Nat.le_add_left 1 rank))⟩
  · rw [run_bind_of_ok (run_accept_of_ne hcurrent), if_neg Bool.false_ne_true] at h
    obtain ⟨rfl, rfl⟩ := run_pure_ok.mp h
    refine ⟨hc, hlexed, 0, rfl, fun _ => ⟨[], ?_, optional_echoes_absent hrank _⟩⟩
    show ClauseText rank (text _) []
    rw [habsent]
    exact clauseText_nil rank

/-- A list behind `BY`. -/
theorem by_reprints {opening : Keyword} {words : String} {list : Reader (List α)}
    {Kept : List α → Prop} {render : α → String}
    (hwords : words.toList = ' ' :: (opening.text.toList ++ ' ' :: (Keyword.BY.text.toList ++ [' '])))
    (hlist : Reprints list Kept (ListText render) (below 1)) :
    Reprints (do expect (.keyword .BY); list) Kept
      (fun as ts => Follows (Query.listClause words (as.map render)).toList (.keyword opening :: ts))
      (below 1) := by
  intro c c' as hc hlexed h
  obtain ⟨u, c₁, hby, h₁⟩ := run_bind_ok.mp h
  obtain ⟨hcurrent, rfl⟩ := run_expect_ok.mp hby
  obtain ⟨hended₁, hlexed₁⟩ := ended_next hc hlexed hcurrent Token.noConfusion Token.noConfusion
  obtain ⟨hended, hbehind, k, hk, hecho⟩ := hlist _ _ _ hended₁ hlexed₁ h₁
  rw [placeholders_next] at hk hecho
  refine ⟨hended, hbehind, k, hk, fun hkept => ?_⟩
  obtain ⟨ts, ⟨hne, htext⟩, hts⟩ := hecho hkept
  refine ⟨.keyword .BY :: ts, ?_, ?_⟩
  · have hclause := (follows_keyword opening).append (htext.follows (k := .BY) (by decide))
    have hempty : (as.map render).isEmpty = false := by
      cases as with
      | nil => contradiction
      | cons a as => rfl
    show Follows (Query.listClause words (as.map render)).toList _
    rw [Query.listClause, hempty, if_neg Bool.false_ne_true, String.toList_append, hwords]
    simpa using hclause
  · intro d r hd hr hn
    refine (gives_expect hd (List.append_ne_nil_of_right_ne_nil ts hr.ne_nil)).seq ?_
    intro d₁ h₁ n₁
    exact hts d₁ r h₁ hr (by rw [n₁, hn])

/-! ## Numbers of rows -/

theorem toList_toString (n : Nat) : (toString n).toList = (Numeral.ofInt n).text := by
  rw [Numeral.text_ofInt]
  rfl

theorem count_reprints {opening : Keyword} (hopening : opening ≠ .NULL) {words : String}
    (hwords : words.toList = ' ' :: (opening.text.toList ++ [' '])) (clause : CountClause) :
    Reprints (do return some (← count clause)) (fun _ => True)
      (fun n? ts => Follows (Query.countClause words n?).toList (.keyword opening :: ts)) (below 1) := by
  intro c c' n? hc hlexed h
  obtain ⟨n, c₁, hcount, h₁⟩ := run_bind_ok.mp h
  obtain ⟨rfl, rfl⟩ := run_pure_ok.mp h₁
  obtain ⟨raw, hcurrent, -, hn, rfl⟩ := run_count_ok.mp hcount
  obtain ⟨hended, hbehind⟩ := ended_next hc hlexed hcurrent Token.noConfusion Token.noConfusion
  refine ⟨hended, hbehind, 0, placeholders_next c, fun _ => ?_⟩
  refine ⟨[.span (toString n)], ?_, ?_⟩
  · have hclause := (spells_numeral (Numeral.ofInt n)).follows hopening
    rw [← toList_toString, String.ofList_toList] at hclause
    show Follows (words ++ toString n).toList _
    rw [String.toList_append, hwords]
    simpa using hclause
  · intro d r hd hr _
    refine Gives.map (g := some) ?_
    have hnatural : Digits.natural? (toString n).toList = some n := by
      rw [Nat.toString_eq_repr, Nat.toList_repr]
      exact Digits.natural?_render n
    exact ⟨d.next, run_count_ok.mpr ⟨_, current_of_tokens hd, hnatural, hn, rfl⟩,
      tokens_next hd hr.ne_nil, placeholders_next d⟩

/-! ## Conditions -/

/-- The text of the condition of a query, of which there is none when it always holds. -/
def filterText (filter : Option Predicate) : List Char :=
  match filter with
  | some p => ' ' :: (Keyword.WHERE.text.toList ++ ' ' :: p.render.toList)
  | none => []

theorem filter_reprints : Reprints (optional .WHERE none filterClause)
    (fun filter => ∀ p ∈ filter, p.Kept)
    (fun filter ts => ClauseText 3 (filterText filter) ts ∧ ∀ p ∈ filter, p.isAlways = false)
    (below 4) := by
  intro c c' filter hc hlexed h
  unfold optional at h
  by_cases hcurrent : c.current.token = .keyword .WHERE
  · rw [run_bind_of_ok (run_accept_of_eq hcurrent), if_pos rfl] at h
    unfold filterClause at h
    obtain ⟨p, c₁, hp, h₁⟩ := run_bind_ok.mp h
    obtain ⟨rfl, rfl⟩ := run_pure_ok.mp h₁
    obtain ⟨hended₁, hlexed₁⟩ := ended_next hc hlexed hcurrent Token.noConfusion Token.noConfusion
    obtain ⟨hended, hbehind, k, hk, hecho⟩ :=
      clausePredicate_reprints .filter _ _ _ hended₁ hlexed₁ hp
    rw [placeholders_next] at hk hecho
    cases hp' : p.isAlways with
    | true =>
        -- the whole clause is gone, and no parameter with it
        obtain rfl := Predicate.eq_always_of_isAlways hp'
        have hnone := clausePredicate_always hended₁ hlexed₁ hp
        exact ⟨hended, hbehind, 0, by rw [hnone, placeholders_next]; rfl, fun _ =>
          ⟨[], ⟨clauseText_nil 3, fun _ hq => by cases hq⟩, optional_echoes_absent rfl _⟩⟩
    | false =>
        refine ⟨hended, hbehind, k, hk, fun hkept => ?_⟩
        obtain ⟨ts, htext, hts⟩ := hecho (hkept p rfl)
        refine ⟨.keyword .WHERE :: ts, ⟨⟨htext.follows (by decide), .inr ⟨_, _, rfl, rfl⟩⟩, ?_⟩, ?_⟩
        · intro q hq
          cases hq
          exact hp'
        · refine optional_echoes_body (fun d r hd hr hn => ?_)
          unfold filterClause
          have hgives := (hts d r hd (hr.mono (extendsChain_of_below (by decide))) hn).map
            (g := fun p => if p.isAlways = true then none else some p)
          rwa [hp'] at hgives
  · rw [run_bind_of_ok (run_accept_of_ne hcurrent), if_neg Bool.false_ne_true] at h
    obtain ⟨rfl, rfl⟩ := run_pure_ok.mp h
    exact ⟨hc, hlexed, 0, rfl, fun _ => ⟨[], ⟨clauseText_nil 3, fun _ hp => by cases hp⟩,
      optional_echoes_absent rfl _⟩⟩

/-! ## Joins -/

/-- The first word of a join as it is printed. -/
def joinWord : JoinKind → Keyword
  | .inner => .INNER
  | .left => .LEFT
  | .right => .RIGHT

/-- What the opening words of a join leave. -/
theorem joinKind_sound {c c' : Cursor} {kind? : Option JoinKind} (hc : c.Ended)
    (hlexed : Undotted c.tokens) (h : joinKind.run c = .ok kind? c') :
    c'.Ended ∧ Undotted c'.tokens ∧ c'.placeholders = c.placeholders ∧ (kind? = none → c' = c) := by
  have hword : ∀ {k : Keyword}, c.current.token = .keyword k →
      c.next.Ended ∧ Undotted c.next.tokens := fun hk =>
    ended_next hc hlexed hk Token.noConfusion Token.noConfusion
  have hjoin : ∀ {k : Keyword} {kind : JoinKind}, c.current.token = .keyword k →
      (do advance; expect (.keyword .JOIN); return some kind : Reader (Option JoinKind)).run c =
        .ok kind? c' → c'.Ended ∧ Undotted c'.tokens ∧ c'.placeholders = c.placeholders ∧
          (kind? = none → c' = c) := by
    intro k kind hk h
    obtain ⟨hended, hlexed₁⟩ := hword hk
    rw [run_bind_of_ok (run_advance c)] at h
    obtain ⟨u, c₁, hexpect, h₁⟩ := run_bind_ok.mp h
    obtain ⟨hcurrent, rfl⟩ := run_expect_ok.mp hexpect
    obtain ⟨rfl, rfl⟩ := run_pure_ok.mp h₁
    obtain ⟨hended₂, hlexed₂⟩ :=
      ended_next hended hlexed₁ hcurrent Token.noConfusion Token.noConfusion
    exact ⟨hended₂, hlexed₂, by simp, fun h => by cases h⟩
  unfold joinKind at h
  rw [run_bind_of_ok (run_token c)] at h
  split at h
  next hk =>
    obtain ⟨hended, hlexed₁⟩ := hword hk
    rw [run_bind_of_ok (run_advance c)] at h
    obtain ⟨rfl, rfl⟩ := run_pure_ok.mp h
    exact ⟨hended, hlexed₁, by simp, fun h => by cases h⟩
  next hk => exact hjoin hk h
  next hk => exact hjoin hk h
  next hk => exact hjoin hk h
  next =>
    obtain ⟨rfl, rfl⟩ := run_pure_ok.mp h
    exact ⟨hc, hlexed, rfl, fun _ => rfl⟩

theorem gives_joinKind {c : Cursor} {kind : JoinKind} {r : List Token}
    (hc : c.tokens = .keyword (joinWord kind) :: .keyword .JOIN :: r) (hr : r ≠ []) :
    Gives joinKind c (some kind) r 0 := by
  unfold joinKind
  refine (gives_token hc).seq ?_
  intro c₁ h₁ _
  cases kind
  all_goals
    refine (gives_advance h₁ (List.cons_ne_nil _ _)).seq ?_
    intro c₂ h₂ _
    refine (gives_expect h₂ hr).seq ?_
    intro c₃ h₃ _
    exact gives_pure _ h₃

theorem gives_joinKind_none {c : Cursor} {r : List Token} (hc : c.tokens = r)
    (hr : Stops (below 3) r) : Gives joinKind c none r 0 := by
  obtain ⟨t, us, rfl, ht⟩ := hr
  unfold joinKind
  refine (gives_token hc).seq ?_
  intro c₁ h₁ _
  split
  · cases ht
  · cases ht
  · cases ht
  · cases ht
  · exact gives_pure _ h₁

theorem toList_render_join (j : Join) : (" " ++ j.render).toList =
    ' ' :: (joinWord j.kind).text.toList ++
      (' ' :: (Keyword.JOIN.text.toList ++ ' ' :: j.resource.toList) ++
        ' ' :: (Keyword.ON.text.toList ++ ' ' :: j.condition.render.toList)) := by
  obtain ⟨kind, left, resource, condition⟩ := j
  cases kind <;> simp [Join.render, JoinKind.text, joinWord, Keyword.text]

/-- A join behind its opening words. -/
theorem join_reprints (kind : JoinKind) (first : String) : Reprints (join kind first)
    (fun j => j.condition.Kept)
    (fun j ts => j.kind = kind ∧ Follows (" " ++ j.render).toList
      (.keyword (joinWord kind) :: .keyword .JOIN :: ts)) extendsChain := by
  intro c c' j hc hlexed h
  unfold join at h
  obtain ⟨resource, c₁, hresource, h₁⟩ := run_bind_ok.mp h
  obtain ⟨u, c₂, hon, h₂⟩ := run_bind_ok.mp h₁
  obtain ⟨condition, c₃, hcondition, h₃⟩ := run_bind_ok.mp h₂
  obtain ⟨rfl, rfl⟩ := run_pure_ok.mp h₃
  obtain ⟨hended, hlexed₁, k, hk, hecho⟩ := name_reprints _ _ _ _ hc hlexed hresource
  obtain ⟨hcurrent, rfl⟩ := run_expect_ok.mp hon
  have hreads := hended.reads_token hcurrent Token.noConfusion
  rw [hreads.1] at hlexed₁
  obtain ⟨hended', hbehind, k', hk', hecho'⟩ :=
    clausePredicate_reprints .join _ _ _ (hreads.ended hended) (hlexed₁.tail Token.noConfusion) hcondition
  rw [placeholders_next, hk] at hk' hecho'
  refine ⟨hended', hbehind, k + k', by rw [hk', Nat.add_assoc], fun hkept => ?_⟩
  obtain ⟨ts, htext, hts⟩ := hecho trivial
  obtain ⟨us, htext', hus⟩ := hecho' hkept
  refine ⟨ts ++ .keyword .ON :: us, ⟨rfl, ?_⟩, ?_⟩
  · rw [toList_render_join]
    exact (follows_keyword (joinWord kind)).append
      ((htext.follows (k := .JOIN) (by decide)).append (htext'.follows (k := .ON) (by decide)))
  · intro d r hd hr hn
    rw [List.append_assoc, List.cons_append] at hd
    unfold join
    refine (hts d _ hd ⟨_, _, rfl, rfl⟩ hn).bind ?_
    intro d₁ h₁ n₁
    refine (gives_expect h₁ (List.append_ne_nil_of_right_ne_nil us hr.ne_nil)).seq ?_
    intro d₂ h₂ n₂
    exact (hus d₂ r h₂ hr (by rw [n₂, n₁, hn])).map

/-- The text of joins. -/
def joinsText (js : List Join) : List Char :=
  (String.join (js.map fun j => " " ++ j.render)).toList

theorem joinsText_cons (j : Join) (js : List Join) :
    joinsText (j :: js) = (" " ++ j.render).toList ++ joinsText js := by
  simp [joinsText, String.toList_join]

theorem joins_echoes_nil (first : String) (n steps : Nat) :
    Echoes (joins first steps) (below 3) n 0 [] [] := by
  intro c r hc hr _
  cases steps with
  | zero => exact gives_pure _ hc
  | succ steps =>
      rw [joins]
      refine (gives_joinKind_none hc hr).seq ?_
      intro c₁ h₁ _
      exact gives_pure _ h₁

theorem joins_echoes_cons {first : String} {kind : JoinKind} {j : Join} {js : List Join}
    {n k k' steps : Nat} {ts us : List Token} (h : Echoes (join kind first) extendsChain n k j ts)
    (hus : OpensAt 2 us) (h' : Echoes (joins first steps) (below 3) (n + k) k' js us) :
    Echoes (joins first (steps + 1)) (below 3) n (k + k') (j :: js)
      (.keyword (joinWord kind) :: .keyword .JOIN :: (ts ++ us)) := by
  intro c r hc hr hn
  rw [List.cons_append, List.cons_append, List.append_assoc] at hc
  have hstops := hus.stops hr
  rw [joins]
  refine (gives_joinKind hc (List.append_ne_nil_of_right_ne_nil ts hstops.ne_nil)).seq ?_
  intro c₁ h₁ n₁
  refine (h c₁ _ h₁ (hstops.mono (extendsChain_of_below (by decide))) (by rw [n₁, hn])).bind ?_
  intro c₂ h₂ n₂
  exact (h' c₂ r h₂ hr (by rw [n₂, n₁, hn])).map

/-- The text of joins, and that it is read as these joins in as many steps as there are tokens. -/
structure JoinsEcho (first : String) (n k : Nat) (js : List Join) (ts : List Token) : Prop where
  text : ClauseText 2 (joinsText js) ts
  length_le : js.length ≤ ts.length
  echoes : ∀ steps, js.length ≤ steps → Echoes (joins first steps) (below 3) n k js ts

theorem joinsEcho_nil (first : String) (n : Nat) : JoinsEcho first n 0 [] [] :=
  ⟨clauseText_nil 2, Nat.le_refl _, fun steps _ => joins_echoes_nil first n steps⟩

theorem JoinsEcho.cons {first : String} {j : Join} {js : List Join} {n k k' : Nat}
    {ts us : List Token} (htext : Follows (" " ++ j.render).toList
      (.keyword (joinWord j.kind) :: .keyword .JOIN :: ts))
    (h : Echoes (join j.kind first) extendsChain n k j ts) (h' : JoinsEcho first (n + k) k' js us) :
    JoinsEcho first n (k + k') (j :: js)
      (.keyword (joinWord j.kind) :: .keyword .JOIN :: (ts ++ us)) := by
  refine ⟨⟨?_, .inr ⟨_, _, rfl, ?_⟩⟩, ?_, fun steps hsteps => ?_⟩
  · rw [joinsText_cons]
    exact htext.append h'.text.follows
  · cases j.kind <;> rfl
  · have hlength := h'.length_le
    simp only [List.length_cons, List.length_append]
    omega
  · rw [List.length_cons] at hsteps
    obtain ⟨s, rfl⟩ : ∃ s, steps = s + 1 := ⟨steps - 1, by omega⟩
    exact joins_echoes_cons h h'.text.opens (h'.echoes s (by omega))

/-- The induction is on the steps the first reading may take. -/
theorem joins_reprints (first : String) (fuel : Nat) {c c' : Cursor} {js : List Join} (hc : c.Ended)
    (hlexed : Undotted c.tokens) (h : (joins first fuel).run c = .ok js c') :
    c'.Ended ∧ Undotted c'.tokens ∧ ∃ k, c'.placeholders = c.placeholders + k ∧
      ((∀ j ∈ js, j.condition.Kept) → ∃ ts, JoinsEcho first c.placeholders k js ts) := by
  induction fuel generalizing c js with
  | zero =>
      rw [joins] at h
      obtain ⟨rfl, rfl⟩ := run_pure_ok.mp h
      exact ⟨hc, hlexed, 0, rfl, fun _ => ⟨[], joinsEcho_nil first _⟩⟩
  | succ fuel ih =>
      rw [joins] at h
      obtain ⟨kind?, c₁, hkind, h₁⟩ := run_bind_ok.mp h
      obtain ⟨hended, hlexed₁, hnone, hstay⟩ := joinKind_sound hc hlexed hkind
      cases kind? with
      | none =>
          obtain ⟨rfl, rfl⟩ := run_pure_ok.mp h₁
          obtain rfl := hstay rfl
          exact ⟨hc, hlexed, 0, rfl, fun _ => ⟨[], joinsEcho_nil first _⟩⟩
      | some kind =>
          obtain ⟨j, c₂, hj, h₂⟩ := run_bind_ok.mp h₁
          obtain ⟨others, c₃, hothers, h₃⟩ := run_bind_ok.mp h₂
          obtain ⟨rfl, rfl⟩ := run_pure_ok.mp h₃
          obtain ⟨hended₂, hlexed₂, k, hk, hecho⟩ := join_reprints kind first _ _ _ hended hlexed₁ hj
          obtain ⟨hended₃, hlexed₃, k', hk', hecho'⟩ := ih hended₂ hlexed₂ hothers
          rw [hnone] at hk hecho
          rw [hk] at hk' hecho'
          refine ⟨hended₃, hlexed₃, k + k', by rw [hk', Nat.add_assoc], fun hkept => ?_⟩
          obtain ⟨ts, ⟨rfl, htext⟩, hts⟩ := hecho (hkept j (by simp))
          obtain ⟨us, hus⟩ := hecho' fun i hi => hkept i (by simp [hi])
          exact ⟨_, JoinsEcho.cons htext hts hus⟩

/-! ## The whole query -/

theorem fields_reprints : Reprints (commaSeparated selectField) (fun fs => ∀ f ∈ fs, f.expr.Kept)
    (ListText SelectField.render) (below 1) :=
  commaSeparated_reprints selectField_reprints

theorem resources_reprints : Reprints (commaSeparated (name .resourceName)) (fun _ => True)
    (ListText id) (below 1) := by
  intro c c' names hc hlexed h
  have hname : Reprints (name .resourceName) (fun _ => True)
      (fun a ts => Spells (id a).toList ts) continuesItem :=
    (name_reprints .resourceName).mono fun _ _ => rfl
  obtain ⟨hended, hbehind, k, hk, hecho⟩ := commaSeparated_reprints hname c c' names hc hlexed h
  exact ⟨hended, hbehind, k, hk, fun _ => hecho fun _ _ => trivial⟩

theorem groupBy_reprints :
    Reprints (optional .GROUP [] do expect (.keyword .BY); commaSeparated expression)
      (fun es => ∀ e ∈ es, e.Kept)
      (fun es ts => ClauseText 4 (Query.listClause " GROUP BY " (es.map Expr.render)).toList ts)
      (below 5) := by
  refine optional_reprints rfl rfl (by_reprints (by decide) ?_)
  refine commaSeparated_reprints ?_
  intro c c' e hc hlexed h
  obtain ⟨hended, hbehind, k, hk, hecho⟩ := expression_reprints _ _ _ hc hlexed h
  refine ⟨hended, hbehind, k, hk, fun hkept => ?_⟩
  obtain ⟨ts, ⟨htext, -⟩, hts⟩ := hecho hkept
  exact ⟨ts, htext, hts.mono extendsSum_of_continuesItem⟩

theorem orderBy_reprints :
    Reprints (optional .ORDER [] do expect (.keyword .BY); commaSeparated orderField)
      (fun fs => ∀ f ∈ fs, f.expr.Kept)
      (fun fs ts => ClauseText 5 (Query.listClause " ORDER BY " (fs.map OrderField.render)).toList ts)
      (below 6) :=
  optional_reprints rfl rfl (by_reprints (by decide) (commaSeparated_reprints orderField_reprints))

theorem start_reprints : Reprints (optional .START none do return some (← count .start))
    (fun _ => True) (fun n? ts => ClauseText 6 (Query.countClause " START " n?).toList ts) (below 7) :=
  optional_reprints rfl rfl (count_reprints (by decide) (by decide) .start)

theorem limit_reprints : Reprints (optional .LIMIT none do return some (← count .limit))
    (fun _ => True) (fun n? ts => ClauseText 7 (Query.countClause " LIMIT " n?).toList ts) (below 8) :=
  optional_reprints rfl rfl (count_reprints (by decide) (by decide) .limit)

end RecordQuery.Reader

namespace RecordQuery

/-- `q.Kept` holds when every literal and every comparison of `q` is kept when it is printed. -/
structure Query.Kept (q : Query) : Prop where
  fields : ∀ f ∈ q.fields, f.expr.Kept
  joins : ∀ j ∈ q.joins, j.condition.Kept
  filter : ∀ p ∈ q.filter?, p.Kept
  groupBy : ∀ e ∈ q.groupBy, e.Kept
  orderBy : ∀ f ∈ q.orderBy, f.expr.Kept

end RecordQuery

namespace RecordQuery.Reader

open Grammar Lexer Cursor

/-- The text of a query, from the texts of its clauses. -/
theorem spells_query {q : Query} {fs rs js ws gs os ss ls : List Token}
    (hfields : ListText SelectField.render q.fields fs) (hresources : ListText id q.resources rs)
    (hjoins : ClauseText 2 (joinsText q.joins) js) (hfilter : ClauseText 3 (filterText q.filter?) ws)
    (halways : ∀ p ∈ q.filter?, p.isAlways = false)
    (hgroup : ClauseText 4 (Query.listClause " GROUP BY " (q.groupBy.map Expr.render)).toList gs)
    (horder : ClauseText 5 (Query.listClause " ORDER BY " (q.orderBy.map OrderField.render)).toList os)
    (hstart : ClauseText 6 (Query.countClause " START " q.start?).toList ss)
    (hlimit : ClauseText 7 (Query.countClause " LIMIT " q.limit?).toList ls) :
    Spells q.render.toList (.keyword .SELECT :: (fs ++ .keyword .FROM ::
      (rs ++ (js ++ (ws ++ (gs ++ (os ++ (ss ++ ls)))))))) := by
  have hwhere : q.filterClause.toList = filterText q.filter? := by
    unfold Query.filterClause Query.predicate
    cases hfilter? : q.filter? with
    | none => rfl
    | some p =>
        rw [hfilter?] at halways
        rw [Option.getD_some, halways p rfl, if_neg Bool.false_ne_true]
        simp [filterText, Keyword.text]
  have hclauses := hjoins.follows.append (hfilter.follows.append (hgroup.follows.append
    (horder.follows.append (hstart.follows.append hlimit.follows))))
  have hfrom := (hresources.2.follows (k := .FROM) (by decide)).append hclauses
  have hall := (hfields.2.behind (k := .SELECT) (by decide)).append (List.cons_ne_nil _ _) hfrom
  rw [List.map_id, ← hwhere] at hall
  simpa [Query.render, joinsText, Keyword.text] using hall

theorem eq_end_of_below {t : Token} (h : below 8 t = false) : t = .endOfInput := by
  cases t with
  | endOfInput => rfl
  | keyword k => cases k <;> cases h
  | _ => cases h

/-- The tokens of a query are read as this query when those of its clauses are read as these. -/
theorem query_echoes {q : Query} {n k₁ k₂ k₃ k₄ k₅ k₆ k₇ k₈ : Nat}
    {fs rs js ws gs os ss ls : List Token}
    (hfields : Echoes (commaSeparated selectField) (below 1) n k₁ q.fields fs)
    (hresources : Echoes (commaSeparated (name .resourceName)) (below 1) (n + k₁) k₂ q.resources rs)
    (hjoins : JoinsEcho (q.resources.headD "") (n + k₁ + k₂) k₃ q.joins js)
    (hfilter : Echoes (optional .WHERE none filterClause) (below 4) (n + k₁ + k₂ + k₃) k₄ q.filter? ws)
    (hws : OpensAt 3 ws)
    (hgroup : Echoes (optional .GROUP [] do expect (.keyword .BY); commaSeparated expression)
      (below 5) (n + k₁ + k₂ + k₃ + k₄) k₅ q.groupBy gs)
    (hgs : OpensAt 4 gs)
    (horder : Echoes (optional .ORDER [] do expect (.keyword .BY); commaSeparated orderField)
      (below 6) (n + k₁ + k₂ + k₃ + k₄ + k₅) k₆ q.orderBy os)
    (hos : OpensAt 5 os)
    (hstart : Echoes (optional .START none do return some (← count .start)) (below 7)
      (n + k₁ + k₂ + k₃ + k₄ + k₅ + k₆) k₇ q.start? ss)
    (hss : OpensAt 6 ss)
    (hlimit : Echoes (optional .LIMIT none do return some (← count .limit)) (below 8)
      (n + k₁ + k₂ + k₃ + k₄ + k₅ + k₆ + k₇) k₈ q.limit? ls)
    (hls : OpensAt 7 ls)
    (hcount : q.placeholders = n + k₁ + k₂ + k₃ + k₄ + k₅ + k₆ + k₇ + k₈) :
    Echoes query (below 8) n (k₁ + (k₂ + (k₃ + (k₄ + (k₅ + (k₆ + (k₇ + k₈))))))) q
      (.keyword .SELECT :: (fs ++ .keyword .FROM ::
        (rs ++ (js ++ (ws ++ (gs ++ (os ++ (ss ++ ls)))))))) := by
  intro c r hc hr hn
  simp only [List.cons_append, List.append_assoc] at hc
  -- from the last clause to the first: each one ends where a clause of a higher rank opens
  have hstops₇ := hls.stops hr
  have hstops₆ := hss.stops hstops₇
  have hstops₅ := hos.stops hstops₆
  have hstops₄ := hgs.stops hstops₅
  have hstops₃ := hws.stops hstops₄
  have hstops₂ := hjoins.text.opens.stops hstops₃
  have hrest := List.append_ne_nil_of_right_ne_nil rs hstops₂.ne_nil
  unfold query
  refine (gives_expect hc (List.append_ne_nil_of_right_ne_nil fs (List.cons_ne_nil _ _))).seq ?_
  intro c₁ h₁ n₁
  refine (hfields c₁ _ h₁ (stops_below (Nat.le_refl 1)) (by rw [n₁, hn])).bind ?_
  intro c₂ h₂ n₂
  refine (gives_expect h₂ hrest).seq ?_
  intro c₃ h₃ n₃
  refine (hresources c₃ _ h₃ (hstops₂.mono (below_mono (by decide)))
    (by rw [n₃, n₂, n₁, hn])).bind ?_
  intro c₄ h₄ n₄
  refine Gives.seq (⟨c₄, rfl, h₄, rfl⟩ : Gives get c₄ c₄ _ 0) ?_
  intro c₄' h₄' n₄'
  -- a join takes at least two tokens, so there is a step for each of them
  have hsteps : q.joins.length ≤ c₄.rest.length := by
    have hlength := hjoins.length_le
    have htokens := c₄.length_tokens
    have hpos := List.length_pos_iff.mpr hstops₃.ne_nil
    rw [h₄, List.length_append] at htokens
    omega
  refine (hjoins.echoes _ hsteps c₄' _ h₄' hstops₃ (by rw [n₄', n₄, n₃, n₂, n₁, hn])).bind ?_
  intro c₅ h₅ n₅
  refine (hfilter c₅ _ h₅ hstops₄ (by rw [n₅, n₄', n₄, n₃, n₂, n₁, hn])).bind ?_
  intro c₆ h₆ n₆
  refine (hgroup c₆ _ h₆ hstops₅ (by rw [n₆, n₅, n₄', n₄, n₃, n₂, n₁, hn])).bind ?_
  intro c₇ h₇ n₇
  refine (horder c₇ _ h₇ hstops₆ (by rw [n₇, n₆, n₅, n₄', n₄, n₃, n₂, n₁, hn])).bind ?_
  intro c₈ h₈ n₈
  refine (hstart c₈ _ h₈ hstops₇ (by rw [n₈, n₇, n₆, n₅, n₄', n₄, n₃, n₂, n₁, hn])).bind ?_
  intro c₉ h₉ n₉
  refine (hlimit c₉ _ h₉ hr (by rw [n₉, n₈, n₇, n₆, n₅, n₄', n₄, n₃, n₂, n₁, hn])).close ?_
  intro c₁₀ h₁₀ n₁₀
  obtain ⟨t, us, rfl, ht⟩ := hr
  have hend : t = .endOfInput := eq_end_of_below ht
  refine (gives_isAt .endOfInput h₁₀).seq ?_
  intro c₁₁ h₁₁ n₁₁
  rw [if_pos (beq_iff_eq.mpr hend)]
  refine Gives.seq (⟨c₁₁, rfl, h₁₁, rfl⟩ : Gives get c₁₁ c₁₁ _ 0) ?_
  intro c₁₂ h₁₂ _
  have hplaceholders : c₁₁.placeholders = q.placeholders := by
    rw [hcount, n₁₁, n₁₀, n₉, n₈, n₇, n₆, n₅, n₄', n₄, n₃, n₂, n₁, hn]
  rw [hplaceholders]
  exact gives_pure q h₁₂

/-- Whatever is read as a query is printed as text that is read as this query. -/
theorem query_reprints :
    Reprints query Query.Kept (fun q ts => Spells q.render.toList ts) (below 8) := by
  intro c c' q hc hlexed h
  unfold query at h
  obtain ⟨u, c₁, hselect, h⟩ := run_bind_ok.mp h
  obtain ⟨hcurrent, rfl⟩ := run_expect_ok.mp hselect
  obtain ⟨e₁, l₁⟩ := ended_next hc hlexed hcurrent Token.noConfusion Token.noConfusion
  obtain ⟨fields, c₂, hfields, h⟩ := run_bind_ok.mp h
  obtain ⟨e₂, l₂, k₁, n₁, hfields⟩ := fields_reprints _ _ _ e₁ l₁ hfields
  obtain ⟨u, c₃, hfrom, h⟩ := run_bind_ok.mp h
  obtain ⟨hcurrent₂, rfl⟩ := run_expect_ok.mp hfrom
  obtain ⟨e₃, l₃⟩ := ended_next e₂ l₂ hcurrent₂ Token.noConfusion Token.noConfusion
  obtain ⟨resources, c₄, hresources, h⟩ := run_bind_ok.mp h
  obtain ⟨e₄, l₄, k₂, n₂, hresources⟩ := resources_reprints _ _ _ e₃ l₃ hresources
  obtain ⟨_, _, hget, h⟩ := run_bind_ok.mp h
  cases hget
  obtain ⟨joins, c₅, hjoins, h⟩ := run_bind_ok.mp h
  obtain ⟨e₅, l₅, k₃, n₃, hjoins⟩ := joins_reprints _ _ e₄ l₄ hjoins
  obtain ⟨filter, c₆, hfilter, h⟩ := run_bind_ok.mp h
  obtain ⟨e₆, l₆, k₄, n₄, hfilter⟩ := filter_reprints _ _ _ e₅ l₅ hfilter
  obtain ⟨groupBy, c₇, hgroup, h⟩ := run_bind_ok.mp h
  obtain ⟨e₇, l₇, k₅, n₅, hgroup⟩ := groupBy_reprints _ _ _ e₆ l₆ hgroup
  obtain ⟨orderBy, c₈, horder, h⟩ := run_bind_ok.mp h
  obtain ⟨e₈, l₈, k₆, n₆, horder⟩ := orderBy_reprints _ _ _ e₇ l₇ horder
  obtain ⟨start, c₉, hstart, h⟩ := run_bind_ok.mp h
  obtain ⟨e₉, l₉, k₇, n₇, hstart⟩ := start_reprints _ _ _ e₈ l₈ hstart
  obtain ⟨limit, c₁₀, hlimit, h⟩ := run_bind_ok.mp h
  obtain ⟨e₁₀, l₁₀, k₈, n₈, hlimit⟩ := limit_reprints _ _ _ e₉ l₉ hlimit
  rw [run_bind_of_ok (run_isAt _ c₁₀)] at h
  by_cases hend : c₁₀.current.token = .endOfInput
  · rw [if_pos (beq_iff_eq.mpr hend)] at h
    obtain ⟨_, _, hget, h⟩ := run_bind_ok.mp h
    cases hget
    obtain ⟨rfl, rfl⟩ := run_pure_ok.mp h
    -- the parameters of every clause are numbered behind those of the clauses before it
    simp only [placeholders_next] at n₁ n₂ hfields hresources
    rw [n₁] at n₂ hresources
    rw [n₂] at n₃ hjoins
    rw [n₃] at n₄ hfilter
    rw [n₄] at n₅ hgroup
    rw [n₅] at n₆ horder
    rw [n₆] at n₇ hstart
    rw [n₇] at n₈ hlimit
    refine ⟨e₁₀, l₁₀, k₁ + (k₂ + (k₃ + (k₄ + (k₅ + (k₆ + (k₇ + k₈)))))), ?_, fun hkept => ?_⟩
    · rw [n₈]
      omega
    · obtain ⟨fs, hfs, hfields⟩ := hfields hkept.fields
      obtain ⟨rs, hrs, hresources⟩ := hresources trivial
      obtain ⟨js, hjoins⟩ := hjoins hkept.joins
      obtain ⟨ws, ⟨hws, halways⟩, hfilter⟩ := hfilter hkept.filter
      obtain ⟨gs, hgs, hgroup⟩ := hgroup hkept.groupBy
      obtain ⟨os, hos, horder⟩ := horder hkept.orderBy
      obtain ⟨ss, hss, hstart⟩ := hstart trivial
      obtain ⟨ls, hls, hlimit⟩ := hlimit trivial
      exact ⟨_, spells_query hfs hrs hjoins.text hws halways hgs hos hss hls,
        query_echoes hfields hresources hjoins hfilter hws.opens hgroup hgs.opens horder hos.opens
          hstart hss.opens hlimit hls.opens n₈⟩
  · rw [if_neg (by rwa [beq_iff_eq])] at h
    cases h

end RecordQuery.Reader
