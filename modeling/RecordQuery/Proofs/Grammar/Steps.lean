import RecordQuery.Parse.Query
/-!
# Steps of a reader

What the small readers do to a cursor, one lemma each, so that no later proof opens them. `Reads c ts
n c'` says that from `c` to `c'` the tokens `ts` were taken and `n` parameters were numbered; readings
are put together by `trans`. `Gives m c a r n` says that a reader succeeds: from `c` it gives `a`,
leaves the tokens `r` ahead and numbers `n` parameters; such steps are put together by `bind`.

A cursor never moves on from the last token, so a reading is only the taking of tokens in front of an
end: `Ended c` says that the last token is the end of the input.
-/

namespace RecordQuery

variable {α β : Type}

namespace Cursor

/-- The tokens ahead, the current one first. -/
def tokens (c : Cursor) : List Token :=
  c.current.token :: c.rest.map PlacedToken.token

/-- The last token is the end of the input. -/
def Ended (c : Cursor) : Prop :=
  ∃ ts, c.tokens = ts ++ [.endOfInput]

/-- From `c` to `c'` the tokens `ts` were taken and `n` parameters were numbered. -/
def Reads (c : Cursor) (ts : List Token) (n : Nat) (c' : Cursor) : Prop :=
  c.tokens = ts ++ c'.tokens ∧ c'.placeholders = c.placeholders + n

theorem tokens_ne_nil (c : Cursor) : c.tokens ≠ [] := by
  simp [tokens]

theorem length_tokens (c : Cursor) : c.tokens.length = c.rest.length + 1 := by
  simp [tokens]

theorem current_of_tokens {c : Cursor} {t : Token} {ts : List Token} (h : c.tokens = t :: ts) :
    c.current.token = t := by
  rw [tokens] at h
  exact (List.cons.inj h).1

@[simp]
theorem placeholders_next (c : Cursor) : c.next.placeholders = c.placeholders := by
  unfold next
  split <;> rfl

/-- The cursor at the start of a text has all its tokens ahead. -/
theorem tokens_ofTokens {placed : List PlacedToken} {body : List Token}
    (h : placed.map PlacedToken.token = body ++ [.endOfInput]) :
    (ofTokens placed).tokens = placed.map PlacedToken.token := by
  cases placed with
  | nil => simp at h
  | cons t rest => rfl

theorem placeholders_ofTokens (placed : List PlacedToken) : (ofTokens placed).placeholders = 0 := by
  cases placed <;> rfl

/-- In front of another token, moving on takes the current one. -/
theorem tokens_next {c : Cursor} {t : Token} {ts : List Token} (h : c.tokens = t :: ts)
    (hts : ts ≠ []) : c.next.tokens = ts := by
  obtain ⟨current, rest, n⟩ := c
  cases rest with
  | nil => exact absurd (by simpa [tokens] using h : _ ∧ [] = ts).2.symm hts
  | cons t' rest' =>
      simp only [tokens, List.map_cons, List.cons.injEq] at h
      simp only [next, tokens]
      exact h.2

/-- Moving on takes the current token when that is not the end of the input. -/
theorem Ended.reads_next {c : Cursor} (h : c.Ended) (hc : c.current.token ≠ .endOfInput) :
    c.Reads [c.current.token] 0 c.next := by
  refine ⟨?_, by simp⟩
  obtain ⟨ts, hts⟩ := h
  have hcons : c.tokens = c.current.token :: c.rest.map PlacedToken.token := rfl
  rw [tokens_next hcons ?_]
  · rfl
  · intro hrest
    cases ts with
    | nil =>
        rw [hcons] at hts
        exact hc (List.cons.inj hts).1
    | cons t ts =>
        rw [hcons, hrest] at hts
        simp at hts

theorem Ended.reads_token {c : Cursor} {t : Token} (h : c.Ended) (hc : c.current.token = t)
    (ht : t ≠ .endOfInput) : c.Reads [t] 0 c.next := by
  subst hc
  exact h.reads_next ht

theorem withToken_withToken (c : Cursor) (t u : Token) : (c.withToken t).withToken u = c.withToken u :=
  rfl

theorem withToken_current (c : Cursor) : c.withToken c.current.token = c :=
  rfl

/-- Where nothing is behind the current token, that is the end of the input. -/
theorem Ended.current_of_rest {c : Cursor} (h : c.Ended) (hrest : c.rest = []) :
    c.current.token = .endOfInput := by
  obtain ⟨ts, hts⟩ := h
  have hlast := congrArg List.getLast? hts
  rw [tokens, hrest, List.getLast?_append] at hlast
  exact Option.some.inj hlast

/-- Moving on makes up for a token that was taken out: only at the last token does a cursor stay, and what
stands there in its place is the same. -/
theorem Ended.next_withToken {c : Cursor} (h : c.Ended) : (c.withToken .endOfInput).next = c.next := by
  have hlast := h.current_of_rest
  obtain ⟨current, rest, n⟩ := c
  cases rest with
  | cons t rest => rfl
  | nil =>
      have hcurrent : current.token = .endOfInput := hlast rfl
      show withToken ⟨current, [], n⟩ .endOfInput = ⟨current, [], n⟩
      rw [← hcurrent]
      rfl

namespace Reads

variable {c c' c'' : Cursor} {ts ts' : List Token} {n n' : Nat}

theorem refl (c : Cursor) : c.Reads [] 0 c :=
  ⟨rfl, rfl⟩

theorem trans (h : c.Reads ts n c') (h' : c'.Reads ts' n' c'') :
    c.Reads (ts ++ ts') (n + n') c'' := by
  refine ⟨?_, ?_⟩
  · rw [h.1, h'.1, List.append_assoc]
  · rw [h'.2, h.2, Nat.add_assoc]

theorem cons {t : Token} (h : c.Reads [t] 0 c') (h' : c'.Reads ts n c'') :
    c.Reads (t :: ts) n c'' := by
  simpa using h.trans h'

theorem ended (h : c.Reads ts n c') (hc : c.Ended) : c'.Ended := by
  obtain ⟨us, hus⟩ := hc
  rw [h.1, List.append_eq_append_iff] at hus
  rcases hus with ⟨vs, -, hvs⟩ | ⟨vs, -, hvs⟩
  · exact ⟨vs, hvs⟩
  · -- then nothing but the end is left
    cases vs with
    | nil => exact ⟨[], hvs.symm⟩
    | cons v vs =>
        simp only [List.cons_append, List.cons.injEq, List.nil_eq, List.append_eq_nil_iff] at hvs
        exact absurd hvs.2.2 (tokens_ne_nil c')

end Reads

end Cursor

namespace Reader

/-! ## Sequencing -/

/-- A sequence succeeds when both parts do, one after the other. -/
theorem run_bind_ok {r : Reader α} {f : α → Reader β} {c c'' : Cursor} {b : β} :
    (r >>= f).run c = .ok b c'' ↔ ∃ a c', r.run c = .ok a c' ∧ (f a).run c' = .ok b c'' := by
  rw [EStateM.run_bind]
  cases r.run c with
  | ok a c' =>
      refine ⟨fun h => ⟨a, c', rfl, h⟩, ?_⟩
      rintro ⟨a', c₁, h, hf⟩
      cases h
      exact hf
  | error e c' => simp

theorem run_bind_of_ok {r : Reader α} {f : α → Reader β} {c c' : Cursor} {a : α}
    (h : r.run c = .ok a c') : (r >>= f).run c = (f a).run c' := by
  rw [EStateM.run_bind, h]

theorem run_pure_ok {a b : α} {c c' : Cursor} :
    (pure a : Reader α).run c = .ok b c' ↔ a = b ∧ c = c' := by
  rw [EStateM.run_pure]
  simp

@[simp]
theorem run_throw (e : SyntaxError) (c : Cursor) :
    (throw e : Reader α).run c = .error e c :=
  rfl

@[simp]
theorem run_fail (expected : Expected) (c : Cursor) :
    (fail expected : Reader α).run c = .error (c.unexpected expected) c :=
  rfl

/-! ## Single tokens -/

@[simp]
theorem run_token (c : Cursor) : token.run c = .ok c.current.token c :=
  rfl

@[simp]
theorem run_advance (c : Cursor) : advance.run c = .ok () c.next :=
  rfl

@[simp]
theorem run_takeToken (c : Cursor) :
    takeToken.run c = .ok c.current.token (c.withToken .endOfInput) :=
  rfl

@[simp]
theorem run_putBack (t : Token) (c : Cursor) : (putBack t).run c = .ok () (c.withToken t) :=
  rfl

/-- A token that was taken out may be moved over. -/
theorem run_advance_taken {c : Cursor} (hc : c.Ended) :
    advance.run (c.withToken .endOfInput) = .ok () c.next := by
  rw [run_advance, hc.next_withToken]

@[simp]
theorem run_isAt (t : Token) (c : Cursor) : (isAt t).run c = .ok (c.current.token == t) c :=
  rfl

@[simp]
theorem run_newPlaceholder (c : Cursor) :
    newPlaceholder.run c = .ok c.placeholders { c with placeholders := c.placeholders + 1 } :=
  rfl

theorem run_accept (t : Token) (c : Cursor) :
    (accept t).run c = if c.current.token = t then .ok true c.next else .ok false c := by
  unfold accept
  rw [run_bind_of_ok (run_isAt t c)]
  by_cases h : c.current.token = t
  · rw [if_pos h, if_pos (beq_iff_eq.mpr h)]
    rfl
  · rw [if_neg h, if_neg (by rwa [beq_iff_eq])]
    rfl

theorem run_accept_of_eq {t : Token} {c : Cursor} (h : c.current.token = t) :
    (accept t).run c = .ok true c.next := by
  rw [run_accept, if_pos h]

theorem run_accept_of_ne {t : Token} {c : Cursor} (h : c.current.token ≠ t) :
    (accept t).run c = .ok false c := by
  rw [run_accept, if_neg h]

theorem run_expect_ok {t : Token} {c c' : Cursor} {u : Unit} :
    (expect t).run c = .ok u c' ↔ c.current.token = t ∧ c.next = c' := by
  unfold expect
  by_cases h : c.current.token = t
  · rw [run_bind_of_ok (run_accept_of_eq h), if_pos rfl, run_pure_ok]
    simp [h]
  · rw [run_bind_of_ok (run_accept_of_ne h), if_neg Bool.false_ne_true, run_fail]
    simp [h]

theorem run_expect_of_eq {t : Token} {c : Cursor} (h : c.current.token = t) :
    (expect t).run c = .ok () c.next :=
  run_expect_ok.mpr ⟨h, rfl⟩

theorem run_name_ok {expected : Expected} {c c' : Cursor} {word : String} (hc : c.Ended) :
    (name expected).run c = .ok word c' ↔ c.current.token = .identifier word ∧ c.next = c' := by
  unfold name
  rw [run_bind_of_ok (run_takeToken c)]
  cases h : c.current.token with
  | identifier word' =>
      simp only
      rw [run_bind_of_ok (run_advance_taken hc), run_pure_ok]
      simp
  | _ => simp [run_fail]

/-- What is accepted as a number of rows. -/
def IsCount (clause : CountClause) (n : Nat) : Prop :=
  (decide (n < 18446744073709551616) && clause.admits n) = true

theorem run_count_ok {clause : CountClause} {c c' : Cursor} {n : Nat} :
    (count clause).run c = .ok n c' ↔
      ∃ raw, c.current.token = .span raw ∧ Digits.natural? raw.toList = some n ∧
        IsCount clause n ∧ c.next = c' := by
  have hget : (get : Reader Cursor).run c = .ok c c := rfl
  unfold count IsCount
  rw [run_bind_of_ok hget]
  cases c.current.token with
  | span raw =>
      simp only [Token.span.injEq, exists_eq_left']
      cases Digits.natural? raw.toList with
      | none => simp [run_throw]
      | some m =>
          simp only [Option.some.injEq]
          by_cases hm : (decide (m < 18446744073709551616) && clause.admits m) = true
          · rw [if_pos hm, run_bind_of_ok (run_advance c), run_pure_ok]
            constructor
            · rintro ⟨rfl, rfl⟩
              exact ⟨rfl, hm, rfl⟩
            · rintro ⟨rfl, -, rfl⟩
              exact ⟨rfl, rfl⟩
          · rw [if_neg hm]
            constructor
            · intro h
              cases h
            · rintro ⟨rfl, hm', -⟩
              exact absurd hm' hm
  | _ => simp [run_throw]

/-! ## Readers that succeed -/

/-- From `c`, the reader gives `a`, leaves the tokens `r` ahead and numbers `n` parameters. -/
def Gives (m : Reader α) (c : Cursor) (a : α) (r : List Token) (n : Nat) : Prop :=
  ∃ c', m.run c = .ok a c' ∧ c'.tokens = r ∧ c'.placeholders = c.placeholders + n

namespace Gives

variable {m : Reader α} {f : α → Reader β} {c : Cursor} {a : α} {b : β} {r r' : List Token}
  {n n' : Nat}

theorem bind (h : Gives m c a r n)
    (hf : ∀ c', c'.tokens = r → c'.placeholders = c.placeholders + n → Gives (f a) c' b r' n') :
    Gives (m >>= f) c b r' (n + n') := by
  obtain ⟨c₁, hm, ht, hn⟩ := h
  obtain ⟨c₂, hfa, ht', hn'⟩ := hf c₁ ht hn
  refine ⟨c₂, ?_, ht', ?_⟩
  · rw [run_bind_of_ok hm, hfa]
  · rw [hn', hn, Nat.add_assoc]

/-- A first part that numbers no parameters. -/
theorem seq (h : Gives m c a r 0)
    (hf : ∀ c', c'.tokens = r → c'.placeholders = c.placeholders → Gives (f a) c' b r' n) :
    Gives (m >>= f) c b r' n := by
  have := h.bind hf
  rwa [Nat.zero_add] at this

/-- A last part that numbers no parameters. -/
theorem close (h : Gives m c a r n)
    (hf : ∀ c', c'.tokens = r → c'.placeholders = c.placeholders + n → Gives (f a) c' b r' 0) :
    Gives (m >>= f) c b r' n :=
  h.bind hf

/-- A result that is only rewritten. -/
theorem map {g : α → β} (h : Gives m c a r n) :
    Gives (m >>= fun x => pure (g x)) c (g a) r n := by
  obtain ⟨c₁, hm, ht, hn⟩ := h
  exact ⟨c₁, by rw [run_bind_of_ok hm, EStateM.run_pure], ht, hn⟩

end Gives

theorem gives_pure {c : Cursor} {r : List Token} (a : α) (h : c.tokens = r) :
    Gives (pure a) c a r 0 :=
  ⟨c, rfl, h, rfl⟩

variable {c : Cursor} {t : Token} {r : List Token}

theorem gives_token (h : c.tokens = t :: r) : Gives token c t (t :: r) 0 :=
  ⟨c, by rw [run_token, Cursor.current_of_tokens h], h, rfl⟩

theorem gives_takeToken (h : c.tokens = t :: r) : Gives takeToken c t (.endOfInput :: r) 0 :=
  ⟨c.withToken .endOfInput, by rw [run_takeToken, Cursor.current_of_tokens h],
    congrArg (Token.endOfInput :: ·) (List.cons.inj h).2, rfl⟩

theorem gives_isAt (u : Token) (h : c.tokens = t :: r) : Gives (isAt u) c (t == u) (t :: r) 0 :=
  ⟨c, by rw [run_isAt, Cursor.current_of_tokens h], h, rfl⟩

theorem gives_advance (h : c.tokens = t :: r) (hr : r ≠ []) : Gives advance c () r 0 :=
  ⟨c.next, rfl, Cursor.tokens_next h hr, Cursor.placeholders_next c⟩

theorem gives_accept (h : c.tokens = t :: r) (hr : r ≠ []) : Gives (accept t) c true r 0 :=
  ⟨c.next, run_accept_of_eq (Cursor.current_of_tokens h), Cursor.tokens_next h hr,
    Cursor.placeholders_next c⟩

/-- Another token stays where it is. -/
theorem gives_accept_ne {u : Token} (h : c.tokens = t :: r) (hne : t ≠ u) :
    Gives (accept u) c false (t :: r) 0 :=
  ⟨c, run_accept_of_ne (by rwa [Cursor.current_of_tokens h]), h, rfl⟩

theorem gives_expect (h : c.tokens = t :: r) (hr : r ≠ []) : Gives (expect t) c () r 0 :=
  ⟨c.next, run_expect_of_eq (Cursor.current_of_tokens h), Cursor.tokens_next h hr,
    Cursor.placeholders_next c⟩

theorem gives_name {word : String} (expected : Expected) (h : c.tokens = .identifier word :: r)
    (hr : r ≠ []) : Gives (name expected) c word r 0 := by
  unfold name
  refine (gives_takeToken h).seq ?_
  intro c₁ h₁ _
  refine (gives_advance h₁ hr).seq ?_
  intro c₂ h₂ _
  exact gives_pure word h₂

/-! ## Whole texts -/

theorem runFrom_eq_ok {α : Type} {m : Reader α} {c : Cursor} {a : α} :
    (m.runFrom c).1 = .ok a ↔ ∃ c', m.run c = .ok a c' := by
  unfold runFrom
  cases m.run c with
  | ok b c' => simp
  | error e c' => simp

theorem runFrom_eq_error {α : Type} {m : Reader α} {c : Cursor} {e : SyntaxError} :
    (m.runFrom c).1 = .error e ↔ ∃ c', m.run c = .error e c' := by
  unfold runFrom
  cases m.run c with
  | ok b c' => simp
  | error e' c' => simp

/-- A text that is read successfully is split into tokens, which are read from the start. -/
theorem exists_tokens_of_runFrom {α : Type} {m : Reader α} {text : String} {a : α}
    (h : (match Cursor.ofText text with
      | .ok c => (m.runFrom c).1
      | .error e => .error e) = .ok a) :
    ∃ placed c', tokenize text = .ok placed ∧ m.run (Cursor.ofTokens placed) = .ok a c' := by
  unfold Cursor.ofText at h
  cases htokens : tokenize text with
  | error e =>
      rw [htokens] at h
      cases h
  | ok placed =>
      rw [htokens] at h
      obtain ⟨c', hrun⟩ := runFrom_eq_ok.mp h
      exact ⟨placed, c', rfl, hrun⟩

end Reader

theorem Query.exists_tokens_of_compile {text : String} {q : Query} (h : compile text = .ok q) :
    ∃ placed c', tokenize text = .ok placed ∧ Reader.query.run (Cursor.ofTokens placed) = .ok q c' :=
  Reader.exists_tokens_of_runFrom h

theorem Predicate.exists_tokens_of_compile {text : String} {p : Predicate}
    (h : compile text = .ok p) :
    ∃ placed c', tokenize text = .ok placed ∧
      Reader.condition.run (Cursor.ofTokens placed) = .ok p c' :=
  Reader.exists_tokens_of_runFrom h

end RecordQuery
