import RecordQuery.Proofs.Grammar.Movement
import RecordQuery.Proofs.Grammar.Soundness
import RecordQuery.Proofs.Grammar.Unambiguous
/-!
# Fuel does not run out

A reader with more fuel than it needs gives the same as with any other such amount, whether it succeeds or
fails. How much is enough depends on the tokens that are still ahead: eight steps for each of them, which is
more than there are levels in the grammar.

`Takes k r` says that `r`, if it succeeds, has moved over `k` tokens or more; that of an expression is one or
more, since its derivation has a token. `Agree n r r'` says that two readers do the same where at most `n`
tokens are behind the current one. Agreement goes through sequencing, and what comes after a reader that takes
tokens has only to agree where fewer are left (`Agree.bind`).
-/

namespace RecordQuery

variable {α β : Type}

namespace Cursor

variable {c d : Cursor}

theorem Ended.within (h : c.Ended) : c.Within fun _ => True :=
  ⟨h, fun _ _ => trivial⟩

theorem Leads.ended (h : c.Leads d) (hc : c.Ended) : d.Ended :=
  (h.within hc.within).ended

theorem Leads.length_le (h : c.Leads d) : d.rest.length ≤ c.rest.length := by
  obtain ⟨passed, hplaced, -⟩ := h
  have hlength := congrArg List.length hplaced
  rw [List.length_append, placed, placed, List.length_cons, List.length_cons] at hlength
  omega

theorem Reads.length_rest {ts : List Token} {n : Nat} (h : c.Reads ts n d) :
    d.rest.length + ts.length = c.rest.length := by
  have hlength := congrArg List.length h.1
  rw [List.length_append, length_tokens, length_tokens] at hlength
  omega

/-- Moving on from a token that is not the last leaves one less. -/
theorem Ended.length_next (h : c.Ended) (ht : c.current.token ≠ .endOfInput) :
    c.next.rest.length + 1 = c.rest.length :=
  (h.reads_next ht).length_rest

end Cursor

namespace Reader

open Grammar

/-! ## How much a reader takes -/

/-- From every cursor that it succeeds from, the reader takes `k` tokens or more. -/
def Takes (k : Nat) (r : Reader α) : Prop :=
  ∀ c : Cursor, c.Ended → ∀ a d, r.run c = .ok a d → d.Ended ∧ d.rest.length + k ≤ c.rest.length

variable {k m n : Nat} {r r' : Reader α}

theorem Moves.takes (h : Moves (fun _ => True) r) : Takes 0 r := by
  intro c hc a d hrun
  have harrives := h c hc.within
  rw [hrun] at harrives
  have hleads : c.Leads d := harrives
  exact ⟨hleads.ended hc, hleads.length_le⟩

theorem Takes.bind {f : α → Reader β} (h : Takes k r) (hf : ∀ a, Takes m (f a)) :
    Takes (k + m) (r >>= f) := by
  intro c hc b d hrun
  obtain ⟨a, c₁, hr, hfa⟩ := run_bind_ok.mp hrun
  obtain ⟨hc₁, hle⟩ := h c hc a c₁ hr
  obtain ⟨hd, hle'⟩ := hf a c₁ hc₁ b d hfa
  exact ⟨hd, by omega⟩

/-- A reader of what is derived takes as many tokens as a derivation has. -/
theorem takes_of_reads (h : ∀ c : Cursor, c.Ended → ∀ a d, r.run c = .ok a d →
    ∃ ts n, c.Reads ts n d ∧ k ≤ ts.length) : Takes k r := by
  intro c hc a d hrun
  obtain ⟨ts, n, hreads, hk⟩ := h c hc a d hrun
  have hlength := hreads.length_rest
  exact ⟨hreads.ended hc, by omega⟩

theorem takes_advance : Takes 0 advance := by
  intro c hc _ d hrun
  cases hrun
  by_cases ht : c.current.token = .endOfInput
  · have hleads := Cursor.leads_next (c := c) (by rw [ht]; nofun)
    exact ⟨hleads.ended hc, hleads.length_le⟩
  · have hreads := hc.reads_next ht
    have hlength := hreads.length_rest
    exact ⟨hreads.ended hc, by omega⟩

theorem takes_name (expected : Expected) : Takes 1 (name expected) :=
  takes_of_reads fun c hc word d hrun => by
    obtain ⟨hcurrent, rfl⟩ := (run_name_ok hc).mp hrun
    exact ⟨_, _, hc.reads_token hcurrent (by nofun), Nat.le_refl _⟩

theorem takes_factor (fuel : Nat) : Takes 1 (factor fuel) :=
  takes_of_reads fun _ hc _ _ hrun =>
    have ⟨f, hreads, _⟩ := factor_sound fuel hc hrun
    ⟨_, _, hreads, f.length_tokens_pos⟩

theorem takes_product (fuel : Nat) : Takes 1 (product fuel) :=
  takes_of_reads fun _ hc _ _ hrun =>
    have ⟨p, hreads, _⟩ := product_sound fuel hc hrun
    ⟨_, _, hreads, p.length_tokens_pos⟩

theorem takes_sum (fuel : Nat) : Takes 1 (sum fuel) :=
  takes_of_reads fun _ hc _ _ hrun =>
    have ⟨s, hreads, _⟩ := sum_sound fuel hc hrun
    ⟨_, _, hreads, s.length_tokens_pos⟩

theorem takes_argument (fuel : Nat) : Takes 1 (argument fuel) :=
  takes_of_reads fun _ hc _ _ hrun =>
    have ⟨a, hreads, _⟩ := argument_sound fuel hc hrun
    ⟨_, _, hreads, a.length_tokens_pos⟩

theorem run_expression (c : Cursor) : expression.run c = (sum c.fuel).run c := by
  have hget : (get : Reader Cursor).run c = .ok c c := rfl
  unfold expression
  rw [run_bind_of_ok hget]

/-- An expression takes a token at least. -/
theorem takes_expression : Takes 1 expression :=
  takes_of_reads fun c hc _ _ hrun =>
    have ⟨s, hreads, _⟩ := sum_sound c.fuel hc (run_expression c ▸ hrun)
    ⟨_, _, hreads, s.length_tokens_pos⟩

/-! ## Agreement -/

/-- Where at most `n` tokens are behind the current one, the readers do the same. -/
def Agree (n : Nat) (r r' : Reader α) : Prop :=
  ∀ c : Cursor, c.Ended → c.rest.length ≤ n → r.run c = r'.run c

/-- The same in front of the token `t`. -/
def AgreeAt (n : Nat) (t : Token) (r r' : Reader α) : Prop :=
  ∀ c : Cursor, c.Ended → c.rest.length ≤ n → c.current.token = t → r.run c = r'.run c

/-- The same where the token `t` has just been taken out. -/
def AgreeTaken (n : Nat) (t : Token) (r r' : Reader α) : Prop :=
  ∀ c : Cursor, c.Ended → c.rest.length ≤ n → c.current.token = t →
    r.run (c.withToken .endOfInput) = r'.run (c.withToken .endOfInput)

theorem Agree.refl (n : Nat) (r : Reader α) : Agree n r r :=
  fun _ _ _ => rfl

theorem AgreeAt.refl (n : Nat) (t : Token) (r : Reader α) : AgreeAt n t r r :=
  fun _ _ _ _ => rfl

theorem AgreeTaken.refl (n : Nat) (t : Token) (r : Reader α) : AgreeTaken n t r r :=
  fun _ _ _ _ => rfl

theorem Agree.symm (h : Agree n r r') : Agree n r' r :=
  fun c hc hn => (h c hc hn).symm

theorem Agree.inFront {t : Token} (h : Agree n r r') : AgreeAt n t r r' :=
  fun c hc hn _ => h c hc hn

/-- Behind a reader that takes tokens, the readers have to agree where fewer are left. -/
theorem Agree.bind {f f' : α → Reader β} (h : Agree n r r') (hr : Takes k r)
    (hf : ∀ a m, m + k ≤ n → Agree m (f a) (f' a)) : Agree n (r >>= f) (r' >>= f') := by
  intro c hc hn
  rw [EStateM.run_bind, EStateM.run_bind, ← h c hc hn]
  cases hrun : r.run c with
  | error e d => rfl
  | ok a d =>
      obtain ⟨hd, hle⟩ := hr c hc a d hrun
      exact hf a d.rest.length (by omega) d hd (Nat.le_refl _)

theorem Agree.ite {p : Prop} [Decidable p] {s s' : Reader α} (h : Agree n r r') (h' : Agree n s s') :
    Agree n (if p then r else s) (if p then r' else s') := by
  split
  · exact h
  · exact h'

theorem Agree.token {f f' : Token → Reader β} (h : ∀ t, AgreeAt n t (f t) (f' t)) :
    Agree n (Reader.token >>= f) (Reader.token >>= f') :=
  fun c hc hn => h c.current.token c hc hn rfl

theorem Agree.takeToken {f f' : Token → Reader β} (h : ∀ t, AgreeTaken n t (f t) (f' t)) :
    Agree n (Reader.takeToken >>= f) (Reader.takeToken >>= f') :=
  fun c hc hn => h c.current.token c hc hn rfl

theorem AgreeAt.advance {t : Token} (ht : t ≠ .endOfInput) (h : ∀ m, m + 1 ≤ n → Agree m r r') :
    AgreeAt n t (Reader.advance >>= fun _ => r) (Reader.advance >>= fun _ => r') := by
  rintro c hc hn rfl
  have hlength := hc.length_next ht
  rw [run_bind_of_ok (run_advance c), run_bind_of_ok (run_advance c)]
  exact h c.next.rest.length (by omega) c.next ((hc.reads_next ht).ended hc) (Nat.le_refl _)

theorem AgreeTaken.advance {t : Token} {f f' : Unit → Reader β}
    (h : AgreeAt n t (Reader.advance >>= f) (Reader.advance >>= f')) :
    AgreeTaken n t (Reader.advance >>= f) (Reader.advance >>= f') := by
  intro c hc hn ht
  have hagree := h c hc hn ht
  rw [run_bind_of_ok (run_advance c), run_bind_of_ok (run_advance c)] at hagree
  rwa [run_bind_of_ok (run_advance_taken hc), run_bind_of_ok (run_advance_taken hc)]

theorem Agree.accept {t : Token} (ht : t ≠ .endOfInput) {s s' : Reader β} {f f' : Reader β}
    (h : ∀ m, m + 1 ≤ n → Agree m f f') (h' : Agree n s s') :
    Agree n (Reader.accept t >>= fun b => if b then f else s)
      (Reader.accept t >>= fun b => if b then f' else s') := by
  intro c hc hn
  by_cases hcurrent : c.current.token = t
  · rw [run_bind_of_ok (run_accept_of_eq hcurrent), run_bind_of_ok (run_accept_of_eq hcurrent)]
    have hnot : c.current.token ≠ .endOfInput := hcurrent ▸ ht
    have hlength := hc.length_next hnot
    exact h c.next.rest.length (by omega) c.next ((hc.reads_next hnot).ended hc) (Nat.le_refl _)
  · rw [run_bind_of_ok (run_accept_of_ne hcurrent), run_bind_of_ok (run_accept_of_ne hcurrent)]
    exact h' c hc hn

/-! ## Expressions -/

variable {fuel more : Nat}

theorem agree_dottedNames (hn : n < fuel) (hmore : fuel ≤ more) :
    Agree n (dottedNames fuel) (dottedNames more) := by
  induction fuel generalizing more n with
  | zero => omega
  | succ fuel ih =>
      obtain ⟨more, rfl⟩ : ∃ m, more = m + 1 := ⟨more - 1, by omega⟩
      refine .accept (by nofun) (fun m hm => ?_) (.refl _ _)
      refine .bind (.refl _ _) (takes_name _) fun _ m' hm' => ?_
      exact .bind (ih (by omega) (by omega)) (moves_dottedNames fuel).takes fun _ _ _ => .refl _ _

/-- The readers of expressions agree where their fuel is enough: on each level of the grammar it takes one
step more. -/
structure ExpressionsAgree (fuel more : Nat) : Prop where
  sum : ∀ n, 8 * n + 4 ≤ fuel → Agree n (sum fuel) (sum more)
  sumTail : ∀ n left, 8 * n + 1 ≤ fuel → Agree n (sumTail fuel left) (sumTail more left)
  product : ∀ n, 8 * n + 3 ≤ fuel → Agree n (product fuel) (product more)
  productTail : ∀ n left, 8 * n + 1 ≤ fuel → Agree n (productTail fuel left) (productTail more left)
  factor : ∀ n, 8 * n + 2 ≤ fuel → Agree n (factor fuel) (factor more)
  primary : ∀ n, 8 * n + 1 ≤ fuel → Agree n (primary fuel) (primary more)
  arguments : ∀ n, 8 * n + 6 ≤ fuel → Agree n (arguments fuel) (arguments more)
  argument : ∀ n, 8 * n + 5 ≤ fuel → Agree n (argument fuel) (argument more)

namespace ExpressionsAgree

variable (h : ExpressionsAgree fuel more)
include h

theorem agree_sumTail (left : Expr) (hn : 8 * n ≤ fuel) :
    Agree n (Reader.sumTail (fuel + 1) left) (Reader.sumTail (more + 1) left) := by
  refine .token fun t => ?_
  split
  next op hop =>
    refine .advance (by rintro rfl; cases hop) fun m hm => ?_
    exact .bind (h.product m (by omega)) (takes_product fuel) fun _ m' hm' => h.sumTail m' _ (by omega)
  next => exact .refl _ _ _

theorem agree_productTail (left : Expr) (hn : 8 * n ≤ fuel) :
    Agree n (Reader.productTail (fuel + 1) left) (Reader.productTail (more + 1) left) := by
  refine .token fun t => ?_
  split
  next op hop =>
    refine .advance (by rintro rfl; cases hop) fun m hm => ?_
    exact .bind (h.factor m (by omega)) (takes_factor fuel) fun _ m' hm' =>
      h.productTail m' _ (by omega)
  next => exact .refl _ _ _

theorem agree_primary (hmore : fuel ≤ more) (hn : 8 * n ≤ fuel) :
    Agree n (Reader.primary (fuel + 1)) (Reader.primary (more + 1)) := by
  refine .takeToken fun t => ?_
  split
  · exact .refl _ _ _
  · exact .refl _ _ _
  · exact .refl _ _ _
  · exact .refl _ _ _
  · refine .advance (.advance Token.noConfusion fun m hm => ?_)
    exact .bind (h.sum m (by omega)) (takes_sum fuel) fun _ _ _ => .refl _ _
  · refine .advance (.advance Token.noConfusion fun m hm => ?_)
    refine .bind (.refl _ _) (moves_isAt _).takes fun _ m' hm' => .ite (.ite (.refl _ _) ?_) ?_
    · refine .bind (.refl _ _) takes_advance fun _ m'' hm'' => ?_
      exact .bind (h.arguments m'' (by omega)) (expressionsMove fuel).arguments.takes fun _ _ _ =>
        .refl _ _
    · exact .bind (agree_dottedNames (by omega) hmore) (moves_dottedNames fuel).takes fun _ _ _ =>
        .refl _ _
  · exact .refl _ _ _

end ExpressionsAgree

/-- Items up to a closing parenthesis, with commas between: the item has taken a token. -/
theorem agree_items {item item' : Reader Expr} {items items' : Reader (List Expr)}
    (hitem : Agree n item item') (htakes : Takes 1 item)
    (hmoves : Moves (fun _ => True) items) (hitems : ∀ m, m + 1 ≤ n → Agree m items items') :
    Agree n
      (do
        let first ← item
        if !(← isAt (.symbol .closeParen)) then expect (.symbol .comma)
        let others ← items
        return first :: others)
      (do
        let first ← item'
        if !(← isAt (.symbol .closeParen)) then expect (.symbol .comma)
        let others ← items'
        return first :: others) := by
  refine .bind hitem htakes fun first m hm => ?_
  have hothers : ∀ m', m' ≤ m → Agree m' (do
      let others ← items
      return first :: others) (do
      let others ← items'
      return first :: others) := fun m' hm' =>
    .bind (hitems m' (by omega)) hmoves.takes fun _ _ _ => .refl _ _
  refine .bind (.refl _ _) (moves_isAt _).takes fun _ m' hm' => .ite ?_ (hothers m' (by omega))
  exact .bind (.refl _ _) (moves_expect (by nofun)).takes fun _ m'' hm'' => hothers m'' (by omega)

/-- The induction is on the steps that the readers may take. -/
theorem expressionsAgree (hmore : fuel ≤ more) : ExpressionsAgree fuel more := by
  induction fuel generalizing more with
  | zero => constructor <;> omega
  | succ fuel ih =>
      obtain ⟨more, rfl⟩ : ∃ m, more = m + 1 := ⟨more - 1, by omega⟩
      have h := ih (Nat.le_of_succ_le_succ hmore)
      refine ⟨fun n hn => ?_, fun n left hn => h.agree_sumTail left (by omega), fun n hn => ?_,
        fun n left hn => h.agree_productTail left (by omega), fun n hn => ?_,
        fun n hn => h.agree_primary (by omega) (by omega), fun n hn => ?_, fun n hn => ?_⟩
      · exact .bind (h.product n (by omega)) (takes_product fuel) fun _ m hm => h.sumTail m _ (by omega)
      · exact .bind (h.factor n (by omega)) (takes_factor fuel) fun _ m hm =>
          h.productTail m _ (by omega)
      · refine .accept (by nofun) (fun m hm => ?_) (h.primary n (by omega))
        exact .bind (h.factor m (by omega)) (takes_factor fuel) fun _ _ _ => .refl _ _
      · refine .accept (by nofun) (fun _ _ => .refl _ _) ?_
        exact agree_items (h.argument n (by omega)) (takes_argument fuel)
          (expressionsMove fuel).arguments fun m hm => h.arguments m (by omega)
      · exact .accept (by nofun) (fun _ _ => .refl _ _) (h.sum n (by omega))

/-- Any two amounts that are enough for a sum will do. -/
theorem agree_sum (hn : 8 * n + 4 ≤ fuel) (hn' : 8 * n + 4 ≤ more) : Agree n (sum fuel) (sum more) := by
  rcases Nat.le_total fuel more with hle | hle
  · exact (expressionsAgree hle).sum n hn
  · exact ((expressionsAgree hle).sum n hn').symm

/-- An expression is a sum with enough fuel. -/
theorem agree_expression (hn : 8 * n + 4 ≤ fuel) : Agree n (sum fuel) expression := by
  intro c hc hle
  have hown : 8 * c.rest.length + 4 ≤ c.fuel := by
    unfold Cursor.fuel
    omega
  rw [run_expression]
  exact agree_sum (by omega) hown c hc (Nat.le_refl _)

theorem agree_sumFrom (first : Expr) (hn : 8 * n + 1 ≤ fuel) (hmore : fuel ≤ more) :
    Agree n (sumFrom fuel first) (sumFrom more first) :=
  .bind ((expressionsAgree hmore).productTail n first hn) ((expressionsMove fuel).productTail first).takes
    fun _ m hm => (expressionsAgree hmore).sumTail m _ (by omega)

theorem agree_listItems (hn : 8 * n + 5 ≤ fuel) (hmore : fuel ≤ more) :
    Agree n (listItems fuel) (listItems more) := by
  induction fuel generalizing more n with
  | zero => omega
  | succ fuel ih =>
      obtain ⟨more, rfl⟩ : ∃ m, more = m + 1 := ⟨more - 1, by omega⟩
      refine .accept (by nofun) (fun _ _ => .refl _ _) ?_
      exact agree_items ((expressionsAgree (by omega)).sum n (by omega)) (takes_sum fuel)
        (moves_listItems fuel) fun m hm => ih (by omega) (by omega)

/-! ## Predicates -/

theorem agree_rightSide (op : CompareOp) (hn : 8 * n + 5 ≤ fuel) (hmore : fuel ≤ more) :
    Agree n (rightSide fuel op) (rightSide more op) := by
  refine .bind (.refl _ _) (moves_isAt _).takes fun _ m hm => .ite ?_ ?_
  · refine .bind (.refl _ _) takes_advance fun _ m' hm' => ?_
    exact .bind (agree_listItems (by omega) hmore) (moves_listItems fuel).takes fun _ _ _ => .refl _ _
  · exact (expressionsAgree hmore).sum m (by omega)

theorem agree_comparisonFrom (left : Expr) (hn : 8 * n ≤ fuel) (hmore : fuel ≤ more) :
    Agree n (comparisonFrom fuel left) (comparisonFrom more left) := by
  refine .token fun t => ?_
  split
  next op hop =>
    refine .advance (by rintro rfl; cases hop) fun m hm => ?_
    exact .bind (agree_rightSide op (by omega) hmore) (moves_rightSide fuel op).takes fun _ _ _ =>
      .refl _ _
  next => exact .refl _ _ _

/-- The readers of predicates agree where their fuel is enough. -/
structure PredicatesAgree (fuel more : Nat) : Prop where
  chain : ∀ n, 8 * n + 6 ≤ fuel → Agree n (chain fuel) (chain more)
  chainTail : ∀ n left, 8 * n + 1 ≤ fuel → Agree n (chainTail fuel left) (chainTail more left)
  term : ∀ n, 8 * n + 5 ≤ fuel → Agree n (term fuel) (term more)

namespace PredicatesAgree

variable (h : PredicatesAgree fuel more)
include h

theorem agree_chainTail (left : Predicate) (hn : 8 * n ≤ fuel) :
    Agree n (Reader.chainTail (fuel + 1) left) (Reader.chainTail (more + 1) left) := by
  refine .token fun t => ?_
  split
  next op hop =>
    refine .advance (by rintro rfl; cases hop) fun m hm => ?_
    refine .bind (h.term m (by omega)) (predicatesMove fuel).term.takes fun t m' hm' => ?_
    exact .bind (.refl _ _) (moves_asPredicate t).takes fun _ m'' hm'' => h.chainTail m'' _ (by omega)
  next => exact .refl _ _ _

theorem agree_term (hmore : fuel ≤ more) (hn : 8 * n + 4 ≤ fuel) :
    Agree n (Reader.term (fuel + 1)) (Reader.term (more + 1)) := by
  refine .accept (by nofun) (fun m hm => ?_) (.token fun t => Agree.inFront (.ite (.refl _ _) ?_))
  · refine .bind (h.chain m (by omega)) (predicatesMove fuel).chain.takes fun inner m' hm' => ?_
    refine .bind (.refl _ _) (moves_expect (by nofun)).takes fun _ m'' hm'' => ?_
    split
    · exact .refl _ _
    · exact .bind (agree_sumFrom _ (by omega) hmore) (moves_sumFrom fuel _).takes fun _ _ _ =>
        agree_comparisonFrom _ (by omega) hmore
  · exact .bind ((expressionsAgree hmore).sum n (by omega)) (takes_sum fuel) fun _ _ _ =>
      agree_comparisonFrom _ (by omega) hmore

end PredicatesAgree

/-- The induction is on the steps that the readers may take. -/
theorem predicatesAgree (hmore : fuel ≤ more) : PredicatesAgree fuel more := by
  induction fuel generalizing more with
  | zero => constructor <;> omega
  | succ fuel ih =>
      obtain ⟨more, rfl⟩ : ∃ m, more = m + 1 := ⟨more - 1, by omega⟩
      have h := ih (Nat.le_of_succ_le_succ hmore)
      refine ⟨fun n hn => ?_, fun n left hn => h.agree_chainTail left (by omega), fun n hn =>
        h.agree_term (by omega) (by omega)⟩
      refine .bind (h.term n (by omega)) (predicatesMove fuel).term.takes fun t m hm => ?_
      split
      · exact .bind (h.chainTail m _ (by omega)) ((predicatesMove fuel).chainTail _).takes fun _ _ _ =>
          .refl _ _
      · exact .refl _ _

/-- Any two amounts that are enough for a chain will do. -/
theorem agree_chain (hn : 8 * n + 6 ≤ fuel) (hn' : 8 * n + 6 ≤ more) :
    Agree n (chain fuel) (chain more) := by
  rcases Nat.le_total fuel more with hle | hle
  · exact (predicatesAgree hle).chain n hn
  · exact ((predicatesAgree hle).chain n hn').symm

end Reader

end RecordQuery
