import RecordQuery.Proofs.Printing.Expressions
import RecordQuery.Proofs.Parameters.Occurrences
import RecordQuery.Predicate.Text
/-!
# Printed predicates

The text of a predicate that has been read is derived from the grammar again, and what is derived folds to
the predicate with every literal read again from its text (`Predicate.reread`). `Predicate.Rereads n k p` says
so on the two levels of chains and terms, if no arithmetic behind `IN` starts with a parenthesis
(`Predicate.Bare`). What always holds is printed as a comparison that does, and is folded back.

Folding drops parts of what was written, with their literals, but never a parameter; so a predicate
without parameters stands for a derivation without them (`counts`).

Where every literal is kept, the predicate is its own rereading, and nothing of it is folded away a second
time (`Predicate.fold_fold`): it prints as itself (`Grammar.Chain.prints`).
-/

namespace RecordQuery

open Grammar Lexer

/-! ## Lists -/

namespace Expr

variable {n k k' : Nat}

/-- The texts of items, with commas between, are derived as items, with their literals read again. -/
structure RereadsItems (n k : Nat) (es : List Expr) : Prop where
  readable : AllReadable es
  /-- no items have no parameters -/
  counts : es = [] → k = 0
  items : ∃ items : Items, items.exprs n = rereadAll es ∧ items.placeholders = k ∧
    Spells (commaSeparated (renderAll es)).toList items.tokens

theorem rereadsItems_nil (n : Nat) : RereadsItems n 0 [] :=
  ⟨fun _ hl => (by cases hl), fun _ => rfl, ⟨.done, rfl, rfl, spells_nil⟩⟩

theorem Rereads.cons {e : Expr} {es : List Expr} (h : Rereads n k e)
    (hes : RereadsItems (n + k) k' es) : RereadsItems n (k + k') (e :: es) := by
  obtain ⟨s, hs, hk, hspells, -⟩ := h.sum
  obtain ⟨items, hitems, hk', hspells'⟩ := hes.items
  refine ⟨allReadable_cons h.readable hes.readable, fun h => (by cases h), ?_⟩
  cases es with
  | nil =>
      have hzero : k' = 0 := hes.counts rfl
      refine ⟨.last s, ?_, ?_, ?_⟩
      · rw [Items.exprs, hs]
        rfl
      · rw [Items.placeholders, hk, hzero]
        rfl
      · rw [renderAll, renderAll, commaSeparated_singleton]
        exact hspells
  | cons e' es =>
      refine ⟨.more s items, ?_, ?_, ?_⟩
      · rw [Items.exprs, hs, hk, hitems]
        rfl
      · rw [Items.placeholders, hk, hk']
      · rw [renderAll, renderAll, commaSeparated_cons, Items.tokens]
        exact hspells.comma hspells'

end Expr

theorem Grammar.Items.rereads (items : Items) (n : Nat) {r : List Token}
    (h : Undotted (items.tokens ++ r)) :
    Expr.RereadsItems n items.placeholders (items.exprs n) ∧ Undotted r := by
  induction items generalizing n with
  | done => exact ⟨Expr.rereadsItems_nil n, h⟩
  | last s =>
      obtain ⟨hs, h₁⟩ := s.rereads n h
      exact ⟨hs.cons (Expr.rereadsItems_nil _), h₁⟩
  | more s rest ih =>
      rw [Items.tokens, List.append_assoc, List.cons_append] at h
      obtain ⟨hs, h₁⟩ := s.rereads n h
      obtain ⟨hrest, h₂⟩ := ih (n + s.placeholders) (h₁.tail (by decide))
      exact ⟨hs.cons hrest, h₂⟩

/-! ## Comparisons -/

namespace Comparison

variable {n k k' : Nat}

/-- The literals on both sides, from left to right. -/
def literals (c : Comparison) : List Literal :=
  c.left.literals ++ c.right.literals

/-- `c.Kept` holds for the comparisons that keep their literals when they are printed, and whose right
side is not taken for a list: behind `IN` no arithmetic may start with a parenthesis. -/
structure Kept (c : Comparison) : Prop where
  literals : ∀ l ∈ c.literals, l.Kept
  right : c.op = .isIn → c.right.isArith = true → c.right.render.toList.head? ≠ some '('

/-- The comparison with each literal as its text is read. -/
def reread (c : Comparison) : Comparison :=
  ⟨c.left.reread, c.op, c.right.reread⟩

/-- `c.Bare` holds when the right side is not taken for a list: behind `IN` no arithmetic may start with a
parenthesis. -/
def Bare (c : Comparison) : Prop :=
  c.op = .isIn → c.right.isArith = true → c.right.render.toList.head? ≠ some '('

/-- The texts of both sides are derived again, each on its own. -/
structure Derived (c : Comparison) : Prop where
  left : ∃ n k, c.left.Rereads n k
  right : (∃ n k, c.right.Rereads n k) ∨
    ∃ items n k, c.right = .list items ∧ Expr.RereadsItems n k items

/-- The text of a comparison is derived as a term that is this comparison, with its literals read again. -/
structure Rereads (n k : Nat) (c : Comparison) : Prop where
  derived : c.Derived
  term : c.Bare → ∃ t : Term, t.written n = .comparison c.reread ∧ t.placeholders = k ∧
    Spells c.render.toList t.tokens

theorem toList_render (c : Comparison) : c.render.toList =
    c.left.render.toList ++ ' ' :: (c.op.text.toList ++ ' ' :: c.right.render.toList) := by
  simp [render]

theorem operatorText (op : CompareOp) : OperatorText op.text.toList (operatorToken op) := by
  cases op with
  | equal => exact operatorText_symbol (s := .equal) (by decide) (by decide) (by decide)
  | notEqual => exact operatorText_symbol (s := .notEqual) (by decide) (by decide) (by decide)
  | distinct => exact operatorText_symbol (s := .distinct) (by decide) (by decide) (by decide)
  | greater => exact operatorText_symbol (s := .greater) (by decide) (by decide) (by decide)
  | greaterEqual => exact operatorText_symbol (s := .greaterEqual) (by decide) (by decide) (by decide)
  | less => exact operatorText_symbol (s := .less) (by decide) (by decide) (by decide)
  | lessEqual => exact operatorText_symbol (s := .lessEqual) (by decide) (by decide) (by decide)
  | like => exact operatorText_keyword (k := .LIKE) (by decide)
  | isIn => exact operatorText_keyword (k := .IN) (by decide)

/-- Every literal on both sides is one that a text is typed as. -/
theorem Derived.readable {c : Comparison} (h : c.Derived) : ∀ l ∈ c.literals, l.Readable := by
  intro l hl
  rcases List.mem_append.mp hl with hl | hl
  · obtain ⟨n, k, hleft⟩ := h.left
    exact hleft.readable l hl
  · rcases h.right with ⟨n, k, hright⟩ | ⟨items, n, k, heq, hitems⟩
    · exact hright.readable l hl
    · rw [heq] at hl
      exact hitems.readable l hl

/-- A comparison whose literals are read again as they are is read again as it is. -/
theorem reread_eq_self {c : Comparison} (h : ∀ l ∈ c.literals, l.reread = l) : c.reread = c := by
  rw [reread, c.left.reread_eq_self fun l hl => h l (List.mem_append_left _ hl),
    c.right.reread_eq_self fun l hl => h l (List.mem_append_right _ hl)]

theorem Derived.reread_of_kept {c : Comparison} (h : c.Derived) (hkept : c.Kept) : c.reread = c :=
  reread_eq_self fun l hl => (h.readable l hl).reread_of_kept (hkept.literals l hl)

/-- A comparison of two operands. -/
theorem rereads_operands {left right : Expr} (op : CompareOp) (hl : left.Rereads n k)
    (hr : right.Rereads (n + k) k') : Rereads n (k + k') ⟨left, op, right⟩ := by
  refine ⟨⟨⟨n, k, hl⟩, .inl ⟨n + k, k', hr⟩⟩, fun hbare => ?_⟩
  obtain ⟨s, hs, hk, hspells, -⟩ := hl.sum
  obtain ⟨s', hs', hk', hspells', -, hatom⟩ := hr.sum
  -- behind `IN` a parenthesis would open a list
  have hright : op = .isIn → s'.tokens.head? ≠ some (.symbol .openParen) := by
    intro hop
    cases harith : right.isArith with
    | false => exact hatom harith
    | true => exact fun hopen => hbare hop harith (hspells'.opens hopen)
  refine ⟨.compare s op s' hright, ?_, ?_, ?_⟩
  · rw [Term.written, hs, hk, hs']
    rfl
  · rw [Term.placeholders, hk, hk']
  · rw [toList_render]
    exact hspells.binary (operatorText op) hspells'

theorem toList_render_list (items : List Expr) : (Expr.list items).render.toList =
    '(' :: ((Expr.commaSeparated (Expr.renderAll items)).toList ++ [')']) := by
  simp [Expr.render]

/-- A comparison with a list. -/
theorem rereads_list {left : Expr} {items : List Expr} (hl : left.Rereads n k)
    (hr : Expr.RereadsItems (n + k) k' items) : Rereads n (k + k') ⟨left, .isIn, .list items⟩ := by
  refine ⟨⟨⟨n, k, hl⟩, .inr ⟨items, n + k, k', rfl, hr⟩⟩, fun _ => ?_⟩
  obtain ⟨s, hs, hk, hspells, -⟩ := hl.sum
  obtain ⟨items', hitems, hk', hspells'⟩ := hr.items
  refine ⟨.isIn s items', ?_, ?_, ?_⟩
  · rw [Term.written, hs, hk, hitems]
    rfl
  · rw [Term.placeholders, hk, hk']
  · rw [toList_render, toList_render_list]
    exact hspells.binary (operatorText .isIn) hspells'.enclosable.group

end Comparison

namespace Grammar

/-! ## Chains -/

/-- What follows the first term of a chain, with one more term behind it. -/
def ChainTail.snoc (op : LogicOp) (right : Term) : ChainTail → ChainTail
  | .done => .more op right .done
  | .more o t tail => .more o t (tail.snoc op right)

theorem ChainTail.tokens_snoc (op : LogicOp) (right : Term) (t : ChainTail) :
    (t.snoc op right).tokens = t.tokens ++ connectiveToken op :: right.tokens := by
  cases t with
  | done => simp [snoc, tokens]
  | more o t tail =>
      rw [snoc, tokens, tokens, tail.tokens_snoc op right, List.cons_append, List.append_assoc]

theorem ChainTail.placeholders_snoc (op : LogicOp) (right : Term) (t : ChainTail) :
    (t.snoc op right).placeholders = t.placeholders + right.placeholders := by
  cases t with
  | done => simp [snoc, placeholders]
  | more o t tail =>
      rw [snoc, placeholders, placeholders, tail.placeholders_snoc op right, Nat.add_assoc]

theorem ChainTail.written_snoc (op : LogicOp) (right : Term) : (t : ChainTail) → (n : Nat) →
    (left : Predicate) → (t.snoc op right).written n left =
      .logic op (t.written n left) (right.written (n + t.placeholders))
  | .done, n, left => by simp [snoc, written, placeholders]
  | .more o t tail, n, left => by
      rw [snoc, written, written, placeholders, tail.written_snoc op right, Nat.add_assoc]

/-- A chain with one more term behind it. -/
def Chain.snoc (op : LogicOp) (right : Term) : Chain → Chain
  | .mk first tail => .mk first (tail.snoc op right)

theorem Chain.tokens_snoc (op : LogicOp) (right : Term) (c : Chain) :
    (c.snoc op right).tokens = c.tokens ++ connectiveToken op :: right.tokens := by
  obtain ⟨first, tail⟩ := c
  rw [snoc, tokens, tokens, tail.tokens_snoc, List.append_assoc]

theorem Chain.placeholders_snoc (op : LogicOp) (right : Term) (c : Chain) :
    (c.snoc op right).placeholders = c.placeholders + right.placeholders := by
  obtain ⟨first, tail⟩ := c
  rw [snoc, placeholders, placeholders, tail.placeholders_snoc, Nat.add_assoc]

theorem Chain.written_snoc (op : LogicOp) (right : Term) (c : Chain) (n : Nat) :
    (c.snoc op right).written n =
      .logic op (c.written n) (right.written (n + c.placeholders)) := by
  obtain ⟨first, tail⟩ := c
  rw [snoc, written, written, placeholders, tail.written_snoc, Nat.add_assoc]

theorem operatorText_connective (op : LogicOp) :
    OperatorText op.text.toList (connectiveToken op) := by
  cases op with
  | and => exact operatorText_keyword (k := .AND) (by decide)
  | or => exact operatorText_keyword (k := .OR) (by decide)

end Grammar

namespace Predicate

variable {n k k' : Nat}

/-- `p.Kept` holds when every comparison of `p` is kept. -/
def Kept (p : Predicate) : Prop :=
  ∀ c ∈ p.comparisons, c.Kept

/-- With `n` parameters in front of it and `k` in it, the text of a predicate is derived as a chain and
as a term that fold to it. -/
structure Prints (n k : Nat) (p : Predicate) : Prop where
  counts : p.hasPlaceholders = false → k = 0
  chain : p.Kept → ∃ d : Chain, (d.written n).fold = p ∧ d.placeholders = k ∧
    Spells p.render.toList d.tokens
  term : p.Kept → ∃ t : Term, (t.written n).fold = p ∧ t.placeholders = k ∧
    Spells (Expr.parenthesized p.isLogic p.render).toList t.tokens

/-- With `n` parameters in front of it and `k` in it, the text of `p` is derived as a chain and as a term
that fold to `q`. -/
structure PrintsAs (n k : Nat) (p q : Predicate) : Prop where
  chain : ∃ d : Chain, (d.written n).fold = q ∧ d.placeholders = k ∧
    Spells p.render.toList d.tokens
  term : ∃ t : Term, (t.written n).fold = q ∧ t.placeholders = k ∧
    Spells (Expr.parenthesized p.isLogic p.render).toList t.tokens

theorem Prints.printsAs {p : Predicate} (h : Prints n k p) (hkept : p.Kept) : PrintsAs n k p p :=
  ⟨h.chain hkept, h.term hkept⟩

/-- The predicate with each literal as its text is read. -/
def reread : Predicate → Predicate
  | .always => .always
  | .comparison c => .comparison c.reread
  | .logic op left right => .logic op left.reread right.reread

/-- `p.Bare` holds when no arithmetic behind `IN` starts with a parenthesis. -/
def Bare (p : Predicate) : Prop :=
  ∀ c ∈ p.comparisons, c.Bare

theorem reread_eq_self {p : Predicate} (h : ∀ c ∈ p.comparisons, c.reread = c) : p.reread = p := by
  induction p with
  | always => rfl
  | comparison c => exact congrArg comparison (h c (List.mem_singleton.mpr rfl))
  | logic op left right ihl ihr =>
      rw [reread, ihl fun c hc => h c (List.mem_append_left _ hc),
        ihr fun c hc => h c (List.mem_append_right _ hc)]

/-- With `n` parameters in front of it and `k` in it, the text of a predicate is derived as a chain and
as a term that fold to the predicate with its literals read again. -/
structure Rereads (n k : Nat) (p : Predicate) : Prop where
  counts : p.hasPlaceholders = false → k = 0
  derived : ∀ c ∈ p.comparisons, c.Derived
  printsAs : p.Bare → PrintsAs n k p p.reread.fold

/-- A predicate whose literals are kept prints as itself, if nothing of it is folded away. -/
theorem Rereads.prints {p : Predicate} (h : Rereads n k p) (hfold : p.fold = p) : Prints n k p := by
  have hself : p.Kept → PrintsAs n k p p := by
    intro hkept
    have hreread : p.reread = p :=
      reread_eq_self fun c hc => (h.derived c hc).reread_of_kept (hkept c hc)
    have hprints := h.printsAs fun c hc => (hkept c hc).right
    rwa [hreread, hfold] at hprints
  exact ⟨h.counts, fun hkept => (hself hkept).chain, fun hkept => (hself hkept).term⟩

/-- What is printed as a term stands without parentheses everywhere. -/
theorem printsAs_term {p q : Predicate} (hatom : p.isLogic = false)
    (h : ∃ t : Term, (t.written n).fold = q ∧ t.placeholders = k ∧ Spells p.render.toList t.tokens) :
    PrintsAs n k p q := by
  obtain ⟨t, ht, hk, hspells⟩ := h
  refine ⟨⟨.mk t .done, ht, hk, ?_⟩, ⟨t, ht, hk, ?_⟩⟩
  · rw [Chain.tokens, ChainTail.tokens, List.append_nil]
    exact hspells
  · rw [hatom]
    exact hspells

/-- The comparison that is printed for what always holds. -/
def holding : Comparison :=
  ⟨.literal (.integer 1), .equal, .literal (.integer 1)⟩

theorem predicateOf_holding : Reader.predicateOf holding = .always := by
  rfl

/-- What always holds is printed as a comparison that does. -/
theorem rereads_always (n : Nat) : Rereads n 0 .always := by
  refine ⟨fun _ => rfl, fun _ hc => (by cases hc), fun _ => printsAs_term rfl ?_⟩
  have hone := fun n => Expr.rereads_literal (l := .integer 1) trivial n
  obtain ⟨t, ht, hk, hspells⟩ := (Comparison.rereads_operands .equal (hone n) (hone (n + 0))).term
    fun hop => by cases hop
  refine ⟨t, ?_, hk, hspells⟩
  rw [ht]
  exact predicateOf_holding

theorem prints_always (n : Nat) : Prints n 0 .always :=
  (rereads_always n).prints rfl

/-- What a comparison is read as. -/
theorem rereads_predicateOf {c : Comparison} (h : c.Rereads n k) (hcounts : c.hasPlaceholder = false → k = 0) :
    Rereads n k (Reader.predicateOf c) := by
  unfold Reader.predicateOf
  by_cases hholds : (c.isConstant && c.constantTruth? == some true) = true
  · rw [if_pos hholds]
    rw [Bool.and_eq_true, Comparison.isConstant, Bool.and_eq_true] at hholds
    -- the comparison is folded away, and being constant it has no parameter that would go with it
    have hnone : c.hasPlaceholder = false := by
      rw [Comparison.hasPlaceholder, Expr.not_hasPlaceholder_of_isConstant _ hholds.1.1,
        Expr.not_hasPlaceholder_of_isConstant _ hholds.1.2]
      rfl
    rw [hcounts hnone]
    exact rereads_always n
  · rw [if_neg hholds]
    refine ⟨fun hnone => hcounts ?_, fun c' hc' => ?_, fun hbare => printsAs_term rfl ?_⟩
    · simpa [hasPlaceholders, comparisons] using hnone
    · rw [List.mem_singleton.mp hc']
      exact h.derived
    · obtain ⟨t, ht, hk, hspells⟩ := h.term (hbare c (List.mem_singleton.mpr rfl))
      exact ⟨t, congrArg fold ht, hk, hspells⟩

/-! ## Connectives -/

theorem toList_render_logic (op : LogicOp) (left right : Predicate) :
    (logic op left right).render.toList = left.render.toList ++ ' ' ::
      (op.text.toList ++ ' ' :: (Expr.parenthesized right.isLogic right.render).toList) := by
  simp [render]

theorem hasPlaceholders_logic (op : LogicOp) (left right : Predicate) :
    (logic op left right).hasPlaceholders = (left.hasPlaceholders || right.hasPlaceholders) := by
  simp [hasPlaceholders, comparisons]

/-- A connective is read as its sides put together, whatever they are read as. -/
theorem PrintsAs.logic (op : LogicOp) {left left' right right' : Predicate}
    (hl : PrintsAs n k left left') (hr : PrintsAs (n + k) k' right right') :
    PrintsAs n (k + k') (.logic op left right) (combine op left' right') := by
  obtain ⟨d, hd, hk, hspells⟩ := hl.chain
  obtain ⟨t, ht, hk', hspells'⟩ := hr.term
  -- the left side is a chain already, and the right one goes to its end
  have hfold : ((d.snoc op t).written n).fold = combine op left' right' := by
    rw [Chain.written_snoc, fold, hd, hk, ht]
  have hcount : (d.snoc op t).placeholders = k + k' := by
    rw [Chain.placeholders_snoc, hk, hk']
  have hall : Spells (Predicate.logic op left right).render.toList (d.snoc op t).tokens := by
    rw [toList_render_logic, Chain.tokens_snoc]
    exact hspells.binary (operatorText_connective op) hspells'
  refine ⟨⟨d.snoc op t, hfold, hcount, hall⟩, ⟨.group (d.snoc op t), hfold, hcount, ?_⟩⟩
  rw [show (Predicate.logic op left right).isLogic = true from rfl, Expr.toList_parenthesized]
  exact hall.enclosable.group

theorem Rereads.logic (op : LogicOp) {left right : Predicate} (hl : Rereads n k left)
    (hr : Rereads (n + k) k' right) : Rereads n (k + k') (.logic op left right) := by
  refine ⟨fun hcounts => ?_, fun c hc => ?_, fun hbare => ?_⟩
  · rw [hasPlaceholders_logic, Bool.or_eq_false_iff] at hcounts
    rw [hl.counts hcounts.1, hr.counts hcounts.2]
  · rcases List.mem_append.mp hc with hc | hc
    · exact hl.derived c hc
    · exact hr.derived c hc
  · exact (hl.printsAs fun c hc => hbare c (List.mem_append_left _ hc)).logic op
      (hr.printsAs fun c hc => hbare c (List.mem_append_right _ hc))

/-- What `combine` gives: the connective itself, or one side when the other always holds, or what
always holds, and then no parameter is dropped. -/
theorem combine_cases (op : LogicOp) (left right : Predicate) :
    combine op left right = .logic op left right ∨
      (left = .always ∧ combine op left right = right) ∨
      (right = .always ∧ combine op left right = left) ∨
      (left.hasPlaceholders = false ∧ right.hasPlaceholders = false ∧
        combine op left right = .always) := by
  have hnone : ∀ {p q : Predicate}, (p.isAlways && !q.hasPlaceholders) = true →
      p.hasPlaceholders = false ∧ q.hasPlaceholders = false := by
    intro p q h
    rw [Bool.and_eq_true, Bool.not_eq_true'] at h
    rw [eq_always_of_isAlways h.1]
    exact ⟨rfl, h.2⟩
  fun_cases combine op left right with
  | case1 => exact .inr (.inl ⟨rfl, rfl⟩)
  | case2 => exact .inr (.inr (.inl ⟨rfl, rfl⟩))
  | case3 =>
      rename_i hdrop
      exact .inr (.inr (.inr ⟨(hnone hdrop).1, (hnone hdrop).2, rfl⟩))
  | case4 =>
      rename_i hdrop
      exact .inr (.inr (.inr ⟨(hnone hdrop).2, (hnone hdrop).1, rfl⟩))
  | case5 => exact .inl rfl
  | case6 => exact .inl rfl

/-- Two predicates are derived again put together when both are. -/
theorem Rereads.combine (op : LogicOp) {left right : Predicate} (hl : Rereads n k left)
    (hr : Rereads (n + k) k' right) : Rereads n (k + k') (combine op left right) := by
  rcases combine_cases op left right with h | ⟨rfl, h⟩ | ⟨rfl, h⟩ | ⟨hl₀, hr₀, h⟩
  · rw [h]
    exact hl.logic op hr
  · have hzero : k = 0 := hl.counts rfl
    subst hzero
    rw [h, Nat.zero_add]
    exact hr
  · have hzero : k' = 0 := hr.counts rfl
    subst hzero
    rw [h]
    exact hl
  · rw [h, hl.counts hl₀, hr.counts hr₀]
    exact rereads_always n

/-- What a comparison is read as is folded to itself. -/
theorem fold_predicateOf (c : Comparison) : (Reader.predicateOf c).fold = Reader.predicateOf c := by
  unfold Reader.predicateOf
  split
  next => rfl
  next hholds => exact if_neg hholds

/-- Nothing is folded away a second time. -/
theorem fold_fold (p : Predicate) : p.fold.fold = p.fold := by
  induction p with
  | always => rfl
  | comparison c => exact fold_predicateOf c
  | logic op left right ihl ihr =>
      show (Predicate.combine op left.fold right.fold).fold = Predicate.combine op left.fold right.fold
      rcases combine_cases op left.fold right.fold with h | ⟨-, h⟩ | ⟨-, h⟩ | ⟨-, -, h⟩
      · rw [h, fold, ihl, ihr, h]
      · rw [h, ihr]
      · rw [h, ihl]
      · rw [h, fold]

end Predicate

namespace Grammar

/-! ## What is derived -/

theorem operatorToken_ne_dot (op : CompareOp) : operatorToken op ≠ .symbol .dot := by
  cases op <;> decide

theorem connectiveToken_ne_dot (op : LogicOp) : connectiveToken op ≠ .symbol .dot := by
  cases op <;> decide

/-- A term whose comparison has no parameter has no question mark. -/
theorem Term.counts {t : Term} {n : Nat} {c : Comparison} (ht : t.written n = .comparison c)
    (h : c.hasPlaceholder = false) : t.placeholders = 0 := by
  have hparameters := t.parameters_written n
  rw [ht, Predicate.parameters_comparison, c.hasPlaceholder_eq_false_iff.mp h] at hparameters
  exact List.range'_eq_nil_iff.mp hparameters.symm

mutual

/-- The predicate of a chain is derived again from its text, wherever the names in its tokens are those of a
text. -/
theorem Chain.rereads : (d : Chain) → (n : Nat) → {r : List Token} → Undotted (d.tokens ++ r) →
    Predicate.Rereads n d.placeholders (d.written n).fold ∧ Undotted r
  | .mk first tail, n, r, h => by
      rw [Chain.tokens, List.append_assoc] at h
      obtain ⟨hfirst, h₁⟩ := first.rereads n h
      exact tail.rereads n _ _ hfirst h₁

theorem ChainTail.rereads : (t : ChainTail) → (n k : Nat) → (left : Predicate) →
    Predicate.Rereads n k left.fold → {r : List Token} → Undotted (t.tokens ++ r) →
      Predicate.Rereads n (k + t.placeholders) (t.written (n + k) left).fold ∧ Undotted r
  | .done, n, k, left, hleft, r, h => ⟨hleft, h⟩
  | .more op right tail, n, k, left, hleft, r, h => by
      rw [ChainTail.tokens, List.cons_append, List.append_assoc] at h
      -- what has been read so far is the left side of the connective
      obtain ⟨hright, h₁⟩ := right.rereads (n + k) (h.tail (connectiveToken_ne_dot op))
      have htail := tail.rereads n _ (.logic op left (right.written (n + k)))
        (hleft.combine op hright) h₁
      rwa [← Nat.add_assoc, Nat.add_assoc k] at htail

theorem Term.rereads : (t : Term) → (n : Nat) → {r : List Token} → Undotted (t.tokens ++ r) →
    Predicate.Rereads n t.placeholders (t.written n).fold ∧ Undotted r
  | .group inner, n, r, h => by
      rw [Term.tokens, List.cons_append, List.append_assoc] at h
      obtain ⟨hinner, h₁⟩ := inner.rereads n (h.tail (by decide))
      exact ⟨hinner, h₁.tail (by decide)⟩
  | .compare left op right hright, n, r, h => by
      rw [Term.tokens, List.append_assoc, List.cons_append] at h
      obtain ⟨hleft, h₁⟩ := left.rereads n h
      obtain ⟨hright', h₂⟩ := right.rereads (n + left.placeholders) (h₁.tail (operatorToken_ne_dot op))
      exact ⟨Predicate.rereads_predicateOf (Comparison.rereads_operands op hleft hright')
        (Term.counts (t := .compare left op right hright) rfl), h₂⟩
  | .isIn left items, n, r, h => by
      rw [Term.tokens, List.append_assoc, List.cons_append, List.cons_append, List.append_assoc] at h
      obtain ⟨hleft, h₁⟩ := left.rereads n h
      obtain ⟨hitems, h₂⟩ := items.rereads (n + left.placeholders)
        ((h₁.tail Token.noConfusion).tail (by decide))
      exact ⟨Predicate.rereads_predicateOf (Comparison.rereads_list hleft hitems)
        (Term.counts (t := .isIn left items) rfl), h₂.tail (by decide)⟩

end

/-- The predicate of a chain prints as itself where its literals are kept. -/
theorem Chain.prints (d : Chain) (n : Nat) {r : List Token} (h : Undotted (d.tokens ++ r)) :
    Predicate.Prints n d.placeholders (d.written n).fold ∧ Undotted r := by
  obtain ⟨hrereads, hr⟩ := d.rereads n h
  exact ⟨hrereads.prints (Predicate.fold_fold _), hr⟩

end Grammar

end RecordQuery
