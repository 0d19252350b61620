import RecordQuery.Proofs.Literal.ReadBack
import RecordQuery.Proofs.Lexing.Lexed
import RecordQuery.Proofs.Parameters.Numbering
/-!
# Printed expressions

The text of an expression is derived from the grammar again, with every literal read again from its text
(`Expr.reread`). `Expr.Rereads n k e` says so on the three levels of operands, with `n` parameters in front
of `e` and `k` in it: as a sum the text stands as it is, and as an operand of an operator it stands in
parentheses where the printer puts them. It holds of atoms (`Expr.rereads_primary`), and of arithmetic when
it does of its operands (`Expr.Rereads.sumOp`, `Expr.Rereads.productOp`).

So it holds of what has been derived once (`Grammar.Sum.rereads`): the induction is on the derivation, with
the operands to the left of a chain accumulated, as the grammar folds them. Where every literal is kept, the
expression is its own rereading and prints as itself (`Grammar.Sum.prints`).
-/

namespace RecordQuery

open Grammar Lexer

namespace Expr

/-! ## Literals of an expression -/

mutual

/-- The literals of an expression, from left to right. -/
def literals : Expr → List Literal
  | .literal l => [l]
  | .list items => literalsOfAll items
  | .call _ args => literalsOfAll args
  | .arith _ left right => literals left ++ literals right
  | .field _ => []
  | .placeholder _ => []
  | .wildcard => []
termination_by structural e => e

/-- The literals of a list of expressions, from left to right. -/
def literalsOfAll : List Expr → List Literal
  | [] => []
  | e :: rest => literals e ++ literalsOfAll rest
termination_by structural es => es

end

/-- Every literal of the expression keeps its type and its scale when it is printed. -/
def Kept (e : Expr) : Prop :=
  ∀ l ∈ e.literals, l.Kept

/-! ## Literals read again -/

mutual

/-- The expression with each literal as its text is read. -/
def reread : Expr → Expr
  | .literal l => .literal l.reread
  | .list items => .list (rereadAll items)
  | .call name args => .call name (rereadAll args)
  | .arith op left right => .arith op (reread left) (reread right)
  | .field f => .field f
  | .placeholder index => .placeholder index
  | .wildcard => .wildcard
termination_by structural e => e

/-- The expressions with each literal as its text is read. -/
def rereadAll : List Expr → List Expr
  | [] => []
  | e :: rest => reread e :: rereadAll rest
termination_by structural es => es

end

/-- Every literal of the expression is one that a text is typed as. -/
def Readable (e : Expr) : Prop :=
  ∀ l ∈ e.literals, l.Readable

/-- Every literal of the expressions is one that a text is typed as. -/
def AllReadable (es : List Expr) : Prop :=
  ∀ l ∈ literalsOfAll es, l.Readable

mutual

/-- An expression whose literals are read again as they are is read again as it is. -/
theorem reread_eq_self : (e : Expr) → (∀ l ∈ e.literals, l.reread = l) → e.reread = e
  | .literal l, h => congrArg literal (h l (List.mem_singleton.mpr rfl))
  | .list items, h => congrArg list (rereadAll_eq_self items h)
  | .call name args, h => congrArg (call name) (rereadAll_eq_self args h)
  | .arith op left right, h => by
      rw [reread, reread_eq_self left fun l hl => h l (List.mem_append_left _ hl),
        reread_eq_self right fun l hl => h l (List.mem_append_right _ hl)]
  | .field _, _ => rfl
  | .placeholder _, _ => rfl
  | .wildcard, _ => rfl

theorem rereadAll_eq_self : (es : List Expr) → (∀ l ∈ literalsOfAll es, l.reread = l) →
    rereadAll es = es
  | [], _ => rfl
  | e :: rest, h => by
      rw [rereadAll, reread_eq_self e fun l hl => h l (List.mem_append_left _ hl),
        rereadAll_eq_self rest fun l hl => h l (List.mem_append_right _ hl)]

end

mutual

/-- An expression is read again as an equal one exactly when each of its literals is. -/
theorem reread_beq_iff : (e : Expr) →
    ((e.reread == e) = true ↔ ∀ l ∈ e.literals, (l.reread == l) = true)
  | .literal l => by
      rw [literals, List.forall_mem_singleton]
      rfl
  | .list items => rereadAll_beq_iff items
  | .call name args => by
      rw [literals, ← rereadAll_beq_iff args]
      show (name == name && _) = true ↔ _
      rw [beq_self_eq_true, Bool.true_and]
  | .arith op left right => by
      rw [literals, List.forall_mem_append, ← reread_beq_iff left, ← reread_beq_iff right,
        ← Bool.and_eq_true]
      show (op == op && _ && _) = true ↔ _
      rw [beq_self_eq_true, Bool.true_and]
      rfl
  | .field f => iff_of_true (beq_self_eq_true f) fun _ hl => by cases hl
  | .placeholder index => iff_of_true (beq_self_eq_true index) fun _ hl => by cases hl
  | .wildcard => iff_of_true rfl fun _ hl => by cases hl

theorem rereadAll_beq_iff : (es : List Expr) →
    (beqAll (rereadAll es) es = true ↔ ∀ l ∈ literalsOfAll es, (l.reread == l) = true)
  | [] => iff_of_true rfl fun _ hl => by cases hl
  | e :: rest => by
      rw [literalsOfAll, List.forall_mem_append, ← reread_beq_iff e, ← rereadAll_beq_iff rest,
        ← Bool.and_eq_true]
      rfl

end

mutual

/-- What is constant does not depend on how the literals are read. -/
theorem isConstant_reread : (e : Expr) → e.reread.isConstant = e.isConstant
  | .list items => areConstant_rereadAll items
  | .call name args => by
      rw [reread, isConstant, isConstant, areConstant_rereadAll args]
  | .arith op left right => by
      rw [reread, isConstant, isConstant, isConstant_reread left, isConstant_reread right]
  | .literal _ | .field _ | .placeholder _ | .wildcard => rfl

theorem areConstant_rereadAll : (es : List Expr) → areConstant (rereadAll es) = areConstant es
  | [] => rfl
  | e :: rest => by
      rw [rereadAll, areConstant, areConstant, isConstant_reread e, areConstant_rereadAll rest]

end

theorem Readable.reread_of_kept {e : Expr} (h : e.Readable) (hkept : e.Kept) : e.reread = e :=
  e.reread_eq_self fun l hl => (h l hl).reread_of_kept (hkept l hl)

end Expr

namespace Grammar

/-! ## One more operand on the right -/

/-- A sum with one more product behind it. -/
def SumTail.snoc (op : SumOp) (right : Product) : SumTail → SumTail
  | .done => .more op right .done
  | .more o p tail => .more o p (tail.snoc op right)

theorem SumTail.tokens_snoc (op : SumOp) (right : Product) (t : SumTail) :
    (t.snoc op right).tokens = t.tokens ++ op.token :: right.tokens := by
  cases t with
  | done => simp [snoc, tokens]
  | more o p tail =>
      rw [snoc, tokens, tokens, tail.tokens_snoc op right, List.cons_append, List.append_assoc]

theorem SumTail.placeholders_snoc (op : SumOp) (right : Product) (t : SumTail) :
    (t.snoc op right).placeholders = t.placeholders + right.placeholders := by
  cases t with
  | done => simp [snoc, placeholders]
  | more o p tail =>
      rw [snoc, placeholders, placeholders, tail.placeholders_snoc op right, Nat.add_assoc]

theorem SumTail.expr_snoc (op : SumOp) (right : Product) : (t : SumTail) → (n : Nat) →
    (left : Expr) → (t.snoc op right).expr n left =
      .arith op.arith (t.expr n left) (right.expr (n + t.placeholders))
  | .done, n, left => by simp [snoc, expr, placeholders]
  | .more o p tail, n, left => by
      rw [snoc, expr, expr, placeholders, tail.expr_snoc op right, Nat.add_assoc]

/-- A product with one more factor behind it. -/
def ProductTail.snoc (op : ProductOp) (right : Factor) : ProductTail → ProductTail
  | .done => .more op right .done
  | .more o f tail => .more o f (tail.snoc op right)

theorem ProductTail.tokens_snoc (op : ProductOp) (right : Factor) (t : ProductTail) :
    (t.snoc op right).tokens = t.tokens ++ op.token :: right.tokens := by
  cases t with
  | done => simp [snoc, tokens]
  | more o f tail =>
      rw [snoc, tokens, tokens, tail.tokens_snoc op right, List.cons_append, List.append_assoc]

theorem ProductTail.placeholders_snoc (op : ProductOp) (right : Factor) (t : ProductTail) :
    (t.snoc op right).placeholders = t.placeholders + right.placeholders := by
  cases t with
  | done => simp [snoc, placeholders]
  | more o f tail =>
      rw [snoc, placeholders, placeholders, tail.placeholders_snoc op right, Nat.add_assoc]

theorem ProductTail.expr_snoc (op : ProductOp) (right : Factor) : (t : ProductTail) → (n : Nat) →
    (left : Expr) → (t.snoc op right).expr n left =
      .arith op.arith (t.expr n left) (right.expr (n + t.placeholders))
  | .done, n, left => by simp [snoc, expr, placeholders]
  | .more o f tail, n, left => by
      rw [snoc, expr, expr, placeholders, tail.expr_snoc op right, Nat.add_assoc]

/-- `s.isGroup` holds for a sum that is nothing but another one in parentheses. -/
def Sum.isGroup : Sum → Bool
  | .mk (.mk (.primary (.group _)) .done) .done => true
  | _ => false

theorem SumTail.snoc_ne_done (op : SumOp) (right : Product) (t : SumTail) : t.snoc op right ≠ .done := by
  cases t <;> exact SumTail.noConfusion

theorem ProductTail.snoc_ne_done (op : ProductOp) (right : Factor) (t : ProductTail) :
    t.snoc op right ≠ .done := by
  cases t <;> exact ProductTail.noConfusion

theorem Sum.isGroup_of_tail {first : Product} {tail : SumTail} (h : tail ≠ .done) :
    (Sum.mk first tail).isGroup = false := by
  unfold isGroup
  split
  next heq => exact absurd (Sum.mk.inj heq).2 h
  next => rfl

theorem Sum.isGroup_of_productTail {first : Factor} {tail : ProductTail} (h : tail ≠ .done) :
    (Sum.mk (.mk first tail) .done).isGroup = false := by
  unfold isGroup
  split
  next heq => exact absurd (Product.mk.inj (Sum.mk.inj heq).1).2 h
  next => rfl

theorem SumOp.operatorText (op : SumOp) : OperatorText op.arith.text.toList op.token := by
  cases op with
  | plus => exact operatorText_symbol (s := .plus) (by decide) (by decide) (by decide)
  | minus => exact operatorText_symbol (s := .minus) (by decide) (by decide) (by decide)

theorem ProductOp.operatorText (op : ProductOp) : OperatorText op.arith.text.toList op.token := by
  cases op with
  | star => exact operatorText_symbol (s := .star) (by decide) (by decide) (by decide)
  | slash => exact operatorText_symbol (s := .slash) (by decide) (by decide) (by decide)

end Grammar

namespace Expr

/-! ## Operands -/

/-- With `n` parameters in front of it and `k` in it, the text of an expression is derived as a sum, as
a product and as a factor. -/
structure Prints (n k : Nat) (e : Expr) : Prop where
  counts : e.hasPlaceholder = false → k = 0
  sum : e.Kept → ∃ s : Grammar.Sum, s.expr n = e ∧ s.placeholders = k ∧
    Spells e.render.toList s.tokens ∧
      (e.isArith = false → s.tokens.head? ≠ some (.symbol .openParen))
  product : e.Kept → ∃ p : Product, p.expr n = e ∧ p.placeholders = k ∧
    Spells (parenthesized (e.bindsLooser 2) e.render).toList p.tokens
  factor : e.Kept → ∃ f : Factor, f.expr n = e ∧ f.placeholders = k ∧
    Spells (parenthesized (e.bindsLooser 3) e.render).toList f.tokens

/-- With `n` parameters in front of it and `k` in it, the text of an expression is derived as a sum, as
a product and as a factor that stand for the expression with its literals read again. No parentheses stand
around the whole of it as a sum. -/
structure Rereads (n k : Nat) (e : Expr) : Prop where
  readable : e.Readable
  sum : ∃ s : Grammar.Sum, s.expr n = e.reread ∧ s.placeholders = k ∧
    Spells e.render.toList s.tokens ∧ s.isGroup = false ∧
      (e.isArith = false → s.tokens.head? ≠ some (.symbol .openParen))
  product : ∃ p : Product, p.expr n = e.reread ∧ p.placeholders = k ∧
    Spells (parenthesized (e.bindsLooser 2) e.render).toList p.tokens
  factor : ∃ f : Factor, f.expr n = e.reread ∧ f.placeholders = k ∧
    Spells (parenthesized (e.bindsLooser 3) e.render).toList f.tokens

theorem bindsLooser_of_not_arith {e : Expr} (h : e.isArith = false) (than : Nat) :
    e.bindsLooser than = false := by
  cases e with
  | arith op left right => cases h
  | _ => rfl

/-- An operator binds at least as tightly as the loosest one. -/
theorem bindsLooser_one (e : Expr) : e.bindsLooser 1 = false := by
  cases e with
  | arith op left right => cases op <;> rfl
  | _ => rfl

theorem toList_parenthesized (text : String) :
    (parenthesized true text).toList = '(' :: (text.toList ++ [')']) := by
  simp [parenthesized]

/-- What is printed as a primary stands without parentheses everywhere. -/
theorem rereads_primary {n k : Nat} {e : Expr} (hatom : e.isArith = false) (hreadable : e.Readable)
    (h : ∃ p : Primary, p.expr n = e.reread ∧ p.placeholders = k ∧
      Spells e.render.toList p.tokens ∧ p.tokens.head? ≠ some (.symbol .openParen)) :
    Rereads n k e := by
  obtain ⟨p, hp, hk, hspells, hopen⟩ := h
  refine ⟨hreadable, ⟨.mk (.mk (.primary p) .done) .done, hp, hk, ?_, ?_, fun _ => ?_⟩,
    ⟨.mk (.primary p) .done, hp, hk, ?_⟩, ⟨.primary p, hp, hk, ?_⟩⟩
  · simpa [Sum.tokens, Product.tokens, ProductTail.tokens, SumTail.tokens, Factor.tokens] using hspells
  · cases p with
    | group inner => exact absurd rfl hopen
    | _ => rfl
  · simpa [Sum.tokens, Product.tokens, ProductTail.tokens, SumTail.tokens, Factor.tokens] using hopen
  · rw [bindsLooser_of_not_arith hatom, Product.tokens, ProductTail.tokens, List.append_nil]
    exact hspells
  · rw [bindsLooser_of_not_arith hatom]
    exact hspells

/-- A sum in parentheses is a factor. -/
theorem factor_of_sum {n k : Nat} {e e' : Expr} {s : Grammar.Sum} (hs : s.expr n = e')
    (hk : s.placeholders = k) (hspells : Spells e.render.toList s.tokens) :
    ∃ f : Factor, f.expr n = e' ∧ f.placeholders = k ∧
      Spells (parenthesized true e.render).toList f.tokens := by
  refine ⟨.primary (.group s), hs, hk, ?_⟩
  rw [toList_parenthesized]
  exact hspells.enclosable.group

theorem toList_render_arith (op : ArithOp) (left right : Expr) : (arith op left right).render.toList =
    (parenthesized (left.bindsLooser op.precedence) left.render).toList ++ ' ' ::
      (op.text.toList ++ ' ' ::
        (parenthesized (right.bindsLooser (op.precedence + 1)) right.render).toList) := by
  simp [render]

theorem readable_arith {op : ArithOp} {left right : Expr} (hl : left.Readable) (hr : right.Readable) :
    (arith op left right).Readable := by
  intro l hmem
  rcases List.mem_append.mp hmem with hmem | hmem
  · exact hl l hmem
  · exact hr l hmem

variable {n k k' : Nat} {left right : Expr}

/-- An addition is a sum, and as an operand of a product it stands in parentheses. -/
theorem Rereads.sumOp (op : SumOp) (hl : Rereads n k left) (hr : Rereads (n + k) k' right) :
    Rereads n (k + k') (.arith op.arith left right) := by
  have hsum : ∃ s : Grammar.Sum, s.expr n = (arith op.arith left right).reread ∧
      s.placeholders = k + k' ∧ Spells (arith op.arith left right).render.toList s.tokens ∧
        s.isGroup = false := by
    obtain ⟨⟨first, tail⟩, hs, hsk, hspells, -⟩ := hl.sum
    obtain ⟨p, hp, hpk, hspells'⟩ := hr.product
    have hprecedence : op.arith.precedence = 1 := by
      cases op <;> rfl
    -- the left operand is a chain of products already, and the right one goes to its end
    rw [Sum.expr] at hs
    rw [Sum.placeholders] at hsk
    refine ⟨.mk first (tail.snoc op p), ?_, ?_, ?_, Sum.isGroup_of_tail (tail.snoc_ne_done op p)⟩
    · rw [Sum.expr, SumTail.expr_snoc, hs, Nat.add_assoc, hsk, hp, reread]
    · rw [Sum.placeholders, SumTail.placeholders_snoc, ← Nat.add_assoc, hsk, hpk]
    · rw [toList_render_arith, hprecedence, bindsLooser_one, Sum.tokens, SumTail.tokens_snoc,
        ← List.append_assoc]
      exact hspells.binary op.operatorText hspells'
  have hlooser : ∀ than, 1 < than → (arith op.arith left right).bindsLooser than = true := by
    intro than h
    cases op <;> exact decide_eq_true h
  obtain ⟨s, hs, hk, hspells, hgroup⟩ := hsum
  obtain ⟨f, hf, hfk, hspells'⟩ := factor_of_sum hs hk hspells
  refine ⟨readable_arith hl.readable hr.readable, ⟨s, hs, hk, hspells, hgroup, fun h => by cases h⟩,
    ⟨.mk f .done, hf, hfk, ?_⟩, ⟨f, hf, hfk, ?_⟩⟩
  · rw [hlooser 2 (by decide), Product.tokens, ProductTail.tokens, List.append_nil]
    exact hspells'
  · rw [hlooser 3 (by decide)]
    exact hspells'

/-- A multiplication is a product, and as a factor it stands in parentheses. -/
theorem Rereads.productOp (op : ProductOp) (hl : Rereads n k left) (hr : Rereads (n + k) k' right) :
    Rereads n (k + k') (.arith op.arith left right) := by
  have hproduct : ∃ p : Product, p.expr n = (arith op.arith left right).reread ∧
      p.placeholders = k + k' ∧ Spells (arith op.arith left right).render.toList p.tokens ∧
        (Grammar.Sum.mk p .done).isGroup = false := by
    obtain ⟨⟨first, tail⟩, hp, hpk, hspells⟩ := hl.product
    obtain ⟨f, hf, hfk, hspells'⟩ := hr.factor
    have hprecedence : op.arith.precedence = 2 := by
      cases op <;> rfl
    rw [Product.expr] at hp
    rw [Product.placeholders] at hpk
    refine ⟨.mk first (tail.snoc op f), ?_, ?_, ?_,
      Sum.isGroup_of_productTail (tail.snoc_ne_done op f)⟩
    · rw [Product.expr, ProductTail.expr_snoc, hp, Nat.add_assoc, hpk, hf, reread]
    · rw [Product.placeholders, ProductTail.placeholders_snoc, ← Nat.add_assoc, hpk, hfk]
    · rw [toList_render_arith, hprecedence, Product.tokens, ProductTail.tokens_snoc,
        ← List.append_assoc]
      exact hspells.binary op.operatorText hspells'
  obtain ⟨p, hp, hk, hspells, hgroup⟩ := hproduct
  -- as a sum it stands as it is, so it needs parentheses in front of a factor only
  have hsum : Spells (arith op.arith left right).render.toList (Sum.tokens (.mk p .done)) := by
    rw [Sum.tokens, SumTail.tokens, List.append_nil]
    exact hspells
  refine ⟨readable_arith hl.readable hr.readable, ⟨.mk p .done, hp, hk, hsum, hgroup, fun h => by cases h⟩,
    ⟨p, hp, hk, ?_⟩, ?_⟩
  · rw [show (arith op.arith left right).bindsLooser 2 = false by cases op <;> rfl]
    exact hspells
  · rw [show (arith op.arith left right).bindsLooser 3 = true by cases op <;> rfl]
    exact factor_of_sum (s := .mk p .done) hp hk hsum

/-- An expression whose literals are kept prints as itself. -/
theorem Rereads.prints {e : Expr} (h : Rereads n k e) (hcounts : e.hasPlaceholder = false → k = 0) :
    Prints n k e := by
  refine ⟨hcounts, fun hkept => ?_, fun hkept => ?_, fun hkept => ?_⟩
  · obtain ⟨s, hs, hk, hspells, -, hopen⟩ := h.sum
    rw [h.readable.reread_of_kept hkept] at hs
    exact ⟨s, hs, hk, hspells, hopen⟩
  · have hproduct := h.product
    rwa [h.readable.reread_of_kept hkept] at hproduct
  · have hfactor := h.factor
    rwa [h.readable.reread_of_kept hkept] at hfactor

/-! ## Atoms -/

theorem rereads_literal {l : Literal} (h : l.Readable) (n : Nat) : Rereads n 0 (.literal l) := by
  refine rereads_primary rfl (fun l' hl' => ?_) ?_
  · rw [List.mem_singleton.mp hl']
    exact h
  · obtain ⟨p, hp, hk, hspells, hopen⟩ := h.readsAs
    exact ⟨p, hp n, hk, hspells, hopen⟩

/-- What has no literal in it is readable. -/
theorem readable_of_no_literal {e : Expr} (h : e.literals = []) : e.Readable := by
  intro l hl
  rw [h] at hl
  cases hl

theorem rereads_placeholder (n : Nat) : Rereads n 1 (.placeholder n) := by
  refine rereads_primary rfl (readable_of_no_literal rfl)
    ⟨.placeholder, rfl, rfl, ?_, fun h => by cases h⟩
  rw [show (placeholder n).render.toList = ['?'] by simp [render]]
  exact spells_placeholder

/-- The text of names with a dot in front of each. -/
def dottedText (names : List String) : List Char :=
  names.flatMap fun name => '.' :: name.toList

theorem toList_intercalate_dot (first : String) (others : List String) :
    (String.intercalate "." (first :: others)).toList = first.toList ++ dottedText others := by
  induction others generalizing first with
  | nil => simp [dottedText]
  | cons second others ih =>
      rw [String.intercalate_cons_cons, String.toList_append, String.toList_append, ih]
      simp [dottedText]

theorem toList_qualifiedName (first : String) (others : List String) :
    (Reader.fieldOfNames first others).qualifiedName.toList = first.toList ++ dottedText others := by
  cases others with
  | nil => simp [Reader.fieldOfNames, FieldRef.qualifiedName, dottedText]
  | cons second others =>
      simp only [Reader.fieldOfNames, List.isEmpty_cons, Bool.false_eq_true, if_false,
        FieldRef.qualifiedName, String.toList_append, toList_intercalate_dot]
      simp [dottedText]

theorem reads_dotted (first : String) (d : Nat) {names : List String}
    (h : ∀ name ∈ names, IsWord name) {rest : List Char} (hrest : Delimited rest) :
    ∃ last, Reads (some (.identifier first)) d (dottedText names ++ rest) (dotted names)
      (some (.identifier last)) d rest := by
  induction names generalizing first with
  | nil => exact ⟨first, .refl _ _ _⟩
  | cons name names ih =>
      obtain ⟨last, hothers⟩ := ih name (fun w hw => h w (by simp [hw]))
      have hbehind : ∀ c ∈ (dottedText names ++ rest).head?, isWordChar c = false := by
        intro c hc
        cases names with
        | nil => exact (hrest.wordEnd c hc).1
        | cons second names =>
            cases hc
            decide
      have hsegment := (reads_segment (h name (by simp)) (d := d) hbehind).trans hothers
      have hdot : Reads (some (.identifier first)) d
          ('.' :: (name.toList ++ (dottedText names ++ rest))) [.symbol .dot] (some (.symbol .dot)) d
          (name.toList ++ (dottedText names ++ rest)) := reads_dot
      refine ⟨last, ?_⟩
      rw [show dottedText (name :: names) ++ rest =
        '.' :: (name.toList ++ (dottedText names ++ rest)) by simp [dottedText]]
      exact hdot.trans hsegment

theorem rereads_field {first : String} {others : List String} (hfirst : IsName first)
    (hothers : ∀ name ∈ others, IsWord name) (n : Nat) :
    Rereads n 0 (.field (Reader.fieldOfNames first others)) := by
  refine rereads_primary rfl (readable_of_no_literal rfl)
    ⟨.field first others, rfl, rfl, ⟨fun prev d rest hprev hrest => ?_, fun h => by cases h⟩,
      fun h => by cases h⟩
  obtain ⟨last, hlast⟩ := reads_dotted first d hothers hrest
  have hbehind : WordEnd (dottedText others ++ rest) := by
    cases others with
    | nil => exact hrest.wordEnd
    | cons second others => exact wordEnd_dot _
  refine ⟨some (.identifier last), ?_, fun h => by cases h⟩
  show Reads prev d ((Reader.fieldOfNames first others).qualifiedName.toList ++ rest) _ _ _ _
  rw [toList_qualifiedName, List.append_assoc]
  exact (reads_name hfirst hprev.2 hbehind).trans hlast

/-! ## Calls -/

/-- The text of an argument is derived as an argument, with its literals read again. -/
structure RereadsArgument (n k : Nat) (e : Expr) : Prop where
  readable : e.Readable
  argument : ∃ a : Argument, a.expr n = e.reread ∧ a.placeholders = k ∧ Spells e.render.toList a.tokens

/-- The texts of arguments, with commas between, are derived as arguments, with their literals read again. -/
structure RereadsArguments (n k : Nat) (es : List Expr) : Prop where
  readable : AllReadable es
  /-- no arguments have no parameters -/
  counts : es = [] → k = 0
  arguments : ∃ args : Arguments, args.exprs n = rereadAll es ∧ args.placeholders = k ∧
    Spells (commaSeparated (renderAll es)).toList args.tokens

theorem rereadsArgument_wildcard (n : Nat) : RereadsArgument n 0 .wildcard :=
  ⟨readable_of_no_literal rfl, ⟨.star, rfl, rfl, spells_star⟩⟩

theorem Rereads.argument {e : Expr} (h : Rereads n k e) : RereadsArgument n k e := by
  obtain ⟨s, hs, hk, hspells, -⟩ := h.sum
  exact ⟨h.readable, ⟨.sum s, hs, hk, hspells⟩⟩

theorem rereadsArguments_nil (n : Nat) : RereadsArguments n 0 [] :=
  ⟨fun _ hl => (by cases hl), fun _ => rfl, ⟨.done, rfl, rfl, spells_nil⟩⟩

theorem allReadable_cons {e : Expr} {es : List Expr} (he : e.Readable) (hes : AllReadable es) :
    AllReadable (e :: es) := by
  intro l hl
  rcases List.mem_append.mp hl with hl | hl
  · exact he l hl
  · exact hes l hl

theorem RereadsArgument.cons {e : Expr} {es : List Expr} (h : RereadsArgument n k e)
    (hes : RereadsArguments (n + k) k' es) : RereadsArguments n (k + k') (e :: es) := by
  obtain ⟨a, ha, hk, hspells⟩ := h.argument
  obtain ⟨args, hargs, hk', hspells'⟩ := hes.arguments
  refine ⟨allReadable_cons h.readable hes.readable, fun h => (by cases h), ?_⟩
  cases es with
  | nil =>
      -- no arguments behind the last one, so no comma is printed
      have hzero : k' = 0 := hes.counts rfl
      refine ⟨.last a, ?_, ?_, ?_⟩
      · rw [Arguments.exprs, ha]
        rfl
      · rw [Arguments.placeholders, hk, hzero]
        rfl
      · rw [renderAll, renderAll, commaSeparated_singleton]
        exact hspells
  | cons e' es =>
      refine ⟨.more a args, ?_, ?_, ?_⟩
      · rw [Arguments.exprs, ha, hk, hargs]
        rfl
      · rw [Arguments.placeholders, hk, hk']
      · rw [renderAll, renderAll, commaSeparated_cons, Arguments.tokens]
        exact hspells.comma hspells'

theorem rereads_call {name : String} {args : List Expr} (hname : IsName name)
    (hpoint : Name.same name "point" = false) (hargs : RereadsArguments n k args) :
    Rereads n k (.call (Name.lower name) args) := by
  -- the name is kept in lower case, which no longer spells another word
  have hpoint' : Name.same (Name.lower name) "point" = false := by
    rw [Name.same, lower_lower]
    exact hpoint
  refine rereads_primary rfl hargs.readable ?_
  obtain ⟨args', hexprs, hk, hspells⟩ := hargs.arguments
  refine ⟨.call (Name.lower name) hpoint' args', ?_, hk, ⟨fun prev d rest hprev hrest => ?_,
    fun h => by cases h⟩, fun h => by cases h⟩
  · rw [Primary.expr, lower_lower, hexprs, reread]
  · have hgroup := hspells.enclosable.reads_group (some (.identifier (Name.lower name))) d rest
    have hall := (reads_name hname.lower hprev.2 (wordEnd_open _)).trans hgroup
    refine ⟨some (.symbol .closeParen), ?_, fun h => by cases h⟩
    rw [show (call (Name.lower name) args).render.toList ++ rest = (Name.lower name).toList ++
      '(' :: ((commaSeparated (renderAll args)).toList ++ ')' :: rest) by simp [render]]
    exact hall

end Expr

namespace Grammar

/-! ## What is derived -/

/-- Behind the first name of a path, every name is a word, and no dot is left behind the path. -/
theorem words_of_dotted {names : List String} {first : String} {r : List Token}
    (h : Lexed (some (.identifier first)) (dotted names ++ r)) :
    (∀ name ∈ names, IsWord name) ∧ Undotted r := by
  induction names generalizing first with
  | nil => exact ⟨fun _ hw => (by cases hw), some (.identifier first), fun heq => (by cases heq), h⟩
  | cons name names ih =>
      obtain ⟨hwords, hr⟩ := ih h.tail.tail
      refine ⟨fun w hw => ?_, hr⟩
      rcases List.mem_cons.mp hw with rfl | hw
      · exact h.tail.1.1
      · exact hwords w hw

theorem Coordinate.undotted {x : Coordinate} {r : List Token} (h : Undotted (x.tokens ++ r)) :
    Undotted r := by
  unfold tokens at h
  split at h
  · exact (h.tail (by decide)).tail Token.noConfusion
  · exact h.tail Token.noConfusion

theorem SumOp.token_ne_dot (op : SumOp) : op.token ≠ .symbol .dot := by
  cases op <;> decide

theorem ProductOp.token_ne_dot (op : ProductOp) : op.token ≠ .symbol .dot := by
  cases op <;> decide

mutual

/-- The expression of a sum is derived again from its text, wherever the names in its tokens are those of a
text. -/
theorem Sum.rereads : (s : Sum) → (n : Nat) → {r : List Token} → Undotted (s.tokens ++ r) →
    Expr.Rereads n s.placeholders (s.expr n) ∧ Undotted r
  | .mk first tail, n, r, h => by
      rw [Sum.tokens, List.append_assoc] at h
      obtain ⟨hfirst, h₁⟩ := first.rereads n h
      exact tail.rereads n _ hfirst h₁

theorem SumTail.rereads : (t : SumTail) → (n k : Nat) → {left : Expr} → Expr.Rereads n k left →
    {r : List Token} → Undotted (t.tokens ++ r) →
      Expr.Rereads n (k + t.placeholders) (t.expr (n + k) left) ∧ Undotted r
  | .done, n, k, left, hleft, r, h => ⟨hleft, h⟩
  | .more op right tail, n, k, left, hleft, r, h => by
      rw [SumTail.tokens, List.cons_append, List.append_assoc] at h
      obtain ⟨hright, h₁⟩ := right.rereads (n + k) (h.tail op.token_ne_dot)
      have htail := tail.rereads n _ (hleft.sumOp op hright) h₁
      rwa [← Nat.add_assoc, Nat.add_assoc k] at htail

theorem Product.rereads : (p : Product) → (n : Nat) → {r : List Token} → Undotted (p.tokens ++ r) →
    Expr.Rereads n p.placeholders (p.expr n) ∧ Undotted r
  | .mk first tail, n, r, h => by
      rw [Product.tokens, List.append_assoc] at h
      obtain ⟨hfirst, h₁⟩ := first.rereads n h
      exact tail.rereads n _ hfirst h₁

theorem ProductTail.rereads : (t : ProductTail) → (n k : Nat) → {left : Expr} →
    Expr.Rereads n k left → {r : List Token} → Undotted (t.tokens ++ r) →
      Expr.Rereads n (k + t.placeholders) (t.expr (n + k) left) ∧ Undotted r
  | .done, n, k, left, hleft, r, h => ⟨hleft, h⟩
  | .more op right tail, n, k, left, hleft, r, h => by
      rw [ProductTail.tokens, List.cons_append, List.append_assoc] at h
      obtain ⟨hright, h₁⟩ := right.rereads (n + k) (h.tail op.token_ne_dot)
      have htail := tail.rereads n _ (hleft.productOp op hright) h₁
      rwa [← Nat.add_assoc, Nat.add_assoc k] at htail

theorem Factor.rereads : (f : Factor) → (n : Nat) → {r : List Token} → Undotted (f.tokens ++ r) →
    Expr.Rereads n f.placeholders (f.expr n) ∧ Undotted r
  | .negated operand, n, r, h => by
      rw [Factor.tokens, List.cons_append] at h
      -- a negation is read as a subtraction from zero, and printed as one
      obtain ⟨hoperand, h₁⟩ := operand.rereads n (h.tail (by decide))
      have hzero := Expr.rereads_literal (l := .integer 0) trivial n
      have hall := hzero.sumOp .minus hoperand
      rw [Nat.zero_add] at hall
      exact ⟨hall, h₁⟩
  | .primary p, n, r, h => p.rereads n h

theorem Primary.rereads : (p : Primary) → (n : Nat) → {r : List Token} → Undotted (p.tokens ++ r) →
    Expr.Rereads n p.placeholders (p.expr n) ∧ Undotted r
  | .span raw, n, r, h =>
    ⟨Expr.rereads_literal (Literal.readable_ofText raw) n, h.tail Token.noConfusion⟩
  | .quoted content, n, r, h =>
    ⟨Expr.rereads_literal (Literal.readable_ofQuoted content) n, h.tail Token.noConfusion⟩
  | .null, n, r, h => ⟨Expr.rereads_literal (l := .null) trivial n, h.tail Token.noConfusion⟩
  | .placeholder, n, r, h => ⟨Expr.rereads_placeholder n, h.tail Token.noConfusion⟩
  | .group inner, n, r, h => by
      rw [Primary.tokens, List.cons_append, List.append_assoc] at h
      obtain ⟨hinner, h₁⟩ := inner.rereads n (h.tail (by decide))
      exact ⟨hinner, h₁.tail (by decide)⟩
  | .field first others, n, r, h => by
      -- only the first name stands behind something else than a dot
      obtain ⟨hothers, h₁⟩ := words_of_dotted (Exists.choose_spec h).2.tail
      exact ⟨Expr.rereads_field h.isName hothers n, h₁⟩
  | .call name hname args, n, r, h => by
      rw [Primary.tokens, List.cons_append, List.cons_append, List.append_assoc] at h
      obtain ⟨hargs, h₁⟩ := args.rereads n ((h.tail Token.noConfusion).tail (by decide))
      exact ⟨Expr.rereads_call h.isName hname hargs, h₁.tail (by decide)⟩
  | .point word hword x y p hpoint, n, r, h => by
      rw [Primary.tokens, List.cons_append, List.cons_append, List.append_assoc, List.append_assoc] at h
      have h₁ := Coordinate.undotted ((h.tail Token.noConfusion).tail (by decide))
      have hreadable := Literal.readable_ofText ("POINT (" ++ x.text ++ " " ++ y.text ++ ")")
      -- a point is typed from its coordinates, which were written without quotes
      rw [show Literal.ofText _ = .point p from hpoint] at hreadable
      exact ⟨Expr.rereads_literal hreadable n, (Coordinate.undotted h₁).tail (by decide)⟩

theorem Arguments.rereads : (args : Arguments) → (n : Nat) → {r : List Token} →
    Undotted (args.tokens ++ r) →
      Expr.RereadsArguments n args.placeholders (args.exprs n) ∧ Undotted r
  | .done, n, r, h => ⟨Expr.rereadsArguments_nil n, h⟩
  | .last a, n, r, h => by
      obtain ⟨ha, h₁⟩ := a.rereads n h
      exact ⟨ha.cons (Expr.rereadsArguments_nil _), h₁⟩
  | .more a rest, n, r, h => by
      rw [Arguments.tokens, List.append_assoc, List.cons_append] at h
      obtain ⟨ha, h₁⟩ := a.rereads n h
      obtain ⟨hrest, h₂⟩ := rest.rereads (n + a.placeholders) (h₁.tail (by decide))
      exact ⟨ha.cons hrest, h₂⟩

theorem Argument.rereads : (a : Argument) → (n : Nat) → {r : List Token} → Undotted (a.tokens ++ r) →
    Expr.RereadsArgument n a.placeholders (a.expr n) ∧ Undotted r
  | .star, n, r, h => ⟨Expr.rereadsArgument_wildcard n, h.tail (by decide)⟩
  | .sum s, n, r, h => by
      obtain ⟨hs, h₁⟩ := s.rereads n h
      exact ⟨hs.argument, h₁⟩

end

/-- The parameters of a derivation are numbered on from `n`, so without any there are no question marks. -/
theorem Sum.counts (s : Sum) (n : Nat) (h : (s.expr n).hasPlaceholder = false) : s.placeholders = 0 := by
  have hparameters := (s.expr n).hasPlaceholder_eq_false_iff.mp h
  rwa [s.parameters_expr, List.range'_eq_nil_iff] at hparameters

/-- The expression of a sum prints as itself where its literals are kept. -/
theorem Sum.prints (s : Sum) (n : Nat) {r : List Token} (h : Undotted (s.tokens ++ r)) :
    Expr.Prints n s.placeholders (s.expr n) ∧ Undotted r := by
  obtain ⟨hrereads, hr⟩ := s.rereads n h
  exact ⟨hrereads.prints (s.counts n), hr⟩

end Grammar

end RecordQuery
