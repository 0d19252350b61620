import RecordQuery.Proofs.EqualExpressions
import RecordQuery.Proofs.Printing.Shaped
/-!
# No more parentheses than it takes

The printer puts an operand in parentheses where it binds looser than the operator around it. Without any one
of these pairs the text is that of another expression, so none can be left out.

`e.LeavesOut text` says that `text` is the text of `e` without one pair around an operand. The expression that
is read off such a text is built here: an operand whose parentheses are gone is taken apart, and the operator
beside it goes to the part of it that stands next to it (`Expr.append`, `Expr.prepend`). That may loosen an
operand further out that has no parentheses, which is then taken apart in the same way; one that has them keeps
them (`Expr.LeavesOut.exists_expr`). What is built prints as the text, so it is read off it
(`Expr.Shaped.readFrom_render`), and as its text is shorter it is another expression.
-/

namespace RecordQuery

open Lexer

namespace Expr

/-! ## Leaving out a pair -/

/-- An operator between the texts of two operands. -/
def operation (op : ArithOp) (left right : String) : String :=
  left ++ " " ++ op.text ++ " " ++ right

/-- The text of an operand on the left of an operator. -/
def leftOperand (op : ArithOp) (e : Expr) : String :=
  parenthesized (e.bindsLooser op.precedence) e.render

/-- The text of an operand on the right of an operator. -/
def rightOperand (op : ArithOp) (e : Expr) : String :=
  parenthesized (e.bindsLooser (op.precedence + 1)) e.render

theorem render_arith (op : ArithOp) (left right : Expr) :
    (arith op left right).render = operation op (leftOperand op left) (rightOperand op right) := by
  rw [render]
  rfl

/-- `e.LeavesOut text` holds for the texts that are the text of `e` without one of the pairs of parentheses
that stand around an operand in it. -/
inductive LeavesOut : Expr → String → Prop
  | left {op : ArithOp} {l r : Expr} (h : l.bindsLooser op.precedence = true) :
      LeavesOut (.arith op l r) (operation op l.render (rightOperand op r))
  | right {op : ArithOp} {l r : Expr} (h : r.bindsLooser (op.precedence + 1) = true) :
      LeavesOut (.arith op l r) (operation op (leftOperand op l) r.render)
  | inLeft {op : ArithOp} {l r : Expr} {text : String} (h : LeavesOut l text) :
      LeavesOut (.arith op l r)
        (operation op (parenthesized (l.bindsLooser op.precedence) text) (rightOperand op r))
  | inRight {op : ArithOp} {l r : Expr} {text : String} (h : LeavesOut r text) :
      LeavesOut (.arith op l r)
        (operation op (leftOperand op l) (parenthesized (r.bindsLooser (op.precedence + 1)) text))
  | inArgument {name : String} {before after : List Expr} {e : Expr} {text : String}
      (h : LeavesOut e text) : LeavesOut (.call name (before ++ e :: after))
        (name ++ "(" ++ commaSeparated (renderAll before ++ text :: renderAll after) ++ ")")

/-- `DropsPair full text` holds when `text` is `full` without one pair of parentheses. -/
def DropsPair (full text : String) : Prop :=
  ∃ a b c, full = a ++ "(" ++ b ++ ")" ++ c ∧ text = a ++ b ++ c

theorem DropsPair.ne {full text : String} (h : DropsPair full text) : text ≠ full := by
  obtain ⟨a, b, c, rfl, rfl⟩ := h
  intro heq
  have hlength := congrArg String.length heq
  simp only [String.length_append] at hlength
  have hopen : "(".length = 1 := rfl
  omega

theorem DropsPair.between {full text : String} (h : DropsPair full text) (front behind : String) :
    DropsPair (front ++ full ++ behind) (front ++ text ++ behind) := by
  obtain ⟨a, b, c, rfl, rfl⟩ := h
  exact ⟨front ++ a, b, c ++ behind, by simp only [String.append_assoc],
    by simp only [String.append_assoc]⟩

theorem dropsPair_parenthesized (text : String) : DropsPair (parenthesized true text) text :=
  ⟨"", text, "", by simp [parenthesized], by simp⟩

theorem DropsPair.parenthesized {full text : String} (h : DropsPair full text) (needed : Bool) :
    DropsPair (parenthesized needed full) (parenthesized needed text) := by
  cases needed with
  | false => exact h
  | true => exact h.between "(" ")"

theorem DropsPair.operation_left {full text : String} (h : DropsPair full text) (op : ArithOp)
    (right : String) : DropsPair (operation op full right) (operation op text right) := by
  have hall := h.between "" (" " ++ op.text ++ " " ++ right)
  simpa only [operation, String.empty_append, String.append_assoc] using hall

theorem DropsPair.operation_right {full text : String} (h : DropsPair full text) (op : ArithOp)
    (left : String) : DropsPair (operation op left full) (operation op left text) := by
  have hall := h.between (left ++ " " ++ op.text ++ " ") ""
  simpa only [operation, String.append_empty, String.append_assoc] using hall

/-- A text among others has the same in front of it and behind it, whatever it is. -/
theorem exists_commaSeparated (before after : List String) :
    ∃ a c, ∀ text, commaSeparated (before ++ text :: after) = a ++ text ++ c := by
  obtain ⟨c, hafter⟩ : ∃ c, ∀ text, commaSeparated (text :: after) = text ++ c := by
    cases after with
    | nil => exact ⟨"", fun text => by rw [commaSeparated_singleton, String.append_empty]⟩
    | cons second after =>
        refine ⟨", " ++ commaSeparated (second :: after), fun text => ?_⟩
        rw [commaSeparated, String.intercalate_cons_cons, String.append_assoc]
        rfl
  by_cases hbefore : before = []
  · exact ⟨"", c, fun text => by rw [hbefore, List.nil_append, hafter, String.empty_append]⟩
  · refine ⟨commaSeparated before ++ ", ", c, fun text => ?_⟩
    rw [commaSeparated, String.intercalate_append_of_ne_nil hbefore (List.cons_ne_nil _ _)]
    simp only [String.append_assoc]
    rw [← hafter text]
    rfl

theorem renderAll_append (es es' : List Expr) : renderAll (es ++ es') = renderAll es ++ renderAll es' := by
  induction es with
  | nil => rfl
  | cons e es ih => rw [List.cons_append, renderAll, renderAll, ih, List.cons_append]

/-- What is left out is one pair of parentheses. -/
theorem LeavesOut.dropsPair {e : Expr} {text : String} (h : e.LeavesOut text) :
    DropsPair e.render text := by
  induction h with
  | left h =>
      rw [render_arith, leftOperand, h]
      exact (dropsPair_parenthesized _).operation_left _ _
  | right h =>
      rw [render_arith, rightOperand, h]
      exact (dropsPair_parenthesized _).operation_right _ _
  | inLeft _ ih =>
      rw [render_arith, leftOperand]
      exact (ih.parenthesized _).operation_left _ _
  | inRight _ ih =>
      rw [render_arith, rightOperand]
      exact (ih.parenthesized _).operation_right _ _
  | @inArgument name before after e text _ ih =>
      obtain ⟨a, c, hcomma⟩ := exists_commaSeparated (renderAll before) (renderAll after)
      rw [render, renderAll_append, renderAll, hcomma, hcomma]
      have hall := ih.between (name ++ "(" ++ a) (c ++ ")")
      simpa only [String.append_assoc] using hall

/-! ## Operators beside a text -/

theorem leftOperand_of_looser {op : ArithOp} {e : Expr} (h : e.bindsLooser op.precedence = true) :
    leftOperand op e = parenthesized true e.render := by
  rw [leftOperand, h]

theorem leftOperand_of_tight {op : ArithOp} {e : Expr} (h : e.bindsLooser op.precedence = false) :
    leftOperand op e = e.render := by
  rw [leftOperand, h]
  rfl

theorem rightOperand_of_looser {op : ArithOp} {e : Expr}
    (h : e.bindsLooser (op.precedence + 1) = true) :
    rightOperand op e = parenthesized true e.render := by
  rw [rightOperand, h]

theorem rightOperand_of_tight {op : ArithOp} {e : Expr}
    (h : e.bindsLooser (op.precedence + 1) = false) : rightOperand op e = e.render := by
  rw [rightOperand, h]
  rfl

theorem operation_assoc (op op' : ArithOp) (left middle right : String) :
    operation op' (operation op left middle) right = operation op left (operation op' middle right) := by
  simp only [operation, String.append_assoc]

theorem bindsLooser_arith {op : ArithOp} {left right : Expr} {than : Nat} :
    (arith op left right).bindsLooser than = true ↔ op.precedence < than :=
  decide_eq_true_iff

theorem not_bindsLooser_arith {op : ArithOp} {left right : Expr} {than : Nat} :
    (arith op left right).bindsLooser than = false ↔ than ≤ op.precedence :=
  decide_eq_false_iff_not.trans Nat.not_lt

theorem bindsLooser_mono {e : Expr} {than than' : Nat} (h : e.bindsLooser than = true)
    (hle : than ≤ than') : e.bindsLooser than' = true := by
  cases e with
  | arith op left right => exact bindsLooser_arith.mpr (Nat.lt_of_lt_of_le (bindsLooser_arith.mp h) hle)
  | _ => cases h

/-- The expression of the text of another one with an operator and an operand behind it. -/
def append (op : ArithOp) (right : Expr) : Expr → Expr
  | .arith o a b =>
    if o.precedence < op.precedence then .arith o a (.arith op b right)
    else .arith op (.arith o a b) right
  | e => .arith op e right

/-- The expression of the text of another one with an operand and an operator in front of it. -/
def prepend (op : ArithOp) (left : Expr) : Expr → Expr
  | .arith o a b =>
    if o.precedence ≤ op.precedence then
      .arith o (if a.bindsLooser o.precedence then .arith op left a else prepend op left a) b
    else .arith op left (.arith o a b)
  | e => .arith op left e

theorem render_append (op : ArithOp) (right e : Expr) :
    (append op right e).render = operation op e.render (rightOperand op right) := by
  unfold append
  split
  next o a b =>
    split
    next hlooser =>
      -- there are two levels, so what stood on the right of the looser one fits on the left of the other
      have hlevel : op.precedence = o.precedence + 1 := by
        cases o <;> cases op <;> first | rfl | exact absurd hlooser (by decide)
      have hmiddle : leftOperand op b = rightOperand o b := by
        rw [leftOperand, rightOperand, hlevel]
      have hright : rightOperand o (arith op b right) = (arith op b right).render :=
        rightOperand_of_tight (not_bindsLooser_arith.mpr (Nat.le_of_eq hlevel.symm))
      rw [render_arith o a (arith op b right), hright, render_arith op b right, hmiddle, render_arith o a b,
        operation_assoc]
    next hlooser =>
      rw [render_arith, leftOperand_of_tight (not_bindsLooser_arith.mpr (Nat.le_of_not_lt hlooser))]
  next hatom =>
    have hleft : e.bindsLooser op.precedence = false := by
      cases e with
      | arith o a b => exact absurd rfl (hatom o a b)
      | _ => rfl
    rw [render_arith, leftOperand_of_tight hleft]

theorem bindsLooser_append {op : ArithOp} {right : Expr} {than : Nat} (h : op.precedence < than)
    (e : Expr) : (append op right e).bindsLooser than = true := by
  unfold append
  split
  next o a b =>
    split
    next hlooser => exact bindsLooser_arith.mpr (Nat.lt_trans hlooser h)
    next => exact bindsLooser_arith.mpr h
  next => exact bindsLooser_arith.mpr h

theorem Shaped.append {right e : Expr} (he : e.Shaped) (hr : right.Shaped) (op : ArithOp) :
    (Expr.append op right e).Shaped := by
  unfold Expr.append
  split
  next =>
    split
    · exact ⟨he.1, he.2, hr⟩
    · exact ⟨he, hr⟩
  next => exact ⟨he, hr⟩

theorem parameters_append (op : ArithOp) (right e : Expr) :
    (append op right e).parameters = e.parameters ++ right.parameters := by
  unfold append
  split
  next =>
    split
    · rw [parameters, parameters, parameters, List.append_assoc]
    · rfl
  next => rfl

/-- What is put in front of an expression makes it bind no looser than the operator that it comes with. -/
theorem bindsLooser_of_prepend {op : ArithOp} {left e : Expr} {than : Nat}
    (h : (prepend op left e).bindsLooser than = true) :
    e.bindsLooser than = true ∨ op.precedence < than := by
  unfold prepend at h
  split at h
  next =>
    split at h
    · exact .inl (bindsLooser_arith.mpr (bindsLooser_arith.mp h))
    · exact .inr (bindsLooser_arith.mp h)
  next => exact .inr (bindsLooser_arith.mp h)

theorem bindsLooser_prepend {op : ArithOp} {left : Expr} {than : Nat} (h : op.precedence < than)
    (e : Expr) : (prepend op left e).bindsLooser than = true := by
  unfold prepend
  split
  next =>
    split
    next hlooser => exact bindsLooser_arith.mpr (Nat.lt_of_le_of_lt hlooser h)
    next => exact bindsLooser_arith.mpr h
  next => exact bindsLooser_arith.mpr h

theorem render_prepend_atom {op : ArithOp} {left e : Expr} (h : e.isArith = false) :
    (arith op left e).render = operation op (leftOperand op left) e.render := by
  rw [render_arith, rightOperand_of_tight (bindsLooser_of_not_arith h _)]

theorem render_prepend (op : ArithOp) (left : Expr) : (e : Expr) →
    (prepend op left e).render = operation op (leftOperand op left) e.render
  | .arith o a b => by
      rw [prepend]
      by_cases hlevel : o.precedence ≤ op.precedence
      · rw [if_pos hlevel, render_arith o _ b, render_arith o a b, ← operation_assoc]
        cases ha : a.bindsLooser o.precedence with
        | true =>
            -- an operand in parentheses stays as it is
            have hop : (arith op left a).bindsLooser o.precedence = false :=
              not_bindsLooser_arith.mpr hlevel
            have hright := bindsLooser_mono ha (Nat.le_succ_of_le hlevel)
            rw [if_pos rfl, leftOperand_of_tight hop, render_arith, rightOperand_of_looser hright,
              leftOperand_of_looser ha]
        | false =>
            -- and one without them is taken apart in its turn
            have hop : (prepend op left a).bindsLooser o.precedence = false := by
              rw [Bool.eq_false_iff]
              intro hlooser
              rcases bindsLooser_of_prepend hlooser with h | h
              · rw [ha] at h
                cases h
              · omega
            rw [if_neg Bool.false_ne_true, leftOperand_of_tight hop, render_prepend op left a,
              leftOperand_of_tight ha]
      · have hright : (arith o a b).bindsLooser (op.precedence + 1) = false :=
          not_bindsLooser_arith.mpr (by omega)
        rw [if_neg hlevel, render_arith, rightOperand_of_tight hright]
  | .literal _ => render_prepend_atom rfl
  | .field _ => render_prepend_atom rfl
  | .placeholder _ => render_prepend_atom rfl
  | .list _ => render_prepend_atom rfl
  | .wildcard => render_prepend_atom rfl
  | .call _ _ => render_prepend_atom rfl

theorem Shaped.prepend {left : Expr} (hl : left.Shaped) (op : ArithOp) : {e : Expr} → e.Shaped →
    (Expr.prepend op left e).Shaped
  | .arith o a b, ⟨ha, hb⟩ => by
      rw [Expr.prepend]
      split
      · refine ⟨?_, hb⟩
        split
        · exact ⟨hl, ha⟩
        · exact Shaped.prepend hl op ha
      · exact ⟨hl, ha, hb⟩
  | .literal _, he => ⟨hl, he⟩
  | .field _, he => ⟨hl, he⟩
  | .placeholder _, he => ⟨hl, he⟩
  | .call _ _, he => ⟨hl, he⟩

theorem parameters_prepend (op : ArithOp) (left : Expr) : (e : Expr) →
    (prepend op left e).parameters = left.parameters ++ e.parameters
  | .arith o a b => by
      rw [prepend]
      split
      · split
        · rw [parameters, parameters, parameters, List.append_assoc]
        · rw [parameters, parameters_prepend op left a, parameters, List.append_assoc]
      · rfl
  | .literal _ => rfl
  | .field _ => rfl
  | .placeholder _ => rfl
  | .list _ => rfl
  | .wildcard => rfl
  | .call _ _ => rfl

/-! ## What is read instead -/

/-- `e'` may stand for `e` where the text of `e` is replaced by `text`: it prints as that, has the same
parameters, and binds no tighter, so that parentheses that stand around it are still needed. -/
structure StandsFor (e e' : Expr) (text : String) : Prop where
  render : e'.render = text
  shaped : e.Shaped → e'.Shaped
  parameters : e'.parameters = e.parameters
  looser : ∀ than, e.bindsLooser than = true → e'.bindsLooser than = true

theorem ShapedArguments.mem_of_append {before after : List Expr} {e : Expr}
    (h : ShapedArguments (before ++ e :: after)) : e = .wildcard ∨ e.Shaped := by
  induction before with
  | nil => exact h.1
  | cons first before ih => exact ih h.2

theorem ShapedArguments.replace {before after : List Expr} {e e' : Expr}
    (h : ShapedArguments (before ++ e :: after)) (he : e'.Shaped) :
    ShapedArguments (before ++ e' :: after) := by
  induction before with
  | nil => exact ⟨.inr he, h.2⟩
  | cons first before ih => exact ⟨h.1, ih h.2⟩

theorem parametersOfAll_append (es es' : List Expr) :
    parametersOfAll (es ++ es') = parametersOfAll es ++ parametersOfAll es' := by
  induction es with
  | nil => rfl
  | cons e es ih => rw [List.cons_append, parametersOfAll, parametersOfAll, ih, List.append_assoc]

variable {op : ArithOp} {l l' r r' : Expr} {text : String}

theorem StandsFor.inLeft (h : StandsFor l l' text) : ∃ e', StandsFor (arith op l r) e'
    (operation op (parenthesized (l.bindsLooser op.precedence) text) (rightOperand op r)) := by
  cases hlooser : l.bindsLooser op.precedence with
  | true =>
      refine ⟨arith op l' r, ?_, fun hs => ⟨h.shaped hs.1, hs.2⟩, ?_, fun than hthan => hthan⟩
      · rw [render_arith, leftOperand_of_looser (h.looser _ hlooser), h.render]
      · rw [Expr.parameters, h.parameters, Expr.parameters]
  | false =>
      refine ⟨append op r l', ?_, fun hs => (h.shaped hs.1).append hs.2 op, ?_, fun than hthan => ?_⟩
      · rw [render_append, h.render]
        rfl
      · rw [parameters_append, h.parameters, Expr.parameters]
      · exact bindsLooser_append (bindsLooser_arith.mp hthan) l'

theorem StandsFor.inRight (h : StandsFor r r' text) : ∃ e', StandsFor (arith op l r) e'
    (operation op (leftOperand op l) (parenthesized (r.bindsLooser (op.precedence + 1)) text)) := by
  cases hlooser : r.bindsLooser (op.precedence + 1) with
  | true =>
      refine ⟨arith op l r', ?_, fun hs => ⟨hs.1, h.shaped hs.2⟩, ?_, fun than hthan => hthan⟩
      · rw [render_arith, rightOperand_of_looser (h.looser _ hlooser), h.render]
      · rw [Expr.parameters, h.parameters, Expr.parameters]
  | false =>
      refine ⟨prepend op l r', ?_, fun hs => hs.1.prepend op (h.shaped hs.2), ?_, fun than hthan => ?_⟩
      · rw [render_prepend, h.render]
        rfl
      · rw [parameters_prepend, h.parameters, Expr.parameters]
      · exact bindsLooser_prepend (bindsLooser_arith.mp hthan) r'

theorem StandsFor.inArgument {name : String} {before after : List Expr} {e e' : Expr}
    (h : StandsFor e e' text) (hstar : e ≠ .wildcard) :
    StandsFor (call name (before ++ e :: after)) (call name (before ++ e' :: after))
      (name ++ "(" ++ commaSeparated (renderAll before ++ text :: renderAll after) ++ ")") := by
  refine ⟨?_, fun ⟨hname, hlower, hpoint, hargs⟩ => ⟨hname, hlower, hpoint, ?_⟩, ?_, fun than h => h⟩
  · rw [Expr.render, renderAll_append, renderAll, h.render]
  · exact hargs.replace (h.shaped (hargs.mem_of_append.resolve_left hstar))
  · rw [Expr.parameters, Expr.parameters, parametersOfAll_append, parametersOfAll_append,
      parametersOfAll, parametersOfAll, h.parameters]

/-- A text without a pair of parentheses is the text of an expression with the same parameters. -/
theorem LeavesOut.exists_expr {e : Expr} (h : e.LeavesOut text) : ∃ e', StandsFor e e' text := by
  induction h with
  | @left op l r h =>
      refine ⟨append op r l, render_append op r l, fun hs => hs.1.append hs.2 op,
        parameters_append op r l, fun than hthan => ?_⟩
      exact bindsLooser_append (bindsLooser_arith.mp hthan) l
  | @right op l r h =>
      refine ⟨prepend op l r, render_prepend op l r, fun hs => hs.1.prepend op hs.2,
        parameters_prepend op l r, fun than hthan => ?_⟩
      exact bindsLooser_prepend (bindsLooser_arith.mp hthan) r
  | inLeft _ ih =>
      obtain ⟨l', h⟩ := ih
      exact h.inLeft
  | inRight _ ih =>
      obtain ⟨r', h⟩ := ih
      exact h.inRight
  | inArgument hout ih =>
      obtain ⟨e', h⟩ := ih
      refine ⟨_, h.inArgument ?_⟩
      rintro rfl
      cases hout

/-- Equal shaped expressions are the same. -/
theorem Shaped.eq_of_beq {e e' : Expr} (he : e.Shaped) (he' : e'.Shaped) (h : (e == e') = true) :
    e = e' := by
  have halike := alike_of_beq e e' h
  exact halike.eq (Literal.Plain.eq_of_beq_all halike.literals he.plain he'.plain)

/-- **Exact and minimal.** The text of a shaped expression is read as exactly that expression, and without any
one of the pairs of parentheses that stand around operands it is read as another one. -/
theorem Shaped.render_exact_and_minimal {e : Expr} (h : e.Shaped) (hn : e.Numbered) :
    e.ReadFrom e.render ∧
      ∀ text, e.LeavesOut text → ∃ e', e'.ReadFrom text ∧ (e' == e) = false := by
  refine ⟨h.readFrom_render hn, fun text hout => ?_⟩
  obtain ⟨e', hstands⟩ := hout.exists_expr
  have hshaped := hstands.shaped h
  have hn' : e'.Numbered := by
    rw [Numbered, hstands.parameters]
    exact hn
  have hread := hshaped.readFrom_render hn'
  rw [hstands.render] at hread
  refine ⟨e', hread, Bool.eq_false_iff.mpr fun hequal => ?_⟩
  -- the same expression would have the same text, which is longer
  apply hout.dropsPair.ne
  rw [← hstands.render, hshaped.eq_of_beq h hequal]

/-- A product of a sum, and a difference on the right of another, with a call that has a star in it. -/
def nested : Expr :=
  .arith .subtract
    (.arith .multiply (.arith .add (.field ⟨some "a", "b"⟩) (.placeholder 0)) (.literal (.integer (-2))))
    (.arith .subtract (.field ⟨none, "c"⟩) (.call "f" [.wildcard, .placeholder 1]))

/-- Without the first pair the sum is one of three summands. -/
theorem render_exact_and_minimal_of_nested : nested.ReadFrom "(a.b + ?) * -2 - (c - f(*, ?))" ∧
    ∃ e, e.ReadFrom "a.b + ? * -2 - (c - f(*, ?))" ∧ (e == nested) = false := by
  have hword : ∀ name ∈ ["a", "b", "c", "f"], IsWord name := by
    have hall : ∀ name ∈ ["a", "b", "c", "f"],
        name.toList ≠ [] ∧ name.toList.all isWordChar = true := by
      decide
    exact fun name h => ⟨(hall name h).1, List.all_eq_true.mp (hall name h).2⟩
  simp only [List.forall_mem_cons] at hword
  obtain ⟨ha, hb, hc, hf, -⟩ := hword
  have ha : IsName "a" := ⟨ha, by decide, fun c h => by cases h; rfl⟩
  have hc : IsName "c" := ⟨hc, by decide, fun c h => by cases h; rfl⟩
  have hf : IsName "f" := ⟨hf, by decide, fun c h => by cases h; rfl⟩
  have hshaped : nested.Shaped :=
    ⟨⟨⟨⟨"a", ["b"], rfl, ha, List.forall_mem_singleton.mpr hb⟩, trivial⟩, trivial⟩,
      ⟨"c", [], rfl, hc, List.forall_mem_nil _⟩, hf, by decide +kernel, by decide +kernel,
        .inl rfl, .inr trivial, trivial⟩
  obtain ⟨hexact, hminimal⟩ := hshaped.render_exact_and_minimal rfl
  rw [show nested.render = "(a.b + ?) * -2 - (c - f(*, ?))" by decide +kernel] at hexact
  refine ⟨hexact, hminimal _ ?_⟩
  rw [show "a.b + ? * -2 - (c - f(*, ?))" = operation .subtract (operation .multiply
    (arith .add (.field ⟨some "a", "b"⟩) (.placeholder 0)).render "-2") "(c - f(*, ?))" by decide +kernel]
  exact .inLeft (.left rfl)

end Expr

end RecordQuery
