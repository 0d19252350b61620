import RecordQuery.Proofs.EqualExpressions
import RecordQuery.Proofs.Execution.Rescaled
import RecordQuery.Proofs.RoundTrip
/-!
# Equal queries

Queries are equal (`==`) when they are one tree with literals of one type and one value in its places. That
is less than being the same: `2.3E4` and `23000.0` are equal literals, and a function on texts shows which of
the two it was given. So equal queries may differ in their results (`Query.equal_but_told_apart`), and a query
may differ in them from the one that its own text is compiled to.

What a literal is used for decides whether its scale can be seen. It is weighed where its value alone counts:
on the sides of a comparison, as the argument of a function that hands it on or looks at its value
(`weighsArguments`), as a group key, as an order key, and in a column with a name of its own. Anywhere else it
is inspected: under arithmetic and other functions, beside `LIKE` and `IN`, and in a column whose name is the
text of the expression. Equal queries whose inspected literals are shown alike, and whose weighed decimals have
one binary form, give equal answers (`Query.run_of_equal`): the same rows in the same order, where at most the
scale of a decimal differs.

Each part of a query has one lemma, which says that equal parts are akin if their literals allow for it
(`Settles`).
-/

namespace RecordQuery

/-! ## The uses of literals -/

/-- The binary form of a literal that is a decimal. -/
def Literal.binaryForm? : Literal → Option Float
  | .decimal d => some d.toFloat
  | _ => none

theorem Literal.binaryForm?_eq_some_iff {l : Literal} {x : Float} :
    l.binaryForm? = some x ↔ ∃ d, l = .decimal d ∧ d.toFloat = x := by
  cases l <;> simp [binaryForm?]

/-- A literal in its place, and whether more than its value counts there. -/
structure LiteralUse where
  literal : Literal
  inspected : Bool

namespace LiteralUse

/-- `u.Interchangeable v` holds for literals that are shown alike, and where the value alone counts also for
decimals of one binary form. -/
def Interchangeable (u v : LiteralUse) : Prop :=
  u.literal.shown = v.literal.shown ∨
    (u.inspected = false ∧ ∃ x ∈ u.literal.binaryForm?, v.literal.binaryForm? = some x)

instance (u v : LiteralUse) : Decidable (u.Interchangeable v) :=
  inferInstanceAs (Decidable (_ ∨ (_ ∧ ∃ x ∈ u.literal.binaryForm?, v.literal.binaryForm? = some x)))

/-- The inspected uses of literals. -/
def inspect (ls : List Literal) : List LiteralUse :=
  ls.map fun l => ⟨l, true⟩

end LiteralUse

open LiteralUse (inspect)

namespace Expr

mutual

/-- The uses of the literals of an expression whose value is only weighed. -/
def uses : Expr → List LiteralUse
  | .literal l => [⟨l, false⟩]
  | .call name args => if weighsArguments name then usesOfAll args else inspect (literalsOfAll args)
  | e => inspect e.literals
termination_by structural e => e

/-- The uses of the literals of expressions whose values are only weighed. -/
def usesOfAll : List Expr → List LiteralUse
  | [] => []
  | e :: rest => uses e ++ usesOfAll rest
termination_by structural es => es

end

end Expr

/-- The uses of the literals on both sides: operators on texts and on collections inspect them. -/
def Comparison.uses (c : Comparison) : List LiteralUse :=
  if c.op = .like ∨ c.op = .isIn then inspect c.literals else c.left.uses ++ c.right.uses

/-- The uses of the literals of an entry of the select list. Without a name of its own it is named by its
text. -/
def SelectField.uses (f : SelectField) : List LiteralUse :=
  if f.alias?.isSome then f.expr.uses else inspect f.expr.literals

/-- The uses of the literals of a query, clause by clause. -/
def Query.uses (q : Query) : List LiteralUse :=
  q.fields.flatMap SelectField.uses ++ (q.comparisons.flatMap Comparison.uses ++
    (q.groupBy.flatMap Expr.uses ++ q.orderBy.flatMap (fun f => f.expr.uses)))

/-! ## What literals settle -/

/-- `Settles us vs P` says that `P` holds if the literals `us` and `vs`, of which there are as many, are
interchangeable. -/
structure Settles (us vs : List LiteralUse) (P : Prop) : Prop where
  length_eq : us.length = vs.length
  holds : List.Forall₂ LiteralUse.Interchangeable us vs → P

namespace Settles

variable {us vs us' vs' : List LiteralUse} {P Q : Prop}

theorem of_true (h : P) : Settles [] [] P :=
  ⟨rfl, fun _ => h⟩

theorem imp (h : Settles us vs P) (hpq : P → Q) : Settles us vs Q :=
  ⟨h.length_eq, fun huses => hpq (h.holds huses)⟩

/-- Two parts, with the literals of the second behind those of the first. -/
theorem both (h : Settles us vs P) (h' : Settles us' vs' Q) :
    Settles (us ++ us') (vs ++ vs') (P ∧ Q) where
  length_eq := by rw [List.length_append, List.length_append, h.length_eq, h'.length_eq]
  holds huses := by
    have hfirst := List.forall₂_take us.length huses
    have hsecond := List.forall₂_drop us.length huses
    rw [List.take_left, h.length_eq, List.take_left] at hfirst
    rw [List.drop_left, h.length_eq, List.drop_left] at hsecond
    exact ⟨h.holds hfirst, h'.holds hsecond⟩

theorem list {α : Type} {uses : α → List LiteralUse} {R : α → α → Prop} {as bs : List α}
    (h : List.Forall₂ (fun a b => Settles (uses a) (uses b) (R a b)) as bs) :
    Settles (as.flatMap uses) (bs.flatMap uses) (List.Forall₂ R as bs) := by
  induction h with
  | nil => exact of_true .nil
  | cons hab _ ih => exact (hab.both ih).imp fun ⟨hfirst, hrest⟩ => .cons hfirst hrest

/-- Where all literals are inspected, what is alike is the same. -/
theorem of_alike {α : Type} {a a' : α} {ls ms : List Literal} (h : Alike a a' ls ms) :
    Settles (inspect ls) (inspect ms) (a = a') where
  length_eq := by rw [inspect, inspect, List.length_map, List.length_map, h.literals.length_eq]
  holds huses := by
    rw [inspect, inspect, List.forall₂_map_left_iff, List.forall₂_map_right_iff] at huses
    refine h.eq_of_shown (huses.imp fun l m hlm => ?_)
    rcases hlm with hshown | ⟨⟨⟩, -⟩
    exact hshown

end Settles

/-- Lists are equal item by item. -/
theorem forall₂_of_beq {α : Type} [BEq α] {as bs : List α} (h : (as == bs) = true) :
    List.Forall₂ (fun a b => (a == b) = true) as bs := by
  induction as generalizing bs with
  | nil =>
      cases bs with
      | nil => exact .nil
      | cons b bs => cases h
  | cons a as ih =>
      cases bs with
      | nil => cases h
      | cons b bs =>
          obtain ⟨hab, hrest⟩ := Bool.and_eq_true_iff.mp h
          exact .cons hab (ih hrest)

/-! ## Equal expressions and predicates -/

/-- A weighed literal gives the same value, or a decimal at another scale. -/
theorem Literal.rescaled_of_interchangeable {l m : Literal} (h : (l == m) = true)
    (huse : LiteralUse.Interchangeable ⟨l, false⟩ ⟨m, false⟩) :
    (Value.ofLiteral l).Rescaled (.ofLiteral m) := by
  rcases huse with hshown | ⟨-, x, hx, hx'⟩
  · rw [eq_of_shown h hshown]
    exact .refl _
  · obtain ⟨a, rfl, ha⟩ := binaryForm?_eq_some_iff.mp hx
    obtain ⟨b, rfl, hb⟩ := binaryForm?_eq_some_iff.mp hx'
    exact .decimal ⟨Decimal.compare_eq_iff.mp (beq_iff_eq.mp h), ha.trans hb.symm⟩

namespace Expr

/-- Where an expression inspects all its literals, what is equal to it is the same if these are shown alike. -/
theorem akin_of_inspected {e e' : Expr} (h : beq e e' = true) (huses : e.uses = inspect e.literals)
    (huses' : e'.uses = inspect e'.literals) : Settles e.uses e'.uses (e.Akin e') := by
  rw [huses, huses']
  refine (Settles.of_alike (alike_of_beq e e' h)).imp ?_
  rintro rfl
  exact .refl e

mutual

theorem akin_of_beq : (e e' : Expr) → beq e e' = true → Settles e.uses e'.uses (e.Akin e')
  | .literal l, e', h => by
      cases e' with
      | literal m =>
          refine ⟨rfl, fun huses => .literal ?_⟩
          exact Literal.rescaled_of_interchangeable h (List.forall₂_cons.mp huses).1
      | _ => cases h
  | .call name args, e', h => by
      cases e' with
      | call name' args' =>
          obtain ⟨hname, hargs⟩ := Bool.and_eq_true_iff.mp h
          obtain rfl := beq_iff_eq.mp hname
          rw [uses, uses]
          split
          next hweighs => exact (akin_of_beqAll args args' hargs).imp (Akin.call hweighs)
          next =>
            refine (Settles.of_alike (alike_of_beqAll args args' hargs)).imp ?_
            rintro rfl
            exact .refl _
      | _ => cases h
  | .field f, e', h => by
      cases e' with
      | field => exact akin_of_inspected h rfl rfl
      | _ => cases h
  | .placeholder i, e', h => by
      cases e' with
      | placeholder => exact akin_of_inspected h rfl rfl
      | _ => cases h
  | .list items, e', h => by
      cases e' with
      | list => exact akin_of_inspected h rfl rfl
      | _ => cases h
  | .wildcard, e', h => by
      cases e' with
      | wildcard => exact akin_of_inspected h rfl rfl
      | _ => cases h
  | .arith op left right, e', h => by
      cases e' with
      | arith => exact akin_of_inspected h rfl rfl
      | _ => cases h

theorem akin_of_beqAll : (es es' : List Expr) → beqAll es es' = true →
    Settles (usesOfAll es) (usesOfAll es') (List.Forall₂ Akin es es')
  | [], es', h => by
      cases es' with
      | nil => exact .of_true .nil
      | cons e' rest' => cases h
  | e :: rest, es', h => by
      cases es' with
      | nil => cases h
      | cons e' rest' =>
          obtain ⟨he, hrest⟩ := Bool.and_eq_true_iff.mp h
          refine ((akin_of_beq e e' he).both (akin_of_beqAll rest rest' hrest)).imp ?_
          exact fun ⟨hfirst, hothers⟩ => .cons hfirst hothers

end

end Expr

theorem Comparison.akin_of_beq {c c' : Comparison} (h : (c == c') = true) :
    Settles c.uses c'.uses (c.Akin c') := by
  obtain ⟨left, op, right⟩ := c
  obtain ⟨left', op', right'⟩ := c'
  -- the patterns come of the sides
  obtain ⟨h, -⟩ := Bool.and_eq_true_iff.mp h
  obtain ⟨h, hright⟩ := Bool.and_eq_true_iff.mp h
  obtain ⟨hleft, hop⟩ := Bool.and_eq_true_iff.mp h
  obtain rfl : op = op' := beq_iff_eq.mp hop
  unfold uses
  dsimp only
  split
  · have halike := Alike.both (fun left right => Comparison.mk left op right)
      (left.alike_of_beq left' hleft) (right.alike_of_beq right' hright)
    refine (Settles.of_alike halike).imp ?_
    rintro ⟨⟩
    exact fun _ => rfl
  next hop =>
    refine ((left.akin_of_beq left' hleft).both (right.akin_of_beq right' hright)).imp ?_
    exact fun ⟨hleft, hright⟩ => Akin.of_sides (mt .inl hop) (mt .inr hop) hleft hright

theorem Predicate.akin_of_beq {p p' : Predicate} (h : beq p p' = true) :
    Settles (p.comparisons.flatMap Comparison.uses) (p'.comparisons.flatMap Comparison.uses)
      (p.Akin p') := by
  induction p generalizing p' with
  | always =>
      cases p' with
      | always => exact .of_true fun _ => rfl
      | _ => cases h
  | comparison c =>
      cases p' with
      | comparison c' =>
          rw [comparisons, comparisons, List.flatMap_singleton, List.flatMap_singleton]
          exact Comparison.akin_of_beq h
      | _ => cases h
  | logic op left right ihl ihr =>
      cases p' with
      | logic op' left' right' =>
          obtain ⟨h, hright⟩ := Bool.and_eq_true_iff.mp h
          obtain ⟨hop, hleft⟩ := Bool.and_eq_true_iff.mp h
          rw [beq_iff_eq.mp hop, comparisons, comparisons, List.flatMap_append, List.flatMap_append]
          exact ((ihl hleft).both (ihr hright)).imp fun hsides => Akin.logic op' hsides.1 hsides.2
      | _ => cases h

/-! ## Equal clauses -/

theorem SelectField.akin_of_beq {f f' : SelectField} (h : (f == f') = true) :
    Settles f.uses f'.uses (f.Akin f') := by
  obtain ⟨expr, alias?⟩ := f
  obtain ⟨expr', alias?'⟩ := f'
  obtain ⟨hexpr, halias⟩ := Bool.and_eq_true_iff.mp h
  obtain rfl : alias? = alias?' := beq_iff_eq.mp halias
  cases alias? with
  | some name => exact (expr.akin_of_beq expr' hexpr).imp fun hakin => ⟨hakin, rfl⟩
  | none =>
      -- the name is the text of the expression, so the expressions have to be the same
      refine (Settles.of_alike (expr.alike_of_beq expr' hexpr)).imp ?_
      rintro rfl
      exact ⟨.refl expr, rfl⟩

theorem OrderField.akin_of_beq {f f' : OrderField} (h : (f == f') = true) :
    Settles f.expr.uses f'.expr.uses (f.Akin f') := by
  obtain ⟨hexpr, hdescending⟩ := Bool.and_eq_true_iff.mp h
  exact (f.expr.akin_of_beq f'.expr hexpr).imp fun hakin => ⟨hakin, beq_iff_eq.mp hdescending⟩

theorem Join.akin_of_beq {j j' : Join} (h : (j == j') = true) :
    Settles (j.condition.comparisons.flatMap Comparison.uses)
      (j'.condition.comparisons.flatMap Comparison.uses) (j.Akin j') := by
  obtain ⟨h, hcondition⟩ := Bool.and_eq_true_iff.mp h
  obtain ⟨h, hresource⟩ := Bool.and_eq_true_iff.mp h
  obtain ⟨hkind, -⟩ := Bool.and_eq_true_iff.mp h
  exact (Predicate.akin_of_beq hcondition).imp fun hakin =>
    ⟨beq_iff_eq.mp hkind, beq_iff_eq.mp hresource, hakin⟩

namespace Query

/-- The condition of a query, if there is one. -/
theorem akin_filter {p? p?' : Option Predicate} (h : (p? == p?') = true) :
    Settles ((p?.getD .always).comparisons.flatMap Comparison.uses)
      ((p?'.getD .always).comparisons.flatMap Comparison.uses) (Option.Rel Predicate.Akin p? p?') := by
  cases p? with
  | none =>
      cases p?' with
      | none => exact .of_true .none
      | some p' => cases h
  | some p =>
      cases p?' with
      | none => cases h
      | some p' => exact (Predicate.akin_of_beq h).imp .some

variable {q q' : Query}

theorem uses_eq (q : Query) : q.uses =
    q.fields.flatMap SelectField.uses ++
      ((q.joins.flatMap (fun j => j.condition.comparisons.flatMap Comparison.uses) ++
        (q.filter?.getD .always).comparisons.flatMap Comparison.uses) ++
      (q.groupBy.flatMap Expr.uses ++ q.orderBy.flatMap (fun f => f.expr.uses))) := by
  rw [uses, comparisons, List.flatMap_append, List.flatMap_assoc]
  rfl

theorem akin_of_beq (h : (q == q') = true) : Settles q.uses q'.uses (q.Akin q') := by
  obtain ⟨h, hplaceholders⟩ := Bool.and_eq_true_iff.mp h
  obtain ⟨h, hlimit⟩ := Bool.and_eq_true_iff.mp h
  obtain ⟨h, hstart⟩ := Bool.and_eq_true_iff.mp h
  obtain ⟨h, horderBy⟩ := Bool.and_eq_true_iff.mp h
  obtain ⟨h, hgroupBy⟩ := Bool.and_eq_true_iff.mp h
  obtain ⟨h, hfilter⟩ := Bool.and_eq_true_iff.mp h
  obtain ⟨h, hjoins⟩ := Bool.and_eq_true_iff.mp h
  obtain ⟨hfields, hresources⟩ := Bool.and_eq_true_iff.mp h
  have hfields := Settles.list ((forall₂_of_beq hfields).imp fun _ _ => SelectField.akin_of_beq)
  have hjoins := Settles.list ((forall₂_of_beq hjoins).imp fun _ _ => Join.akin_of_beq)
  have hgroupBy := Settles.list ((forall₂_of_beq hgroupBy).imp Expr.akin_of_beq)
  have horderBy := Settles.list ((forall₂_of_beq horderBy).imp fun _ _ => OrderField.akin_of_beq)
  rw [uses_eq, uses_eq]
  refine (hfields.both ((hjoins.both (akin_filter hfilter)).both (hgroupBy.both horderBy))).imp ?_
  rintro ⟨hfields, ⟨hjoins, hfilter⟩, hgroupBy, horderBy⟩
  exact ⟨hfields, beq_iff_eq.mp hresources, hjoins, hfilter, hgroupBy, horderBy, beq_iff_eq.mp hstart,
    beq_iff_eq.mp hlimit, beq_iff_eq.mp hplaceholders⟩

/-- **Equal queries give equal answers**, where their inspected literals are shown alike and their weighed
decimals have one binary form: they give the same rows in the same order, up to the scale of decimals, or
fail with the same error, whatever they are run on. -/
theorem run_of_equal (h : (q == q') = true)
    (huses : List.Forall₂ LiteralUse.Interchangeable q.uses q'.uses) {R : Type}
    (source : Source R) (accessor : Accessor R) (params : List Value) (settings : Settings) :
    BothGive (List.Forall₂ ResultRow.Rescaled) (q.run source accessor params settings)
      (q'.run source accessor params settings) :=
  ((akin_of_beq h).holds huses).run source accessor params settings

/-- A query and the one that its own text is compiled to: a whole number that is written with an exponent gets
a decimal place, in a condition, in the order and in a column with a name. -/
theorem run_of_equal_of_exponent :
    let source : Source Nat := fun name => [("t", [1, 2, 100])].lookup name
    let text := "SELECT coalesce(2.3E4, x) AS y, concat(1.50) FROM t WHERE x <> 1E2 ORDER BY pow(x, 2E0) DESC"
    ∃ q q', compile text = .ok q ∧ compile q.render = .ok q' ∧ (q == q') = true ∧
      List.Forall₂ LiteralUse.Interchangeable q.uses q'.uses ∧
      q.literals.map Literal.shown = ["23000", "1.50", "100", "2"] ∧
      q'.literals.map Literal.shown = ["23000.0", "1.50", "100.0", "2.0"] ∧
      BothGive (List.Forall₂ ResultRow.Rescaled) (q.run source .ofNumbers [] .default)
        (q'.run source .ofNumbers [] .default) := by
  intro source text
  have hcheck : passes (fun q => passes (fun q' => q == q' &&
        decide (List.Forall₂ LiteralUse.Interchangeable q.uses q'.uses) &&
        decide (q.literals.map Literal.shown = ["23000", "1.50", "100", "2"]) &&
        decide (q'.literals.map Literal.shown = ["23000.0", "1.50", "100.0", "2.0"]))
        (compile q.render)) (compile text) = true := by
    decide +kernel
  simp only [passes_iff, Bool.and_eq_true, decide_eq_true_eq] at hcheck
  obtain ⟨q, hq, q', hq', ⟨⟨hequal, huses⟩, hshown⟩, hshown'⟩ := hcheck
  exact ⟨q, q', hq, hq', hequal, huses, hshown, hshown',
    run_of_equal hequal huses source .ofNumbers [] .default⟩

/-- Equality does not look at the scale of a decimal, and its text does: a query that writes a whole number
with an exponent is told apart from the query that its own text is compiled to. -/
theorem equal_but_told_apart :
    let source : Source Nat := fun name => [("t", [1])].lookup name
    ∃ q q' rows rows', compile "SELECT concat(2.3E4) FROM t" = .ok q ∧ compile q.render = .ok q' ∧
      (q == q') = true ∧ q.run source .ofNumbers [] .default = .ok rows ∧
      q'.run source .ofNumbers [] .default = .ok rows' ∧
      rows.map (fun row => row.values.map Value.display) = [["23000"]] ∧
      rows'.map (fun row => row.values.map Value.display) = [["23000.0"]] ∧
      q.run source .ofNumbers [] .default ≠ q'.run source .ofNumbers [] .default := by
  intro source
  have hcheck : passes (fun q => passes (fun q' => q == q' &&
        passes (fun rows : List ResultRow => decide
          (rows.map (fun row => row.values.map Value.display) = [["23000"]]))
          (q.run source .ofNumbers [] .default) &&
        passes (fun rows : List ResultRow => decide
          (rows.map (fun row => row.values.map Value.display) = [["23000.0"]]))
          (q'.run source .ofNumbers [] .default)) (compile q.render))
      (compile "SELECT concat(2.3E4) FROM t") = true := by
    decide +kernel
  simp only [passes_iff, Bool.and_eq_true, decide_eq_true_eq] at hcheck
  obtain ⟨q, hq, q', hq', ⟨hequal, rows, hrows, hvalues⟩, rows', hrows', hvalues'⟩ := hcheck
  refine ⟨q, q', rows, rows', hq, hq', hequal, hrows, hrows', hvalues, hvalues', fun hsame => ?_⟩
  rw [hrows, hrows'] at hsame
  rw [Except.ok.inj hsame, hvalues'] at hvalues
  exact absurd hvalues (by decide)

end Query

end RecordQuery
