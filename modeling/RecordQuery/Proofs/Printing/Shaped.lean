import RecordQuery.Proofs.Printing.Expressions
/-!
# Expressions that print exactly

An expression can be built by hand, with any names and numbers in it. `Expr.Shaped` holds for those that are
built as a reader builds them, of literals that have one text (`Literal.Plain`). The text of a shaped
expression whose parameters are numbered in its order is derived as that expression (`Expr.Shaped.rereads`),
so the reader gives exactly that tree and leaves nothing of the text (`Expr.Shaped.readFrom_render`).
-/

namespace RecordQuery

open Grammar Lexer

/-! ## Literals that have one text -/

namespace Literal

/-- Whole numbers, `NULL`, and the strings that in quotes are nothing else. -/
def Plain : Literal → Prop
  | .null => True
  | .integer _ => True
  | .string s => ofQuoted s = .string s
  | _ => False

namespace Plain

variable {l m : Literal}

theorem readable (h : l.Plain) : l.Readable := by
  cases l with
  | null => trivial
  | integer n => trivial
  | string s => exact h
  | _ => cases h

theorem reread (h : l.Plain) : l.reread = l := by
  cases l with
  | null => rfl
  | integer n => rfl
  | string s => rfl
  | _ => cases h

/-- Equal ones are the same. -/
theorem eq_of_beq (hl : l.Plain) (hm : m.Plain) (h : (l == m) = true) : l = m := by
  cases l with
  | null =>
      cases m with
      | null => rfl
      | _ => cases h
  | integer n =>
      cases m with
      | integer k => exact congrArg integer (beq_iff_eq.mp h)
      | _ => cases h
  | string s =>
      cases m with
      | string t => exact congrArg string (beq_iff_eq.mp h)
      | _ => cases h
  | _ => cases hl

theorem eq_of_beq_all {ls ms : List Literal} (h : List.Forall₂ (fun l m => (l == m) = true) ls ms)
    (hls : ∀ l ∈ ls, l.Plain) (hms : ∀ m ∈ ms, m.Plain) : ls = ms := by
  induction h with
  | nil => rfl
  | cons hlm _ ih =>
      rw [List.forall_mem_cons] at hls hms
      rw [hls.1.eq_of_beq hms.1 hlm, ih hls.2 hms.2]

end Plain

end Literal

namespace Expr

/-! ## Shaped expressions -/

mutual

/-- `e.Shaped` holds for the expressions that are built of plain literals and parameters, of fields with a
path of names, and of calls and arithmetic, as a reader builds them: names of functions are in lower case,
and a star stands only among arguments. -/
def Shaped : Expr → Prop
  | .literal l => l.Plain
  | .field f => ∃ first others, f = Reader.fieldOfNames first others ∧ IsName first ∧
      ∀ name ∈ others, IsWord name
  | .placeholder _ => True
  | .call name args => IsName name ∧ Name.lower name = name ∧ Name.same name "point" = false ∧
      ShapedArguments args
  | .arith _ left right => Shaped left ∧ Shaped right
  | .list _ => False
  | .wildcard => False
termination_by structural e => e

/-- Every argument is a star or shaped. -/
def ShapedArguments : List Expr → Prop
  | [] => True
  | e :: rest => (e = .wildcard ∨ Shaped e) ∧ ShapedArguments rest
termination_by structural es => es

end

mutual

theorem Shaped.plain : {e : Expr} → e.Shaped → ∀ l ∈ e.literals, l.Plain
  | .literal _, h => List.forall_mem_singleton.mpr h
  | .field _, _ => List.forall_mem_nil _
  | .placeholder _, _ => List.forall_mem_nil _
  | .call _ _, h => ShapedArguments.plain h.2.2.2
  | .arith _ _ _, h => List.forall_mem_append.mpr ⟨Shaped.plain h.1, Shaped.plain h.2⟩

theorem ShapedArguments.plain : {es : List Expr} → ShapedArguments es →
    ∀ l ∈ literalsOfAll es, l.Plain
  | [], _ => List.forall_mem_nil _
  | e :: rest, ⟨he, hrest⟩ => by
      refine List.forall_mem_append.mpr ⟨?_, ShapedArguments.plain hrest⟩
      rcases he with rfl | he
      · exact List.forall_mem_nil _
      · exact Shaped.plain he

end

theorem Shaped.reread {e : Expr} (h : e.Shaped) : e.reread = e :=
  e.reread_eq_self fun l hl => (h.plain l hl).reread

/-- Of numbers in order, the first are in order, and those behind them from there on. -/
theorem exists_of_append_eq_range' {is js : List Nat} {n k : Nat} (h : is ++ js = List.range' n k) :
    ∃ i j, k = i + j ∧ is = List.range' n i ∧ js = List.range' (n + i) j := by
  obtain ⟨i, hi, his, hjs⟩ := List.range'_eq_append_iff.mp h.symm
  rw [Nat.mul_one] at hjs
  exact ⟨i, k - i, by omega, his, hjs⟩

mutual

/-- A shaped expression whose parameters are numbered on from `n` is derived again from its text. -/
theorem Shaped.rereads : {e : Expr} → e.Shaped → {n k : Nat} → e.parameters = List.range' n k →
    Rereads n k e
  | .literal l, h, n, k, hn => by
      have hk : k = 0 := List.range'_eq_nil_iff.mp hn.symm
      rw [hk]
      exact rereads_literal (Literal.Plain.readable h) n
  | .field f, ⟨first, others, hf, hfirst, hothers⟩, n, k, hn => by
      have hk : k = 0 := List.range'_eq_nil_iff.mp hn.symm
      rw [hk, hf]
      exact rereads_field hfirst hothers n
  | .placeholder index, _, n, k, hn => by
      obtain ⟨rfl, rfl⟩ : k = 1 ∧ index = n := by
        have hk := congrArg List.length hn
        rw [List.length_range'] at hk
        obtain rfl : 1 = k := hk
        exact ⟨rfl, (List.cons.inj hn).1⟩
      exact rereads_placeholder _
  | .call name args, ⟨hname, hlower, hpoint, hargs⟩, n, k, hn => by
      have hcall := rereads_call hname hpoint (ShapedArguments.rereads hargs hn)
      rwa [hlower] at hcall
  | .arith op left right, ⟨hleft, hright⟩, n, k, hn => by
      -- the parameters on the left come first, and those on the right are numbered on
      obtain ⟨i, j, rfl, hl, hr⟩ := exists_of_append_eq_range' hn
      have hl := Shaped.rereads hleft hl
      have hr := Shaped.rereads hright hr
      cases op with
      | add => exact hl.sumOp .plus hr
      | subtract => exact hl.sumOp .minus hr
      | multiply => exact hl.productOp .star hr
      | divide => exact hl.productOp .slash hr

theorem ShapedArguments.rereads : {es : List Expr} → ShapedArguments es → {n k : Nat} →
    parametersOfAll es = List.range' n k → RereadsArguments n k es
  | [], _, n, k, hn => by
      have hk : k = 0 := List.range'_eq_nil_iff.mp hn.symm
      rw [hk]
      exact rereadsArguments_nil n
  | e :: rest, ⟨he, hrest⟩, n, k, hn => by
      obtain ⟨i, j, rfl, hfirst, hothers⟩ := exists_of_append_eq_range' hn
      have hothers := ShapedArguments.rereads hrest hothers
      rcases he with rfl | he
      · obtain rfl : i = 0 := List.range'_eq_nil_iff.mp hfirst.symm
        exact (rereadsArgument_wildcard n).cons hothers
      · exact (Shaped.rereads he hfirst).argument.cons hothers

end

/-! ## Reading the text -/

/-- `e.ReadFrom text` holds when the reader of expressions gives `e` for a text, and leaves nothing of it. -/
def ReadFrom (e : Expr) (text : String) : Prop :=
  ∃ c c', Cursor.ofText text = .ok c ∧ Reader.expression.run c = .ok e c' ∧ c'.tokens = [.endOfInput]

/-- A text that is spelt by the tokens of a sum is read as its expression. -/
theorem readFrom_of_spells {text : String} {s : Grammar.Sum} (h : Spells text.toList s.tokens) :
    (s.expr 0).ReadFrom text := by
  obtain ⟨placed, htokenize, hbody⟩ := tokenize_of_spells h
  obtain ⟨c', hrun, hend, -⟩ := Reader.expression_complete
    ((Cursor.tokens_ofTokens hbody).trans hbody) (stops_cons.mpr rfl)
  rw [Cursor.placeholders_ofTokens] at hrun
  refine ⟨_, c', ?_, hrun, hend⟩
  unfold Cursor.ofText
  rw [htokenize]

/-- The parameters of an expression are numbered from zero on, in its order. -/
def Numbered (e : Expr) : Prop :=
  e.parameters = List.range e.parameters.length

/-- **Exactness.** The text of a shaped expression is read as exactly that expression. -/
theorem Shaped.readFrom_render {e : Expr} (h : e.Shaped) (hn : e.Numbered) : e.ReadFrom e.render := by
  rw [Numbered, List.range_eq_range'] at hn
  obtain ⟨s, hs, -, hspells, -⟩ := (h.rereads hn).sum
  have hread := readFrom_of_spells hspells
  rwa [hs, h.reread] at hread

end Expr

end RecordQuery
