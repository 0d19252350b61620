import RecordQuery.Proofs.Literal.Shown
import RecordQuery.Proofs.Printing.Expressions
/-!
# Equal expressions

Expressions are equal (`==`) when they are one tree with literals of one type and one value in its places
(`Expr.alike_of_beq`). That is less than being the same: `2.3E4` and `23000.0` are equal literals. Equal
expressions are the same when their literals are, which they are when these are shown alike
(`Alike.eq_of_shown`). Parts are put together by `Alike.both`.
-/

namespace RecordQuery

/-! ## Alike in all but literals -/

/-- `Alike a b ls ms` holds when `a` and `b`, which have the literals `ls` and `ms` in them, differ in these
alone, and each literal of the one is equal to that of the other in its place. -/
structure Alike {α : Type} (a b : α) (ls ms : List Literal) : Prop where
  literals : List.Forall₂ (fun l m => (l == m) = true) ls ms
  eq : ls = ms → a = b

namespace Alike

variable {α β γ : Type} {a a' : α} {b b' : β} {ls ms ls' ms' : List Literal}

theorem of_eq (h : a = a') : Alike a a' [] [] :=
  ⟨.nil, fun _ => h⟩

theorem map (f : α → β) (h : Alike a a' ls ms) : Alike (f a) (f a') ls ms :=
  ⟨h.literals, fun heq => congrArg f (h.eq heq)⟩

/-- Two parts, with the literals of the second behind those of the first. -/
theorem both (f : α → β → γ) (h : Alike a a' ls ms) (h' : Alike b b' ls' ms') :
    Alike (f a b) (f a' b') (ls ++ ls') (ms ++ ms') where
  literals := List.rel_append h.literals h'.literals
  eq heq := by
    obtain ⟨hfirst, hsecond⟩ := List.append_inj heq h.literals.length_eq
    rw [h.eq hfirst, h'.eq hsecond]

/-- What is shown alike is the same. -/
theorem eq_of_shown (h : Alike a a' ls ms)
    (hshown : List.Forall₂ (fun l m : Literal => l.shown = m.shown) ls ms) : a = a' := by
  apply h.eq
  have hliterals := h.literals
  clear h
  induction hliterals with
  | nil => rfl
  | cons hlm _ ih =>
      cases hshown with
      | cons hfirst hrest => rw [Literal.eq_of_shown hlm hfirst, ih hrest]

end Alike

/-! ## Expressions -/

namespace Expr

mutual

theorem alike_of_beq : (e e' : Expr) → beq e e' = true → Alike e e' e.literals e'.literals
  | .literal l, e', h => by
      cases e' with
      | literal m => exact ⟨.cons h .nil, fun heq => congrArg literal (List.cons.inj heq).1⟩
      | _ => cases h
  | .field f, e', h => by
      cases e' with
      | field g => exact .of_eq (congrArg field (beq_iff_eq.mp h))
      | _ => cases h
  | .placeholder i, e', h => by
      cases e' with
      | placeholder j => exact .of_eq (congrArg placeholder (beq_iff_eq.mp h))
      | _ => cases h
  | .list items, e', h => by
      cases e' with
      | list items' => exact (alike_of_beqAll items items' h).map list
      | _ => cases h
  | .wildcard, e', h => by
      cases e' with
      | wildcard => exact .of_eq rfl
      | _ => cases h
  | .call name args, e', h => by
      cases e' with
      | call name' args' =>
          obtain ⟨hname, hargs⟩ := Bool.and_eq_true_iff.mp h
          rw [beq_iff_eq.mp hname]
          exact (alike_of_beqAll args args' hargs).map (call name')
      | _ => cases h
  | .arith op left right, e', h => by
      cases e' with
      | arith op' left' right' =>
          obtain ⟨h, hright⟩ := Bool.and_eq_true_iff.mp h
          obtain ⟨hop, hleft⟩ := Bool.and_eq_true_iff.mp h
          rw [beq_iff_eq.mp hop]
          exact .both (arith op') (alike_of_beq left left' hleft) (alike_of_beq right right' hright)
      | _ => cases h

theorem alike_of_beqAll : (es es' : List Expr) → beqAll es es' = true →
    Alike es es' (literalsOfAll es) (literalsOfAll es')
  | [], es', h => by
      cases es' with
      | nil => exact .of_eq rfl
      | cons e' rest' => cases h
  | e :: rest, es', h => by
      cases es' with
      | nil => cases h
      | cons e' rest' =>
          obtain ⟨he, hrest⟩ := Bool.and_eq_true_iff.mp h
          exact .both List.cons (alike_of_beq e e' he) (alike_of_beqAll rest rest' hrest)

end

end Expr

end RecordQuery
