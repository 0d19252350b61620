import RecordQuery.Predicate.Memo
import RecordQuery.Proofs.MemoTransparency
import RecordQuery.Proofs.Parameters.Instances
import RecordQuery.Proofs.Patterns
/-!
# Patterns at hand

The pattern of a `LIKE` against a literal is made once, together with the comparison. Every other `LIKE`
makes its pattern when it is evaluated, out of the value on the right. Here a literal's comparison is
evaluated in both ways: they agree on every literal but null (`like_literal_agrees_iff`).

A null on the right is no pattern, and a `LIKE` that evaluates it is false. The pattern at hand was made
of the text `null`, and nothing in it tells that this was a null: it matches whatever is shown as this text.
-/

namespace RecordQuery

variable {R : Type}

/-- `v.IsShownAsNull` holds when a value that is not null has the text of null, in any case. -/
def Value.IsShownAsNull (v : Value) : Prop :=
  v.isNull = false ∧ Unicode.SameButCase v.display "null"

namespace Comparison

/-- Decides a comparison with the pattern that is at hand for it, if one is. -/
def evalStored (ctx : Context R) (stored : Option Pattern) (c : Comparison) :
    Except EvalError Bool := do
  let left ← c.left.eval ctx
  if c.op = .like then
    if left.isNull then return false
    else
      match stored with
      | some p => return p.isMatch left.display
      | none => matchLike left (← c.right.eval ctx)
  else return compareValues c.op left (← c.right.eval ctx)

/-- Decides the comparison at `path` with a memo and the pattern that is at hand, if one is. -/
def evalMemoStored (ctx : Context R) (path : NodePath) (stored : Option Pattern) (c : Comparison) :
    Memoized Bool := do
  let left ← c.left.evalMemo ctx (0 :: path)
  if c.op = .like then
    if left.isNull then return false
    else
      match stored with
      | some p => return p.isMatch left.display
      | none => Memo.lift (matchLike left (← c.right.evalMemo ctx (1 :: path)))
  else return compareValues c.op left (← c.right.evalMemo ctx (1 :: path))

/-- A comparison is evaluated with the pattern that was made together with it. -/
theorem evalStored_pattern (ctx : Context R) (c : Comparison) :
    c.evalStored ctx c.pattern? = c.eval ctx :=
  rfl

theorem evalMemoStored_pattern (ctx : Context R) (path : NodePath) (c : Comparison) :
    c.evalMemoStored ctx path c.pattern? = c.evalMemo ctx path :=
  rfl

/-! ## One value against a literal -/

/-- The `LIKE` of an expression against a literal. -/
def likeLiteral (left : Expr) (l : Literal) : Comparison :=
  ⟨left, .like, .literal l⟩

/-- What a `LIKE` against a literal makes of the left value. -/
def decideLike (stored : Option Pattern) (l : Literal) (left : Value) : Except EvalError Bool :=
  if left.isNull then .ok false
  else
    match stored with
    | some p => .ok (p.isMatch left.display)
    | none => matchLike left (.ofLiteral l)

theorem evalStored_likeLiteral (ctx : Context R) (stored : Option Pattern) (left : Expr)
    (l : Literal) :
    (likeLiteral left l).evalStored ctx stored = left.eval ctx >>= decideLike stored l := by
  rfl

theorem evalMemoStored_likeLiteral (ctx : Context R) (path : NodePath) (stored : Option Pattern)
    (left : Expr) (l : Literal) :
    (likeLiteral left l).evalMemoStored ctx path stored =
      left.evalMemo ctx (0 :: path) >>= fun v => Memo.lift (decideLike stored l v) := by
  show (left.evalMemo ctx (0 :: path) >>= _) = _
  congr 1
  funext v
  cases h : v.isNull <;> cases stored <;> simp [decideLike, likeLiteral, h] <;> rfl

/-- The pattern at hand and the one that is made on the way decide alike, unless the literal is null and
the value has its text. -/
theorem decideLike_stored_iff (l : Literal) (v : Value) :
    decideLike none l v = decideLike (Pattern.ofText? (Value.ofLiteral l).display) l v ↔
      ¬(l = .null ∧ v.IsShownAsNull) := by
  cases hv : v.isNull with
  | true => simp [decideLike, hv, Value.IsShownAsNull]
  | false =>
    by_cases hl : l = .null
    · subst hl
      -- the text of null is a pattern without open signs
      have run : '%' ∉ (Value.ofLiteral .null).display.toList := by decide
      have one : '_' ∉ (Value.ofLiteral .null).display.toList := by decide
      obtain ⟨p, made⟩ := Option.isSome_iff_exists.mp
        (show (Pattern.ofText? (Value.ofLiteral .null).display).isSome = true by decide)
      have source := Pattern.source_of_ofText? made
      have matched : p.isMatch v.display = true ↔ v.IsShownAsNull := by
        rw [← source] at run one
        rw [Pattern.isMatch_iff_of_plain run one, source]
        simp only [Value.IsShownAsNull, hv, true_and]
        rfl
      have atHand : decideLike (some p) .null v = .ok (p.isMatch v.display) := by
        simp [decideLike, hv]
      have tested : decideLike none .null v = .ok false := by
        simp only [decideLike, hv, Bool.false_eq_true, if_false]
        rfl
      rw [made, atHand, tested, ← matched]
      cases p.isMatch v.display <;> simp
    · have kept := Value.isNull_ofLiteral hl
      cases made : Pattern.ofText? (Value.ofLiteral l).display <;>
        simp [decideLike, hv, hl, matchLike, kept, made]

/-! ## Every left side -/

theorem bind_eq_bind_iff {α β : Type} {x : Except EvalError α} {f g : α → Except EvalError β} :
    x >>= f = x >>= g ↔ ∀ a, x = .ok a → f a = g a := by
  cases x with
  | error e => simp [bind, Except.bind]
  | ok a =>
    show f a = g a ↔ _
    simp

theorem run_lift_eq_iff {α : Type} {r r' : Except EvalError α} {memo : Memo} :
    (Memo.lift r).run memo = (Memo.lift r').run memo ↔ r = r' := by
  constructor
  · intro same
    cases r <;> cases r' <;> cases same <;> rfl
  · exact congrArg fun r => (Memo.lift r).run memo

theorem run_bind_lift_eq_iff {α β : Type} {m : Memoized α} {f g : α → Except EvalError β}
    {memo : Memo} :
    (m >>= fun a => Memo.lift (f a)).run memo = (m >>= fun a => Memo.lift (g a)).run memo ↔
      ∀ a memo', m.run memo = .ok a memo' → f a = g a := by
  rw [EStateM.run_bind, EStateM.run_bind]
  cases m.run memo with
  | error e memo' => simp
  | ok a memo' =>
    show (Memo.lift (f a)).run memo' = (Memo.lift (g a)).run memo' ↔ _
    rw [run_lift_eq_iff]
    simp

/-- **Patterns at hand.** A `LIKE` against a literal that has its pattern at hand is decided as one that
makes its pattern on the way, errors included and for whatever the left side is, with any memo too: unless
the literal is null and the left side has a value that is shown as null is. -/
theorem like_literal_agrees_iff (left : Expr) (l : Literal) (ctx : Context R) (path : NodePath)
    (memo : Memo) :
    ((likeLiteral left l).eval ctx = (likeLiteral left l).evalStored ctx none ↔
      ¬(l = .null ∧ ∃ v, left.eval ctx = .ok v ∧ v.IsShownAsNull)) ∧
    (((likeLiteral left l).evalMemo ctx path).run memo =
        ((likeLiteral left l).evalMemoStored ctx path none).run memo ↔
      ¬(l = .null ∧
        ∃ v memo', (left.evalMemo ctx (0 :: path)).run memo = .ok v memo' ∧ v.IsShownAsNull)) := by
  constructor
  · rw [← evalStored_pattern, evalStored_likeLiteral, evalStored_likeLiteral, eq_comm,
      bind_eq_bind_iff]
    simp only [pattern?, likeLiteral, decideLike_stored_iff]
    grind
  · rw [← evalMemoStored_pattern, evalMemoStored_likeLiteral, evalMemoStored_likeLiteral, eq_comm,
      run_bind_lift_eq_iff]
    simp only [pattern?, likeLiteral, decideLike_stored_iff]
    grind

/-- The text `null` is like null with the pattern at hand, and not like null without. -/
theorem like_null_disagrees :
    let ctx : Context Value := ⟨[.object [("x", .string "null")]], Accessor.ofObjects, []⟩
    let c := likeLiteral (.field ⟨none, "x"⟩) .null
    c.eval ctx = .ok true ∧ c.evalStored ctx none = .ok false := by
  decide

end Comparison

end RecordQuery
