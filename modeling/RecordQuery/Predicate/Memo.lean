import RecordQuery.Predicate.Eval
/-!
# Evaluation with a memo

A caller who evaluates one predicate repeatedly may keep a memo: the value of every call and of every
arithmetic node is stored when it is first computed, and from then on it is taken from the memo. The
nodes are told apart by their place in the tree. A computation that fails stores nothing for itself,
though the parts computed before it stay. The argument of an aggregate is evaluated for every row with
a memo of its own, because the same node has another value on every row.
-/

namespace RecordQuery

/-- The place of a node in a tree: which child to take at every step, the last step first. -/
abbrev NodePath := List Nat

/-- The values stored so far, each at the place of its node, the newest first. -/
abbrev Memo := List (NodePath × Value)

/-- A computation that may look into the memo and add to it, also when it fails. -/
abbrev Memoized := EStateM EvalError Memo

namespace Memo

/-- A computation that needs no memo. -/
def lift {α : Type} : Except EvalError α → Memoized α
  | .ok a => pure a
  | .error e => throw e

/-- The value stored for a node, or else the computed one, which is stored if there is one. -/
def reuse (path : NodePath) (compute : Memoized Value) : Memoized Value := do
  match (← get).lookup path with
  | some v => return v
  | none =>
    let v ← compute
    modify fun memo => (path, v) :: memo
    return v

/-- A computation with a memo of its own, which is empty at first and forgotten afterwards. -/
def apart {α : Type} (compute : Memoized α) : Except EvalError α :=
  match compute.run [] with
  | .ok a _ => .ok a
  | .error e _ => .error e

end Memo

variable {R : Type}

namespace Expr

mutual

/-- The value of an expression whose node stands at `path`. -/
def evalMemo (ctx : Context R) (path : NodePath) : Expr → Memoized Value
  | .literal l => pure (.ofLiteral l)
  | .field f => Memo.lift (ctx.readField f)
  | .placeholder index => Memo.lift (ctx.readParam index)
  | .list items => do return .array (← evalAllMemo ctx path 0 items)
  | .wildcard => throw (.type .wildcard)
  | .call name args =>
    Memo.reuse path <|
      match Aggregate.ofName? name with
      | some a =>
        match args with
        | [.wildcard] => Memo.lift (aggregateOfAll a ctx.rows.length)
        | [arg] => do
          let values ←
            Memo.lift (ctx.collect fun row => Memo.apart (evalMemo (ctx.onRow row) (0 :: path) arg))
          Memo.lift (a.apply values)
        | args => throw (.type (.aggregateArgumentCount name args.length))
      | none => do Memo.lift (callScalar name (← evalAllMemo ctx path 0 args))
  | .arith op left right =>
    Memo.reuse path do
      let l ← evalMemo ctx (0 :: path) left
      let r ← evalMemo ctx (1 :: path) right
      Memo.lift (arithmetic op l r)
termination_by structural e => e

/-- The values of the children of the node at `path`, from the child numbered `index` on. -/
def evalAllMemo (ctx : Context R) (path : NodePath) (index : Nat) : List Expr → Memoized (List Value)
  | [] => pure []
  | e :: rest => do
    let v ← evalMemo ctx (index :: path) e
    let vs ← evalAllMemo ctx path (index + 1) rest
    return v :: vs
termination_by structural es => es

end

end Expr

/-- Decides the comparison at `path`. -/
def Comparison.evalMemo (ctx : Context R) (path : NodePath) (c : Comparison) : Memoized Bool := do
  let left ← c.left.evalMemo ctx (0 :: path)
  if c.op = .like then
    if left.isNull then return false
    else
      match c.pattern? with
      | some p => return p.isMatch left.display
      | none => Memo.lift (matchLike left (← c.right.evalMemo ctx (1 :: path)))
  else return compareValues c.op left (← c.right.evalMemo ctx (1 :: path))

/-- Decides the predicate at `path`. -/
def Predicate.evalMemo (ctx : Context R) (path : NodePath) : Predicate → Memoized Bool
  | .always => pure true
  | .comparison c => c.evalMemo ctx path
  | .logic .and left right => do
    if ← left.evalMemo ctx (0 :: path) then right.evalMemo ctx (1 :: path) else return false
  | .logic .or left right => do
    if ← left.evalMemo ctx (0 :: path) then return true else right.evalMemo ctx (1 :: path)

/-- Decides a predicate on one record with the memo of the caller, who gets it back. -/
def Predicate.holdsMemo (p : Predicate) (accessor : Accessor R) (params : List Value) (record : R)
    (memo : Memo) : Except EvalError Bool × Memo :=
  match (p.evalMemo ⟨[record], accessor, params⟩ []).run memo with
  | .ok b memo => (.ok b, memo)
  | .error e memo => (.error e, memo)

end RecordQuery
