import RecordQuery.Predicate.Memo
import RecordQuery.Proofs.Evaluation
/-!
# The memo cannot be seen

A memo holds values by place. Which node stands at a place is a partial function
`nodes : NodePath → Option Expr`, so no place belongs to two nodes, and a memo is `Consistent` with a
context when what it holds at the place of a node is the value that the node has there without any
memo.

`Transparent m r` is the invariant that carries everything: from a consistent memo, the computation `m`
ends as `r` does, in a value or in an error, and leaves a consistent memo in which nothing is lost. It
passes through sequencing and through `Memo.reuse`, and an aggregate keeps it because the values of its
argument on single rows, which are values in another context, stay in memos of their own.
-/

namespace RecordQuery

variable {R α β : Type}

/-! ## Places -/

namespace Expr

mutual

/-- The node at the end of a way down, the first step first. -/
def node? : Expr → List Nat → Option Expr
  | e, [] => some e
  | .list items, index :: way => nodeOfAll? items index way
  | .call _ args, index :: way => nodeOfAll? args index way
  | .arith _ left _, 0 :: way => node? left way
  | .arith _ _ right, 1 :: way => node? right way
  | _, _ => none
termination_by structural e => e

/-- The node at the end of a way down from one of several expressions, given by its number. -/
def nodeOfAll? : List Expr → Nat → List Nat → Option Expr
  | [], _, _ => none
  | e :: _, 0, way => node? e way
  | _ :: rest, index + 1, way => nodeOfAll? rest index way
termination_by structural es => es

end

/-- `e.StandsAt nodes path` holds when the nodes of `e` have the places below `path` that their ways
down lead to. -/
def StandsAt (nodes : NodePath → Option Expr) (path : NodePath) (e : Expr) : Prop :=
  ∀ way node, e.node? way = some node → nodes (way.reverse ++ path) = some node

/-- The same of the children of the node at `path`, from the one numbered `index` on. -/
def AllStandAt (nodes : NodePath → Option Expr) (path : NodePath) (index : Nat) (es : List Expr) : Prop :=
  ∀ i way node, nodeOfAll? es i way = some node →
    nodes (way.reverse ++ (index + i) :: path) = some node

/-- The place of every node of an expression that stands alone. -/
def places (e : Expr) (path : NodePath) : Option Expr :=
  e.node? path.reverse

theorem standsAt_places (e : Expr) : e.StandsAt e.places [] := by
  intro way node h
  simpa [places] using h

section Children

variable {nodes : NodePath → Option Expr} {path : NodePath}

theorem StandsAt.self {e : Expr} (h : e.StandsAt nodes path) : nodes path = some e :=
  h [] e (by cases e <;> rfl)

theorem StandsAt.below {e child : Expr} {step : Nat} (h : e.StandsAt nodes path)
    (hchild : ∀ way, e.node? (step :: way) = child.node? way) :
    child.StandsAt nodes (step :: path) := by
  intro way node hnode
  have := h (step :: way) node (by rw [hchild, hnode])
  simpa using this

theorem StandsAt.left {op : ArithOp} {l r : Expr} (h : (arith op l r).StandsAt nodes path) :
    l.StandsAt nodes (0 :: path) :=
  h.below fun _ => rfl

theorem StandsAt.right {op : ArithOp} {l r : Expr} (h : (arith op l r).StandsAt nodes path) :
    r.StandsAt nodes (1 :: path) :=
  h.below fun _ => rfl

theorem StandsAt.items {items : List Expr} (h : (list items).StandsAt nodes path) :
    AllStandAt nodes path 0 items := by
  intro i way node hnode
  have := h (i :: way) node hnode
  simpa using this

theorem StandsAt.args {name : String} {args : List Expr} (h : (call name args).StandsAt nodes path) :
    AllStandAt nodes path 0 args := by
  intro i way node hnode
  have := h (i :: way) node hnode
  simpa using this

theorem AllStandAt.head {index : Nat} {e : Expr} {rest : List Expr}
    (h : AllStandAt nodes path index (e :: rest)) : e.StandsAt nodes (index :: path) :=
  fun way node hnode => h 0 way node hnode

theorem AllStandAt.tail {index : Nat} {e : Expr} {rest : List Expr}
    (h : AllStandAt nodes path index (e :: rest)) : AllStandAt nodes path (index + 1) rest := by
  intro i way node hnode
  have := h (i + 1) way node hnode
  rwa [show index + 1 + i = index + (i + 1) by omega]

end Children

end Expr

/-! ## Memos -/

namespace Memo

/-- What the memo holds at the place of a node is the value of the node. -/
def Consistent (ctx : Context R) (nodes : NodePath → Option Expr) (memo : Memo) : Prop :=
  ∀ path e v, nodes path = some e → memo.lookup path = some v → e.eval ctx = .ok v

/-- Every value of the first memo is in the second one, at the same place. -/
def Extends (memo memo' : Memo) : Prop :=
  ∀ path v, memo.lookup path = some v → memo'.lookup path = some v

theorem consistent_nil (ctx : Context R) (nodes : NodePath → Option Expr) :
    Consistent ctx nodes [] := by
  intro path e v _ h
  simp at h

theorem Extends.refl (memo : Memo) : memo.Extends memo :=
  fun _ _ h => h

theorem Extends.trans {a b c : Memo} (hab : a.Extends b) (hbc : b.Extends c) : a.Extends c :=
  fun path v h => hbc path v (hab path v h)

/-- The end of a computation with a memo, for the end of one without. -/
def outcome (r : Except EvalError α) (memo : Memo) : EStateM.Result EvalError Memo α :=
  match r with
  | .ok a => .ok a memo
  | .error e => .error e memo

/-- From every consistent memo, `m` ends as `r` does and leaves a consistent memo that keeps all
values. -/
def Transparent (ctx : Context R) (nodes : NodePath → Option Expr) (m : Memoized α)
    (r : Except EvalError α) : Prop :=
  ∀ memo, Consistent ctx nodes memo →
    ∃ memo', m.run memo = outcome r memo' ∧ Consistent ctx nodes memo' ∧ memo.Extends memo'

section Transparent

variable {ctx : Context R} {nodes : NodePath → Option Expr}

theorem transparent_pure (a : α) : Transparent ctx nodes (pure a) (.ok a) :=
  fun memo h => ⟨memo, rfl, h, .refl memo⟩

theorem transparent_throw (e : EvalError) :
    Transparent ctx nodes (throw e : Memoized α) (.error e) :=
  fun memo h => ⟨memo, rfl, h, .refl memo⟩

theorem transparent_lift (r : Except EvalError α) : Transparent ctx nodes (lift r) r := by
  cases r with
  | ok a => exact transparent_pure a
  | error e => exact transparent_throw e

theorem transparent_bind {m : Memoized α} {r : Except EvalError α} {f : α → Memoized β}
    {g : α → Except EvalError β} (hm : Transparent ctx nodes m r)
    (hf : ∀ a, Transparent ctx nodes (f a) (g a)) :
    Transparent ctx nodes (m >>= f) (r >>= g) := by
  intro memo h
  obtain ⟨memo', run, h', ext⟩ := hm memo h
  cases r with
  | error e =>
      -- what was stored before the failure stays
      refine ⟨memo', ?_, h', ext⟩
      rw [EStateM.run_bind, run]
      rfl
  | ok a =>
      obtain ⟨memo'', run', h'', ext'⟩ := hf a memo' h'
      refine ⟨memo'', ?_, h'', ext.trans ext'⟩
      rw [EStateM.run_bind, run]
      exact run'

/-- Storing the value of a node at its place keeps the memo consistent. -/
theorem Consistent.cons {memo : Memo} {path : NodePath} {e : Expr} {v : Value}
    (h : Consistent ctx nodes memo) (hnode : nodes path = some e) (hv : e.eval ctx = .ok v) :
    Consistent ctx nodes ((path, v) :: memo) := by
  intro path' e' v' hnode' hlookup
  rw [List.lookup_cons] at hlookup
  by_cases same : path' = path
  · -- two nodes at one place are the same node
    subst same
    simp only [beq_self_eq_true, Option.some.injEq] at hlookup
    rw [hnode] at hnode'
    cases hnode'
    rw [← hlookup]
    exact hv
  · rw [beq_eq_false_iff_ne.mpr same] at hlookup
    exact h path' e' v' hnode' hlookup

theorem Extends.cons {memo memo' : Memo} {path : NodePath} (v : Value) (h : memo.Extends memo')
    (habsent : memo.lookup path = none) : memo.Extends ((path, v) :: memo') := by
  intro path' v' hlookup
  rw [List.lookup_cons]
  by_cases same : path' = path
  · subst same
    rw [habsent] at hlookup
    cases hlookup
  · rw [beq_eq_false_iff_ne.mpr same]
    exact h path' v' hlookup

theorem run_reuse_of_some {path : NodePath} {compute : Memoized Value} {memo : Memo} {v : Value}
    (h : memo.lookup path = some v) : (reuse path compute).run memo = .ok v memo := by
  unfold reuse
  rw [EStateM.run_bind, EStateM.run_get]
  simp only [h]
  rfl

theorem run_reuse_of_none {path : NodePath} {compute : Memoized Value} {memo : Memo}
    (h : memo.lookup path = none) :
    (reuse path compute).run memo =
      match compute.run memo with
      | .ok v memo' => .ok v ((path, v) :: memo')
      | .error e memo' => .error e memo' := by
  unfold reuse
  rw [EStateM.run_bind, EStateM.run_get]
  simp only [h]
  rw [EStateM.run_bind]
  cases compute.run memo <;> rfl

/-- Taking a value from the memo, or else computing and storing it, is as good as computing it. -/
theorem transparent_reuse {path : NodePath} {e : Expr} {compute : Memoized Value}
    (hnode : nodes path = some e) (h : Transparent ctx nodes compute (e.eval ctx)) :
    Transparent ctx nodes (reuse path compute) (e.eval ctx) := by
  intro memo hmemo
  cases hlookup : memo.lookup path with
  | some v =>
      rw [hmemo path e v hnode hlookup]
      exact ⟨memo, run_reuse_of_some hlookup, hmemo, .refl memo⟩
  | none =>
      obtain ⟨memo', run, hmemo', ext⟩ := h memo hmemo
      rw [run_reuse_of_none hlookup, run]
      -- only a value is stored: an error leaves nothing at the place
      cases hv : e.eval ctx with
      | error err => exact ⟨memo', rfl, hmemo', ext⟩
      | ok v => exact ⟨(path, v) :: memo', rfl, hmemo'.cons hnode hv, ext.cons v hlookup⟩

/-- With an empty memo of its own, a transparent computation is the one without a memo. -/
theorem apart_eq {m : Memoized α} {r : Except EvalError α} (h : Transparent ctx nodes m r) :
    apart m = r := by
  obtain ⟨memo', run, -, -⟩ := h [] (consistent_nil ctx nodes)
  unfold apart
  rw [run]
  cases r <;> rfl

end Transparent

end Memo

/-! ## Evaluation -/

open Memo

namespace Expr

/-- The values that an aggregate collects do not depend on the memos of their own in which they are
computed. -/
theorem collect_apart {ctx : Context R} {nodes : NodePath → Option Expr} {path : NodePath} {arg : Expr}
    (h : ∀ row, Transparent (ctx.onRow row) nodes (arg.evalMemo (ctx.onRow row) path)
      (arg.eval (ctx.onRow row))) :
    (ctx.collect fun row => apart (arg.evalMemo (ctx.onRow row) path)) =
      ctx.collect fun row => arg.eval (ctx.onRow row) := by
  have same : (fun row => apart (arg.evalMemo (ctx.onRow row) path)) =
      fun row => arg.eval (ctx.onRow row) := by
    funext row
    exact apart_eq (h row)
  rw [same]

/-! An aggregate looks at the number of its arguments and for a star among them before anything else. -/

section Aggregates

variable {name : String} {a : Aggregate}

theorem evalMemo_aggregate (ha : Aggregate.ofName? name = some a) {arg : Expr} (star : arg ≠ .wildcard)
    (ctx : Context R) (path : NodePath) :
    (call name [arg]).evalMemo ctx path =
      reuse path
        (lift (ctx.collect fun row => apart (arg.evalMemo (ctx.onRow row) (0 :: path))) >>=
          fun values => lift (a.apply values)) := by
  rw [evalMemo, ha]
  cases arg <;> first | exact absurd rfl star | rfl

/-- The calls of an aggregate that evaluate no argument. -/
theorem evalMemo_aggregate_of_args (ha : Aggregate.ofName? name = some a) {args : List Expr}
    (hargs : ∀ arg, args = [arg] → arg = .wildcard) (ctx : Context R) (path : NodePath) :
    (call name args).evalMemo ctx path = reuse path (lift ((call name args).eval ctx)) := by
  rw [evalMemo, eval, ha]
  match args, hargs with
  | [], _ => rfl
  | [arg], hargs =>
      obtain rfl := hargs arg rfl
      rfl
  | first :: _ :: _, _ => cases first <;> rfl

end Aggregates

mutual

/-- An expression that stands at `path` has with a consistent memo the value that it has without. -/
theorem transparent_evalMemo (ctx : Context R) (nodes : NodePath → Option Expr) (path : NodePath) :
    (e : Expr) → e.StandsAt nodes path → Transparent ctx nodes (e.evalMemo ctx path) (e.eval ctx)
  | .literal l, _ => transparent_pure _
  | .field f, _ => transparent_lift _
  | .placeholder i, _ => transparent_lift _
  | .wildcard, _ => transparent_throw _
  | .list items, h => by
      rw [evalMemo, eval]
      exact transparent_bind (transparent_evalAllMemo ctx nodes path 0 items h.items)
        fun vs => transparent_pure _
  | .arith op l r, h => by
      rw [evalMemo]
      apply transparent_reuse h.self
      rw [eval]
      apply transparent_bind (transparent_evalMemo ctx nodes (0 :: path) l h.left)
      intro vl
      apply transparent_bind (transparent_evalMemo ctx nodes (1 :: path) r h.right)
      intro vr
      exact transparent_lift _
  | .call name args, h => by
      cases ha : Aggregate.ofName? name with
      | none =>
          rw [evalMemo]
          apply transparent_reuse h.self
          rw [eval, ha]
          apply transparent_bind (transparent_evalAllMemo ctx nodes path 0 args h.args)
          intro vs
          exact transparent_lift _
      | some a =>
          obtain ⟨arg, rfl, star⟩ | hargs := evaluates_argument_or args
          · rw [evalMemo_aggregate ha star]
            apply transparent_reuse h.self
            -- the argument is evaluated in another context on every row, so in a memo of its own
            rw [collect_apart fun row =>
              transparent_evalMemo (ctx.onRow row) nodes (0 :: path) arg h.args.head,
              eval_aggregate ha star]
            exact transparent_bind (transparent_lift _) fun values => transparent_lift _
          · rw [evalMemo_aggregate_of_args ha hargs]
            exact transparent_reuse h.self (transparent_lift _)

/-- The same of the children of the node at `path`, from the one numbered `index` on. -/
theorem transparent_evalAllMemo (ctx : Context R) (nodes : NodePath → Option Expr) (path : NodePath)
    (index : Nat) : (es : List Expr) → AllStandAt nodes path index es →
    Transparent ctx nodes (evalAllMemo ctx path index es) (evalAll ctx es)
  | [], _ => transparent_pure _
  | e :: rest, h => by
      rw [evalAllMemo, evalAll]
      apply transparent_bind (transparent_evalMemo ctx nodes (index :: path) e h.head)
      intro v
      apply transparent_bind (transparent_evalAllMemo ctx nodes path (index + 1) rest h.tail)
      intro vs
      exact transparent_pure _

end

end Expr

namespace Predicate

/-- The node of an expression at the end of a way down from a predicate, the first step first. -/
def node? : Predicate → List Nat → Option Expr
  | .comparison c, 0 :: way => c.left.node? way
  | .comparison c, 1 :: way => c.right.node? way
  | .logic _ left _, 0 :: way => left.node? way
  | .logic _ _ right, 1 :: way => right.node? way
  | _, _ => none

/-- `p.StandsAt nodes path` holds when the nodes of `p` have the places below `path` that their ways
down lead to. -/
def StandsAt (nodes : NodePath → Option Expr) (path : NodePath) (p : Predicate) : Prop :=
  ∀ way node, p.node? way = some node → nodes (way.reverse ++ path) = some node

/-- The place of every node of a predicate that stands alone. -/
def places (p : Predicate) (path : NodePath) : Option Expr :=
  p.node? path.reverse

theorem standsAt_places (p : Predicate) : p.StandsAt p.places [] := by
  intro way node h
  simpa [places] using h

section Children

variable {nodes : NodePath → Option Expr} {path : NodePath}

theorem StandsAt.side {c : Comparison} {side : Expr} {step : Nat}
    (h : (comparison c).StandsAt nodes path)
    (hside : ∀ way, (comparison c).node? (step :: way) = side.node? way) :
    side.StandsAt nodes (step :: path) := by
  intro way node hnode
  have := h (step :: way) node (by rw [hside, hnode])
  simpa using this

theorem StandsAt.below {p child : Predicate} {step : Nat} (h : p.StandsAt nodes path)
    (hchild : ∀ way, p.node? (step :: way) = child.node? way) :
    child.StandsAt nodes (step :: path) := by
  intro way node hnode
  have := h (step :: way) node (by rw [hchild, hnode])
  simpa using this

end Children

theorem transparent_comparison {ctx : Context R} {nodes : NodePath → Option Expr} {path : NodePath}
    {c : Comparison} (h : (comparison c).StandsAt nodes path) :
    Transparent ctx nodes (c.evalMemo ctx path) (c.eval ctx) := by
  have hright : Transparent ctx nodes (c.right.evalMemo ctx (1 :: path)) (c.right.eval ctx) :=
    Expr.transparent_evalMemo ctx nodes (1 :: path) c.right (h.side fun _ => rfl)
  unfold Comparison.evalMemo Comparison.eval
  apply transparent_bind (Expr.transparent_evalMemo ctx nodes (0 :: path) c.left (h.side fun _ => rfl))
  intro left
  -- `LIKE` does not look at the right side when the left one is null or the pattern is at hand
  by_cases like : c.op = .like
  · rw [if_pos like, if_pos like]
    cases left.isNull with
    | true => exact transparent_pure _
    | false =>
        cases c.pattern? with
        | some p => exact transparent_pure _
        | none => exact transparent_bind hright fun right => transparent_lift _
  · rw [if_neg like, if_neg like]
    exact transparent_bind hright fun right => transparent_pure _

/-- A predicate that stands at `path` is decided with a consistent memo as it is without. -/
theorem transparent_evalMemo (ctx : Context R) (nodes : NodePath → Option Expr) (p : Predicate) :
    ∀ path, p.StandsAt nodes path → Transparent ctx nodes (p.evalMemo ctx path) (p.eval ctx) := by
  induction p with
  | always => exact fun path h => transparent_pure true
  | comparison c => exact fun path h => transparent_comparison h
  | logic op left right ihl ihr =>
      intro path h
      have hl := ihl (0 :: path) (h.below fun _ => rfl)
      have hr := ihr (1 :: path) (h.below fun _ => rfl)
      cases op with
      | and =>
          apply transparent_bind hl
          intro b
          cases b with
          | true => exact hr
          | false => exact transparent_pure false
      | or =>
          apply transparent_bind hl
          intro b
          cases b with
          | true => exact transparent_pure true
          | false => exact hr

/-- With an empty memo a predicate is decided on a record as it is without one. -/
theorem holdsMemo_nil (p : Predicate) (accessor : Accessor R) (params : List Value) (record : R) :
    (p.holdsMemo accessor params record []).1 = p.holds accessor params record := by
  obtain ⟨memo', run, -, -⟩ :=
    transparent_evalMemo ⟨[record], accessor, params⟩ p.places p [] p.standsAt_places []
      (consistent_nil _ _)
  unfold holdsMemo holds
  rw [run]
  cases p.eval ⟨[record], accessor, params⟩ <;> rfl

end Predicate

/-- **The memo is invisible.** Whatever nodes the places belong to, an expression and a predicate that
stand among them end with a consistent memo in the value or the error in which they end without one,
and leave a consistent memo that keeps every value stored before. -/
theorem memo_is_invisible (ctx : Context R) (nodes : NodePath → Option Expr) (memo : Memo)
    (h : memo.Consistent ctx nodes) :
    (∀ (e : Expr) path, e.StandsAt nodes path →
      ∃ memo', (e.evalMemo ctx path).run memo = outcome (e.eval ctx) memo' ∧
        memo'.Consistent ctx nodes ∧ memo.Extends memo') ∧
    (∀ (p : Predicate) path, p.StandsAt nodes path →
      ∃ memo', (p.evalMemo ctx path).run memo = outcome (p.eval ctx) memo' ∧
        memo'.Consistent ctx nodes ∧ memo.Extends memo') :=
  ⟨fun e path he => Expr.transparent_evalMemo ctx nodes path e he memo h,
    fun p path hp => Predicate.transparent_evalMemo ctx nodes p path hp memo h⟩

/-- The hypothesis is met by a memo that holds the value of `coalesce(x)`: `coalesce(x) / 0` fails with
it for the division, and what it holds stays. -/
theorem memo_is_invisible_on_failure :
    let ctx : Context Unit := ⟨[()], ⟨fun _ _ => .ok (.integer 2), fun _ => []⟩, []⟩
    let call : Expr := .call "coalesce" [.field ⟨none, "x"⟩]
    let quotient : Expr := .arith .divide call (.literal (.integer 0))
    let memo : Memo := [([0], .integer 2)]
    memo.Consistent ctx quotient.places ∧
      ∃ memo', (quotient.evalMemo ctx []).run memo = .error .divisionByZero memo' ∧
        memo'.lookup [0] = some (.integer 2) := by
  intro ctx call quotient memo
  have consistent : memo.Consistent ctx quotient.places := by
    intro path e v hnode hlookup
    rw [List.lookup_cons] at hlookup
    by_cases same : path = [0]
    · subst same
      cases hnode
      cases hlookup
      rfl
    · rw [beq_eq_false_iff_ne.mpr same] at hlookup
      cases hlookup
  obtain ⟨memo', run, -, ext⟩ :=
    (memo_is_invisible ctx quotient.places memo consistent).1 quotient [] quotient.standsAt_places
  exact ⟨consistent, memo', run, ext [0] (.integer 2) rfl⟩

end RecordQuery
