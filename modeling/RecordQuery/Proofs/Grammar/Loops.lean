import RecordQuery.Proofs.Grammar.Fuel
/-!
# Loops come to an end

A loop goes round for as long as a round gives something, and ends with the round that gives nothing or fails.
`Loop round c result` says that it does end, after rounds without any bound on their number. The readers of
lists are such loops (`loop_listItems`, `loop_arguments`, `loop_joins`, `commaLoop_commaList`): a round that
gives something has taken a token, so the steps that they are given are never used up.
-/

namespace RecordQuery

namespace Reader

variable {α : Type} {c d : Cursor} {k fuel : Nat}

/-! ## Loops -/

/-- What a loop ends with that has given `a` in front. -/
def consed (a : α) :
    EStateM.Result SyntaxError Cursor (List α) → EStateM.Result SyntaxError Cursor (List α)
  | .ok as d => .ok (a :: as) d
  | .error e d => .error e d

/-- From `c` the loop over `round` ends with `result`. -/
inductive Loop (round : Reader (Option α)) :
    Cursor → EStateM.Result SyntaxError Cursor (List α) → Prop
  | done {c d : Cursor} (h : round.run c = .ok none d) : Loop round c (.ok [] d)
  | failed {c d : Cursor} {e : SyntaxError} (h : round.run c = .error e d) :
      Loop round c (.error e d)
  | more {c d : Cursor} {a : α} {result : EStateM.Result SyntaxError Cursor (List α)}
      (h : round.run c = .ok (some a) d) (behind : Loop round d result) :
      Loop round c (consed a result)

/-- A round behind each comma. -/
def commaRound (item : Reader α) : Reader (Option α) := do
  if ← accept (.symbol .comma) then return some (← item) else return none

/-- From `c` one item is read, and then the loop over those behind commas ends with `result`. -/
inductive CommaLoop (item : Reader α) :
    Cursor → EStateM.Result SyntaxError Cursor (List α) → Prop
  | failed {c d : Cursor} {e : SyntaxError} (h : item.run c = .error e d) :
      CommaLoop item c (.error e d)
  | more {c d : Cursor} {a : α} {result : EStateM.Result SyntaxError Cursor (List α)}
      (h : item.run c = .ok a d) (behind : Loop (commaRound item) d result) :
      CommaLoop item c (consed a result)

/-- A round in front of a closing parenthesis, with a comma behind if that is not yet there. -/
def itemRound (item : Reader α) : Reader (Option α) := do
  if ← accept (.symbol .closeParen) then return none
  else
    let a ← item
    if !(← isAt (.symbol .closeParen)) then expect (.symbol .comma)
    return some a

/-- A round for each join. -/
def joinRound (first : String) : Reader (Option Join) := do
  match ← joinKind with
  | some kind => return some (← join kind first)
  | none => return none

/-- An argument of a call. -/
def callArgument : Reader Expr := do
  if ← accept (.symbol .star) then return .wildcard else expression

/-- One round, and what is behind it. -/
def stepped (round : Reader (Option α)) (behind : Reader (List α)) : Reader (List α) := do
  match ← round with
  | none => return []
  | some a => return a :: (← behind)

theorem run_consed (a : α) (r : Reader (List α)) (c : Cursor) :
    (do return a :: (← r) : Reader (List α)).run c = consed a (r.run c) := by
  rw [EStateM.run_bind]
  cases r.run c <;> rfl

/-- A loop may be taken from its first round on. -/
theorem Loop.step {round round' : Reader (Option α)} {behind : Reader (List α)}
    (hround : round'.run c = round.run c)
    (hbehind : ∀ a d, round.run c = .ok (some a) d → Loop round d (behind.run d)) :
    Loop round c ((stepped round' behind).run c) := by
  unfold stepped
  cases hrun : round.run c with
  | error e d =>
      rw [EStateM.run_bind, hround, hrun]
      exact .failed hrun
  | ok a? d =>
      rw [run_bind_of_ok (hround.trans hrun)]
      cases a? with
      | none => exact .done hrun
      | some a =>
          rw [run_consed]
          exact .more hrun (hbehind a d hrun)

/-! ## Items in parentheses -/

theorem Takes.accept {β : Type} {t : Token} (ht : t ≠ .endOfInput) {f s : Reader β} (h : Takes k f)
    (h' : Takes (k + 1) s) : Takes (k + 1) (Reader.accept t >>= fun b => if b then f else s) := by
  intro c hc a d hrun
  by_cases hcurrent : c.current.token = t
  · rw [run_bind_of_ok (run_accept_of_eq hcurrent)] at hrun
    have hnot : c.current.token ≠ .endOfInput := hcurrent ▸ ht
    have hlength := hc.length_next hnot
    obtain ⟨hd, hle⟩ := h c.next ((hc.reads_next hnot).ended hc) a d hrun
    exact ⟨hd, by omega⟩
  · rw [run_bind_of_ok (run_accept_of_ne hcurrent)] at hrun
    exact h' c hc a d hrun

theorem takes_callArgument : Takes 1 callArgument :=
  .accept (by nofun) (Moves.pure _).takes takes_expression

theorem takes_itemRound {item : Reader α} (h : Takes 1 item) : Takes 1 (itemRound item) := by
  refine .accept (by nofun) (Moves.pure _).takes (.bind (m := 0) h fun a => ?_)
  exact ((moves_isAt _).bind fun _ =>
    .ite ((moves_expect (by nofun)).bind fun _ => .pure _) (.pure _)).takes

theorem agree_itemRound {item item' : Reader α} {n : Nat} (h : Agree n item item')
    (htakes : Takes 1 item) : Agree n (itemRound item) (itemRound item') :=
  .accept (by nofun) (fun _ _ => .refl _ _) (.bind h htakes fun _ _ _ => .refl _ _)

theorem agree_callArgument {n : Nat} (hn : 8 * n + 5 ≤ fuel) : Agree n (argument fuel) callArgument := by
  obtain ⟨fuel, rfl⟩ : ∃ f, fuel = f + 1 := ⟨fuel - 1, by omega⟩
  exact .accept (by nofun) (fun _ _ => .refl _ _) (agree_expression (by omega))

/-- Reading items is a round and the items behind it. -/
theorem stepped_itemRound (item : Reader α) (items : Reader (List α)) :
    (do
      if ← accept (.symbol .closeParen) then return []
      else
        let first ← item
        if !(← isAt (.symbol .closeParen)) then expect (.symbol .comma)
        let others ← items
        return first :: others) = stepped (itemRound item) items := by
  unfold stepped itemRound
  simp only [bind_assoc]
  congr 1
  funext closed
  cases closed with
  | true => simp
  | false =>
      simp only [Bool.false_eq_true, if_false, bind_assoc]
      congr 1
      funext first
      congr 1
      funext last
      cases last <;> simp

/-- The loop over the items of a list ends. -/
theorem loop_listItems (hc : c.Ended) (hfuel : 8 * c.rest.length + 5 ≤ fuel) :
    Loop (itemRound expression) c ((listItems fuel).run c) := by
  induction fuel generalizing c with
  | zero => omega
  | succ fuel ih =>
      rw [listItems, stepped_itemRound]
      apply Loop.step
      · exact agree_itemRound (agree_expression (by omega)) (takes_sum fuel) c hc (Nat.le_refl _)
      · intro a d hround
        obtain ⟨hd, hle⟩ := takes_itemRound takes_expression c hc _ d hround
        exact ih hd (by omega)

/-- So does the one over the arguments of a call. -/
theorem loop_arguments (hc : c.Ended) (hfuel : 8 * c.rest.length + 6 ≤ fuel) :
    Loop (itemRound callArgument) c ((arguments fuel).run c) := by
  induction fuel generalizing c with
  | zero => omega
  | succ fuel ih =>
      rw [arguments, stepped_itemRound]
      apply Loop.step
      · exact agree_itemRound (agree_callArgument (by omega)) (takes_argument fuel) c hc (Nat.le_refl _)
      · intro a d hround
        obtain ⟨hd, hle⟩ := takes_itemRound takes_callArgument c hc _ d hround
        exact ih hd (by omega)

/-! ## Items with commas between -/

theorem takes_selectField : Takes 1 selectField := by
  refine .accept (by nofun) (Moves.pure _).takes (.bind (m := 0) takes_expression fun _ => ?_)
  exact (moves_columnAlias.bind fun _ => .pure _).takes

theorem takes_orderField : Takes 1 orderField := by
  refine .bind (m := 0) takes_expression fun _ => Moves.takes ?_
  exact (moves_accept (by nofun)).bind fun _ => .ite (.pure _)
    ((moves_accept (by nofun)).bind fun _ => .ite (.pure _) (.pure _))

/-- Behind a comma, one item and a loop are a loop. -/
theorem CommaLoop.loop {item : Reader α} {result : EStateM.Result SyntaxError Cursor (List α)}
    (hcomma : c.current.token = .symbol .comma) (h : CommaLoop item c.next result) :
    Loop (commaRound item) c result := by
  have hround : (commaRound item).run c = (do return some (← item) : Reader (Option α)).run c.next := by
    unfold commaRound
    rw [run_bind_of_ok (run_accept_of_eq hcomma), if_pos rfl]
  rw [EStateM.run_bind] at hround
  cases h with
  | failed hitem =>
      rw [hitem] at hround
      exact .failed hround
  | more hitem behind =>
      rw [hitem] at hround
      exact .more hround behind

/-- The loop over items with commas between ends, if an item takes a token. -/
theorem commaLoop_commaList {item : Reader α} (hitem : Takes 1 item) (hc : c.Ended)
    (hfuel : c.rest.length ≤ fuel) : CommaLoop item c ((commaList item fuel).run c) := by
  induction fuel generalizing c with
  | zero =>
      rw [commaList, EStateM.run_bind]
      cases hrun : item.run c with
      | error e d => exact .failed hrun
      | ok a d =>
          obtain ⟨-, hle⟩ := hitem c hc a d hrun
          omega
  | succ fuel ih =>
      rw [commaList]
      cases hrun : item.run c with
      | error e d =>
          rw [EStateM.run_bind, hrun]
          exact .failed hrun
      | ok a d =>
          obtain ⟨hd, hle⟩ := hitem c hc a d hrun
          rw [run_bind_of_ok hrun]
          by_cases hcomma : d.current.token = .symbol .comma
          · have hnot : d.current.token ≠ .endOfInput := by
              rw [hcomma]
              nofun
            have hlength := hd.length_next hnot
            rw [run_bind_of_ok (run_accept_of_eq hcomma), if_pos rfl, run_consed]
            exact .more hrun ((ih ((hd.reads_next hnot).ended hd) (by omega)).loop hcomma)
          · have hround : (commaRound item).run d = .ok none d := by
              unfold commaRound
              rw [run_bind_of_ok (run_accept_of_ne hcomma)]
              rfl
            rw [run_bind_of_ok (run_accept_of_ne hcomma)]
            exact .more hrun (.done hround)

theorem commaLoop_commaSeparated {item : Reader α} (hitem : Takes 1 item) (hc : c.Ended) :
    CommaLoop item c ((commaSeparated item).run c) :=
  commaLoop_commaList hitem hc (Nat.le_refl _)

/-! ## Joins -/

theorem stepped_joinRound (first : String) (fuel : Nat) :
    joins first (fuel + 1) = stepped (joinRound first) (joins first fuel) := by
  rw [joins, stepped, joinRound, bind_assoc]
  congr 1
  funext kind?
  cases kind? <;> simp

/-- At the end of the input no join begins. -/
theorem run_joinRound_of_end (first : String) (h : c.current.token = .endOfInput) :
    (joinRound first).run c = .ok none c := by
  have hkind : joinKind.run c = .ok none c := by
    unfold joinKind
    rw [run_bind_of_ok (run_token c), h]
    rfl
  unfold joinRound
  rw [run_bind_of_ok hkind]
  rfl

/-- A join takes its name at least. -/
theorem length_of_joinRound {first : String} {j : Join} (hc : c.Ended)
    (h : (joinRound first).run c = .ok (some j) d) : d.Ended ∧ d.rest.length + 1 ≤ c.rest.length := by
  obtain ⟨kind?, c₁, hkind, h₁⟩ := run_bind_ok.mp h
  obtain ⟨hc₁, hle⟩ := moves_joinKind.takes c hc kind? c₁ hkind
  cases kind? with
  | none =>
      obtain ⟨heq, -⟩ := run_pure_ok.mp h₁
      cases heq
  | some kind =>
      have hjoin : Takes 1 (join kind first) :=
        .bind (m := 0) (takes_name _) fun _ => ((moves_expect (by nofun)).bind fun _ =>
          (moves_clausePredicate _).bind fun _ => .pure _).takes
      obtain ⟨j', c₂, hj, h₂⟩ := run_bind_ok.mp h₁
      obtain ⟨-, rfl⟩ := run_pure_ok.mp h₂
      obtain ⟨hd, hle'⟩ := hjoin c₁ hc₁ j' c₂ hj
      exact ⟨hd, by omega⟩

/-- The loop over the joins of a query ends. -/
theorem loop_joins (first : String) (hc : c.Ended) (hfuel : c.rest.length ≤ fuel) :
    Loop (joinRound first) c ((joins first fuel).run c) := by
  induction fuel generalizing c with
  | zero =>
      have hrest : c.rest = [] := List.eq_nil_of_length_eq_zero (Nat.le_zero.mp hfuel)
      exact .done (run_joinRound_of_end first (hc.current_of_rest hrest))
  | succ fuel ih =>
      rw [stepped_joinRound]
      apply Loop.step rfl
      intro j d hround
      obtain ⟨hd, hle⟩ := length_of_joinRound hc hround
      exact ih hd (by omega)

end Reader

end RecordQuery
