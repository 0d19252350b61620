import RecordQuery.Proofs.Lexing.Slices
import Mathlib.Algebra.Order.Ring.Int
import Mathlib.Data.List.Infix
/-!
# Quotes and parentheses of a text

The parentheses of a text are those outside its quotes, and its depth is how many more of them it opens than
it closes. With that it can be said of the text alone, without its tokens, that its parentheses are balanced
(`Balanced`), which closing parenthesis is the first without a partner (`FirstUnpartnered`), and which
opening one is the last that stays open (`LastUnclosed`).

A text that goes on may have parentheses open. `Pending passed open` says that they are at the positions
`open`, the innermost first: the text comes to pieces there, and each piece is balanced by itself. A piece at
the end may grow, an opening parenthesis starts a new one, and a closing one makes one of the last two.
-/

namespace RecordQuery

namespace Nesting

/-! ## Quotes -/

/-- The quote that is open behind the character `c`, where `quote?` is open in front of it. A doubled quote
closes a quoted text and opens the next, so it needs no rule of its own. -/
def quoteBehind (quote? : Option Char) (c : Char) : Option Char :=
  match quote? with
  | some quote => if c = quote then none else some quote
  | none => if c = '\'' ∨ c = '"' then some c else none

/-- `QuotesClosed text` holds when no quote is open at the end of the text. -/
def QuotesClosed (text : List Char) : Prop :=
  text.foldl quoteBehind none = none

instance (text : List Char) : Decidable (QuotesClosed text) :=
  inferInstanceAs (Decidable (_ = _))

theorem QuotesClosed.append {a b : List Char} (ha : QuotesClosed a) (hb : QuotesClosed b) :
    QuotesClosed (a ++ b) := by
  unfold QuotesClosed at ha hb ⊢
  rw [List.foldl_append, ha, hb]

/-! ## Depth -/

/-- What a character outside quotes adds to the depth. -/
def weight (c : Char) : Int :=
  if c = '(' then 1 else if c = ')' then -1 else 0

/-- The depth of a text in front of which `quote?` is open. -/
def depthFrom (quote? : Option Char) : List Char → Int
  | [] => 0
  | c :: text => (if quote? = none then weight c else 0) + depthFrom (quoteBehind quote? c) text

/-- How many more parentheses a text opens than it closes, outside its quotes. -/
def depth (text : List Char) : Int :=
  depthFrom none text

@[simp]
theorem depth_nil : depth [] = 0 :=
  rfl

@[simp]
theorem depth_open (text : List Char) : depth ('(' :: text) = 1 + depth text :=
  rfl

@[simp]
theorem depth_close (text : List Char) : depth (')' :: text) = -1 + depth text :=
  rfl

theorem depthFrom_append (quote? : Option Char) (a b : List Char) :
    depthFrom quote? (a ++ b) = depthFrom quote? a + depthFrom (a.foldl quoteBehind quote?) b := by
  induction a generalizing quote? with
  | nil => exact (zero_add _).symm
  | cons c a ih =>
      rw [List.cons_append, depthFrom, depthFrom, ih, List.foldl_cons, add_assoc]

theorem QuotesClosed.depth_append {a : List Char} (ha : QuotesClosed a) (b : List Char) :
    depth (a ++ b) = depth a + depth b := by
  unfold depth
  rw [depthFrom_append, show a.foldl quoteBehind none = none from ha]

/-! ## Balance -/

/-- `NeverOverclosed text` holds when no start of the text closes more than it opens. -/
def NeverOverclosed (text : List Char) : Prop :=
  ∀ start, start <+: text → 0 ≤ depth start

instance (text : List Char) : Decidable (NeverOverclosed text) :=
  decidable_of_iff (∀ start ∈ text.inits, 0 ≤ depth start) <| by
    unfold NeverOverclosed
    simp only [List.mem_inits]

/-- `Balanced text` holds when the text closes what it opens, and nothing else. -/
structure Balanced (text : List Char) : Prop where
  neverOverclosed : NeverOverclosed text
  depth_eq : depth text = 0

/-- `FirstUnpartnered text p` holds when `p` is where the text first closes more than it has opened. -/
def FirstUnpartnered (text : List Char) (p : Position) : Prop :=
  ∃ before behind, text = before ++ ')' :: behind ∧ p = Position.start.after before ∧
    QuotesClosed before ∧ NeverOverclosed before ∧ depth (before ++ [')']) < 0

/-- `LastUnclosed text p` holds when `p` is where the text opens a parenthesis that stays open, and no later
one does: what stands behind it never closes more than it opens. -/
def LastUnclosed (text : List Char) (p : Position) : Prop :=
  ∃ before behind, text = before ++ '(' :: behind ∧ p = Position.start.after before ∧
    QuotesClosed before ∧ NeverOverclosed behind ∧
    ∀ middle rest, behind = middle ++ '(' :: rest → QuotesClosed middle → ¬NeverOverclosed rest

theorem FirstUnpartnered.overclosed {text : List Char} {p : Position} (h : FirstUnpartnered text p) :
    ¬NeverOverclosed text := by
  obtain ⟨before, behind, rfl, -, -, -, hdepth⟩ := h
  intro hnever
  have hle := hnever (before ++ [')']) ⟨behind, by simp⟩
  omega

/-- A text in two parts starts within the first, or with the first and a start of the second. -/
theorem start_of_append {start a b : List Char} (h : start <+: a ++ b) :
    start <+: a ∨ ∃ t, t <+: b ∧ start = a ++ t := by
  obtain ⟨rest, heq⟩ := h
  rcases List.append_eq_append_iff.mp heq with ⟨t, ha, -⟩ | ⟨t, hstart, hb⟩
  · exact .inl ⟨t, ha.symm⟩
  · exact .inr ⟨t, ⟨rest, hb.symm⟩, hstart⟩

/-! ## Pieces of a text -/

/-- A piece of a text that is balanced by itself and has its quotes closed. -/
structure Level (piece : List Char) : Prop where
  quotesClosed : QuotesClosed piece
  balanced : Balanced piece

variable {piece piece' : List Char}

theorem Level.append (h : Level piece) (h' : Level piece') : Level (piece ++ piece') where
  quotesClosed := h.quotesClosed.append h'.quotesClosed
  balanced := by
    refine ⟨fun start hstart => ?_, ?_⟩
    · rcases start_of_append hstart with hstart | ⟨t, ht, rfl⟩
      · exact h.balanced.neverOverclosed start hstart
      · rw [h.quotesClosed.depth_append, h.balanced.depth_eq, zero_add]
        exact h'.balanced.neverOverclosed t ht
    · rw [h.quotesClosed.depth_append, h.balanced.depth_eq, h'.balanced.depth_eq, zero_add]

theorem Level.enclose (h : Level piece) : Level ('(' :: (piece ++ [')'])) where
  quotesClosed := h.quotesClosed.append (b := [')']) rfl
  balanced := by
    refine ⟨fun start hstart => ?_, ?_⟩
    · rcases List.prefix_cons_iff.mp hstart with rfl | ⟨inner, rfl, hinner⟩
      · exact le_rfl
      · rw [depth_open]
        rcases start_of_append hinner with hpiece | ⟨t, ht, rfl⟩
        · have hle := h.balanced.neverOverclosed inner hpiece
          omega
        · -- behind the piece, nothing is closed but what was opened in front of it
          rw [h.quotesClosed.depth_append, h.balanced.depth_eq]
          rcases List.prefix_cons_iff.mp ht with rfl | ⟨u, rfl, hu⟩
          · exact Int.zero_le_ofNat 1
          · rw [List.prefix_nil.mp hu]
            exact le_rfl
    · rw [depth_open, h.quotesClosed.depth_append, h.balanced.depth_eq]
      rfl

/-- `Silent quote? piece` holds when no start of the piece has a depth, with `quote?` open in front. -/
def Silent (quote? : Option Char) (piece : List Char) : Prop :=
  ∀ start, start <+: piece → depthFrom quote? start = 0

theorem silent_nil (quote? : Option Char) : Silent quote? [] := by
  intro start hstart
  rw [List.prefix_nil.mp hstart]
  rfl

theorem Silent.cons {quote? : Option Char} {c : Char} (hc : quote? = none → weight c = 0)
    (h : Silent (quoteBehind quote? c) piece) : Silent quote? (c :: piece) := by
  intro start hstart
  rcases List.prefix_cons_iff.mp hstart with rfl | ⟨inner, rfl, hinner⟩
  · rfl
  · rw [depthFrom, h inner hinner, add_zero]
    split
    next hnone => exact hc hnone
    next => rfl

theorem Silent.level (hclosed : QuotesClosed piece) (h : Silent none piece) : Level piece where
  quotesClosed := hclosed
  balanced := ⟨fun start hstart => (h start hstart).ge, h piece (List.prefix_refl piece)⟩

/-- `IsPlain c` holds for a character that is no quote and no parenthesis. -/
def IsPlain (c : Char) : Prop :=
  c ∉ ['\'', '"', '(', ')']

instance (c : Char) : Decidable (IsPlain c) :=
  inferInstanceAs (Decidable (c ∉ _))

/-- Without quotes and parentheses a piece is level. -/
theorem level_of_plain (h : ∀ c ∈ piece, IsPlain c) : Level piece := by
  suffices hboth : QuotesClosed piece ∧ Silent none piece from hboth.2.level hboth.1
  induction piece with
  | nil => exact ⟨rfl, silent_nil none⟩
  | cons c piece ih =>
      obtain ⟨hc, hpiece⟩ := List.forall_mem_cons.mp h
      simp only [IsPlain, List.mem_cons, List.not_mem_nil, or_false, not_or] at hc
      have hbehind : quoteBehind none c = none := by
        rw [quoteBehind, if_neg]
        rintro (rfl | rfl)
        · exact hc.1 rfl
        · exact hc.2.1 rfl
      obtain ⟨hclosed, hsilent⟩ := ih hpiece
      refine ⟨?_, .cons (fun _ => ?_) (by rwa [hbehind])⟩
      · rw [QuotesClosed, List.foldl_cons, hbehind]
        exact hclosed
      · rw [weight, if_neg hc.2.2.1, if_neg hc.2.2.2]

/-- The same where it can be decided. -/
theorem level_of_all (h : (piece.all fun c => decide (IsPlain c)) = true) : Level piece :=
  level_of_plain fun c hc => of_decide_eq_true (List.all_eq_true.mp h c hc)

/-- A quoted text is level, whatever stands in its quotes. -/
theorem level_quoted {quote : Char} (hquote : quote = '\'' ∨ quote = '"') (content : List Char) :
    Level (quote :: (doubled quote content ++ [quote])) := by
  have hopen : quoteBehind none quote = some quote := if_pos hquote
  have hclose : quoteBehind (some quote) quote = none := if_pos rfl
  have hweight : weight quote = 0 := by
    rcases hquote with rfl | rfl <;> rfl
  suffices hboth : (doubled quote content ++ [quote]).foldl quoteBehind (some quote) = none ∧
      Silent (some quote) (doubled quote content ++ [quote]) by
    refine Silent.level ?_ (.cons (fun _ => hweight) (by rw [hopen]; exact hboth.2))
    rw [QuotesClosed, List.foldl_cons, hopen]
    exact hboth.1
  induction content with
  | nil => exact ⟨hclose, .cons (by nofun) (silent_nil _)⟩
  | cons c content ih =>
      by_cases hc : c = quote
      · -- a doubled quote is one that closes and one that opens
        subst hc
        rw [doubled_cons_self, List.cons_append, List.cons_append, List.foldl_cons, List.foldl_cons,
          hclose, hopen]
        refine ⟨ih.1, .cons (by nofun) (.cons (fun _ => hweight) ?_)⟩
        rw [hclose, hopen]
        exact ih.2
      · have hstays : quoteBehind (some quote) c = some quote := if_neg hc
        rw [doubled_cons_of_ne hc, List.cons_append, List.foldl_cons, hstays]
        exact ⟨ih.1, .cons (by nofun) (by rw [hstays]; exact ih.2)⟩

/-- In a level piece every parenthesis that is opened is closed. -/
theorem Level.closes (h : Level piece) {middle rest : List Char} (hpiece : piece = middle ++ '(' :: rest)
    (hmiddle : QuotesClosed middle) : ¬NeverOverclosed rest := by
  intro hrest
  have hdepth := h.balanced.depth_eq
  rw [hpiece, hmiddle.depth_append, depth_open] at hdepth
  have hfront := h.balanced.neverOverclosed middle ⟨'(' :: rest, hpiece.symm⟩
  have hback := hrest rest (List.prefix_refl rest)
  omega

/-! ## Open parentheses -/

/-- The parentheses that a text has open, the innermost first, and level pieces between them. -/
inductive Pending : List Char → List Position → Prop
  | level {piece : List Char} (h : Level piece) : Pending piece []
  | opened {before piece : List Char} {others : List Position} (h : Pending before others)
      (hpiece : Level piece) :
      Pending (before ++ '(' :: piece) (Position.start.after before :: others)

variable {passed : List Char} {p : Position} {others : List Position}

theorem pending_nil : Pending [] [] :=
  .level (level_of_all rfl)

namespace Pending

/-- A text may go on with a level piece. -/
theorem append (h : Pending passed others) (hpiece : Level piece) : Pending (passed ++ piece) others := by
  cases h with
  | level hlast => exact .level (hlast.append hpiece)
  | opened h hlast =>
      rw [List.append_assoc, List.cons_append]
      exact .opened h (hlast.append hpiece)

/-- An opening parenthesis starts a piece. -/
theorem openParen (h : Pending passed others) :
    Pending (passed ++ ['(']) (Position.start.after passed :: others) :=
  .opened h (level_of_all rfl)

/-- A closing parenthesis ends the piece that the innermost open one has started. -/
theorem closeParen (h : Pending passed (p :: others)) : Pending (passed ++ [')']) others := by
  cases h with
  | opened h hpiece =>
      rw [List.append_assoc, List.cons_append]
      exact h.append hpiece.enclose

theorem quotesClosed (h : Pending passed others) : QuotesClosed passed := by
  induction h with
  | level h => exact h.quotesClosed
  | opened _ hpiece ih => exact ih.append (b := '(' :: _) hpiece.quotesClosed

theorem depth_eq (h : Pending passed others) : depth passed = others.length := by
  induction h with
  | level h => exact h.balanced.depth_eq
  | opened h hpiece ih =>
      rw [h.quotesClosed.depth_append, depth_open, hpiece.balanced.depth_eq, ih, List.length_cons]
      omega

theorem neverOverclosed (h : Pending passed others) : NeverOverclosed passed := by
  induction h with
  | level h => exact h.balanced.neverOverclosed
  | opened h hpiece ih =>
      intro start hstart
      rcases start_of_append hstart with hstart | ⟨t, ht, rfl⟩
      · exact ih start hstart
      · rw [h.quotesClosed.depth_append, h.depth_eq]
        rcases List.prefix_cons_iff.mp ht with rfl | ⟨inner, rfl, hinner⟩
        · rw [depth_nil]
          omega
        · have hle := hpiece.balanced.neverOverclosed inner hinner
          rw [depth_open]
          omega

/-- Where nothing is open, the text is level. -/
theorem toLevel (h : Pending passed []) : Level passed := by
  cases h with
  | level h => exact h

/-- Where nothing is open, a closing parenthesis has no partner, and it is the first of that kind. -/
theorem firstUnpartnered (h : Pending passed []) (behind : List Char) :
    FirstUnpartnered (passed ++ ')' :: behind) (Position.start.after passed) := by
  refine ⟨passed, behind, rfl, rfl, h.quotesClosed, h.neverOverclosed, ?_⟩
  rw [h.quotesClosed.depth_append, h.depth_eq, depth_close, depth_nil]
  decide

/-- The innermost open parenthesis is the last one that stays open, if the text ends here. -/
theorem lastUnclosed (h : Pending passed (p :: others)) : LastUnclosed passed p := by
  cases h with
  | opened h hpiece =>
      exact ⟨_, _, rfl, rfl, h.quotesClosed, hpiece.balanced.neverOverclosed,
        fun _ _ heq hmiddle => hpiece.closes heq hmiddle⟩

end Pending

end Nesting

end RecordQuery
