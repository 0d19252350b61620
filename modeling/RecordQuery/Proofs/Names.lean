import RecordQuery.Proofs.Parameters.Numbering
import RecordQuery.Proofs.Lexing.Lexed
/-!
# The names of resources

Every resource of a compiled query is a name among the tokens of its text (`Query.named_of_compile`).
Such a name is a word, and a word has no dot. So where a field is written with a resource of the query,
the first dot of its full name tells the resource from the rest (`Query.hasDot_of_compile`).
-/

namespace RecordQuery

/-! ## Dots -/

namespace Name

theorem toLower_eq_dot_iff (c : Char) : '.' = c.toLower ↔ '.' = c := by
  rcases toLower_eq_self_or c with hc | hc
  · rw [hc]
  · exact of_ascii (P := fun c => '.' = c.toLower ↔ '.' = c) (by decide) hc

theorem hasDot_lower (name : String) : hasDot (lower name) = hasDot name := by
  rw [hasDot, hasDot, Lexer.toList_lower, List.contains_eq_mem, List.contains_eq_mem, decide_eq_decide,
    List.mem_map]
  refine ⟨?_, fun h => ⟨'.', h, rfl⟩⟩
  rintro ⟨c, hc, hdot⟩
  rwa [(toLower_eq_dot_iff c).mp hdot.symm]

/-- Names that differ at most in the case of letters both have a dot or both have none. -/
theorem hasDot_eq_of_same {a b : String} (h : same a b = true) : hasDot a = hasDot b := by
  rw [← hasDot_lower a, ← hasDot_lower b, beq_iff_eq.mp h]

theorem hasDot_of_isWord {name : String} (h : Lexer.IsWord name) : hasDot name = false := by
  rw [hasDot, List.contains_eq_mem, decide_eq_false_iff_not]
  intro hdot
  exact absurd (h.2 '.' hdot) (by decide +kernel)

end Name

/-- A name among the tokens of a text has no dot. -/
theorem Lexer.Lexed.hasDot {prev : Option Token} {ts : List Token} (h : Lexed prev ts) {name : String}
    (hmem : .identifier name ∈ ts) : Name.hasDot name = false := by
  induction ts generalizing prev with
  | nil => cases hmem
  | cons t ts ih =>
      cases hmem with
      | head => exact Name.hasDot_of_isWord h.1.1
      | tail _ hmem => exact ih h.tail hmem

/-! ## Readers -/

theorem Cursor.Numbers.tokens_subset {c c' : Cursor} {is : List Nat} (h : c.Numbers is c') :
    c'.tokens ⊆ c.tokens := by
  obtain ⟨ts, hreads, -⟩ := h
  rw [hreads.1]
  exact List.subset_append_right _ _

namespace Reader

open Cursor

variable {α : Type}

/-- `Naming m names` holds when the names in what the reader gives are among the tokens ahead of it. -/
def Naming (m : Reader α) (names : α → List String) : Prop :=
  ∀ {c c' : Cursor} {a : α}, c.Ended → m.run c = .ok a c' → ∀ s ∈ names a, .identifier s ∈ c.tokens

theorem name_naming (expected : Expected) : Naming (name expected) fun s => [s] := by
  intro c c' word hc h s hs
  obtain ⟨hcurrent, -⟩ := (run_name_ok hc).mp h
  obtain rfl := List.mem_singleton.mp hs
  rw [tokens, hcurrent]
  exact List.mem_cons_self

/-- The induction is on the steps that the reader may take. -/
theorem commaList_naming {item : Reader α} {parameters : α → List Nat} {names : α → List String}
    (hitem : Numbering item parameters) (hnames : Naming item names) (fuel : Nat) :
    Naming (commaList item fuel) fun as => as.flatMap names := by
  induction fuel with
  | zero =>
      intro c c' as hc h
      rw [commaList] at h
      obtain ⟨a, c₁, ha, h₁⟩ := run_bind_ok.mp h
      obtain ⟨rfl, rfl⟩ := run_pure_ok.mp h₁
      simpa using hnames hc ha
  | succ fuel ih =>
      intro c c' as hc h s hs
      rw [commaList] at h
      obtain ⟨a, c₁, ha, h₁⟩ := run_bind_ok.mp h
      obtain ⟨comma, c₂, hcomma, h₂⟩ := run_bind_ok.mp h₁
      have n₁ := hitem hc ha
      have n₂ := n₁.trans (accept_numbers rfl (n₁.ended hc) hcomma)
      cases comma with
      | true =>
          rw [if_pos rfl] at h₂
          obtain ⟨others, c₃, hothers, h₃⟩ := run_bind_ok.mp h₂
          obtain ⟨rfl, rfl⟩ := run_pure_ok.mp h₃
          obtain ⟨x, hx, hsx⟩ := List.mem_flatMap.mp hs
          cases hx with
          | head => exact hnames hc ha s hsx
          | tail _ hx =>
              have hbehind := ih (n₂.ended hc) hothers s (List.mem_flatMap.mpr ⟨x, hx, hsx⟩)
              exact n₂.tokens_subset hbehind
      | false =>
          rw [if_neg Bool.false_ne_true] at h₂
          obtain ⟨rfl, rfl⟩ := run_pure_ok.mp h₂
          obtain ⟨x, hx, hsx⟩ := List.mem_flatMap.mp hs
          obtain rfl := List.mem_singleton.mp hx
          exact hnames hc ha s hsx

theorem commaSeparated_naming {item : Reader α} {parameters : α → List Nat} {names : α → List String}
    (hitem : Numbering item parameters) (hnames : Naming item names) :
    Naming (commaSeparated item) fun as => as.flatMap names := by
  intro c c' as hc h
  unfold commaSeparated at h
  obtain ⟨_, _, hget, h₁⟩ := run_bind_ok.mp h
  cases hget
  exact commaList_naming hitem hnames _ hc h₁

theorem join_naming (kind : JoinKind) (first : String) :
    Naming (join kind first) fun j => [j.resource] := by
  intro c c' j hc h
  unfold join at h
  obtain ⟨resource, c₁, hresource, h₁⟩ := run_bind_ok.mp h
  obtain ⟨_, c₂, hon, h₂⟩ := run_bind_ok.mp h₁
  obtain ⟨condition, c₃, hcondition, h₃⟩ := run_bind_ok.mp h₂
  obtain ⟨rfl, rfl⟩ := run_pure_ok.mp h₃
  exact name_naming _ hc hresource

theorem joins_naming (first : String) (fuel : Nat) :
    Naming (joins first fuel) fun js => js.map Join.resource := by
  induction fuel with
  | zero =>
      intro c c' js hc h s hs
      rw [joins] at h
      obtain ⟨rfl, rfl⟩ := run_pure_ok.mp h
      cases hs
  | succ fuel ih =>
      intro c c' js hc h s hs
      rw [joins] at h
      obtain ⟨kind?, c₁, hkind, h₁⟩ := run_bind_ok.mp h
      have n₁ := joinKind_numbering hc hkind
      cases kind? with
      | none =>
          obtain ⟨rfl, rfl⟩ := run_pure_ok.mp h₁
          cases hs
      | some kind =>
          obtain ⟨j, c₂, hj, h₂⟩ := run_bind_ok.mp h₁
          obtain ⟨others, c₃, hothers, h₃⟩ := run_bind_ok.mp h₂
          obtain ⟨rfl, rfl⟩ := run_pure_ok.mp h₃
          have n₂ := n₁.trans (join_numbering kind first (n₁.ended hc) hj)
          obtain rfl | hs := List.mem_cons.mp hs
          · exact n₁.tokens_subset (join_naming kind first (n₁.ended hc) hj _ List.mem_cons_self)
          · exact n₂.tokens_subset (ih (n₂.ended hc) hothers s hs)

theorem query_naming : Naming query Query.allResources := by
  intro c c' q hc h s hs
  obtain ⟨c₁, c₂, c₃, c₄, c₅, -, -, -, -, hselect, hfields, hfrom, hresources, hjoins, -⟩ := query_ok h
  have n₁ := expect_numbers rfl hc hselect
  have n₂ := n₁.trans (commaSeparated_numbering selectField_numbering (n₁.ended hc) hfields)
  have n₃ := n₂.trans (expect_numbers rfl (n₂.ended hc) hfrom)
  have n₄ := n₃.trans (commaSeparated_numbering (name_numbering _) (n₃.ended hc) hresources)
  obtain hs | hs := List.mem_append.mp hs
  · have hfirst := commaSeparated_naming (name_numbering _) (name_naming _) (n₃.ended hc) hresources
    exact n₃.tokens_subset (hfirst s (List.mem_flatMap.mpr ⟨s, hs, List.mem_singleton_self s⟩))
  · exact n₄.tokens_subset (joins_naming _ _ (n₄.ended hc) hjoins s hs)

end Reader

namespace Query

/-- The resources of a compiled query are names among the tokens of its text. -/
theorem named_of_compile {text : String} {q : Query} (h : compile text = .ok q) :
    ∃ placed, tokenize text = .ok placed ∧
      ∀ s ∈ q.allResources, .identifier s ∈ placed.map PlacedToken.token := by
  obtain ⟨placed, c', htokenize, hrun⟩ := exists_tokens_of_compile h
  obtain ⟨body, hbody, -⟩ := tokenize_ends htokenize
  have htokens := Cursor.tokens_ofTokens hbody
  refine ⟨placed, htokenize, ?_⟩
  rw [← htokens]
  exact Reader.query_naming ⟨body, htokens.trans hbody⟩ hrun

/-- No resource of a compiled query has a dot in its name. -/
theorem hasDot_of_compile {text : String} {q : Query} (h : compile text = .ok q) {s : String}
    (hs : s ∈ q.allResources) : Name.hasDot s = false := by
  obtain ⟨placed, htokenize, hnamed⟩ := named_of_compile h
  exact (tokenize_lexed htokenize).hasDot (hnamed s hs)

end Query

end RecordQuery
