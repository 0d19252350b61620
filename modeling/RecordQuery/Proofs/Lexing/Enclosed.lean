import RecordQuery.Proofs.Lexing.Scans
import RecordQuery.Proofs.Lexing.Spelling
/-!
# Texts in parentheses

The tokens of a text do not depend on where it stands. Put in parentheses it stands behind an opening
one instead of nothing, which makes a minus a sign and lets a word be a keyword as before, and in front
of a closing one instead of the end, at which everything that takes characters off the text stops in
either case (`front_stop`). So a text that has tokens of its own has the same ones between parentheses, however
many are open around it (`enclosable_of_tokenize`).
-/

namespace RecordQuery

namespace Lexer

/-! ## Between parentheses -/

/-- More open parentheses do not matter. -/
theorem openAfter?_add {t : Token} {d d' : Nat} (h : openAfter? t d = some d') (k : Nat) :
    openAfter? t (d + k) = some (d' + k) := by
  revert h
  fun_cases openAfter? t d with
  | case1 =>
      rintro ⟨⟩
      simp [openAfter?, Nat.add_right_comm]
  | case2 => rintro ⟨⟩
  | case3 hpos =>
      rintro ⟨⟩
      simp only [openAfter?]
      rw [if_neg (by omega), show d + k - 1 = d - 1 + k by omega]
  | case4 => rintro ⟨⟩
  | case5 hopen hclose hend =>
      rintro ⟨⟩
      unfold openAfter?
      split
      · contradiction
      · contradiction
      · contradiction
      · rfl

/-- What is read off a text is read off it too in front of a closing parenthesis, with more parentheses
open, and behind any token that is like the one before. -/
theorem Reads.enclose {prev prev' : Option Token} {d d' : Nat} {text text' : List Char}
    {ts : List Token} (h : Reads prev d text ts prev' d' text') {prev₁ : Option Token}
    (hprev : frontAfter prev₁ = frontAfter prev) (k : Nat) (rest : List Char) :
    ∃ prev₂, Reads prev₁ (d + k) (text ++ ')' :: rest) ts prev₂ (d' + k) (text' ++ ')' :: rest) := by
  induction h generalizing prev₁ with
  | refl prev d text => exact ⟨prev₁, .refl _ _ _⟩
  | blank hc _ ih =>
      obtain ⟨prev₂, hreads⟩ := ih hprev
      exact ⟨prev₂, .blank hc hreads⟩
  | @token prev prev' d d₁ d' text text₁ text' t ts n hfront hblank hopen hdrop _ ih =>
      obtain ⟨prev₂, hreads⟩ := ih rfl
      have hne : text ≠ [] := by
        rintro rfl
        cases hfront
        cases hopen
      have hhead : (text ++ ')' :: rest).head? = text.head? := by
        obtain ⟨c, cs, rfl⟩ := List.exists_cons_of_ne_nil hne
        rfl
      obtain ⟨hstop, hle⟩ := front_stop _ _ stop_closeParen hne rest t n hfront
      refine ⟨prev₂, .token (n := n) ?_ ?_ (openAfter?_add hopen k) ?_ hreads⟩
      · rw [hprev]
        exact hstop
      · rwa [hhead]
      · rw [List.drop_append_of_le_length hle, hdrop]

/-- The tokens of a text are the same between parentheses. -/
theorem enclosable_of_tokenize {text : String} {placed : List PlacedToken} {ts : List Token}
    (h : tokenize text = .ok placed) (hts : placed.map PlacedToken.token = ts ++ [.endOfInput]) :
    Enclosable text.toList ts := by
  obtain ⟨us, prev, hus, hreads⟩ := reads_of_tokenize h
  obtain rfl : us = ts := List.append_cancel_right (hus.symm.trans hts)
  intro d rest
  -- an opening parenthesis is like the start of the text
  have hprev : frontAfter (some (.symbol .openParen)) = frontAfter none := rfl
  obtain ⟨prev', henclosed⟩ := hreads.enclose hprev (d + 1) rest
  rw [Nat.zero_add] at henclosed
  exact ⟨prev', henclosed⟩

end Lexer

end RecordQuery
