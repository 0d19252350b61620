import RecordQuery.Proofs.Lexing.Slices
import RecordQuery.Literal.Reading
/-!
# Two ways out of quotes

A text in quotes loses them in two ways. The lexer goes over it character by character and looks one
character ahead for a doubled quote; the reader of literals cuts the first and the last character off the
trimmed text and replaces each two quotes by one. Both undo the doubling of quotes
(`Lexer.take_quotedContent?`, `Literal.halveQuotes_doubled`), so a text that is one quoted token is the
literal that stands in its quotes (`Literal.ofText_of_tokenize`).
-/

namespace RecordQuery

namespace Unicode

variable {gap text : List Char}

theorem trimStart_append (h : ∀ c ∈ gap, isBlank c = true) : trimStart (gap ++ text) = trimStart text :=
  List.dropWhile_append_of_pos h

theorem trimEnd_append (h : ∀ c ∈ gap, isBlank c = true) : trimEnd (text ++ gap) = trimEnd text := by
  unfold trimEnd
  rw [List.reverse_append, List.dropWhile_append_of_pos]
  intro c hc
  exact h c (List.mem_reverse.mp hc)

/-- Between two characters that are not white space nothing is trimmed, and white space around them is. -/
theorem trim_enclosed {first last : Char} {inner gap' : List Char} (hfirst : isBlank first = false)
    (hlast : isBlank last = false) (hgap : ∀ c ∈ gap, isBlank c = true)
    (hgap' : ∀ c ∈ gap', isBlank c = true) :
    trim (gap ++ (first :: (inner ++ [last]) ++ gap')) = first :: (inner ++ [last]) := by
  have hstart : ∀ cs, trimStart (first :: cs) = first :: cs := by
    intro cs
    apply List.dropWhile_cons_of_neg
    rw [hfirst]
    exact Bool.false_ne_true
  have hself : trim (first :: (inner ++ [last])) = first :: (inner ++ [last]) := by
    apply trim_eq_self
    · rintro c ⟨⟩
      exact hfirst
    · intro c hc
      rw [← List.cons_append, List.getLast?_concat] at hc
      cases hc
      exact hlast
  calc trim (gap ++ (first :: (inner ++ [last]) ++ gap'))
      = trimEnd (first :: (inner ++ [last]) ++ gap') := by
        rw [trim, trimStart_append hgap, List.cons_append, hstart]
    _ = trimEnd (first :: (inner ++ [last])) := trimEnd_append hgap'
    _ = trim (first :: (inner ++ [last])) := by rw [trim, hstart]
    _ = first :: (inner ++ [last]) := hself

end Unicode

namespace Literal

variable {quote : Char}

theorem halveQuotes_cons_of_ne {c : Char} (hc : c ≠ quote) (text : List Char) :
    halveQuotes quote (c :: text) = c :: halveQuotes quote text := by
  cases text with
  | nil => rfl
  | cons d text =>
      rw [halveQuotes, if_neg]
      exact fun h => hc h.1

/-- Replacing two quotes by one undoes the doubling of quotes, also where several stand in a row. -/
theorem halveQuotes_doubled (quote : Char) (text : List Char) :
    halveQuotes quote (doubled quote text) = text := by
  induction text with
  | nil => rfl
  | cons c text ih =>
      by_cases hc : c = quote
      · subst hc
        rw [doubled_cons_self, halveQuotes, if_pos ⟨rfl, rfl⟩, ih]
      · rw [doubled_cons_of_ne hc, halveQuotes_cons_of_ne hc, ih]

/-- A text in quotes of either kind is unwrapped as what was put into them. -/
theorem unquote?_doubled (hquote : quote = '\'' ∨ quote = '"') (text : List Char) :
    unquote? (quote :: (doubled quote text ++ [quote])) = some text := by
  rw [unquote?, if_pos ⟨hquote, List.getLast?_concat⟩, List.dropLast_concat, halveQuotes_doubled]

end Literal

/-- A text whose only token is quoted is that token between white space. -/
theorem Lexer.Tiles.exists_quoted {n : Nat} {text : List Char} {content : String} {p q : Position}
    (h : Tiles n text [⟨.quoted content, p⟩, ⟨.endOfInput, q⟩]) :
    ∃ gap quote gap', (quote = '\'' ∨ quote = '"') ∧
      text = gap ++ (quote :: (doubled quote content.toList ++ [quote]) ++ gap') ∧
      (∀ c ∈ gap, Unicode.isBlank c = true) ∧ ∀ c ∈ gap', Unicode.isBlank c = true := by
  cases h with
  | token hgap hslice _ _ hrest =>
      obtain ⟨quote, hquote, rfl⟩ := hslice
      cases hrest with
      | last hgap' _ => exact ⟨_, quote, _, hquote, rfl, hgap, hgap'⟩
      | token _ _ _ _ hnone => cases hnone

/-- **The two ways out of quotes agree.** A text that is one quoted token, in quotes of either kind and with
white space around it or not, is typed as the content of that token. -/
theorem Literal.ofText_of_tokenize {text content : String} {p q : Position}
    (h : tokenize text = .ok [⟨.quoted content, p⟩, ⟨.endOfInput, q⟩]) :
    Literal.ofText text = Literal.ofQuoted content := by
  obtain ⟨gap, quote, gap', hquote, htext, hgap, hgap'⟩ := (tiles_of_tokenize h).exists_quoted
  have hblank : Unicode.isBlank quote = false := by
    rcases hquote with rfl | rfl <;> decide
  have htrim : Unicode.trim text.toList = quote :: (doubled quote content.toList ++ [quote]) := by
    rw [htext, Unicode.trim_enclosed hblank hblank hgap hgap']
  unfold Literal.ofText
  simp only [htrim, Literal.unquote?_doubled hquote, String.ofList_toList]

/-- Quotes in a row at both ends and in the middle, the other quote among them, and white space around. -/
theorem Literal.ofText_of_tokenize_of_quotes :
    tokenize " '''a''''\"'' '\t" = .ok [⟨.quoted "'a''\"' ", ⟨1, 1, 2⟩⟩, ⟨.endOfInput, ⟨15, 1, 16⟩⟩] ∧
      Literal.ofText " '''a''''\"'' '\t" = Literal.ofQuoted "'a''\"' " := by
  have htokens : tokenize " '''a''''\"'' '\t" =
      .ok [⟨.quoted "'a''\"' ", ⟨1, 1, 2⟩⟩, ⟨.endOfInput, ⟨15, 1, 16⟩⟩] := by
    rfl
  exact ⟨htokens, Literal.ofText_of_tokenize htokens⟩

end RecordQuery
