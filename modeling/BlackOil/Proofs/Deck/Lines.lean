import BlackOil.Deck.Token
import Mathlib.Data.List.Basic

/-!
# Texts after a line break

A text that ends with a line break can be put in front of any other: the tokens of the
whole are those of the two parts. The lines need not be, since a carriage return at the
end of the first part and a line feed at the beginning of the second one are one break
where they were two. What is lost is an empty line, and that has no tokens. In particular
the tokens of a text are those of any of its lines between those of the texts around it.
-/
namespace BlackOil
namespace Text

/-- The last character of a text is a line break. -/
def EndsWithBreak (text : List Char) : Prop := ∃ c ∈ text.getLast?, isLineBreak c

theorem EndsWithBreak.of_cons {c d : Char} {rest : List Char}
    (h : EndsWithBreak (c :: d :: rest)) : EndsWithBreak (d :: rest) := by
  rw [EndsWithBreak, List.getLast?_cons_cons] at h
  exact h

/-- A text that is one line break. -/
def IsBreak (text : List Char) : Prop :=
  text = ['\r', '\n'] ∨ ∃ c, isLineBreak c ∧ text = [c]

theorem IsBreak.endsWithBreak {text : List Char} (h : IsBreak text) : EndsWithBreak text := by
  rcases h with rfl | ⟨c, hc, rfl⟩
  · exact ⟨'\n', rfl, by decide⟩
  · exact ⟨c, rfl, hc⟩

theorem IsBreak.head {text : List Char} (h : IsBreak text) : ∀ c ∈ text.head?, isLineBreak c := by
  intro d hd
  rcases h with rfl | ⟨c, hc, rfl⟩
  · cases hd
    decide
  · cases hd
    exact hc

theorem IsBreak.exists_cons {text : List Char} (h : IsBreak text) : ∃ c rest, text = c :: rest := by
  rcases h with rfl | ⟨c, -, rfl⟩
  · exact ⟨'\r', ['\n'], rfl⟩
  · exact ⟨c, [], rfl⟩

theorem EndsWithBreak.append {more : List Char} (h : EndsWithBreak more) (text : List Char) :
    EndsWithBreak (text ++ more) := by
  obtain ⟨c, hc, hbreak⟩ := h
  exact ⟨c, List.mem_getLast?_append_of_mem_getLast? hc, hbreak⟩

theorem lines_crlf (rest : List Char) : lines ('\r' :: '\n' :: rest) = [] :: lines rest := by
  rw [lines]

theorem lines_cons {c : Char} {rest : List Char} (h : ∀ tail, c = '\r' → rest ≠ '\n' :: tail) :
    lines (c :: rest) =
      if isLineBreak c then [] :: lines rest else consLine c (lines rest) := by
  rw [lines]
  intro tail hc hr
  exact h tail hc hr

theorem consLine_ne_nil (c : Char) (front : List (List Char)) : consLine c front ≠ [] := by
  cases front with
  | nil => exact List.cons_ne_nil _ _
  | cons line front => exact List.cons_ne_nil _ _

theorem lines_ne_nil (c : Char) (rest : List Char) : lines (c :: rest) ≠ [] := by
  by_cases h : ∃ tail, c = '\r' ∧ rest = '\n' :: tail
  · obtain ⟨tail, rfl, rfl⟩ := h
    rw [lines_crlf]
    exact List.cons_ne_nil _ _
  · rw [lines_cons fun tail hc hr => h ⟨tail, hc, hr⟩]
    split
    · exact List.cons_ne_nil _ _
    · exact consLine_ne_nil c _

theorem consLine_append (c : Char) {front : List (List Char)} (h : front ≠ [])
    (back : List (List Char)) : consLine c (front ++ back) = consLine c front ++ back := by
  cases front with
  | nil => exact absurd rfl h
  | cons line front => rfl

/-- A break at the end of a first part may take a line feed from the second one. -/
theorem lines_break_append {c : Char} (hc : isLineBreak c) (more : List Char) :
    ∃ rest, lines (c :: more) = [] :: rest ∧ (rest = lines more ∨ [] :: rest = lines more) := by
  by_cases h : ∃ tail, c = '\r' ∧ more = '\n' :: tail
  · obtain ⟨tail, rfl, rfl⟩ := h
    have hfeed : lines ('\n' :: tail) = [] :: lines tail := by
      rw [lines_cons (by simp), if_pos (by decide)]
    exact ⟨lines tail, lines_crlf tail, Or.inr hfeed.symm⟩
  · refine ⟨lines more, ?_, Or.inl rfl⟩
    rw [lines_cons fun tail hr hm => h ⟨tail, hr, hm⟩, if_pos hc]

theorem crlf_append {c d : Char} {tail : List Char}
    (h : ∀ rest, c = '\r' → d :: tail ≠ '\n' :: rest) (more : List Char) :
    ∀ rest, c = '\r' → d :: tail ++ more ≠ '\n' :: rest := by
  intro rest hc he
  rw [List.cons_append, List.cons.injEq] at he
  exact h tail hc (by rw [he.1])

/-- After a line break come the lines of what follows, except that a line feed after a
carriage return ends no line of its own. -/
theorem lines_append {text : List Char} (h : EndsWithBreak text) (more : List Char) :
    ∃ rest, lines (text ++ more) = lines text ++ rest ∧
      (rest = lines more ∨ [] :: rest = lines more) := by
  induction text using lines.induct with
  | case1 =>
    obtain ⟨c, hc, -⟩ := h
    cases hc
  | case2 tail ih =>
    cases tail with
    | nil => exact ⟨lines more, lines_crlf more, Or.inl rfl⟩
    | cons d tail =>
      obtain ⟨rest, hlines, hrest⟩ := ih h.of_cons.of_cons
      refine ⟨rest, ?_, hrest⟩
      rw [List.cons_append, List.cons_append, lines_crlf, hlines, lines_crlf]
      rfl
  | case3 c tail hne hc ih =>
    cases tail with
    | nil =>
      have hself : lines [c] = [[]] := by
        rw [lines_cons (by simp), if_pos hc]
        rfl
      obtain ⟨rest, hlines, hrest⟩ := lines_break_append hc more
      exact ⟨rest, by rw [hself]; exact hlines, hrest⟩
    | cons d tail =>
      obtain ⟨rest, hlines, hrest⟩ := ih h.of_cons
      refine ⟨rest, ?_, hrest⟩
      rw [lines_cons hne, if_pos hc, List.cons_append, lines_cons (crlf_append hne more), if_pos hc,
        hlines]
      rfl
  | case4 c tail hne hc ih =>
    cases tail with
    | nil =>
      obtain ⟨d, hd, hbreak⟩ := h
      cases hd
      exact absurd hbreak hc
    | cons d tail =>
      obtain ⟨rest, hlines, hrest⟩ := ih h.of_cons
      refine ⟨rest, ?_, hrest⟩
      rw [lines_cons hne, if_neg hc, List.cons_append, lines_cons (crlf_append hne more), if_neg hc,
        hlines, consLine_append c (lines_ne_nil d tail)]

/-- `line` is a line of the text `before ++ line ++ after`. -/
structure LineAt (before line after : List Char) : Prop where
  before_ends : before = [] ∨ EndsWithBreak before
  unbroken : ∀ c ∈ line, ¬isLineBreak c
  after_begins : ∀ c ∈ after.head?, isLineBreak c

theorem LineAt.append {before line after more : List Char} (h : LineAt before line after)
    (hmore : ∀ c ∈ more, ¬isLineBreak c) : LineAt before (line ++ more) after where
  before_ends := h.before_ends
  unbroken c hc := (List.mem_append.mp hc).elim (h.unbroken c) (hmore c)
  after_begins := h.after_begins

theorem lines_cons_of_not_break {c : Char} (hc : ¬isLineBreak c) (rest : List Char) :
    lines (c :: rest) = consLine c (lines rest) := by
  rw [lines_cons, if_neg hc]
  intro tail hr
  subst hr
  exact absurd (by decide) hc

/-- What has no break goes in front of the first line of what begins with one. -/
theorem lines_unbroken_append {line after : List Char} (hline : ∀ c ∈ line, ¬isLineBreak c)
    (hafter : ∀ c ∈ after.head?, isLineBreak c) (hne : line ≠ []) :
    lines (line ++ after) = line :: (lines after).tail := by
  induction line with
  | nil => exact absurd rfl hne
  | cons c line ih =>
    rw [List.cons_append, lines_cons_of_not_break (hline c List.mem_cons_self)]
    cases line with
    | nil =>
      cases after with
      | nil => rfl
      | cons d after =>
        obtain ⟨rest, hlines, -⟩ := lines_break_append (hafter d rfl) after
        rw [List.nil_append, hlines]
        rfl
    | cons d line =>
      rw [ih (fun c hc => hline c (List.mem_cons_of_mem _ hc)) (List.cons_ne_nil d line)]
      rfl

end Text

namespace Token
open Text

theorem ofText_break {text : List Char} (h : IsBreak text) : ofText text = [] := by
  rcases h with rfl | ⟨c, hc, rfl⟩
  · rw [ofText, lines_crlf, lines, List.flatMap_singleton, uncommented, scan_nil]
  · rw [ofText, lines_cons (by simp), if_pos hc, lines, List.flatMap_singleton, uncommented,
      scan_nil]

/-- The tokens of a text after a line break are those of the two parts. -/
theorem ofText_append {text : List Char} (h : EndsWithBreak text) (more : List Char) :
    ofText (text ++ more) = ofText text ++ ofText more := by
  obtain ⟨rest, hlines, hrest⟩ := lines_append h more
  have htokens : ofText more = rest.flatMap fun line => scan true (uncommented line) := by
    rcases hrest with rfl | hrest
    · rfl
    · rw [ofText, ← hrest, List.flatMap_cons, uncommented, scan_nil, List.nil_append]
  rw [ofText, hlines, List.flatMap_append, htokens]
  rfl

theorem ofText_unbroken_append {line after : List Char} (hline : ∀ c ∈ line, ¬isLineBreak c)
    (hafter : ∀ c ∈ after.head?, isLineBreak c) :
    ofText (line ++ after) = scan true (uncommented line) ++ ofText after := by
  by_cases hne : line = []
  · rw [hne, uncommented, scan_nil, List.nil_append, List.nil_append]
  · have htail : ofText after = (lines after).tail.flatMap fun line =>
        scan true (uncommented line) := by
      cases after with
      | nil => rfl
      | cons c after =>
        obtain ⟨rest, hlines, -⟩ := lines_break_append (hafter c rfl) after
        rw [ofText, hlines, List.flatMap_cons, uncommented, scan_nil]
        rfl
    rw [htail, ofText, lines_unbroken_append hline hafter hne, List.flatMap_cons]

theorem ofText_lineAt {before line after : List Char} (h : LineAt before line after) :
    ofText (before ++ line ++ after) =
      ofText before ++ (scan true (uncommented line) ++ ofText after) := by
  rw [List.append_assoc, ← ofText_unbroken_append h.unbroken h.after_begins]
  rcases h.before_ends with rfl | hends
  · rfl
  · exact ofText_append hends _

end Token
end BlackOil
