import BlackOil.Proofs.Deck.Lines
import BlackOil.Proofs.Deck.Scanning
import BlackOil.Proofs.Deck.Tables
import Mathlib.Logic.Relation

/-!
# Text that counts for nothing

What a deck text may hold without any effect. Keywords that the library does not use are
skipped with all that stands behind them, be it records or not: no code looks for the end of
a record there, and the reader passes over each token by itself until one opens a keyword.
Comments, blank lines and what stands behind the slash that ends a record have no tokens at
all, whatever they are made of.
-/
namespace BlackOil
open Text

namespace Token

/-- A comment that is appended to a line behind a blank has no tokens. -/
theorem scan_uncommented_comment {c : Char} (hc : isBlank c) (line comment : List Char) :
    scan true (uncommented (line ++ c :: '-' :: '-' :: comment)) =
      scan true (uncommented line) := by
  obtain ⟨old, hline, hchain, hjoin, hold⟩ := exists_comment line
  have hdash := ne_dash_of_isBlank hc
  rcases hold with rfl | ⟨rest, rfl⟩
  -- the line has no comment yet, and ends with the blank now
  · rw [List.append_nil] at hline
    rw [← hline] at hchain ⊢
    rw [uncommented_append hchain fun d _ e he hapart => hdash ?_]
    · rw [uncommented_cons fun d hd hapart => hdash hapart.1]
      exact scan_append_blank hc true line
    · cases he
      exact hapart.2
  -- the line keeps its comment, which grows
  · have hcut : line ++ c :: '-' :: '-' :: comment =
        uncommented line ++ '-' :: '-' :: (rest ++ c :: '-' :: '-' :: comment) := by
      conv_lhs => rw [hline]
      simp
    rw [hcut, uncommented_append hchain fun d hd e he => ?_, uncommented, List.append_nil]
    cases he
    exact hjoin d hd '-' rfl

/-- What stands behind the slash at the end of a line without quotes has no tokens. -/
theorem scan_uncommented_slash {line : List Char} (hquotes : ∀ c ∈ line, ¬isQuote c)
    (hlast : ∃ token ∈ (scan true (uncommented line)).getLast?, token.isSlash)
    (more : List Char) :
    scan true (uncommented (line ++ more)) = scan true (uncommented line) := by
  obtain ⟨token, htoken, hslash⟩ := hlast
  have hmem : '/' ∈ uncommented line := by
    apply mem_of_mem_scan (List.mem_of_getLast? htoken)
    rw [show token.text = ['/'] from eq_of_beq hslash]
    exact List.mem_singleton_self '/'
  obtain ⟨front, rest, hcut⟩ := List.append_of_mem hmem
  obtain ⟨comment, hline, hchain, -, -⟩ := exists_comment line
  rw [hcut, List.append_cons] at hchain
  have hkeep : ∀ behind, uncommented (front ++ ['/'] ++ behind) =
      front ++ '/' :: uncommented behind := by
    intro behind
    rw [uncommented_append hchain.left_of_append fun c hc d _ hapart => ?_, ← List.append_cons]
    rw [List.getLast?_concat] at hc
    cases hc
    exact absurd hapart.1 (by decide)
  have hmore : line ++ more = front ++ ['/'] ++ (rest ++ comment ++ more) := by
    conv_lhs => rw [hline, hcut]
    simp
  have hfront : ∀ c ∈ front, ¬isQuote c := by
    intro c hc
    apply hquotes c
    rw [hline, hcut]
    exact List.mem_append_left _ (List.mem_append_left _ hc)
  rw [hmore, hkeep, hcut]
  exact scan_append_slash hfront true _ rest

theorem scan_uncommented_blank {line : List Char} (h : ∀ c ∈ line, isBlank c) (inColumnOne : Bool) :
    scan inColumnOne (uncommented line) = [] := by
  induction line generalizing inColumnOne with
  | nil => rw [uncommented, scan_nil]
  | cons c line ih =>
    have hc := h c List.mem_cons_self
    rw [uncommented_cons fun d _ hapart => ne_dash_of_isBlank hc hapart.1, scan_blank hc,
      ih fun d hd => h d (List.mem_cons_of_mem c hd)]

/-- A line that is blank or a comment. -/
def IsRemark (line : List Char) : Prop := (∀ c ∈ line, isBlank c) ∨ ['-', '-'] <+: line

theorem scan_remark {line : List Char} (h : IsRemark line) : scan true (uncommented line) = [] := by
  rcases h with hblank | ⟨comment, rfl⟩
  · exact scan_uncommented_blank hblank true
  · rw [List.cons_append, List.cons_append, uncommented, scan_nil]

/-- Edits of a text that concern nothing but comments and what stands behind a record. -/
inductive Edit : List Char → List Char → Prop where
  /-- A new line in front of another one or at the end. -/
  | insertLine {before line ending after : List Char} (place : before = [] ∨ EndsWithBreak before)
      (unbroken : ∀ c ∈ line, ¬isLineBreak c) (remark : IsRemark line) (ends : IsBreak ending) :
      Edit (before ++ after) (before ++ (line ++ ending) ++ after)
  /-- A comment behind a line. -/
  | appendComment {before line after comment : List Char} {c : Char}
      (place : LineAt before line after) (blank : isBlank c) (blank_unbroken : ¬isLineBreak c)
      (unbroken : ∀ d ∈ comment, ¬isLineBreak d) :
      Edit (before ++ line ++ after) (before ++ (line ++ c :: '-' :: '-' :: comment) ++ after)
  /-- Any text behind a line that ends a record. -/
  | appendText {before line after more : List Char} (place : LineAt before line after)
      (unquoted : ∀ c ∈ line, ¬isQuote c)
      (ends : ∃ token ∈ (scan true (uncommented line)).getLast?, token.isSlash)
      (unbroken : ∀ c ∈ more, ¬isLineBreak c) :
      Edit (before ++ line ++ after) (before ++ (line ++ more) ++ after)

theorem Edit.ofText_eq {text text' : List Char} (h : Edit text text') :
    ofText text' = ofText text := by
  cases h with
  | @insertLine before line ending after place unbroken remark ends =>
    have hline : ofText (line ++ ending) = [] := by
      rw [ofText_unbroken_append unbroken ends.head, scan_remark remark, ofText_break ends,
        List.append_nil]
    have hrest : ofText (line ++ ending ++ after) = ofText after := by
      rw [ofText_append (ends.endsWithBreak.append line), hline, List.nil_append]
    rw [List.append_assoc]
    rcases place with rfl | hends
    · exact hrest
    · rw [ofText_append hends, ofText_append hends, hrest]
  | @appendComment before line after comment c place blank blank_unbroken unbroken =>
    have hmore : ∀ d ∈ c :: '-' :: '-' :: comment, ¬isLineBreak d := by
      have hdash : ¬isLineBreak '-' := by decide
      simp only [List.forall_mem_cons]
      exact ⟨blank_unbroken, hdash, hdash, unbroken⟩
    rw [ofText_lineAt (place.append hmore), ofText_lineAt place, scan_uncommented_comment blank]
  | appendText place unquoted ends unbroken =>
    rw [ofText_lineAt (place.append unbroken), ofText_lineAt place,
      scan_uncommented_slash unquoted ends]

/-- Edits one after the other. -/
theorem ofText_edited {text text' : List Char} (h : Relation.ReflTransGen Edit text text') :
    ofText text' = ofText text := by
  induction h with
  | refl => rfl
  | tail _ hedit ih => rw [hedit.ofText_eq, ih]

end Token

variable {α : Type} [Scalar α] {constants : Constants α}

theorem Block.ofTokens_skip {tokens skipped more : List Token} {blocks : Array (Block α)}
    (haccepted : ofTokens constants tokens = .ok blocks)
    (hfirst : ∀ token ∈ skipped.head?, ¬token.inRecord)
    (hmore : ∀ token ∈ more.head?, ¬token.inRecord)
    (hunused : ∀ token ∈ skipped, token.inColumnOne → Keyword.ofText token.text = .other) :
    ofTokens constants (tokens ++ (skipped ++ more)) = ofTokens constants (tokens ++ more) := by
  have hhead : ∀ token ∈ (skipped ++ more).head?, ¬token.inRecord := by
    intro token htoken
    cases skipped with
    | nil => exact hmore token htoken
    | cons first skipped => exact hfirst token htoken
  have hskipped : ofTokens constants (skipped ++ more) = ofTokens constants more := by
    rw [ofTokens_append (ofTokens_skipped hunused) hmore]
    cases ofTokens constants more with
    | error fault => rfl
    | ok others => exact congrArg Except.ok (Array.empty_append)
  rw [ofTokens_append haccepted hhead, ofTokens_append haccepted hmore, hskipped]

namespace Deck

/-- Keywords that the library does not use are skipped with all that follows them. -/
theorem parse_skip {text skipped more : String} {deck : Deck α}
    (haccepted : parse constants text = .ok deck)
    (htext : EndsWithBreak text.toList) (hskipped : EndsWithBreak skipped.toList)
    (hfirst : ∀ token ∈ (Token.ofText skipped.toList).head?, ¬token.inRecord)
    (hmore : ∀ token ∈ (Token.ofText more.toList).head?, ¬token.inRecord)
    (hunused : ∀ token ∈ Token.ofText skipped.toList, token.inColumnOne →
      upper (String.ofList token.text) ∉ Keyword.used) :
    parse constants (text ++ skipped ++ more) = parse constants (text ++ more) := by
  obtain ⟨blocks, hblocks, -⟩ := Outcome.bind_eq_ok_iff.mp haccepted
  have hother : ∀ token ∈ Token.ofText skipped.toList, token.inColumnOne →
      Keyword.ofText token.text = .other :=
    fun token htoken hcolumn => Keyword.ofName_eq_other_iff.mpr (hunused token htoken hcolumn)
  rw [parse, parse, String.toList_append, String.toList_append, List.append_assoc,
    Token.ofText_append htext, Token.ofText_append hskipped, String.toList_append,
    Token.ofText_append htext, Block.ofTokens_skip hblocks hfirst hmore hother]

theorem parse_skip_equil : ∃ deck : Deck Exact, parse {} "PVTO\n 1 2 3 4 /\n" = .ok deck ∧
    parse ({} : Constants Exact) ("PVTO\n 1 2 3 4 /\n" ++ "EQUIL\n 'a /b PORO\n 12 -- c\n7\n" ++
      "DIMENS\n 2 1 1 /\n") = parse {} ("PVTO\n 1 2 3 4 /\n" ++ "DIMENS\n 2 1 1 /\n") := by
  have hsome : (parse {} "PVTO\n 1 2 3 4 /\n" : Except Fault (Deck Exact)).toOption.isSome := by
    decide +kernel
  obtain ⟨deck, hdeck⟩ := Outcome.exists_ok_of_isSome hsome
  exact ⟨deck, hdeck, parse_skip hdeck ⟨'\n', by decide, by decide⟩ ⟨'\n', by decide, by decide⟩
    (by decide +kernel) (by decide +kernel) (by decide +kernel)⟩

/-- Comments, blank lines and what stands behind a record leave the result alone, be it a deck
or a fault. -/
theorem parse_edited {text text' : String}
    (h : Relation.ReflTransGen Token.Edit text.toList text'.toList) :
    parse constants text' = parse constants text := by
  rw [parse, parse, Token.ofText_edited h]

theorem parse_edited_dimens :
    Relation.ReflTransGen Token.Edit "DIMENS\n 2 1 1 /\n".toList
      "DIMENS -- a/b\n-- 'grid'\r\n 2 1 1 /PORO'-\n".toList ∧
    parse ({} : Constants Exact) "DIMENS -- a/b\n-- 'grid'\r\n 2 1 1 /PORO'-\n" =
      parse {} "DIMENS\n 2 1 1 /\n" := by
  have hline : Token.Edit "DIMENS\n 2 1 1 /\n".toList
      "DIMENS\n-- 'grid'\r\n 2 1 1 /\n".toList :=
    @Token.Edit.insertLine "DIMENS\n".toList "-- 'grid'".toList ['\r', '\n'] " 2 1 1 /\n".toList
      (Or.inr ⟨'\n', by decide, by decide⟩) (by simp [isLineBreak]) (Or.inr (by decide)) (Or.inl rfl)
  have hcomment : Token.Edit "DIMENS\n-- 'grid'\r\n 2 1 1 /\n".toList
      "DIMENS -- a/b\n-- 'grid'\r\n 2 1 1 /\n".toList :=
    @Token.Edit.appendComment [] "DIMENS".toList "\n-- 'grid'\r\n 2 1 1 /\n".toList " a/b".toList
      ' ' ⟨Or.inl rfl, by simp [isLineBreak], by simp [isLineBreak]⟩ (by decide) (by decide)
      (by simp [isLineBreak])
  have hmore : Token.Edit "DIMENS -- a/b\n-- 'grid'\r\n 2 1 1 /\n".toList
      "DIMENS -- a/b\n-- 'grid'\r\n 2 1 1 /PORO'-\n".toList :=
    @Token.Edit.appendText "DIMENS -- a/b\n-- 'grid'\r\n".toList " 2 1 1 /".toList ['\n']
      "PORO'-".toList
      ⟨Or.inr ⟨'\n', by decide, by decide⟩, by simp [isLineBreak], by simp [isLineBreak]⟩
      (by simp [Token.isQuote]) ⟨⟨['/'], false⟩, by decide +kernel, rfl⟩ (by simp [isLineBreak])
  have hedited := ((Relation.ReflTransGen.single hline).tail hcomment).tail hmore
  exact ⟨hedited, parse_edited hedited⟩

end Deck
end BlackOil
