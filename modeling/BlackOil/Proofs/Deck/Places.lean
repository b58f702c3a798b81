import BlackOil.Proofs.Deck.Lines
import BlackOil.Proofs.Deck.Scanning

/-!
# Where tokens stand

The tokens of a text with the number of characters in front of each, and what happens to them
when something else is put in the place of one. A text that is not cut by breaks, begins no
comment and pairs with no quote that did not have its partner already can take the place of a
word or a quoted text. It is scanned for itself there: the tokens before and behind stay.
-/
namespace BlackOil
namespace Text

/-- Puts a character that stands behind `start` others in front of the first line. -/
def consLineFrom (start : Nat) (c : Char) : List (Nat × List Char) → List (Nat × List Char)
  | [] => [(start, [c])]
  | (_, line) :: entries => (start, c :: line) :: entries

/-- The entry is the line of the text behind `before`, with its place. -/
def HasLine (start : Nat) (text : List Char) (entry : Nat × List Char) (before : List Char) :
    Prop :=
  entry.1 = start + before.length ∧
    ∃ after, text = before ++ entry.2 ++ after ∧ LineAt before entry.2 after

theorem HasLine.append {start : Nat} {front text : List Char} {entry : Nat × List Char}
    {before : List Char} (h : HasLine (start + front.length) text entry before)
    (hends : EndsWithBreak (front ++ before)) :
    HasLine start (front ++ text) entry (front ++ before) := by
  obtain ⟨hstart, after, rfl, hline⟩ := h
  refine ⟨?_, after, by simp, Or.inr hends, hline.unbroken, hline.after_begins⟩
  rw [hstart, List.length_append, Nat.add_assoc]

/-- The first entry is the line at the beginning of the text, the others are lines behind
breaks. -/
def HasLines (start : Nat) (text : List Char) (entries : List (Nat × List Char)) : Prop :=
  (∀ entry ∈ entries.head?, HasLine start text entry []) ∧
    ∀ entry ∈ entries.tail, ∃ before, EndsWithBreak before ∧ HasLine start text entry before

theorem HasLines.cons {start : Nat} {c : Char} {text : List Char}
    {entries : List (Nat × List Char)} (hc : ¬isLineBreak c) (hne : entries = [] → text = [])
    (h : HasLines (start + 1) text entries) :
    HasLines start (c :: text) (consLineFrom start c entries) := by
  have hhead : ∀ line after, text = line ++ after → LineAt [] line after →
      HasLine start (c :: text) (start, c :: line) [] := by
    intro line after htext hline
    refine ⟨rfl, after, congrArg (c :: ·) htext, Or.inl rfl, ?_, hline.after_begins⟩
    simpa [hc] using hline.unbroken
  cases entries with
  | nil =>
    refine ⟨fun entry hentry => ?_, nofun⟩
    cases hentry
    exact hhead [] [] (hne rfl) ⟨Or.inl rfl, nofun, nofun⟩
  | cons first entries =>
    obtain ⟨-, after, htext, hline⟩ := h.1 first rfl
    refine ⟨fun entry hentry => ?_, fun entry hentry => ?_⟩
    · cases hentry
      exact hhead first.2 after htext hline
    · obtain ⟨before, hends, hplace⟩ := h.2 entry hentry
      exact ⟨c :: before, hends.append [c], hplace.append (hends.append [c])⟩

end Text

namespace Token
open Text

namespace WordAt
variable {inColumnOne : Bool} {front back : List Char} {token : Token}

end WordAt

end Token
end BlackOil
