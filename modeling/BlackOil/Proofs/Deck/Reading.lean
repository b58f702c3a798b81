import BlackOil.Deck.Reader
import BlackOil.Proofs.Deck.Lines
import BlackOil.Proofs.Outcome

/-!
# Reading in parts

A reader only adds to its blocks: what it does with a token depends on where it stands and
not on what it has finished before. Where a reader may stop, a token that cannot stand in
a record finds it as if nothing had been read. So the blocks of two sequences of tokens of
which the second does not begin inside a record are those of the two parts.
-/
namespace BlackOil
variable {α : Type} [Scalar α]

namespace Reader

omit [Scalar α] in
/-- The reader with more blocks in front of its own. -/
def after (front : Array (Block α)) (r : Reader α) : Reader α := ⟨front ++ r.blocks, r.place⟩

omit [Scalar α] in
theorem openKeyword_after (front blocks : Array (Block α)) (token : Token) :
    openKeyword (front ++ blocks) token = after front <$> openKeyword blocks token := by
  unfold openKeyword
  split
  · split <;> rfl
  · rfl

theorem stepTable_after (constants : Constants α) (front blocks : Array (Block α))
    (t : OpenTables α) (values : Array α) (token : Token) :
    stepTable constants (front ++ blocks) t values token =
      after front <$> stepTable constants blocks t values token := by
  unfold stepTable
  split
  · rfl
  · cases (recordItem t.keyword.name token : Except Fault (Array α)) <;> rfl

/-- A step does not depend on the blocks that are finished. -/
theorem step_after (constants : Constants α) (front : Array (Block α)) (r : Reader α)
    (token : Token) :
    step constants (r.after front) token = after front <$> step constants r token := by
  obtain ⟨blocks, place⟩ := r
  unfold step
  cases place with
  | outside => exact openKeyword_after front blocks token
  | record keyword values =>
    simp only [after]
    split
    · cases keyword.block constants values with
      | error fault => rfl
      | ok block => simp [bind, Except.bind, Functor.map, Except.map, pure, Except.pure, after]
    · cases (recordItem keyword.name token : Except Fault (Array α)) <;> rfl
  | betweenRecords t =>
    simp only [after]
    split
    · exact stepTable_after constants front blocks t #[] token
    · rw [← Array.append_push]
      exact openKeyword_after front (blocks.push t.block) token
  | tableRecord t values => exact stepTable_after constants front blocks t values token

theorem foldlM_after (constants : Constants α) (front : Array (Block α)) (tokens : List Token)
    (r : Reader α) : tokens.foldlM (step constants) (r.after front) =
      after front <$> tokens.foldlM (step constants) r := by
  induction tokens generalizing r with
  | nil => rfl
  | cons token tokens ih =>
    rw [List.foldlM_cons, List.foldlM_cons, step_after]
    cases step constants r token with
    | error fault => rfl
    | ok r' => exact ih r'

omit [Scalar α] in
theorem finish_after (front : Array (Block α)) (r : Reader α) :
    (r.after front).finish = (front ++ ·) <$> r.finish := by
  obtain ⟨blocks, place⟩ := r
  cases place with
  | betweenRecords t => simp [finish, after, Functor.map, Except.map]
  | _ => rfl

/-- Where a reader may stop, a token that cannot stand in a record opens a keyword. -/
theorem step_of_finish {constants : Constants α} {r : Reader α} {blocks : Array (Block α)}
    (h : r.finish = .ok blocks) {token : Token} (ht : ¬token.inRecord) :
    step constants r token = openKeyword blocks token := by
  obtain ⟨front, place⟩ := r
  cases place with
  | outside =>
    cases h
    rfl
  | record keyword values => cases h
  | betweenRecords t =>
    cases h
    simp only [step, if_neg ht]
  | tableRecord t values => cases h

end Reader

/-- The blocks of two sequences of tokens, the second of which begins outside a record. -/
theorem Block.ofTokens_append {constants : Constants α} {tokens more : List Token}
    {blocks : Array (Block α)} (h : ofTokens constants tokens = .ok blocks)
    (hmore : ∀ token ∈ more.head?, ¬token.inRecord) :
    ofTokens constants (tokens ++ more) = (blocks ++ ·) <$> ofTokens constants more := by
  obtain ⟨r, hr, hfinish⟩ := Outcome.bind_eq_ok_iff.mp h
  have hstart : ofTokens constants (tokens ++ more) =
      more.foldlM (Reader.step constants) r >>= Reader.finish := by
    rw [ofTokens, List.foldlM_append, hr]
    rfl
  rw [hstart]
  cases more with
  | nil =>
    have hempty : (blocks ++ ·) <$> ofTokens constants [] = .ok (blocks ++ #[]) := rfl
    rw [hempty, Array.append_empty]
    exact hfinish
  | cons token more =>
    have hstep : Reader.step constants r token =
        Reader.after blocks <$> Reader.step constants {} token := by
      rw [Reader.step_of_finish hfinish (hmore token rfl)]
      exact Reader.openKeyword_after blocks #[] token
    rw [ofTokens, List.foldlM_cons, List.foldlM_cons, hstep]
    cases Reader.step constants {} token with
    | error fault => rfl
    | ok r' =>
      change more.foldlM (Reader.step constants) (r'.after blocks) >>= Reader.finish =
        (blocks ++ ·) <$> (more.foldlM (Reader.step constants) r' >>= Reader.finish)
      rw [Reader.foldlM_after]
      cases more.foldlM (Reader.step constants) r' with
      | error fault => rfl
      | ok last => exact Reader.finish_after blocks last

end BlackOil
