import BlackOil.Proofs.Deck.Tables

/-!
# Faults of deck texts

What a deck text can be refused for. A fault of a deck names what is wrong with the text or
with the deck that it gives. The reader reports everything in this way but for one thing: it
truncates the three items of `DIMENS` to integers without a look at them, and for an item that
has been defaulted or is infinite, the fault is that of the truncation.
-/
namespace BlackOil
variable {α : Type}

/-- Whether a fault is one of a deck text or of a deck. -/
def Fault.IsDeckFault (fault : Fault) : Prop := fault.kind = .deckText ∨ fault.kind = .validation

instance (fault : Fault) : Decidable fault.IsDeckFault :=
  inferInstanceAs (Decidable (_ ∨ _))

/-- What a keyword with a single record is introduced by. -/
def RecordKeyword.keyword : RecordKeyword → Keyword
  | dimensions => .dimensions
  | cells name => .cells name

variable [Scalar α] {constants : Constants α}

namespace Reader
variable {blocks blocks' : Array (Block α)} {keyword : RecordKeyword} {values : Array α}
  {token : Token} {fault : Fault}

omit [Scalar α] in
/-- A token outside records that opens a single record is its keyword. -/
theorem of_openKeyword_eq_record
    (h : openKeyword blocks token = .ok ⟨blocks', .record keyword values⟩) :
    token.inColumnOne ∧ Keyword.ofText token.text = keyword.keyword ∧ blocks' = blocks ∧
      values = #[] := by
  unfold openKeyword at h
  split at h
  · rename_i hcolumn
    refine ⟨hcolumn, ?_⟩
    split at h
    · rename_i hkeyword
      cases h
      exact ⟨hkeyword, rfl, rfl⟩
    · rename_i name hkeyword
      cases h
      exact ⟨hkeyword, rfl, rfl⟩
    · cases h
    · cases h
    · cases h
  · cases h

theorem stepTable_ne_record {t : OpenTables α} {seen : Array α} :
    stepTable constants blocks t seen token ≠ .ok ⟨blocks', .record keyword values⟩ := by
  unfold stepTable
  split
  · intro h
    cases h
  · intro h
    obtain ⟨items, -, h⟩ := Outcome.bind_eq_ok_iff.mp h
    cases h

theorem of_recordItem_eq_ok {name : String} {items : Array α}
    (h : recordItem name token = .ok items) :
    token.number?.isSome ∧ items = token.expansion.toArray := by
  have hnumber : token.number?.isSome := by
    unfold recordItem at h
    split at h
    · rename_i hnumber
      rw [hnumber]
      rfl
    · cases h
  rw [recordItem_of_number hnumber, Except.ok.injEq] at h
  exact ⟨hnumber, h.symm⟩

/-- A reader that stands in a single record has just read its keyword or one more number. -/
theorem of_step_eq_record {r : Reader α}
    (h : step constants r token = .ok ⟨blocks, .record keyword values⟩) :
    (r.finish = .ok blocks ∧ token.inColumnOne ∧ Keyword.ofText token.text = keyword.keyword ∧
      values = #[]) ∨
    ∃ seen, r = ⟨blocks, .record keyword seen⟩ ∧ token.number?.isSome ∧
      values = seen ++ token.expansion.toArray := by
  obtain ⟨front, place⟩ := r
  cases place with
  | outside =>
    obtain ⟨hcolumn, hkeyword, rfl, rfl⟩ := of_openKeyword_eq_record h
    exact .inl ⟨rfl, hcolumn, hkeyword, rfl⟩
  | record keyword seen =>
    right
    unfold step at h
    dsimp only at h
    split at h
    · obtain ⟨block, -, h⟩ := Outcome.bind_eq_ok_iff.mp h
      cases h
    · obtain ⟨items, hitems, h⟩ := Outcome.bind_eq_ok_iff.mp h
      cases h
      obtain ⟨hnumber, rfl⟩ := of_recordItem_eq_ok hitems
      exact ⟨seen, rfl, hnumber, rfl⟩
  | betweenRecords t =>
    unfold step at h
    dsimp only at h
    split at h
    · exact absurd h stepTable_ne_record
    · obtain ⟨hcolumn, hkeyword, rfl, rfl⟩ := of_openKeyword_eq_record h
      exact .inl ⟨rfl, hcolumn, hkeyword, rfl⟩
  | tableRecord t seen => exact absurd h stepTable_ne_record

/-- A run that ends in a single record has read its keyword where a reader may stop, and after
it the numbers of the record. -/
theorem exists_of_foldlM_eq_record {tokens : List Token}
    (h : tokens.foldlM (step constants) {} = .ok ⟨blocks, .record keyword values⟩) :
    ∃ before word items, tokens = before ++ word :: items ∧
      Block.ofTokens constants before = .ok blocks ∧ word.inColumnOne ∧
      Keyword.ofText word.text = keyword.keyword ∧ (∀ item ∈ items, item.number?.isSome) ∧
      values = (items.flatMap Token.expansion).toArray := by
  -- the last token was either the keyword, or a number in a record that was open before it
  induction tokens using List.reverseRecOn generalizing values with
  | nil => cases h
  | append_singleton tokens token ih =>
    rw [List.foldlM_append] at h
    obtain ⟨r, hr, h⟩ := Outcome.bind_eq_ok_iff.mp h
    rw [List.foldlM_cons] at h
    obtain ⟨last, hlast, h⟩ := Outcome.bind_eq_ok_iff.mp h
    cases h
    rcases of_step_eq_record hlast with
      ⟨hfinish, hcolumn, hkeyword, rfl⟩ | ⟨seen, rfl, hnumber, rfl⟩
    · refine ⟨tokens, token, [], rfl, ?_, hcolumn, hkeyword, List.forall_mem_nil _, rfl⟩
      rw [Block.ofTokens, hr]
      exact hfinish
    · obtain ⟨before, word, items, rfl, hbefore, hcolumn, hkeyword, hitems, rfl⟩ := ih hr
      refine ⟨before, word, items ++ [token], ?_, hbefore, hcolumn, hkeyword, ?_, ?_⟩
      · rw [List.append_assoc, List.cons_append]
      · intro item hitem
        rcases List.mem_append.mp hitem with hitem | hitem
        · exact hitems item hitem
        · exact List.mem_singleton.mp hitem ▸ hnumber
      · simp

omit [Scalar α] in
theorem failsOnly_openKeyword :
    Outcome.FailsOnly Fault.IsDeckFault (openKeyword blocks token) := by
  unfold openKeyword
  split
  · split
    · exact .of_ok rfl
    · exact .of_ok rfl
    · exact .of_ok rfl
    · exact .of_error (.inl rfl)
    · exact .of_ok rfl
  · exact .of_ok rfl

theorem failsOnly_recordItem (name : String) :
    Outcome.FailsOnly Fault.IsDeckFault (recordItem name token : Except Fault (Array α)) := by
  unfold recordItem
  split
  · exact .of_ok rfl
  · exact .of_error (.inl rfl)

theorem failsOnly_stepTable {t : OpenTables α} :
    Outcome.FailsOnly Fault.IsDeckFault (stepTable constants blocks t values token) := by
  unfold stepTable
  split
  · exact .of_ok rfl
  · exact (failsOnly_recordItem _).bind fun _ _ => .of_ok rfl

omit [Scalar α] in
theorem failsOnly_finish (r : Reader α) : Outcome.FailsOnly Fault.IsDeckFault r.finish := by
  unfold finish
  split
  · exact .of_ok rfl
  · exact .of_error (.inl rfl)
  · exact .of_ok rfl
  · exact .of_error (.inl rfl)

/-- A record is refused as one of a deck, unless it holds three sizes. -/
theorem sizes_of_block_eq_error (h : keyword.block constants values = .error fault)
    (hfault : ¬fault.IsDeckFault) : keyword = .dimensions ∧ values.size = 3 ∧
      values.toList.mapM dimension = .error fault := by
  cases keyword with
  | dimensions =>
    unfold RecordKeyword.block at h
    dsimp only at h
    split at h
    · rename_i hsize
      exact ⟨rfl, hsize, Outcome.map_eq_error_iff.mp h⟩
    · cases h
      exact absurd (.inl rfl) hfault
  | cells name =>
    unfold RecordKeyword.block at h
    dsimp only at h
    split at h
    · cases h
      exact absurd (.inl rfl) hfault
    · cases h

/-- The one step that fails otherwise is the end of a record of sizes. -/
theorem sizes_of_step_eq_error {r : Reader α} (h : step constants r token = .error fault)
    (hfault : ¬fault.IsDeckFault) : ∃ values, r.place = .record .dimensions values ∧
      token.isSlash ∧ values.size = 3 ∧ values.toList.mapM dimension = .error fault := by
  obtain ⟨front, place⟩ := r
  unfold step at h
  cases place with
  | outside => exact absurd (failsOnly_openKeyword fault h) hfault
  | record keyword seen =>
    dsimp only at h
    split at h
    · rename_i hslash
      rcases Outcome.bind_eq_error_iff.mp h with hblock | ⟨block, -, h⟩
      · obtain ⟨rfl, hsize, hsizes⟩ := sizes_of_block_eq_error hblock hfault
        exact ⟨seen, rfl, hslash, hsize, hsizes⟩
      · cases h
    · rcases Outcome.bind_eq_error_iff.mp h with hitem | ⟨items, -, h⟩
      · exact absurd (failsOnly_recordItem _ fault hitem) hfault
      · cases h
  | betweenRecords t =>
    dsimp only at h
    split at h
    · exact absurd (failsOnly_stepTable fault h) hfault
    · exact absurd (failsOnly_openKeyword fault h) hfault
  | tableRecord t seen => exact absurd (failsOnly_stepTable fault h) hfault

end Reader

/-- A size that is undefined or infinite is not reported as one of a deck. -/
theorem not_isDeckFault_of_dimension {value : α} {fault : Fault}
    (h : dimension value = .error fault) : ¬fault.IsDeckFault := by
  unfold dimension at h
  split at h
  · cases h
  · cases h
    decide
  · cases h
    decide

/-- A text with an occurrence of `DIMENS`: its word, its record, and what stands before and
after them. -/
structure DimensionTokens where
  before : List Token
  word : Token
  record : RecordTokens
  rest : List Token
  inColumnOne : word.inColumnOne
  introduces : Keyword.ofText word.text = .dimensions

def DimensionTokens.tokens (o : DimensionTokens) : List Token :=
  o.before ++ o.word :: (o.record.tokens ++ o.rest)

namespace DimensionTokens

/-- The tokens before the word can be read, and the record has three items, but they do not
truncate to integers: the first that does not gives the fault. -/
structure Breaks (o : DimensionTokens) (constants : Constants α) (fault : Fault) : Prop where
  before : ∃ blocks, Block.ofTokens constants o.before = .ok blocks
  length : (o.record.values (α := α)).length = 3
  sizes : (o.record.values (α := α)).mapM dimension = .error fault

namespace Breaks
variable {o : DimensionTokens} {fault : Fault}

/-- Whatever follows, the reading ends with the record. -/
theorem ofTokens_tokens (h : o.Breaks constants fault) :
    Block.ofTokens constants o.tokens = .error fault := by
  obtain ⟨blocks, hbefore⟩ := h.before
  obtain ⟨r, hr, hfinish⟩ := Outcome.bind_eq_ok_iff.mp hbefore
  have hword : Reader.step constants r o.word = .ok ⟨blocks, .record .dimensions #[]⟩ := by
    rw [Reader.step_of_finish hfinish (Keyword.not_inRecord_of_dimensions o.introduces),
      Reader.openKeyword, if_pos o.inColumnOne, o.introduces]
  have hslash : Reader.step constants
      ⟨blocks, .record .dimensions (o.record.values (α := α)).toArray⟩ o.record.slash =
        .error fault := by
    simp only [Reader.step, if_pos o.record.ends, RecordKeyword.block, List.size_toArray,
      if_pos h.length, h.sizes]
    rfl
  have hrun : o.tokens.foldlM (Reader.step constants) {} = .error fault := by
    refine Outcome.foldlM_eq_error_iff.mpr ⟨o.before ++ o.word :: o.record.items, o.record.slash,
      o.rest, _, ?_, ?_, hslash⟩
    · simp [tokens, RecordTokens.tokens]
    · rw [List.foldlM_append, hr, Outcome.ok_bind, List.foldlM_cons, hword, Outcome.ok_bind,
        Reader.foldlM_singleItems o.record.numbers, Array.empty_append]
      rfl
  rw [Block.ofTokens, hrun]
  rfl

theorem not_isDeckFault (h : o.Breaks constants fault) : ¬fault.IsDeckFault := by
  obtain ⟨value, -, hvalue⟩ := Outcome.exists_of_mapM_eq_error h.sizes
  exact not_isDeckFault_of_dimension hvalue

end Breaks
end DimensionTokens

/-- Reading tokens fails otherwise only for the items of a `DIMENS`. -/
theorem Block.exists_breaks {tokens : List Token} {fault : Fault}
    (h : ofTokens constants tokens = .error fault) (hfault : ¬fault.IsDeckFault) :
    ∃ o : DimensionTokens, tokens = o.tokens ∧ o.Breaks constants fault := by
  rcases Outcome.bind_eq_error_iff.mp h with hrun | ⟨r, -, hfinish⟩
  · obtain ⟨read, slash, rest, ⟨blocks, place⟩, rfl, hread, hstep⟩ :=
      Outcome.foldlM_eq_error_iff.mp hrun
    obtain ⟨values, hplace, hslash, hsize, hsizes⟩ := Reader.sizes_of_step_eq_error hstep hfault
    cases hplace
    obtain ⟨before, word, items, rfl, hbefore, hcolumn, hkeyword, hitems, rfl⟩ :=
      Reader.exists_of_foldlM_eq_record hread
    refine ⟨⟨before, word, ⟨items, slash, hitems, hslash⟩, rest, hcolumn, hkeyword⟩, ?_,
      ⟨blocks, hbefore⟩, hsize, hsizes⟩
    simp [DimensionTokens.tokens, RecordTokens.tokens]
  · exact absurd (Reader.failsOnly_finish r fault hfinish) hfault

namespace Deck

theorem failsOnly_ofBlocks (blocks : List (Block α)) :
    Outcome.FailsOnly Fault.IsDeckFault (ofBlocks blocks) := by
  rw [ofBlocks_eq]
  unfold ofCatalogs
  split
  · exact .of_ok rfl
  · split
    · exact .of_error (.inr rfl)
    · split
      · exact .of_error (.inr rfl)
      · exact .of_ok rfl

/-- A text is read to a deck, or refused with a fault of a deck, unless it comes to a `DIMENS`
with three items of which one is undefined or infinite. -/
theorem parse_eq_error_not_isDeckFault_iff {text : String} {fault : Fault} :
    (parse constants text = .error fault ∧ ¬fault.IsDeckFault) ↔
      ∃ o : DimensionTokens, Token.ofText text.toList = o.tokens ∧ o.Breaks constants fault := by
  constructor
  · intro h
    obtain ⟨h, hfault⟩ := h
    rcases Outcome.bind_eq_error_iff.mp h with htokens | ⟨blocks, -, hblocks⟩
    · exact Block.exists_breaks htokens hfault
    · exact absurd (failsOnly_ofBlocks _ fault hblocks) hfault
  · intro h
    obtain ⟨o, htext, hbreaks⟩ := h
    refine ⟨?_, hbreaks.not_isDeckFault⟩
    rw [parse, htext, hbreaks.ofTokens_tokens]
    rfl

/-- A defaulted size is not reported as a fault of the deck. -/
theorem not_forall_isDeckFault : ¬∀ (text : String) (fault : Fault),
    (parse {} text : Except Fault (Deck Exact)) = .error fault → fault.IsDeckFault := by
  intro h
  have hparse : (fun _ => ()) <$> (parse {} "DIMENS\n 1* 1 1 /\n" : Except Fault (Deck Exact)) =
      .error .undefinedDimension := by
    decide +kernel
  have hfault := h _ _ (Outcome.map_eq_error_iff.mp hparse)
  revert hfault
  decide

end Deck
end BlackOil
