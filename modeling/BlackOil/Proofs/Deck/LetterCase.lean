import BlackOil.Deck.Reader
import BlackOil.Proofs.Deck.Lines
import BlackOil.Proofs.Deck.Scanning
import BlackOil.Proofs.Outcome
import BlackOil.Scalar.Exact

/-!
# Letter case

A deck text means the same in letters of either case. A text is cut in the same places when
its capitals become small letters, since no letter is a break, a blank, a slash, a quote or a
dash, and each token goes on to stand for the same number or to introduce the same thing. Only
the token that a fault quotes shows how it was written.
-/
namespace BlackOil
namespace Text

/-- The letters that have another lower case. -/
def capitals : List Char := (List.range 26).map fun i => Char.ofNat (65 + i)

theorem toLower_of_not_mem {c : Char} (h : c ∉ capitals) : c.toLower = c := by
  unfold Char.toLower
  split
  · rename_i hc
    have hge : 65 ≤ c.toNat := UInt32.le_iff_toNat_le.mp hc.1
    have hle : c.toNat ≤ 90 := UInt32.le_iff_toNat_le.mp hc.2
    refine absurd (List.mem_map.mpr ⟨c.toNat - 65, List.mem_range.mpr (by omega), ?_⟩) h
    rw [Nat.add_sub_cancel' hge, Char.ofNat_toNat]
  · rfl

theorem toList_toLower (text : String) : text.toLower.toList = text.toList.map Char.toLower :=
  String.toList_map

/-- What does not tell the capitals from their lower case does not tell any character from
its own. -/
theorem apply_toLower {β : Type} [DecidableEq β] {f : Char → β}
    (h : capitals.all fun c => f c.toLower = f c) (c : Char) : f c.toLower = f c := by
  by_cases hc : c ∈ capitals
  · exact of_decide_eq_true (List.all_eq_true.mp h c hc)
  · rw [toLower_of_not_mem hc]

theorem toLower_toLower (c : Char) : c.toLower.toLower = c.toLower :=
  apply_toLower (f := Char.toLower) (by decide) c

theorem isLineBreak_toLower (c : Char) : isLineBreak c.toLower = isLineBreak c :=
  apply_toLower (by decide) c

theorem isBlank_toLower (c : Char) : isBlank c.toLower = isBlank c :=
  apply_toLower (by decide) c

theorem decimalDigit?_toLower (c : Char) : decimalDigit? c.toLower = decimalDigit? c :=
  apply_toLower (by decide) c

theorem upperChar_toLower (c : Char) : upperChar c.toLower = upperChar c :=
  apply_toLower (by decide +kernel) c

/-- The character is neither a capital nor the lower case of one. -/
def Caseless (d : Char) : Prop := ∀ c ∈ capitals, c ≠ d ∧ c.toLower ≠ d

instance (d : Char) : Decidable (Caseless d) :=
  List.decidableBAll (fun c => c ≠ d ∧ c.toLower ≠ d) capitals

theorem Caseless.toLower_eq_iff {d : Char} (hd : Caseless d) {c : Char} :
    c.toLower = d ↔ c = d := by
  by_cases hc : c ∈ capitals
  · exact iff_of_false (hd c hc).2 (hd c hc).1
  · rw [toLower_of_not_mem hc]

theorem Caseless.mem_map_toLower_iff {d : Char} (hd : Caseless d) {text : List Char} :
    d ∈ text.map Char.toLower ↔ d ∈ text := by
  simp only [List.mem_map, hd.toLower_eq_iff, exists_eq_right]

/-- Small letters make no pair of two such characters that was none. -/
theorem not_pair_map_toLower {d e : Char} (hd : Caseless d) (he : Caseless e) {c : Char}
    {rest : List Char} (hne : ∀ tail, c = d → rest = e :: tail → False) :
    ∀ tail, c.toLower = d → rest.map Char.toLower = e :: tail → False := by
  intro tail hc hrest
  obtain ⟨c', rest, rfl, hc', -⟩ := List.map_eq_cons_iff.mp hrest
  rw [hd.toLower_eq_iff] at hc
  rw [he.toLower_eq_iff] at hc'
  exact hne rest hc (hc' ▸ rfl)

theorem map_consLine (f : Char → Char) (c : Char) (lines : List (List Char)) :
    (consLine c lines).map (List.map f) = consLine (f c) (lines.map (List.map f)) := by
  cases lines <;> rfl

theorem lines_map_toLower (text : List Char) :
    lines (text.map Char.toLower) = (lines text).map (List.map Char.toLower) := by
  have hcr : Caseless '\r' := by decide
  have hlf : Caseless '\n' := by decide
  induction text using lines.induct with
  | case1 => rfl
  | case2 rest ih =>
    rw [lines_crlf, List.map_cons (f := List.map Char.toLower), ← ih]
    exact lines_crlf (rest.map Char.toLower)
  | case3 c rest hne hc ih =>
    rw [List.map_cons, lines_cons (not_pair_map_toLower hcr hlf hne), lines_cons hne,
      isLineBreak_toLower, if_pos hc, if_pos hc, ih, List.map_cons, List.map_nil]
  | case4 c rest hne hc ih =>
    rw [List.map_cons, lines_cons (not_pair_map_toLower hcr hlf hne), lines_cons hne,
      isLineBreak_toLower, if_neg hc, if_neg hc, ih, map_consLine]

end Text
open Text

namespace Token

/-- The token in small letters. -/
def lower (t : Token) : Token := ⟨t.text.map Char.toLower, t.inColumnOne⟩

theorem isWordChar_toLower (c : Char) : isWordChar c.toLower = isWordChar c :=
  apply_toLower (by decide) c

theorem isQuote_toLower (c : Char) : isQuote c.toLower = isQuote c :=
  apply_toLower (by decide) c

theorem caseless_of_isQuote {c : Char} (h : isQuote c) : Caseless c := by
  rcases Bool.or_eq_true_iff.mp h with hc | hc <;> rw [eq_of_beq hc] <;> decide

theorem uncommented_map_toLower (line : List Char) :
    uncommented (line.map Char.toLower) = (uncommented line).map Char.toLower := by
  have hdash : Caseless '-' := by decide
  induction line using uncommented.induct with
  | case1 => rfl
  | case2 rest => rfl
  | case3 c rest hne ih =>
    have hsmall := not_pair_map_toLower hdash hdash hne
    simp only [List.map_cons, uncommented, ih]

theorem Begins.map_toLower {text tail : List Char} (h : Begins text tail) :
    Begins (text.map Char.toLower) (tail.map Char.toLower) := by
  cases h with
  | @quoted c body quote unquoted =>
    have hcase := caseless_of_isQuote quote
    rw [List.map_cons, List.map_append, List.map_singleton, hcase.toLower_eq_iff.mpr rfl]
    exact .quoted quote (fun hmem => unquoted (hcase.mem_map_toLower_iff.mp hmem)) _
  | @word c body tail unpaired inside ends =>
    refine .word ?_ ?_ ?_
    · intro hc
      rw [isQuote_toLower] at hc
      have hcase := caseless_of_isQuote hc
      rw [hcase.toLower_eq_iff.mpr rfl, ← List.map_append, hcase.mem_map_toLower_iff]
      exact unpaired hc
    · rw [← List.map_cons, List.forall_mem_map]
      intro d hd
      rw [isWordChar_toLower]
      exact inside d hd
    · intro d hd
      rw [List.head?_map] at hd
      obtain ⟨e, he, rfl⟩ := Option.map_eq_some_iff.mp hd
      rw [isWordChar_toLower]
      exact ends e he

theorem scan_map_toLower (inColumnOne : Bool) (line : List Char) :
    scan inColumnOne (line.map Char.toLower) = (scan inColumnOne line).map lower := by
  induction line using line_induction generalizing inColumnOne with
  | nil => rw [List.map_nil, scan_nil, List.map_nil]
  | blank c rest hc ih =>
    rw [List.map_cons, scan_blank (by rwa [isBlank_toLower]), scan_blank hc, ih]
  | slash rest =>
    rw [List.map_cons, scan_slash]
    exact scan_slash _ _
  | token text tail hbegins ih =>
    rw [List.map_append, scan_begins hbegins.map_toLower, scan_begins hbegins, ih]
    rfl

theorem ofText_map_toLower (text : List Char) :
    ofText (text.map Char.toLower) = (ofText text).map lower := by
  simp only [ofText, lines_map_toLower, List.flatMap_map, List.map_flatMap,
    uncommented_map_toLower, scan_map_toLower]

end Token

namespace Numeral

theorem readSign_cons (c : Char) (rest : List Char) : readSign (c :: rest) =
    if c = '-' then (true, rest) else if c = '+' then (false, rest) else (false, c :: rest) := by
  unfold readSign
  split
  · rename_i he
    cases he
    rfl
  · rename_i he
    cases he
    rfl
  · rename_i hm hp
    rw [if_neg (hm rest <| congrArg (· :: rest) ·), if_neg (hp rest <| congrArg (· :: rest) ·)]

theorem readSign_map_toLower (text : List Char) :
    readSign (text.map Char.toLower) = (readSign text).map id (List.map Char.toLower) := by
  have hminus : Caseless '-' := by decide
  have hplus : Caseless '+' := by decide
  cases text with
  | nil => rfl
  | cons c rest =>
    rw [List.map_cons, readSign_cons, readSign_cons]
    simp only [hminus.toLower_eq_iff, hplus.toLower_eq_iff]
    split
    · rfl
    · split <;> rfl

theorem readDigits_cons (value count : Nat) (c : Char) (rest : List Char) :
    readDigits value count (c :: rest) =
      match decimalDigit? c with
      | some d => readDigits (10 * value + d) (count + 1) rest
      | none =>
        if c = '_' ∧ 0 < count ∧ rest.head?.any fun d => (decimalDigit? d).isSome then
          readDigits value count rest
        else (value, count, c :: rest) := by
  rw [readDigits.eq_def]
  dsimp only
  cases decimalDigit? c with
  | some d => rfl
  | none =>
    dsimp only
    split
    · simp
    · rename_i hne
      rw [if_neg]
      rintro ⟨rfl, -, hrest⟩
      cases rest with
      | nil => cases hrest
      | cons d rest => exact hne d rest rfl rfl

theorem readDigits_map_toLower (value count : Nat) (text : List Char) :
    readDigits value count (text.map Char.toLower) =
      (readDigits value count text).map id (Prod.map id (List.map Char.toLower)) := by
  have hbar : Caseless '_' := by decide
  induction text generalizing value count with
  | nil => rfl
  | cons c rest ih =>
    rw [List.map_cons, readDigits_cons, readDigits_cons, decimalDigit?_toLower]
    cases decimalDigit? c with
    | some d => exact ih _ _
    | none =>
      simp only [hbar.toLower_eq_iff, List.head?_map, Option.any_map,
        decimalDigit?_toLower, ih]
      split <;> rfl

theorem readExponent_map_toLower (text : List Char) :
    readExponent (text.map Char.toLower) = readExponent text := by
  have hmark : ∀ c : Char, c.toLower ∈ ['e', 'E', 'd', 'D'] ↔ c ∈ ['e', 'E', 'd', 'D'] :=
    fun c => decide_eq_decide.mp
      (apply_toLower (f := fun c => decide (c ∈ ['e', 'E', 'd', 'D'])) (by decide) c)
  cases text with
  | nil => rfl
  | cons c rest =>
    rw [List.map_cons]
    simp only [readExponent, hmark, readSign_map_toLower]
    obtain ⟨negative, digits⟩ := readSign rest
    simp only [Prod.map_apply, id_eq, readDigits_map_toLower]
    obtain ⟨value, count, more⟩ := readDigits 0 0 digits
    cases more <;> rfl

theorem readMagnitude_map_toLower (negative : Bool) (text : List Char) :
    readMagnitude negative (text.map Char.toLower) = readMagnitude negative text := by
  have hpoint : Caseless '.' := by decide
  have hword : (text.map Char.toLower).map Char.toLower = text.map Char.toLower := by
    simp only [List.map_map, Function.comp_def, toLower_toLower]
  simp only [readMagnitude, hword, readDigits_map_toLower]
  obtain ⟨whole, wholeCount, rest⟩ := readDigits 0 0 text
  simp only [Prod.map_apply, id_eq]
  cases rest with
  | nil => rfl
  | cons c rest =>
    by_cases hc : c = '.'
    · subst hc
      rw [List.map_cons, hpoint.toLower_eq_iff.mpr rfl]
      simp only [readDigits_map_toLower]
      obtain ⟨digits, fractionCount, rest⟩ := readDigits whole 0 rest
      simp only [Prod.map_apply, id_eq, readExponent_map_toLower]
    · have hc' : c.toLower ≠ '.' := mt hpoint.toLower_eq_iff.mp hc
      have hexponent := readExponent_map_toLower (c :: rest)
      rw [List.map_cons] at hexponent
      simp [hc, hc', hexponent]

theorem ofText?_map_toLower (text : List Char) :
    ofText? (text.map Char.toLower) = ofText? text := by
  simp only [ofText?, readSign_map_toLower, Prod.map_fst, Prod.map_snd, id_eq,
    readMagnitude_map_toLower]

end Numeral

namespace Token

theorem digitsValue_map_toLower (digits : List Char) :
    digitsValue (digits.map Char.toLower) = digitsValue digits := by
  simp only [digitsValue, List.foldl_map, decimalDigit?_toLower]

theorem splitRepeat?_map_toLower (text : List Char) :
    splitRepeat? (text.map Char.toLower) =
      (splitRepeat? text).map (Prod.map id (List.map Char.toLower)) := by
  have hstar : Caseless '*' := by decide
  simp only [splitRepeat?, List.takeWhile_map, List.dropWhile_map, Function.comp_def,
    decimalDigit?_toLower]
  cases text.takeWhile fun c => (decimalDigit? c).isSome with
  | nil => rfl
  | cons digit digits =>
    cases text.dropWhile fun c => (decimalDigit? c).isSome with
    | nil => rfl
    | cons c value =>
      rw [List.map_cons, List.map_cons]
      by_cases hc : c = '*'
      · subst hc
        have hvalue := digitsValue_map_toLower (digit :: digits)
        rw [List.map_cons] at hvalue
        simp [hstar.toLower_eq_iff.mpr rfl, hvalue]
      · have hc' : c.toLower ≠ '*' := mt hstar.toLower_eq_iff.mp hc
        simp [hc, hc']

/-- Small letters keep the number that a token stands for. -/
theorem number?_lower (token : Token) : token.lower.number? = token.number? := by
  simp only [number?, lower, splitRepeat?_map_toLower, Numeral.ofText?_map_toLower]
  cases splitRepeat? token.text with
  | none => rfl
  | some pair =>
    obtain ⟨count, value⟩ := pair
    cases value with
    | nil => rfl
    | cons c value =>
      exact congrArg (Option.map (count, ·)) (Numeral.ofText?_map_toLower (c :: value))

theorem isSlash_lower (token : Token) : token.lower.isSlash = token.isSlash := by
  have hslash : Caseless '/' := by decide
  rw [Bool.eq_iff_iff]
  simp only [isSlash, lower, beq_iff_eq, List.map_eq_singleton_iff, hslash.toLower_eq_iff,
    exists_eq_right]

theorem inRecord_lower (token : Token) : token.lower.inRecord = token.inRecord := by
  rw [inRecord, inRecord, isSlash_lower, number?_lower]

end Token

theorem Keyword.ofText_map_toLower (text : List Char) :
    ofText (text.map Char.toLower) = ofText text := by
  simp only [ofText, upper, String.toList_ofList, List.flatMap_map, upperChar_toLower]

variable {α : Type} [Scalar α] {constants : Constants α}

theorem alike_recordItem_lower (keyword : String) (token : Token) :
    Outcome.Alike Fault.kind (recordItem keyword token : Except Fault (Array α))
      (recordItem keyword token.lower) := by
  simp only [recordItem, Token.number?_lower]
  cases token.number? with
  | none => exact .error rfl
  | some number => exact .refl _

namespace Reader

omit [Scalar α] in
theorem openKeyword_lower (blocks : Array (Block α)) (token : Token) :
    openKeyword blocks token.lower = openKeyword blocks token := by
  simp only [openKeyword, Token.lower, Keyword.ofText_map_toLower]

theorem alike_stepTable_lower (blocks : Array (Block α)) (t : OpenTables α) (values : Array α)
    (token : Token) : Outcome.Alike Fault.kind (stepTable constants blocks t values token)
      (stepTable constants blocks t values token.lower) := by
  rw [stepTable, stepTable, Token.isSlash_lower]
  split
  · exact .refl _
  · exact (alike_recordItem_lower t.keyword.name token).bind fun items => .refl _

/-- A step takes a token in small letters as it takes the token itself. -/
theorem alike_step_lower (r : Reader α) (token : Token) :
    Outcome.Alike Fault.kind (step constants r token) (step constants r token.lower) := by
  obtain ⟨blocks, place⟩ := r
  unfold step
  cases place with
  | outside =>
    rw [openKeyword_lower]
    exact .refl _
  | record keyword values =>
    dsimp only
    rw [Token.isSlash_lower]
    split
    · exact .refl _
    · exact (alike_recordItem_lower keyword.name token).bind fun items => .refl _
  | betweenRecords t =>
    dsimp only
    rw [Token.inRecord_lower, openKeyword_lower]
    split
    · exact alike_stepTable_lower blocks t #[] token
    · exact .refl _
  | tableRecord t values => exact alike_stepTable_lower blocks t values token

end Reader

namespace Deck

theorem alike_parse_toLower (text : String) :
    Outcome.Alike Fault.kind (parse constants text) (parse constants text.toLower) := by
  have htokens : Token.ofText text.toLower.toList = (Token.ofText text.toList).map Token.lower := by
    rw [Text.toList_toLower, Token.ofText_map_toLower]
  rw [parse, parse, Block.ofTokens, Block.ofTokens, htokens]
  have hrun : Outcome.Alike Fault.kind
      ((Token.ofText text.toList).foldlM (Reader.step constants) {})
      (((Token.ofText text.toList).map Token.lower).foldlM (Reader.step constants) {}) :=
    .foldlM_map Token.lower Reader.alike_step_lower _ _
  exact (hrun.bind fun r => .refl _).bind fun blocks => .refl _

/-- Texts that differ in the case of letters alone give the same deck or faults of one kind. -/
theorem parse_recased {text text' : String} (h : text.toLower = text'.toLower) :
    Outcome.Alike Fault.kind (parse constants text) (parse constants text') := by
  have hsmall :
      Outcome.Alike Fault.kind (parse constants text) (parse constants text'.toLower) := by
    rw [← h]
    exact alike_parse_toLower text
  exact hsmall.trans (alike_parse_toLower text').symm

theorem parse_recased_dimens :
    "DIMENS -- D\n 2 1D0 1 /\n".toLower = "Dimens -- d\n 2 1d0 1 /\n".toLower ∧
    ∃ deck : Deck Exact, parse {} "DIMENS -- D\n 2 1D0 1 /\n" = .ok deck ∧
      parse {} "Dimens -- d\n 2 1d0 1 /\n" = .ok deck := by
  have hlower :
      "DIMENS -- D\n 2 1D0 1 /\n".toLower = "Dimens -- d\n 2 1d0 1 /\n".toLower := by
    rw [← String.toList_inj, Text.toList_toLower, Text.toList_toLower]
    decide
  have hsome : (parse {} "DIMENS -- D\n 2 1D0 1 /\n" :
      Except Fault (Deck Exact)).toOption.isSome := by
    decide +kernel
  obtain ⟨deck, hdeck⟩ := Outcome.exists_ok_of_isSome hsome
  exact ⟨hlower, deck, hdeck, (parse_recased hlower).eq_ok hdeck⟩

end Deck
end BlackOil
