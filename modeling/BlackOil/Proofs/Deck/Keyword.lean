import BlackOil.Deck.Reader
import Mathlib.Tactic.ByContra

/-!
# Keywords and numbers

No word that introduces something reads as a number or as a slash. A number begins with a
digit, a sign, a point or a letter of the words that stand for numbers, and in upper case none
of these begins such a word. The exception is `NTG`, which begins like `nan` but goes on with
another letter.
-/
namespace BlackOil
open Text

theorem eq_or_of_toLower_eq {c d : Char} (h : c.toLower = d) :
    c = d ∨ c = Char.ofNat (d.toNat - 32) := by
  subst h
  unfold Char.toLower
  split
  · rename_i hc
    right
    have hle : c.val.toNat ≤ 90 := UInt32.le_iff_toNat_le.mp hc.2
    have hadd : (c.val + 32).toNat = c.toNat + 32 := by
      rw [UInt32.toNat_add]
      apply Nat.mod_eq_of_lt
      change c.val.toNat + 32 < 4294967296
      omega
    change c = Char.ofNat ((c.val + 32).toNat - 32)
    rw [hadd, Nat.add_sub_cancel, Char.ofNat_toNat]
  · exact Or.inl rfl

theorem upperChar_of_decimalDigit {c : Char} (h : (decimalDigit? c).isSome) :
    upperChar c = [c] := by
  -- the ten digits of a script lie between two runs of letters
  have hsequences : decimalZeros.all fun least => upperSequences.all fun pair =>
      pair.1.blt least || (least + 10).ble pair.1 := by
    decide +kernel
  have hruns : decimalZeros.all fun least => upperRuns.all fun run =>
      run.last.blt least || (least + 10).ble run.first := by
    decide +kernel
  rw [decimalDigit?, Option.isSome_map, List.find?_isSome] at h
  obtain ⟨least, hleast, hrange⟩ := h
  rw [Bool.and_eq_true, decide_eq_true_eq, decide_eq_true_eq] at hrange
  have hlookup : upperSequences.lookup c.toNat = none := by
    rw [List.lookup_eq_none_iff]
    intro pair hpair
    rw [bne_iff_ne]
    have hclear := List.all_eq_true.mp (List.all_eq_true.mp hsequences least hleast) pair hpair
    rw [Bool.or_eq_true, Nat.blt_eq, Nat.ble_eq] at hclear
    omega
  have hfind : upperRuns.find? (·.covers c.toNat) = none := by
    rw [List.find?_eq_none]
    intro run hrun hcovers
    have hclear := List.all_eq_true.mp (List.all_eq_true.mp hruns least hleast) run hrun
    rw [Bool.or_eq_true, Nat.blt_eq, Nat.ble_eq] at hclear
    simp only [UpperRun.covers, Bool.and_eq_true, decide_eq_true_eq] at hcovers
    omega
  unfold upperChar
  rw [hlookup, hfind]

namespace Numeral

/-- The characters other than digits with which a number or a slash may begin. -/
def marks : List Char := ['/', '+', '-', '.', 'n', 'N', 'i', 'I']

theorem readDigits_of_not_digit {c : Char} (hc : decimalDigit? c = none) (value : Nat)
    (rest : List Char) : readDigits value 0 (c :: rest) = (value, 0, c :: rest) := by
  unfold readDigits
  rw [hc]
  split
  · rename_i he
    cases he
  · split
    · exact if_neg fun hlt => Nat.lt_irrefl 0 hlt.1
    · rfl

theorem readSign_of_not_mark {c : Char} (hc : c ∉ marks) (rest : List Char) :
    readSign (c :: rest) = (false, c :: rest) := by
  unfold readSign
  split
  · rename_i he
    cases he
    exact absurd (by decide) hc
  · rename_i he
    cases he
    exact absurd (by decide) hc
  · rfl

theorem lower_ne_of_not_mark {c : Char} (hc : c ∉ marks) (rest : List Char) {d : Char}
    (hd : d ∈ marks) (hupper : Char.ofNat (d.toNat - 32) ∈ marks) (word : List Char) :
    String.ofList ((c :: rest).map Char.toLower) ≠ String.ofList (d :: word) := by
  intro h
  have hlower : c.toLower = d := (List.cons.inj (String.ofList_injective h)).1
  rcases eq_or_of_toLower_eq hlower with hcd | hcd
  · exact hc (hcd ▸ hd)
  · exact hc (hcd ▸ hupper)

theorem head_of_ofText? {c : Char} {rest : List Char} (h : (ofText? (c :: rest)).isSome) :
    c ∈ marks ∨ (decimalDigit? c).isSome := by
  by_contra hnot
  obtain ⟨hmark, hdigit⟩ := not_or.mp hnot
  rw [Option.not_isSome_iff_eq_none] at hdigit
  have hn := lower_ne_of_not_mark hmark rest (d := 'n') (by decide) (by decide)
  have hi := lower_ne_of_not_mark hmark rest (d := 'i') (by decide) (by decide)
  have hinf := not_or.mpr ⟨hi ['n', 'f'], hi ['n', 'f', 'i', 'n', 'i', 't', 'y']⟩
  unfold ofText? at h
  rw [readSign_of_not_mark hmark] at h
  simp only [readMagnitude] at h
  rw [if_neg (hn ['a', 'n']), if_neg hinf, readDigits_of_not_digit hdigit] at h
  split at h
  · rename_i hpoint
    cases hpoint
    exact absurd (by decide) hmark
  · cases h

/-- The only number that begins like `NTG` is `nan`. -/
theorem lower_of_ofText? {c : Char} {rest : List Char} (hc : c = 'n' ∨ c = 'N')
    (h : (ofText? (c :: rest)).isSome) : (c :: rest).map Char.toLower = ['n', 'a', 'n'] := by
  have hsign : readSign (c :: rest) = (false, c :: rest) := by
    rcases hc with rfl | rfl <;> rfl
  have hdigit : decimalDigit? c = none := by
    rcases hc with rfl | rfl <;> decide
  have hpoint : c ≠ '.' := by
    rcases hc with rfl | rfl <;> decide
  have hinf : ∀ word,
      String.ofList ((c :: rest).map Char.toLower) ≠ String.ofList ('i' :: word) := by
    intro word he
    have hlower : c.toLower = 'i' := (List.cons.inj (String.ofList_injective he)).1
    rcases hc with rfl | rfl <;> exact absurd hlower (by decide)
  by_contra hnan
  have hword : String.ofList ((c :: rest).map Char.toLower) ≠ String.ofList ['n', 'a', 'n'] :=
    fun he => hnan (String.ofList_injective he)
  have hwords := not_or.mpr ⟨hinf ['n', 'f'], hinf ['n', 'f', 'i', 'n', 'i', 't', 'y']⟩
  unfold ofText? at h
  rw [hsign] at h
  simp only [readMagnitude] at h
  rw [if_neg hword, if_neg hwords, readDigits_of_not_digit hdigit] at h
  split at h
  · rename_i he
    cases he
    exact hpoint rfl
  · cases h

end Numeral

namespace Token

theorem splitRepeat?_of_not_digit {c : Char} (hc : decimalDigit? c = none) (rest : List Char) :
    splitRepeat? (c :: rest) = none := by
  have hnil : (c :: rest).takeWhile (fun c => (decimalDigit? c).isSome) = [] := by
    rw [List.takeWhile_cons, hc]
    rfl
  simp only [splitRepeat?, hnil]

theorem ofText?_of_inRecord {token : Token} {c : Char} {rest : List Char}
    (htext : token.text = c :: rest) (hdigit : decimalDigit? c = none) (hslash : c ≠ '/')
    (h : token.inRecord) : (Numeral.ofText? (c :: rest)).isSome := by
  rcases Bool.or_eq_true_iff.mp h with hrecord | hnumber
  · have hone : c :: rest = ['/'] := htext ▸ eq_of_beq hrecord
    exact absurd (List.cons.inj hone).1 hslash
  · unfold number? at hnumber
    rwa [htext, splitRepeat?_of_not_digit hdigit, Option.isSome_map] at hnumber

/-- A token of a record begins with a digit or with a mark. -/
theorem head_of_inRecord {token : Token} (h : token.inRecord) :
    ∃ c rest, token.text = c :: rest ∧ (c ∈ Numeral.marks ∨ (decimalDigit? c).isSome) := by
  obtain ⟨text, inColumnOne⟩ := token
  rcases Bool.or_eq_true_iff.mp h with hslash | hnumber
  · exact ⟨'/', [], eq_of_beq hslash, Or.inl (by decide)⟩
  · cases text with
    | nil => exact absurd hnumber (by cases inColumnOne <;> decide)
    | cons c rest =>
      refine ⟨c, rest, rfl, ?_⟩
      unfold number? at hnumber
      cases hsplit : splitRepeat? (c :: rest) with
      | none =>
        rw [hsplit, Option.isSome_map] at hnumber
        exact Numeral.head_of_ofText? hnumber
      | some pair =>
        right
        by_contra hdigit
        rw [splitRepeat?_of_not_digit (Option.not_isSome_iff_eq_none.mp hdigit)] at hsplit
        cases hsplit

end Token

namespace TableKeyword

theorem name_injective {keyword keyword' : TableKeyword}
    (h : keyword.name = keyword'.name) : keyword = keyword' := by
  revert h
  cases keyword <;> cases keyword' <;> decide

end TableKeyword

namespace Keyword

/-- The words that introduce something: the keywords that the library uses and the unit
systems that it does not read. -/
def used : List String :=
  unitSystems ++ ("DIMENS" :: (realKeywords ++ wholeKeywords ++
    TableKeyword.all.map TableKeyword.name))

theorem ofName_eq_other_iff {name : String} : ofName name = .other ↔ name ∉ used := by
  constructor
  · intro hother hused
    have hintroduces : ∀ name ∈ used, ofName name ≠ .other := by decide
    exact hintroduces name hused hother
  · intro hname
    simp only [used, List.mem_append, List.mem_cons, not_or] at hname
    obtain ⟨hunits, hdimensions, ⟨hreal, hwhole⟩, htables⟩ := hname
    have hfind : TableKeyword.all.find? (·.name = name) = none := by
      rw [List.find?_eq_none]
      intro keyword hmem hkeyword
      exact htables (List.mem_map.mpr ⟨keyword, hmem, of_decide_eq_true hkeyword⟩)
    rw [ofName, if_neg hunits, if_neg hdimensions, if_neg (not_or.mpr ⟨hreal, hwhole⟩), hfind]

/-- The words begin with letters, and but for `NTG` not with those of numbers. -/
theorem head_of_used {name : String} (hname : name ∈ used) {c : Char} {rest : List Char}
    (hc : name.toList = c :: rest) :
    decimalDigit? c = none ∧ (name ≠ "NTG" → c ∉ Numeral.marks.map Char.toUpper) := by
  have hheads : used.all fun name => name.toList.head?.all fun c =>
      (decimalDigit? c).isNone && (name == "NTG" || c ∉ Numeral.marks.map Char.toUpper) := by
    decide
  have hhead := List.all_eq_true.mp hheads name hname
  rw [hc] at hhead
  simpa [or_iff_not_imp_left] using hhead

theorem upperChar_of_mark {c : Char} (hc : c ∈ Numeral.marks) : upperChar c = [c.toUpper] := by
  simp only [Numeral.marks, List.mem_cons, List.not_mem_nil, or_false] at hc
  rcases hc with rfl | rfl | rfl | rfl | rfl | rfl | rfl | rfl <;> rfl

theorem toList_upper {text rest : List Char} {c : Char} (h : text = c :: rest) :
    (upper (String.ofList text)).toList = upperChar c ++ rest.flatMap upperChar := by
  rw [h, upper, String.toList_ofList, String.toList_ofList, List.flatMap_cons]

/-- A number may begin like `NTG`, but then it is `nan`. -/
theorem upper_ne_ratio {token : Token} (h : token.inRecord) :
    upper (String.ofList token.text) ≠ "NTG" := by
  intro hratio
  obtain ⟨c, rest, htext, hc⟩ := Token.head_of_inRecord h
  have hupper := toList_upper htext
  rw [hratio] at hupper
  rcases hc with hmark | hdigit
  · rw [upperChar_of_mark hmark] at hupper
    have hletter : c = 'n' ∨ c = 'N' := by
      have hmarks : Numeral.marks.filter (·.toUpper = 'N') = ['n', 'N'] := by decide
      have hmem : c ∈ Numeral.marks.filter (·.toUpper = 'N') :=
        List.mem_filter.mpr ⟨hmark, decide_eq_true (List.cons.inj hupper).1.symm⟩
      rw [hmarks] at hmem
      simpa using hmem
    have hnone : decimalDigit? c = none := by
      rcases hletter with rfl | rfl <;> decide
    have hslash : c ≠ '/' := by
      rcases hletter with rfl | rfl <;> decide
    have hnan := Numeral.lower_of_ofText? hletter
      (Token.ofText?_of_inRecord htext hnone hslash h)
    rw [List.map_cons, List.cons.injEq] at hnan
    cases rest with
    | nil => cases hnan.2
    | cons d rest =>
      have hd : d.toLower = 'a' := (List.cons.inj hnan.2).1
      have hsecond : upperChar d = ['A'] := by
        rcases eq_or_of_toLower_eq hd with rfl | rfl <;> rfl
      rw [List.flatMap_cons, hsecond] at hupper
      cases (List.cons.inj (List.cons.inj hupper).2).1
  · rw [upperChar_of_decimalDigit hdigit] at hupper
    cases (List.cons.inj hupper).1
    exact absurd hdigit (by decide)

/-- A number or a slash is no word that the library uses. -/
theorem not_inRecord_of_upper {token : Token}
    (h : upper (String.ofList token.text) ∈ used) : ¬token.inRecord := by
  intro hrecord
  obtain ⟨c, rest, htext, hc⟩ := Token.head_of_inRecord hrecord
  have hupper := toList_upper htext
  rcases hc with hmark | hdigit
  · rw [upperChar_of_mark hmark] at hupper
    exact (head_of_used h hupper).2 (upper_ne_ratio hrecord) (List.mem_map_of_mem hmark)
  · rw [upperChar_of_decimalDigit hdigit] at hupper
    rw [(head_of_used h hupper).1] at hdigit
    cases hdigit

theorem ofText_of_inRecord {token : Token} (h : token.inRecord) : ofText token.text = .other :=
  ofName_eq_other_iff.mpr fun hused => not_inRecord_of_upper hused h

theorem not_inRecord_of_dimensions {token : Token} (h : ofText token.text = .dimensions) :
    ¬token.inRecord := by
  intro hrecord
  rw [ofText_of_inRecord hrecord] at h
  cases h

end Keyword

theorem TableKeyword.not_inRecord {token : Token} {keyword : TableKeyword}
    (h : Keyword.ofText token.text = .tables keyword) : ¬token.inRecord := by
  intro hrecord
  rw [Keyword.ofText_of_inRecord hrecord] at h
  cases h

end BlackOil
