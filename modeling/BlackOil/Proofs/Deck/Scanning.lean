import BlackOil.Deck.Token
import Mathlib.Data.List.Chain
import Mathlib.Data.List.TakeWhile

/-!
# Scanning lines

How a line is cut when something is appended to it or takes the place of one of its words. A
comment begins at two dashes in a row. A word ends where a blank or a slash follows, and a
quoted text at its second quote, whatever comes behind; a quote that opens nothing depends on
the rest of the line only in so far as that has none of its kind.
-/
namespace BlackOil.Token
open Text

/-- The two characters are not dashes that begin a comment. -/
def Apart (c d : Char) : Prop := ¬(c = '-' ∧ d = '-')

theorem uncommented_cons {c : Char} {rest : List Char} (h : ∀ d ∈ rest.head?, Apart c d) :
    uncommented (c :: rest) = c :: uncommented rest := by
  rw [uncommented]
  intro tail hc hr
  subst hc hr
  exact h '-' rfl ⟨rfl, rfl⟩

/-- What no comment begins in, nor at its end, is kept. -/
theorem uncommented_append {front rest : List Char} (h : List.IsChain Apart front)
    (hjoin : ∀ c ∈ front.getLast?, ∀ d ∈ rest.head?, Apart c d) :
    uncommented (front ++ rest) = front ++ uncommented rest := by
  induction front with
  | nil => rfl
  | cons c front ih =>
    cases front with
    | nil => exact uncommented_cons fun d hd => hjoin c rfl d hd
    | cons d front =>
      rw [List.isChain_cons_cons] at h
      have hcut := ih h.2 fun e he => hjoin e (by rwa [List.getLast?_cons_cons])
      rw [List.cons_append, uncommented_cons fun e he => ?_, hcut]
      · rfl
      · cases he
        exact h.1

/-- A line is what stands before its comment and the comment. -/
theorem exists_comment (line : List Char) : ∃ comment, line = uncommented line ++ comment ∧
    List.IsChain Apart (uncommented line) ∧
    (∀ c ∈ (uncommented line).getLast?, ∀ d ∈ comment.head?, Apart c d) ∧
    (comment = [] ∨ ∃ rest, comment = '-' :: '-' :: rest) := by
  induction line using uncommented.induct with
  | case1 => exact ⟨[], rfl, .nil, nofun, Or.inl rfl⟩
  | case2 rest =>
    rw [uncommented]
    exact ⟨'-' :: '-' :: rest, rfl, .nil, nofun, Or.inr ⟨rest, rfl⟩⟩
  | case3 c rest hne ih =>
    obtain ⟨comment, hrest, hchain, hjoin, hcomment⟩ := ih
    have happart : ∀ d ∈ rest.head?, Apart c d := by
      intro d hd hdash
      obtain ⟨tail, rfl⟩ := List.head?_eq_some_iff.mp hd
      exact hne tail hdash.1 (by rw [hdash.2])
    rw [uncommented_cons happart]
    refine ⟨comment, congrArg (c :: ·) hrest, ?_, fun d hd => ?_, hcomment⟩
    · rw [List.isChain_cons]
      refine ⟨fun d hd => happart d ?_, hchain⟩
      rw [hrest, List.head?_append, hd]
      rfl
    · cases hkept : uncommented rest with
      | nil =>
        rw [hkept] at hd hrest
        cases hd
        rwa [hrest] at happart
      | cons e kept =>
        rw [hkept] at hd hjoin
        exact hjoin d (by rwa [List.getLast?_cons_cons] at hd)

theorem scan_blank {c : Char} (h : isBlank c) (inColumnOne : Bool) (rest : List Char) :
    scan inColumnOne (c :: rest) = scan false rest := by
  rw [scan.eq_def]
  exact if_pos h

theorem scan_slash (inColumnOne : Bool) (rest : List Char) :
    scan inColumnOne ('/' :: rest) = [⟨['/'], inColumnOne⟩] := by
  rw [scan.eq_def]
  exact (if_neg (by decide)).trans (if_pos rfl)

theorem scan_first {c : Char} (hblank : ¬isBlank c) (hslash : c ≠ '/') (inColumnOne : Bool)
    (rest : List Char) : scan inColumnOne (c :: rest) =
      ⟨first c rest, inColumnOne⟩ :: scan false (afterFirst c rest) := by
  rw [scan.eq_def]
  exact (if_neg hblank).trans (if_neg hslash)

/-- The characters that may open a quoted text. -/
def isQuote (c : Char) : Bool := c == '\'' || c == '"'

theorem opensQuote_iff {c : Char} {rest : List Char} :
    opensQuote c rest ↔ isQuote c ∧ c ∈ rest := by
  simp [opensQuote, isQuote]

theorem not_isWordChar_of_isBlank {c : Char} (h : isBlank c) : ¬isWordChar c := by
  simp [isWordChar, h]

theorem ne_dash_of_isBlank {c : Char} (h : isBlank c) : c ≠ '-' := by
  rintro rfl
  exact absurd h (by decide)

theorem isWordChar_of_isQuote {c : Char} (h : isQuote c) : isWordChar c := by
  rcases Bool.or_eq_true_iff.mp h with hc | hc <;> rw [eq_of_beq hc] <;> decide

theorem isWordChar_iff {c : Char} : isWordChar c ↔ ¬isBlank c ∧ c ≠ '/' := by
  simp [isWordChar]

/-- `text` is the token that begins the line `text ++ tail`. -/
inductive Begins : List Char → List Char → Prop where
  | quoted {c : Char} {body : List Char} (quote : isQuote c) (unquoted : c ∉ body)
      (tail : List Char) : Begins (c :: (body ++ [c])) tail
  | word {c : Char} {body tail : List Char} (unpaired : isQuote c → c ∉ body ++ tail)
      (inside : ∀ d ∈ c :: body, isWordChar d) (ends : ∀ d ∈ tail.head?, ¬isWordChar d) :
      Begins (c :: body) tail

namespace Begins

/-- Behind a token another tail may stand that has no quote with which it would pair. -/
theorem of_tail {text tail tail' : List Char} (h : Begins text tail)
    (hquotes : ∀ c ∈ text, isQuote c → c ∈ tail' → c ∈ tail)
    (hends : (∀ d ∈ tail.head?, ¬isWordChar d) → ∀ d ∈ tail'.head?, ¬isWordChar d) :
    Begins text tail' := by
  cases h with
  | quoted quote unquoted => exact .quoted quote unquoted tail'
  | @word c body tail unpaired inside ends =>
    refine .word (fun hc hmem => unpaired hc ?_) inside (hends ends)
    rcases List.mem_append.mp hmem with hbody | htail
    · exact List.mem_append_left _ hbody
    · exact List.mem_append_right _ (hquotes c List.mem_cons_self hc htail)

theorem append {text tail more : List Char} (h : Begins text tail)
    (hquotes : ∀ c ∈ text, isQuote c → c ∉ more) (hends : ∀ d ∈ more.head?, ¬isWordChar d) :
    Begins text (tail ++ more) := by
  refine h.of_tail (fun c hc hquote hmem => ?_) fun htail d hd => ?_
  · exact (List.mem_append.mp hmem).resolve_right (hquotes c hc hquote)
  · cases tail with
    | nil => exact hends d hd
    | cons e tail => exact htail d hd

theorem exists_cons {text tail : List Char} (h : Begins text tail) :
    ∃ c body, text = c :: body ∧ isWordChar c := by
  cases h with
  | quoted quote unquoted => exact ⟨_, _, rfl, isWordChar_of_isQuote quote⟩
  | word unpaired inside ends => exact ⟨_, _, rfl, inside _ List.mem_cons_self⟩

theorem first_eq {c : Char} {body tail : List Char} (h : Begins (c :: body) tail) :
    first c (body ++ tail) = c :: body ∧ afterFirst c (body ++ tail) = tail := by
  unfold first afterFirst
  cases h with
  | @quoted _ body quote unquoted =>
    have hpass : ∀ d ∈ body, (d != c) = true := by
      intro d hd
      rw [bne_iff_ne]
      rintro rfl
      exact unquoted hd
    have hopens : opensQuote c (body ++ [c] ++ tail) := by
      rw [opensQuote_iff]
      exact ⟨quote, by simp⟩
    rw [if_pos hopens, if_pos hopens, List.append_assoc, List.takeWhile_append_of_pos hpass,
      List.dropWhile_append_of_pos hpass]
    simp
  | word unpaired inside ends =>
    have hinside : ∀ d ∈ body, isWordChar d := fun d hd => inside d (List.mem_cons_of_mem c hd)
    have hopens : ¬opensQuote c (body ++ tail) := by
      rw [opensQuote_iff]
      exact fun h => unpaired h.1 h.2
    rw [if_neg hopens, if_neg hopens, List.takeWhile_append_of_pos hinside,
      List.dropWhile_append_of_pos hinside]
    cases tail with
    | nil => simp
    | cons d tail => simp [ends d rfl]

end Begins

theorem exists_begins {c : Char} (hword : isWordChar c) (rest : List Char) :
    ∃ body tail, rest = body ++ tail ∧ Begins (c :: body) tail := by
  by_cases hopens : opensQuote c rest
  · rw [opensQuote_iff] at hopens
    obtain ⟨body, tail, hrest, hbody⟩ := List.eq_append_cons_of_mem hopens.2
    exact ⟨body ++ [c], tail, by simp [hrest], .quoted hopens.1 hbody tail⟩
  · refine ⟨rest.takeWhile isWordChar, rest.dropWhile isWordChar,
      List.takeWhile_append_dropWhile.symm, .word ?_ ?_ ?_⟩
    · rw [List.takeWhile_append_dropWhile]
      exact fun hc hmem => hopens (opensQuote_iff.mpr ⟨hc, hmem⟩)
    · intro d hd
      rcases List.mem_cons.mp hd with rfl | hd
      · exact hword
      · exact List.mem_takeWhile_imp hd
    · intro d hd hword
      have hhead := List.head?_dropWhile_not isWordChar rest
      rw [Option.mem_def.mp hd] at hhead
      simp [hword] at hhead

theorem scan_begins {text tail : List Char} (h : Begins text tail) (inColumnOne : Bool) :
    scan inColumnOne (text ++ tail) = ⟨text, inColumnOne⟩ :: scan false tail := by
  obtain ⟨c, body, rfl, hword⟩ := h.exists_cons
  obtain ⟨hblank, hslash⟩ := isWordChar_iff.mp hword
  rw [List.cons_append, scan_first hblank hslash, h.first_eq.1, h.first_eq.2]

/-- A line is empty, or begins with a blank, a slash or a token. -/
theorem line_induction {motive : List Char → Prop} (nil : motive [])
    (blank : ∀ c rest, isBlank c → motive rest → motive (c :: rest))
    (slash : ∀ rest, motive ('/' :: rest))
    (token : ∀ text tail, Begins text tail → motive tail → motive (text ++ tail))
    (line : List Char) : motive line := by
  induction hlength : line.length using Nat.strongRecOn generalizing line with
  | ind length ih =>
    cases line with
    | nil => exact nil
    | cons c rest =>
      by_cases hblank : isBlank c
      · exact blank c rest hblank (ih rest.length (by simp [← hlength]) rest rfl)
      · by_cases hslash : c = '/'
        · exact hslash ▸ slash rest
        · obtain ⟨body, tail, rfl, h⟩ := exists_begins (isWordChar_iff.mpr ⟨hblank, hslash⟩) rest
          refine token (c :: body) tail h (ih tail.length ?_ tail rfl)
          rw [← hlength, List.length_cons, List.length_append]
          omega

/-- A blank at the end of a line is in no token. -/
theorem scan_append_blank {c : Char} (h : isBlank c) (inColumnOne : Bool) (line : List Char) :
    scan inColumnOne (line ++ [c]) = scan inColumnOne line := by
  induction line using line_induction generalizing inColumnOne with
  | nil => rw [List.nil_append, scan_blank h, scan_nil, scan_nil]
  | blank d rest hd ih => rw [List.cons_append, scan_blank hd, scan_blank hd, ih]
  | slash rest => rw [List.cons_append, scan_slash, scan_slash]
  | token text tail hbegins ih =>
    have hmore : Begins text (tail ++ [c]) := by
      refine hbegins.append (fun q _ hquote hmem => ?_) fun d hd => ?_
      · cases List.mem_singleton.mp hmem
        exact absurd (isWordChar_of_isQuote hquote) (not_isWordChar_of_isBlank h)
      · cases hd
        exact not_isWordChar_of_isBlank h
    rw [List.append_assoc, scan_begins hmore, scan_begins hbegins, ih]

/-- What stands behind a slash is in no token, unless a quote before the slash pairs with it. -/
theorem scan_append_slash {front : List Char} (h : ∀ c ∈ front, ¬isQuote c) (inColumnOne : Bool)
    (rest rest' : List Char) :
    scan inColumnOne (front ++ '/' :: rest) = scan inColumnOne (front ++ '/' :: rest') := by
  induction front using line_induction generalizing inColumnOne with
  | nil => rw [List.nil_append, List.nil_append, scan_slash, scan_slash]
  | blank c front hc ih =>
    rw [List.cons_append, List.cons_append, scan_blank hc, scan_blank hc,
      ih fun d hd => h d (List.mem_cons_of_mem c hd)]
  | slash front => rw [List.cons_append, List.cons_append, scan_slash, scan_slash]
  | token text tail hbegins ih =>
    have hmore : ∀ rest, Begins text (tail ++ '/' :: rest) := by
      intro rest
      refine hbegins.append (fun c hc hquote => ?_) fun d hd => ?_
      · exact absurd hquote (h c (List.mem_append_left tail hc))
      · cases hd
        decide
    rw [List.append_assoc, List.append_assoc, scan_begins (hmore rest), scan_begins (hmore rest'),
      ih fun c hc => h c (List.mem_append_right text hc)]

theorem mem_of_mem_scan {token : Token} {inColumnOne : Bool} {line : List Char}
    (h : token ∈ scan inColumnOne line) : ∀ c ∈ token.text, c ∈ line := by
  induction line using line_induction generalizing inColumnOne with
  | nil =>
    rw [scan_nil] at h
    cases h
  | blank d rest hd ih =>
    rw [scan_blank hd] at h
    exact fun c hc => List.mem_cons_of_mem d (ih h c hc)
  | slash rest =>
    rw [scan_slash, List.mem_singleton] at h
    subst h
    intro c hc
    rw [List.mem_singleton.mp hc]
    exact List.mem_cons_self
  | token text tail hbegins ih =>
    rw [scan_begins hbegins, List.mem_cons] at h
    rcases h with rfl | h
    · exact fun c hc => List.mem_append_left tail hc
    · exact fun c hc => List.mem_append_right text (ih h c hc)

end BlackOil.Token
