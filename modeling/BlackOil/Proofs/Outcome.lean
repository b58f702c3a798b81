/-!
# Outcomes

How a computation that may fail is taken apart into its steps, and when a loop over
a list succeeds.
-/
namespace BlackOil.Outcome
variable {ε β γ δ : Type}

theorem ok_bind (b : β) (f : β → Except ε γ) : Except.ok b >>= f = f b := rfl

theorem bind_eq_ok_iff {x : Except ε β} {f : β → Except ε γ} {c : γ} :
    x >>= f = .ok c ↔ ∃ b, x = .ok b ∧ f b = .ok c := by
  cases x with
  | error fault => simp [bind, Except.bind]
  | ok b => simp [bind, Except.bind]

theorem bind_eq_error_iff {x : Except ε β} {f : β → Except ε γ} {fault : ε} :
    x >>= f = .error fault ↔ x = .error fault ∨ ∃ b, x = .ok b ∧ f b = .error fault := by
  cases x with
  | error fault => simp [bind, Except.bind]
  | ok b => simp [bind, Except.bind]

theorem pure_eq_ok_iff {b c : β} : (pure b : Except ε β) = .ok c ↔ c = b := by
  rw [eq_comm]
  exact Except.ok.injEq c b ▸ Iff.rfl

/-- What is made of a result does not decide whether there is one. -/
theorem exists_bind_pure_eq_ok_iff {x : Except ε β} {f : β → γ} :
    (∃ c, (x >>= fun b => pure (f b)) = .ok c) ↔ ∃ b, x = .ok b := by
  simp only [bind_eq_ok_iff, pure_eq_ok_iff]
  constructor
  · intro h
    obtain ⟨c, b, hb, -⟩ := h
    exact ⟨b, hb⟩
  · intro h
    obtain ⟨b, hb⟩ := h
    exact ⟨f b, b, hb, rfl⟩

theorem map_eq_ok_iff {x : Except ε β} {f : β → γ} {c : γ} :
    f <$> x = .ok c ↔ ∃ b, x = .ok b ∧ f b = c := by
  cases x with
  | error fault => simp [Functor.map, Except.map]
  | ok b => simp [Functor.map, Except.map]

theorem map_eq_error_iff {x : Except ε β} {f : β → γ} {fault : ε} :
    f <$> x = .error fault ↔ x = .error fault := by
  cases x with
  | error fault => simp [Functor.map, Except.map]
  | ok b => simp [Functor.map, Except.map]

/-- A computation behind a check succeeds only past the check. -/
theorem check_eq_ok_iff {c : Prop} [Decidable c] {fault : ε} {x : Except ε β} {b : β} :
    (if c then do
      (throw fault : Except ε PUnit)
      x
    else x) = .ok b ↔ ¬c ∧ x = .ok b := by
  split
  · rename_i h
    exact ⟨(nomatch ·), fun hx => absurd h hx.1⟩
  · rename_i h
    exact ⟨fun hx => ⟨h, hx⟩, fun hx => hx.2⟩

/-- The same of a check that refuses with an outcome of its own. -/
theorem refuse_eq_ok_iff {c : Prop} [Decidable c] {fault : ε} {x : Except ε β} {b : β} :
    (if c then (Except.error fault : Except ε PUnit) >>= fun _ => x else x) = .ok b ↔
      ¬c ∧ x = .ok b :=
  check_eq_ok_iff

theorem toOption_eq_some_iff {x : Except ε β} {b : β} : x.toOption = some b ↔ x = .ok b := by
  cases x with
  | error fault => simp [Except.toOption]
  | ok c => simp [Except.toOption]

theorem exists_ok_of_isSome {x : Except ε β} (h : x.toOption.isSome) : ∃ b, x = .ok b := by
  cases x with
  | error fault => cases h
  | ok b => exact ⟨b, rfl⟩

theorem mapM_of_forall {f : β → Except ε γ} {g : β → γ} {l : List β}
    (h : ∀ b ∈ l, f b = .ok (g b)) : l.mapM f = .ok (l.map g) := by
  induction l with
  | nil => rfl
  | cons b l ih =>
    rw [List.mapM_cons, h b (by simp), ih fun c hc => h c (by simp [hc])]
    rfl

/-- A list of computations succeeds exactly if each of them does. -/
theorem mapM_eq_ok_iff {f : β → Except ε γ} {l : List β} {out : List γ} :
    l.mapM f = .ok out ↔ l.map f = out.map .ok := by
  induction l generalizing out with
  | nil =>
    rw [List.mapM_nil, pure_eq_ok_iff, List.map_nil, List.nil_eq, List.map_eq_nil_iff]
  | cons b l ih =>
    simp only [List.mapM_cons, bind_eq_ok_iff, pure_eq_ok_iff, ih, List.map_cons]
    cases out with
    | nil => simp
    | cons c out =>
      simp only [List.cons.injEq, List.map_cons]
      constructor
      · intro h
        obtain ⟨_, hc, _, hl, rfl, rfl⟩ := h
        exact ⟨hc, hl⟩
      · intro h
        exact ⟨c, h.1, out, h.2, rfl, rfl⟩

/-- What a list of successful computations gives comes from one of them. -/
theorem exists_of_mem_of_map_eq {f : β → Except ε γ} {l : List β} {out : List γ}
    (h : l.map f = out.map .ok) {c : γ} (hc : c ∈ out) : ∃ b ∈ l, f b = .ok c := by
  have hmem : Except.ok c ∈ out.map (Except.ok (ε := ε)) := List.mem_map_of_mem hc
  rw [← h] at hmem
  exact List.mem_map.mp hmem

/-- Each of a list of successful computations gives a member of the outcome. -/
theorem exists_mem_of_map_eq {f : β → Except ε γ} {l : List β} {out : List γ}
    (h : l.map f = out.map .ok) {b : β} (hb : b ∈ l) : ∃ c ∈ out, f b = .ok c := by
  have hmem : f b ∈ l.map f := List.mem_map_of_mem hb
  rw [h] at hmem
  obtain ⟨c, hc, hf⟩ := List.mem_map.mp hmem
  exact ⟨c, hc, hf.symm⟩

theorem mapM_eq_some_iff {f : β → Option γ} {l : List β} {r : List γ} :
    l.mapM f = some r ↔ r.map some = l.map f := by
  induction l generalizing r with
  | nil =>
    rw [List.mapM_nil, List.map_nil, List.map_eq_nil_iff]
    exact ⟨fun h => (Option.some.inj h).symm, fun h => h ▸ rfl⟩
  | cons b l ih =>
    rw [List.mapM_cons]
    constructor
    · intro h
      obtain ⟨c, hb, h⟩ := Option.bind_eq_some_iff.mp h
      obtain ⟨r', hl, h⟩ := Option.bind_eq_some_iff.mp h
      cases h
      rw [List.map_cons, List.map_cons, hb, ih.mp hl]
    · intro h
      cases r with
      | nil => cases h
      | cons c r' =>
        rw [List.map_cons, List.map_cons, List.cons.injEq] at h
        rw [← h.1, ih.mpr h.2]
        rfl

theorem exists_of_mapM_eq_error {f : β → Except ε γ} {l : List β} {fault : ε}
    (h : l.mapM f = .error fault) : ∃ b ∈ l, f b = .error fault := by
  induction l with
  | nil => cases h
  | cons b l ih =>
    rw [List.mapM_cons] at h
    rcases bind_eq_error_iff.mp h with hb | ⟨c, -, h⟩
    · exact ⟨b, List.mem_cons_self, hb⟩
    · rcases bind_eq_error_iff.mp h with hl | ⟨out, -, h⟩
      · obtain ⟨d, hd, hfault⟩ := ih hl
        exact ⟨d, List.mem_cons_of_mem b hd, hfault⟩
      · cases h

/-- A list of computations succeeds as soon as each of them does. -/
theorem exists_mapM_eq_ok_iff {f : β → Except ε γ} {l : List β} :
    (∃ out, l.mapM f = .ok out) ↔ ∀ b ∈ l, ∃ c, f b = .ok c := by
  constructor
  · intro h b hb
    obtain ⟨out, h⟩ := h
    obtain ⟨c, -, hc⟩ := exists_mem_of_map_eq (mapM_eq_ok_iff.mp h) hb
    exact ⟨c, hc⟩
  · intro h
    cases hl : l.mapM f with
    | ok out => exact ⟨out, rfl⟩
    | error fault =>
      obtain ⟨b, hb, hfault⟩ := exists_of_mapM_eq_error hl
      obtain ⟨c, hc⟩ := h b hb
      rw [hc] at hfault
      cases hfault

/-- If the elements give nothing else, neither does their list. -/
theorem eq_map_of_mapM_eq_ok {f : β → Except ε γ} {g : β → γ} {l : List β} {out : List γ}
    (h : ∀ b ∈ l, ∀ c, f b = .ok c → c = g b) (hl : l.mapM f = .ok out) : out = l.map g := by
  induction l generalizing out with
  | nil =>
    cases hl
    rfl
  | cons b l ih =>
    rw [List.mapM_cons] at hl
    obtain ⟨c, hc, hl⟩ := bind_eq_ok_iff.mp hl
    obtain ⟨rest, hrest, hl⟩ := bind_eq_ok_iff.mp hl
    cases hl
    rw [h b (by simp) c hc, ih (fun b hb => h b (by simp [hb])) hrest, List.map_cons]

/-- A loop whose passes all succeed while an invariant holds is a fold. -/
theorem foldlM_of_forall {f : γ → β → Except ε γ} {g : γ → β → γ} (inv : γ → Prop) {l : List β}
    (hf : ∀ s, inv s → ∀ b ∈ l, f s b = .ok (g s b)) (hg : ∀ s, inv s → ∀ b ∈ l, inv (g s b))
    {s : γ} (hs : inv s) : l.foldlM f s = .ok (l.foldl g s) := by
  induction l generalizing s with
  | nil => rfl
  | cons b l ih =>
    rw [List.foldlM_cons, hf s hs b (by simp), List.foldl_cons]
    exact ih (fun t ht c hc => hf t ht c (by simp [hc]))
      (fun t ht c hc => hg t ht c (by simp [hc])) (hg s hs b (by simp))

/-- A loop whose passes succeed, while an invariant holds, exactly on the elements with some
property. -/
theorem foldlM_eq_ok_iff {f : γ → β → Except ε γ} {g : γ → β → γ} {p : β → Prop} (inv : γ → Prop)
    (hf : ∀ s, inv s → ∀ b t, f s b = .ok t ↔ p b ∧ t = g s b) (hg : ∀ s, inv s → ∀ b, inv (g s b))
    {l : List β} {s t : γ} (hs : inv s) :
    l.foldlM f s = .ok t ↔ (∀ b ∈ l, p b) ∧ t = l.foldl g s := by
  induction l generalizing s with
  | nil => simp only [List.foldlM_nil, pure_eq_ok_iff, List.foldl_nil, List.not_mem_nil,
      false_implies, implies_true, true_and]
  | cons b l ih =>
    simp only [List.foldlM_cons, bind_eq_ok_iff, hf s hs, List.forall_mem_cons, List.foldl_cons]
    constructor
    · intro h
      obtain ⟨_, ⟨hb, rfl⟩, h⟩ := h
      obtain ⟨hl, ht⟩ := (ih (hg s hs b)).mp h
      exact ⟨⟨hb, hl⟩, ht⟩
    · intro h
      exact ⟨_, ⟨h.1.1, rfl⟩, (ih (hg s hs b)).mpr ⟨h.1.2, h.2⟩⟩

/-- A loop fails exactly at the first pass that does. -/
theorem foldlM_eq_error_iff {f : γ → β → Except ε γ} {l : List β} {s : γ} {fault : ε} :
    l.foldlM f s = .error fault ↔ ∃ before b after t, l = before ++ b :: after ∧
      before.foldlM f s = .ok t ∧ f t b = .error fault := by
  constructor
  · intro h
    induction l generalizing s with
    | nil => cases h
    | cons b l ih =>
      rw [List.foldlM_cons] at h
      rcases bind_eq_error_iff.mp h with hb | ⟨t, hb, hl⟩
      · exact ⟨[], b, l, s, rfl, rfl, hb⟩
      · obtain ⟨before, c, after, u, rfl, hbefore, hc⟩ := ih hl
        refine ⟨b :: before, c, after, u, rfl, ?_, hc⟩
        rw [List.foldlM_cons, hb]
        exact hbefore
  · rintro ⟨before, b, after, t, rfl, hbefore, hb⟩
    rw [List.foldlM_append, hbefore, ok_bind, List.foldlM_cons, hb]
    rfl

/-- A computation that fails with faults of one sort only. -/
def FailsOnly (P : ε → Prop) (x : Except ε β) : Prop := ∀ fault, x = .error fault → P fault

namespace FailsOnly
variable {P : ε → Prop} {x : Except ε β} {f : β → Except ε γ}

theorem of_ok {b : β} (h : x = .ok b) : FailsOnly P x := by
  intro fault hfault
  cases h.symm.trans hfault

theorem of_error {fault : ε} (h : P fault) : FailsOnly P (.error fault : Except ε β) := by
  intro fault' hfault
  cases hfault
  exact h

theorem bind (hx : FailsOnly P x) (hf : ∀ b, x = .ok b → FailsOnly P (f b)) :
    FailsOnly P (x >>= f) := by
  intro fault h
  rcases bind_eq_error_iff.mp h with h | ⟨b, hb, h⟩
  · exact hx fault h
  · exact hf b hb fault h

/-- A step that is known to succeed adds no fault. -/
theorem bind_ok {b : β} (hx : x = .ok b) (hf : FailsOnly P (f b)) : FailsOnly P (x >>= f) := by
  rw [hx, ok_bind]
  exact hf

theorem check {c : Prop} [Decidable c] {fault : ε} (hfault : P fault) (hx : FailsOnly P x) :
    FailsOnly P (if c then do
      (throw fault : Except ε PUnit)
      x
    else x) := by
  split
  · exact of_error hfault
  · exact hx

end FailsOnly

/-- A computation that succeeds only where `c` holds, and fails otherwise with a fault of one
sort. -/
def Demands (P : ε → Prop) (c : Prop) (x : Except ε β) : Prop :=
  ¬c → ∃ fault, x = .error fault ∧ P fault

namespace Demands
variable {P : ε → Prop} {c : Prop} {x : Except ε β} {f : β → Except ε γ}

theorem of_holds (h : c) : Demands P c x := fun hc => absurd h hc

theorem holds_of_eq_ok (h : Demands P c x) {b : β} (hx : x = .ok b) : c := by
  apply Classical.byContradiction
  intro hc
  obtain ⟨fault, hfault, -⟩ := h hc
  cases hx.symm.trans hfault

/-- What a computation demands, it demands whatever is done with its result. -/
theorem bind_left (h : Demands P c x) : Demands P c (x >>= f) := by
  intro hc
  obtain ⟨fault, hfault, hP⟩ := h hc
  exact ⟨fault, bind_eq_error_iff.mpr (.inl hfault), hP⟩

/-- A step whose own faults are of the sort may come before what demands. -/
theorem bind_right (hx : FailsOnly P x) (hf : ∀ b, x = .ok b → Demands P c (f b)) :
    Demands P c (x >>= f) := by
  intro hc
  cases h : x with
  | error fault => exact ⟨fault, rfl, hx fault h⟩
  | ok b => exact hf b h hc

theorem map (h : Demands P c x) (g : β → γ) : Demands P c (g <$> x) := by
  intro hc
  obtain ⟨fault, hfault, hP⟩ := h hc
  exact ⟨fault, map_eq_error_iff.mpr hfault, hP⟩

end Demands

/-- Two computations of which both fail, with the same fault, or both succeed with related
results. -/
inductive Rel (R : β → γ → Prop) : Except ε β → Except ε γ → Prop
  | error (fault : ε) : Rel R (.error fault) (.error fault)
  | ok {b : β} {c : γ} (h : R b c) : Rel R (.ok b) (.ok c)

namespace Rel
variable {β' γ' : Type} {R : β → γ → Prop} {S : β' → γ' → Prop}

theorem mono {R' : β → γ → Prop} {x : Except ε β} {y : Except ε γ} (h : Rel R x y)
    (hR : ∀ b c, R b c → R' b c) : Rel R' x y := by
  cases h with
  | error fault => exact .error fault
  | ok h => exact .ok (hR _ _ h)

theorem exists_ok {b : β} {y : Except ε γ} (h : Rel R (.ok b) y) : ∃ c, y = .ok c ∧ R b c := by
  cases h with
  | ok h => exact ⟨_, rfl, h⟩

/-- A computation and one that maps its result. -/
theorem map_self (f : β → γ) (x : Except ε β) : Rel (fun b c => c = f b) x (f <$> x) := by
  cases x with
  | error fault => exact .error fault
  | ok b => exact .ok rfl

theorem bind {x : Except ε β} {y : Except ε γ} {f : β → Except ε β'} {g : γ → Except ε γ'}
    (h : Rel R x y) (hf : ∀ b c, x = .ok b → y = .ok c → R b c → Rel S (f b) (g c)) :
    Rel S (x >>= f) (y >>= g) := by
  cases h with
  | error fault => exact .error fault
  | ok h => exact hf _ _ rfl rfl h

/-- Two computations may begin with the same step. -/
theorem bind_same {x : Except ε β} {f : β → Except ε β'} {g : β → Except ε γ'}
    (hf : ∀ b, x = .ok b → Rel S (f b) (g b)) : Rel S (x >>= f) (x >>= g) := by
  cases x with
  | error fault => exact .error fault
  | ok b => exact hf b rfl

/-- Loops over one list whose passes keep their states related. -/
theorem foldlM {δ : Type} {f : β → δ → Except ε β} {g : γ → δ → Except ε γ} {l : List δ}
    (hstep : ∀ b c, R b c → ∀ d ∈ l, Rel R (f b d) (g c d)) {b : β} {c : γ} (h : R b c) :
    Rel R (l.foldlM f b) (l.foldlM g c) := by
  induction l generalizing b c with
  | nil => exact .ok h
  | cons d l ih =>
    rw [List.foldlM_cons, List.foldlM_cons]
    refine (hstep b c h d List.mem_cons_self).bind fun b' c' _ _ h' => ?_
    exact ih (fun b c h e he => hstep b c h e (List.mem_cons_of_mem d he)) h'

end Rel

/-- Two computations that succeed with the same result, or fail with faults that are alike in
what `key` tells of them. -/
inductive Alike {κ : Type} (key : ε → κ) : Except ε β → Except ε β → Prop
  | error {fault fault' : ε} (h : key fault = key fault') : Alike key (.error fault) (.error fault')
  | ok (b : β) : Alike key (.ok b) (.ok b)

namespace Alike
variable {κ : Type} {key : ε → κ} {x y z : Except ε β}

theorem refl (x : Except ε β) : Alike key x x := by
  cases x with
  | error fault => exact .error rfl
  | ok b => exact .ok b

theorem symm (h : Alike key x y) : Alike key y x := by
  cases h with
  | error h => exact .error h.symm
  | ok b => exact .ok b

theorem trans (h : Alike key x y) (h' : Alike key y z) : Alike key x z := by
  cases h with
  | error h => cases h' with
    | error h' => exact .error (h.trans h')
  | ok b => exact h'

theorem eq_ok {b : β} (h : Alike key x y) (hx : x = .ok b) : y = .ok b := by
  cases h with
  | error h => cases hx
  | ok b => exact hx

theorem bind {f g : β → Except ε γ} (h : Alike key x y) (hf : ∀ b, Alike key (f b) (g b)) :
    Alike key (x >>= f) (y >>= g) := by
  cases h with
  | error h => exact .error h
  | ok b => exact hf b

/-- Loops whose passes are alike. -/
theorem foldlM_map {δ : Type} {f : β → δ → Except ε β} (g : δ → δ)
    (hstep : ∀ b d, Alike key (f b d) (f b (g d))) (l : List δ) (b : β) :
    Alike key (l.foldlM f b) ((l.map g).foldlM f b) := by
  induction l generalizing b with
  | nil => exact refl _
  | cons d l ih =>
    rw [List.map_cons, List.foldlM_cons, List.foldlM_cons]
    exact (hstep b d).bind ih

end Alike

end BlackOil.Outcome
