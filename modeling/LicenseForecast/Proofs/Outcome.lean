import Mathlib.Data.List.Basic

namespace LicenseForecast

/-!
# Computations that succeed

What the success of a computation in steps says about its steps: each of them has succeeded
(`bind_eq_ok`), over a list each element has (`mapM_eq_ok`, `filterM_eq_ok`), and a search has
found out whether there is an element (`eq_true_of_anyM_eq_ok`).  What fails, fails at its first
step that does (`mapM_eq_error`, `anyM_eq_error`, `filterM_eq_error`), and in no other way than its
steps (`FailsOnly.bind`).  Two computations end alike if their steps do (`EndAlike.bind`).
-/

variable {α β ε δ : Type}

/-- **A success comes from two successes.** -/
theorem bind_eq_ok {x : Except ε α} {f : α → Except ε β} {b : β} :
    x >>= f = .ok b ↔ ∃ a, x = .ok a ∧ f a = .ok b := by
  cases x with
  | error e =>
    constructor
    · intro h
      cases h
    · rintro ⟨_, h, _⟩
      cases h
  | ok a =>
    constructor
    · intro h
      exact ⟨a, rfl, h⟩
    · rintro ⟨_, ha, h⟩
      cases ha
      exact h

/-- A success under a function comes from a success. -/
theorem map_eq_ok {x : Except ε α} {f : α → β} {b : β} :
    f <$> x = .ok b ↔ ∃ a, x = .ok a ∧ f a = b := by
  rw [map_eq_pure_bind, bind_eq_ok]
  constructor <;> rintro ⟨a, ha, h⟩ <;> exact ⟨a, ha, by cases h; rfl⟩

/-- What is there without computation is the value itself. -/
theorem pure_eq_ok {a b : α} : (pure a : Except ε α) = .ok b ↔ a = b :=
  ⟨fun h => by cases h; rfl, fun h => by rw [h]; rfl⟩

/-- A success under another name for its failures is a success. -/
theorem mapError_eq_ok {x : Except ε α} {rename : ε → δ} {a : α} :
    x.mapError rename = .ok a ↔ x = .ok a := by
  cases x with
  | error e => exact ⟨nofun, nofun⟩
  | ok b => exact Iff.rfl.trans (by simp [Except.mapError])

/-- **A list of computations succeeds if each of them does.** -/
theorem mapM_eq_ok {f : α → Except ε β} {l : List α} {r : List β} :
    l.mapM f = .ok r ↔ l.map f = r.map .ok := by
  induction l generalizing r with
  | nil =>
    rw [List.mapM_nil, pure_eq_ok]
    cases r <;> simp
  | cons a l ih =>
    simp only [List.mapM_cons, bind_eq_ok, pure_eq_ok, ih]
    cases r with
    | nil => simp
    | cons b r =>
      simp only [List.map_cons, List.cons.injEq]
      constructor
      · rintro ⟨_, ha, _, hl, rfl, rfl⟩
        exact ⟨ha, hl⟩
      · rintro ⟨ha, hl⟩
        exact ⟨b, ha, r, hl, rfl, rfl⟩

/-- A search looks at the first element before the others. -/
theorem anyM_cons {p : α → Except ε Bool} {a : α} {l : List α} :
    (a :: l).anyM p = p a >>= fun found => if found then .ok true else l.anyM p := by
  show (p a >>= fun found => _) = _
  congr 1
  funext found
  cases found <;> rfl

/-- What a search that succeeds has found: whether there is such an element, although those
    after it have not been looked at. -/
theorem eq_true_of_anyM_eq_ok {p : α → Except ε Bool} {l : List α} {found : Bool}
    (h : l.anyM p = .ok found) : found = true ↔ ∃ a ∈ l, p a = .ok true := by
  induction l with
  | nil =>
    cases h
    exact ⟨nofun, fun ⟨_, ha, _⟩ => nomatch ha⟩
  | cons a l ih =>
    rw [anyM_cons] at h
    obtain ⟨here, ha, h⟩ := bind_eq_ok.mp h
    cases here with
    -- the first hit stops the search
    | true =>
      cases h
      exact ⟨fun _ => ⟨a, List.mem_cons_self, ha⟩, fun _ => rfl⟩
    | false =>
      rw [ih h]
      constructor
      · rintro ⟨b, hb, hp⟩
        exact ⟨b, List.mem_cons_of_mem _ hb, hp⟩
      · rintro ⟨b, hb, hp⟩
        rcases List.mem_cons.mp hb with rfl | hb
        · cases ha.symm.trans hp
        · exact ⟨b, hb, hp⟩

/-- **A selection that succeeds** has decided about each element. -/
theorem filterM_eq_ok {p : α → Except ε Bool} {l kept : List α} (h : l.filterM p = .ok kept) :
    ∃ q : α → Bool, (∀ a ∈ l, p a = .ok (q a)) ∧ kept = l.filter q := by
  -- the elements kept so far are collected in front, the last one first
  have haux : ∀ acc kept, l.filterAuxM p acc = .ok kept →
      (∀ a ∈ l, p a = .ok ((p a).toOption.getD false)) ∧
        kept = (l.filter fun a => (p a).toOption.getD false).reverse ++ acc := by
    clear h kept
    induction l with
    | nil =>
      intro acc kept h
      cases h
      exact ⟨nofun, rfl⟩
    | cons a l ih =>
      intro acc kept h
      rw [List.filterAuxM] at h
      obtain ⟨keep, ha, h⟩ := bind_eq_ok.mp h
      obtain ⟨hall, rfl⟩ := ih _ _ h
      have hkeep : (p a).toOption.getD false = keep := by
        rw [ha]
        rfl
      refine ⟨List.forall_mem_cons.mpr ⟨hkeep ▸ ha, hall⟩, ?_⟩
      rw [List.filter_cons, hkeep]
      cases keep <;> simp
  unfold List.filterM at h
  obtain ⟨reversed, haccumulated, h⟩ := bind_eq_ok.mp h
  obtain ⟨hall, rfl⟩ := haux _ _ haccumulated
  cases h
  exact ⟨_, hall, by simp⟩

/-- A list of checks is passed if each of them is. -/
theorem forM_eq_ok {f : α → Except ε Unit} {l : List α} :
    l.forM f = .ok () ↔ ∀ a ∈ l, f a = .ok () := by
  induction l with
  | nil => exact ⟨fun _ => nofun, fun _ => rfl⟩
  | cons a l ih =>
    show (f a >>= fun _ => l.forM f) = .ok () ↔ _
    rw [bind_eq_ok, List.forall_mem_cons, ← ih]
    constructor
    · rintro ⟨_, ha, hl⟩
      exact ⟨ha, hl⟩
    · rintro ⟨ha, hl⟩
      exact ⟨(), ha, hl⟩

/-- Computations that all succeed give their values in order. -/
theorem mapM_of_forall {f : α → Except ε β} {g : α → β} {l : List α}
    (h : ∀ a ∈ l, f a = .ok (g a)) : l.mapM f = .ok (l.map g) := by
  rw [mapM_eq_ok, List.map_map]
  exact List.map_congr_left h

/-- The values of computations that all succeed. -/
theorem eq_map_of_mapM [Inhabited β] {f : α → Except ε β} {l : List α} {r : List β}
    (h : l.mapM f = .ok r) : r = l.map fun a => (f a).toOption.getD default := by
  rw [mapM_eq_ok] at h
  have hvalues : (l.map f).map (·.toOption.getD default) = r := by
    rw [h, List.map_map]
    exact List.map_id r
  rw [← hvalues, List.map_map]
  rfl

/-- A list of computations that succeeds has no failing one. -/
theorem exists_ok_of_mapM {f : α → Except ε β} {l : List α} {r : List β}
    (h : l.mapM f = .ok r) {a : α} (ha : a ∈ l) : ∃ b ∈ r, f a = .ok b := by
  rw [mapM_eq_ok] at h
  have hmem : f a ∈ r.map .ok := h ▸ List.mem_map_of_mem ha
  obtain ⟨b, hb, heq⟩ := List.mem_map.mp hmem
  exact ⟨b, hb, heq.symm⟩

/-- What comes of a list came of one of its elements. -/
theorem exists_mem_of_mapM {f : α → Except ε β} {l : List α} {r : List β}
    (h : l.mapM f = .ok r) {b : β} (hb : b ∈ r) : ∃ a ∈ l, f a = .ok b := by
  have hmem : Except.ok b ∈ l.map f := by
    rw [mapM_eq_ok.mp h]
    exact List.mem_map_of_mem hb
  exact List.mem_map.mp hmem

/-- What a computation over a part of a list gives is a part of what it gives over all. -/
theorem mapM_filter {f : α → Except ε β} {p : α → Bool} {q : β → Bool} {l : List α} {r : List β}
    (h : l.mapM f = .ok r) (hpq : ∀ a ∈ l, ∀ b, f a = .ok b → p a = q b) :
    (l.filter p).mapM f = .ok (r.filter q) := by
  induction l generalizing r with
  | nil =>
    cases h
    rfl
  | cons a l ih =>
    simp only [List.mapM_cons, bind_eq_ok, pure_eq_ok] at h
    obtain ⟨b, hb, r, hr, rfl⟩ := h
    have hrest := ih hr fun a ha => hpq a (List.mem_cons_of_mem _ ha)
    have hsame := hpq a List.mem_cons_self b hb
    -- an item left out of the list is left out of the results
    by_cases hp : p a = true
    · rw [List.filter_cons_of_pos hp, List.filter_cons_of_pos (hsame ▸ hp)]
      simp only [List.mapM_cons, bind_eq_ok, pure_eq_ok]
      exact ⟨b, hb, _, hrest, rfl⟩
    · rw [List.filter_cons_of_neg hp, List.filter_cons_of_neg (hsame ▸ hp)]
      exact hrest

/-! ### Computations that fail -/

/-- A failure comes from either of two steps. -/
theorem bind_eq_error {x : Except ε α} {f : α → Except ε β} {e : ε} :
    x >>= f = .error e ↔ x = .error e ∨ ∃ a, x = .ok a ∧ f a = .error e := by
  cases x with
  | error e' =>
    constructor
    · intro h
      cases h
      exact .inl rfl
    · rintro (h | ⟨_, ha, _⟩)
      · cases h
        rfl
      · cases ha
  | ok a =>
    constructor
    · exact fun h => .inr ⟨a, rfl, h⟩
    · rintro (h | ⟨_, ha, h⟩)
      · cases h
      · cases ha
        exact h

/-- A failure under another name is a failure. -/
theorem mapError_eq_error {x : Except ε α} {rename : ε → δ} {d : δ} :
    x.mapError rename = .error d ↔ ∃ e, x = .error e ∧ d = rename e := by
  cases x with
  | error e => simp [Except.mapError, eq_comm]
  | ok a => exact ⟨nofun, fun ⟨_, h, _⟩ => nomatch h⟩

/-- **A list of computations fails at the first failing one.** -/
theorem mapM_eq_error {f : α → Except ε β} {l : List α} {e : ε} :
    l.mapM f = .error e ↔ ∃ before a after, l = before ++ a :: after ∧
      (∀ b ∈ before, ∃ c, f b = .ok c) ∧ f a = .error e := by
  induction l with
  | nil =>
    constructor
    · intro h
      cases h
    · rintro ⟨before, a, after, h, -⟩
      cases before <;> cases h
  | cons a l ih =>
    rw [List.mapM_cons, bind_eq_error]
    constructor
    · rintro (h | ⟨c, ha, h⟩)
      · exact ⟨[], a, l, rfl, nofun, h⟩
      · rcases bind_eq_error.mp h with h | ⟨_, -, h⟩
        · obtain ⟨before, b, after, rfl, hbefore, hb⟩ := ih.mp h
          refine ⟨a :: before, b, after, rfl, fun d hd => ?_, hb⟩
          rcases List.mem_cons.mp hd with rfl | hd
          · exact ⟨c, ha⟩
          · exact hbefore d hd
        · cases h
    · rintro ⟨before, b, after, hl, hbefore, hb⟩
      cases before with
      | nil =>
        cases hl
        exact .inl hb
      | cons c before =>
        cases hl
        -- the head was computed, so the failing item lies in the rest
        obtain ⟨d, ha⟩ := hbefore a List.mem_cons_self
        refine .inr ⟨d, ha, bind_eq_error.mpr (.inl (ih.mpr ⟨before, b, after, rfl, ?_, hb⟩))⟩
        exact fun c hc => hbefore c (List.mem_cons_of_mem _ hc)

/-- **A list of checks fails at the first failing one.** -/
theorem forM_eq_error {f : α → Except ε Unit} {l : List α} {e : ε} :
    l.forM f = .error e ↔ ∃ before a after, l = before ++ a :: after ∧
      (∀ b ∈ before, f b = .ok ()) ∧ f a = .error e := by
  -- a loop is a map whose results carry nothing
  have hmapM : l.forM f = l.mapM f >>= fun _ => .ok () := by
    induction l with
    | nil => rfl
    | cons a l ih =>
      show (f a >>= fun _ => l.forM f) = _
      rw [List.mapM_cons, ih]
      cases f a with
      | error e => rfl
      | ok _ => cases l.mapM f <;> rfl
  rw [hmapM, bind_eq_error, mapM_eq_error]
  constructor
  · rintro (⟨before, a, after, hl, hbefore, ha⟩ | ⟨_, -, h⟩)
    · refine ⟨before, a, after, hl, fun b hb => ?_, ha⟩
      obtain ⟨⟨⟩, hb⟩ := hbefore b hb
      exact hb
    · cases h
  · rintro ⟨before, a, after, hl, hbefore, ha⟩
    exact .inl ⟨before, a, after, hl, fun b hb => ⟨(), hbefore b hb⟩, ha⟩

/-- **A search fails at the first failing element**, up to which nothing has been found. -/
theorem anyM_eq_error {p : α → Except ε Bool} {l : List α} {e : ε} :
    l.anyM p = .error e ↔ ∃ before a after, l = before ++ a :: after ∧
      (∀ b ∈ before, p b = .ok false) ∧ p a = .error e := by
  induction l with
  | nil =>
    constructor
    · intro h
      cases h
    · rintro ⟨before, a, after, h, -⟩
      cases before <;> cases h
  | cons a l ih =>
    rw [anyM_cons, bind_eq_error]
    constructor
    · rintro (h | ⟨found, ha, h⟩)
      · exact ⟨[], a, l, rfl, nofun, h⟩
      · cases found with
        | true => cases h
        | false =>
          obtain ⟨before, b, after, rfl, hbefore, hb⟩ := ih.mp h
          refine ⟨a :: before, b, after, rfl, fun c hc => ?_, hb⟩
          rcases List.mem_cons.mp hc with rfl | hc
          · exact ha
          · exact hbefore c hc
    · rintro ⟨before, b, after, hl, hbefore, hb⟩
      cases before with
      | nil =>
        cases hl
        exact .inl hb
      | cons c before =>
        cases hl
        -- the head was no hit, so the failing item lies in the rest
        refine .inr ⟨false, hbefore a List.mem_cons_self, ?_⟩
        exact ih.mpr ⟨before, b, after, rfl,
          fun c hc => hbefore c (List.mem_cons_of_mem _ hc), hb⟩

/-- **A selection fails at the first failing element.** -/
theorem filterM_eq_error {p : α → Except ε Bool} {l : List α} {e : ε} :
    l.filterM p = .error e ↔ ∃ before a after, l = before ++ a :: after ∧
      (∀ b ∈ before, ∃ kept, p b = .ok kept) ∧ p a = .error e := by
  -- the accumulator has no influence on which item fails
  have haux : ∀ acc, l.filterAuxM p acc = .error e ↔ ∃ before a after, l = before ++ a :: after ∧
      (∀ b ∈ before, ∃ kept, p b = .ok kept) ∧ p a = .error e := by
    induction l with
    | nil =>
      intro acc
      constructor
      · intro h
        cases h
      · rintro ⟨before, a, after, h, -⟩
        cases before <;> cases h
    | cons a l ih =>
      intro acc
      rw [List.filterAuxM, bind_eq_error]
      constructor
      · rintro (h | ⟨kept, ha, h⟩)
        · exact ⟨[], a, l, rfl, nofun, h⟩
        · obtain ⟨before, b, after, rfl, hbefore, hb⟩ := (ih _).mp h
          refine ⟨a :: before, b, after, rfl, fun c hc => ?_, hb⟩
          rcases List.mem_cons.mp hc with rfl | hc
          · exact ⟨kept, ha⟩
          · exact hbefore c hc
      · rintro ⟨before, b, after, hl, hbefore, hb⟩
        cases before with
        | nil =>
          cases hl
          exact .inl hb
        | cons c before =>
          cases hl
          obtain ⟨kept, ha⟩ := hbefore a List.mem_cons_self
          refine .inr ⟨kept, ha, (ih _).mpr ⟨before, b, after, rfl,
            fun c hc => hbefore c (List.mem_cons_of_mem _ hc), hb⟩⟩
  rw [← haux []]
  unfold List.filterM
  rw [bind_eq_error]
  constructor
  · rintro (h | ⟨_, _, h⟩)
    · exact h
    · cases h
  · exact .inl

/-! ### The same tests -/

/-- A search depends on what is found out about each element of the list. -/
theorem anyM_congr {p p' : α → Except ε Bool} {l : List α} (h : ∀ a ∈ l, p a = p' a) :
    l.anyM p = l.anyM p' := by
  induction l with
  | nil => rfl
  | cons a l ih =>
    rw [anyM_cons, anyM_cons, h a List.mem_cons_self,
      ih fun b hb => h b (List.mem_cons_of_mem _ hb)]

/-- A selection depends on what is decided about each element of the list. -/
theorem filterM_congr {p p' : α → Except ε Bool} {l : List α} (h : ∀ a ∈ l, p a = p' a) :
    l.filterM p = l.filterM p' := by
  have haux : ∀ acc, l.filterAuxM p acc = l.filterAuxM p' acc := by
    induction l with
    | nil => exact fun _ => rfl
    | cons a l ih =>
      intro acc
      have hrest := ih fun b hb => h b (List.mem_cons_of_mem _ hb)
      simp only [List.filterAuxM, h a List.mem_cons_self, hrest]
  unfold List.filterM
  rw [haux]

/-! ### Ways to fail -/

/-- However a computation fails, it does so in one of some ways. -/
def FailsOnly (fails : ε → Prop) (x : Except ε α) : Prop := ∀ e, x = .error e → fails e

namespace FailsOnly

variable {fails : ε → Prop}

theorem ok (a : α) : FailsOnly fails (.ok a) := by
  intro e he
  cases he

theorem error {e : ε} (h : fails e) : FailsOnly fails (.error e : Except ε α) := by
  intro e' he
  cases he
  exact h

/-- **Two steps fail only in ways in which one of them fails.** -/
protected theorem bind {x : Except ε α} {f : α → Except ε β} (hx : FailsOnly fails x)
    (hf : ∀ a, FailsOnly fails (f a)) : FailsOnly fails (x >>= f) := by
  intro e he
  rcases bind_eq_error.mp he with he | ⟨a, -, he⟩
  · exact hx e he
  · exact hf a e he

/-- A failure gets another name. -/
theorem mapError {fails : δ → Prop} {rename : ε → δ} (h : ∀ e, fails (rename e))
    (x : Except ε α) : FailsOnly fails (x.mapError rename) := by
  cases x with
  | ok a => exact ok a
  | error e => exact error (h e)

end FailsOnly

/-! ### Computations that end alike -/

/-- Two computations that fail in the same way, or both succeed with results that are related. -/
inductive EndAlike (R : α → β → Prop) : Except ε α → Except ε β → Prop
  | ok {a : α} {b : β} (h : R a b) : EndAlike R (.ok a) (.ok b)
  | error (e : ε) : EndAlike R (.error e) (.error e)

namespace EndAlike

variable {γ : Type} {R : α → β → Prop}

/-- Whatever follows computations that end alike. -/
protected theorem bind {S : γ → δ → Prop} {x : Except ε α} {y : Except ε β} {f : α → Except ε γ}
    {g : β → Except ε δ} (h : EndAlike R x y) (hfg : ∀ a b, R a b → EndAlike S (f a) (g b)) :
    EndAlike S (x >>= f) (y >>= g) := by
  cases h with
  | ok h => exact hfg _ _ h
  | error e => exact .error e

/-- Failures get other names on both sides. -/
theorem mapError {x : Except ε α} {y : Except ε β} {rename : ε → δ} (h : EndAlike R x y) :
    EndAlike R (x.mapError rename) (y.mapError rename) := by
  cases h with
  | ok h => exact .ok h
  | error e => exact .error (rename e)

/-- Computations whose results are the same end the same way. -/
theorem eq {x y : Except ε α} (h : EndAlike Eq x y) : x = y := by
  cases h with
  | ok h => rw [h]
  | error e => rfl

end EndAlike

end LicenseForecast
