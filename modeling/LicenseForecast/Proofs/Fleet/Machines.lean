import LicenseForecast.Proofs.Fleet.Ending
import LicenseForecast.Proofs.Fleet.Overwrite
import LicenseForecast.Proofs.Fleet.Subtree

namespace LicenseForecast.Scope

/-!
# The machines that installations run on

An installation runs on the nearest machine on the way up from it, itself included, and counts by
what that machine contributes (`Scope.Counts`):

* `Scope.nearest_eq_found` — the walk of the program comes to the nearest asset of a type;
* `Scope.contributes_iff` — readings replace the values of a machine that they name, and of no
  other;
* `Scope.isActive_eq_true` — so the program says of exactly the installations that count that they
  do, unless it fails;
* `Scope.isActive_congr` — the readings that it is asked about matter only for the machine that
  the installation runs on.
-/

variable {s : Scope} {f : Forest} {rule : PooledRule} {readings : Readings} {typeName : String}
  {a m p : Asset}

/-! ### The nearest asset of a type -/

/-- `m` is the first asset of a type on the way up from `a`, which may be `a` itself. -/
def IsNearest (s : Scope) (typeName : String) (a m : Asset) : Prop :=
  m.typeName = typeName ∧ ∃ n, s.ascend n a = some m ∧
    ∀ k < n, ∀ t, s.ascend k a = some t → t.typeName ≠ typeName

/-- No asset of a type is on the way up from `a`, nor is `a` of the type. -/
def Lacks (s : Scope) (typeName : String) (a : Asset) : Prop :=
  ∀ n t, s.ascend n a = some t → t.typeName ≠ typeName

/-- What a walk up from an asset should come to. -/
def Walk.IsFrom (s : Scope) (typeName : String) (a : Asset) : Walk → Prop
  | .found m => s.IsNearest typeName a m
  | .ended => s.Lacks typeName a

/-- What has a nearest machine does not lack one. -/
theorem IsNearest.not_lacks (h : s.IsNearest typeName a m) : ¬ s.Lacks typeName a := by
  obtain ⟨htype, n, hn, -⟩ := h
  exact fun hlacks => hlacks n m hn htype

/-- One link further down the walk comes to the same. -/
theorem Walk.IsFrom.down {walk : Walk} (h : walk.IsFrom s typeName p)
    (hp : s.parentOf a = some p) (hne : a.typeName ≠ typeName) : walk.IsFrom s typeName a := by
  cases walk with
  | found m =>
    obtain ⟨htype, n, hn, hfirst⟩ := h
    refine ⟨htype, n + 1, (ascend_succ hp n).trans hn, fun k hk t ht => ?_⟩
    cases k with
    | zero => exact Option.some.inj ht ▸ hne
    | succ k => exact hfirst k (Nat.lt_of_succ_lt_succ hk) t ((ascend_succ hp k).symm.trans ht)
  | ended =>
    intro k t ht
    cases k with
    | zero => exact Option.some.inj ht ▸ hne
    | succ k => exact h k t ((ascend_succ hp k).symm.trans ht)

/-- **A walk comes to what it should.** -/
theorem isFrom_of_nearest {walk : Walk} (h : s.nearest typeName a = some walk) :
    walk.IsFrom s typeName a := by
  refine nearest_induction (motive := fun a walk => walk.IsFrom s typeName a)
    (fun a htype => ⟨htype, 0, rfl, fun k hk => absurd hk (Nat.not_lt_zero k)⟩)
    (fun a htype hp k t ht => ?_) (fun a p walk htype hp hwalk => hwalk.down hp htype) h
  cases k with
  | zero => exact Option.some.inj ht ▸ htype
  | succ k =>
    have hnone : (s.parentOf a).bind (s.ascend k) = some t := ht
    rw [hp] at hnone
    cases hnone

/-- **The nearest asset of a type** is what the walk of the program finds. -/
theorem nearest_eq_found :
    s.nearest typeName a = some (.found m) ↔ s.IsNearest typeName a m := by
  refine ⟨isFrom_of_nearest, ?_⟩
  rintro ⟨htype, n, hn, hfirst⟩
  -- by the number of links up to the asset that is found
  induction n generalizing a with
  | zero =>
    cases hn
    exact nearest_self htype
  | succ n ih =>
    obtain ⟨p, hp, hn⟩ := Option.bind_eq_some_iff.mp hn
    rw [nearest_of_parentOf (hfirst 0 (Nat.succ_pos n) a rfl) hp]
    refine ih hn fun k hk t ht => hfirst (k + 1) (Nat.succ_lt_succ hk) t ?_
    rw [ascend_succ hp, ht]

/-! ### What is read of a machine -/

/-- Readings carry the value that a machine stores under the first identifier of the base type. -/
def Names (rule : PooledRule) (readings : Readings) (m : Asset) : Prop :=
  ∃ identifier requested stored,
    rule.base.attributes.find? (·.isIdentifier) = some identifier ∧
    readings.value? identifier.id = some requested ∧
    m.attributes.get? identifier.id = some stored ∧ (requested == stored) = true

/-- Readings are meant for a machine exactly if they name it. -/
theorem isMeant_iff : isMeant rule readings m = true ↔ Names rule readings m := by
  unfold isMeant Names EquipmentType.identifier?
  cases hidentifier : rule.base.attributes.find? (·.isIdentifier) with
  | none => exact ⟨nofun, fun ⟨_, _, _, h, _⟩ => nomatch h⟩
  | some identifier =>
    simp only [Option.some.injEq]
    constructor
    · intro h
      split at h
      next requested stored hrequested hstored =>
        exact ⟨identifier, requested, stored, rfl, hrequested, hstored, h⟩
      · cases h
    · rintro ⟨_, requested, stored, rfl, hrequested, hstored, hequal⟩
      rw [hrequested, hstored]
      exact hequal

/-- **A machine that readings do not name keeps its own values.** -/
theorem effectiveReadings_of_not_names (h : ¬ Names rule readings m) :
    effectiveReadings rule readings m = m.readings := by
  unfold effectiveReadings
  rw [if_neg (mt isMeant_iff.mp h)]

/-- A machine that readings name has its values replaced by theirs. -/
theorem effectiveReadings_of_names (h : Names rule readings m) :
    effectiveReadings rule readings m = (m.overwrite readings).readings := by
  unfold effectiveReadings
  rw [if_pos (isMeant_iff.mpr h)]
  rfl

/-- What comes of the contribution of a machine: its own values count, or those that replace them
    in readings that name it. -/
def Contributes (rule : PooledRule) (readings : Readings) (m : Asset)
    (result : Except Failure Float) : Prop :=
  (Names rule readings m →
    Formula.contribution rule (m.overwrite readings).readings = result) ∧
  (¬ Names rule readings m → Formula.contribution rule m.readings = result)

/-- What a machine contributes is computed from its values as far as no readings name it. -/
theorem contributes_iff {result : Except Failure Float} : Contributes rule readings m result ↔
    Formula.contribution rule (effectiveReadings rule readings m) = result := by
  unfold Contributes
  by_cases hnames : Names rule readings m
  · rw [effectiveReadings_of_names hnames]
    exact ⟨fun h => h.1 hnames, fun h => ⟨fun _ => h, fun hnot => absurd hnames hnot⟩⟩
  · rw [effectiveReadings_of_not_names hnames]
    exact ⟨fun h => h.2 hnames, fun h => ⟨fun hyes => absurd hyes hnames, fun _ => h⟩⟩

/-! ### Installations that count -/

/-- An installation counts: the machine that it runs on contributes processors, or there is no
    such machine. -/
def Counts (s : Scope) (rule : PooledRule) (readings : Readings) (a : Asset) : Prop :=
  (∃ m c, s.IsNearest rule.base.name a m ∧ Contributes rule readings m (.ok c) ∧ 0.0 < c) ∨
  s.Lacks rule.base.name a

/-- What is said of an installation on a machine. -/
theorem isActive_of_isNearest (h : s.IsNearest rule.base.name a m) :
    s.isActive rule readings a
      = (Formula.contribution rule (effectiveReadings rule readings m)).mapError (assetFault m)
          >>= fun c => .ok (decide (0.0 < c)) := by
  unfold isActive
  rw [nearest_eq_found.mpr h]
  rfl

/-- **The installations that count** are those that are said to, where the walk up from them
    ends. -/
theorem isActive_eq_true {walk : Walk} (hwalk : s.nearest rule.base.name a = some walk) :
    s.isActive rule readings a = .ok true ↔ s.Counts rule readings a := by
  cases walk with
  | found m =>
    have hnearest := nearest_eq_found.mp hwalk
    rw [isActive_of_isNearest hnearest]
    simp only [bind_eq_ok, mapError_eq_ok, Except.ok.injEq, decide_eq_true_eq]
    constructor
    · rintro ⟨c, hc, hpositive⟩
      exact .inl ⟨m, c, hnearest, contributes_iff.mpr hc, hpositive⟩
    · rintro (⟨m', c, hnearest', hc, hpositive⟩ | hlacks)
      · -- there is only one nearest machine
        cases hwalk.symm.trans (nearest_eq_found.mpr hnearest')
        exact ⟨c, contributes_iff.mp hc, hpositive⟩
      · exact absurd hlacks hnearest.not_lacks
  | ended =>
    have hlacks : s.Lacks rule.base.name a := isFrom_of_nearest hwalk
    unfold isActive
    rw [hwalk]
    exact ⟨fun _ => .inr hlacks, fun _ => rfl⟩

/-- Where the walk up from an installation ends, nothing is said of it only if the contribution of
    its machine cannot be computed. -/
theorem isActive_eq_error {walk : Walk} (hwalk : s.nearest rule.base.name a = some walk)
    {fault : LookupFault} (h : s.isActive rule readings a = .error fault) :
    ∃ m failure, s.IsNearest rule.base.name a m ∧
      Contributes rule readings m (.error failure) ∧ fault = assetFault m failure := by
  cases walk with
  | found m =>
    have hnearest := nearest_eq_found.mp hwalk
    rw [isActive_of_isNearest hnearest] at h
    rcases bind_eq_error.mp h with h | ⟨_, -, h⟩
    · obtain ⟨failure, hfailure, rfl⟩ := mapError_eq_error.mp h
      exact ⟨m, failure, hnearest, contributes_iff.mpr hfailure, rfl⟩
    · cases h
  | ended =>
    unfold isActive at h
    rw [hwalk] at h
    cases h

/-- **Readings matter only for the machine** that an installation runs on. -/
theorem isActive_congr {other : Readings}
    (h : ∀ m, s.IsNearest rule.base.name a m →
      effectiveReadings rule readings m = effectiveReadings rule other m) :
    s.isActive rule readings a = s.isActive rule other a := by
  unfold isActive
  cases hwalk : s.nearest rule.base.name a with
  | none => rfl
  | some walk =>
    cases walk with
    | found m => simp only [h m (nearest_eq_found.mp hwalk)]
    | ended => rfl

end LicenseForecast.Scope
