import LicenseForecast.Proofs.Equipment.Ascent
import Mathlib.Logic.Relation

namespace LicenseForecast

/-!
# Which types make a forest

`Forest.ofTypes` looks for a circle by counting steps upwards.  What a list of types has to be
like is said here without counting: ids and names are distinct (`Forest.Distinct`), every parent
is listed (`Forest.ParentsListed`), and no type lies above itself (`Forest.Acyclic`).

* `Forest.exists_return` — a way up with more steps than there are types comes back to a type that
  it has passed, so the count is exact for each type (`Forest.isSome_ascend_iff`) and for all of
  them (`Forest.endless?_eq_none_iff`);
* `Forest.represents_of_ofTypes` — an accepted forest finds the parent of a type by its index, and
  each type by its id and by its name;
* `Forest.ofTypes_accepts` — exactly the lists of that kind are accepted, and of several reasons to
  refuse a list the first is reported.
-/

/-- The id of the parent that a type names, if it names one.  An empty id names none. -/
def EquipmentType.namedParent? (t : EquipmentType) : Option String :=
  t.parentId.filter (!·.isEmpty)

namespace Forest

/-- No id and no name belongs to two types. -/
def Distinct (types : List EquipmentType) : Prop :=
  (types.map (·.id)).Nodup ∧ (types.map (·.name)).Nodup

/-- Every parent that a type names is listed. -/
def ParentsListed (types : List EquipmentType) : Prop :=
  ∀ t ∈ types, ∀ id, t.namedParent? = some id → id ∈ types.map (·.id)

/-- A listed type names another one as its parent. -/
def NamesParent (types : List EquipmentType) (t p : EquipmentType) : Prop :=
  t ∈ types ∧ p ∈ types ∧ t.namedParent? = some p.id

/-- No type lies above itself. -/
def Acyclic (types : List EquipmentType) : Prop :=
  ∀ t, ¬ Relation.TransGen (NamesParent types) t t

/-- A type, or one above it, lies above itself. -/
def LeadsToCircle (types : List EquipmentType) (t : EquipmentType) : Prop :=
  ∃ u, Relation.ReflTransGen (NamesParent types) t u ∧ Relation.TransGen (NamesParent types) u u

/-- A forest keeps some types in their order.  The parent of a type is the one that bears the id
    which the type names, and each type is found by its id and by its name. -/
structure Represents (f : Forest) (types : List EquipmentType) : Prop where
  get? : ∀ i, f.get? i = types[i]?
  parentOf : ∀ i j, f.parentOf i = some j ↔
    ∃ t p, types[i]? = some t ∧ types[j]? = some p ∧ t.namedParent? = some p.id
  indexOfId? : ∀ id i, f.indexOfId? id = some i ↔ ∃ t, types[i]? = some t ∧ t.id = id
  indexOfName? : ∀ name i, f.indexOfName? name = some i ↔ ∃ t, types[i]? = some t ∧ t.name = name
  withId? : ∀ id t, f.withId? id = some t ↔ t ∈ types ∧ t.id = id
  withName? : ∀ name t, f.withName? name = some t ↔ t ∈ types ∧ t.name = name

/-! ### Types and their keys -/

section

variable {types : List EquipmentType} {key : EquipmentType → String}

/-- Where keys are distinct, a key has the index of the type that bears it. -/
private theorem findIdx?_key (h : (types.map key).Nodup) {k : String} {i : Nat} :
    types.findIdx? (key · == k) = some i ↔ ∃ t, types[i]? = some t ∧ key t = k := by
  rw [List.findIdx?_eq_some_iff_getElem]
  constructor
  · rintro ⟨hi, hkey, -⟩
    exact ⟨_, List.getElem?_eq_getElem hi, beq_iff_eq.mp hkey⟩
  · rintro ⟨t, ht, rfl⟩
    obtain ⟨hi, rfl⟩ := List.getElem?_eq_some_iff.mp ht
    refine ⟨hi, beq_self_eq_true _, fun j hj hkey => ?_⟩
    have hne := List.pairwise_iff_getElem.mp h j i (by simpa using Nat.lt_trans hj hi)
      (by simpa using hi) hj
    simp only [List.getElem_map] at hne
    exact hne (beq_iff_eq.mp hkey)

/-- Where keys are distinct, a key finds the type that bears it. -/
private theorem find?_key (h : (types.map key).Nodup) {k : String} {t : EquipmentType} :
    types.find? (key · == k) = some t ↔ t ∈ types ∧ key t = k := by
  constructor
  · intro hfind
    have hkey := List.find?_some hfind
    exact ⟨List.mem_of_find?_eq_some hfind, beq_iff_eq.mp hkey⟩
  · rintro ⟨ht, rfl⟩
    cases hfind : types.find? (key · == key t) with
    | none =>
      have hnot := List.find?_eq_none.mp hfind t ht
      exact absurd (beq_self_eq_true _) hnot
    | some u =>
      have hkey := List.find?_some hfind
      rw [List.inj_on_of_nodup_map h (List.mem_of_find?_eq_some hfind) ht (beq_iff_eq.mp hkey)]

end

/-! ### Repeated ids and names -/

/-- A key that has come up before is borne by two types. -/
private theorem one_lt_count {earlier rest : List EquipmentType} {t : EquipmentType}
    {key : EquipmentType → String} (h : earlier.any (key · == key t) = true) :
    1 < ((earlier ++ t :: rest).map key).count (key t) := by
  obtain ⟨e, he, hkey⟩ := List.any_eq_true.mp h
  have hbefore : 0 < (earlier.map key).count (key t) :=
    List.count_pos_iff.mpr (List.mem_map.mpr ⟨e, he, beq_iff_eq.mp hkey⟩)
  rw [List.map_append, List.count_append, List.map_cons, List.count_cons_self]
  omega

/-- **What is reported as repeated is repeated.** -/
theorem repeated_of_duplicate? {earlier types : List EquipmentType} {fault : ModelFault}
    (h : duplicate? earlier types = some fault) :
    (∃ id, fault = .duplicateTypeId id ∧ 1 < ((earlier ++ types).map (·.id)).count id) ∨
      ∃ name, fault = .duplicateTypeName name ∧
        1 < ((earlier ++ types).map (·.name)).count name := by
  induction types generalizing earlier with
  | nil => cases h
  | cons t rest ih =>
    unfold duplicate? at h
    split at h
    next hid =>
      cases h
      exact .inl ⟨t.id, rfl, one_lt_count hid⟩
    · split at h
      next hname =>
        cases h
        exact .inr ⟨t.name, rfl, one_lt_count hname⟩
      · -- the order of the types met so far does not matter
        have hperm : (t :: earlier ++ rest).Perm (earlier ++ t :: rest) := List.perm_middle.symm
        have hid := fun id => (hperm.map (·.id)).count_eq id
        have hname := fun name => (hperm.map (·.name)).count_eq name
        simp only [← hid, ← hname]
        exact ih h

/-! ### Ways up that come back -/

/-- **A way up that is too long comes back**: with more steps than there are types it passes one
    of them twice. -/
theorem exists_return {f : Forest} (hsize : f.parents.size = f.types.size) {i : Nat}
    (h : (f.ascend (f.types.size + 1) i).isSome) :
    ∃ m j n, f.ascend m i = some j ∧ f.ascend (n + 1) j = some j := by
  have hpassed : ∀ k ≤ f.types.size, ∃ p : Fin f.types.size, f.ascend k i = some ↑p := by
    intro k hk
    have hnext : (f.ascend (k + 1) i).isSome := isSome_ascend_of_le (Nat.succ_le_succ hk) h
    obtain ⟨j, hj⟩ := Option.isSome_iff_exists.mp hnext
    rw [ascend_add] at hj
    obtain ⟨p, hp, hparent⟩ := Option.bind_eq_some_iff.mp hj
    obtain ⟨q, hq, -⟩ := Option.bind_eq_some_iff.mp hparent
    -- a type that has a parent is listed
    have hlt : p < f.parents.size := by
      by_contra hge
      unfold parentOf at hq
      rw [Array.getElem?_eq_none (Nat.not_lt.mp hge)] at hq
      cases hq
    exact ⟨⟨p, hsize ▸ hlt⟩, hp⟩
  obtain ⟨k, l, j, hlt, -, hk, hl⟩ := exists_round hpassed
  obtain ⟨n, rfl⟩ := Nat.exists_eq_add_of_lt hlt
  rw [Nat.add_assoc, ascend_add, hk] at hl
  exact ⟨k, j, n, hk, hl⟩

/-- A type that leads to a circle names a parent that does. -/
theorem LeadsToCircle.exists_parent {types : List EquipmentType} {t : EquipmentType}
    (h : LeadsToCircle types t) :
    ∃ p, NamesParent types t p ∧ LeadsToCircle types p := by
  obtain ⟨u, hreach, hcircle⟩ := h
  rcases hreach.cases_head with rfl | ⟨p, hparent, hreach⟩
  · -- on the circle, the parent leads back to the type itself
    obtain ⟨p, hparent, hback⟩ := Relation.TransGen.head'_iff.mp hcircle
    exact ⟨p, hparent, t, hback, hcircle⟩
  · exact ⟨p, hparent, u, hreach, hcircle⟩

/-! ### Parents -/

/-- A type that names no parent has none. -/
private theorem findParent_of_none {types : List EquipmentType} {t : EquipmentType}
    (h : t.namedParent? = none) : findParent types.toArray t = .ok none := by
  unfold EquipmentType.namedParent? at h
  unfold findParent
  cases hparent : t.parentId with
  | none => rfl
  | some id =>
    rw [hparent, Option.filter_some] at h
    cases hempty : id.isEmpty with
    | true => simp only [hempty, if_true]
    | false =>
      rw [hempty] at h
      cases h

/-- Where the parent is looked for that a type names. -/
private theorem findParent_of_some {types : List EquipmentType} {t : EquipmentType} {id : String}
    (h : t.namedParent? = some id) : findParent types.toArray t
      = (types.findIdx? (·.id == id)).elim (.error (.unknownParent t.name id)) (.ok ∘ some) := by
  obtain ⟨hparent, hnonempty⟩ := Option.filter_eq_some_iff.mp h
  unfold findParent
  simp only [hparent, List.findIdx?_toArray]
  rw [if_neg (by simpa using hnonempty)]
  cases types.findIdx? (·.id == id) <;> rfl

/-- A parent is found if it is listed or none is named. -/
private theorem exists_findParent_iff {types : List EquipmentType} {t : EquipmentType} :
    (∃ found, findParent types.toArray t = .ok found) ↔
      ∀ id, t.namedParent? = some id → id ∈ types.map (·.id) := by
  cases hid : t.namedParent? with
  | none => exact ⟨fun _ => nofun, fun _ => ⟨none, findParent_of_none hid⟩⟩
  | some id =>
    rw [findParent_of_some hid]
    have hlisted : id ∈ types.map (·.id) ↔ (types.findIdx? (·.id == id)).isSome := by
      simp [List.findIdx?_isSome]
    simp only [Option.some.injEq, forall_eq', hlisted]
    cases types.findIdx? (·.id == id) <;> simp

/-- A parent that is not found is named and not listed. -/
private theorem findParent_eq_error {types : List EquipmentType} {t : EquipmentType}
    {fault : ModelFault} (h : findParent types.toArray t = .error fault) :
    ∃ id, t.namedParent? = some id ∧ id ∉ types.map (·.id) ∧
      fault = .unknownParent t.name id := by
  -- a search that failed has found nothing, which leaves a parent that is not listed
  have hnot : ¬ ∃ found, findParent types.toArray t = .ok found := by
    rintro ⟨_, hfound⟩
    cases h.symm.trans hfound
  rw [exists_findParent_iff] at hnot
  push Not at hnot
  obtain ⟨id, hid, hunlisted⟩ := hnot
  refine ⟨id, hid, hunlisted, ?_⟩
  rw [findParent_of_some hid] at h
  cases hfind : types.findIdx? (·.id == id) with
  | none =>
    rw [hfind] at h
    cases h
    rfl
  | some i =>
    rw [hfind] at h
    cases h

/-- **All parents are found** exactly if all that are named are listed. -/
theorem exists_parents_iff {types : List EquipmentType} :
    (∃ parents, types.mapM (findParent types.toArray) = .ok parents) ↔ ParentsListed types := by
  unfold ParentsListed
  simp only [← exists_findParent_iff]
  constructor
  · rintro ⟨parents, h⟩ t ht
    obtain ⟨found, -, hfound⟩ := exists_ok_of_mapM h ht
    exact ⟨found, hfound⟩
  · intro h
    cases hparents : types.mapM (findParent types.toArray) with
    | ok parents => exact ⟨parents, rfl⟩
    | error fault =>
      obtain ⟨before, t, after, hsplit, -, hfault⟩ := mapM_eq_error.mp hparents
      obtain ⟨found, hfound⟩ := h t (hsplit ▸ List.mem_append_right _ List.mem_cons_self)
      cases hfault.symm.trans hfound

section

variable {types : List EquipmentType} {parents : List (Option Nat)} (hdistinct : Distinct types)
  (hparents : types.mapM (findParent types.toArray) = .ok parents)

include hdistinct hparents

/-- **The parent of a type** in a forest is the type that bears the id which it names. -/
theorem parentOf_eq_some {i j : Nat} :
    (⟨types.toArray, parents.toArray⟩ : Forest).parentOf i = some j ↔
      ∃ t p, types[i]? = some t ∧ types[j]? = some p ∧ t.namedParent? = some p.id := by
  have hfound : ∀ t, findParent types.toArray t = .ok (some j) ↔
      ∃ p, types[j]? = some p ∧ t.namedParent? = some p.id := by
    intro t
    cases hid : t.namedParent? with
    | none =>
      rw [findParent_of_none hid]
      exact ⟨nofun, nofun⟩
    | some id =>
      rw [findParent_of_some hid]
      simp only [Option.some.injEq, eq_comm (a := id)]
      -- with distinct ids the search for a parent and the list agree
      rw [← findIdx?_key hdistinct.1]
      cases types.findIdx? (·.id == id) <;> simp
  have hat : (types.map (findParent types.toArray))[i]? = (parents.map .ok)[i]? := by
    rw [mapM_eq_ok.mp hparents]
  rw [List.getElem?_map, List.getElem?_map] at hat
  unfold parentOf
  rw [List.getElem?_toArray]
  cases ht : types[i]? with
  -- parents were found type by type, so place `i` of one list belongs to place `i` of the other
  | none =>
    rw [ht, Option.map_none, eq_comm, Option.map_eq_none_iff] at hat
    rw [hat]
    exact ⟨nofun, nofun⟩
  | some t =>
    rw [ht, Option.map_some, eq_comm, Option.map_eq_some_iff] at hat
    obtain ⟨found, hget, hok⟩ := hat
    rw [hget]
    simp only [Option.join_some, Option.some.injEq, exists_and_left, exists_eq_left']
    rw [← hfound, ← hok, Except.ok.injEq]

/-- Steps up in a forest follow the parents that types name. -/
private theorem transGen_of_ascend {n i j : Nat} {t : EquipmentType} (ht : types[i]? = some t)
    (h : (⟨types.toArray, parents.toArray⟩ : Forest).ascend (n + 1) i = some j) :
    ∃ u, types[j]? = some u ∧ Relation.TransGen (NamesParent types) t u := by
  induction n generalizing i t with
  | zero =>
    obtain ⟨k, hparent, hk⟩ := Option.bind_eq_some_iff.mp h
    cases hk
    obtain ⟨_, p, ht', hp, hnames⟩ := (parentOf_eq_some hdistinct hparents).mp hparent
    cases ht.symm.trans ht'
    exact ⟨p, hp, .single ⟨List.mem_of_getElem? ht, List.mem_of_getElem? hp, hnames⟩⟩
  | succ n ih =>
    obtain ⟨k, hparent, hk⟩ := Option.bind_eq_some_iff.mp h
    obtain ⟨_, p, ht', hp, hnames⟩ := (parentOf_eq_some hdistinct hparents).mp hparent
    cases ht.symm.trans ht'
    obtain ⟨u, hu, habove⟩ := ih hp hk
    exact ⟨u, hu, .head ⟨List.mem_of_getElem? ht, List.mem_of_getElem? hp, hnames⟩ habove⟩

/-- A way up that is too long has led to a circle. -/
private theorem leadsToCircle_of_ascend {i : Nat} {t : EquipmentType} (ht : types[i]? = some t)
    (h : ((⟨types.toArray, parents.toArray⟩ : Forest).ascend (types.length + 1) i).isSome) :
    LeadsToCircle types t := by
  have hsize : parents.toArray.size = types.toArray.size := by
    have hlength := congrArg List.length (mapM_eq_ok.mp hparents)
    simpa using hlength.symm
  obtain ⟨m, j, n, hreach, hreturn⟩ :=
    exists_return (f := ⟨types.toArray, parents.toArray⟩) hsize h
  -- whatever has a parent is listed
  obtain ⟨k, hparent, -⟩ := Option.bind_eq_some_iff.mp hreturn
  obtain ⟨u, _, hu, -⟩ := (parentOf_eq_some hdistinct hparents).mp hparent
  obtain ⟨u', hu', hcircle⟩ := transGen_of_ascend hdistinct hparents hu hreturn
  rw [hu, Option.some.injEq] at hu'
  subst hu'
  refine ⟨u, ?_, hcircle⟩
  cases m with
  | zero =>
    rw [ascend, Option.some.injEq] at hreach
    rw [hreach, hu, Option.some.injEq] at ht
    rw [ht]
  | succ m =>
    obtain ⟨v, hv, habove⟩ := transGen_of_ascend hdistinct hparents ht hreach
    rw [hu, Option.some.injEq] at hv
    rw [hv]
    exact habove.to_reflTransGen

/-- **Ways up are too long** exactly from the types that lead to a circle. -/
theorem isSome_ascend_iff {i : Nat} {t : EquipmentType} (ht : types[i]? = some t) :
    ((⟨types.toArray, parents.toArray⟩ : Forest).ascend (types.length + 1) i).isSome ↔
      LeadsToCircle types t := by
  refine ⟨leadsToCircle_of_ascend hdistinct hparents ht, fun h => ?_⟩
  -- there always is one more step
  generalize types.length + 1 = n
  induction n generalizing i t with
  | zero => rfl
  | succ n ih =>
    obtain ⟨p, ⟨hmem, hp, hnames⟩, hleads⟩ := h.exists_parent
    obtain ⟨j, hj⟩ := List.getElem?_of_mem hp
    rw [ascend, (parentOf_eq_some hdistinct hparents).mpr ⟨t, p, ht, hj, hnames⟩]
    exact ih hj hleads

/-- **Counting steps finds exactly the circles.** -/
theorem endless?_eq_none_iff :
    (⟨types.toArray, parents.toArray⟩ : Forest).endless? = none ↔ Acyclic types := by
  rw [endless?_eq_none]
  constructor
  · intro hends t hcircle
    obtain ⟨_, ⟨hmem, -, -⟩, -⟩ := Relation.TransGen.head'_iff.mp hcircle
    obtain ⟨i, hi⟩ := List.getElem?_of_mem hmem
    -- a type on a circle has a way up of any length, one longer than the list included
    have hlong := (isSome_ascend_iff hdistinct hparents hi).mpr ⟨t, .refl, hcircle⟩
    have hlt : i < types.toArray.size := by simpa using (List.getElem?_eq_some_iff.mp hi).1
    rw [← List.size_toArray, hends i hlt] at hlong
    cases hlong
  · intro hacyclic i hi
    by_contra hlong
    have ht : types[i]? = some types[i] := List.getElem?_eq_getElem hi
    -- a way up that is too long passes some type twice
    obtain ⟨u, -, hcircle⟩ := (isSome_ascend_iff hdistinct hparents ht).mp
      (Option.isSome_iff_ne_none.mpr hlong)
    exact hacyclic u hcircle

end

/-! ### Which lists are accepted -/

/-- **What an accepted forest finds.** -/
theorem represents_of_ofTypes {types : List EquipmentType} {f : Forest}
    (h : ofTypes types = .ok f) : f.Represents types := by
  obtain ⟨hdup, parents, hparents, rfl, -⟩ := ofTypes_eq_ok.mp h
  obtain ⟨hids, hnames, -⟩ := duplicate?_eq_none.mp hdup
  constructor
  case get? => exact fun i => List.getElem?_toArray
  case parentOf => exact fun i j => parentOf_eq_some ⟨hids, hnames⟩ hparents
  case indexOfId? =>
    intro id i
    unfold Forest.indexOfId?
    -- with a repeated type the list is not distinct
    rw [List.findIdx?_toArray]
    exact findIdx?_key hids
  case indexOfName? =>
    intro name i
    unfold Forest.indexOfName?
    rw [List.findIdx?_toArray]
    exact findIdx?_key hnames
  case withId? =>
    intro id t
    unfold Forest.withId?
    rw [List.find?_toArray]
    exact find?_key hids
  case withName? =>
    intro name t
    unfold Forest.withName?
    rw [List.find?_toArray]
    exact find?_key hnames

/-- **A type has a parent in the forest** exactly if it names one. -/
theorem isSome_parentOf_iff {types : List EquipmentType} {f : Forest} {i : Nat}
    {t : EquipmentType} (hf : ofTypes types = .ok f) (ht : types[i]? = some t) :
    (f.parentOf i).isSome ↔ t.namedParent?.isSome := by
  have hparentOf := (represents_of_ofTypes hf).parentOf i
  simp only [Option.isSome_iff_exists, hparentOf]
  constructor
  · rintro ⟨j, _, p, ht', -, hnamed⟩
    cases ht.symm.trans ht'
    exact ⟨p.id, hnamed⟩
  · rintro ⟨id, hnamed⟩
    obtain ⟨-, parents, hparents, -⟩ := ofTypes_eq_ok.mp hf
    have hlisted := exists_parents_iff.mp ⟨parents, hparents⟩ t (List.mem_of_getElem? ht) id hnamed
    obtain ⟨p, hp, rfl⟩ := List.mem_map.mp hlisted
    obtain ⟨j, hj⟩ := List.getElem?_of_mem hp
    exact ⟨j, t, p, ht, hj, hnamed⟩

/-- A list is refused by the first check that it does not pass. -/
theorem refused_of_ofTypes {types : List EquipmentType} {fault : ModelFault}
    (h : ofTypes types = .error fault) :
    (¬ Distinct types ∧
      ((∃ id, fault = .duplicateTypeId id ∧ 1 < (types.map (·.id)).count id) ∨
        ∃ name, fault = .duplicateTypeName name ∧ 1 < (types.map (·.name)).count name)) ∨
    (Distinct types ∧ ∃ t ∈ types, ∃ id, t.namedParent? = some id ∧ id ∉ types.map (·.id) ∧
      fault = .unknownParent t.name id) ∨
    Distinct types ∧ ParentsListed types ∧ ¬ Acyclic types ∧
      ∃ t ∈ types, fault = .cycle t.name := by
  unfold ofTypes at h
  cases hdup : duplicate? [] types with
  | some repeated =>
    rw [hdup] at h
    cases h
    refine .inl ⟨fun hdistinct => ?_, repeated_of_duplicate? hdup⟩
    have hnone := duplicate?_eq_none.mpr
      ⟨hdistinct.1, hdistinct.2, fun _ _ _ h => absurd h List.not_mem_nil⟩
    cases hdup.symm.trans hnone
  | none =>
    rw [hdup] at h
    obtain ⟨hids, hnames, -⟩ := duplicate?_eq_none.mp hdup
    have hdistinct : Distinct types := ⟨hids, hnames⟩
    rcases bind_eq_error.mp h with hparents | ⟨parents, hparents, hendless⟩
    -- parents are looked up type by type, and the first that is unknown is reported
    · obtain ⟨before, t, after, rfl, -, hfault⟩ := mapM_eq_error.mp hparents
      obtain ⟨id, hid, hunlisted, rfl⟩ := findParent_eq_error hfault
      exact .inr (.inl ⟨hdistinct, t, List.mem_append_right _ List.mem_cons_self, id, hid,
        hunlisted, rfl⟩)
    -- with all parents known only a circle is left to report
    · have hcircle := endless?_eq_none_iff hdistinct hparents
      cases hfind : endless? ⟨types.toArray, parents.toArray⟩ with
      | none =>
        simp only [hfind] at hendless
        cases hendless
      | some t =>
        simp only [hfind] at hendless
        cases hendless
        obtain ⟨i, -, ht⟩ := Option.bind_eq_some_iff.mp hfind
        have hmem : t ∈ types := List.mem_of_getElem? (List.getElem?_toArray.symm.trans ht)
        have hcyclic : ¬ Acyclic types := by
          rw [← hcircle, hfind]
          nofun
        exact .inr (.inr ⟨hdistinct, exists_parents_iff.mp ⟨parents, hparents⟩, hcyclic, t, hmem,
          rfl⟩)

/-- **Exactly the forests are accepted**, and an accepted forest finds parents and types where the
    list has them.  What is refused is refused for a repeated id or name before an unknown parent,
    and for that before a circle. -/
theorem ofTypes_accepts (types : List EquipmentType) :
    ((∃ f, ofTypes types = .ok f) ↔ Distinct types ∧ ParentsListed types ∧ Acyclic types) ∧
    (∀ f, ofTypes types = .ok f → f.Represents types) ∧
    ∀ fault, ofTypes types = .error fault →
      (¬ Distinct types →
        (∃ id, fault = .duplicateTypeId id ∧ 1 < (types.map (·.id)).count id) ∨
          ∃ name, fault = .duplicateTypeName name ∧ 1 < (types.map (·.name)).count name) ∧
      (Distinct types → ¬ ParentsListed types → ∃ t ∈ types, ∃ id, t.namedParent? = some id ∧
        id ∉ types.map (·.id) ∧ fault = .unknownParent t.name id) ∧
      (Distinct types → ParentsListed types → ∃ t ∈ types, fault = .cycle t.name) := by
  refine ⟨⟨?accepted, ?accepts⟩, fun f => represents_of_ofTypes, fun fault h => ?refused⟩
  case accepted =>
    rintro ⟨f, hf⟩
    obtain ⟨hdup, parents, hparents, rfl, hendless⟩ := ofTypes_eq_ok.mp hf
    obtain ⟨hids, hnames, -⟩ := duplicate?_eq_none.mp hdup
    exact ⟨⟨hids, hnames⟩, exists_parents_iff.mp ⟨parents, hparents⟩,
      (endless?_eq_none_iff ⟨hids, hnames⟩ hparents).mp hendless⟩
  case accepts =>
    rintro ⟨hdistinct, hlisted, hacyclic⟩
    obtain ⟨parents, hparents⟩ := exists_parents_iff.mpr hlisted
    have hdup : duplicate? [] types = none :=
      duplicate?_eq_none.mpr ⟨hdistinct.1, hdistinct.2, fun _ _ _ h => absurd h List.not_mem_nil⟩
    exact ⟨_, ofTypes_eq_ok.mpr ⟨hdup, parents, hparents, rfl,
      (endless?_eq_none_iff hdistinct hparents).mpr hacyclic⟩⟩
  case refused =>
    -- the check names the first of the three faults, so each part is settled by one of them
    rcases refused_of_ofTypes h with ⟨hrepeated, hfault⟩ |
      ⟨hdistinct, t, ht, id, hid, hun, hfault⟩ | ⟨hdistinct, hlisted, -, hfault⟩
    · exact ⟨fun _ => hfault, fun h => absurd h hrepeated, fun h => absurd h hrepeated⟩
    · refine ⟨fun h => absurd hdistinct h, fun _ _ => ⟨t, ht, id, hid, hun, hfault⟩, fun _ h => ?_⟩
      exact absurd (h t ht id hid) hun
    · exact ⟨fun h => absurd hdistinct h, fun _ h => absurd hlisted h, fun _ _ => hfault⟩

end Forest

end LicenseForecast
