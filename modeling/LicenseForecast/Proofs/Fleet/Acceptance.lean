import LicenseForecast.Proofs.Dictionary
import LicenseForecast.Proofs.Equipment.Acceptance
import LicenseForecast.Proofs.Fleet.Linked

namespace LicenseForecast

/-!
# Which fleets are accepted

The checks on loading stop at the first thing that is wrong.  What has to be right is said here
without an order (`Scope.Servable`, `Fleet.Acceptable`), and what is reported otherwise with
nothing but the order (`Scope.FirstFault`, `Fleet.FirstFault`): scopes by name, within a scope its
types before their attribute roles before its assets, and of each the first in its list.

* `Scope.check_eq_ok` and `Scope.check_eq_error` — the checks on a scope are exact in both ways;
* `Fleet.check_eq_ok` and `Fleet.check_eq_error` — and so are those on a fleet.
-/

namespace Scope

/-- Every asset is of a listed type, and no id belongs to two assets. -/
structure Listable (types : List EquipmentType) (assets : List Asset) : Prop where
  typed : ∀ a ∈ assets, a.typeName ∈ types.map (·.name)
  ids_nodup : (assets.map (·.id)).Nodup

/-- What makes a scope fit to be served: its types form a forest, they keep to the rules of
    attribute roles if these count, and its assets fit together. -/
structure Servable (strict : Bool) (s : Scope) : Prop where
  forest : ∃ f, Forest.ofTypes s.types = .ok f
  roles : strict = true → ∀ t ∈ s.types, t.checkRoles = .ok ()
  listable : Listable s.types s.assets

/-- What is reported of a scope of the given name that is not fit to be served.  Everything that is
    looked at earlier is as it should be. -/
inductive FirstFault (name : String) (strict : Bool) (s : Scope) : LoadFault → Prop
  | types {fault : ModelFault} (refused : Forest.ofTypes s.types = .error fault) :
      FirstFault name strict s (.types name fault)
  | roles {before after : List EquipmentType} {t : EquipmentType} {fault : ModelFault}
      (forest : ∃ f, Forest.ofTypes s.types = .ok f) (counts : strict = true)
      (split : s.types = before ++ t :: after) (earlier : ∀ u ∈ before, u.checkRoles = .ok ())
      (refused : t.checkRoles = .error fault) : FirstFault name strict s (.roles name fault)
  | unknownType {before after : List Asset} {a : Asset}
      (forest : ∃ f, Forest.ofTypes s.types = .ok f)
      (roles : strict = true → ∀ t ∈ s.types, t.checkRoles = .ok ())
      (split : s.assets = before ++ a :: after) (earlier : Listable s.types before)
      (unlisted : a.typeName ∉ s.types.map (·.name)) :
      FirstFault name strict s (.unknownType name a.id a.typeName)
  | duplicateEquipment {before after : List Asset} {a : Asset}
      (forest : ∃ f, Forest.ofTypes s.types = .ok f)
      (roles : strict = true → ∀ t ∈ s.types, t.checkRoles = .ok ())
      (split : s.assets = before ++ a :: after) (earlier : Listable s.types before)
      (listed : a.typeName ∈ s.types.map (·.name)) (repeated : a.id ∈ before.map (·.id)) :
      FirstFault name strict s (.duplicateEquipment name a.id)

/-! ### Assets -/

section

variable {name : String} {f : Forest} {types : List EquipmentType}
  (hf : Forest.ofTypes types = .ok f)

include hf

/-- A forest has a type of each name that is listed. -/
private theorem isSome_withName?_iff {typeName : String} :
    (f.withName? typeName).isSome ↔ typeName ∈ types.map (·.name) := by
  simp only [Option.isSome_iff_exists, (Forest.represents_of_ofTypes hf).withName?, List.mem_map]

/-- Assets can be listed if none of them is at fault. -/
theorem listable_iff {assets : List Asset} :
    Listable types assets ↔ assetFault? name f [] assets = none := by
  rw [assetFault?_eq_none]
  simp only [isSome_withName?_iff hf]
  exact ⟨fun ⟨htyped, hnodup⟩ => ⟨htyped, hnodup, fun _ _ => List.not_mem_nil⟩,
    fun ⟨htyped, hnodup, _⟩ => ⟨htyped, hnodup⟩⟩

end

/-- **The first asset that does not fit is reported**, and for its type before its id. -/
theorem assetFault?_eq_some {name : String} {f : Forest} {earlier : List String}
    {assets : List Asset} {fault : LoadFault} :
    assetFault? name f earlier assets = some fault ↔ ∃ before a after,
      assets = before ++ a :: after ∧ assetFault? name f earlier before = none ∧
        (f.withName? a.typeName = none ∧ fault = .unknownType name a.id a.typeName ∨
          (f.withName? a.typeName).isSome ∧ (a.id ∈ earlier ∨ a.id ∈ before.map (·.id)) ∧
            fault = .duplicateEquipment name a.id) := by
  induction assets generalizing earlier with
  | nil =>
    constructor
    · nofun
    · rintro ⟨before, a, after, h, -⟩
      cases before <;> cases h
  | cons b rest ih =>
    -- what is wrong is wrong with `b`, or with the rest once `b` has been let through
    have hstep : assetFault? name f earlier (b :: rest) = some fault ↔
        (f.withName? b.typeName = none ∧ fault = .unknownType name b.id b.typeName ∨
          (f.withName? b.typeName).isSome ∧ b.id ∈ earlier ∧
            fault = .duplicateEquipment name b.id) ∨
        (f.withName? b.typeName).isSome ∧ b.id ∉ earlier ∧
          assetFault? name f (b.id :: earlier) rest = some fault := by
      rw [assetFault?]
      cases f.withName? b.typeName <;> by_cases hid : b.id ∈ earlier <;> simp [hid, eq_comm]
    have hnone : ∀ before, assetFault? name f earlier (b :: before) = none ↔
        (f.withName? b.typeName).isSome ∧ b.id ∉ earlier ∧
          assetFault? name f (b.id :: earlier) before = none := by
      intro before
      rw [assetFault?]
      cases f.withName? b.typeName <;> by_cases hid : b.id ∈ earlier <;> simp [hid]
    rw [hstep, ih]
    constructor
    · rintro (h | ⟨htype, hid, before, a, after, rfl, hbefore, h⟩)
      · refine ⟨[], b, rest, rfl, rfl, h.imp_right fun ⟨htype, hid, hfault⟩ => ?_⟩
        exact ⟨htype, .inl hid, hfault⟩
      · refine ⟨b :: before, a, after, rfl, (hnone before).mpr ⟨htype, hid, hbefore⟩, ?_⟩
        simpa only [List.mem_cons, List.map_cons, or_assoc, or_left_comm] using h
    · rintro ⟨before, a, after, hsplit, hbefore, h⟩
      cases before with
      | nil =>
        cases hsplit
        simpa using Or.inl h
      | cons c before =>
        cases hsplit
        obtain ⟨htype, hid, hbefore⟩ := (hnone before).mp hbefore
        refine .inr ⟨htype, hid, before, a, after, rfl, hbefore, ?_⟩
        simpa only [List.mem_cons, List.map_cons, or_assoc, or_left_comm] using h

/-! ### Scopes -/

section

variable {name : String} {strict : Bool} {s : Scope}

/-- The checks one after the other. -/
private theorem check_eq : s.check name strict
    = (Forest.ofTypes s.types).mapError (.types name) >>= fun forest =>
        (if strict then s.types.forM fun t => t.checkRoles.mapError (.roles name) else .ok ()) >>=
          fun _ => (assetFault? name forest [] s.assets).elim (.ok ()) .error := by
  unfold check
  congr 1
  funext forest
  cases strict <;> cases assetFault? name forest [] s.assets <;> rfl

/-- The check of the roles of all types. -/
private theorem roles_eq_ok :
    (if strict then s.types.forM fun t => t.checkRoles.mapError (LoadFault.roles name)
      else .ok ()) = .ok () ↔ (strict = true → ∀ t ∈ s.types, t.checkRoles = .ok ()) := by
  cases strict with
  | false => exact ⟨fun _ => nofun, fun _ => rfl⟩
  | true =>
    rw [if_pos rfl, forM_eq_ok]
    simp only [mapError_eq_ok, true_imp_iff]

/-- **Exactly the scopes that are fit to be served pass the checks.** -/
theorem check_eq_ok : s.check name strict = .ok () ↔ s.Servable strict := by
  have hassets : ∀ found : Option LoadFault,
      found.elim (Except.ok ()) .error = .ok () ↔ found = none := by
    rintro (_ | _) <;> simp
  rw [check_eq]
  simp only [bind_eq_ok, mapError_eq_ok, hassets]
  constructor
  · rintro ⟨f, hf, ⟨⟩, hroles, hlist⟩
    exact ⟨⟨f, hf⟩, roles_eq_ok.mp hroles, (listable_iff hf).mpr hlist⟩
  · rintro ⟨⟨f, hf⟩, hroles, hlist⟩
    exact ⟨f, hf, (), roles_eq_ok.mpr hroles, (listable_iff hf).mp hlist⟩

/-- **The first thing that is wrong with a scope is reported.** -/
theorem check_eq_error {fault : LoadFault} :
    s.check name strict = .error fault ↔ s.FirstFault name strict fault := by
  have hassets : ∀ found : Option LoadFault,
      found.elim (Except.ok ()) .error = .error fault ↔ found = some fault := by
    rintro (_ | _) <;> simp
  rw [check_eq]
  simp only [bind_eq_error, mapError_eq_ok, mapError_eq_error, hassets]
  constructor
  -- the checks come in order: the forest, the roles of its types, the assets
  · rintro (⟨refused, h, rfl⟩ | ⟨f, hf, hroles | ⟨⟨⟩, hroles, h⟩⟩)
    · exact .types h
    · cases strict with
      | false => cases hroles
      | true =>
        rw [if_pos rfl, forM_eq_error] at hroles
        obtain ⟨before, t, after, hsplit, hbefore, h⟩ := hroles
        obtain ⟨refused, hrefused, rfl⟩ := mapError_eq_error.mp h
        exact .roles ⟨f, hf⟩ rfl hsplit (fun u hu => mapError_eq_ok.mp (hbefore u hu)) hrefused
    · obtain ⟨before, a, after, hsplit, hbefore, h⟩ := assetFault?_eq_some.mp h
      -- no asset before the one reported is at fault
      have hearlier := (listable_iff hf).mpr hbefore
      rcases h with ⟨htype, rfl⟩ | ⟨htype, hid, rfl⟩
      · refine .unknownType ⟨f, hf⟩ (roles_eq_ok.mp hroles) hsplit hearlier ?_
        rw [← isSome_withName?_iff hf, htype]
        nofun
      · exact .duplicateEquipment ⟨f, hf⟩ (roles_eq_ok.mp hroles) hsplit hearlier
          ((isSome_withName?_iff hf).mp htype) (hid.resolve_left List.not_mem_nil)
  · intro h
    cases h with
    | types refused => exact .inl ⟨_, refused, rfl⟩
    | roles forest counts split earlier refused =>
      obtain ⟨f, hf⟩ := forest
      refine .inr ⟨f, hf, .inl ?_⟩
      rw [if_pos counts, forM_eq_error]
      exact ⟨_, _, _, split, fun u hu => mapError_eq_ok.mpr (earlier u hu),
        mapError_eq_error.mpr ⟨_, refused, rfl⟩⟩
    | unknownType forest roles split earlier unlisted =>
      obtain ⟨f, hf⟩ := forest
      refine .inr ⟨f, hf, .inr ⟨(), roles_eq_ok.mpr roles, ?_⟩⟩
      refine assetFault?_eq_some.mpr ⟨_, _, _, split, (listable_iff hf).mp earlier, .inl ⟨?_, rfl⟩⟩
      rwa [← isSome_withName?_iff hf, Option.not_isSome_iff_eq_none] at unlisted
    | duplicateEquipment forest roles split earlier listed repeated =>
      obtain ⟨f, hf⟩ := forest
      refine .inr ⟨f, hf, .inr ⟨(), roles_eq_ok.mpr roles, ?_⟩⟩
      exact assetFault?_eq_some.mpr ⟨_, _, _, split, (listable_iff hf).mp earlier,
        .inr ⟨(isSome_withName?_iff hf).mpr listed, .inr repeated, rfl⟩⟩

end

end Scope

/-! ### Fleets -/

namespace Fleet

/-- All scopes of a fleet are fit to be served. -/
def Acceptable (strict : Bool) (fleet : Fleet) : Prop :=
  ∀ name s, fleet.scopes.get? name = some s → s.Servable strict

/-- What is reported of a fleet that is not acceptable: what is wrong with the first of its scopes
    by name that is not fit to be served. -/
def FirstFault (strict : Bool) (fleet : Fleet) (fault : LoadFault) : Prop :=
  ∃ name s, fleet.scopes.get? name = some s ∧ s.FirstFault name strict fault ∧
    ∀ name' s', name' < name → fleet.scopes.get? name' = some s' → s'.Servable strict

variable {strict : Bool} {fleet : Fleet}

/-- **Exactly the acceptable fleets pass the checks.** -/
theorem check_eq_ok : fleet.check strict = .ok () ↔ fleet.Acceptable strict := by
  unfold check Acceptable
  simp only [forM_eq_ok, Prod.forall, Scope.check_eq_ok, Dictionary.get?_eq_some_iff]

/-- **The first scope by name that does not pass its checks is reported.** -/
theorem check_eq_error {fault : LoadFault} :
    fleet.check strict = .error fault ↔ fleet.FirstFault strict fault := by
  unfold check FirstFault
  simp only [forM_eq_error, Scope.check_eq_error, Scope.check_eq_ok, Dictionary.get?_eq_some_iff]
  constructor
  · rintro ⟨before, ⟨name, s⟩, after, hsplit, hbefore, hfault⟩
    have hmem : (name, s) ∈ fleet.scopes.entries := by
      rw [hsplit]
      exact List.mem_append_right _ List.mem_cons_self
    refine ⟨name, s, hmem, hfault, fun name' s' hlt hmem' => ?_⟩
    -- scopes are checked in the order of their names
    have hascending := fleet.scopes.ascending
    rw [hsplit] at hascending hmem'
    obtain ⟨-, hfrom, -⟩ := List.pairwise_append.mp hascending
    rcases List.mem_append.mp hmem' with hmem' | hmem'
    · exact hbefore _ hmem'
    · -- from the reported scope on, no name is smaller
      rcases List.mem_cons.mp hmem' with heq | hmem'
      · cases heq
        exact absurd hlt (String.lt_irrefl _)
      · have hgt := (List.pairwise_cons.mp hfrom).1 _ hmem'
        exact absurd (String.lt_trans hlt hgt) (String.lt_irrefl _)
  · rintro ⟨name, s, hmem, hfault, hsmaller⟩
    obtain ⟨before, after, hsplit⟩ := List.append_of_mem hmem
    refine ⟨before, (name, s), after, hsplit, fun entry hentry => ?_, hfault⟩
    have hascending := fleet.scopes.ascending
    rw [hsplit] at hascending
    refine hsmaller _ _ ((List.pairwise_append.mp hascending).2.2 _ hentry _ List.mem_cons_self) ?_
    rw [hsplit]
    exact List.mem_append_left _ hentry

end Fleet

end LicenseForecast
