import LicenseForecast.Proofs.Equipment.Roles
import LicenseForecast.Proofs.Fleet.Acceptance
import LicenseForecast.Proofs.Store

namespace LicenseForecast

/-!
# Who has a parent

Whether a type has a parent is decided in two places.  The rules of attribute roles ask whether it
has a parent id (`EquipmentType.exists_parentId_of_checkRoles`); the forest asks for one that is not
empty (`Forest.isSome_parentOf_iff`).  So of the types with a parent identifier in a fleet that is
served under the rules, exactly those with an empty parent id have no parent
(`Store.parents_of_parentIdentifiers`).
-/

/-- **A type with a parent identifier has a parent id** if it keeps to the rules. -/
theorem EquipmentType.exists_parentId_of_checkRoles {t : EquipmentType} {a : Attribute}
    (h : t.checkRoles = .ok ()) (ha : a ∈ t.attributes) (hrole : a.isParentIdentifier = true) :
    ∃ id, t.parentId = some id := by
  have hkeeps : t.KeepsRoles := roleFault?_eq_none.mp (checkRoles_eq_ok.mp h)
  exact hkeeps.parent ⟨a, ha, hrole⟩

/-- **Types with a parent identifier have a parent**, except for those with an empty parent id. -/
theorem Store.parents_of_parentIdentifiers {settings : Settings} {fleet : Fleet} {store : Store}
    {name : String} {s : Scope} (hstore : ofFleet settings fleet = .ok store)
    (hstrict : settings.strict = true) (hscope : fleet.scopes.get? name = some s) :
    ∃ f, Forest.ofTypes s.types = .ok f ∧ ∀ i t, s.types[i]? = some t →
      (∃ a ∈ t.attributes, a.isParentIdentifier = true) →
        ((f.parentOf i).isSome ↔ t.parentId ≠ some "") := by
  obtain ⟨rfl, rfl⟩ := eq_of_ofFleet hstore
  obtain ⟨⟨f, hf⟩, hroles, -⟩ := Fleet.check_eq_ok.mp store.accepted name s hscope
  refine ⟨f, hf, fun i t ht ⟨a, ha, hrole⟩ => ?_⟩
  obtain ⟨id, hid⟩ := EquipmentType.exists_parentId_of_checkRoles
    (hroles hstrict t (List.mem_of_getElem? ht)) ha hrole
  rw [Forest.isSome_parentOf_iff hf ht, EquipmentType.namedParent?, hid]
  by_cases hempty : id = ""
  · simp [hempty]
  · simp [hempty, Option.filter_some]

/-! ### An empty parent id -/

namespace EmptyParentId

/-- The name of a piece of equipment of its own, and that of its parent. -/
def attributes : List Attribute :=
  [(⟨"n", "name", .text, false, false, false, false⟩ : Attribute).identifier,
    (⟨"p", "within", .text, false, false, false, false⟩ : Attribute).parentIdentifier]

/-- A type with an empty text for its parent, and an attribute that names one. -/
def types : List EquipmentType :=
  [⟨"1", "server", some "2", attributes⟩, ⟨"2", "datacenter", some "", attributes⟩]

def fleet : Fleet := ⟨⟨[("main", { types := types })], List.pairwise_singleton ..⟩⟩

def store : Store := ⟨{}, fleet, by decide +kernel⟩

/-- A server has a parent, and a datacenter whose parent id is empty has none, although both have an
    attribute for it. -/
theorem isSome_parentOf_server : ∃ f, Forest.ofTypes types = .ok f ∧
    (f.parentOf 0).isSome ∧ f.parentOf 1 = none := by
  have hscope : store.fleet.scopes.get? "main" = some { types := types } := rfl
  obtain ⟨f, hf, hparents⟩ :=
    Store.parents_of_parentIdentifiers (Store.ofFleet_self store) rfl hscope
  refine ⟨f, hf, (hparents 0 _ rfl ⟨_, List.mem_cons_of_mem _ List.mem_cons_self, rfl⟩).mpr ?_, ?_⟩
  · decide
  · have hnone := hparents 1 _ rfl ⟨_, List.mem_cons_of_mem _ List.mem_cons_self, rfl⟩
    simpa [types] using hnone

end EmptyParentId

end LicenseForecast
