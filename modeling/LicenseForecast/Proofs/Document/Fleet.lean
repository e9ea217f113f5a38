import LicenseForecast.Document.Fleet
import LicenseForecast.Proofs.Document.Attribute
import LicenseForecast.Proofs.Document.Metric

namespace LicenseForecast

/-!
# Fleets as documents

A fleet is read back scope by scope, and a scope by its equipment types, metrics, assets and
products.  What is read at all consists of numbers that the fleet can hold (`Fleet.Within`).
-/

open Decimal (signedMin signedMax)
open Json (Portable)
open Node (ofJson)
open Reader (Yields Preserves)

/-! ### Equipment types -/

namespace EquipmentType

/-- A type can be carried: it holds texts and truth values alone. -/
theorem portable (t : EquipmentType) (depth : Nat) : Portable (depth + 3) t.json := by
  have hattributes : Portable (depth + 2) (.array (t.attributes.map Attribute.json)) :=
    .array (List.forall_mem_map.mpr fun a _ => a.portable depth)
  refine .object ?_
  simp only [List.forall_mem_append]
  refine ⟨⟨by simp, Json.portable_optionalField fun id _ => .text id⟩, ?_⟩
  simpa using hattributes

/-- **A type is read back** with all its attributes. -/
theorem read (t : EquipmentType) : reader (ofJson t.json) = .ok t := by
  refine Reader.record_of_fills (by decide) ?_
  exact .field rfl <| .field rfl <| .optional (fun _ _ => ⟨nofun, rfl⟩) (fun _ => rfl) <|
    .field (Reader.list_ofJson fun a _ => a.read) .nil

end EquipmentType

/-! ### Users and products -/

namespace NamedUser

/-- The number is one that 64 bits with a sign can hold. -/
def Within (u : NamedUser) : Prop := signedMin ≤ u.count ∧ u.count ≤ signedMax

/-- A user can be carried if the number is one of 64 bits. -/
theorem Within.portable {u : NamedUser} (h : u.Within) (depth : Nat) :
    Portable (depth + 1) u.json := by
  refine .object ?_
  simpa using Json.portable_int h.1 h.2

/-- A user is read back. -/
theorem Within.read {u : NamedUser} (h : u.Within) : reader (ofJson u.json) = .ok u := by
  refine Reader.record_of_fills (by decide) ?_
  exact .field rfl <| .field rfl <| .field (Reader.integer_ofJson h) .nil

/-- Only numbers of 64 bits are read as a user's. -/
theorem yields_reader : Yields reader Within := by
  refine Yields.record ⟨by decide, by decide⟩ ?_
  have hcount := Reader.yields_integer signedMin signedMax
  exact .other (fun _ _ h => h) <| .other (fun _ _ h => h) <|
    .field hcount (fun _ _ hv _ => hv) .nil

end NamedUser

namespace InstalledProduct

/-- The numbers of all users are within 64 bits. -/
def Within (p : InstalledProduct) : Prop := ∀ u ∈ p.users, u.Within

/-- A product can be carried if its users can. -/
theorem Within.portable {p : InstalledProduct} (h : p.Within) (depth : Nat) :
    Portable (depth + 3) p.json := by
  have husers : Portable (depth + 2) (.array (p.users.map NamedUser.json)) :=
    .array (List.forall_mem_map.mpr fun u hu => (h u hu).portable depth)
  refine .object ?_
  simpa [Json.portable_texts] using husers

/-- **A product is read back** with all its users. -/
theorem Within.read {p : InstalledProduct} (h : p.Within) : reader (ofJson p.json) = .ok p := by
  refine Reader.record_of_fills (by decide) ?_
  exact .field rfl <| .field rfl <| .field (Reader.texts_ofJson _) <|
    .field (Reader.texts_ofJson _) <|
    .field (Reader.list_ofJson fun u hu => (h u hu).read) .nil

/-- Only such users are read as a product's. -/
theorem yields_reader : Yields reader Within := by
  refine Yields.record nofun ?_
  exact .other (fun _ _ h => h) <| .other (fun _ _ h => h) <| .other (fun _ _ h => h) <|
    .other (fun _ _ h => h) <| .field NamedUser.yields_reader.list (fun _ _ hv _ => hv) .nil

end InstalledProduct

/-! ### Assets -/

/-- A dictionary can be carried if its values can. -/
theorem Dictionary.portable {α : Type} {d : Dictionary α} {json : α → Json} {depth : Nat}
    (h : ∀ a ∈ d.values, Portable depth (json a)) : Portable (depth + 1) (d.json json) :=
  .object (List.forall_mem_map.mpr fun entry hentry => h entry.2 (List.mem_map_of_mem hentry))

namespace Asset

/-- All values are within 64 bits and have the property `p`. -/
def Within (p : Float → Prop) (a : Asset) : Prop := ∀ v ∈ a.attributes.values, v.Within p

/-- An asset can be carried if its values can. -/
theorem Within.portable {a : Asset} (h : a.Within fun x => (Number.real x).IsKept) (depth : Nat) :
    Portable (depth + 2) a.json := by
  have hvalues : Portable (depth + 1) (a.attributes.json Value.json) :=
    Dictionary.portable fun v hv => (h v hv).portable depth
  refine .object ?_
  simp only [List.forall_mem_append]
  refine ⟨⟨by simp, Json.portable_optionalField fun id _ => .text id⟩, ?_⟩
  simpa using hvalues

/-- **An asset is read back** with all its values. -/
theorem Within.read {p : Float → Prop} {a : Asset} (h : a.Within p) :
    reader (ofJson a.json) = .ok a := by
  refine Reader.record_of_fills (by decide) ?_
  exact .field rfl <| .field rfl <| .optional (fun _ _ => ⟨nofun, rfl⟩) (fun _ => rfl) <|
    .field (Reader.dictionary_ofJson fun v hv => (h v hv).read) .nil

/-- Only finite values are read as an asset's. -/
theorem yields_reader : Yields reader (Within (·.isFinite = true)) := by
  refine Yields.record nofun ?_
  exact .other (fun _ _ h => h) <| .other (fun _ _ h => h) <| .other (fun _ _ h => h) <|
    .field Value.yields_reader.dictionary (fun _ _ hv _ => hv) .nil

end Asset

/-! ### Scopes and fleets -/

namespace Scope

/-- All numbers are ones that a scope can hold, and all doubles have the property `p`. -/
structure Within (p : Float → Prop) (s : Scope) : Prop where
  metrics : ∀ m ∈ s.metrics, m.Within
  assets : ∀ a ∈ s.assets, a.Within p
  products : ∀ q ∈ s.products, q.Within

/-- A scope can be carried if all its parts can. -/
theorem Within.portable {s : Scope} (h : s.Within fun x => (Number.real x).IsKept) (depth : Nat) :
    Portable (depth + 5) s.json := by
  have htypes : Portable (depth + 4) (.array (s.types.map EquipmentType.json)) :=
    .array (List.forall_mem_map.mpr fun t _ => t.portable depth)
  have hmetrics : Portable (depth + 4) (.array (s.metrics.map Metric.json)) :=
    .array (List.forall_mem_map.mpr fun m hm => (h.metrics m hm).portable (depth + 2))
  have hassets : Portable (depth + 4) (.array (s.assets.map Asset.json)) :=
    .array (List.forall_mem_map.mpr fun a ha => (h.assets a ha).portable (depth + 1))
  have hproducts : Portable (depth + 4) (.array (s.products.map InstalledProduct.json)) :=
    .array (List.forall_mem_map.mpr fun p hp => (h.products p hp).portable depth)
  refine .object ?_
  simp [htypes, hmetrics, hassets, hproducts]

/-- **A scope is read back** with all its lists in order. -/
theorem Within.read {p : Float → Prop} {s : Scope} (h : s.Within p) :
    reader (ofJson s.json) = .ok s := by
  refine Reader.record_of_fills (by decide) ?_
  exact .field (Reader.list_ofJson fun t _ => t.read) <|
    .field (Reader.list_ofJson fun m hm => (h.metrics m hm).read) <|
    .field (Reader.list_ofJson fun a ha => (h.assets a ha).read) <|
    .field (Reader.list_ofJson fun p hp => (h.products p hp).read) .nil

/-- What is read as a scope consists of numbers that a scope can hold. -/
theorem yields_reader : Yields reader (Within (·.isFinite = true)) := by
  refine Yields.record ⟨nofun, nofun, nofun⟩ ?_
  exact .other (fun _ _ h => ⟨h.metrics, h.assets, h.products⟩) <|
    .field Metric.yields_reader.list (fun _ _ hv h => ⟨hv, h.assets, h.products⟩) <|
    .field Asset.yields_reader.list (fun _ _ hv h => ⟨h.metrics, hv, h.products⟩) <|
    .field InstalledProduct.yields_reader.list (fun _ _ hv h => ⟨h.metrics, h.assets, hv⟩) .nil

end Scope

namespace Fleet

/-- All numbers are ones that a fleet can hold, and all doubles have the property `p`. -/
def Within (p : Float → Prop) (fleet : Fleet) : Prop := ∀ s ∈ fleet.scopes.values, s.Within p

/-- A fleet can be carried if its scopes can. -/
theorem Within.portable {fleet : Fleet} (h : fleet.Within fun x => (Number.real x).IsKept)
    (depth : Nat) : Portable (depth + 7) fleet.json := by
  have hscopes : Portable (depth + 6) (fleet.scopes.json Scope.json) :=
    Dictionary.portable fun s hs => (h s hs).portable depth
  refine .object ?_
  simpa using hscopes

/-- **A fleet is read back** scope by scope. -/
theorem Within.read {p : Float → Prop} {fleet : Fleet} (h : fleet.Within p) :
    reader (ofJson fleet.json) = .ok fleet := by
  refine Reader.record_of_fills (by decide) ?_
  exact .field (Reader.dictionary_ofJson fun s hs => (h s hs).read) .nil

/-- What is read as a fleet consists of numbers that a fleet can hold. -/
theorem yields_reader : Yields reader (Within (·.isFinite = true)) := by
  refine Yields.record nofun ?_
  exact .field Scope.yields_reader.dictionary (fun _ _ hv _ => hv) .nil

end Fleet

end LicenseForecast
