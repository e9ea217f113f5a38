import LicenseForecast.Document.Forecast
import LicenseForecast.Proofs.Json.Reading
import LicenseForecast.Proofs.Json.Yields

namespace LicenseForecast

/-!
# Values, attributes and requests as documents

A document of each kind can be carried by a text, provided that the doubles in it are kept; it is
read back as what it was written from; and what is read at all consists of integers of 64 bits and
of finite doubles (`Value.Within`, `Request.Within`).
-/

open Decimal (signedMin signedMax)
open Json (Portable)
open Node (ofJson)
open Reader (Fills Yields Preserves)

/-! ### Values -/

namespace Value

/-- An integer that 64 bits with a sign can hold, or a double with the property `p`. -/
def Within (p : Float → Prop) : Value → Prop
  | .int n => signedMin ≤ n ∧ n ≤ signedMax
  | .float x => p x
  | .text _ => True

/-- A weaker property of doubles holds of a value, too. -/
theorem Within.imp {p q : Float → Prop} {v : Value} (h : v.Within p)
    (himp : ∀ x, v = .float x → p x → q x) : v.Within q := by
  cases v with
  | float x => exact himp x rfl h
  | _ => exact h

/-- A value can be carried if its double can be read back, should it be one. -/
theorem Within.portable {v : Value} (h : v.Within fun x => (Number.real x).IsKept) (depth : Nat) :
    Portable depth v.json := by
  cases v with
  | int n => exact Json.portable_int h.1 h.2
  | float x => exact .number h
  | text s => exact .text s

/-- **A value is read back with its kind.** -/
theorem Within.read {p : Float → Prop} {v : Value} (h : v.Within p) :
    reader (ofJson v.json) = .ok v := by
  cases v with
  | int n => exact if_pos h
  | float x => rfl
  | text s => rfl

/-- What is read as a value is of 64 bits or a finite double. -/
theorem yields_reader : Yields reader (Within (·.isFinite = true)) := by
  intro node v hnode h
  obtain ⟨-, -, h⟩ := bind_eq_ok.mp h
  cases hnode with
  | @number l hl =>
    cases l with
    | whole n =>
      cases n with
      | whole n =>
        -- an integer out of range is read as the double nearest to it
        change (if signedMin ≤ n ∧ n ≤ signedMax then pure (Value.int n)
          else pure (.float (Decimal.ofInt n)) : Except Fault Value) = .ok v at h
        split at h
        next hbounds => cases h; exact hbounds
        next => cases h; exact Decimal.isFinite_ofInt n
      | real x => cases h; exact hl
    | flawed fault => cases h
    | cut reading skipping => cases h
  | text l =>
    cases l with
    | whole s => cases h; trivial
    | flawed fault => cases h
    | cut reading skipping => cases h
  | _ => cases h

end Value

/-! ### Attributes and overrides -/

/-- The kind of a value is read back. -/
theorem ValueKind.read (kind : ValueKind) : reader (ofJson kind.json) = .ok kind := by
  cases kind <;> rfl

namespace Attribute

/-- An attribute can be carried: it holds texts and truth values alone. -/
theorem portable (a : Attribute) (depth : Nat) : Portable (depth + 1) a.json := by
  refine .object ?_
  simp [ValueKind.json]

/-- **An attribute is read back** with its roles. -/
theorem read (a : Attribute) : reader (ofJson a.json) = .ok a := by
  refine Reader.record_of_fills (by decide) ?_
  exact .field rfl <| .field rfl <| .field a.kind.read <| .field rfl <| .field rfl <|
    .field rfl <| .field rfl .nil

end Attribute

namespace Override

/-- Both values are within 64 bits and have the property `p`. -/
def Within (p : Float → Prop) (o : Override) : Prop :=
  (∀ v ∈ o.value, v.Within p) ∧ ∀ v ∈ o.oldValue, v.Within p

/-- An override can be carried if its values can. -/
theorem Within.portable {o : Override} (h : o.Within fun x => (Number.real x).IsKept)
    (depth : Nat) : Portable (depth + 1) o.json := by
  refine .object ?_
  simp only [List.forall_mem_append]
  refine ⟨⟨?_, Json.portable_optionalField fun v hv => (h.1 v hv).portable depth⟩,
    Json.portable_optionalField fun v hv => (h.2 v hv).portable depth⟩
  simp [ValueKind.json]

/-- **An override is read back**, with each of its values present or missing as it was. -/
theorem Within.read {p : Float → Prop} {o : Override} (h : o.Within p) :
    reader (ofJson o.json) = .ok o := by
  have hpresent : ∀ v : Value, ofJson v.json ≠ .null := fun v => by cases v <;> nofun
  refine Reader.record_of_fills (by decide) ?_
  rw [← List.append_nil (Json.optionalField "old_value" _)]
  exact .field rfl <| .field rfl <| .field o.kind.read <| .field rfl <|
    .optional (fun v hv => ⟨hpresent v, (h.1 v hv).read⟩) (fun _ => rfl) <|
    .optional (fun v hv => ⟨hpresent v, (h.2 v hv).read⟩) (fun _ => rfl) .nil

/-- Only such values are read as an override's. -/
theorem yields_reader : Yields reader (Within (·.isFinite = true)) := by
  refine Yields.record ⟨nofun, nofun⟩ ?_
  have hvalue := Value.yields_reader.optional
  exact .other (fun _ _ h => h) <| .other (fun _ _ h => h) <| .other (fun _ _ h => h) <|
    .other (fun _ _ h => h) <| .field hvalue (fun _ _ hv h => ⟨hv, h.2⟩) <|
    .field hvalue (fun _ _ hv h => ⟨h.1, hv⟩) .nil

end Override

/-! ### Requests -/

namespace Request

/-- All values proposed are within 64 bits and have the property `p`. -/
def Within (p : Float → Prop) (r : Request) : Prop := ∀ o ∈ r.overrides, o.Within p

/-- A request can be carried if its overrides can. -/
theorem Within.portable {r : Request} (h : r.Within fun x => (Number.real x).IsKept)
    (depth : Nat) : Portable (depth + 3) r.json := by
  have hoverrides : Portable (depth + 2) (.array (r.overrides.map Override.json)) :=
    .array (List.forall_mem_map.mpr fun o ho => (h o ho).portable depth)
  refine .object ?_
  simpa using hoverrides

/-- **A request is read back** override by override. -/
theorem Within.read {p : Float → Prop} {r : Request} (h : r.Within p) :
    reader (ofJson r.json) = .ok r := by
  refine Reader.record_of_fills (by decide) ?_
  exact .field rfl <| .field rfl <| .field rfl <| .field rfl <|
    .field (Reader.list_ofJson fun o ho => (h o ho).read) .nil

/-- Only such overrides are read as a request's. -/
theorem yields_reader : Yields reader (Within (·.isFinite = true)) := by
  refine Yields.record nofun ?_
  exact .other (fun _ _ h => h) <| .other (fun _ _ h => h) <| .other (fun _ _ h => h) <|
    .other (fun _ _ h => h) <| .field Override.yields_reader.list (fun _ _ hv _ => hv) .nil

end Request

end LicenseForecast
