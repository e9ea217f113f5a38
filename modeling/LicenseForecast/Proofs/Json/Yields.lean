import LicenseForecast.Json.Reader
import LicenseForecast.Proofs.Dictionary
import LicenseForecast.Proofs.Json.Finite
import LicenseForecast.Proofs.Outcome

namespace LicenseForecast

/-!
# What readers give

Whatever tree a reader is given, the values that it gives have a property of their own: an integer
is within its bounds, and the values inside a list are what the reader of its items gives
(`Reader.Yields`).  A record has a property if it starts with it and no field loses it, be it
written as an object or as a list (`Reader.Yields.record`).
-/

namespace Reader

variable {α β : Type} {p : α → Prop}

/-- What a reader gives has a property, provided that no double in the tree is infinite. -/
def Yields (reader : Reader α) (p : α → Prop) : Prop :=
  ∀ ⦃node a⦄, node.Finite → reader node = .ok a → p a

/-! ### Values, lists and dictionaries -/

/-- What is read as an integer lies within the bounds. -/
theorem yields_integer (low high : Int) :
    Yields (integer low high) fun n => low ≤ n ∧ n ≤ high := by
  intro node n hnode h
  obtain ⟨m, -, h⟩ := bind_eq_ok.mp h
  cases m with
  | real x => cases h
  | whole m =>
    change (if low ≤ m ∧ m ≤ high then Except.ok m else .error Fault.mismatch) = .ok n at h
    split at h
    next hbounds => cases h; exact hbounds
    next => cases h

/-- What is read as a natural number is not above the bound. -/
theorem yields_natural (high : Nat) : Yields (natural high) (· ≤ high) := by
  intro node n hnode h
  obtain ⟨m, hm, h⟩ := bind_eq_ok.mp h
  have hbounds := yields_integer 0 high hnode hm
  cases h
  omega

namespace Yields

variable {reader : Reader α}

/-- What may be absent is read as one of such values or as none. -/
theorem optional (h : Yields reader p) : Yields (optional reader) fun o => ∀ a ∈ o, p a := by
  intro node o hnode ho
  unfold Reader.optional at ho
  split at ho
  · cases ho
    nofun
  · obtain ⟨a, ha, rfl⟩ := map_eq_ok.mp ho
    rintro b ⟨⟩
    exact h hnode ha

/-- A list is read as one of such values. -/
theorem list (h : Yields reader p) : Yields (list reader) fun l => ∀ a ∈ l, p a := by
  intro node l hnode hl
  cases hnode with
  | @array items ending hitems =>
    obtain ⟨values, hvalues, hl⟩ := bind_eq_ok.mp hl
    obtain ⟨-, -, hl⟩ := bind_eq_ok.mp hl
    cases hl
    intro a ha
    obtain ⟨item, hitem, hread⟩ := exists_mem_of_mapM hvalues ha
    exact h (hitems item hitem) hread
  | _ => cases hl

/-- A dictionary is read as one of such values. -/
theorem dictionary (h : Yields reader p) :
    Yields (dictionary reader) fun d => ∀ a ∈ d.values, p a := by
  intro node d hnode hd
  cases hnode with
  | @object fields ending hfields =>
    obtain ⟨values, hvalues, hd⟩ := bind_eq_ok.mp hd
    obtain ⟨-, -, hd⟩ := bind_eq_ok.mp hd
    cases hd
    -- every value that is kept was read from some field
    intro a ha
    obtain ⟨entry, hentry, rfl⟩ := Dictionary.exists_mem_of_mem_ofList ha
    obtain ⟨field, hfield, hread⟩ := exists_mem_of_mapM hvalues hentry
    obtain ⟨name, -, hread⟩ := bind_eq_ok.mp hread
    obtain ⟨value, hvalue, hread⟩ := bind_eq_ok.mp hread
    cases hread
    exact h (hfields field hfield) hvalue
  | _ => cases hd

end Yields

/-! ### Records -/

/-- No field of a description loses a property of the record. -/
def Preserves (spec : List (Field α)) (p : α → Prop) : Prop :=
  ∀ field ∈ spec, ∀ ⦃node a b⦄, node.Finite → p a → field.set node a = .ok b → p b

namespace Preserves

variable {name : String} {required : Bool} {reader : Reader β} {set : β → α → α}
  {spec : List (Field α)}

theorem nil : Preserves ([] : List (Field α)) p := nofun

/-- A field whose value matters. -/
theorem field {q : β → Prop} (hread : Yields reader q) (hset : ∀ v a, q v → p a → p (set v a))
    (hrest : Preserves spec p) :
    Preserves (⟨name, required, fun node a => return set (← reader node) a⟩ :: spec) p := by
  refine List.forall_mem_cons.mpr ⟨fun node a b hnode ha h => ?_, hrest⟩
  obtain ⟨v, hv, h⟩ := bind_eq_ok.mp h
  cases h
  exact hset v a (hread hnode hv) ha

/-- A field whose value does not. -/
theorem other (hset : ∀ v a, p a → p (set v a)) (hrest : Preserves spec p) :
    Preserves (⟨name, required, fun node a => return set (← reader node) a⟩ :: spec) p :=
  field (q := fun _ => True) (fun _ _ _ _ => trivial) (fun v a _ => hset v a) hrest

end Preserves

/-- Fields that are read by their names keep the property. -/
private theorem of_byName {spec : List (Field α)} (hspec : Preserves spec p)
    {fields : List (Lexeme String × Node)} (hfields : ∀ field ∈ fields, field.2.Finite)
    {seen met : List String} {a b : α} (ha : p a) (h : byName spec seen a fields = .ok (met, b)) :
    p b := by
  induction fields generalizing seen a with
  | nil =>
    cases h
    exact ha
  | cons field fields ih =>
    obtain ⟨hfield, hfields⟩ := List.forall_mem_cons.mp hfields
    unfold byName at h
    obtain ⟨name, -, h⟩ := bind_eq_ok.mp h
    -- an unknown name is passed over, a known one sets its field
    split at h
    · obtain ⟨-, -, h⟩ := bind_eq_ok.mp h
      exact ih hfields ha h
    next found hfound =>
      split at h
      · cases h
      · obtain ⟨c, hc, h⟩ := bind_eq_ok.mp h
        exact ih hfields (hspec found (List.mem_of_find?_eq_some hfound) hfield ha hc) h

/-- Fields that are read by their places keep it, too. -/
private theorem of_byPosition {spec missing : List (Field α)} (hspec : Preserves spec p)
    {items : List Node} (hitems : ∀ item ∈ items, item.Finite) {a b : α} (ha : p a)
    (h : byPosition a spec items = .ok (b, missing)) : p b := by
  induction items generalizing spec a with
  | nil => cases spec <;> cases h <;> exact ha
  | cons item items ih =>
    obtain ⟨hitem, hitems⟩ := List.forall_mem_cons.mp hitems
    cases spec with
    | nil => cases h
    | cons field spec =>
      obtain ⟨hfield, hspec⟩ := List.forall_mem_cons.mp hspec
      obtain ⟨c, hc, h⟩ := bind_eq_ok.mp h
      exact ih hspec hitems (hfield hitem ha hc) h

/-- **A record has what none of its fields loses**, in whichever way it is written. -/
theorem Yields.record {spec : List (Field α)} {blank : α} (hblank : p blank)
    (hspec : Preserves spec p) : Yields (record blank spec) p := by
  intro node a hnode h
  cases hnode with
  | @object fields ending hfields =>
    obtain ⟨⟨met, b⟩, hb, h⟩ := bind_eq_ok.mp h
    obtain ⟨-, -, h⟩ := bind_eq_ok.mp h
    have hpb := of_byName hspec hfields hblank hb
    -- a required field that is missing refuses the record
    simp only at h
    split at h
    · cases h
    · cases h
      exact hpb
  | @array items ending hitems =>
    obtain ⟨⟨b, missing⟩, hb, h⟩ := bind_eq_ok.mp h
    have hpb := of_byPosition hspec hitems hblank hb
    simp only at h
    split at h
    · obtain ⟨-, -, h⟩ := bind_eq_ok.mp h
      cases h
      exact hpb
    · obtain ⟨-, -, h⟩ := bind_eq_ok.mp h
      split at h
      · cases h
      · cases h
        exact hpb
  | _ => cases h

/-- **What is read from a text** has the property, as no text stands for an infinite double. -/
theorem Yields.of_ofText {reader : Reader α} (h : Yields reader p) {text : String} {a : α}
    (hread : reader.ofText text = .ok a) : p a := by
  obtain ⟨value, hvalue, hread⟩ := bind_eq_ok.mp hread
  have hp := h (Node.finite_ofText text) hvalue
  split at hread
  · cases hread
  · cases hread
    exact hp

end Reader

end LicenseForecast
