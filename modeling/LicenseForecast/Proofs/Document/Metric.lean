import LicenseForecast.Document.Metric
import LicenseForecast.Proofs.Json.Reading
import LicenseForecast.Proofs.Json.Yields

namespace LicenseForecast

/-!
# Metrics as documents

A metric is written as an object with its family in front, and read in two steps: the family is
taken out of the fields, wherever it stands, and the others are read as that family has them.  A
document written has the family once (`Metric.reader_labelled`), so it is read back as a metric of
the same family with the same content (`Metric.Within.read`).
-/

open Json (Portable)
open Node (ofJson)
open Reader (Fills Yields Preserves)

/-! ### The content of each family -/

/-- A metric that counts pools is read back. -/
theorem PooledMetric.read (m : PooledMetric) : reader (ofJson m.json) = .ok m := by
  refine Reader.record_of_fills (by decide) ?_
  exact .field rfl <| .field rfl <| .field rfl <| .field rfl <| .field rfl <| .field rfl <|
    .field rfl <| .field rfl <| .field rfl .nil

/-- A metric that counts one machine alone is read back. -/
theorem DirectMetric.read (m : DirectMetric) : reader (ofJson m.json) = .ok m := by
  refine Reader.record_of_fills (by decide) ?_
  exact .field rfl <| .field rfl <| .field rfl <| .field rfl <| .field rfl .nil

namespace UserMetric

/-- The threshold is one that can be read. -/
def Within (m : UserMetric) : Prop := m.usersPerProcessor ≤ maxUsers

/-- A metric with users is read back if their number is one of 64 bits. -/
theorem Within.read {m : UserMetric} (h : m.Within) : reader (ofJson m.json) = .ok m := by
  show Reader.record default fields (ofJson (.object _)) = _
  refine Reader.record_of_fills (by decide) ?_
  exact .set rfl <| .set rfl <| .set rfl <| .set rfl <| .set rfl <| .set rfl <| .set rfl <|
    .set rfl <| .set rfl <| .field (Reader.natural_ofJson h) .nil

/-- Only such numbers are read as a metric's users. -/
theorem yields_reader : Yields reader Within := by
  have hfields : Preserves fields Within := by
    have hset : ∀ (v : Nat) (m : UserMetric), v ≤ maxUsers → m.Within →
        ({ m with usersPerProcessor := v } : UserMetric).Within := fun _ _ hv _ => hv
    refine List.forall_mem_append.mpr ⟨List.forall_mem_map.mpr ?_,
      Preserves.field (Reader.yields_natural maxUsers) hset .nil⟩
    -- the fields of the metric proper do not touch the number of users
    intro field _ node m m' _ hm h
    obtain ⟨pooled, -, h⟩ := bind_eq_ok.mp h
    cases h
    exact hm
  intro node m hnode h
  unfold reader at h
  split at h
  · cases h
  · have hblank : Within default := Nat.zero_le _
    exact Yields.record hblank hfields hnode h

end UserMetric

/-! ### Metrics of any family -/

namespace Metric

/-- The threshold of a metric with named users is one that can be read. -/
def Within : Metric → Prop
  | .nup m => m.Within
  | _ => True

/-- A metric can be carried if it is within 64 bits. -/
theorem Within.portable {m : Metric} (h : m.Within) (depth : Nat) :
    Portable (depth + 1) m.json := by
  have hpooled : ∀ m : PooledMetric, ∀ field ∈ m.jsonFields, Portable depth field.2 := fun m => by
    simp [PooledMetric.jsonFields]
  refine .object (List.forall_mem_cons.mpr ⟨.text _, ?_⟩)
  cases m with
  | ops m => exact hpooled m
  | nup m =>
    have husers : Portable depth (.nat m.usersPerProcessor) := by
      have hmax : m.usersPerProcessor ≤ 4294967295 := h
      refine .number (Number.isKept_whole ?_ ?_) <;>
        simp only [Decimal.signedMin, Decimal.unsignedMax] <;> omega
    exact List.forall_mem_append.mpr ⟨hpooled m.pooled, by simpa using husers⟩
  | ips m => simp
  | sps m => simp

/-- Fields among which there is no family are all left over. -/
private theorem split_ofFields {family : Option Family} {fields : List (String × Json)}
    (hne : ∀ field ∈ fields, field.1 ≠ "family") (others : List (Lexeme String × Node)) :
    split family others (Node.ofFields fields)
      = .ok (family, others.reverse ++ Node.ofFields fields) := by
  induction fields generalizing others with
  | nil =>
    rw [Node.ofFields, split, List.append_nil]
  | cons field fields ih =>
    obtain ⟨hname, hne⟩ := List.forall_mem_cons.mp hne
    have hpass : (ofJson field.2).pass true = .ok () := Node.pass_ofJson true field.2
    show (if field.1 = "family" then _ else _) = _
    rw [if_neg hname, hpass]
    show split family _ (Node.ofFields fields) = _
    rw [ih hne, List.reverse_cons, List.append_assoc]
    rfl

/-- **The family in front decides how the other fields are read.** -/
theorem reader_labelled (family : Family) {spec : family.Spec} {fields : List (String × Json)}
    (hne : ∀ field ∈ fields, field.1 ≠ "family")
    (hspec : family.specReader (ofJson (.object fields)) = .ok spec) :
    reader (ofJson (.object (("family", .text family.label) :: fields)))
      = .ok (.ofSpec family spec) := by
  have hlabel : Family.labelReader (.text (.whole family.label)) = .ok family := by
    cases family <;> rfl
  have hsplit : split none [] (Node.ofFields (("family", .text family.label) :: fields))
      = .ok (some family, Node.ofFields fields) := by
    show (Family.labelReader (.text (.whole family.label)) >>= fun family =>
      split (some family) [] (Node.ofFields fields)) = _
    rw [hlabel]
    exact split_ofFields hne []
  rw [ofJson, reader, hsplit]
  show ofFields family (ofJson (.object fields)) = _
  unfold ofFields Reader.ofSound
  rw [hspec]
  rfl

/-- **A metric is read back** with its family and all of its content. -/
theorem Within.read {m : Metric} (h : m.Within) : reader (ofJson m.json) = .ok m := by
  cases m with
  | ops m => exact reader_labelled .ops (by simp [PooledMetric.jsonFields]) m.read
  | nup m =>
    have hcontent := UserMetric.Within.read h
    exact reader_labelled .nup (by simp [PooledMetric.jsonFields]) hcontent
  | ips m => exact reader_labelled .ips (by simp) m.read
  | sps m => exact reader_labelled .sps (by simp) m.read

/-- The fields besides the family are some of those of the document. -/
private theorem mem_of_split {family found : Option Family}
    {others left fields : List (Lexeme String × Node)}
    (h : split family others fields = .ok (found, left)) {field : Lexeme String × Node}
    (hfield : field ∈ left) : field ∈ others ∨ field ∈ fields := by
  induction fields generalizing family others with
  -- of the fields met so far none is lost, they are only reversed
  | nil =>
    cases h
    exact .inl (List.mem_reverse.mp hfield)
  | cons next fields ih =>
    unfold split at h
    obtain ⟨name, -, h⟩ := bind_eq_ok.mp h
    split at h
    · split at h
      · cases h
      · obtain ⟨label, -, h⟩ := bind_eq_ok.mp h
        exact (ih h).imp_right (List.mem_cons_of_mem _)
    · obtain ⟨-, -, h⟩ := bind_eq_ok.mp h
      -- a field that is no label is left for the metric proper
      rcases ih h with hmem | hmem
      · rcases List.mem_cons.mp hmem with rfl | hmem
        · exact .inr List.mem_cons_self
        · exact .inl hmem
      · exact .inr (List.mem_cons_of_mem _ hmem)

/-- What is read behind the label of any family is within 64 bits. -/
private theorem within_of_ofFields {family : Family} {fields : Node} {m : Metric}
    (hfields : fields.Finite) (h : ofFields family fields = .ok m) : m.Within := by
  obtain ⟨spec, hspec, h⟩ := bind_eq_ok.mp h
  cases h
  cases family with
  | nup => exact UserMetric.yields_reader hfields (mapError_eq_ok.mp hspec)
  | _ => trivial

/-- What is read as a metric is within 64 bits. -/
theorem yields_reader : Yields reader Within := by
  intro node m hnode h
  cases hnode with
  | @object fields ending hfields =>
    obtain ⟨⟨family, others⟩, hsplit, h⟩ := bind_eq_ok.mp h
    obtain ⟨-, -, h⟩ := bind_eq_ok.mp h
    cases family with
    | none => cases h
    | some family =>
      refine within_of_ofFields (.object fun field hfield => ?_) h
      -- the label was taken out of the fields, so each of those left is one of them
      exact hfields field ((mem_of_split hsplit hfield).resolve_left List.not_mem_nil)
  | @array items ending hitems =>
    cases items with
    | nil =>
      obtain ⟨-, -, h⟩ := bind_eq_ok.mp h
      cases h
    | cons label items =>
      obtain ⟨family, -, h⟩ := bind_eq_ok.mp h
      obtain ⟨-, -, h⟩ := bind_eq_ok.mp h
      obtain ⟨-, -, h⟩ := bind_eq_ok.mp h
      exact within_of_ofFields (.array (List.forall_mem_cons.mp hitems).2) h
  | _ => cases h

end Metric

end LicenseForecast
