import LicenseForecast.Proofs.Document.Fleet

namespace LicenseForecast

/-!
# Fleets and requests are read back as they were written

A fleet or a request, written and read again, is the same as before: every value has its kind, every
field that may be missing is present or missing as it was, every metric has its family and all of
its fields, and every list its order (`documents_roundTrip`).  What was read once from any text is
of this sort, as no text stands for an infinite double, so it is read again from what it is written
as.  Of the texts of doubles nothing is asked but that each is read as the double that it stands
for.
-/

/-! ### The doubles of a document -/

/-- A double among the attribute values of a fleet. -/
def Fleet.Holds (fleet : Fleet) (x : Float) : Prop :=
  ∃ s ∈ fleet.scopes.values, ∃ a ∈ s.assets, .float x ∈ a.attributes.values

/-- A double among the values that a request proposes or has observed. -/
def Request.Holds (r : Request) (x : Float) : Prop :=
  ∃ o ∈ r.overrides, o.value = some (.float x) ∨ o.oldValue = some (.float x)

/-- A property of all doubles of a fleet holds of each one that it holds. -/
theorem Fleet.Within.of_holds {p : Float → Prop} {fleet : Fleet} {x : Float} (h : fleet.Within p)
    (hx : fleet.Holds x) : p x := by
  obtain ⟨s, hs, a, ha, hv⟩ := hx
  exact (h s hs).assets a ha _ hv

/-- Likewise for a request. -/
theorem Request.Within.of_holds {p : Float → Prop} {r : Request} {x : Float} (h : r.Within p)
    (hx : r.Holds x) : p x := by
  obtain ⟨o, ho, hv | hv⟩ := hx
  · exact (h o ho).1 _ hv
  · exact (h o ho).2 _ hv

/-- A property that follows for the doubles of a fleet holds of the fleet. -/
theorem Fleet.Within.imp {p q : Float → Prop} {fleet : Fleet} (h : fleet.Within p)
    (himp : ∀ x, fleet.Holds x → p x → q x) : fleet.Within q := by
  intro s hs
  refine ⟨(h s hs).metrics, fun a ha v hv => ?_, (h s hs).products⟩
  refine ((h s hs).assets a ha v hv).imp fun x hx => himp x ⟨s, hs, a, ha, ?_⟩
  rwa [← hx]

/-- Likewise for a request. -/
theorem Request.Within.imp {p q : Float → Prop} {r : Request} (h : r.Within p)
    (himp : ∀ x, r.Holds x → p x → q x) : r.Within q := by
  intro o ho
  constructor
  · intro v hv
    exact ((h o ho).1 v hv).imp fun x hx => himp x ⟨o, ho, .inl (hx ▸ hv)⟩
  · intro v hv
    exact ((h o ho).2 v hv).imp fun x hx => himp x ⟨o, ho, .inr (hx ▸ hv)⟩

/-! ### Written and read again -/

/-- A fleet is read back from both its layouts. -/
def Fleet.RoundTrips (fleet : Fleet) : Prop :=
  Fleet.ofText fleet.text = .ok fleet ∧ Fleet.ofText fleet.json.compact = .ok fleet

/-- A request is read back from both its layouts. -/
def Request.RoundTrips (r : Request) : Prop :=
  Request.reader.ofText r.json.pretty = .ok r ∧ Request.reader.ofText r.json.compact = .ok r

/-- A fleet whose doubles are kept can be written and read again. -/
theorem Fleet.Within.roundTrips {fleet : Fleet} (h : fleet.Within fun x => (Number.real x).IsKept) :
    fleet.RoundTrips := by
  obtain ⟨hpretty, hcompact⟩ := Reader.ofText_written (h.portable 0) (by decide) h.read
  exact ⟨mapError_eq_ok.mpr hpretty, mapError_eq_ok.mpr hcompact⟩

/-- So can a request. -/
theorem Request.Within.roundTrips {r : Request} (h : r.Within fun x => (Number.real x).IsKept) :
    r.RoundTrips :=
  Reader.ofText_written (h.portable 0) (by decide) h.read

/-- **Fleets and requests survive being written and read again.**  Any fleet or request of finite
    doubles and of integers that it can hold is read back unchanged, and so is whatever has been
    read from a text, provided that the texts of its doubles are read back as these doubles. -/
theorem documents_roundTrip :
    (∀ fleet : Fleet, fleet.Within (·.isFinite = true) →
      (∀ x, fleet.Holds x → x.isFinite = true → (Number.real x).IsKept) → fleet.RoundTrips) ∧
    (∀ text fleet, Fleet.ofText text = .ok fleet →
      (∀ x, fleet.Holds x → x.isFinite = true → (Number.real x).IsKept) → fleet.RoundTrips) ∧
    (∀ r : Request, r.Within (·.isFinite = true) →
      (∀ x, r.Holds x → x.isFinite = true → (Number.real x).IsKept) → r.RoundTrips) ∧
    ∀ text r, Request.reader.ofText text = .ok r →
      (∀ x, r.Holds x → x.isFinite = true → (Number.real x).IsKept) → r.RoundTrips := by
  have hfleet : ∀ fleet : Fleet, fleet.Within (·.isFinite = true) →
      (∀ x, fleet.Holds x → x.isFinite = true → (Number.real x).IsKept) → fleet.RoundTrips :=
    fun fleet h hkept => (h.imp hkept).roundTrips
  have hrequest : ∀ r : Request, r.Within (·.isFinite = true) →
      (∀ x, r.Holds x → x.isFinite = true → (Number.real x).IsKept) → r.RoundTrips :=
    fun r h hkept => (h.imp hkept).roundTrips
  refine ⟨hfleet, fun text fleet hread => ?_, hrequest, fun text r hread => ?_⟩
  · exact hfleet fleet (Fleet.yields_reader.of_ofText (mapError_eq_ok.mp hread))
  · exact hrequest r (Request.yields_reader.of_ofText hread)

namespace EveryKind

/-- Attributes of all three kinds. -/
def server : EquipmentType where
  id := "t1"
  name := "server"
  parentId := some "t2"
  attributes :=
    [{ id := "a1", name := "cores", kind := .int, isSearchable := true, isDisplayed := true },
      { id := "a2", name := "core factor", kind := .float },
      { id := "a3", name := "serial", kind := .text, isIdentifier := true, isDisplayed := true }]

/-- A metric that counts pools. -/
def pooled : PooledMetric where
  id := "m1"
  name := "Processor"
  coresId := "a1"
  cpusId := "a1"
  coreFactorId := "a2"
  startTypeId := "t1"
  baseTypeId := "t1"
  aggregateTypeId := "t2"
  endTypeId := "t2"

/-- A metric that counts one machine alone. -/
def direct : DirectMetric where
  id := "m2"
  name := "PVU"
  coresId := "a1"
  coreFactorId := "a2"
  baseTypeId := "t1"

/-- A whole number in each of the three kinds, and a double with a fraction. -/
def asset : Asset where
  id := "s1"
  typeName := "server"
  parentId := some "c1"
  attributes := .ofList [("a1", .int 2), ("a2", .float 2.0), ("a3", .text "2"), ("a4", .float 0.5)]

/-- A product with users at both ends of what 64 bits hold. -/
def product : InstalledProduct where
  name := "DB"
  tag := "db-1"
  metrics := ["Processor"]
  equipment := ["s1"]
  users := [⟨"u1", "ann", Decimal.signedMin⟩, ⟨"u2", "bob", Decimal.signedMax⟩]

/-- Metrics of all families. -/
def scope : Scope where
  types := [server, { id := "t2", name := "cluster" }]
  metrics := [.ops pooled, .nup ⟨pooled, 25⟩, .ips direct, .sps direct]
  assets := [asset, { id := "c1", typeName := "cluster" }]
  products := [product]

/-- Two scopes, one of them empty. -/
def fleet : Fleet := ⟨.ofList [("main", scope), ("spare", {})]⟩

/-- An override with two values of different kinds. -/
def coreFactor : Override where
  id := "a2"
  name := "core factor"
  kind := .float
  simulated := true
  value := some (.float 1.0)
  oldValue := some (.int 1)

/-- A request with that override and one without values. -/
def request : Request where
  typeName := "server"
  equipmentId := "s1"
  familyText := "OPS"
  metricName := "Processor"
  overrides := [coreFactor, { id := "a3", name := "serial", kind := .text }]

/-- The request as lists, and with another text for the same double. -/
def requestText : String :=
  "[\"server\",\"s1\",\"OPS\",\"Processor\",[[\"a2\",\"core factor\",\"float\",true,1E0,1]," ++
    "[\"a3\",\"serial\",\"string\"]]]"

/-- The doubles of the fleet are two and a half. -/
theorem within_fleet {p : Float → Prop} (htwo : p 2.0) (hhalf : p 0.5) : fleet.Within p := by
  have hvalues : ∀ v ∈ asset.attributes.values, v.Within p := by
    intro v hv
    obtain ⟨entry, hentry, rfl⟩ := Dictionary.exists_mem_of_mem_ofList hv
    simp only [List.mem_cons, List.not_mem_nil, or_false] at hentry
    -- of four values two are doubles
    rcases hentry with rfl | rfl | rfl | rfl
    · exact ⟨by decide, by decide⟩
    · exact htwo
    · trivial
    · exact hhalf
  have husers : product.Within := by
    unfold InstalledProduct.Within NamedUser.Within
    decide
  intro s hs
  obtain ⟨entry, hentry, rfl⟩ := Dictionary.exists_mem_of_mem_ofList hs
  simp only [List.mem_cons, List.not_mem_nil, or_false] at hentry
  rcases hentry with rfl | rfl
  · refine ⟨?_, ?_, List.forall_mem_singleton.mpr husers⟩
    · simp [scope, Metric.Within, UserMetric.Within, UserMetric.maxUsers]
    · exact List.forall_mem_cons.mpr ⟨hvalues, List.forall_mem_singleton.mpr nofun⟩
  · exact ⟨nofun, nofun, nofun⟩

/-- The only double of the request is one. -/
theorem within_request {p : Float → Prop} (hone : p 1.0) : request.Within p := by
  refine List.forall_mem_cons.mpr ⟨⟨?_, ?_⟩, List.forall_mem_singleton.mpr ⟨nofun, nofun⟩⟩
  · rintro v ⟨⟩
    exact hone
  · rintro v ⟨⟩
    exact ⟨by decide, by decide⟩

/-- A fleet and a request with values of every kind are read back, and so is a request that has
    been read from a text of another form. -/
theorem everyKind_roundTrips :
    fleet.RoundTrips ∧ Request.reader.ofText requestText = .ok request ∧ request.RoundTrips := by
  obtain ⟨hfleet, -, -, hrequest⟩ := documents_roundTrip
  -- the tokens are computed once, so that the reader does not run over characters
  have htokens : Token.ofText requestText
      = [.openArray, .text (.whole "server"), .comma, .text (.whole "s1"), .comma,
        .text (.whole "OPS"), .comma, .text (.whole "Processor"), .comma, .openArray, .openArray,
        .text (.whole "a2"), .comma, .text (.whole "core factor"), .comma, .text (.whole "float"),
        .comma, .bool true, .comma, .number (.whole (.real 1.0)), .comma,
        .number (.whole (.whole 1)), .closeArray, .comma, .openArray, .text (.whole "a3"), .comma,
        .text (.whole "serial"), .comma, .text (.whole "string"), .closeArray, .closeArray,
        .closeArray] := by
    decide +kernel
  have hread : Request.reader.ofText requestText = .ok request := by
    unfold Reader.ofText Node.ofText
    rw [htokens]
    rfl
  refine ⟨hfleet fleet (within_fleet (by decide +kernel) (by decide +kernel)) fun x hx _ => ?_,
    hread, hrequest _ _ hread fun x hx _ => ?_⟩
  · have hvalues : fleet.Within fun x => x = 2.0 ∨ x = 0.5 := within_fleet (.inl rfl) (.inr rfl)
    rcases hvalues.of_holds hx with rfl | rfl <;> decide +kernel
  · have hvalue : request.Within (· = 1.0) := within_request rfl
    rw [hvalue.of_holds hx]
    decide +kernel

end EveryKind

end LicenseForecast
