import LicenseForecast.Fleet.Load
import LicenseForecast.Proofs.Equipment.Ascent

namespace LicenseForecast.Scope

/-!
# Scopes whose links follow the forest

The checks on loading see to it that equipment has distinct ids and known types (`Sound`), but not
that a parent exists or is of the right type.  Where it does (`Linked`), every step up from an
asset is a step up from its type, so the way up from an asset is known from its type
(`Linked.ascend_index`), and no asset lies above itself (`Linked.acyclic`).
-/

/-- What the checks on loading see to. -/
structure Sound (s : Scope) (f : Forest) : Prop where
  types_eq : Forest.ofTypes s.types = .ok f
  typed : ∀ a ∈ s.assets, ∃ i, f.indexOfName? a.typeName = some i
  ids_nodup : (s.assets.map (·.id)).Nodup

/-- The parent that an asset names exists, and its type is the parent of the asset's type. -/
def Linked (s : Scope) (f : Forest) : Prop :=
  ∀ a ∈ s.assets, ∀ id, a.parentId = some id → ∃ p, s.asset? id = some p ∧
    ∃ i j, f.indexOfName? a.typeName = some i ∧ f.indexOfName? p.typeName = some j ∧
      f.parentOf i = some j

/-- Whether the links of a scope follow the forest. -/
def isLinked (s : Scope) (f : Forest) : Bool :=
  s.assets.all fun a => a.parentId.all fun id => (s.asset? id).any fun p =>
    (f.indexOfName? a.typeName).any fun i => (f.indexOfName? p.typeName).any fun j =>
      f.parentOf i == some j

/-- The check finds out whether a scope is linked. -/
theorem isLinked_iff {s : Scope} {f : Forest} : s.isLinked f = true ↔ s.Linked f := by
  simp only [isLinked, Linked, List.all_eq_true, Option.all_eq_true, Option.any_eq_true,
    beq_iff_eq]
  refine forall₂_congr fun a _ => forall₂_congr fun id _ => ?_
  constructor
  · rintro ⟨p, hp, i, hi, j, hj, hparent⟩
    exact ⟨p, hp, i, j, hi, hj, hparent⟩
  · rintro ⟨p, hp, i, j, hi, hj, hparent⟩
    exact ⟨p, hp, i, hi, j, hj, hparent⟩

instance (s : Scope) (f : Forest) : Decidable (s.Linked f) := decidable_of_iff _ isLinked_iff

/-! ### What the checks see to -/

/-- **Nothing is wrong with assets** of known types whose ids differ among each other and from the
    earlier ones. -/
theorem assetFault?_eq_none {name : String} {f : Forest} {earlier : List String}
    {assets : List Asset} :
    assetFault? name f earlier assets = none ↔
      (∀ a ∈ assets, (f.withName? a.typeName).isSome) ∧ (assets.map (·.id)).Nodup ∧
        ∀ a ∈ assets, a.id ∉ earlier := by
  induction assets generalizing earlier with
  | nil => exact ⟨fun _ => ⟨nofun, List.nodup_nil, nofun⟩, fun _ => rfl⟩
  | cons a rest ih =>
    rw [List.map_cons, List.nodup_cons, List.forall_mem_cons, List.forall_mem_cons]
    unfold assetFault?
    cases htype : f.withName? a.typeName with
    | none => exact ⟨nofun, nofun⟩
    | some t =>
      rw [if_neg (by simp)]
      by_cases hid : a.id ∈ earlier
      · rw [if_pos (by simpa using hid)]
        exact ⟨nofun, fun h => absurd hid h.2.2.1⟩
      · rw [if_neg (by simpa using hid), ih]
        -- that the id differs from the later ones is said from their side
        have hfresh : (∀ b ∈ rest, b.id ∉ a.id :: earlier) ↔
            a.id ∉ rest.map (·.id) ∧ ∀ b ∈ rest, b.id ∉ earlier := by
          simp only [List.mem_cons, not_or, List.mem_map, not_exists, not_and]
          exact ⟨fun h => ⟨fun b hb => (h b hb).1, fun b hb => (h b hb).2⟩,
            fun h b hb => ⟨h.1 b hb, h.2 b hb⟩⟩
        rw [hfresh]
        exact ⟨fun ⟨htyped, hnodup, hnew, hrest⟩ => ⟨⟨rfl, htyped⟩, ⟨hnew, hnodup⟩, hid, hrest⟩,
          fun ⟨⟨_, htyped⟩, ⟨hnew, hnodup⟩, _, hrest⟩ => ⟨htyped, hnodup, hnew, hrest⟩⟩

/-- **A scope that passes its checks is sound.** -/
theorem sound_of_check {name : String} {strict : Bool} {s : Scope}
    (h : s.check name strict = .ok ()) : ∃ f, s.Sound f := by
  unfold Scope.check at h
  obtain ⟨f, hf, h⟩ := bind_eq_ok.mp h
  -- a fault of the assets stops the check in either mode
  have hfault : assetFault? name f [] s.assets = none := by
    cases hfault : assetFault? name f [] s.assets with
    | none => rfl
    | some fault =>
      rw [hfault] at h
      cases strict with
      | false => cases h
      | true =>
        obtain ⟨_, -, h⟩ := bind_eq_ok.mp h
        cases h
  obtain ⟨htyped, hnodup, -⟩ := assetFault?_eq_none.mp hfault
  exact ⟨f, mapError_eq_ok.mp hf, fun a ha => Forest.exists_indexOfName?_iff.mpr (htyped a ha),
    hnodup⟩

/-! ### Assets and their ids -/

section

variable {s : Scope} {f : Forest}

/-- Two assets with the same id are the same. -/
theorem Sound.eq_of_id_eq (hs : s.Sound f) {a b : Asset} (ha : a ∈ s.assets) (hb : b ∈ s.assets)
    (h : a.id = b.id) : a = b :=
  List.inj_on_of_nodup_map hs.ids_nodup ha hb h

/-- What is found by an id is an asset with this id. -/
theorem mem_of_asset? {id : String} {a : Asset} (h : s.asset? id = some a) :
    a ∈ s.assets ∧ a.id = id := by
  unfold asset? at h
  have hid := List.find?_some h
  exact ⟨List.mem_of_find?_eq_some h, beq_iff_eq.mp hid⟩

/-- **An asset is found under its id.** -/
theorem Sound.asset?_eq (hs : s.Sound f) {a : Asset} (ha : a ∈ s.assets) :
    s.asset? a.id = some a := by
  cases hfind : s.asset? a.id with
  | none =>
    have hnot := List.find?_eq_none.mp hfind a ha
    exact absurd (beq_self_eq_true _) hnot
  | some b =>
    obtain ⟨hb, hid⟩ := mem_of_asset? hfind
    rw [hs.eq_of_id_eq hb ha hid]

/-- In a scope that is sound it is the only one. -/
theorem Sound.asset?_eq_some_iff (hs : s.Sound f) {id : String} {a : Asset} :
    s.asset? id = some a ↔ a ∈ s.assets ∧ a.id = id := by
  refine ⟨mem_of_asset?, ?_⟩
  rintro ⟨ha, rfl⟩
  exact hs.asset?_eq ha

/-- What an asset is part of is an asset that it names. -/
theorem mem_of_parentOf {a p : Asset} (h : s.parentOf a = some p) :
    a.parentId = some p.id ∧ p ∈ s.assets := by
  obtain ⟨id, hid, hp⟩ := Option.bind_eq_some_iff.mp h
  obtain ⟨hmem, rfl⟩ := mem_of_asset? hp
  exact ⟨hid, hmem⟩

/-! ### Upwards, step by step -/

/-- A long way up is one way after another. -/
theorem ascend_add (m n : Nat) (a : Asset) :
    s.ascend (m + n) a = (s.ascend m a).bind (s.ascend n) := by
  induction m generalizing a with
  | zero => rw [Nat.zero_add]; rfl
  | succ m ih =>
    rw [Nat.succ_add]
    show (s.parentOf a).bind (s.ascend (m + n)) = ((s.parentOf a).bind (s.ascend m)).bind _
    cases s.parentOf a with
    | none => rfl
    | some p => exact ih p

/-- One step up leads to what an asset is part of. -/
theorem ascend_one (a : Asset) : s.ascend 1 a = s.parentOf a := by
  show (s.parentOf a).bind (s.ascend 0) = _
  cases s.parentOf a <;> rfl

/-- A way up does not leave the scope. -/
theorem mem_of_ascend {n : Nat} {a t : Asset} (ha : a ∈ s.assets) (h : s.ascend n a = some t) :
    t ∈ s.assets := by
  induction n generalizing a with
  | zero =>
    cases h
    exact ha
  | succ n ih =>
    obtain ⟨p, hp, h⟩ := Option.bind_eq_some_iff.mp h
    exact ih (mem_of_parentOf hp).2 h

/-- **A way up of as many links as there are assets** has come round. -/
theorem exists_round_of_ascend {a : Asset} (ha : a ∈ s.assets)
    (h : ∀ k ≤ s.assets.length, ∃ t, s.ascend k a = some t) :
    ∃ k l t, k < l ∧ l ≤ s.assets.length ∧ s.ascend k a = some t ∧ s.ascend l a = some t := by
  have hpassed : ∀ k ≤ s.assets.length, ∃ i : Fin s.assets.length,
      s.ascend k a = some s.assets[i] := by
    intro k hk
    obtain ⟨t, ht⟩ := h k hk
    obtain ⟨i, hi, rfl⟩ := List.getElem_of_mem (mem_of_ascend ha ht)
    exact ⟨⟨i, hi⟩, ht⟩
  exact exists_round hpassed

/-- **A way up from an asset is a way up from its type.** -/
theorem Linked.ascend_index (hlinked : s.Linked f) {n i : Nat} {a t : Asset}
    (ha : a ∈ s.assets) (hi : f.indexOfName? a.typeName = some i) (h : s.ascend n a = some t) :
    ∃ j, f.indexOfName? t.typeName = some j ∧ f.ascend n i = some j := by
  induction n generalizing a i with
  | zero =>
    cases h
    exact ⟨i, hi, rfl⟩
  | succ n ih =>
    obtain ⟨p, hp, h⟩ := Option.bind_eq_some_iff.mp h
    obtain ⟨hid, hmem⟩ := mem_of_parentOf hp
    obtain ⟨p', hp', i', k, hi', hk, hparent⟩ := hlinked a ha p.id hid
    have hpp' : s.parentOf a = some p' := by rw [parentOf, hid, Option.bind_some, hp']
    cases hp.symm.trans hpp'
    cases hi.symm.trans hi'
    obtain ⟨j, hj, hascend⟩ := ih hmem hk h
    exact ⟨j, hj, by rw [Forest.ascend, hparent, Option.bind_some, hascend]⟩

/-! ### No way back -/

/-- No asset lies above itself. -/
def Acyclic (s : Scope) : Prop := ∀ a ∈ s.assets, ∀ n, 0 < n → s.ascend n a ≠ some a

/-- Assets do not lie above themselves where the links follow the forest. -/
theorem Linked.acyclic (hlinked : s.Linked f) (hs : s.Sound f) : s.Acyclic := by
  intro a ha n hn hround
  obtain ⟨i, hi⟩ := hs.typed a ha
  obtain ⟨j, hj, hascend⟩ := hlinked.ascend_index ha hi hround
  cases hi.symm.trans hj
  have hstart : f.ascend 0 i = some i := rfl
  have hzero := (Forest.sound_of_ofTypes hs.types_eq).1.ascend_unique
    (Forest.lt_of_indexOfName? hi) hascend hstart
  omega

end

end LicenseForecast.Scope
