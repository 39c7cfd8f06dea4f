import RelationalStore.Rdb.Values.ValueObject
import RelationalStore.Theory.WeakOrder

/-! # The values in their order

Apart from NaNs `ValueObject::operator<` is a strict weak order. -/

namespace RelationalStore.Values

open WeakOrderOn

theorem AssetValue.weakOrderOn_less : WeakOrderOn Set.univ AssetValue.less := by
  apply field_univ AssetValue.name
  apply field_univ AssetValue.status
  apply field_univ AssetValue.id
  apply field_univ AssetValue.uri
  apply field_univ AssetValue.createTime
  apply field_univ AssetValue.modifyTime
  apply field_univ AssetValue.size
  apply field_univ AssetValue.hash
  apply field_univ AssetValue.path
  exact key Set.univ AssetValue.extension

theorem BigInteger.weakOrderOn_less : WeakOrderOn Set.univ BigInteger.less := by
  have hwords : WeakOrderOn Set.univ
      fun a b : BigInteger => lexLess (fun x y => decide (x < y)) a.value b.value :=
    ((key Set.univ id).lexLess.preimage BigInteger.value).mono fun _ _ _ _ => trivial
  -- words are compared only below one sign
  have hsigned : ∀ sign, WeakOrderOn {a ∈ Set.univ | OrderDual.toDual a.sign = sign}
      fun a b : BigInteger => if a.sign = 0 then lexLess (fun x y => decide (x < y)) a.value b.value
        else lexLess (fun x y => decide (x < y)) b.value a.value := by
    intro sign
    by_cases hzero : sign = OrderDual.toDual 0
    · refine (hwords.mono (Set.subset_univ _)).congr fun a ha b _ => if_pos ?_
      exact OrderDual.toDual.injective (ha.2.trans hzero)
    · refine (hwords.swap.mono (Set.subset_univ _)).congr fun a ha b _ => if_neg fun ha0 => ?_
      exact hzero (ha.2.symm.trans (congrArg OrderDual.toDual ha0))
  -- the greater sign comes first
  exact field (fun a : BigInteger => OrderDual.toDual a.sign) hsigned

namespace ValueObject

def equal (v w : ValueObject) : Bool := !(w.less v || v.less w)

def Numeric : ValueObject → Prop
  | .double x => x.isNan = false
  | .vecs xs => ∀ x ∈ xs, x.isNan = false
  | _ => True

def SameComponents : ValueObject → ValueObject → Prop
  | .double x, .double y => x.key = y.key
  | .vecs xs, .vecs ys => xs.map Ieee.key = ys.map Ieee.key
  | v, w => v = w

/-- Different assets, or lists of them, that differ only in versions and expiry times. -/
def OtherVersions : ValueObject → ValueObject → Prop
  | .asset x, .asset y => x.Equivalent y ∧ x ≠ y
  | .assets xs, .assets ys => List.Forall₂ AssetValue.Equivalent xs ys ∧ xs ≠ ys
  | _, _ => False

theorem weakOrderOn_less : WeakOrderOn {v | Numeric v} less := by
  apply field getType
  intro type
  match type with
  | 0 =>
    refine .of_image (u := Set.univ) (fun _ : Unit => null) ?_ ⟨?_, ?_⟩
    · rintro v ⟨_, htype⟩
      cases v <;> first | exact ⟨(), trivial, rfl⟩ | exact nomatch htype
    · exact fun _ _ _ _ h => nomatch h
    · exact fun _ _ _ _ _ _ h => nomatch h
  | 1 =>
    refine .of_image (u := Set.univ) int ?_ (key _ id)
    rintro v ⟨_, htype⟩
    cases v <;> first | exact ⟨_, trivial, rfl⟩ | exact nomatch htype
  | 2 =>
    refine .of_image double ?_ Ieee.weakOrderOn_less
    rintro v ⟨hv, htype⟩
    cases v <;> first | exact ⟨_, hv, rfl⟩ | exact nomatch htype
  | 3 =>
    refine .of_image (u := Set.univ) string ?_ (key _ id)
    rintro v ⟨_, htype⟩
    cases v <;> first | exact ⟨_, trivial, rfl⟩ | exact nomatch htype
  | 4 =>
    refine .of_image (u := Set.univ) bool ?_ (key _ id)
    rintro v ⟨_, htype⟩
    cases v <;> first | exact ⟨_, trivial, rfl⟩ | exact nomatch htype
  | 5 =>
    refine .of_image blob ?_ (key Set.univ UInt8.toNat).lexLess
    rintro v ⟨_, htype⟩
    cases v <;> first | exact ⟨_, fun _ _ => trivial, rfl⟩ | exact nomatch htype
  | 6 =>
    refine .of_image asset ?_ AssetValue.weakOrderOn_less
    rintro v ⟨_, htype⟩
    cases v <;> first | exact ⟨_, trivial, rfl⟩ | exact nomatch htype
  | 7 =>
    refine .of_image assets ?_ AssetValue.weakOrderOn_less.lexLess
    rintro v ⟨_, htype⟩
    cases v <;> first | exact ⟨_, fun _ _ => trivial, rfl⟩ | exact nomatch htype
  | 8 =>
    refine .of_image vecs ?_ Ieee.weakOrderOn_less.lexLess
    rintro v ⟨hv, htype⟩
    cases v <;> first | exact ⟨_, hv, rfl⟩ | exact nomatch htype
  | 9 =>
    refine .of_image bigInt ?_ BigInteger.weakOrderOn_less
    rintro v ⟨_, htype⟩
    cases v <;> first | exact ⟨_, trivial, rfl⟩ | exact nomatch htype
  | n + 10 =>
    have hempty : ∀ v, v ∉ {v ∈ {v | Numeric v} | getType v = n + 10} := by
      rintro v ⟨_, htype⟩
      cases v <;> exact nomatch htype
    exact ⟨fun v hv => absurd hv (hempty v), fun v hv => absurd hv (hempty v)⟩

/-! ## Equality -/

variable {v w : ValueObject}

theorem equal_iff : v.equal w ↔ Alike less v w := by
  rw [equal, Bool.not_eq_true', Bool.or_eq_false_iff, and_comm]
  rfl

theorem sameNumber_iff (hx : x.isNan = false) (hy : y.isNan = false) :
    sameNumber x y ↔ x.key = y.key := by
  rw [Ieee.key_inj, sameNumber, hx, hy]
  simp

theorem forall₂_sameNumber_iff {xs ys : List Float} (hxs : ∀ x ∈ xs, x.isNan = false)
    (hys : ∀ y ∈ ys, y.isNan = false) :
    List.Forall₂ sameNumber xs ys ↔ xs.map Ieee.key = ys.map Ieee.key := by
  induction xs generalizing ys with
  | nil => cases ys <;> simp
  | cons x xs ih =>
    cases ys with
    | nil => simp
    | cons y ys =>
      rw [List.forall_mem_cons] at hxs hys
      rw [List.forall₂_cons, List.map_cons, List.map_cons, List.cons.injEq, ih hxs.2 hys.2,
        sameNumber_iff hxs.1 hys.1]

theorem equivalent_iff (hv : v.Numeric) (hw : w.Numeric) :
    v.Equivalent w ↔ v.SameComponents w ∨ v.OtherVersions w := by
  unfold Equivalent
  split
  · exact (sameNumber_iff hv hw).trans (or_iff_left id).symm
  next x y =>
    have hrefl : x = y → x.Equivalent y := fun h => h ▸ rfl
    simp only [SameComponents, OtherVersions, asset.injEq]
    tauto
  next xs ys =>
    have hrefl : xs = ys → List.Forall₂ AssetValue.Equivalent xs ys :=
      fun h => h ▸ List.forall₂_same.mpr fun _ _ => rfl
    simp only [SameComponents, OtherVersions, assets.injEq]
    tauto
  · exact (forall₂_sameNumber_iff hv hw).trans (or_iff_left id).symm
  next hdouble hasset hassets hvecs =>
    rw [SameComponents, OtherVersions, or_false]
    all_goals assumption

theorem OtherVersions.not_sameComponents (h : v.OtherVersions w) : ¬ v.SameComponents w := by
  unfold OtherVersions at h
  split at h
  · simpa [SameComponents] using h.2
  · simpa [SameComponents] using h.2
  · exact h.elim

abbrev NumericObject := {v : ValueObject // v.Numeric}

theorem less_weakOrder_and_equal_iff (v w : NumericObject) :
    IsStrictWeakOrder NumericObject (fun v w => v.1.less w.1) ∧
      (v.1.equal w.1 ↔ Alike less v.1 w.1) ∧
      ((v.1.equal w.1 ↔ v.1.SameComponents w.1) ↔ ¬ v.1.OtherVersions w.1) := by
  refine ⟨weakOrderOn_less.isStrictWeakOrder, equal_iff, ?_⟩
  rw [equal_iff, alike_less, equivalent_iff v.2 w.2]
  constructor
  · intro h hother
    exact hother.not_sameComponents (h.mp (.inr hother))
  · intro hother
    exact or_iff_left hother

theorem equal_other_version :
    let a : AssetValue := ⟨1, 1, 0, "", "a", "", "", "", "", "", "", ""⟩
    let v := asset a
    let w := asset { a with version := 2 }
    v.equal w ∧ ¬ v.SameComponents w := by
  refine ⟨by decide, fun h => ?_⟩
  exact absurd (congrArg AssetValue.version (asset.inj h)) (by decide)

end ValueObject

end RelationalStore.Values
