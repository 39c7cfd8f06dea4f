import RelationalStore.Theory.Comparison

/-! The order of numbers by their digits.

A number is given by its digits to some base, the lowest one first; a digit that is not there is
zero. -/

namespace RelationalStore

def FirstDiff (u v : List Nat) (i : Nat) : Prop := u[i]? ≠ v[i]? ∧ ∀ k < i, u[k]? = v[k]?

def LastDiff (u v : List Nat) (j : Nat) : Prop :=
  u.getD j 0 ≠ v.getD j 0 ∧ ∀ k, j < k → u.getD k 0 = v.getD k 0

def EndsAgree (u v : List Nat) : Prop :=
  u = v ∨ ∃ i j, FirstDiff u v i ∧ LastDiff u v j ∧ (u[i]? < v[i]? ↔ u.getD j 0 < v.getD j 0)

section
variable {u v : List Nat} {i j b : Nat}

theorem FirstDiff.symm (h : FirstDiff u v i) : FirstDiff v u i :=
  ⟨h.1.symm, fun k hk => (h.2 k hk).symm⟩

theorem LastDiff.symm (h : LastDiff u v j) : LastDiff v u j :=
  ⟨h.1.symm, fun k hk => (h.2 k hk).symm⟩

theorem exists_firstDiff (h : u ≠ v) : ∃ i, FirstDiff u v i := by
  classical
  have hex : ∃ i : Nat, u[i]? ≠ v[i]? := by
    by_contra hall
    exact h (List.ext_getElem? fun i => not_not.mp fun hi => hall ⟨i, hi⟩)
  exact ⟨Nat.find hex, Nat.find_spec hex, fun k hk => not_not.mp (Nat.find_min hex hk)⟩

theorem FirstDiff.lexLess_iff (h : FirstDiff u v i) :
    lexLess (fun x y => decide (x < y)) u v ↔ u[i]? < v[i]? := by
  induction i generalizing u v with
  | zero =>
    obtain ⟨hne, _⟩ := h
    cases v with
    | nil => simp [lexLess]
    | cons y v =>
      cases u with
      | nil => simp [lexLess]
      | cons x u =>
        have hxy : x ≠ y := by simpa using hne
        rcases lt_or_gt_of_ne hxy with hlt | hgt
        · simp [lexLess, hlt]
        · simp [lexLess, hgt]
  | succ i ih =>
    have hzero := h.2 0 (Nat.succ_pos i)
    cases u with
    | nil =>
      cases v with
      | nil => exact absurd rfl h.1
      | cons y v => cases hzero
    | cons x u =>
      cases v with
      | nil => cases hzero
      | cons y v =>
        obtain rfl : x = y := Option.some.inj hzero
        have htail : FirstDiff u v i := ⟨h.1, fun k hk => h.2 (k + 1) (Nat.succ_lt_succ hk)⟩
        simpa [lexLess] using ih htail

/-! ## The numbers -/

theorem ofDigits_eq_zero (h : ∀ k, v.getD k 0 = 0) : Nat.ofDigits b v = 0 := by
  induction v with
  | nil => rfl
  | cons y v ih =>
    have hy : y = 0 := h 0
    rw [Nat.ofDigits_cons, hy, ih fun k => h (k + 1)]
    rfl

theorem ofDigits_congr (h : ∀ k, u.getD k 0 = v.getD k 0) :
    Nat.ofDigits b u = Nat.ofDigits b v := by
  induction u generalizing v with
  | nil => exact (ofDigits_eq_zero fun k => (h k).symm).symm
  | cons x u ih =>
    cases v with
    | nil => exact ofDigits_eq_zero h
    | cons y v =>
      have hxy : x = y := h 0
      rw [Nat.ofDigits_cons, Nat.ofDigits_cons, hxy, ih fun k => h (k + 1)]

theorem exists_lastDiff (h : Nat.ofDigits b u ≠ Nat.ofDigits b v) : ∃ j, LastDiff u v j := by
  classical
  have hex : ∃ k, u.getD k 0 ≠ v.getD k 0 := by
    by_contra hall
    exact h (ofDigits_congr fun k => not_not.mp fun hk => hall ⟨k, hk⟩)
  -- beyond both lists all digits are zero
  have hbound : ∀ k, u.getD k 0 ≠ v.getD k 0 → k ≤ max u.length v.length := by
    intro k hk
    by_contra hgt
    refine hk ?_
    rw [List.getD_eq_default _ _ (by omega), List.getD_eq_default _ _ (by omega)]
  obtain ⟨k, hk⟩ := hex
  refine ⟨Nat.findGreatest (fun k => u.getD k 0 ≠ v.getD k 0) (max u.length v.length),
    Nat.findGreatest_spec (P := fun k => u.getD k 0 ≠ v.getD k 0) (hbound k hk) hk, ?_⟩
  intro k' hlt
  by_contra hne
  exact absurd (Nat.le_findGreatest (P := fun k => u.getD k 0 ≠ v.getD k 0) (hbound k' hne) hne)
    (Nat.not_le_of_lt hlt)

theorem ofDigits_eq_tail (v : List Nat) :
    Nat.ofDigits b v = v.getD 0 0 + b * Nat.ofDigits b v.tail := by
  cases v with
  | nil => simp
  | cons y v => exact Nat.ofDigits_cons

theorem getD_zero_lt (hb : 0 < b) (h : ∀ d ∈ v, d < b) : v.getD 0 0 < b := by
  cases v with
  | nil => exact hb
  | cons y v => exact h y List.mem_cons_self

theorem getD_tail (v : List Nat) (k : Nat) : v.tail.getD k 0 = v.getD (k + 1) 0 := by
  cases v <;> rfl

theorem LastDiff.ofDigits_lt (h : LastDiff u v j) (hlt : u.getD j 0 < v.getD j 0) (hb : 0 < b)
    (hu : ∀ d ∈ u, d < b) : Nat.ofDigits b u < Nat.ofDigits b v := by
  induction j generalizing u v with
  | zero =>
    have htail : Nat.ofDigits b u.tail = Nat.ofDigits b v.tail := by
      apply ofDigits_congr
      intro k
      rw [getD_tail, getD_tail]
      exact h.2 (k + 1) (Nat.succ_pos k)
    rw [ofDigits_eq_tail u, ofDigits_eq_tail v, htail]
    omega
  | succ j ih =>
    have htail : Nat.ofDigits b u.tail < Nat.ofDigits b v.tail := by
      refine ih ⟨?_, fun k hk => ?_⟩ ?_ fun d hd => hu d (List.mem_of_mem_tail hd)
      · rw [getD_tail, getD_tail]
        exact h.1
      · rw [getD_tail, getD_tail]
        exact h.2 (k + 1) (Nat.succ_lt_succ hk)
      · rw [getD_tail, getD_tail]
        exact hlt
    have hhead := getD_zero_lt hb hu
    calc
      Nat.ofDigits b u = u.getD 0 0 + b * Nat.ofDigits b u.tail := ofDigits_eq_tail u
      _ < b * (Nat.ofDigits b u.tail + 1) := by
        rw [Nat.mul_succ]
        omega
      _ ≤ b * Nat.ofDigits b v.tail := Nat.mul_le_mul_left b htail
      _ ≤ v.getD 0 0 + b * Nat.ofDigits b v.tail := Nat.le_add_left _ _
      _ = Nat.ofDigits b v := (ofDigits_eq_tail v).symm

theorem LastDiff.ofDigits_lt_iff (h : LastDiff u v j) (hb : 0 < b) (hu : ∀ d ∈ u, d < b)
    (hv : ∀ d ∈ v, d < b) :
    Nat.ofDigits b u < Nat.ofDigits b v ↔ u.getD j 0 < v.getD j 0 := by
  constructor
  · intro hlt
    rcases lt_or_gt_of_ne h.1 with hj | hj
    · exact hj
    · exact absurd (h.symm.ofDigits_lt hj hb hv) (Nat.lt_asymm hlt)
  · intro hj
    exact h.ofDigits_lt hj hb hu

theorem LastDiff.ofDigits_ne (h : LastDiff u v j) (hb : 0 < b) (hu : ∀ d ∈ u, d < b)
    (hv : ∀ d ∈ v, d < b) : Nat.ofDigits b u ≠ Nat.ofDigits b v := by
  rcases lt_or_gt_of_ne h.1 with hj | hj
  · exact Nat.ne_of_lt (h.ofDigits_lt hj hb hu)
  · exact Nat.ne_of_gt (h.symm.ofDigits_lt hj hb hv)

theorem EndsAgree.symm (h : EndsAgree u v) : EndsAgree v u := by
  rcases h with rfl | ⟨i, j, hi, hj, hij⟩
  · exact .inl rfl
  · refine .inr ⟨i, j, hi.symm, hj.symm, ?_⟩
    have hword : v[i]? < u[i]? ↔ ¬ u[i]? < v[i]? := by
      have hne := hi.1
      generalize u[i]? = x at hne
      generalize v[i]? = y at hne
      cases x <;> cases y <;> simp_all
      omega
    rw [hword, hij, Nat.not_lt, Nat.lt_iff_le_and_ne, and_iff_left hj.1.symm]

theorem endsAgree_iff (hb : 0 < b) (hu : ∀ d ∈ u, d < b) (hv : ∀ d ∈ v, d < b) :
    ((lexLess (fun x y => decide (x < y)) u v ↔ Nat.ofDigits b u < Nat.ofDigits b v) ∧
      (u = v ↔ Nat.ofDigits b u = Nat.ofDigits b v)) ↔ EndsAgree u v := by
  constructor
  · rintro ⟨hless, heq⟩
    by_cases huv : u = v
    · exact .inl huv
    obtain ⟨i, hi⟩ := exists_firstDiff huv
    obtain ⟨j, hj⟩ := exists_lastDiff (mt heq.mpr huv)
    refine .inr ⟨i, j, hi, hj, ?_⟩
    rw [← hi.lexLess_iff, hless, hj.ofDigits_lt_iff hb hu hv]
  · rintro (rfl | ⟨i, j, hi, hj, hij⟩)
    · have hself : Alike (lexLess fun x y => decide (x < y)) u u :=
        (alike_lexLess_eq fun _ _ => alike_decide).mpr rfl
      simp [hself.1]
    · constructor
      · rw [hi.lexLess_iff, hij, hj.ofDigits_lt_iff hb hu hv]
      · refine iff_of_false ?_ (hj.ofDigits_ne hb hu hv)
        rintro rfl
        exact hi.1 rfl

end

end RelationalStore
