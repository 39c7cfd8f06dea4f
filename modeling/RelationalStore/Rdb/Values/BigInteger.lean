import RelationalStore.Rdb.Values.ValueObject
import RelationalStore.Theory.Digits

/-! # Unlimited integers

A sign and the words of the magnitude, the lowest first; `operator<` begins with the lowest too. -/

namespace RelationalStore.Values

def BigInteger.equal (a b : BigInteger) : Bool :=
  if a.sign ≠ b.sign then false else decide (a.value = b.value)

structure BigIntegerObject where
  sign : Int32
  value : List UInt64
  hasData : Bool
  hasData_of_ne_nil : value ≠ [] → hasData

namespace BigIntegerObject

def default : BigIntegerObject := ⟨0, [], false, fun h => absurd rfl h⟩

def ofTrueForm (sign : Int32) (trueForm : List UInt64) : BigIntegerObject :=
  ⟨sign, trueForm, !trueForm.isEmpty, fun h => by simpa using h⟩

def ofInt64 (value : Int64) : BigIntegerObject :=
  let sign := if value < 0 then 1 else 0
  let value := if value < 0 then value * -1 else value
  ⟨sign, [value.toUInt64], true, fun _ => rfl⟩

variable (x : BigIntegerObject)

def words : List Nat := x.value.map UInt64.toNat

def toBigInteger : BigInteger := ⟨x.sign.toInt, x.words⟩

/-! ## The integers -/

def magnitude : Nat := Nat.ofDigits (2 ^ 64) x.words

def toInt : Int := if x.sign = 0 then x.magnitude else -x.magnitude

/-- The operators compare the integers. -/
@[mk_iff]
structure ComparesIntegers (a b : BigIntegerObject) : Prop where
  less_iff : a.toBigInteger.less b.toBigInteger ↔ a.toInt < b.toInt
  equal_iff : a.toBigInteger.equal b.toBigInteger ↔ a.toInt = b.toInt

def OrderedByWords (a b : BigIntegerObject) : Prop :=
  if a.sign = b.sign then EndsAgree a.words b.words
  else if a.sign = 0 ∨ b.sign = 0 then
    0 ≤ a.sign.toInt ∧ 0 ≤ b.sign.toInt ∧ ∃ w ∈ a.words ++ b.words, w ≠ 0
  else
    ∃ j, LastDiff a.words b.words j ∧
      (b.sign.toInt < a.sign.toInt ↔ b.words.getD j 0 < a.words.getD j 0)

variable {a b : BigIntegerObject}

theorem word_lt : ∀ d ∈ x.words, d < 2 ^ 64 := by
  intro d hd
  obtain ⟨w, _, rfl⟩ := List.mem_map.mp hd
  exact w.toNat_lt

theorem magnitude_eq_zero_iff : x.magnitude = 0 ↔ ∀ w ∈ x.words, w = 0 := by
  rw [magnitude]
  induction x.words with
  | nil => simp
  | cons w words ih =>
    rw [Nat.ofDigits_cons, List.forall_mem_cons, ← ih]
    simp

theorem magnitude_pos_iff :
    0 < a.magnitude ∨ 0 < b.magnitude ↔ ∃ w ∈ a.words ++ b.words, w ≠ 0 := by
  rw [← not_iff_not]
  push Not
  rw [List.forall_mem_append, ← magnitude_eq_zero_iff, ← magnitude_eq_zero_iff, Nat.le_zero,
    Nat.le_zero]

theorem toInt_of_sign_eq (h : a.sign = 0) : a.toInt = a.magnitude := if_pos h

theorem toInt_of_sign_ne (h : a.sign ≠ 0) : a.toInt = -a.magnitude := if_neg h

variable (v : Int64)

theorem toNat_toUInt64 :
    (v.toUInt64.toNat : Int) = if v.toInt < 0 then v.toInt + 2 ^ 64 else v.toInt := by
  have hlt := v.toBitVec.isLt
  rw [← Int64.toNat_toBitVec, ← Int64.toInt_toBitVec, BitVec.toInt_eq_toNat_cond]
  split <;> split <;> omega

theorem toInt_ofInt64 : (ofInt64 v).toInt = v.toInt := by
  have hn := toNat_toUInt64 v
  by_cases h : v < 0
  · have hneg : v.toInt < 0 := Int64.lt_iff_toInt_lt.mp h
    have hge := Int64.le_toInt v
    rw [if_pos hneg] at hn
    have hword : ((v * -1).toUInt64.toNat : Int) = -v.toInt := by
      rw [Int64.toUInt64_mul, UInt64.toNat_mul,
        show (-1 : Int64).toUInt64.toNat = 2 ^ 64 - 1 from rfl]
      omega
    have hmagnitude : ((ofInt64 v).magnitude : Int) = -v.toInt := by
      rw [← hword]
      simp [magnitude, words, ofInt64, h]
    rw [toInt_of_sign_ne (by simp [ofInt64, h]), hmagnitude, Int.neg_neg]
  · have hge : ¬ v.toInt < 0 := fun hlt => h (Int64.lt_iff_toInt_lt.mpr hlt)
    rw [if_neg hge] at hn
    rw [toInt_of_sign_eq (by simp [ofInt64, h]), ← hn]
    simp [magnitude, words, ofInt64, h]

/-! ## The operators -/

theorem equal_iff :
    a.toBigInteger.equal b.toBigInteger ↔ a.sign = b.sign ∧ a.words = b.words := by
  rw [BigInteger.equal]
  split
  next hne => exact iff_of_false Bool.false_ne_true fun h => hne (congrArg Int32.toInt h.1)
  next heq =>
    rw [decide_eq_true_iff]
    exact (and_iff_right (Int32.toInt_inj.mp (not_not.mp heq))).symm

theorem less_of_sign_ne (h : a.sign ≠ b.sign) :
    a.toBigInteger.less b.toBigInteger ↔ b.sign.toInt < a.sign.toInt := by
  have hne : a.toBigInteger.sign ≠ b.toBigInteger.sign := mt Int32.toInt_inj.mp h
  rw [BigInteger.less, if_pos hne]
  exact decide_eq_true_iff

theorem less_of_sign_eq (h : a.sign = b.sign) : a.toBigInteger.less b.toBigInteger =
    if b.sign = 0 then lexLess (fun x y => decide (x < y)) a.words b.words
    else lexLess (fun x y => decide (x < y)) b.words a.words := by
  have hsign : a.toBigInteger.sign = b.toBigInteger.sign := congrArg Int32.toInt h
  have hzero : a.toBigInteger.sign = 0 ↔ b.sign = 0 := by
    rw [hsign]
    exact Int32.toInt_inj (y := 0)
  rw [BigInteger.less, if_neg (not_not.mpr hsign)]
  exact if_congr hzero rfl rfl

theorem comparesIntegers_of_sign_eq (h : a.sign = b.sign) :
    a.ComparesIntegers b ↔ EndsAgree a.words b.words := by
  have hless := less_of_sign_eq h
  rw [comparesIntegers_iff, equal_iff, and_iff_right h]
  by_cases hzero : b.sign = 0
  · rw [if_pos hzero] at hless
    rw [hless, toInt_of_sign_eq hzero, toInt_of_sign_eq (h.trans hzero), Int.ofNat_lt,
      Int.ofNat_inj]
    exact endsAgree_iff (by decide) a.word_lt b.word_lt
  · -- the negation of both turns the comparison around
    rw [if_neg hzero] at hless
    rw [hless, toInt_of_sign_ne hzero, toInt_of_sign_ne (h.trans_ne hzero), Int.neg_lt_neg_iff,
      Int.neg_inj, Int.ofNat_lt, Int.ofNat_inj, eq_comm (a := a.words), eq_comm (a := a.magnitude)]
    refine (endsAgree_iff (by decide) b.word_lt a.word_lt).trans ?_
    exact ⟨.symm, .symm⟩

theorem comparesIntegers_of_sign_ne (h : a.sign ≠ b.sign) : a.ComparesIntegers b ↔
    (b.sign.toInt < a.sign.toInt ↔ a.toInt < b.toInt) ∧ a.toInt ≠ b.toInt := by
  have hequal : ¬ a.toBigInteger.equal b.toBigInteger := fun he => h (equal_iff.mp he).1
  rw [comparesIntegers_iff, less_of_sign_ne h, iff_false_left hequal]

theorem comparesIntegers_of_sign_zero (h : a.sign ≠ b.sign) (hzero : a.sign = 0 ∨ b.sign = 0) :
    a.ComparesIntegers b ↔
      0 ≤ a.sign.toInt ∧ 0 ≤ b.sign.toInt ∧ ∃ w ∈ a.words ++ b.words, w ≠ 0 := by
  have hsigns : a.sign.toInt ≠ b.sign.toInt := mt Int32.toInt_inj.mp h
  rw [comparesIntegers_of_sign_ne h, ← magnitude_pos_iff]
  rcases hzero with hzero | hzero
  · have hsign : a.sign.toInt = 0 := congrArg Int32.toInt hzero
    rw [toInt_of_sign_eq hzero, toInt_of_sign_ne (hzero ▸ h.symm)]
    omega
  · have hsign : b.sign.toInt = 0 := congrArg Int32.toInt hzero
    rw [toInt_of_sign_eq hzero, toInt_of_sign_ne (hzero ▸ h)]
    omega

theorem comparesIntegers_of_signs_ne (h : a.sign ≠ b.sign) (ha : a.sign ≠ 0) (hb : b.sign ≠ 0) :
    a.ComparesIntegers b ↔ ∃ j, LastDiff a.words b.words j ∧
      (b.sign.toInt < a.sign.toInt ↔ b.words.getD j 0 < a.words.getD j 0) := by
  rw [comparesIntegers_of_sign_ne h, toInt_of_sign_ne ha, toInt_of_sign_ne hb, Int.neg_lt_neg_iff,
    ne_eq, Int.neg_inj, Int.ofNat_lt, Int.ofNat_inj]
  constructor
  · rintro ⟨hless, hne⟩
    obtain ⟨j, hj⟩ := exists_lastDiff hne
    refine ⟨j, hj, hless.trans ?_⟩
    exact hj.symm.ofDigits_lt_iff (by decide) b.word_lt a.word_lt
  · rintro ⟨j, hj, hless⟩
    refine ⟨hless.trans ?_, hj.ofDigits_ne (by decide) a.word_lt b.word_lt⟩
    exact (hj.symm.ofDigits_lt_iff (by decide) b.word_lt a.word_lt).symm

theorem order_of_integers (a b : BigIntegerObject) :
    (ofInt64 v).toInt = v.toInt ∧ (a.ComparesIntegers b ↔ a.OrderedByWords b) := by
  refine ⟨toInt_ofInt64 v, ?_⟩
  rw [OrderedByWords]
  split
  next h => exact comparesIntegers_of_sign_eq h
  split
  next h hzero => exact comparesIntegers_of_sign_zero h hzero
  next h hzero =>
    rw [not_or] at hzero
    exact comparesIntegers_of_signs_ne h hzero.1 hzero.2

theorem two_pow_sixty_four_less_one :
    let a : BigIntegerObject := ⟨0, [0, 1], true, fun _ => rfl⟩
    let b : BigIntegerObject := ⟨0, [1], true, fun _ => rfl⟩
    a.toInt = 2 ^ 64 ∧ b.toInt = 1 ∧ a.toBigInteger.less b.toBigInteger ∧
      ¬ a.ComparesIntegers b := by
  refine ⟨by decide, by decide, by decide, fun h => ?_⟩
  exact absurd (h.less_iff.mp (by decide)) (by decide)

end BigIntegerObject

end RelationalStore.Values
