import RelationalStore.Theory.Comparison

/-! # The order of the values

`operator<` compares the types and then the values, and does not tell all values apart. -/

namespace RelationalStore.Values

structure AssetValue where
  version : Nat
  status : Nat
  expiresTime : Nat
  id : String
  name : String
  uri : String
  createTime : String
  modifyTime : String
  size : String
  hash : String
  path : String
  extension : String
  deriving DecidableEq

namespace AssetValue

def statusInsert : Nat := 2
def statusAbnormal : Nat := 5
def statusDownloading : Nat := 6

def less (a b : AssetValue) : Bool :=
  if a.name ≠ b.name then decide (a.name < b.name)
  else if a.status ≠ b.status then decide (a.status < b.status)
  else if a.id ≠ b.id then decide (a.id < b.id)
  else if a.uri ≠ b.uri then decide (a.uri < b.uri)
  else if a.createTime ≠ b.createTime then decide (a.createTime < b.createTime)
  else if a.modifyTime ≠ b.modifyTime then decide (a.modifyTime < b.modifyTime)
  else if a.size ≠ b.size then decide (a.size < b.size)
  else if a.hash ≠ b.hash then decide (a.hash < b.hash)
  else if a.path ≠ b.path then decide (a.path < b.path)
  else decide (a.extension < b.extension)

/-- The assets differ at most in their version and in their expiry time. -/
def Equivalent (a b : AssetValue) : Prop :=
  { a with version := b.version, expiresTime := b.expiresTime } = b

instance (a b : AssetValue) : Decidable (Equivalent a b) := by
  unfold Equivalent; infer_instance

theorem alike_less : Alike less a b ↔ Equivalent a b := by
  simp only [Alike, less, ite_lt_alike]
  rw [show (decide (a.extension < b.extension) = false ∧ decide (b.extension < a.extension) = false)
    ↔ a.extension = b.extension from alike_decide, Equivalent, AssetValue.mk.injEq]
  tauto

end AssetValue

structure BigInteger where
  sign : Int
  value : List Nat
  deriving DecidableEq

def BigInteger.less (a b : BigInteger) : Bool :=
  if a.sign ≠ b.sign then decide (b.sign < a.sign)
  else if a.sign = 0 then lexLess (fun x y => decide (x < y)) a.value b.value
  else lexLess (fun x y => decide (x < y)) b.value a.value

abbrev Double := Ieee 11 52
abbrev Float := Ieee 8 23

inductive ValueObject where
  | null
  | int (value : Int)
  | double (value : Double)
  | string (value : String)
  | bool (value : Bool)
  | blob (value : List UInt8)
  | asset (value : AssetValue)
  | assets (value : List AssetValue)
  | vecs (value : List Float)
  | bigInt (value : BigInteger)
  deriving DecidableEq

namespace ValueObject

def getType : ValueObject → Nat
  | .null => 0
  | .int _ => 1
  | .double _ => 2
  | .string _ => 3
  | .bool _ => 4
  | .blob _ => 5
  | .asset _ => 6
  | .assets _ => 7
  | .vecs _ => 8
  | .bigInt _ => 9

def less (v w : ValueObject) : Bool :=
  if v.getType ≠ w.getType then decide (v.getType < w.getType)
  else
    match v, w with
    | .int x, .int y => decide (x < y)
    | .double x, .double y => x.less y
    | .string x, .string y => decide (x < y)
    | .bool x, .bool y => decide (x < y)
    | .blob x, .blob y => lexLess (fun a b => decide (a.toNat < b.toNat)) x y
    | .asset x, .asset y => x.less y
    | .assets x, .assets y => lexLess AssetValue.less x y
    | .vecs x, .vecs y => lexLess Ieee.less x y
    | .bigInt x, .bigInt y => x.less y
    | _, _ => false

def sameNumber {e f : Nat} (x y : Ieee e f) : Prop :=
  x = y ∨ x.isNan ∨ y.isNan ∨ x.magnitude.val = 0 ∧ y.magnitude.val = 0

/-- Which values `operator<` does not tell apart. -/
def Equivalent : ValueObject → ValueObject → Prop
  | .double x, .double y => sameNumber x y
  | .asset x, .asset y => x.Equivalent y
  | .assets x, .assets y => List.Forall₂ AssetValue.Equivalent x y
  | .vecs x, .vecs y => List.Forall₂ sameNumber x y
  | v, w => v = w

end ValueObject

theorem alike_ieee_less : Alike Ieee.less x y ↔ ValueObject.sameNumber x y := by
  rw [Ieee.alike_less, Ieee.key_inj, ValueObject.sameNumber]
  tauto

theorem alike_byte (a b : UInt8) :
    Alike (fun a b : UInt8 => decide (a.toNat < b.toNat)) a b ↔ a = b := by
  rw [← UInt8.toNat_inj]
  exact alike_decide (a := a.toNat) (b := b.toNat)

theorem BigInteger.alike_less : Alike less a b ↔ a = b := by
  have hlex (x y : List Nat) : Alike (lexLess fun x y => decide (x < y)) x y ↔ x = y :=
    alike_lexLess_eq fun _ _ => alike_decide
  obtain ⟨sign, value⟩ := a
  obtain ⟨sign', value'⟩ := b
  rw [BigInteger.mk.injEq]
  by_cases hsign : sign = sign'
  · subst hsign
    rw [eq_self, true_and]
    by_cases hzero : sign = 0
    · simp only [Alike, less, hzero, ne_eq, not_true_eq_false, if_false, if_true]
      exact hlex value value'
    · simp only [Alike, less, hzero, ne_eq, not_true_eq_false, if_false]
      exact (hlex value' value).trans eq_comm
  · have hne : sign' ≠ sign := Ne.symm hsign
    simp only [Alike, less, hsign, hne, ne_eq, not_false_eq_true, if_true, decide_eq_false_iff_not,
      false_and, iff_false]
    omega

namespace ValueObject
variable {v w : ValueObject}

theorem Equivalent.getType_eq (h : Equivalent v w) : v.getType = w.getType := by
  unfold Equivalent at h
  split at h <;> first | rfl | exact congrArg getType h

theorem getType_eq_of_alike (h : Alike less v w) : v.getType = w.getType := by
  by_contra hne
  obtain ⟨hvw, hwv⟩ := h
  unfold less at hvw hwv
  rw [if_pos hne, decide_eq_false_iff_not] at hvw
  rw [if_pos (Ne.symm hne), decide_eq_false_iff_not] at hwv
  omega

theorem alike_less : Alike less v w ↔ Equivalent v w := by
  by_cases htype : v.getType = w.getType
  · cases v <;> cases w <;> try (simp [getType] at htype; done)
    case null.null => exact iff_of_true ⟨rfl, rfl⟩ rfl
    case int.int x y =>
      change Alike (fun x y : Int => decide (x < y)) x y ↔ int x = int y
      rw [alike_decide, int.injEq]
    case double.double x y => exact alike_ieee_less
    case string.string x y =>
      change Alike (fun x y : String => decide (x < y)) x y ↔ string x = string y
      rw [alike_decide, string.injEq]
    case bool.bool x y =>
      change Alike (fun x y : Bool => decide (x < y)) x y ↔ bool x = bool y
      rw [alike_decide, bool.injEq]
    case blob.blob x y =>
      change Alike (lexLess fun a b : UInt8 => decide (a.toNat < b.toNat)) x y ↔ blob x = blob y
      rw [alike_lexLess_eq alike_byte, blob.injEq]
    case asset.asset x y => exact AssetValue.alike_less
    case assets.assets x y =>
      refine alike_lexLess.trans ?_
      rw [show Alike AssetValue.less = AssetValue.Equivalent from
        funext fun a => funext fun b => propext AssetValue.alike_less]
      rfl
    case vecs.vecs x y =>
      refine alike_lexLess.trans ?_
      rw [show Alike (Ieee.less (e := 8) (f := 23)) = sameNumber from
        funext fun a => funext fun b => propext alike_ieee_less]
      rfl
    case bigInt.bigInt x y =>
      refine BigInteger.alike_less.trans ?_
      rw [← bigInt.injEq]
      rfl
  · exact iff_of_false (fun h => htype (getType_eq_of_alike h)) fun h => htype h.getType_eq

end ValueObject

end RelationalStore.Values
