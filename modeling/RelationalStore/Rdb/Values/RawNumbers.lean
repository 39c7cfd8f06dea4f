import RelationalStore.Rdb.Values.BigInteger
import RelationalStore.Rdb.Values.RawDataParser

/-! # Unlimited integers and float vectors as raw data

Both are a magic word, a header with the number of elements, and the elements. -/

namespace RelationalStore.Values

open List RawDataParser

namespace RawDataParser

def FLOUT32_ARRAY : Nat := 0x46333241
def BIG_INT : Nat := 0x42494749

/-! ## Unlimited integers -/

def wordBytes (word : UInt64) : List UInt8 := hToLe 8 word.toNat

def wordOfBytes (bytes : List UInt8) : UInt64 := UInt64.ofNat (leToH bytes)

def parserRawDataBigInt (data : List UInt8) (bigint : BigIntegerObject) : Nat × BigIntegerObject :=
  if data.length < 4 then (0, bigint)
  else if leToH (data.take 4) ≠ BIG_INT then (0, bigint)
  else if data.length - 4 < 4 then (0, bigint)
  else
    let sign := UInt32.ofNat (leToH ((data.drop 4).take 4))
    if data.length - 8 < 8 then (0, bigint)
    else
      let count := leToH ((data.drop 8).take 8)
      if (data.length - 16) / 8 < count then (0, bigint)
      else
        let trueFrom := readElements 8 wordOfBytes count (data.drop 16)
        (16 + 8 * count, .ofTrueForm sign.toInt32 trueFrom)

def packageRawDataBigInt (bigint : BigIntegerObject) : List UInt8 :=
  if bigint.hasData then
    hToLe 4 BIG_INT ++ hToLe 4 bigint.sign.toUInt32.toNat ++ hToLe 8 bigint.value.length ++
      bigint.value.flatMap wordBytes
  else []

def ReturnsBigInt (bigint : BigIntegerObject) : Prop :=
  ∀ old, let data := packageRawDataBigInt bigint
    (parserRawDataBigInt data old).1 = data.length ∧
      (parserRawDataBigInt data old).2.sign = bigint.sign ∧
      (parserRawDataBigInt data old).2.value = bigint.value

section
variable {bigint old : BigIntegerObject}

theorem leToH_hToLe_count (n : Nat) : leToH (hToLe 8 n) = n % 2 ^ 64 := leToH_hToLe 8 n

@[simp] theorem length_wordBytes (word : UInt64) : (wordBytes word).length = 8 := length_hToLe 8 _

theorem wordOfBytes_wordBytes (word : UInt64) : wordOfBytes (wordBytes word) = word := by
  rw [wordOfBytes, wordBytes, leToH_hToLe_count, Nat.mod_eq_of_lt word.toNat_lt, UInt64.ofNat_toNat]

theorem leToH_hToLe_sign (sign : UInt32) : leToH (hToLe 4 sign.toNat) = sign.toNat := by
  rw [leToH_hToLe]
  exact Nat.mod_eq_of_lt sign.toNat_lt

theorem length_packageRawDataBigInt (h : bigint.hasData) :
    (packageRawDataBigInt bigint).length = 16 + 8 * bigint.value.length := by
  rw [packageRawDataBigInt, if_pos h]
  simp only [length_append, length_hToLe, length_flatMap, length_wordBytes,
    map_const', sum_replicate, smul_eq_mul, Nat.mul_comm]

theorem parserRawDataBigInt_packageRawDataBigInt (h : bigint.hasData) :
    parserRawDataBigInt (packageRawDataBigInt bigint) old =
      let count := bigint.value.length % 2 ^ 64
      (16 + 8 * count, .ofTrueForm bigint.sign (bigint.value.take count)) := by
  have hmod := Nat.mod_le bigint.value.length (2 ^ 64)
  have hdata : packageRawDataBigInt bigint = hToLe 4 BIG_INT ++
      (hToLe 4 bigint.sign.toUInt32.toNat ++
        (hToLe 8 bigint.value.length ++ bigint.value.flatMap wordBytes)) := by
    rw [packageRawDataBigInt, if_pos h, append_assoc, append_assoc]
  have hmagic : (packageRawDataBigInt bigint).take 4 = hToLe 4 BIG_INT := by
    rw [hdata]
    exact take_left' (length_hToLe 4 _)
  have hsign : (packageRawDataBigInt bigint).drop 4 = hToLe 4 bigint.sign.toUInt32.toNat ++
      (hToLe 8 bigint.value.length ++ bigint.value.flatMap wordBytes) := by
    rw [hdata]
    exact drop_left' (length_hToLe 4 _)
  have hcount : (packageRawDataBigInt bigint).drop 8 =
      hToLe 8 bigint.value.length ++ bigint.value.flatMap wordBytes := by
    rw [show 8 = 4 + 4 from rfl, ← drop_drop, hsign]
    exact drop_left' (length_hToLe 4 _)
  have hwords : (packageRawDataBigInt bigint).drop 16 =
      bigint.value.flatMap wordBytes := by
    rw [show 16 = 8 + 8 from rfl, ← drop_drop, hcount]
    exact drop_left' (length_hToLe 8 _)
  have hread := readElements_flatMap length_wordBytes wordOfBytes_wordBytes hmod
  unfold parserRawDataBigInt
  rw [hmagic, hsign, hcount, hwords, length_packageRawDataBigInt h, leToH_hToLe 4 BIG_INT,
    take_left' (length_hToLe 4 _), take_left' (length_hToLe 8 _), leToH_hToLe_sign,
    leToH_hToLe_count, if_neg (by omega), if_neg (by decide), if_neg (by omega)]
  dsimp only
  rw [if_neg (by omega), if_neg (by omega), hread, UInt32.ofNat_toNat, Int32.toInt32_toUInt32]

theorem returnsBigInt_iff : ReturnsBigInt bigint ↔
    bigint.hasData ∧ bigint.value.length < 2 ^ 64 := by
  constructor
  · intro h
    by_cases hdata : bigint.hasData
    · refine ⟨hdata, ?_⟩
      have hused := (h .default).1
      rw [parserRawDataBigInt_packageRawDataBigInt hdata, length_packageRawDataBigInt hdata]
        at hused
      dsimp only at hused
      omega
    · -- nothing is packaged, and each target keeps what it has
      have hempty : packageRawDataBigInt bigint = [] := if_neg hdata
      have hzero := (h (.ofTrueForm 0 [])).2.1
      have hone := (h (.ofTrueForm 1 [])).2.1
      rw [hempty] at hzero hone
      exact absurd (hzero.trans hone.symm) (by decide)
  · rintro ⟨hdata, hlt⟩ old
    dsimp only
    rw [parserRawDataBigInt_packageRawDataBigInt hdata, length_packageRawDataBigInt hdata,
      Nat.mod_eq_of_lt hlt]
    exact ⟨rfl, rfl, take_length⟩

end

/-! ## Float vectors -/

variable (bigEndian : Bool)

def floatBytes (bits : UInt32) : List UInt8 :=
  if bigEndian then (hToLe 4 bits.toNat).reverse else hToLe 4 bits.toNat

def floatOfBytes (bytes : List UInt8) : UInt32 :=
  UInt32.ofNat (leToH (if bigEndian then bytes.reverse else bytes))

def parserRawDataFloats (data : List UInt8) (floats : List UInt32) :
    Nat × List UInt32 :=
  if data.length < 4 then (0, floats)
  else if leToH (data.take 4) ≠ FLOUT32_ARRAY then (0, floats)
  else if data.length - 4 < 4 then (0, floats)
  else
    let count := leToH ((data.drop 4).take 4)
    if (data.length - 8) / 4 < count then (0, floats)
    else (8 + 4 * count, readElements 4 (floatOfBytes bigEndian) count (data.drop 8))

def packageRawDataFloats (floats : List UInt32) : List UInt8 :=
  hToLe 4 FLOUT32_ARRAY ++ hToLe 4 floats.length ++ floats.flatMap (floatBytes bigEndian)

def ReturnsFloats (floats : List UInt32) : Prop :=
  ∀ old, let data := packageRawDataFloats bigEndian floats
    parserRawDataFloats bigEndian data old = (data.length, floats)

section
variable {bigEndian : Bool} {floats old : List UInt32}

@[simp] theorem length_floatBytes (bits : UInt32) : (floatBytes bigEndian bits).length = 4 := by
  rw [floatBytes]
  split
  · rw [length_reverse, length_hToLe]
  · rw [length_hToLe]

theorem floatOfBytes_floatBytes (bits : UInt32) :
    floatOfBytes bigEndian (floatBytes bigEndian bits) = bits := by
  have hbytes : (if bigEndian then (floatBytes bigEndian bits).reverse
      else floatBytes bigEndian bits) = hToLe 4 bits.toNat := by
    cases bigEndian
    · rfl
    · exact reverse_reverse _
  rw [floatOfBytes, hbytes, leToH_hToLe_sign, UInt32.ofNat_toNat]

theorem length_packageRawDataFloats :
    (packageRawDataFloats bigEndian floats).length = 8 + 4 * floats.length := by
  rw [packageRawDataFloats]
  simp only [length_append, length_hToLe, length_flatMap, length_floatBytes,
    map_const', sum_replicate, smul_eq_mul, Nat.mul_comm]

theorem parserRawDataFloats_packageRawDataFloats :
    parserRawDataFloats bigEndian (packageRawDataFloats bigEndian floats) old =
      let count := floats.length % 2 ^ 32
      (8 + 4 * count, floats.take count) := by
  have hmod := Nat.mod_le floats.length (2 ^ 32)
  have hdata : packageRawDataFloats bigEndian floats = hToLe 4 FLOUT32_ARRAY ++
      (hToLe 4 floats.length ++ floats.flatMap (floatBytes bigEndian)) :=
    append_assoc _ _ _
  have hmagic : (packageRawDataFloats bigEndian floats).take 4 = hToLe 4 FLOUT32_ARRAY := by
    rw [hdata]
    exact take_left' (length_hToLe 4 _)
  have hcount : (packageRawDataFloats bigEndian floats).drop 4 =
      hToLe 4 floats.length ++ floats.flatMap (floatBytes bigEndian) := by
    rw [hdata]
    exact drop_left' (length_hToLe 4 _)
  have hfloats : (packageRawDataFloats bigEndian floats).drop 8 =
      floats.flatMap (floatBytes bigEndian) := by
    rw [show 8 = 4 + 4 from rfl, ← drop_drop, hcount]
    exact drop_left' (length_hToLe 4 _)
  have hread := readElements_flatMap (@length_floatBytes bigEndian) floatOfBytes_floatBytes hmod
  unfold parserRawDataFloats
  rw [hmagic, hcount, hfloats, length_packageRawDataFloats, leToH_hToLe 4 FLOUT32_ARRAY,
    take_left' (length_hToLe 4 _), leToH_hToLe, if_neg (by omega), if_neg (by decide),
    if_neg (by omega)]
  dsimp only
  rw [show 256 ^ 4 = 2 ^ 32 from rfl, if_neg (by omega), hread]

theorem returnsFloats_iff : ReturnsFloats bigEndian floats ↔ floats.length < 2 ^ 32 := by
  constructor
  · intro h
    have hused := congrArg Prod.fst (h [])
    rw [parserRawDataFloats_packageRawDataFloats, length_packageRawDataFloats] at hused
    dsimp only at hused
    omega
  · intro hlt old
    dsimp only
    rw [parserRawDataFloats_packageRawDataFloats, length_packageRawDataFloats,
      Nat.mod_eq_of_lt hlt]
    exact congrArg (Prod.mk _) take_length

end

end RawDataParser

theorem returns_numbers_iff (bigint : BigIntegerObject) (bigEndian : Bool) (floats : List UInt32) :
    (ReturnsBigInt bigint ↔
      bigint.hasData ∧ bigint.value.length < 2 ^ 64) ∧
    (ReturnsFloats bigEndian floats ↔ floats.length < 2 ^ 32) :=
  ⟨returnsBigInt_iff, returnsFloats_iff⟩

theorem not_returns_default :
    packageRawDataBigInt .default = [] ∧
    parserRawDataBigInt [] (.ofInt64 5) = (0, .ofInt64 5) ∧
    ¬ ReturnsBigInt .default := by
  refine ⟨rfl, rfl, fun h => ?_⟩
  exact absurd (returnsBigInt_iff.mp h).1 (by decide)

end RelationalStore.Values
