import RelationalStore.Rdb.Values.RawNumbers
import RelationalStore.Theory.Reads

/-! # What the parsers read

The parsers with the cells they read and the arithmetic of `size_t`. -/

namespace RelationalStore.Values

open List

namespace RawDataParser

/-! ## The data that is used -/

section
variable {α : Type}

def Local (parse : List UInt8 → Nat × α) : Prop :=
  ∀ data u v, u ≠ 0 → parse data = (u, v) →
    u ≤ data.length ∧ ∀ data', data'.take u = data.take u → parse data' = (u, v)

def SelfContained (parse : List UInt8 → Nat × α) : Prop :=
  ∀ data u v, u ≠ 0 → parse data = (u, v) → u ≤ data.length ∧ parse (data.take u) = (u, v)

theorem Local.selfContained (h : Local parse) : SelfContained parse := by
  intro data u v hu hparse
  obtain ⟨hle, hlocal⟩ := h data u v hu hparse
  refine ⟨hle, hlocal _ ?_⟩
  rw [take_take, Nat.min_self]

theorem le_length_of_take_eq {data data' : List UInt8} (hle : u ≤ data.length)
    (h : data'.take u = data.take u) : u ≤ data'.length := by
  have hlength := congrArg List.length h
  rw [length_take, length_take, Nat.min_eq_left hle] at hlength
  omega

theorem check_eq_iff [Decidable c] (hu : u ≠ 0) :
    (if c then (0, old) else r) = (u, v) ↔ ¬ c ∧ r = (u, v) := by
  split
  next h => exact iff_of_false (fun heq => hu (Prod.mk.inj heq).1.symm) fun hc => hc.1 h
  next h => exact (and_iff_right h).symm

end

section
variable {json : JsonLibrary} {now u : Nat} {data : List UInt8}

variable {asset : AssetValue}

theorem parserRawData_eq_iff (hu : u ≠ 0) :
    parserRawData json now data old = (u, asset) ↔
      u ≤ data.length ∧ leToH ((data.drop 0).take 4) = ASSET_MAGIC ∧
      u = 6 + leToH ((data.drop 4).take 2) ∧
      unmarshall json now ((data.drop 6).take (u - 6)) old = (true, asset) := by
  simp only [parserRawData, check_eq_iff hu, ne_eq, not_not, drop_zero]
  constructor
  · rintro ⟨_, hmagic, _, _, hresult⟩
    split at hresult
    · exact absurd (Prod.mk.inj hresult).1.symm hu
    next htext =>
      obtain ⟨rfl, rfl⟩ := Prod.mk.inj hresult
      rw [Nat.add_sub_cancel_left]
      exact ⟨by omega, hmagic, rfl, htext⟩
  · rintro ⟨_, hmagic, rfl, htext⟩
    rw [Nat.add_sub_cancel_left] at htext
    rw [htext]
    exact ⟨by omega, hmagic, by omega, by omega, rfl⟩

theorem local_parserRawData (old : AssetValue) : Local (parserRawData json now · old) := by
  intro data u asset hu hparse
  obtain ⟨hle, hmagic, hsize, htext⟩ := (parserRawData_eq_iff hu).mp hparse
  refine ⟨hle, fun data' hdata' => (parserRawData_eq_iff hu).mpr ?_⟩
  rw [part_congr hdata' (by omega), part_congr hdata' (by omega), part_congr hdata' (by omega)]
  exact ⟨le_length_of_take_eq hle hdata', hmagic, hsize, htext⟩

theorem parserRawDataBigInt_eq_iff (hu : u ≠ 0) :
    parserRawDataBigInt data old = (u, bigint) ↔
      u ≤ data.length ∧ leToH ((data.drop 0).take 4) = BIG_INT ∧
      u = 16 + 8 * leToH ((data.drop 8).take 8) ∧
      BigIntegerObject.ofTrueForm (UInt32.ofNat (leToH ((data.drop 4).take 4))).toInt32
        (readElements 8 wordOfBytes (leToH ((data.drop 8).take 8)) (data.drop 16)) = bigint := by
  simp only [parserRawDataBigInt, check_eq_iff hu, ne_eq, not_not, drop_zero, Prod.mk.injEq]
  constructor
  · rintro ⟨_, hmagic, _, _, _, rfl, hbigint⟩
    exact ⟨by omega, hmagic, rfl, hbigint⟩
  · rintro ⟨_, hmagic, rfl, hbigint⟩
    exact ⟨by omega, hmagic, by omega, by omega, by omega, rfl, hbigint⟩

theorem local_parserRawDataBigInt (old : BigIntegerObject) :
    Local (parserRawDataBigInt · old) := by
  intro data u bigint hu hparse
  obtain ⟨hle, hmagic, hused, hwords⟩ := (parserRawDataBigInt_eq_iff hu).mp hparse
  refine ⟨hle, fun data' hdata' => (parserRawDataBigInt_eq_iff hu).mpr ?_⟩
  have hcount : (data'.drop 8).take 8 = (data.drop 8).take 8 := part_congr hdata' (by omega)
  rw [hcount, readElements_congr (part_congr hdata' (by omega)), part_congr hdata' (by omega),
    part_congr hdata' (by omega)]
  exact ⟨le_length_of_take_eq hle hdata', hmagic, hused, hwords⟩

theorem parserRawDataFloats_eq_iff (hu : u ≠ 0) :
    parserRawDataFloats bigEndian data old = (u, floats) ↔
      u ≤ data.length ∧ leToH ((data.drop 0).take 4) = FLOUT32_ARRAY ∧
      u = 8 + 4 * leToH ((data.drop 4).take 4) ∧
      readElements 4 (floatOfBytes bigEndian) (leToH ((data.drop 4).take 4)) (data.drop 8) =
        floats := by
  simp only [parserRawDataFloats, check_eq_iff hu, ne_eq, not_not, drop_zero, Prod.mk.injEq]
  constructor
  · rintro ⟨_, hmagic, _, _, rfl, hfloats⟩
    exact ⟨by omega, hmagic, rfl, hfloats⟩
  · rintro ⟨_, hmagic, rfl, hfloats⟩
    exact ⟨by omega, hmagic, by omega, by omega, rfl, hfloats⟩

theorem local_parserRawDataFloats (bigEndian : Bool) (old : List UInt32) :
    Local (parserRawDataFloats bigEndian · old) := by
  intro data u floats hu hparse
  obtain ⟨hle, hmagic, hused, hfloats⟩ := (parserRawDataFloats_eq_iff hu).mp hparse
  refine ⟨hle, fun data' hdata' => (parserRawDataFloats_eq_iff hu).mpr ?_⟩
  have hcount : (data'.drop 4).take 4 = (data.drop 4).take 4 := part_congr hdata' (by omega)
  rw [hcount, readElements_congr (part_congr hdata' (by omega)), part_congr hdata' (by omega)]
  exact ⟨le_length_of_take_eq hle hdata', hmagic, hused, hfloats⟩

/-! ## Lists -/

variable (json now)

inductive Elements : List UInt8 → List AssetValue → List UInt8 → Prop
  | nil (data : List UInt8) : Elements data [] data
  | cons {data rest : List UInt8} {assets : List AssetValue} {u asset} (hu : u ≠ 0)
    (hparse : parserRawData json now data .empty = (u, asset))
    (htail : Elements (data.drop u) assets rest) : Elements data (asset :: assets) rest

variable {json now}

theorem parserRawData_used (hu : u ≠ 0) (h : parserRawData json now data old = (u, asset)) :
    6 ≤ u ∧ u ≤ data.length := by
  obtain ⟨hle, _, hsize, _⟩ := (parserRawData_eq_iff hu).mp h
  exact ⟨by omega, hle⟩

theorem parserLoop_of_refused (h : (parserRawData json now data .empty).1 = 0) :
    parserLoop json now num data old = (0, old) := by
  cases num with
  | zero => rfl
  | succ num =>
    rw [parserLoop]
    split
    · rfl
    · exact if_pos h

theorem parserLoop_of_accepted (hu : u ≠ 0) (h : parserRawData json now data .empty = (u, asset)) :
    parserLoop json now (num + 1) data old =
      (u + (parserLoop json now num (data.drop u) (old ++ [asset])).1,
        (parserLoop json now num (data.drop u) (old ++ [asset])).2) := by
  have hdata : data ≠ [] := by
    rintro rfl
    exact hu (Prod.mk.inj h).1.symm
  rw [parserLoop, if_neg hdata, h]
  exact if_neg hu

theorem parserLoop_spec (json : JsonLibrary) (now num : Nat) (data : List UInt8)
    (old : List AssetValue) :
    ∃ assets, (parserLoop json now num data old).2 = old ++ assets ∧
      Elements json now data assets (data.drop (parserLoop json now num data old).1) ∧
      assets.length ≤ num ∧ (assets.length < num → (parserRawData json now
        (data.drop (parserLoop json now num data old).1) .empty).1 = 0) := by
  induction num generalizing data old with
  | zero =>
    exact ⟨[], (append_nil _).symm, .nil _, Nat.le_refl 0, fun h => absurd h (Nat.lt_irrefl 0)⟩
  | succ num ih =>
    rcases hparse : parserRawData json now data .empty with ⟨u, asset⟩
    by_cases hu : u = 0
    · have hrefused : (parserRawData json now data .empty).1 = 0 := by rw [hparse, hu]
      rw [parserLoop_of_refused hrefused]
      exact ⟨[], (append_nil _).symm, .nil _, Nat.zero_le _, fun _ => hrefused⟩
    · obtain ⟨assets, hout, helements, hlength, hstop⟩ := ih (data.drop u) (old ++ [asset])
      rw [drop_drop] at helements hstop
      rw [parserLoop_of_accepted hu hparse]
      refine ⟨asset :: assets, ?_, .cons hu hparse helements, Nat.succ_le_succ hlength,
        fun h => hstop (Nat.lt_of_succ_lt_succ h)⟩
      rw [hout, append_assoc]
      rfl

namespace Elements
variable {rest rest' : List UInt8} {assets assets' : List AssetValue}

theorem length_le (h : Elements json now data assets rest) :
    6 * assets.length + rest.length ≤ data.length := by
  induction h with
  | nil => exact Nat.le_of_eq (Nat.zero_add _)
  | cons hu hparse _ ih =>
    have hused := parserRawData_used hu hparse
    rw [length_drop] at ih
    rw [length_cons]
    omega

theorem next_of_length_lt (h : Elements json now data assets rest)
    (h' : Elements json now data assets' rest') (hlt : assets.length < assets'.length) :
    (parserRawData json now rest .empty).1 ≠ 0 := by
  induction h generalizing assets' with
  | nil =>
    cases h' with
    | nil => exact absurd hlt (Nat.lt_irrefl _)
    | cons hu hparse _ =>
      rw [hparse]
      exact hu
  | cons hu hparse _ ih =>
    cases h' with
    | nil => exact absurd hlt (Nat.not_lt_zero _)
    | cons hu' hparse' htail' =>
      obtain ⟨rfl, rfl⟩ := Prod.mk.inj (hparse.symm.trans hparse')
      exact ih htail' (Nat.lt_of_succ_lt_succ hlt)

theorem rest_eq_of_length_eq (h : Elements json now data assets rest)
    (h' : Elements json now data assets' rest') (heq : assets.length = assets'.length) :
    rest = rest' := by
  induction h generalizing assets' with
  | nil =>
    cases h' with
    | nil => rfl
    | cons _ _ _ => exact nomatch heq
  | cons hu hparse _ ih =>
    cases h' with
    | nil => exact nomatch heq
    | cons hu' hparse' htail' =>
      obtain ⟨rfl, rfl⟩ := Prod.mk.inj (hparse.symm.trans hparse')
      exact ih htail' (Nat.succ.inj heq)

end Elements

def wellFormed (json : JsonLibrary) (now : Nat) (data : List UInt8) : Nat :=
  (parserLoop json now data.length data []).2.length

theorem exists_elements (json : JsonLibrary) (now : Nat) (data : List UInt8) :
    ∃ assets rest, Elements json now data assets rest ∧ assets.length = wellFormed json now data ∧
      (parserRawData json now rest .empty).1 = 0 := by
  obtain ⟨assets, hout, helements, _, hstop⟩ :=
    parserLoop_spec json now data.length data []
  refine ⟨assets, _, helements, by rw [wellFormed, hout, nil_append], ?_⟩
  have hlength := helements.length_le
  rcases Nat.lt_or_ge assets.length data.length with hlt | hge
  · exact hstop hlt
  · have hempty : data = [] := length_eq_zero_iff.mp (by omega)
    rw [hempty, drop_nil]
    rfl

theorem parserLoop_wellFormed (json : JsonLibrary) (now num : Nat) (data : List UInt8)
    (old : List AssetValue) :
    ∃ assets, (parserLoop json now num data old).2 = old ++ assets ∧
      assets.length = min num (wellFormed json now data) ∧
      ((parserRawData json now (data.drop (parserLoop json now num data old).1) .empty).1 = 0 ↔
        wellFormed json now data ≤ num) := by
  obtain ⟨assets, hout, helements, hle, hstop⟩ := parserLoop_spec json now num data old
  obtain ⟨all, rest, hall, hwell, hend⟩ := exists_elements json now data
  refine ⟨assets, hout, ?_⟩
  rw [← hwell]
  rcases Nat.lt_trichotomy assets.length all.length with hlt | heq | hgt
  · have hnext := helements.next_of_length_lt hall hlt
    have hnum : ¬ assets.length < num := fun h => hnext (hstop h)
    exact ⟨by omega, iff_of_false hnext (by omega)⟩
  · rw [helements.rest_eq_of_length_eq hall heq]
    exact ⟨by omega, iff_of_true hend (by omega)⟩
  · exact absurd hend (hall.next_of_length_lt helements hgt)

theorem parserLoop_take (json : JsonLibrary) (now num : Nat) (data : List UInt8)
    (old : List AssetValue) : (parserLoop json now num data old).1 ≤ data.length ∧
      parserLoop json now num (data.take (parserLoop json now num data old).1) old =
        parserLoop json now num data old := by
  induction num generalizing data old with
  | zero => exact ⟨Nat.zero_le _, rfl⟩
  | succ num ih =>
    rcases hparse : parserRawData json now data .empty with ⟨u, asset⟩
    by_cases hu : u = 0
    · have hrefused : (parserRawData json now data .empty).1 = 0 := by rw [hparse, hu]
      rw [parserLoop_of_refused hrefused]
      exact ⟨Nat.zero_le _, rfl⟩
    · obtain ⟨hle, htake⟩ := ih (data.drop u) (old ++ [asset])
      obtain ⟨hbound, hlocal⟩ := local_parserRawData .empty data u asset hu hparse
      rw [length_drop] at hle
      rw [parserLoop_of_accepted hu hparse]
      refine ⟨by dsimp only; omega, ?_⟩
      have hfirst := hlocal
        (data.take (u + (parserLoop json now num (data.drop u) (old ++ [asset])).1))
        (by rw [take_take, Nat.min_eq_left (Nat.le_add_right _ _)])
      rw [parserLoop_of_accepted hu hfirst, drop_take, Nat.add_sub_cancel_left, htake]

theorem selfContained_parserRawDataAssets (old : List AssetValue) :
    SelfContained (parserRawDataAssets json now · old) := by
  intro data u assets hu hparse
  simp only [parserRawDataAssets, check_eq_iff hu, ne_eq, not_not, Prod.mk.injEq] at hparse ⊢
  obtain ⟨_, hmagic, _, rfl, rfl⟩ := hparse
  obtain ⟨hle, htake⟩ := parserLoop_take json now (leToH (data.take 2)) (data.drop 6) old
  rw [length_drop] at hle
  rw [take_take, take_take, Nat.min_eq_left (by omega), Nat.min_eq_left (by omega),
    drop_take, Nat.add_sub_cancel_left, htake, length_take]
  exact ⟨by omega, by omega, hmagic, by omega, rfl, rfl⟩

end

/-! ## The parsers on memory -/

variable (a : Nat)

/-- The arithmetic of `size_t`. -/
def sizeAdd (b : Nat) : Nat := (a + b) % 2 ^ 64

@[inherit_doc sizeAdd]
def sizeSub (b : Nat) : Nat := (a + 2 ^ 64 - b) % 2 ^ 64

@[inherit_doc sizeAdd]
def sizeMul (b : Nat) : Nat := a * b % 2 ^ 64

namespace OnMemory

section
variable (json : JsonLibrary) (now : Nat)

def parserRawData (data length : Nat) (asset : AssetValue) : Reads UInt8 (Nat × AssetValue) :=
  if sizeSub length 0 < 4 then pure (0, asset)
  else do
    let magic ← Reads.cells data 4
    if leToH magic ≠ ASSET_MAGIC then pure (0, asset)
    else if sizeSub length 4 < 2 then pure (0, asset)
    else do
      let size ← Reads.cells (data + 4) 2
      if sizeSub length 6 < leToH size then pure (0, asset)
      else do
        let rawData ← Reads.cells (data + 6) (leToH size)
        match unmarshall json now rawData asset with
        | (false, asset) => pure (0, asset)
        | (true, asset) => pure (sizeAdd 6 (leToH size), asset)

def parserLoop (data length : Nat) :
    Nat → Nat → List AssetValue → Reads UInt8 (Nat × List AssetValue)
  | 0, used, assets => pure (used, assets)
  | num + 1, used, assets =>
    if used < length then do
      let (dataLen, asset) ← parserRawData json now (data + used) (sizeSub length used) .empty
      if dataLen = 0 then pure (used, assets)
      else parserLoop data length num (sizeAdd used dataLen) (assets ++ [asset])
    else pure (used, assets)

def parserRawDataAssets (data length : Nat) (assets : List AssetValue) :
    Reads UInt8 (Nat × List AssetValue) :=
  if sizeSub length 0 < 4 then pure (0, assets)
  else do
    let magic ← Reads.cells data 4
    if leToH magic ≠ ASSETS_MAGIC then pure (0, assets)
    else if sizeSub length 4 < 2 then pure (0, assets)
    else do
      let num ← Reads.cells data 2
      parserLoop json now data length (leToH num) 6 assets

end

def align (aligned : Bool) (data length : Nat) : Reads UInt8 Unit :=
  if aligned then pure () else do
    let _ ← Reads.cells data length

def parserRawDataBigInt (aligned : Bool) (data length : Nat) (bigint : BigIntegerObject) :
    Reads UInt8 (Nat × BigIntegerObject) :=
  if sizeSub length 0 < 4 then pure (0, bigint)
  else do
    align aligned data length
    let magic ← Reads.cells data 4
    if leToH magic ≠ BIG_INT then pure (0, bigint)
    else if sizeSub length 4 < 4 then pure (0, bigint)
    else do
      let sign ← Reads.cells (data + 4) 4
      if sizeSub length 8 < 8 then pure (0, bigint)
      else do
        let count ← Reads.cells (data + 8) 8
        if sizeSub length 16 / 8 < leToH count then pure (0, bigint)
        else do
          let temp ← Reads.cells (data + 16) (leToH count * 8)
          pure (sizeAdd 16 (sizeMul 8 (leToH count)),
            .ofTrueForm (UInt32.ofNat (leToH sign)).toInt32
              (readElements 8 wordOfBytes (leToH count) temp))

def parserRawDataFloats (bigEndian aligned : Bool) (data length : Nat) (floats : List UInt32) :
    Reads UInt8 (Nat × List UInt32) :=
  if sizeSub length 0 < 4 then pure (0, floats)
  else do
    align aligned data length
    let magic ← Reads.cells data 4
    if leToH magic ≠ FLOUT32_ARRAY then pure (0, floats)
    else if sizeSub length 4 < 4 then pure (0, floats)
    else do
      let count ← Reads.cells (data + 4) 4
      if sizeSub length 8 / 4 < leToH count then pure (0, floats)
      else do
        let values ← Reads.cells (data + 8) (leToH count * 4)
        pure (sizeAdd 8 (sizeMul 4 (leToH count)),
          readElements 4 (floatOfBytes bigEndian) (leToH count) values)

end OnMemory

section
open Reads
variable {json : JsonLibrary} {now data length n : Nat} {mem : Nat → UInt8}

variable {a b : Nat}

theorem sizeSub_of_le (h : b ≤ a) (ha : a < 2 ^ 64) : sizeSub a b = a - b := by
  rw [sizeSub]
  omega

theorem sizeAdd_of_lt (h : a + b < 2 ^ 64) : sizeAdd a b = a + b := Nat.mod_eq_of_lt h

theorem sizeMul_of_lt (h : a * b < 2 ^ 64) : sizeMul a b = a * b := Nat.mod_eq_of_lt h

variable (hlength : length < 2 ^ 64) (hn : data + length ≤ n)

theorem within_left (hlength : length < 2 ^ 64) (ho : o ≤ length)
    (hp : o + m ≤ length → Within mem n p v) :
    Within mem n (if sizeSub length o < m then pure old else p)
      (if length - o < m then old else v) :=
  .check (by rw [sizeSub_of_le ho hlength]) fun hm => hp (by omega)

theorem readElements_block {width count o : Nat} (h : o + count * width ≤ length) :
    readElements width parse count ((block mem data length).drop o) =
      readElements width parse count (block mem (data + o) (count * width)) := by
  apply readElements_congr
  rw [part_block h, take_block (Nat.le_refl _)]

include hlength hn

theorem within_parserRawData (old : AssetValue) :
    Within mem n (OnMemory.parserRawData json now data length old)
      (parserRawData json now (block mem data length) old) := by
  unfold OnMemory.parserRawData parserRawData
  rw [length_block]
  dsimp only
  refine within_left hlength (Nat.zero_le _) fun _ => .bind (.cells (by omega)) ?_
  rw [take_block (by omega)]
  refine .check Iff.rfl fun _ => within_left hlength (by omega) fun h => ?_
  refine .bind (.cells (by omega)) ?_
  rw [part_block h]
  refine within_left hlength h fun _ => .bind (.cells (by omega)) ?_
  rw [part_block (by omega), sizeAdd_of_lt (by omega)]
  rcases unmarshall json now (block mem (data + 6) (leToH (block mem (data + 4) 2))) old with
    ⟨_ | _, asset⟩
  · exact .pure _
  · exact .pure _

theorem within_parserLoop (hused : used ≤ length) (old : List AssetValue) :
    Within mem n (OnMemory.parserLoop json now data length num used old)
      (used + (parserLoop json now num ((block mem data length).drop used) old).1,
        (parserLoop json now num ((block mem data length).drop used) old).2) := by
  induction num generalizing used old with
  | zero => exact .pure _
  | succ num ih =>
    rw [OnMemory.parserLoop]
    have hparse : Within mem n
        (OnMemory.parserRawData json now (data + used) (length - used) .empty)
        (parserRawData json now ((block mem data length).drop used) .empty) := by
      rw [drop_block]
      exact within_parserRawData (by omega) (by omega) .empty
    rcases hresult : parserRawData json now ((block mem data length).drop used) .empty
      with ⟨u, asset⟩
    rw [hresult] at hparse
    by_cases hu : u = 0
    · have hrefused :
          (parserRawData json now ((block mem data length).drop used) .empty).1 = 0 := by
        rw [hresult, hu]
      rw [parserLoop_of_refused hrefused]
      split
      · rw [sizeSub_of_le hused hlength]
        refine .bind hparse ?_
        dsimp only
        rw [if_pos hu]
        exact .pure _
      · exact .pure _
    · have hbound := (parserRawData_used hu hresult).2
      rw [length_drop, length_block] at hbound
      rw [parserLoop_of_accepted hu hresult, if_pos (by omega), sizeSub_of_le hused hlength]
      refine .bind hparse ?_
      dsimp only
      rw [if_neg hu, sizeAdd_of_lt (by omega), drop_drop, ← Nat.add_assoc]
      exact ih (by omega) _

theorem within_parserRawDataAssets (old : List AssetValue) :
    Within mem n (OnMemory.parserRawDataAssets json now data length old)
      (parserRawDataAssets json now (block mem data length) old) := by
  unfold OnMemory.parserRawDataAssets parserRawDataAssets
  rw [length_block]
  dsimp only
  refine within_left hlength (Nat.zero_le _) fun _ => .bind (.cells (by omega)) ?_
  rw [take_block (by omega), take_block (by omega)]
  refine .check Iff.rfl fun _ => within_left hlength (by omega) fun _ => ?_
  exact .bind (.cells (by omega)) (within_parserLoop hlength hn (by omega) old)

omit hlength in
theorem within_align (aligned : Bool) : Within mem n (OnMemory.align aligned data length) () := by
  rw [OnMemory.align]
  split
  · exact .pure _
  · exact .bind (.cells hn) (.pure _)

theorem within_parserRawDataBigInt (aligned : Bool) (old : BigIntegerObject) :
    Within mem n (OnMemory.parserRawDataBigInt aligned data length old)
      (parserRawDataBigInt (block mem data length) old) := by
  unfold OnMemory.parserRawDataBigInt parserRawDataBigInt
  rw [length_block]
  dsimp only
  refine within_left hlength (Nat.zero_le _) fun _ => .bind (within_align hn aligned) ?_
  refine .bind (.cells (by omega)) ?_
  rw [take_block (by omega)]
  refine .check Iff.rfl fun _ => within_left hlength (by omega) fun h4 => ?_
  refine .bind (.cells (by omega)) (within_left hlength h4 fun h8 => ?_)
  refine .bind (.cells (by omega)) ?_
  rw [part_block h4, part_block h8]
  refine .check (by rw [sizeSub_of_le h8 hlength]) fun _ => .bind (.cells (by omega)) ?_
  rw [sizeMul_of_lt (by omega), sizeAdd_of_lt (by omega), readElements_block (by omega)]
  exact .pure _

theorem within_parserRawDataFloats (bigEndian aligned : Bool) (old : List UInt32) :
    Within mem n (OnMemory.parserRawDataFloats bigEndian aligned data length old)
      (parserRawDataFloats bigEndian (block mem data length) old) := by
  unfold OnMemory.parserRawDataFloats parserRawDataFloats
  rw [length_block]
  dsimp only
  refine within_left hlength (Nat.zero_le _) fun _ => .bind (within_align hn aligned) ?_
  refine .bind (.cells (by omega)) ?_
  rw [take_block (by omega)]
  refine .check Iff.rfl fun _ => within_left hlength (by omega) fun h => ?_
  refine .bind (.cells (by omega)) ?_
  rw [part_block h]
  refine .check (by rw [sizeSub_of_le h hlength]) fun _ => .bind (.cells (by omega)) ?_
  rw [sizeMul_of_lt (by omega), sizeAdd_of_lt (by omega), readElements_block (by omega)]
  exact .pure _

end

/-! ## The data of a caller -/

structure Buffer where
  byte : Nat → UInt8
  length : Nat
  length_lt : length < 2 ^ 64

namespace Buffer

def bytes (buffer : Buffer) : List UInt8 := Reads.block buffer.byte 0 buffer.length

variable (data : List UInt8)

def ofList (h : data.length < 2 ^ 64) : Buffer :=
  ⟨fun i => data.getD i 0, data.length, h⟩

theorem bytes_ofList {data : List UInt8} (h : data.length < 2 ^ 64) :
    (ofList data h).bytes = data :=
  Reads.block_getD data 0

structure Safe {α : Type} (buffer : Buffer) (parser : Nat → Reads UInt8 (Nat × α)) : Prop where
  reads_lt : ∀ i ∈ (parser buffer.length).addrs buffer.byte, i < buffer.length
  used : let result := (parser buffer.length).run buffer.byte
    result.1 = 0 ∨ result.1 ≤ buffer.length ∧
      ∀ byte : Nat → UInt8, (∀ i < result.1, byte i = buffer.byte i) →
        (parser result.1).run byte = result

/-- In addition the bytes behind the used ones make no difference. -/
structure SafeLocal {α : Type} (buffer : Buffer) (parser : Nat → Reads UInt8 (Nat × α)) : Prop
    extends Safe buffer parser where
  used_local : let result := (parser buffer.length).run buffer.byte
    result.1 = 0 ∨ ∀ other : Buffer, result.1 ≤ other.length →
      (∀ i < result.1, other.byte i = buffer.byte i) →
        (parser other.length).run other.byte = result

section
variable {α : Type} {parser : Nat → Reads UInt8 (Nat × α)} {parse : List UInt8 → Nat × α}

variable (hwithin : ∀ byte length, length < 2 ^ 64 →
  Reads.Within byte length (parser length) (parse (Reads.block byte 0 length)))
include hwithin

theorem safe_of_selfContained (hparse : SelfContained parse) (buffer : Buffer) :
    buffer.Safe parser where
  reads_lt := (hwithin _ _ buffer.length_lt).addrs_lt
  used := by
    rw [(hwithin _ _ buffer.length_lt).run_eq]
    rcases hresult : parse (Reads.block buffer.byte 0 buffer.length) with ⟨u, v⟩
    by_cases hu : u = 0
    · exact .inl hu
    · obtain ⟨hle, htake⟩ := hparse _ u v hu hresult
      rw [Reads.length_block] at hle
      rw [Reads.take_block hle] at htake
      refine .inr ⟨hle, fun byte hbyte => ?_⟩
      have hblock : Reads.block byte 0 u = Reads.block buffer.byte 0 u :=
        Reads.block_congr fun i hi => hbyte i (by omega)
      have hlength := buffer.length_lt
      rw [(hwithin byte u (by omega)).run_eq, hblock, htake]

theorem safeLocal_of_local (hparse : Local parse) (buffer : Buffer) :
    buffer.SafeLocal parser where
  toSafe := safe_of_selfContained hwithin hparse.selfContained buffer
  used_local := by
    rw [(hwithin _ _ buffer.length_lt).run_eq]
    rcases hresult : parse (Reads.block buffer.byte 0 buffer.length) with ⟨u, v⟩
    by_cases hu : u = 0
    · exact .inl hu
    · obtain ⟨hle, hlocal⟩ := hparse _ u v hu hresult
      rw [Reads.length_block] at hle
      refine .inr fun other hother hbyte => ?_
      rw [(hwithin _ _ other.length_lt).run_eq]
      apply hlocal
      rw [Reads.take_block hother, Reads.take_block hle]
      exact Reads.block_congr fun i hi => hbyte i (by omega)

end

/-- The length and the magic word are those of a list. -/
def HasHeader : Prop := 6 ≤ data.length ∧ leToH (data.take 4) = ASSETS_MAGIC

def announced : Nat := leToH ((data.drop 4).take 2)

def AcceptsAnnounced (json : JsonLibrary) (now : Nat) (buffer : Buffer) : Prop :=
  ∀ old, let result := (OnMemory.parserRawDataAssets json now 0 buffer.length old).run buffer.byte
    (¬ HasHeader buffer.bytes → result = (0, old)) ∧
    (HasHeader buffer.bytes → ∃ assets, result.2 = old ++ assets ∧
      (assets.length = announced buffer.bytes ∨ assets.length < announced buffer.bytes ∧
        (parserRawData json now (buffer.bytes.drop result.1) .empty).1 = 0))

end Buffer

section
variable {json : JsonLibrary} {now : Nat}

variable {data : List UInt8}

theorem parserRawDataAssets_of_not_header (h : ¬ Buffer.HasHeader data)
    (old : List AssetValue) : parserRawDataAssets json now data old = (0, old) := by
  rw [parserRawDataAssets]
  split
  · rfl
  split
  · rfl
  split
  · rfl
  next h4 hmagic h6 => exact absurd ⟨by omega, not_not.mp hmagic⟩ h

theorem leToH_two_of_header (h : Buffer.HasHeader data) :
    leToH (data.take 2) = 17747 := by
  obtain ⟨hlength, hmagic⟩ := h
  match data, hlength, hmagic with
  | a :: b :: c :: d :: _, _, hmagic =>
    simp only [take_succ_cons, take_zero, leToH, ASSETS_MAGIC] at hmagic ⊢
    have ha := a.toNat_lt
    have hb := b.toNat_lt
    omega

theorem parserRawDataAssets_of_header (h : Buffer.HasHeader data)
    (old : List AssetValue) : parserRawDataAssets json now data old =
      (6 + (parserLoop json now 17747 (data.drop 6) old).1,
        (parserLoop json now 17747 (data.drop 6) old).2) := by
  have hlength := h.1
  rw [parserRawDataAssets, if_neg (by omega), if_neg (not_not.mpr h.2), if_neg (by omega),
    leToH_two_of_header h]

theorem Buffer.run_parserRawDataAssets (buffer : Buffer) (old : List AssetValue) :
    (OnMemory.parserRawDataAssets json now 0 buffer.length old).run buffer.byte =
      parserRawDataAssets json now buffer.bytes old :=
  (within_parserRawDataAssets buffer.length_lt (Nat.le_of_eq (Nat.zero_add _)) old).run_eq

theorem acceptsAnnounced_iff (buffer : Buffer) : buffer.AcceptsAnnounced json now ↔
    (Buffer.HasHeader buffer.bytes →
      let w := wellFormed json now (buffer.bytes.drop 6)
      w ≤ 17747 ∧ w ≤ Buffer.announced buffer.bytes ∨
        17747 < w ∧ Buffer.announced buffer.bytes = 17747) := by
  constructor
  · intro h hheader
    obtain ⟨assets, hout, haccepted⟩ := (h []).2 hheader
    obtain ⟨taken, htaken, hlength, hstop⟩ :=
      parserLoop_wellFormed json now 17747 (buffer.bytes.drop 6) []
    rw [buffer.run_parserRawDataAssets, parserRawDataAssets_of_header hheader] at hout haccepted
    obtain rfl : taken = assets := append_cancel_left (htaken.symm.trans hout)
    rw [← drop_drop, hstop] at haccepted
    dsimp only
    omega
  · intro h old
    dsimp only
    rw [buffer.run_parserRawDataAssets]
    refine ⟨fun hheader => parserRawDataAssets_of_not_header hheader old, fun hheader => ?_⟩
    obtain ⟨taken, htaken, hlength, hstop⟩ :=
      parserLoop_wellFormed json now 17747 (buffer.bytes.drop 6) old
    rw [parserRawDataAssets_of_header hheader]
    refine ⟨taken, htaken, ?_⟩
    dsimp only
    rw [← drop_drop, hstop]
    have hwell := h hheader
    dsimp only at hwell
    omega

end

variable (json : JsonLibrary)

theorem parsers_safe_and_accepts_iff (now : Nat) (buffer : Buffer)
    (bigEndian aligned : Bool) (asset : AssetValue) (assets : List AssetValue)
    (bigint : BigIntegerObject) (floats : List UInt32) :
    buffer.SafeLocal (OnMemory.parserRawData json now 0 · asset) ∧
    buffer.Safe (OnMemory.parserRawDataAssets json now 0 · assets) ∧
    buffer.SafeLocal (OnMemory.parserRawDataBigInt aligned 0 · bigint) ∧
    buffer.SafeLocal (OnMemory.parserRawDataFloats bigEndian aligned 0 · floats) ∧
    (buffer.AcceptsAnnounced json now ↔ (Buffer.HasHeader buffer.bytes →
      let w := wellFormed json now (buffer.bytes.drop 6)
      w ≤ 17747 ∧ w ≤ Buffer.announced buffer.bytes ∨
        17747 < w ∧ Buffer.announced buffer.bytes = 17747)) := by
  have hn (length : Nat) : 0 + length ≤ length := Nat.le_of_eq (Nat.zero_add _)
  refine ⟨?_, ?_, ?_, ?_, acceptsAnnounced_iff buffer⟩
  · exact Buffer.safeLocal_of_local (fun _ _ h => within_parserRawData h (hn _) asset)
      (local_parserRawData asset) buffer
  · exact Buffer.safe_of_selfContained (fun _ _ h => within_parserRawDataAssets h (hn _) assets)
      (selfContained_parserRawDataAssets assets) buffer
  · exact Buffer.safeLocal_of_local
      (fun _ _ h => within_parserRawDataBigInt h (hn _) aligned bigint)
      (local_parserRawDataBigInt bigint) buffer
  · exact Buffer.safeLocal_of_local
      (fun _ _ h => within_parserRawDataFloats h (hn _) bigEndian aligned floats)
      (local_parserRawDataFloats bigEndian floats) buffer

def unannounced (asset : AssetValue) : List UInt8 :=
  hToLe 4 ASSETS_MAGIC ++ hToLe 2 0 ++ packageRawData json asset

theorem length_unannounced (asset : AssetValue) :
    (unannounced json asset).length = 6 + (packageRawData json asset).length := by
  rw [unannounced, length_append, length_append, length_hToLe, length_hToLe]

theorem hasHeader_unannounced (asset : AssetValue) :
    Buffer.HasHeader (unannounced json asset) ∧ Buffer.announced (unannounced json asset) = 0 := by
  have hmagic : (unannounced json asset).take 4 = hToLe 4 ASSETS_MAGIC := by
    rw [unannounced, append_assoc]
    exact take_left' (length_hToLe 4 _)
  refine ⟨⟨?_, ?_⟩, rfl⟩
  · rw [length_unannounced]
    exact Nat.le_add_right 6 _
  · rw [hmagic, leToH_hToLe]
    rfl

theorem parserRawDataAssets_unannounced {json : JsonLibrary} {asset : AssetValue}
    (hstatus : asset.status ≠ AssetValue.statusDownloading) (hfits : Fits json asset) (now : Nat) :
    parserRawDataAssets json now (unannounced json asset) [] =
      ((unannounced json asset).length, [asset]) := by
  have hdrop : (unannounced json asset).drop 6 = packageRawData json asset ++ [] := by
    rw [append_nil]
    exact drop_left' rfl
  have hloop : parserLoop json now (17746 + 1) (packageRawData json asset ++ []) [] =
      ((packageRawData json asset).length, [asset]) := by
    rw [parserLoop_succ_of_fits hstatus hfits, parserLoop_of_refused rfl]
    rfl
  rw [parserRawDataAssets_of_header (hasHeader_unannounced json asset).1, hdrop, hloop,
    length_unannounced]

theorem not_acceptsAnnounced_unannounced {json : JsonLibrary}
    (hstatus : asset.status ≠ AssetValue.statusDownloading) (hfits : Fits json asset) (now : Nat)
    (hlength : (unannounced json asset).length < 2 ^ 64) :
    ¬ (Buffer.ofList (unannounced json asset) hlength).AcceptsAnnounced json now := by
  obtain ⟨hheader, hannounced⟩ := hasHeader_unannounced json asset
  intro h
  have hbuffer := h []
  rw [Buffer.run_parserRawDataAssets, Buffer.bytes_ofList,
    parserRawDataAssets_unannounced hstatus hfits, hannounced] at hbuffer
  obtain ⟨assets, hassets, haccepted⟩ := hbuffer.2 hheader
  obtain rfl : [asset] = assets := hassets
  exact absurd haccepted (by simp)

theorem accepts_unannounced :
    ∃ h, Buffer.announced (unannounced assetJson .empty) = 0 ∧
      parserRawDataAssets assetJson 0 (unannounced assetJson .empty) [] =
        ((unannounced assetJson .empty).length, [.empty]) ∧
      ¬ (Buffer.ofList (unannounced assetJson .empty) h).AcceptsAnnounced assetJson 0 := by
  have hfits : Fits assetJson .empty := by decide +kernel
  have hstatus : AssetValue.empty.status ≠ AssetValue.statusDownloading := by decide
  have hlength : (unannounced assetJson .empty).length < 2 ^ 64 := by
    have hdump := hfits
    rw [Fits] at hdump
    rw [length_unannounced, length_packageRawData]
    omega
  exact ⟨hlength, (hasHeader_unannounced _ _).2, parserRawDataAssets_unannounced hstatus hfits 0,
    not_acceptsAnnounced_unannounced hstatus hfits 0 hlength⟩

end RawDataParser

end RelationalStore.Values
