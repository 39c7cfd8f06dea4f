import RelationalStore.Rdb.Values.ValuesBuckets
import RelationalStore.Theory.Marshaller

/-! # Values in parcels

`Marshalling` and `Unmarshalling` of values, for the rdb service and for the cloud service. -/

namespace RelationalStore.Values

open List ValueObject

structure ITypesUtil (β : Type) extends Lifts β where
  monostate : Faithful β Unit
  uint32 : Faithful β UInt32
  int32 : Faithful β Int32
  int64 : Faithful β Int64
  bool : Faithful β Bool
  double : Faithful β Double
  string : Faithful β String
  bytes : Faithful β (List UInt8)
  words : Faithful β (List UInt64)
  floats : Faithful β (List Float)

inductive ParcelUser where
  | rdb
  | cloud

local instance neZero_ten : NeZero 10 := ⟨by decide⟩

def Alternative : Fin 10 → Type
  | 0 => Unit
  | 1 => Int64
  | 2 => Double
  | 3 => String
  | 4 => Bool
  | 5 => List UInt8
  | 6 => AssetValue
  | 7 => List AssetValue
  | 8 => List Float
  | 9 => BigInteger

namespace ValueObject

def toVariant : ValueObject → Σ i, Alternative i
  | .null => ⟨0, ()⟩
  | .int x => ⟨1, .ofInt x⟩
  | .double x => ⟨2, x⟩
  | .string x => ⟨3, x⟩
  | .bool x => ⟨4, x⟩
  | .blob x => ⟨5, x⟩
  | .asset x => ⟨6, x⟩
  | .assets x => ⟨7, x⟩
  | .vecs x => ⟨8, x⟩
  | .bigInt x => ⟨9, x⟩

def ofVariant : (Σ i, Alternative i) → ValueObject
  | ⟨0, _⟩ => .null
  | ⟨1, x⟩ => .int x.toInt
  | ⟨2, x⟩ => .double x
  | ⟨3, x⟩ => .string x
  | ⟨4, x⟩ => .bool x
  | ⟨5, x⟩ => .blob x
  | ⟨6, x⟩ => .asset x
  | ⟨7, x⟩ => .assets x
  | ⟨8, x⟩ => .vecs x
  | ⟨9, x⟩ => .bigInt x

end ValueObject

namespace ITypesUtil
variable {β : Type} (u : ITypesUtil β)

def asset : ParcelUser → Marshaller β AssetValue
  | .rdb =>
    (u.uint32.val.seq <| u.string.val.seq <| u.string.val.seq <| u.string.val.seq <|
      u.string.val.seq u.string.val).via
      (fun a => (.ofNat a.version, a.name, a.size, a.modifyTime, a.uri, a.extension))
      fun (version, name, size, modifyTime, uri, extension) =>
        ⟨version.toNat, 0, 0, "", name, uri, "", modifyTime, size, "", "", extension⟩
  | .cloud =>
    (u.uint32.val.seq <| u.string.val.seq <| u.string.val.seq <| u.string.val.seq <|
      u.string.val.seq u.string.val).via
      (fun a => (.ofNat a.version, a.name, a.size, a.modifyTime, a.uri, a.extension))
      fun (version, name, size, modifyTime, uri, extension) =>
        ⟨version.toNat, 0, 0, "", name, uri, "", modifyTime, size, "", "", extension⟩

def bigInt : ParcelUser → Marshaller β BigInteger
  | .rdb =>
    (u.int32.val.seq u.words.val).via (fun b => (.ofInt b.sign, b.value.map .ofNat))
      fun (sign, value) => ⟨sign.toInt, value.map (·.toNat)⟩
  | .cloud =>
    (u.int32.val.seq u.words.val).via (fun b => (.ofInt b.sign, b.value.map .ofNat))
      fun (sign, value) => ⟨sign.toInt, value.map (·.toNat)⟩

variable (user : ParcelUser)

def alternatives : (i : Fin 10) → Marshaller β (Alternative i)
  | 0 => u.monostate.val
  | 1 => u.int64.val
  | 2 => u.double.val
  | 3 => u.string.val
  | 4 => u.bool.val
  | 5 => u.bytes.val
  | 6 => u.asset user
  | 7 => u.vector (u.asset user)
  | 8 => u.floats.val
  | 9 => u.bigInt user

def valueObject : Marshaller β ValueObject :=
  (u.variant (u.alternatives user)).via toVariant ofVariant

def valuesBucket : Marshaller β ValuesBucket :=
  (u.map u.string.val (u.valueObject user)).via (fun b => ⟨b.values, b.sorted⟩)
    fun l => ⟨l.val, l.property⟩

end ITypesUtil

/-! ## What arrives -/

variable (a : AssetValue)

def AssetValue.sent : AssetValue :=
  { a with status := 0, expiresTime := 0, id := "", createTime := "", hash := "", path := "" }

def ValueObject.sent : ValueObject → ValueObject
  | .asset a => .asset a.sent
  | .assets l => .assets (l.map AssetValue.sent)
  | v => v

/-- The numbers that are written are of the machine's types. -/
def ValueObject.Fits : ValueObject → Prop
  | .int x => -2 ^ 63 ≤ x ∧ x < 2 ^ 63
  | .asset a => a.version < 2 ^ 32
  | .assets l => ∀ a ∈ l, a.version < 2 ^ 32
  | .bigInt b => (-2 ^ 31 ≤ b.sign ∧ b.sign < 2 ^ 31) ∧ ∀ w ∈ b.value, w < 2 ^ 64
  | _ => True

def ValueObject.assetValues : ValueObject → List AssetValue
  | .asset a => [a]
  | .assets l => l
  | _ => []

/-- The asset is of status unknown, does not expire, and has no id, creation time, hash or path. -/
def AssetValue.Plain : Prop :=
  a.status = 0 ∧ a.expiresTime = 0 ∧ a.id = "" ∧ a.createTime = "" ∧ a.hash = "" ∧ a.path = ""
  deriving Decidable

theorem AssetValue.sent_eq_self_iff : a.sent = a ↔ a.Plain := by
  rw [AssetValue.sent, AssetValue.mk.injEq, AssetValue.Plain]
  tauto

theorem ValueObject.sent_eq_self_iff (v : ValueObject) :
    v.sent = v ↔ ∀ a ∈ v.assetValues, a.Plain := by
  cases v with
  | asset a => simp [sent, assetValues, AssetValue.sent_eq_self_iff]
  | assets l =>
    have hlist : l.map AssetValue.sent = l ↔ ∀ a ∈ l, a.sent = a := by
      conv_lhs => rw [← map_id l, map_map]
      exact map_inj_left
    simp [sent, assetValues, hlist, AssetValue.sent_eq_self_iff]
  | _ => exact iff_of_true rfl fun _ h => nomatch h

namespace ITypesUtil
variable {β : Type} (u : ITypesUtil β) (user : ParcelUser)

theorem asset_reads {a : AssetValue} (ha : a.version < 2 ^ 32) :
    (u.asset user).Reads a a.sent := by
  have hparts : (u.uint32.val.seq <| u.string.val.seq <| u.string.val.seq <| u.string.val.seq <|
      u.string.val.seq u.string.val).Reads
      (.ofNat a.version, a.name, a.size, a.modifyTime, a.uri, a.extension)
      (.ofNat a.version, a.name, a.size, a.modifyTime, a.uri, a.extension) :=
    (u.uint32.property _).seq <| (u.string.property _).seq <| (u.string.property _).seq <|
      (u.string.property _).seq <| (u.string.property _).seq (u.string.property _)
  cases user with
  | rdb | cloud =>
    rw [asset]
    refine Marshaller.Reads.via hparts ?_
    dsimp only
    rw [UInt32.toNat_ofNat_of_lt' ha]
    rfl

theorem bigInt_reads {b : BigInteger} (hb : (ValueObject.bigInt b).Fits) :
    (u.bigInt user).Reads b b := by
  have hparts : (u.int32.val.seq u.words.val).Reads (.ofInt b.sign, b.value.map .ofNat)
      (.ofInt b.sign, b.value.map .ofNat) := (u.int32.property _).seq (u.words.property _)
  have hwords : (b.value.map UInt64.ofNat).map (·.toNat) = b.value := by
    conv_rhs => rw [← map_id b.value]
    rw [map_map]
    exact map_congr_left fun w hw => UInt64.toNat_ofNat_of_lt' (hb.2 w hw)
  cases user with
  | rdb | cloud =>
    rw [bigInt]
    refine Marshaller.Reads.via hparts ?_
    dsimp only
    rw [Int32.toInt_ofInt_of_le hb.1.1 hb.1.2, hwords]

theorem valueObject_reads {v : ValueObject} (hv : v.Fits) :
    (u.valueObject user).Reads v v.sent := by
  have hvariant := @u.variant_reads _ _ (u.alternatives user)
  have hback : ofVariant v.sent.toVariant = v.sent := by
    cases v with
    | int x => exact congrArg int (Int64.toInt_ofInt_of_le hv.1 hv.2)
    | _ => rfl
  refine Marshaller.Reads.via ?_ hback
  cases v with
  | null => exact hvariant 0 () () (u.monostate.property ())
  | int x => exact hvariant 1 (.ofInt x) (.ofInt x) (u.int64.property _)
  | double x => exact hvariant 2 x x (u.double.property x)
  | string x => exact hvariant 3 x x (u.string.property x)
  | bool x => exact hvariant 4 x x (u.bool.property x)
  | blob x => exact hvariant 5 x x (u.bytes.property x)
  | asset x => exact hvariant 6 x x.sent (u.asset_reads user hv)
  | assets x =>
    have hlist := u.vector_reads (u.asset user) AssetValue.sent x fun a ha =>
      u.asset_reads user (hv a ha)
    exact hvariant 7 x (x.map AssetValue.sent) hlist
  | vecs x => exact hvariant 8 x x (u.floats.property x)
  | bigInt x => exact hvariant 9 x x (u.bigInt_reads user hv)

theorem valuesBucket_reads (hb : ∀ p ∈ b.values, p.2.Fits) :
    (u.valuesBucket user).Reads b
      ⟨b.values.map fun p => (p.1, p.2.sent), pairwise_map.mpr b.sorted⟩ := by
  have hmap := u.map_reads u.string.val (u.valueObject user) sent ⟨b.values, b.sorted⟩
    (fun p _ => u.string.property p.1) fun p hp => u.valueObject_reads user (hb p hp)
  exact hmap.via rfl

theorem roundTrips_iff_plain :
    (∀ v : ValueObject, v.Fits →
      ((u.valueObject user).RoundTrips v ↔ ∀ a ∈ v.assetValues, a.Plain)) ∧
      ∀ b : ValuesBucket, (∀ p ∈ b.values, p.2.Fits) →
        ((u.valuesBucket user).RoundTrips b ↔
          ∀ p ∈ b.values, ∀ a ∈ p.2.assetValues, a.Plain) := by
  constructor
  · intro v hv
    rw [(u.valueObject_reads user hv).roundTrips_iff, sent_eq_self_iff]
  · intro b hb
    have hlist : b.values.map (fun p => (p.1, p.2.sent)) = b.values ↔
        ∀ p ∈ b.values, p.2.sent = p.2 := by
      conv_lhs => rhs; rw [← map_id b.values]
      rw [map_inj_left]
      simp [Prod.ext_iff]
    rw [(u.valuesBucket_reads user hb).roundTrips_iff, ValuesBucket.mk.injEq, hlist]
    simp only [sent_eq_self_iff]

end ITypesUtil

/-! ## A parcel -/

inductive ParcelItem where
  | monostate
  | size (n : Nat)
  | uint32 (n : UInt32)
  | int32 (i : Int32)
  | int64 (i : Int64)
  | bool (b : Bool)
  | double (d : Double)
  | string (s : String)
  | bytes (l : List UInt8)
  | words (l : List UInt64)
  | floats (l : List Float)
  deriving DecidableEq

def ParcelItem.single {α : Type} (toItem : α → ParcelItem) (ofItem : ParcelItem → Option α)
    (h : ∀ a, ofItem (toItem a) = some a) : Faithful ParcelItem α :=
  ⟨⟨fun a => [toItem a], fun
      | [] => none
      | item :: rest => (ofItem item).map fun a => (a, rest)⟩,
    fun a rest => by simp [h]⟩

def ITypesUtil.parcel : ITypesUtil ParcelItem where
  toLifts := Lifts.counted (ParcelItem.single .size (fun | .size n => some n | _ => none)
    fun _ => rfl)
  monostate := ParcelItem.single (fun _ => .monostate) (fun | .monostate => some () | _ => none)
    fun _ => rfl
  uint32 := ParcelItem.single .uint32 (fun | .uint32 n => some n | _ => none) fun _ => rfl
  int32 := ParcelItem.single .int32 (fun | .int32 i => some i | _ => none) fun _ => rfl
  int64 := ParcelItem.single .int64 (fun | .int64 i => some i | _ => none) fun _ => rfl
  bool := ParcelItem.single .bool (fun | .bool b => some b | _ => none) fun _ => rfl
  double := ParcelItem.single .double (fun | .double d => some d | _ => none) fun _ => rfl
  string := ParcelItem.single .string (fun | .string s => some s | _ => none) fun _ => rfl
  bytes := ParcelItem.single .bytes (fun | .bytes l => some l | _ => none) fun _ => rfl
  words := ParcelItem.single .words (fun | .words l => some l | _ => none) fun _ => rfl
  floats := ParcelItem.single .floats (fun | .floats l => some l | _ => none) fun _ => rfl

theorem roundTrips_iff_plain_assets :
    let v : ValueObject := .assets [⟨2 ^ 32 - 1, 0, 0, "", "a", "u", "", "m", "8", "", "", "x"⟩]
    v.Fits ∧ ∀ user, (ITypesUtil.parcel.valueObject user).RoundTrips v := by
  intro v
  have hfits : v.Fits := by simp [v, Fits]
  refine ⟨hfits, fun user => ((ITypesUtil.parcel.roundTrips_iff_plain user).1 v hfits).mpr ?_⟩
  decide

theorem asset_arrives_without_hash :
    let asset : AssetValue := ⟨0, 1, 0, "", "a", "", "", "", "", "h", "", ""⟩
    let m := ITypesUtil.parcel.valueObject .rdb
    m.unmarshal (m.marshal (.asset asset)) =
        some (.asset { asset with status := 0, hash := "" }, []) ∧
      ¬ m.RoundTrips (.asset asset) := by
  intro asset m
  refine ⟨by decide, fun h => ?_⟩
  have hread := h []
  revert hread
  decide

end RelationalStore.Values
