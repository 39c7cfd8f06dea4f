import RelationalStore.Theory.Code
import RelationalStore.Rdb.Values.ValueObject

/-! # Assets as raw data

An asset is a magic word, a length in 16 bits and its JSON text; a list has a number in 16 bits. -/

namespace RelationalStore.Values

open List

/-! ## Little-endian words -/

def hToLe : Nat → Nat → List UInt8
  | 0, _ => []
  | w + 1, v => UInt8.ofNat v :: hToLe w (v / 256)

def leToH : List UInt8 → Nat
  | [] => 0
  | b :: l => b.toNat + 256 * leToH l

@[simp] theorem length_hToLe (w v : Nat) : (hToLe w v).length = w := by
  induction w generalizing v with
  | zero => rfl
  | succ w ih => exact congrArg (· + 1) (ih (v / 256))

theorem leToH_hToLe (w v : Nat) : leToH (hToLe w v) = v % 256 ^ w := by
  induction w generalizing v with
  | zero => exact (Nat.mod_one v).symm
  | succ w ih =>
    rw [hToLe, leToH, ih, Nat.pow_succ', Nat.mod_mul, UInt8.toNat_ofNat']

/-! ## JSON -/

inductive JsonValue where
  | number (n : Nat)
  | string (s : String)
  | other
  deriving DecidableEq

abbrev JsonNode := List (String × JsonValue)

namespace JsonNode

def getNumber (node : JsonNode) (name : String) : Option Nat :=
  match node.lookup name with
  | some (.number n) => some n
  | _ => none

def getString (node : JsonNode) (name : String) : Option String :=
  match node.lookup name with
  | some (.string s) => some s
  | _ => none

end JsonNode

namespace AssetValue

def empty : AssetValue := ⟨0, 0, 0, "", "", "", "", "", "", "", "", ""⟩

def marshal (asset : AssetValue) : JsonNode :=
  [("version", .number asset.version), ("expiresTime", .number asset.expiresTime),
    ("id", .string asset.id), ("name", .string asset.name), ("uri", .string asset.uri),
    ("createTime", .string asset.createTime), ("modifyTime", .string asset.modifyTime),
    ("size", .string asset.size), ("hash", .string asset.hash), ("path", .string asset.path),
    ("status", .number asset.status), ("extension", .string asset.extension)]

def expire (now : Nat) (asset : AssetValue) : AssetValue :=
  if asset.status = statusDownloading ∧ asset.expiresTime < now then
    { asset with status := statusAbnormal }
  else asset

def unmarshal (now : Nat) (node : JsonNode) (asset : AssetValue) : Bool × AssetValue :=
  ((node.getNumber "version").isSome && (node.getNumber "expiresTime").isSome &&
      (node.getString "id").isSome && (node.getString "name").isSome &&
      (node.getString "uri").isSome && (node.getString "createTime").isSome &&
      (node.getString "modifyTime").isSome && (node.getString "size").isSome &&
      (node.getString "hash").isSome && (node.getString "path").isSome &&
      (node.getNumber "status").isSome,
    expire now
      { version := (node.getNumber "version").getD asset.version
        expiresTime := (node.getNumber "expiresTime").getD asset.expiresTime
        id := (node.getString "id").getD asset.id
        name := (node.getString "name").getD asset.name
        uri := (node.getString "uri").getD asset.uri
        createTime := (node.getString "createTime").getD asset.createTime
        modifyTime := (node.getString "modifyTime").getD asset.modifyTime
        size := (node.getString "size").getD asset.size
        hash := (node.getString "hash").getD asset.hash
        path := (node.getString "path").getD asset.path
        status := (node.getNumber "status").getD asset.status
        extension := (node.getString "extension").getD asset.extension })

theorem unmarshal_of_lookup_eq {asset : AssetValue}
    (h : ∀ name, node.lookup name = asset.marshal.lookup name) (now : Nat) (old : AssetValue) :
    unmarshal now node old = (true, asset.expire now) := by
  simp [unmarshal, JsonNode.getNumber, JsonNode.getString, h, marshal, lookup_cons]

theorem expire_of_ne {asset : AssetValue} (h : asset.status ≠ statusDownloading) (now : Nat) :
    asset.expire now = asset := if_neg fun hexpired => h hexpired.1

end AssetValue

structure JsonLibrary where
  dump : JsonNode → List UInt8
  parse : List UInt8 → Option JsonNode
  parse_dump : ∀ asset : AssetValue, ∃ node, parse (dump asset.marshal) = some node ∧
    ∀ name, node.lookup name = asset.marshal.lookup name
  parse_truncated : ∀ (asset : AssetValue) (text : List UInt8), text <+: dump asset.marshal →
    text ≠ dump asset.marshal → parse text = none ∧ ∀ node ∈ parse (text.drop 1), node = []

namespace RawDataParser

def ASSET_MAGIC : Nat := 0x41534554
def ASSETS_MAGIC : Nat := 0x41534553

section
variable (json : JsonLibrary) (now : Nat)

def unmarshall (text : List UInt8) (asset : AssetValue) : Bool × AssetValue :=
  match json.parse text with
  | some node => asset.unmarshal now node
  | none =>
    if text = [] then (false, asset)
    else
      match json.parse (text.drop 1) with
      | some node => asset.unmarshal now node
      | none => (false, asset)

def parserRawData (data : List UInt8) (asset : AssetValue) : Nat × AssetValue :=
  if data.length < 4 then (0, asset)
  else if leToH (data.take 4) ≠ ASSET_MAGIC then (0, asset)
  else if data.length - 4 < 2 then (0, asset)
  else
    let size := leToH ((data.drop 4).take 2)
    if data.length - 6 < size then (0, asset)
    else
      match unmarshall json now ((data.drop 6).take size) asset with
      | (false, asset) => (0, asset)
      | (true, asset) => (6 + size, asset)

def parserLoop : Nat → List UInt8 → List AssetValue → Nat × List AssetValue
  | 0, _, assets => (0, assets)
  | num + 1, data, assets =>
    if data = [] then (0, assets)
    else
      let (dataLen, asset) := parserRawData json now data .empty
      if dataLen = 0 then (0, assets)
      else
        let (used, assets) := parserLoop num (data.drop dataLen) (assets ++ [asset])
        (dataLen + used, assets)

def parserRawDataAssets (data : List UInt8) (assets : List AssetValue) : Nat × List AssetValue :=
  if data.length < 4 then (0, assets)
  else if leToH (data.take 4) ≠ ASSETS_MAGIC then (0, assets)
  else if data.length - 4 < 2 then (0, assets)
  else
    let num := leToH (data.take 2)
    let (used, assets) := parserLoop json now num (data.drop 6) assets
    (6 + used, assets)

end

section
variable (json : JsonLibrary)

def packageRawData (asset : AssetValue) : List UInt8 :=
  hToLe 4 ASSET_MAGIC ++ hToLe 2 (json.dump asset.marshal).length ++ json.dump asset.marshal

def packageRawDataAssets (assets : List AssetValue) : List UInt8 :=
  hToLe 4 ASSETS_MAGIC ++ hToLe 2 assets.length ++ assets.flatMap (packageRawData json)

variable (now : Nat)

/-- The asset is parsed as it was packaged. -/
def ReturnsAsset (asset : AssetValue) : Prop :=
  ∀ old, parserRawData json now (packageRawData json asset) old =
    ((packageRawData json asset).length, asset)

def ReturnsAssets (assets : List AssetValue) : Prop :=
  parserRawDataAssets json now (packageRawDataAssets json assets) [] =
    ((packageRawDataAssets json assets).length, assets)

/-- The length of the text fits into 16 bits. -/
def Fits (asset : AssetValue) : Prop := (json.dump asset.marshal).length < 0x10000
  deriving Decidable

end

variable {json : JsonLibrary} {now : Nat} {asset old : AssetValue} {assets : List AssetValue}

/-! ## One asset -/

theorem length_packageRawData :
    (packageRawData json asset).length = 6 + (json.dump asset.marshal).length := by
  simp only [packageRawData, length_append, length_hToLe]

theorem parserRawData_packageRawData_append (rest : List UInt8) :
    parserRawData json now (packageRawData json asset ++ rest) old =
      let size := (json.dump asset.marshal).length % 0x10000
      match unmarshall json now ((json.dump asset.marshal).take size) old with
      | (false, asset) => (0, asset)
      | (true, asset) => (6 + size, asset) := by
  have hmod := Nat.mod_le (json.dump asset.marshal).length 0x10000
  have hlength : (packageRawData json asset).length = 6 + (json.dump asset.marshal).length :=
    length_packageRawData
  have hmagic : (packageRawData json asset ++ rest).take 4 = hToLe 4 ASSET_MAGIC := by
    rw [packageRawData, append_assoc, append_assoc]
    exact take_left' (length_hToLe 4 _)
  have hbody : (packageRawData json asset ++ rest).drop 4 =
      hToLe 2 (json.dump asset.marshal).length ++ (json.dump asset.marshal ++ rest) := by
    rw [packageRawData, append_assoc, append_assoc]
    exact drop_left' (length_hToLe 4 _)
  have hsize : ((packageRawData json asset ++ rest).drop 4).take 2 =
      hToLe 2 (json.dump asset.marshal).length := by
    rw [hbody]
    exact take_left' (length_hToLe 2 _)
  have htext : (packageRawData json asset ++ rest).drop 6 = json.dump asset.marshal ++ rest := by
    rw [show 6 = 4 + 2 from rfl, ← drop_drop, hbody]
    exact drop_left' (length_hToLe 2 _)
  unfold parserRawData
  rw [hmagic, hsize, htext, leToH_hToLe, leToH_hToLe, length_append, hlength,
    if_neg (by omega), if_neg (by decide), if_neg (by omega)]
  dsimp only
  rw [show 256 ^ 2 = 0x10000 from rfl, if_neg (by omega), take_append_of_le_length hmod]

theorem parserRawData_of_fits (h : Fits json asset) (now : Nat) (old : AssetValue)
    (rest : List UInt8) :
    parserRawData json now (packageRawData json asset ++ rest) old =
      ((packageRawData json asset).length, asset.expire now) := by
  obtain ⟨node, hparse, hnode⟩ := json.parse_dump asset
  have hunmarshall : unmarshall json now (json.dump asset.marshal) old =
      (true, asset.expire now) := by
    rw [unmarshall, hparse]
    exact AssetValue.unmarshal_of_lookup_eq hnode now old
  rw [parserRawData_packageRawData_append, Nat.mod_eq_of_lt h]
  dsimp only
  rw [take_length, hunmarshall, length_packageRawData]

theorem parserRawData_of_not_fits (h : ¬ Fits json asset) (now : Nat) (old : AssetValue)
    (rest : List UInt8) :
    (parserRawData json now (packageRawData json asset ++ rest) old).1 = 0 := by
  have hlt : (json.dump asset.marshal).length % 0x10000 < (json.dump asset.marshal).length := by
    have hlong : 0x10000 ≤ (json.dump asset.marshal).length := Nat.le_of_not_lt h
    omega
  have hne : (json.dump asset.marshal).take ((json.dump asset.marshal).length % 0x10000) ≠
      json.dump asset.marshal := by
    intro heq
    have hlength := congrArg List.length heq
    rw [length_take] at hlength
    omega
  obtain ⟨hparse, htail⟩ := json.parse_truncated asset _ ( take_prefix _ _) hne
  have hfalse : (unmarshall json now ((json.dump asset.marshal).take
      ((json.dump asset.marshal).length % 0x10000)) old).1 = false := by
    rw [unmarshall, hparse]
    dsimp only
    split
    · rfl
    · split
      next node hnode =>
        rw [htail node hnode]
        rfl
      · rfl
  rw [parserRawData_packageRawData_append]
  dsimp only
  split
  · rfl
  next heq =>
    rw [heq] at hfalse
    exact nomatch hfalse

theorem returnsAsset_iff (h : asset.status ≠ AssetValue.statusDownloading) :
    ReturnsAsset json now asset ↔ Fits json asset := by
  constructor
  · intro hreturns
    by_contra hfits
    have hzero := parserRawData_of_not_fits hfits now .empty []
    rw [append_nil, hreturns .empty, length_packageRawData] at hzero
    omega
  · intro hfits old
    have hparse := parserRawData_of_fits hfits now old []
    rwa [append_nil, AssetValue.expire_of_ne h] at hparse

/-! ## Lists -/

theorem packageRawData_append_ne_nil (rest : List UInt8) :
    packageRawData json asset ++ rest ≠ [] := by
  refine append_ne_nil_of_left_ne_nil (ne_nil_of_length_pos ?_) rest
  rw [length_packageRawData]
  omega

theorem parserLoop_succ_of_fits (hstatus : asset.status ≠ AssetValue.statusDownloading)
    (h : Fits json asset) (num : Nat) (rest : List UInt8) (done : List AssetValue) :
    parserLoop json now (num + 1) (packageRawData json asset ++ rest) done =
      let result := parserLoop json now num rest (done ++ [asset])
      ((packageRawData json asset).length + result.1, result.2) := by
  have hparse := parserRawData_of_fits h now .empty rest
  rw [AssetValue.expire_of_ne hstatus] at hparse
  have hne : (packageRawData json asset).length ≠ 0 := by
    rw [length_packageRawData]
    omega
  rw [parserLoop, if_neg (packageRawData_append_ne_nil rest), hparse]
  dsimp only
  rw [if_neg hne, drop_left]

theorem parserLoop_succ_of_not_fits (h : ¬ Fits json asset) (num : Nat) (rest : List UInt8)
    (done : List AssetValue) :
    parserLoop json now (num + 1) (packageRawData json asset ++ rest) done = (0, done) := by
  rw [parserLoop, if_neg (packageRawData_append_ne_nil rest)]
  dsimp only
  rw [if_pos (parserRawData_of_not_fits h now .empty rest)]

theorem parserLoop_eq_iff (json : JsonLibrary) (now num : Nat) (done : List AssetValue)
    (hstatus : ∀ a ∈ assets, a.status ≠ AssetValue.statusDownloading) :
    parserLoop json now num (assets.flatMap (packageRawData json)) done =
        ((assets.flatMap (packageRawData json)).length, done ++ assets) ↔
      assets.length ≤ num ∧ ∀ a ∈ assets, Fits json a := by
  induction assets generalizing num done with
  | nil => cases num <;> simp [parserLoop]
  | cons asset assets ih =>
    have hshort : done ≠ done ++ asset :: assets := fun h => by simp at h
    cases num with
    | zero => exact iff_of_false (fun h => hshort (congrArg Prod.snd h)) fun h => nomatch h.1
    | succ num =>
      rw [flatMap_cons]
      by_cases hfits : Fits json asset
      · rw [parserLoop_succ_of_fits (hstatus asset mem_cons_self) hfits, length_append]
        have htail := ih num (done ++ [asset])
          fun a ha => hstatus a (mem_cons_of_mem _ ha)
        rw [append_assoc, singleton_append] at htail
        simp only [length_cons, Nat.add_le_add_iff_right, forall_mem_cons, hfits,
          true_and, ← htail, Prod.ext_iff, Nat.add_left_cancel_iff]
      · rw [parserLoop_succ_of_not_fits hfits]
        exact iff_of_false (fun h => hshort (congrArg Prod.snd h)) fun h =>
          hfits (h.2 asset mem_cons_self)

theorem length_packageRawDataAssets : (packageRawDataAssets json assets).length =
    6 + (assets.flatMap (packageRawData json)).length := by
  simp only [packageRawDataAssets, length_append, length_hToLe]

theorem parserRawDataAssets_packageRawDataAssets :
    parserRawDataAssets json now (packageRawDataAssets json assets) [] =
      let result := parserLoop json now 0x4553 (assets.flatMap (packageRawData json)) []
      (6 + result.1, result.2) := by
  have hmagic : (packageRawDataAssets json assets).take 4 = hToLe 4 ASSETS_MAGIC := by
    rw [packageRawDataAssets, append_assoc]
    exact take_left' (length_hToLe 4 _)
  have hnum : (packageRawDataAssets json assets).take 2 = (hToLe 4 ASSETS_MAGIC).take 2 := by
    rw [← hmagic, take_take, show min 2 4 = 2 from rfl]
  have hbody : (packageRawDataAssets json assets).drop 6 =
      assets.flatMap (packageRawData json) :=
    drop_left' (by rw [length_append, length_hToLe, length_hToLe])
  unfold parserRawDataAssets
  rw [hmagic, hnum, hbody, leToH_hToLe, length_packageRawDataAssets,
    if_neg (by omega), if_neg (by decide), if_neg (by omega),
    show leToH ((hToLe 4 ASSETS_MAGIC).take 2) = 0x4553 from by decide]

theorem returnsAssets_iff (hstatus : ∀ a ∈ assets, a.status ≠ AssetValue.statusDownloading) :
    ReturnsAssets json now assets ↔ assets.length ≤ 0x4553 ∧ ∀ a ∈ assets, Fits json a := by
  have hloop := parserLoop_eq_iff json now 0x4553 [] hstatus
  rw [nil_append] at hloop
  rw [ReturnsAssets, parserRawDataAssets_packageRawDataAssets, length_packageRawDataAssets,
    ← hloop]
  simp only [Prod.ext_iff, Nat.add_left_cancel_iff]

end RawDataParser

/-! ## The texts of assets -/

namespace AssetJson

def ascii (s : String) : List UInt8 := s.toList.map fun c => UInt8.ofNat c.toNat

def digit (d : Fin 10) : UInt8 := UInt8.ofNat (48 + d)

theorem digit_injective : Function.Injective digit := by
  have h : ∀ d d', digit d = digit d' → d = d' := by decide
  exact fun d d' => h d d'

def number (close : UInt8) (h : ∀ d, digit d ≠ close) : Code UInt8 Nat :=
  .decimal close digit digit_injective h

def string : Code UInt8 String :=
  .after (ascii "\"") <| (Code.quoted 34 92 (by decide)).via (fun s => s.toByteArray.data.toList)
    (fun bytes => String.fromUTF8? ⟨bytes.toArray⟩) fun s => dif_pos s.isValidUTF8

def object : Code UInt8 AssetValue :=
  .after (ascii "\x7b") <| Code.via
    ((string.after (ascii "\"createTime\":")).seq <|
      ((number 44 (by decide)).after (ascii ",\"expiresTime\":")).seq <|
      (string.after (ascii "\"extension\":")).seq <|
      (string.after (ascii ",\"hash\":")).seq <|
      (string.after (ascii ",\"id\":")).seq <|
      (string.after (ascii ",\"modifyTime\":")).seq <|
      (string.after (ascii ",\"name\":")).seq <|
      (string.after (ascii ",\"path\":")).seq <|
      (string.after (ascii ",\"size\":")).seq <|
      ((number 44 (by decide)).after (ascii ",\"status\":")).seq <|
      (string.after (ascii "\"uri\":")).seq <|
      (number 125 (by decide)).after (ascii ",\"version\":"))
    (fun a => (a.createTime, a.expiresTime, a.extension, a.hash, a.id, a.modifyTime, a.name,
      a.path, a.size, a.status, a.uri, a.version))
    (fun (createTime, expiresTime, extension, hash, id, modifyTime, name, path, size, status, uri,
        version) =>
      some ⟨version, status, expiresTime, id, name, uri, createTime, modifyTime, size, hash, path,
        extension⟩)
    fun _ => rfl

def dump (node : JsonNode) : List UInt8 := object.encode (AssetValue.empty.unmarshal 0 node).2

def parse (text : List UInt8) : Option JsonNode :=
  match object.decode text with
  | some (asset, []) => some asset.marshal
  | _ => none

theorem dump_marshal (asset : AssetValue) : dump asset.marshal = object.encode asset := by
  have hexpire : asset.expire 0 = asset := if_neg fun h => Nat.not_lt_zero _ h.2
  rw [dump, AssetValue.unmarshal_of_lookup_eq fun _ => rfl, hexpire]

theorem parse_drop_one (h : text <+: object.encode asset) : parse (text.drop 1) = none := by
  obtain ⟨more, hmore⟩ := h
  match text, hmore with
  | [], _ | [_], _ => rfl
  | _ :: b :: _, hmore =>
    obtain rfl : b = 34 := congrArg (fun l => l.getD 1 34) hmore
    rfl

end AssetJson

def assetJson : JsonLibrary where
  dump := AssetJson.dump
  parse := AssetJson.parse
  parse_dump asset := by
    refine ⟨asset.marshal, ?_, fun _ => rfl⟩
    have hdecode := AssetJson.object.decode_encode asset []
    rw [append_nil] at hdecode
    rw [AssetJson.dump_marshal, AssetJson.parse, hdecode]
  parse_truncated asset text h hne := by
    rw [AssetJson.dump_marshal] at h hne
    constructor
    · have hdecode := AssetJson.object.decode_ne_of_truncated h hne
      unfold AssetJson.parse
      split
      next b hb => exact absurd hb (hdecode b)
      · rfl
    · rw [AssetJson.parse_drop_one h]
      exact fun _ hnode => nomatch hnode

theorem returns_iff_fits (json : JsonLibrary) (now : Nat) (asset : AssetValue)
    (assets : List AssetValue) (hasset : asset.status ≠ AssetValue.statusDownloading)
    (hassets : ∀ a ∈ assets, a.status ≠ AssetValue.statusDownloading) :
    (RawDataParser.ReturnsAsset json now asset ↔ RawDataParser.Fits json asset) ∧
      (RawDataParser.ReturnsAssets json now assets ↔
        assets.length ≤ 17747 ∧ ∀ a ∈ assets, RawDataParser.Fits json a) :=
  ⟨RawDataParser.returnsAsset_iff hasset, RawDataParser.returnsAssets_iff hassets⟩

theorem returns_iff_fits_two :
    let asset : AssetValue := { AssetValue.empty with version := 10, status := 1, name := "a\"b" }
    RawDataParser.ReturnsAsset assetJson 0 asset ∧
      RawDataParser.ReturnsAssets assetJson 0 [asset, .empty] := by
  intro asset
  have hfits : RawDataParser.Fits assetJson asset ∧ RawDataParser.Fits assetJson .empty := by
    decide +kernel
  have h := returns_iff_fits assetJson 0 asset [asset, .empty] (by decide) (by decide)
  exact ⟨h.1.mpr hfits.1, h.2.mpr ⟨by decide, by simp [hfits]⟩⟩

theorem not_returns_17748 :
    ¬ RawDataParser.ReturnsAssets assetJson 0 (List.replicate 17748 .empty) := by
  have hstatus : ∀ a ∈ List.replicate 17748 AssetValue.empty,
      a.status ≠ AssetValue.statusDownloading := fun a ha =>
    eq_of_mem_replicate ha ▸ by decide
  intro h
  have hlength := ((RawDataParser.returnsAssets_iff hstatus).mp h).1
  rw [length_replicate] at hlength
  omega

end RelationalStore.Values
