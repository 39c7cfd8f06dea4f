import RelationalStore.Rdb.Values.RawDataBounds
import RelationalStore.Theory.OrderedMap

/-! # Merging assets

The assets with one name are merged, the others of the new list are added as inserted ones. -/

namespace RelationalStore.Values

open List RawDataParser AssetValue OrderedMap

namespace AssetValue

def inserted (asset : AssetValue) : AssetValue := { asset with status := statusInsert }

def statusUnknown : Nat := 0
def statusNormal : Nat := 1
def statusUpdate : Nat := 3
def statusDelete : Nat := 4

def mergeAsset (old new : AssetValue) : AssetValue :=
  if new.status = statusDelete then
    { old with status := statusDelete, hash := "", modifyTime := "", size := "", extension := "" }
  else if old.status % 0x10000000 ∈
      [statusUnknown, statusNormal, statusAbnormal, statusInsert, statusUpdate] then
    if old.modifyTime ≠ new.modifyTime ∨ old.size ≠ new.size ∨ old.uri ≠ new.uri ∨
        old.path ≠ new.path ∨ old.extension ≠ new.extension then
      let updated :=
        if old.modifyTime ≠ new.modifyTime ∨ old.size ≠ new.size ∨ old.uri = new.uri ∨
            old.path = new.path then
          { old with expiresTime := new.expiresTime, hash := new.hash, status := statusUpdate }
        else old
      { updated with
        version := new.version, uri := new.uri, createTime := new.createTime
        modifyTime := new.modifyTime, size := new.size, path := new.path
        extension := new.extension }
    else old
  else old

theorem mergeAsset_of_same {old new : AssetValue} (hstatus : new.status ≠ statusDelete)
    (hsame : old.modifyTime = new.modifyTime ∧ old.size = new.size ∧ old.uri = new.uri ∧
      old.path = new.path ∧ old.extension = new.extension) : mergeAsset old new = old := by
  obtain ⟨hmodify, hsize, huri, hpath, hextension⟩ := hsame
  simp [mergeAsset, hstatus, hmodify, hsize, huri, hpath, hextension]

theorem mergeAsset_mergeAsset (old new : AssetValue) :
    mergeAsset (mergeAsset old new) new = mergeAsset old new := by
  by_cases hstatus : new.status = statusDelete
  · simp only [mergeAsset, if_pos hstatus]
  generalize hmerge : mergeAsset old new = merged
  have hmerged := hmerge
  rw [mergeAsset, if_neg hstatus] at hmerged
  -- the asset is as it was, or it has got what is compared
  have hunchanged (h : old = merged) : mergeAsset merged new = merged := by rwa [h] at hmerge
  split at hmerged
  · split at hmerged
    · subst hmerged
      exact mergeAsset_of_same hstatus ⟨rfl, rfl, rfl, rfl, rfl⟩
    · exact hunchanged hmerged
  · exact hunchanged hmerged

end AssetValue

open AssetValue

/-! ## Lists of assets -/

abbrev AssetEntries := List (String × AssetValue)

def compAt (key : String) (asset : AssetValue) (rest : AssetEntries → AssetEntries × AssetEntries) :
    AssetEntries → AssetEntries × AssetEntries
  | [] => ((key, asset) :: (rest []).1, (rest []).2)
  | (newKey, newAsset) :: new =>
    if key = newKey then
      -- the new asset is erased
      ((key, mergeAsset asset newAsset) :: (rest new).1, (rest new).2)
    else if key < newKey then
      ((key, asset) :: (rest ((newKey, newAsset) :: new)).1, (rest ((newKey, newAsset) :: new)).2)
    else ((compAt key asset rest new).1, (newKey, newAsset) :: (compAt key asset rest new).2)

def compLoop : AssetEntries → AssetEntries → AssetEntries × AssetEntries
  | [], new => ([], new)
  | (key, asset) :: old, new => compAt key asset (compLoop old) new

theorem keys_compLoop (old new : AssetEntries) :
    (compLoop old new).1.map Prod.fst = old.map Prod.fst := by
  induction old generalizing new with
  | nil => rfl
  | cons p old ih =>
    rw [compLoop]
    induction new with
    | nil => exact congrArg (p.1 :: ·) (ih [])
    | cons q new ihnew =>
      rw [compAt]
      split
      · exact congrArg (p.1 :: ·) (ih new)
      split
      · exact congrArg (p.1 :: ·) (ih (q :: new))
      · exact ihnew

theorem sorted_compLoop (h : old.Pairwise (·.1 < ·.1)) (new : AssetEntries) :
    (compLoop old new).1.Pairwise (·.1 < ·.1) := by
  rw [← pairwise_map (f := Prod.fst) (R := (· < ·)), keys_compLoop, pairwise_map]
  exact h

abbrev AssetMap := OrderedMap String AssetValue

def compAssets (assets newAssets : AssetMap) : AssetMap :=
  (compLoop assets.entries newAssets.entries).2.foldl
    (fun assets p => assets.insert p.1 p.2.inserted)
    ⟨(compLoop assets.entries newAssets.entries).1, sorted_compLoop assets.sorted _⟩

theorem lookup_compLoop (hold : old.Pairwise (·.1 < ·.1)) (hnew : new.Pairwise (·.1 < ·.1))
    (k : String) :
    (compLoop old new).1.lookup k =
        (old.lookup k).map (fun asset => (new.lookup k).elim asset (mergeAsset asset)) ∧
      (compLoop old new).2.lookup k = (old.lookup k).elim (new.lookup k) (fun _ => none) := by
  induction old generalizing new with
  | nil => exact ⟨rfl, rfl⟩
  | cons p old ih =>
    obtain ⟨key, asset⟩ := p
    obtain ⟨hhead, htail⟩ := pairwise_cons.mp hold
    have hkey : old.lookup key = none := lookup_eq_none_of_lt hhead
    rw [compLoop]
    induction new with
    | nil =>
      rw [compAt]
      by_cases hk : k = key
      · subst hk
        simp [lookup_cons_self, ih htail .nil, hkey]
      · simp [lookup_cons_of_ne hk, ih htail .nil]
    | cons q new ihnew =>
      obtain ⟨newKey, newAsset⟩ := q
      obtain ⟨hnewHead, hnewTail⟩ := pairwise_cons.mp hnew
      rw [compAt]
      rcases lt_trichotomy key newKey with hlt | rfl | hgt
      · have hnone : ((newKey, newAsset) :: new).lookup key = none := by
          refine lookup_eq_none_of_lt (forall_mem_cons.mpr ⟨hlt, fun q hq => ?_⟩)
          exact lt_trans hlt (hnewHead q hq)
        rw [if_neg (ne_of_lt hlt), if_pos hlt]
        by_cases hk : k = key
        · subst hk
          simp [lookup_cons_self, ih htail hnew, hkey, hnone]
        · simp [lookup_cons_of_ne hk, ih htail hnew]
      · have hnone : new.lookup key = none := lookup_eq_none_of_lt hnewHead
        rw [if_pos rfl]
        by_cases hk : k = key
        · subst hk
          simp [lookup_cons_self, ih htail hnewTail, hkey, hnone]
        · simp [lookup_cons_of_ne hk, ih htail hnewTail]
      · have hnone : ((key, asset) :: old).lookup newKey = none := by
          refine lookup_eq_none_of_lt (forall_mem_cons.mpr ⟨hgt, fun q hq => ?_⟩)
          exact lt_trans hgt (hhead q hq)
        rw [if_neg (ne_of_gt hgt), if_neg (lt_asymm hgt), (ihnew hnewTail).1]
        by_cases hk : k = newKey
        · subst hk
          simp [lookup_cons_self, hnone]
        · simp [lookup_cons_of_ne hk, (ihnew hnewTail).2]

theorem find_compAssets (old new : AssetMap) (k : String) :
    (compAssets old new).find k =
      match old.find k, new.find k with
      | some asset, some newAsset => some (mergeAsset asset newAsset)
      | some asset, none => some asset
      | none, newAsset => newAsset.map inserted := by
  obtain ⟨hold, hnew⟩ := lookup_compLoop old.sorted new.sorted k
  rw [compAssets, find_foldl_insert, hnew, find, find,
    find, hold]
  cases old.entries.lookup k <;> cases new.entries.lookup k <;> rfl

def merged : Option AssetValue → Option AssetValue → Option AssetValue
  | some asset, some newAsset => some (mergeAsset asset newAsset)
  | some asset, none => some asset
  | none, some newAsset =>
    if newAsset.status = statusDelete then some newAsset
    else some newAsset.inserted
  | none, none => none

/-- The maps are merged name by name, and a second time changes nothing. -/
structure MergesPointwise (old new : AssetMap) : Prop where
  pointwise : ∀ name, (compAssets old new).find name = merged (old.find name) (new.find name)
  idempotent : compAssets (compAssets old new) new = compAssets old new

theorem mergesPointwise_iff (old new : AssetMap) : MergesPointwise old new ↔
    ∀ name, old.find name = none → ∀ asset ∈ new.find name, asset.status ≠ statusDelete := by
  constructor
  · intro h name hold asset hnew hdelete
    have hname := h.pointwise name
    rw [find_compAssets, hold, Option.mem_def.mp hnew, merged, if_pos hdelete] at hname
    have hstatus := congrArg status (Option.some.inj hname)
    exact absurd (hstatus.trans hdelete) (by decide : statusInsert ≠ statusDelete)
  · intro h
    refine ⟨fun name => ?_, ext_find fun name => ?_⟩
    · rw [find_compAssets]
      cases hold : old.find name with
      | some asset => cases new.find name <;> rfl
      | none =>
        cases hnew : new.find name with
        | none => rfl
        | some newAsset => rw [merged, if_neg (h name hold newAsset hnew)]; rfl
    · rw [find_compAssets, find_compAssets]
      cases hold : old.find name with
      | some asset =>
        cases new.find name with
        | none => rfl
        | some newAsset => exact congrArg some (mergeAsset_mergeAsset asset newAsset)
      | none =>
        cases hnew : new.find name with
        | none => rfl
        | some newAsset =>
          -- the inserted asset has all that the new one has
          exact congrArg some
            (mergeAsset_of_same (h name hold newAsset hnew) ⟨rfl, rfl, rfl, rfl, rfl⟩)

theorem compAssets_inserts_deleted :
    let asset := { empty with name := "a", status := statusDelete }
    let new : AssetMap := ⟨[("a", asset)], pairwise_singleton _ _⟩
    (compAssets .empty new).entries = [("a", { asset with status := statusInsert })] ∧
      ¬ MergesPointwise .empty new := by
  refine ⟨rfl, fun h => ?_⟩
  have hname := congrArg (·.map status) (h.pointwise "a")
  exact absurd hname (by decide)

/-! ## The SQL functions -/

section
variable (json : JsonLibrary) (now : Nat)

def parserRawDataMap (data : List UInt8) (assets : AssetMap) : Nat × AssetMap :=
  let parsed := parserRawDataAssets json now data []
  (parsed.1, parsed.2.foldl (fun assets asset => assets.insert asset.name asset) assets)

def packageRawDataMap (assets : AssetMap) : List UInt8 :=
  packageRawDataAssets json (assets.entries.map Prod.snd)

def sqlMergeAssets (arg newArg : List UInt8) : List UInt8 :=
  let assets := if arg = [] then .empty else (parserRawDataMap json now arg .empty).2
  let newAssets := if newArg = [] then .empty else (parserRawDataMap json now newArg .empty).2
  packageRawDataMap json (compAssets assets newAssets)

def sqlMergeAsset (arg newArg : List UInt8) : List UInt8 :=
  let parsed := if arg = [] then (0, .empty) else parserRawData json now arg .empty
  let newAsset :=
    if newArg = [] then .empty else (parserRawData json now newArg .empty).2
  let asset :=
    if parsed.1 = 0 then
      if newAsset.status ≠ statusDelete then newAsset.inserted else newAsset
    else if parsed.2.name = newAsset.name then mergeAsset parsed.2 newAsset
    else parsed.2
  packageRawData json asset

def assetArg (asset : Option AssetValue) : List UInt8 :=
  asset.elim [] (packageRawData json)

def assetsArg (null : Bool) (asset : Option AssetValue) : List UInt8 :=
  if asset = none ∧ null then [] else packageRawDataAssets json asset.toList

def listOf (blob : List UInt8) : List UInt8 :=
  hToLe 4 ASSETS_MAGIC ++ hToLe 2 1 ++ blob

/-- The functions have the same effect on an asset and on the list of it. -/
def SameEffect (null : Bool) (old : Option AssetValue) (new : AssetValue) : Prop :=
  sqlMergeAssets json now (assetsArg json null old) (assetsArg json null (some new)) =
    listOf (sqlMergeAsset json now (assetArg json old) (assetArg json (some new)))

end

section
variable {json : JsonLibrary} {now : Nat} {null : Bool} {asset new : AssetValue}

theorem AssetValue.name_expire : (asset.expire now).name = asset.name := by
  rw [expire]
  split <;> rfl

theorem AssetValue.status_expire_eq_delete :
    (asset.expire now).status = statusDelete ↔ asset.status = statusDelete := by
  rw [expire]
  split
  next h =>
    rw [h.1]
    exact iff_of_false (by decide : statusAbnormal ≠ statusDelete)
      (by decide : statusDownloading ≠ statusDelete)
  · rfl

theorem packageRawData_status (h : packageRawData json a = packageRawData json b) :
    a.status = b.status := by
  have hlength (x y z : List UInt8) (hx : x.length = 4) (hy : y.length = 2) :
      (x ++ y ++ z).drop 6 = z := drop_left' (by rw [length_append, hx, hy])
  have hdump : json.dump a.marshal = json.dump b.marshal := by
    have hdrop := congrArg (List.drop 6) h
    rwa [packageRawData, packageRawData,
      hlength _ _ _ (length_hToLe 4 _) (length_hToLe 2 _),
      hlength _ _ _ (length_hToLe 4 _) (length_hToLe 2 _)] at hdrop
  obtain ⟨node, hparse, hnode⟩ := json.parse_dump a
  obtain ⟨node', hparse', hother⟩ := json.parse_dump b
  rw [hdump, hparse'] at hparse
  obtain rfl := Option.some.inj hparse
  have hstatus := (hnode "status").symm.trans (hother "status")
  have hnumber : some (JsonValue.number a.status) = some (JsonValue.number b.status) := hstatus
  exact JsonValue.number.inj (Option.some.inj hnumber)

theorem packageRawDataAssets_singleton :
    packageRawDataAssets json [asset] =
      listOf (packageRawData json asset) := by
  rw [packageRawDataAssets, listOf, flatMap_singleton]
  rfl

theorem packageRawDataAssets_ne_nil : packageRawDataAssets json assets ≠ [] := by
  apply ne_nil_of_length_pos
  rw [length_packageRawDataAssets]
  omega

theorem entries_assetsArg (json : JsonLibrary) (now : Nat) (null : Bool) (old : Option AssetValue)
    (h : ∀ a ∈ old, Fits json a) :
    (if assetsArg json null old = [] then OrderedMap.empty
      else (parserRawDataMap json now (assetsArg json null old) .empty).2).entries =
      old.toList.map fun a => (a.name, a.expire now) := by
  cases old with
  | none =>
    cases null with
    | true => rfl
    | false =>
      have harg : assetsArg json false none = packageRawDataAssets json [] := rfl
      rw [harg, if_neg packageRawDataAssets_ne_nil, parserRawDataMap,
        parserRawDataAssets_packageRawDataAssets, flatMap_nil,
        parserLoop_of_refused rfl]
      rfl
  | some a =>
    have harg : assetsArg json null (some a) = packageRawDataAssets json [a] := rfl
    have hparse := parserRawData_of_fits (h a rfl) now .empty []
    have hused : (packageRawData json a).length ≠ 0 := by
      rw [length_packageRawData]
      omega
    rw [harg, if_neg packageRawDataAssets_ne_nil, parserRawDataMap,
      parserRawDataAssets_packageRawDataAssets, flatMap_cons, flatMap_nil,
      parserLoop_of_accepted hused hparse, append_nil, drop_length,
      parserLoop_of_refused rfl]
    exact congrArg (fun name => [(name, a.expire now)]) name_expire

theorem entries_compAssets_of_some (h : m.entries = [(key, a)]) (h' : m'.entries = [(key, b)]) :
    (compAssets m m').entries = [(key, mergeAsset a b)] := by
  obtain ⟨_, hm⟩ := m
  obtain ⟨_, hm'⟩ := m'
  subst h h'
  simp [compAssets, compLoop, compAt]

theorem entries_compAssets_of_none (h : m.entries = []) (h' : m'.entries = [(key, b)]) :
    (compAssets m m').entries = [(key, b.inserted)] := by
  obtain ⟨_, hm⟩ := m
  obtain ⟨_, hm'⟩ := m'
  subst h h'
  rfl

theorem sqlMergeAssets_of_some (hfits : Fits json asset)
    (hname : asset.name = new.name) (hnew : Fits json new) :
    sqlMergeAssets json now (assetsArg json null (some asset)) (assetsArg json null (some new)) =
      listOf (packageRawData json
        (mergeAsset (asset.expire now) (new.expire now))) := by
  have hentries := entries_assetsArg json now null (some asset) (by simpa using hfits)
  have hnewEntries := entries_assetsArg json now null (some new) (by simpa using hnew)
  rw [Option.toList_some, map_singleton, hname] at hentries
  rw [sqlMergeAssets, packageRawDataMap, entries_compAssets_of_some hentries hnewEntries]
  exact packageRawDataAssets_singleton

theorem sqlMergeAssets_of_none (hnew : Fits json new) :
    sqlMergeAssets json now (assetsArg json null none) (assetsArg json null (some new)) =
      listOf (packageRawData json (new.expire now).inserted) := by
  have hentries := entries_assetsArg json now null none fun _ ha => nomatch ha
  have hnewEntries := entries_assetsArg json now null (some new) (by simpa using hnew)
  rw [sqlMergeAssets, packageRawDataMap, entries_compAssets_of_none hentries hnewEntries]
  exact packageRawDataAssets_singleton

theorem parsed_assetArg (now : Nat) (h : Fits json asset) :
    assetArg json (some asset) ≠ [] ∧
      parserRawData json now (assetArg json (some asset)) .empty =
        (6 + (json.dump asset.marshal).length, asset.expire now) := by
  have hparse := parserRawData_of_fits h now .empty []
  have hne : packageRawData json asset ++ [] ≠ [] :=
    packageRawData_append_ne_nil []
  rw [append_nil] at hparse hne
  rw [length_packageRawData] at hparse
  exact ⟨hne, hparse⟩

theorem sqlMergeAsset_of_some (hfits : Fits json asset)
    (hname : asset.name = new.name) (hnew : Fits json new) :
    sqlMergeAsset json now (assetArg json (some asset)) (assetArg json (some new)) =
      packageRawData json (mergeAsset (asset.expire now) (new.expire now)) := by
  obtain ⟨harg, hparse⟩ := parsed_assetArg now hfits
  obtain ⟨hnewArg, hnewParse⟩ := parsed_assetArg now hnew
  have hnames : (asset.expire now).name = (new.expire now).name := by
    rw [name_expire, name_expire, hname]
  rw [sqlMergeAsset, if_neg harg, if_neg hnewArg, hparse, hnewParse]
  dsimp only
  rw [if_neg (by omega), if_pos hnames]

theorem sqlMergeAsset_of_none (hnew : Fits json new) :
    sqlMergeAsset json now (assetArg json none) (assetArg json (some new)) =
      packageRawData json (if (new.expire now).status ≠ statusDelete
        then (new.expire now).inserted else new.expire now) := by
  obtain ⟨hnewArg, hnewParse⟩ := parsed_assetArg now hnew
  rw [sqlMergeAsset, if_neg hnewArg, hnewParse]
  rfl

end

theorem sameEffect_iff (json : JsonLibrary) (now : Nat) (null : Bool) (old : Option AssetValue)
    (new : AssetValue) (hold : ∀ a ∈ old, Fits json a ∧ a.name = new.name)
    (hnew : Fits json new) :
    SameEffect json now null old new ↔ ¬ (old = none ∧ new.status = statusDelete) := by
  rw [SameEffect]
  cases old with
  | some asset =>
    obtain ⟨hfits, hname⟩ := hold asset rfl
    rw [sqlMergeAssets_of_some hfits hname hnew, sqlMergeAsset_of_some hfits hname hnew]
    exact iff_of_true rfl fun h => nomatch h.1
  | none =>
    rw [sqlMergeAssets_of_none hnew, sqlMergeAsset_of_none hnew]
    constructor
    · rintro hblobs ⟨_, hdelete⟩
      have hexpired : (new.expire now).status = statusDelete :=
        status_expire_eq_delete.mpr hdelete
      rw [if_neg (not_not.mpr hexpired)] at hblobs
      have hstatus := packageRawData_status (append_cancel_left hblobs)
      exact absurd (hstatus.trans hexpired) (by decide : statusInsert ≠ statusDelete)
    · intro h
      rw [if_pos fun hexpired => h ⟨rfl, status_expire_eq_delete.mp hexpired⟩]

theorem sameEffect_iff_update :
    let old := { empty with name := "a", status := statusNormal }
    let new := { old with size := "7" }
    SameEffect assetJson 0 false (some old) new := by
  intro old new
  have hfits : Fits assetJson old ∧ Fits assetJson new := by
    decide +kernel
  refine (sameEffect_iff assetJson 0 false (some old) new ?_ hfits.2).mpr fun h => nomatch h.1
  intro a ha
  obtain rfl := Option.some.inj ha
  exact ⟨hfits.1, rfl⟩

theorem not_sameEffect_deleted :
    ¬ SameEffect assetJson 0 true none
      { empty with name := "a", status := statusDelete } := by
  have hfits : Fits assetJson
      { empty with name := "a", status := statusDelete } := by
    decide +kernel
  rw [SameEffect, sqlMergeAssets_of_none hfits, sqlMergeAsset_of_none hfits]
  intro hblobs
  exact absurd (packageRawData_status (append_cancel_left hblobs)) (by decide)

end RelationalStore.Values
