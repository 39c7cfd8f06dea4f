import RelationalStore.Rdb.ConnectionPool.Init
import RelationalStore.Rdb.Replica.Basic

/-! # Permission to write to a visited store

A call with the role `VISITOR_WRITE` passes when the service has verified it, and its path is kept.
-/

namespace RelationalStore

structure PromiseInfo where
  user : String
  tokenIds : List Nat
  uids : List Int
  permissionNames : List String
  deriving DecidableEq

structure StoreConfig where
  name : List Char
  path : List Char
  visitorDir : List Char
  isMemoryRdb : Bool
  roleType : RoleType
  bundleName : String
  moduleName : String
  customDir : String
  dataGroupId : String
  area : Int
  securityLevel : Int
  haMode : HAMode
  isEncrypt : Bool
  isVector : Bool
  isReadOnly : Bool
  isSearchable : Bool
  isLocalOnly : Bool
  autoClean : Bool
  autoCleanDevice : Bool
  subUser : Int
  promiseInfo : PromiseInfo
  deriving DecidableEq

structure SyncerParam where
  bundleName : String
  hapName : String
  storeName : List Char
  customDir : String
  area : Int
  level : Int
  isEncrypt : Bool
  isAutoClean : Bool
  isAutoCleanDevice : Bool
  isSearchable : Bool
  roleType : RoleType
  haMode : HAMode
  tokenIds : List Nat
  uids : List Int
  user : String
  permissionNames : List String
  subUser : Int
  isLocalOnly : Bool
  deriving DecidableEq

structure Credentials where
  bundleName : String
  storeName : List Char
  user : String
  tokenIds : List Nat
  uids : List Int
  permissionNames : List String
  deriving DecidableEq

def SyncerParam.credentials (p : SyncerParam) : Credentials where
  bundleName := p.bundleName
  storeName := p.storeName
  user := p.user
  tokenIds := p.tokenIds
  uids := p.uids
  permissionNames := p.permissionNames

inductive Verification where
  | noService
  | refused
  | accepted
  deriving DecidableEq

namespace StoreConfig

def getSyncParam (config : StoreConfig) : SyncerParam where
  bundleName := config.bundleName
  hapName := config.moduleName
  storeName := config.name
  customDir := config.customDir
  area := config.area
  level := config.securityLevel
  isEncrypt := config.isEncrypt
  isAutoClean := config.autoClean
  isAutoCleanDevice := config.autoCleanDevice
  isSearchable := config.isSearchable
  roleType := config.roleType
  haMode := config.haMode
  tokenIds := config.promiseInfo.tokenIds
  uids := config.promiseInfo.uids
  user := config.promiseInfo.user
  permissionNames := config.promiseInfo.permissionNames
  subUser := config.subUser
  isLocalOnly := config.isLocalOnly

def isNameChar (c : Char) : Bool := c.isAlphanum || c = '_' || c = '-' || c = '.'

def getSharedMemoryDbPath (name : List Char) : Option (List Char) :=
  if name ≠ [] ∧ name.all isNameChar = false then none
  else some ("file:".toList ++ name ++ "?mode=memory&cache=shared".toList)

def getDbPath (config : StoreConfig) : Except RdbError (List Char) :=
  if config.isMemoryRdb then
    if config.roleType ≠ .owner then .error .notSupport
    else
      match getSharedMemoryDbPath config.name with
      | none => .error .invalidFilePath
      | some path => .ok path
  else
    let path := if config.roleType = .owner then config.path else config.visitorDir
    if path.head? = some '/' then .ok path else .error .invalidFilePath

def credentials (config : StoreConfig) : Credentials := config.getSyncParam.credentials

end StoreConfig

structure StoreManager where
  promiseInfoCache : List (List Char)
  accepted : List (List Char × Credentials)
  deriving DecidableEq

inductive StoreManagerCall where
  | getRdbStore (config : StoreConfig) (verification : Verification)
  | evict (path : List Char)
  | clear

namespace StoreManager

def initial : StoreManager := ⟨[], []⟩

def isPermitted (m : StoreManager) (param : SyncerParam) (path : List Char)
    (verification : Verification) : Bool × StoreManager :=
  if path ∈ m.promiseInfoCache then (true, m)
  else
    match verification with
    | .noService | .refused => (false, m)
    | .accepted =>
      (true, ⟨path :: m.promiseInfoCache, (path, param.credentials) :: m.accepted⟩)

def checkMemory (config : StoreConfig) : Except RdbError Unit :=
  if config.isMemoryRdb ∧ (config.isEncrypt ∨ config.isVector ∨ config.roleType ≠ .owner ∨
      config.haMode ≠ .single ∨ config.isSearchable ∨ config.isReadOnly ∨
      config.dataGroupId ≠ "" ∨ config.customDir ≠ "") then .error .notSupport
  else .ok ()

def checkConfig (m : StoreManager) (config : StoreConfig) (path : List Char)
    (verification : Verification) : Except RdbError Unit × StoreManager :=
  if config.roleType = .visitorWrite then
    match m.isPermitted config.getSyncParam path verification with
    | (false, m) => (.error .notSupport, m)
    | (true, m) => (checkMemory config, m)
  else (checkMemory config, m)

def getRdbStore (m : StoreManager) (config : StoreConfig) (verification : Verification) :
    Except RdbError (List Char) × StoreManager :=
  match config.getDbPath with
  | .error e => (.error e, m)
  | .ok path =>
    let (result, m) := m.checkConfig config path verification
    (result.map fun _ => path, m)

def step (m : StoreManager) : StoreManagerCall → Option (Except RdbError (List Char)) × StoreManager
  | .getRdbStore config verification =>
    let (result, m) := m.getRdbStore config verification
    (some result, m)
  | .evict path =>
    (none, { m with promiseInfoCache := m.promiseInfoCache.filter (· ≠ path) })
  | .clear => (none, { m with promiseInfoCache := [] })

/-- A visitor that passes has had the path and its credentials accepted. -/
def Admits (t : Transition StoreManager StoreManagerCall (Option (Except RdbError (List Char)))) :
    Prop :=
  ∀ config verification path, t.call = .getRdbStore config verification →
    config.roleType = .visitorWrite → t.ret = some (.ok path) →
      (path, config.credentials) ∈ t.post.accepted

def SameCredentials (m : StoreManager) : StoreManagerCall → Prop
  | .getRdbStore config _ => config.roleType = .visitorWrite →
      ∀ path ∈ m.promiseInfoCache, config.getDbPath = .ok path →
        (path, config.credentials) ∈ m.accepted
  | .evict _ | .clear => True

variable {m : StoreManager} {config : StoreConfig} {path : List Char}

theorem checkMemory_of_visitorWrite (hrole : config.roleType = .visitorWrite)
    (hpath : config.getDbPath = .ok path) : checkMemory config = .ok () := by
  unfold StoreConfig.getDbPath at hpath
  split at hpath
  · simp [hrole] at hpath
  next hmemory => simp [checkMemory, hmemory]

theorem getRdbStore_of_visitorWrite (m : StoreManager) (verification : Verification)
    (hrole : config.roleType = .visitorWrite) (hpath : config.getDbPath = .ok path) :
    m.getRdbStore config verification =
      if path ∈ m.promiseInfoCache then (.ok path, m)
      else if verification = .accepted then
        (.ok path, ⟨path :: m.promiseInfoCache, (path, config.credentials) :: m.accepted⟩)
      else (.error .notSupport, m) := by
  have hmemory := checkMemory_of_visitorWrite hrole hpath
  simp only [getRdbStore, hpath, checkConfig, hrole, if_true, isPermitted]
  by_cases hcached : path ∈ m.promiseInfoCache
  · simp [hcached, hmemory, Except.map]
  · cases verification with
    | noService | refused => simp [hcached, Except.map]
    | accepted => simp [hcached, hmemory, Except.map, StoreConfig.credentials]

theorem cached_or_accepted (hrole : config.roleType = .visitorWrite)
    (h : (m.getRdbStore config verification).1 = .ok path) :
    config.getDbPath = .ok path ∧
      (path ∈ m.promiseInfoCache ∧ (m.getRdbStore config verification).2 = m ∨
        (path, config.credentials) ∈ (m.getRdbStore config verification).2.accepted) := by
  cases hpath : config.getDbPath with
  | error e =>
    rw [getRdbStore, hpath] at h
    exact nomatch h
  | ok path' =>
    rw [getRdbStore_of_visitorWrite m verification hrole hpath] at h ⊢
    split at h
    next hcached =>
      cases h
      exact ⟨rfl, .inl ⟨hcached, by rw [if_pos hcached]⟩⟩
    next hcached =>
      split at h
      next haccepted =>
        cases h
        exact ⟨rfl, .inr (by simp [hcached, haccepted])⟩
      · exact nomatch h

theorem admits_iff (m : StoreManager) (c : StoreManagerCall) :
    Admits (transition step m c) ↔ m.SameCredentials c := by
  cases c with
  | evict path => exact iff_of_true (fun _ _ _ h => nomatch h) trivial
  | clear => exact iff_of_true (fun _ _ _ h => nomatch h) trivial
  | getRdbStore config verification =>
    constructor
    · intro h hrole path hcached hpath
      have hcall := getRdbStore_of_visitorWrite m verification hrole hpath
      rw [if_pos hcached] at hcall
      have hadmitted := h config verification path rfl hrole (by simp [transition, step, hcall])
      simpa [transition, step, hcall] using hadmitted
    · rintro h _ _ path ⟨⟩ hrole hret
      obtain ⟨hpath, ⟨hcached, heq⟩ | haccepted⟩ := cached_or_accepted hrole (Option.some.inj hret)
      · change _ ∈ (m.getRdbStore config verification).2.accepted
        rw [heq]
        exact h hrole path hcached hpath
      · exact haccepted

theorem admits_iff_sameCredentials (calls : List StoreManagerCall) :
    (∀ t ∈ trace step initial calls, Admits t) ↔
      ∀ t ∈ trace step initial calls, t.pre.SameCredentials t.call :=
  trace_forall_iff (I := fun _ => True) (fun _ _ _ _ => trivial) (fun m c _ => admits_iff m c)
    trivial

theorem second_visitor_unverified :
    let info : PromiseInfo := ⟨"100", [1], [2], ["read"]⟩
    let config : StoreConfig := ⟨"a".toList, [], "/data/a".toList, false, .visitorWrite, "first",
      "", "", "", 0, 0, .single, false, false, false, false, false, false, false, 0, info⟩
    let other := { config with bundleName := "second", promiseInfo := ⟨"101", [], [], []⟩ }
    let calls : List StoreManagerCall :=
      [.getRdbStore config .accepted, .getRdbStore other .refused]
    (step (step initial (.getRdbStore config .accepted)).2 (.getRdbStore other .refused)).1 =
        some (.ok "/data/a".toList) ∧
      ¬ ∀ t ∈ trace step initial calls, Admits t := by
  refine ⟨by decide, fun h => ?_⟩
  have hadmits := h _ (List.mem_of_getElem? (i := 1) rfl) _ .refused "/data/a".toList rfl rfl
    (by decide)
  revert hadmits
  decide

end StoreManager

end RelationalStore
