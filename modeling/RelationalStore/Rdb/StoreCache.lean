import Mathlib.Logic.Function.Basic
import RelationalStore.Theory.Run
import RelationalStore.Rdb.Errno

/-! # The cache of open stores

`RdbStoreManager` gives every caller of a path the same store object for as long as one of them
holds it. The cache itself holds weak pointers only, so the object goes with its last holder. -/

namespace RelationalStore

inductive StorageMode where
  | memory
  | disk
  deriving DecidableEq

inductive ConfigVersion where
  | defaultVersion
  | invalidConfigChangeNotAllowed
  deriving DecidableEq

/-- The parts of an `RdbStoreConfig` that its `operator==` and `GetStoreFromCache` read. No member
function of an open store sets one of them. -/
structure OpenConfig where
  name : List Char
  path : List Char
  storageMode : StorageMode
  journalMode : String
  syncMode : String
  databaseFileType : String
  journalSize : Int
  pageSize : Int
  dbType : Int
  haMode : Int
  securityLevel : Int
  customDir : String
  serverPath : String
  pluginLibs : List String
  /-- The keys of the map. -/
  customScalarFunctions : List String
  version : ConfigVersion
  deriving DecidableEq

namespace OpenConfig

/-- The `operator==`. -/
def equals (config other : OpenConfig) : Bool :=
  if config.customScalarFunctions ≠ other.customScalarFunctions then false
  else if config.storageMode ≠ other.storageMode ∨ config.journalMode ≠ other.journalMode ∨
      config.syncMode ≠ other.syncMode ∨ config.databaseFileType ≠ other.databaseFileType ∨
      config.journalSize ≠ other.journalSize ∨ config.pageSize ≠ other.pageSize ∨
      config.dbType ≠ other.dbType ∨ config.customDir ≠ other.customDir ∨
      config.pluginLibs ≠ other.pluginLibs ∨ config.haMode ≠ other.haMode ∨
      config.serverPath ≠ other.serverPath then false
  else if config.storageMode = .memory then config.name = other.name
  else config.path = other.path ∧ config.securityLevel = other.securityLevel

/-- The store of `config` may not be replaced by one of `other`. -/
def notReplaceable (config other : OpenConfig) : Bool :=
  config.storageMode = .memory || other.storageMode = .memory ||
    other.version = .invalidConfigChangeNotAllowed ||
    config.version = .invalidConfigChangeNotAllowed

end OpenConfig

/-- `E_CONFIG_INVALID_CHANGE`. -/
def configInvalidChange : RdbError := .other 14800070

/-- Store objects are numbered as they are made: object `store < next` is of `path store`, was made
with `config store` and has `holders store` holders. -/
structure StoreCache where
  next : Nat
  path : Nat → List Char
  config : Nat → OpenConfig
  holders : Nat → Nat
  storeCache : List Char → Option Nat

inductive StoreCacheCall where
  | getStoreFromCache (path : List Char) (config : OpenConfig)
  /-- The store's initialization has come to `E_OK` or not. -/
  | getRdb (path : List Char) (initialized : Bool)
  /-- A holder lets the store go. -/
  | release (store : Nat)
  | remove (path : List Char)
  | clear

namespace StoreCache

variable {s : StoreCache} {path : List Char} {config : OpenConfig}

/-- No object has been made, so that what `path` and `config` say is of no matter. -/
def initial (path : Nat → List Char) (config : Nat → OpenConfig) : StoreCache :=
  ⟨0, path, config, fun _ => 0, fun _ => none⟩

/-- `it->second.lock()` for the entry of a path, if there is one. -/
def lock (s : StoreCache) (path : List Char) : Option Nat :=
  (s.storeCache path).filter fun store => s.holders store ≠ 0

def hold (s : StoreCache) (store : Nat) : StoreCache :=
  { s with holders := Function.update s.holders store (s.holders store + 1) }

/-- `std::make_shared<RdbStoreImpl>(config)`, put into the cache. -/
def make (s : StoreCache) (path : List Char) (config : OpenConfig) : StoreCache where
  next := s.next + 1
  path := Function.update s.path s.next path
  config := Function.update s.config s.next config
  holders := Function.update s.holders s.next 1
  storeCache := Function.update s.storeCache path (some s.next)

def getStoreFromCache (s : StoreCache) (path : List Char) (config : OpenConfig) :
    Except RdbError Nat × StoreCache :=
  match s.lock path with
  | none => (.ok s.next, s.make path config)
  | some store =>
    if (s.config store).equals config then (.ok store, s.hold store)
    else if (s.config store).notReplaceable config then (.error configInvalidChange, s)
    else (.ok s.next, s.make path config)

/-- The store that a call brings, if it brings one, and the cache after it. -/
def step (s : StoreCache) : StoreCacheCall → Option Nat × StoreCache
  | .getStoreFromCache path config =>
    ((s.getStoreFromCache path config).1.toOption, (s.getStoreFromCache path config).2)
  | .getRdb path initialized =>
    match (s.lock path).filter fun _ => initialized with
    | some store => (some store, s.hold store)
    | none => (none, s)
  | .release store =>
    (none, { s with holders := Function.update s.holders store (s.holders store - 1) })
  | .remove path => (none, { s with storeCache := Function.update s.storeCache path none })
  | .clear => (none, { s with storeCache := fun _ => none })

/-- The stores of a path that somebody holds. -/
def Live (s : StoreCache) (path : List Char) (store : Nat) : Prop :=
  s.holders store ≠ 0 ∧ s.path store = path

/-- Every live store is the one in the cache, so that a path has one live store at most, and a call
for a path with a live store brings no other store. -/
structure OneStore (t : Transition StoreCache StoreCacheCall (Option Nat)) : Prop where
  cached : ∀ path store, t.post.Live path store → t.post.storeCache path = some store
  shared : ∀ path store other, t.pre.Live path store → t.ret = some other →
    t.post.path other = path → other = store

/-- A live store is not taken out of the cache, and it is asked for with its own configuration or
refuses the other. -/
def Keeps (s : StoreCache) : StoreCacheCall → Prop
  | .getStoreFromCache path config =>
    ∀ store, s.Live path store →
      (s.config store).equals config ∨ (s.config store).notReplaceable config
  | .remove path => ∀ store, ¬ s.Live path store
  | .clear => ∀ path store, ¬ s.Live path store
  | .getRdb .. | .release _ => True

/-- The cache has under a path a store of that path, which has been made. -/
def Placed (s : StoreCache) : Prop :=
  ∀ path store, s.storeCache path = some store → s.path store = path ∧ store < s.next

structure Inv (s : StoreCache) : Prop where
  cached : ∀ path store, s.Live path store → s.storeCache path = some store
  made : ∀ store, s.next ≤ store → s.holders store = 0
  placed : s.Placed

theorem inv_initial (path : Nat → List Char) (config : Nat → OpenConfig) :
    (initial path config).Inv :=
  ⟨fun _ _ h => absurd rfl h.1, fun _ _ => rfl, fun _ _ h => nomatch h⟩

theorem Placed.make (h : s.Placed) (path : List Char) (config : OpenConfig) :
    (s.make path config).Placed := by
  unfold Placed StoreCache.make at *
  simp only [Function.update_apply]
  grind

theorem getStoreFromCache_cases (s : StoreCache) (path : List Char) (config : OpenConfig) :
    (∃ store, s.lock path = some store ∧
      ((s.config store).equals config ∧
        s.getStoreFromCache path config = (.ok store, s.hold store) ∨
      (s.config store).notReplaceable config ∧
        s.getStoreFromCache path config = (.error configInvalidChange, s))) ∨
    s.getStoreFromCache path config = (.ok s.next, s.make path config) ∧
      ∀ store, s.lock path = some store →
        ¬ ((s.config store).equals config ∨ (s.config store).notReplaceable config) := by
  unfold getStoreFromCache
  grind

theorem Placed.remove (h : s.Placed) (path : List Char) :
    (s.step (.remove path)).2.Placed := by
  unfold Placed StoreCache.step at *
  simp only [Function.update_apply]
  grind

theorem live_of_lock (h : s.Placed) (hlock : s.lock path = some store) : s.Live path store := by
  rw [lock, Option.filter_eq_some_iff] at hlock
  exact ⟨of_decide_eq_true hlock.2, (h path store hlock.1).1⟩

theorem lock_eq_some_iff (h : s.Inv) : s.lock path = some store ↔ s.Live path store := by
  refine ⟨live_of_lock h.placed, fun hlive => ?_⟩
  exact Option.filter_eq_some_iff.mpr ⟨h.cached path store hlive, decide_eq_true hlive.1⟩

theorem Inv.unique (h : s.Inv) (hstore : s.Live path store) (hother : s.Live path other) :
    other = store :=
  Option.some.inj ((h.cached _ _ hother).symm.trans (h.cached _ _ hstore))

theorem Inv.hold (h : s.Inv) (hlive : s.Live path store) : (s.hold store).Inv := by
  obtain ⟨hcached, hmade, hplaced⟩ := h
  refine ⟨?_, ?_, hplaced⟩
  all_goals simp only [StoreCache.hold, Live, Function.update_apply] at *
  all_goals grind

theorem Inv.make (h : s.Inv) (hnone : ∀ store, ¬ s.Live path store) (config : OpenConfig) :
    (s.make path config).Inv := by
  obtain ⟨hcached, hmade, hplaced⟩ := h
  refine ⟨?_, ?_, hplaced.make path config⟩
  all_goals simp only [StoreCache.make, Live, Function.update_apply] at *
  all_goals grind

theorem inv_step (h : s.Inv) (c : StoreCacheCall) (hkeeps : s.Keeps c) : (s.step c).2.Inv := by
  cases c with
  | getStoreFromCache path config =>
    rcases s.getStoreFromCache_cases path config with
      ⟨store, hlock, ⟨-, heq⟩ | ⟨-, heq⟩⟩ | ⟨heq, hnew⟩ <;> rw [step, heq]
    · exact h.hold (live_of_lock h.placed hlock)
    · exact h
    · exact h.make (fun store hlive =>
        hnew store ((lock_eq_some_iff h).mpr hlive) (hkeeps store hlive)) config
  | getRdb path initialized =>
    rw [step]
    split
    · next store hlock =>
      exact h.hold (live_of_lock h.placed (Option.filter_eq_some_iff.mp hlock).1)
    · exact h
  | release store =>
    refine ⟨?_, ?_, h.placed⟩
    all_goals simp only [step, Live, Function.update_apply]
    all_goals grind [Inv, Live]
  | remove path =>
    refine ⟨fun path' store hlive => ?_, h.made, h.placed.remove path⟩
    have hne : path' ≠ path := fun heq => hkeeps store (heq ▸ hlive)
    exact (Function.update_of_ne hne _ _).trans (h.cached path' store hlive)
  | clear => exact ⟨fun path store hlive => absurd hlive (hkeeps path store), h.made, nofun⟩

theorem live_of_step (h : s.Inv) (hret : (s.step c).1 = some other) :
    (s.step c).2.holders other ≠ 0 ∧
      ∀ path store, s.Live path store → (s.step c).2.Live path store := by
  have hmade := h.made
  cases c with
  | getStoreFromCache path config =>
    rcases s.getStoreFromCache_cases path config with ⟨_, -, ⟨-, heq⟩ | ⟨-, heq⟩⟩ | ⟨heq, -⟩ <;>
      simp only [step, heq, hold, make, Live, Function.update_apply] at hret ⊢ <;>
      grind [Except.toOption]
  | getRdb path initialized =>
    cases hlock : (s.lock path).filter fun _ => initialized with
    | none => simp only [step, hlock, reduceCtorEq] at hret
    | some store =>
      simp only [step, hlock, hold, Live, Function.update_apply] at hret ⊢
      grind
  | release | remove | clear => exact nomatch hret

theorem oneStore_iff_keeps (h : s.Inv) (c : StoreCacheCall) :
    OneStore (transition step s c) ↔ s.Keeps c := by
  constructor
  · intro hone
    cases c with
    | getStoreFromCache path config =>
      intro store hlive
      rcases s.getStoreFromCache_cases path config with ⟨other, hlock, hother⟩ | ⟨heq, -⟩
      · obtain rfl := h.unique hlive (live_of_lock h.placed hlock)
        exact hother.imp And.left And.left
      · have hshared := hone.shared path store s.next hlive
        simp only [transition, step, heq, make, Function.update_self] at hshared
        exact absurd (h.made store (Nat.le_of_eq (hshared rfl trivial))) hlive.1
    | remove path =>
      intro store hlive
      have hcached := hone.cached path store hlive
      simp [transition, step] at hcached
    | clear => exact fun path store hlive => nomatch hone.cached path store hlive
    | getRdb | release => trivial
  · intro hkeeps
    refine ⟨(inv_step h c hkeeps).cached, fun path store other hlive hret hpath => ?_⟩
    obtain ⟨hother, hstore⟩ := live_of_step h hret
    exact (inv_step h c hkeeps).unique (hstore path store hlive) ⟨hother, hpath⟩

/-- A path has one live store at most, which is in the cache and which every call for the path
brings, just when nobody takes a live store out of the cache or asks for it with another
configuration that it gives way to. -/
theorem oneStore_iff_forall_keeps (path : Nat → List Char) (config : Nat → OpenConfig)
    (calls : List StoreCacheCall) :
    (∀ t ∈ trace step (initial path config) calls, OneStore t) ↔
      ∀ t ∈ trace step (initial path config) calls, t.pre.Keeps t.call :=
  trace_forall_iff (I := Inv) (fun _ c h hkeeps => inv_step h c hkeeps)
    (fun _ c h => oneStore_iff_keeps h c) (inv_initial path config)

end StoreCache

end RelationalStore
