import Mathlib.Tactic.SplitIfs
import RelationalStore.Rdb.Rekey.Basic

/-! # The service while the file is changed

The calls that close or replace the file disable the service and enable it before they return. -/

namespace RelationalStore

open List

inductive ServiceCall where
  | disable
  | enable
  | delete
  | afterOpen
  deriving DecidableEq, Repr

namespace ServiceCall

def isSwitch : ServiceCall → Bool
  | disable | enable => true
  | delete | afterOpen => false

def ask (hasService : Bool) (calls : List ServiceCall) : List ServiceCall :=
  if hasService then calls else []

end ServiceCall

open ServiceCall (ask)

structure ServiceRun where
  ret : Except RdbError Unit
  calls : List ServiceCall
  hasPool : Bool

/-- When the service was disabled, it has been enabled once since. -/
def ServiceRun.Reenabled (r : ServiceRun) : Prop :=
  .disable ∈ r.calls → r.calls.filter ServiceCall.isSwitch = [.disable, .enable]

structure ReleaseCall where
  hasPool : Bool
  waitTime : Int
  used : Int
  acquired : Bool × Nat
  clearMetadata : Bool
  deriving DecidableEq, Repr

structure RestoreCommonCall where
  isReadOnly : Bool
  isMemoryRdb : Bool
  hasPool : Bool
  isOpen : Bool
  isMasterSlave : Bool
  getDestPath : Option RdbError
  isUseAsync : Bool
  changeDbFileForRestore : Option RdbError
  acquires : Bool
  checkReplicaForRestore : Option RdbError
  startAsyncRestore : Option RdbError
  deriving DecidableEq, Repr

namespace ReleaseCall

def restorePoolOnTimeout (hasService : Bool) (calls : List ServiceCall) : ServiceRun :=
  ⟨.error .databaseBusy, calls ++ ask hasService [.enable], true⟩

def release (c : ReleaseCall) (hasService : Bool) : ServiceRun :=
  if !c.hasPool then ⟨.error .alreadyClosed, [], false⟩
  else
    let calls := ask hasService [.disable]
    if c.waitTime - c.used ≤ 0 then restorePoolOnTimeout hasService calls
    else if !c.acquired.1 && c.acquired.2 == 0 then restorePoolOnTimeout hasService calls
    else if !hasService then ⟨.ok (), calls, false⟩
    else
      -- an error of `Delete` is only logged
      let calls := if c.clearMetadata then calls ++ [.delete] else calls
      ⟨.ok (), calls ++ [.enable], false⟩

end ReleaseCall

variable {K : Type}

def RekeyCall.rekeyServed [DecidableEq K] (c : RekeyCall K) (s : RekeyStore K) (hasService : Bool) :
    ServiceRun :=
  if c.isReadOnly || c.isMemoryRdb then ⟨.error .notSupport, [], c.hasPool⟩
  else if !c.isValid then ⟨.error .invalidArgsNew, [], c.hasPool⟩
  else if !s.isEncrypt || !c.isEqual || s.isCustom == c.paramKey.isNone then
    ⟨.error .notSupport, [], c.hasPool⟩
  else if !c.hasPool then ⟨.error .alreadyClosed, [], false⟩
  else
    let calls := ask hasService [.disable]
    match c.poolRekey s with
    | (.error err, _) => ⟨.error err, calls ++ ask hasService [.enable], true⟩
    | (.ok (), s) =>
      ⟨.ok (), calls ++ ask hasService (.enable :: if s.isCustom then [] else [.afterOpen]), true⟩

def RekeyExCall.rekeyExServed (c : RekeyExCall K) (s : RekeyStore K) (hasService : Bool) :
    ServiceRun :=
  if c.isVector || c.isReadOnly || c.isMemoryRdb || !c.isSingle then
    ⟨.error .notSupport, [], c.hasPool⟩
  else if !c.isValid then ⟨.error .invalidArgsNew, [], c.hasPool⟩
  else if !c.hasPool then ⟨.error .alreadyClosed, [], false⟩
  else
    let calls := ask hasService [.disable]
    match (c.connRekeyEx { s with isInit := false }).1 with
    | .error err => ⟨.error err, calls, true⟩
    | .ok () => ⟨.ok (), calls ++ ask hasService [.enable, .afterOpen], true⟩

namespace RestoreCommonCall

def toExcept : Option RdbError → Except RdbError Unit
  | some err => .error err
  | none => .ok ()

def restoreInner (c : RestoreCommonCall) : Except RdbError Unit :=
  if !c.isUseAsync then toExcept c.changeDbFileForRestore
  else if !c.acquires then .error .databaseBusy
  else
    match c.checkReplicaForRestore with
    | some err => .error err
    | none => toExcept c.startAsyncRestore

def restoreCommon (c : RestoreCommonCall) (hasService : Bool) : ServiceRun :=
  if c.isReadOnly || c.isMemoryRdb then ⟨.error .notSupport, [], c.hasPool⟩
  else if !c.hasPool || !c.isOpen then ⟨.error .alreadyClosed, [], c.hasPool⟩
  else
    match if c.isMasterSlave then none else c.getDestPath with
    | some err => ⟨.error err, [], true⟩
    | none =>
      let calls := ask hasService [.disable]
      match c.restoreInner with
      | .error err => ⟨.error err, calls ++ ask hasService [.enable], true⟩
      | .ok () => ⟨.ok (), calls ++ ask hasService [.enable, .afterOpen], true⟩

end RestoreCommonCall

/-! ## The returns -/

namespace ServiceRun

theorem reenabled_ask (hasService : Bool) (ret : Except RdbError Unit) (hasPool : Bool)
    (hmore : more.filter ServiceCall.isSwitch = []) :
    Reenabled ⟨ret, ask hasService [.disable] ++ ask hasService (.enable :: more), hasPool⟩ := by
  intro h
  cases hasService with
  | false => exact nomatch h
  | true => simp [ask, filter_cons, ServiceCall.isSwitch, hmore]

theorem reenabled_nil (ret : Except RdbError Unit) (hasPool : Bool) :
    Reenabled ⟨ret, [], hasPool⟩ := fun h => nomatch h

theorem reenabled_disable_iff (hasService : Bool) (ret : Except RdbError Unit) (hasPool : Bool) :
    Reenabled ⟨ret, ask hasService [.disable], hasPool⟩ ↔ hasService = false := by
  cases hasService <;> simp [Reenabled, ask, filter_cons, ServiceCall.isSwitch]

end ServiceRun

open ServiceRun

theorem ReleaseCall.release_reenabled (c : ReleaseCall) (hasService : Bool) :
    (c.release hasService).Reenabled := by
  unfold release restorePoolOnTimeout
  split_ifs with hpool htime hacquired hservice hclear
  · exact reenabled_nil _ _
  · exact reenabled_ask _ _ _ rfl
  · exact reenabled_ask _ _ _ rfl
  · exact (reenabled_disable_iff ..).mpr (by simpa using hservice)
  all_goals
    intro _
    simp_all [ask, filter_cons, ServiceCall.isSwitch]

theorem RekeyCall.rekeyServed_reenabled [DecidableEq K] (c : RekeyCall K) (s : RekeyStore K)
    (hasService : Bool) : (c.rekeyServed s hasService).Reenabled := by
  unfold rekeyServed
  split_ifs
  · exact reenabled_nil _ _
  · exact reenabled_nil _ _
  · exact reenabled_nil _ _
  · exact reenabled_nil _ _
  · split
    · exact reenabled_ask _ _ _ rfl
    · apply reenabled_ask
      split <;> rfl

theorem RestoreCommonCall.restoreCommon_reenabled (c : RestoreCommonCall) (hasService : Bool) :
    (c.restoreCommon hasService).Reenabled := by
  unfold restoreCommon
  split_ifs
  · exact reenabled_nil _ _
  · exact reenabled_nil _ _
  all_goals
    split
    · exact reenabled_nil _ _
    · split <;> exact reenabled_ask _ _ _ rfl

namespace RekeyExCall

variable (c : RekeyExCall K)

def Admitted : Prop :=
  c.isVector = false ∧ c.isReadOnly = false ∧ c.isMemoryRdb = false ∧ c.isSingle ∧
    c.isValid ∧ c.hasPool

theorem rekeyExServed_ret [DecidableEq K] (s : RekeyStore K)
    (hasService : Bool) : (c.rekeyExServed s hasService).ret = (c.rekeyEx s).1 := by
  unfold rekeyExServed rekeyEx
  split_ifs
  all_goals try rfl
  split <;> split <;> simp_all

theorem rekeyExServed_reenabled_iff (s : RekeyStore K) (hasService : Bool) :
    (c.rekeyExServed s hasService).Reenabled ↔
      (hasService → c.Admitted → (c.connRekeyEx { s with isInit := false }).1 = .ok ()) := by
  unfold rekeyExServed Admitted
  split_ifs with hkind hvalid hpool
  · refine iff_of_true (reenabled_nil _ _) ?_
    rintro - ⟨hvector, hreadOnly, hmemory, hsingle, -, -⟩
    simp [hvector, hreadOnly, hmemory, hsingle] at hkind
  · refine iff_of_true (reenabled_nil _ _) ?_
    rintro - ⟨-, -, -, -, h, -⟩
    simp [h] at hvalid
  · refine iff_of_true (reenabled_nil _ _) ?_
    rintro - ⟨-, -, -, -, -, h⟩
    simp [h] at hpool
  · split
    · rw [reenabled_disable_iff]
      simp_all
    next hconn => exact iff_of_true (reenabled_ask _ _ _ rfl) fun _ _ => hconn

end RekeyExCall

/-! ## Any of the four calls -/

inductive SwitchCall (K : Type) where
  | release (c : ReleaseCall)
  | rekey (c : RekeyCall K) (s : RekeyStore K)
  | rekeyEx (c : RekeyExCall K) (s : RekeyStore K)
  | restoreCommon (c : RestoreCommonCall)

namespace SwitchCall

variable (c : SwitchCall K)

def run [DecidableEq K] (hasService : Bool) : ServiceRun :=
  match c with
  | release c => c.release hasService
  | rekey c s => c.rekeyServed s hasService
  | rekeyEx c s => c.rekeyExServed s hasService
  | restoreCommon c => c.restoreCommon hasService

/-- A call that is no `RekeyEx`, or one that is refused, finds no service or comes to a rekeying of
the connection that succeeds. -/
def Finishes (hasService : Bool) : Prop :=
  match c with
  | rekeyEx c s => hasService → c.Admitted →
      (c.connRekeyEx { s with isInit := false }).1 = .ok ()
  | _ => True

theorem Finishes.reenabled [DecidableEq K] {c : SwitchCall K} {hasService : Bool}
    (h : c.Finishes hasService) : (c.run hasService).Reenabled := by
  cases c with
  | release c => exact c.release_reenabled hasService
  | rekey c s => exact c.rekeyServed_reenabled s hasService
  | rekeyEx c s => exact (c.rekeyExServed_reenabled_iff s hasService).mpr h
  | restoreCommon c => exact c.restoreCommon_reenabled hasService

theorem reenabled_iff_finishes [DecidableEq K] (hasService : Bool) :
    (c.run hasService).Reenabled ↔ c.Finishes hasService := by
  refine ⟨fun h => ?_, Finishes.reenabled⟩
  cases c with
  | rekeyEx c s => exact (c.rekeyExServed_reenabled_iff s hasService).mp h
  | release | rekey | restoreCommon => trivial

theorem rekeyEx_leaves_disabled :
    ¬ ((rekeyEx (K := Nat)
      { isVector := false, isReadOnly := false, isMemoryRdb := false, isSingle := true
        hasPool := true, paramKey := some 1, toPlainText := false, isValid := true
        load := ⟨none, none, none⟩, password := none, memcpy := true
        sqliteRekey := some .sqliteFull, reopen := ⟨⟨none, none, none⟩, false, false⟩ }
      { encryptStatus := false, isPlainText := false, isCustom := false, key := none
        newKey := none, file := none, isInit := true }).run true).Reenabled := by
  intro h
  exact nomatch h mem_cons_self

end SwitchCall

end RelationalStore
