import RelationalStore.RdbServiceAdapter.Observers

/-! # Which observers an event reaches

The observers of names that agree up to `.db` share one list. -/

namespace RelationalStore

open List
open SqliteUtils

/-! ## Lists by key -/

section
variable {κ ι : Type} [DecidableEq κ] (ident : ι → Nat)

def enroll (lists : κ → List ι) (key : κ) (item : ι) : κ → List ι :=
  if (lists key).any (ident · = ident item) then lists
  else Function.update lists key (lists key ++ [item])

variable {ident} {lists : κ → List ι} {key key' : κ} {item : ι} {o : Nat}

theorem mem_enroll_iff : o ∈ (enroll ident lists key item key').map ident ↔
    o ∈ (lists key').map ident ∨ key' = key ∧ o = ident item := by
  unfold enroll
  split
  next hany =>
    obtain ⟨item', hmem, hident⟩ := any_eq_true.mp hany
    refine ⟨.inl, fun h => h.elim id ?_⟩
    rintro ⟨rfl, rfl⟩
    exact mem_map.mpr ⟨item', hmem, of_decide_eq_true hident⟩
  · by_cases hkey : key' = key
    · subst hkey
      simp [eq_comm]
    · simp [hkey]

theorem nodup_enroll (h : ∀ key, ((lists key).map ident).Nodup) (key' : κ) :
    ((enroll ident lists key item key').map ident).Nodup := by
  unfold enroll
  split
  · exact h key'
  next hany =>
    by_cases hkey : key' = key
    · subst hkey
      rw [Function.update_self, map_append]
      refine nodup_append.mpr ⟨h key', nodup_singleton _, fun a ha b hb hab => hany ?_⟩
      obtain ⟨item', hmem, rfl⟩ := mem_map.mp ha
      have hident := hab.trans (mem_singleton.mp hb)
      exact any_eq_true.mpr ⟨item', hmem, decide_eq_true hident⟩
    · rw [Function.update_of_ne hkey]
      exact h key'

end

/-! ## Registering -/

inductive RegistrationCall where
  | subscribe (param : AutoSyncParam) (option : SubscribeOption) (observer : Option Nat)
      (answer : Int)
  | registerAutoSyncCallback (param : AutoSyncParam) (observer : Option Nat) (answer : Int)

namespace RegistrationCall

def subscribes : RegistrationCall → Option (List Char × Nat)
  | .subscribe param _ observer _ => observer.map (param.storeName, ·)
  | .registerAutoSyncCallback _ _ _ => none

def registers : RegistrationCall → Option (List Char × Nat)
  | .subscribe _ _ _ _ => none
  | .registerAutoSyncCallback param observer _ => observer.map (param.storeName, ·)

end RegistrationCall

structure ObserverMaps where
  observers : Observers
  syncObservers : SyncObservers

namespace ObserverMaps

def initial : ObserverMaps := ⟨fun _ => [], fun _ => []⟩

def step (m : ObserverMaps) : RegistrationCall → Int × ObserverMaps
  | .subscribe param option observer answer =>
    let (status, _, observers) := m.observers.subscribe param option observer answer
    (status, { m with observers })
  | .registerAutoSyncCallback param observer answer =>
    let (status, syncObservers) := m.syncObservers.registerAutoSyncCallback param observer answer
    (status, { m with syncObservers })

end ObserverMaps

open ObserverMaps (step)

def Subscribed (calls : List RegistrationCall) (name : List Char) (o : Nat) : Prop :=
  ∃ t ∈ trace step .initial calls, t.call.subscribes = some (name, o) ∧ t.ret = rdbOk

def Registered (calls : List RegistrationCall) (name : List Char) (o : Nat) : Prop :=
  ∃ t ∈ trace step .initial calls, t.call.registers = some (name, o) ∧ t.ret = rdbOk

/-! ## Events -/

structure ChangeEvent (Origin Info : Type) where
  store : List Char
  origin : Origin
  changeInfo : Info

inductive Delivery (Origin Info Details : Type) where
  | dataChange (event : ChangeEvent Origin Info)
  | syncComplete (storeName : List Char) (result : Details)

section
variable {Origin Info Details : Type} (moved : Info) (live : Nat → Bool)

def changeLoop (event : ChangeEvent Origin Info) :
    List ObserverParam → Nat → Info → List (Nat × ChangeEvent Origin Info)
  | [], _, _ => []
  | params :: value, size, info =>
    let size := size - 1
    if live params.observer then
      (params.observer, { event with changeInfo := info }) ::
        changeLoop event value size (if size > 0 then info else moved)
    else changeLoop event value size info

def onDataChange (observers : Observers) (event : ChangeEvent Origin Info) :
    List (Nat × ChangeEvent Origin Info) :=
  let value := observers (removeSuffix event.store)
  changeLoop moved live event value value.length event.changeInfo

def onSyncComplete (syncObservers : SyncObservers) (storeName : List Char) (result : Details) :
    List (Nat × Details) :=
  (syncObservers storeName).map fun it => (it.syncObserver, result)

end

structure CalledOnce {Data : Type} (called : List (Nat × Data)) (observers : Nat → Prop)
    (data : Data) : Prop where
  nodup : (called.map Prod.fst).Nodup
  mem_iff : ∀ o, o ∈ called.map Prod.fst ↔ observers o
  complete : ∀ call ∈ called, call.2 = data

section
variable {Origin Info Details : Type} (moved : Info) (live : Nat → Bool)
  (calls : List RegistrationCall)

/-- The event comes to the live observers of its store. -/
def Reaches : Delivery Origin Info Details → Prop
  | .dataChange event =>
    CalledOnce (onDataChange moved live (final step .initial calls).observers event)
      (fun o => live o ∧ Subscribed calls event.store o) event
  | .syncComplete storeName result =>
    CalledOnce (onSyncComplete (final step .initial calls).syncObservers storeName result)
      (Registered calls storeName) result

def OtherSpelling (name name' : List Char) : Prop :=
  name' = name ++ dbSuffix ∧ ¬ dbSuffix <:+ name ∨ name = name' ++ dbSuffix ∧ ¬ dbSuffix <:+ name'

def Spelled : Delivery Origin Info Details → Prop
  | .dataChange event => ∀ name o, OtherSpelling event.store name → live o →
      Subscribed calls name o → Subscribed calls event.store o
  | .syncComplete storeName _ =>
    (∀ o, Registered calls (storeName ++ dbSuffix) o → Registered calls storeName o) ∧
      (dbSuffix <:+ storeName →
        ∀ o, Registered calls storeName o → Registered calls (storeName ++ dbSuffix) o)

end

/-! ## The names -/

theorem removeSuffix_eq_iff (name key : List Char) :
    removeSuffix name = key ↔ name = key ++ dbSuffix ∨ name = key ∧ ¬ dbSuffix <:+ key := by
  by_cases h : dbSuffix <:+ name
  · obtain ⟨rest, rfl⟩ := h
    rw [removeSuffix_append]
    constructor
    · rintro rfl
      exact .inl rfl
    · rintro (h | ⟨rfl, hnot⟩)
      · exact append_cancel_right h
      · exact absurd (suffix_append rest dbSuffix) hnot
  · rw [removeSuffix_of_not_suffix h]
    constructor
    · rintro rfl
      exact .inr ⟨rfl, h⟩
    · rintro (rfl | ⟨rfl, -⟩)
      · exact absurd (suffix_append key dbSuffix) h
      · rfl

theorem removeSuffix_eq_removeSuffix_iff (name name' : List Char) :
    removeSuffix name' = removeSuffix name ↔ name' = name ∨ OtherSpelling name name' := by
  rw [removeSuffix_eq_iff]
  by_cases h : dbSuffix <:+ name
  · obtain ⟨rest, rfl⟩ := h
    rw [removeSuffix_append]
    constructor
    · rintro (rfl | ⟨rfl, hnot⟩)
      · exact .inl rfl
      · exact .inr (.inr ⟨rfl, hnot⟩)
    · rintro (rfl | ⟨-, hnot⟩ | ⟨heq, hnot⟩)
      · exact .inl rfl
      · exact absurd (suffix_append rest dbSuffix) hnot
      · exact .inr ⟨(append_cancel_right heq).symm, append_cancel_right heq ▸ hnot⟩
  · rw [removeSuffix_of_not_suffix h]
    constructor
    · rintro (rfl | ⟨rfl, -⟩)
      · exact .inr (.inl ⟨rfl, h⟩)
      · exact .inl rfl
    · rintro (rfl | ⟨rfl, -⟩ | ⟨rfl, -⟩)
      · exact .inr ⟨rfl, h⟩
      · exact .inl rfl
      · exact absurd (suffix_append name' dbSuffix) h

/-! ## What a registration does -/

theorem Observers.subscribe_cases (observers : Observers) (param : AutoSyncParam)
    (option : SubscribeOption) (observer : Option Nat) (answer : Int) :
    (∃ o, observer = some o ∧ (observers.subscribe param option observer answer).1 = rdbOk ∧
      (observers.subscribe param option observer answer).2.2 =
        enroll (·.observer) observers (removeSuffix param.storeName)
          ⟨o, param.bundleName, option⟩) ∨
    ((observers.subscribe param option observer answer).1 ≠ rdbOk ∧
      (observers.subscribe param option observer answer).2.2 = observers) := by
  have herror : rdbError ≠ rdbOk := by decide
  cases observer with
  | none => exact .inr ⟨herror, rfl⟩
  | some o =>
    unfold Observers.subscribe
    dsimp only
    split
    · exact .inr ⟨herror, rfl⟩
    · split
      · exact .inr ⟨herror, rfl⟩
      · refine .inl ⟨o, rfl, ?_⟩
        split
        next hhas => exact ⟨rfl, (if_pos hhas).symm⟩
        next hhas => exact ⟨rfl, (if_neg hhas).symm⟩

theorem SyncObservers.registerAutoSyncCallback_cases (observers : SyncObservers)
    (param : AutoSyncParam) (observer : Option Nat) (answer : Int) :
    (∃ o, observer = some o ∧ (observers.registerAutoSyncCallback param observer answer).1 = rdbOk ∧
      (observers.registerAutoSyncCallback param observer answer).2 =
        enroll (·.syncObserver) observers (removeSuffix param.storeName) ⟨o, param.bundleName⟩) ∨
    ((observers.registerAutoSyncCallback param observer answer).1 ≠ rdbOk ∧
      (observers.registerAutoSyncCallback param observer answer).2 = observers) := by
  have herror : rdbError ≠ rdbOk := by decide
  cases observer with
  | none => exact .inr ⟨herror, rfl⟩
  | some o =>
    unfold SyncObservers.registerAutoSyncCallback
    dsimp only
    split
    · exact .inr ⟨herror, rfl⟩
    · split
      next hregistered => exact .inl ⟨o, rfl, rfl, (if_pos hregistered).symm⟩
      next hregistered =>
        split
        next hanswer => exact .inl ⟨o, rfl, hanswer, (if_neg hregistered).symm⟩
        next hanswer => exact .inr ⟨hanswer, rfl⟩

namespace ObserverMaps
variable {m : ObserverMaps} {key : List Char} {o : Nat}

theorem mem_observers_step (m : ObserverMaps) (c : RegistrationCall) :
    o ∈ ((step m c).2.observers key).map (·.observer) ↔
      o ∈ (m.observers key).map (·.observer) ∨
        ∃ name, c.subscribes = some (name, o) ∧ (step m c).1 = rdbOk ∧ removeSuffix name = key := by
  cases c with
  | registerAutoSyncCallback =>
    exact ⟨.inl, fun h => h.elim id fun ⟨_, hnone, _⟩ => nomatch hnone⟩
  | subscribe param option observer answer =>
    rcases m.observers.subscribe_cases param option observer answer with
      ⟨o', rfl, hok, henroll⟩ | ⟨hne, hsame⟩
    · simp only [step, henroll, mem_enroll_iff, hok, RegistrationCall.subscribes, Option.map_some,
        Option.some.injEq, Prod.mk.injEq, true_and]
      refine or_congr_right ?_
      constructor
      · rintro ⟨rfl, rfl⟩
        exact ⟨_, ⟨rfl, rfl⟩, rfl⟩
      · rintro ⟨name, ⟨rfl, rfl⟩, rfl⟩
        exact ⟨rfl, rfl⟩
    · simp only [step, hsame, hne, false_and, and_false, exists_const, or_false]

theorem mem_syncObservers_step (m : ObserverMaps) (c : RegistrationCall) :
    o ∈ ((step m c).2.syncObservers key).map (·.syncObserver) ↔
      o ∈ (m.syncObservers key).map (·.syncObserver) ∨
        ∃ name, c.registers = some (name, o) ∧ (step m c).1 = rdbOk ∧ removeSuffix name = key := by
  cases c with
  | subscribe => exact ⟨.inl, fun h => h.elim id fun ⟨_, hnone, _⟩ => nomatch hnone⟩
  | registerAutoSyncCallback param observer answer =>
    rcases m.syncObservers.registerAutoSyncCallback_cases param observer answer with
      ⟨o', rfl, hok, henroll⟩ | ⟨hne, hsame⟩
    · simp only [step, henroll, mem_enroll_iff, hok, RegistrationCall.registers, Option.map_some,
        Option.some.injEq, Prod.mk.injEq, true_and]
      refine or_congr_right ?_
      constructor
      · rintro ⟨rfl, rfl⟩
        exact ⟨_, ⟨rfl, rfl⟩, rfl⟩
      · rintro ⟨name, ⟨rfl, rfl⟩, rfl⟩
        exact ⟨rfl, rfl⟩
    · simp only [step, hsame, hne, false_and, and_false, exists_const, or_false]

structure Distinct (m : ObserverMaps) : Prop where
  observers : ∀ key, ((m.observers key).map (·.observer)).Nodup
  syncObservers : ∀ key, ((m.syncObservers key).map (·.syncObserver)).Nodup

theorem Distinct.step (h : m.Distinct) (c : RegistrationCall) : (step m c).2.Distinct := by
  cases c with
  | subscribe param option observer answer =>
    refine ⟨fun key => ?_, h.syncObservers⟩
    rcases m.observers.subscribe_cases param option observer answer with
      ⟨o, rfl, -, henroll⟩ | ⟨-, hsame⟩
    · simp only [ObserverMaps.step, henroll]
      exact nodup_enroll h.observers key
    · simp only [ObserverMaps.step, hsame]
      exact h.observers key
  | registerAutoSyncCallback param observer answer =>
    refine ⟨h.observers, fun key => ?_⟩
    rcases m.syncObservers.registerAutoSyncCallback_cases param observer answer with
      ⟨o, rfl, -, henroll⟩ | ⟨-, hsame⟩
    · simp only [ObserverMaps.step, henroll]
      exact nodup_enroll h.syncObservers key
    · simp only [ObserverMaps.step, hsame]
      exact h.syncObservers key

variable (calls : List RegistrationCall)

theorem distinct_final : (final step initial calls).Distinct :=
  final_inv (G := fun _ _ => True) (fun _ c h _ => h.step c) ⟨fun _ => .nil, fun _ => .nil⟩
    fun _ _ => trivial

theorem mem_observers_final :
    o ∈ ((final step initial calls).observers key).map (·.observer) ↔
      ∃ name, Subscribed calls name o ∧ removeSuffix name = key := by
  refine (final_iff_exists (I := fun m => o ∈ (m.observers key).map (·.observer))
    (P := fun t => ∃ name, t.call.subscribes = some (name, o) ∧ t.ret = rdbOk ∧
      removeSuffix name = key) mem_observers_step initial calls).trans ?_
  constructor
  · rintro (hnil | ⟨t, ht, name, hcall, hret, hkey⟩)
    · exact nomatch hnil
    · exact ⟨name, ⟨t, ht, hcall, hret⟩, hkey⟩
  · rintro ⟨name, ⟨t, ht, hcall, hret⟩, hkey⟩
    exact .inr ⟨t, ht, name, hcall, hret, hkey⟩

theorem mem_syncObservers_final :
    o ∈ ((final step initial calls).syncObservers key).map (·.syncObserver) ↔
      ∃ name, Registered calls name o ∧ removeSuffix name = key := by
  refine (final_iff_exists (I := fun m => o ∈ (m.syncObservers key).map (·.syncObserver))
    (P := fun t => ∃ name, t.call.registers = some (name, o) ∧ t.ret = rdbOk ∧
      removeSuffix name = key) mem_syncObservers_step initial calls).trans ?_
  constructor
  · rintro (hnil | ⟨t, ht, name, hcall, hret, hkey⟩)
    · exact nomatch hnil
    · exact ⟨name, ⟨t, ht, hcall, hret⟩, hkey⟩
  · rintro ⟨name, ⟨t, ht, hcall, hret⟩, hkey⟩
    exact .inr ⟨t, ht, name, hcall, hret, hkey⟩

end ObserverMaps

/-! ## What an event does -/

section
variable {Origin Info Details : Type}

theorem changeLoop_eq (moved : Info) (live : Nat → Bool) (event : ChangeEvent Origin Info)
    (value : List ObserverParam) (info : Info) :
    changeLoop moved live event value value.length info =
      (value.filter (live ·.observer)).map fun params =>
        (params.observer, { event with changeInfo := info }) := by
  induction value with
  | nil => rfl
  | cons params value ih =>
    rw [changeLoop, length_cons, Nat.add_sub_cancel, ih]
    cases hlive : live params.observer with
    | false => simp [hlive]
    | true =>
      have hfilter : (params :: value).filter (live ·.observer) =
          params :: value.filter (live ·.observer) := filter_cons_of_pos hlive
      rw [hfilter, map_cons, if_pos rfl]
      cases value with
      | nil => rfl
      | cons params' value => rw [if_pos (length_pos_of_mem mem_cons_self), ih]

end

end RelationalStore
