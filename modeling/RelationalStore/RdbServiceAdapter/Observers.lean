import Mathlib.Data.List.Nodup
import RelationalStore.Theory.Run
import RelationalStore.RdbServiceAdapter.AutoSync

/-! # Observers of data changes

`Subscribe` asks the service before it looks into the list; `UnSubscribe` does not look there. -/

namespace RelationalStore

open List
open SqliteUtils (removeSuffix dbSuffix)

inductive SubscribeMode where
  | remote
  | cloud
  | cloudDetail
  | localData
  | localShared
  | localDetail
  | max
  deriving DecidableEq

structure SubscribeOption where
  mode : SubscribeMode
  event : String
  deriving DecidableEq

structure ObserverParam where
  observer : Nat
  bundleName : String
  subscribeOption : SubscribeOption
  deriving DecidableEq

abbrev Observers := List Char → List ObserverParam

namespace Observers

def has (observers : Observers) (name : List Char) (observer : Nat) : Bool :=
  (observers name).any (·.observer = observer)

def subscribe (observers : Observers) (param : AutoSyncParam) (option : SubscribeOption)
    (observer : Option Nat) (answer : Int) : Int × Bool × Observers :=
  match observer with
  | none => (rdbError, false, observers)
  | some observer =>
    if option.mode = .max then (rdbError, false, observers)
    else if answer ≠ rdbOk then (rdbError, true, observers)
    else
      let name := removeSuffix param.storeName
      if observers.has name observer then (rdbOk, true, observers)
      else
        (rdbOk, true, Function.update observers name
          (observers name ++ [⟨observer, param.bundleName, option⟩]))

def unSubscribe (observers : Observers) (param : AutoSyncParam) (observer : Option Nat)
    (answer : Int) : Int × Bool × Observers :=
  match observer with
  | none => (rdbError, false, observers)
  | some observer =>
    if answer ≠ rdbOk then (rdbError, true, observers)
    else
      let name := removeSuffix param.storeName
      (rdbOk, true,
        Function.update observers name ((observers name).filter (·.observer ≠ observer)))

end Observers

/-! ## The requests that the service accepted -/

inductive SubscriptionCall where
  | subscribe (observer : Option Nat) (answer : Int)
  | unSubscribe (observer : Option Nat) (answer : Int)

structure Subscriptions where
  observers : Observers
  subscribed : Nat
  unsubscribed : Nat

namespace Subscriptions

def initial : Subscriptions := ⟨fun _ => [], 0, 0⟩

section
variable (param : AutoSyncParam) (option : SubscribeOption)

def step (s : Subscriptions) : SubscriptionCall → Int × Subscriptions
  | .subscribe observer answer =>
    let (status, sent, observers) := s.observers.subscribe param option observer answer
    (status, ⟨observers, if sent ∧ answer = rdbOk then s.subscribed + 1 else s.subscribed,
      s.unsubscribed⟩)
  | .unSubscribe observer answer =>
    let (status, sent, observers) := s.observers.unSubscribe param observer answer
    (status, ⟨observers, s.subscribed,
      if sent ∧ answer = rdbOk then s.unsubscribed + 1 else s.unsubscribed⟩)

def list (s : Subscriptions) : List ObserverParam := s.observers (removeSuffix param.storeName)

structure Counted (s : Subscriptions) : Prop where
  balance : (s.subscribed : Int) - s.unsubscribed = (s.list param).length
  notified : s.unsubscribed < s.subscribed ↔ s.list param ≠ []

/-- An accepted request adds an observer that is not in the list, or removes one that is. -/
def Fits (s : Subscriptions) : SubscriptionCall → Prop
  | .subscribe observer answer => ∀ o ∈ observer, option.mode ≠ .max → answer = rdbOk →
      s.observers.has (removeSuffix param.storeName) o = false
  | .unSubscribe observer answer => ∀ o ∈ observer, answer = rdbOk →
      s.observers.has (removeSuffix param.storeName) o

end

variable {param : AutoSyncParam} {option : SubscribeOption} {s : Subscriptions} {o : Nat}
  {answer : Int}

theorem counted_iff (param : AutoSyncParam) (s : Subscriptions) :
    s.Counted param ↔ (s.subscribed : Int) - s.unsubscribed = (s.list param).length := by
  refine ⟨Counted.balance, fun h => ⟨h, ?_⟩⟩
  rw [← length_pos_iff]
  omega

structure Inv (param : AutoSyncParam) (s : Subscriptions) : Prop where
  counted : s.Counted param
  nodup : ((s.list param).map (·.observer)).Nodup

theorem inv_initial (param : AutoSyncParam) : Inv param initial :=
  ⟨(counted_iff param initial).mpr rfl, .nil⟩

theorem has_iff : s.observers.has (removeSuffix param.storeName) o ↔
    o ∈ (s.list param).map (·.observer) := by
  simp [Observers.has, list]

theorem length_filter_add_count (list : List ObserverParam) (o : Nat) :
    (list.filter (·.observer ≠ o)).length + (list.map (·.observer)).count o = list.length := by
  induction list with
  | nil => rfl
  | cons p list ih =>
    simp only [ne_eq] at ih
    by_cases heq : p.observer = o
    · simp only [heq, filter_cons, ne_eq, not_true, decide_false, Bool.false_eq_true, if_false,
        map_cons, count_cons_self, length_cons]
      omega
    · simp only [heq, filter_cons, ne_eq, not_false_eq_true, decide_true, if_true,
        map_cons, count_cons_of_ne heq, length_cons]
      omega

/-! One lemma for each way that a call can go. -/

theorem step_subscribe_new (hmode : option.mode ≠ .max)
    (hnew : s.observers.has (removeSuffix param.storeName) o = false) :
    (step param option s (.subscribe (some o) rdbOk)).2 =
      ⟨Function.update s.observers (removeSuffix param.storeName)
        (s.list param ++ [⟨o, param.bundleName, option⟩]), s.subscribed + 1, s.unsubscribed⟩ := by
  simp [step, Observers.subscribe, hmode, hnew, list]

theorem step_subscribe_again (hmode : option.mode ≠ .max)
    (hold : s.observers.has (removeSuffix param.storeName) o) :
    (step param option s (.subscribe (some o) rdbOk)).2 =
      { s with subscribed := s.subscribed + 1 } := by
  simp [step, Observers.subscribe, hmode, hold]

theorem step_subscribe_refused (h : ∀ o ∈ observer, option.mode ≠ .max → answer ≠ rdbOk) :
    (step param option s (.subscribe observer answer)).2 = s := by
  cases observer with
  | none => rfl
  | some o =>
    by_cases hmode : option.mode = .max
    · simp [step, Observers.subscribe, hmode]
    · simp [step, Observers.subscribe, hmode, h o rfl hmode]

theorem step_unSubscribe (s : Subscriptions) (o : Nat) :
    (step param option s (.unSubscribe (some o) rdbOk)).2 =
      ⟨Function.update s.observers (removeSuffix param.storeName)
        ((s.list param).filter (·.observer ≠ o)), s.subscribed, s.unsubscribed + 1⟩ := by
  simp [step, Observers.unSubscribe, list]

theorem step_unSubscribe_refused (h : ∀ o ∈ observer, answer ≠ rdbOk) :
    (step param option s (.unSubscribe observer answer)).2 = s := by
  cases observer with
  | none => rfl
  | some o => simp [step, Observers.unSubscribe, h o rfl]

theorem Inv.counted_step_iff (h : Inv param s) (c : SubscriptionCall) :
    (step param option s c).2.Counted param ↔ s.Fits param option c := by
  have hbalance := h.counted.balance
  cases c with
  | subscribe observer answer =>
    by_cases hrefused : ∀ o ∈ observer, option.mode ≠ .max → answer ≠ rdbOk
    · rw [step_subscribe_refused hrefused]
      exact iff_of_true h.counted fun o ho hmode hok => absurd hok (hrefused o ho hmode)
    · push Not at hrefused
      obtain ⟨o, rfl, hmode, rfl⟩ := hrefused
      have hfits : s.Fits param option (.subscribe (some o) rdbOk) ↔
          s.observers.has (removeSuffix param.storeName) o = false :=
        ⟨fun hfits => hfits o rfl hmode rfl, fun hnew o' ho' _ _ => Option.some.inj ho' ▸ hnew⟩
      rw [hfits, counted_iff]
      cases hhas : s.observers.has (removeSuffix param.storeName) o with
      | true =>
        rw [step_subscribe_again hmode hhas]
        refine iff_of_false (fun hcount => ?_) (by decide)
        simp only [list] at hcount hbalance
        omega
      | false =>
        rw [step_subscribe_new hmode hhas]
        refine iff_of_true ?_ rfl
        simp only [list, Function.update_self, length_append, length_singleton]
        simp only [list] at hbalance
        omega
  | unSubscribe observer answer =>
    by_cases hrefused : ∀ o ∈ observer, answer ≠ rdbOk
    · rw [step_unSubscribe_refused hrefused]
      exact iff_of_true h.counted fun o ho hok => absurd hok (hrefused o ho)
    · push Not at hrefused
      obtain ⟨o, rfl, rfl⟩ := hrefused
      have hfits : s.Fits param option (.unSubscribe (some o) rdbOk) ↔
          s.observers.has (removeSuffix param.storeName) o :=
        ⟨fun hfits => hfits o rfl rfl, fun hold o' ho' _ => Option.some.inj ho' ▸ hold⟩
      have hcount := length_filter_add_count (s.list param) o
      rw [hfits, counted_iff, step_unSubscribe, has_iff, ← List.count_pos_iff]
      have hle := nodup_iff_count_le_one.mp h.nodup o
      simp only [list, Function.update_self] at hbalance hcount hle ⊢
      omega

theorem Inv.step (h : Inv param s) (hfits : s.Fits param option c) :
    Inv param (step param option s c).2 := by
  refine ⟨(h.counted_step_iff c).mpr hfits, ?_⟩
  cases c with
  | subscribe observer answer =>
    by_cases hrefused : ∀ o ∈ observer, option.mode ≠ .max → answer ≠ rdbOk
    · rw [step_subscribe_refused hrefused]
      exact h.nodup
    · push Not at hrefused
      obtain ⟨o, rfl, hmode, rfl⟩ := hrefused
      have hnew := hfits o rfl hmode rfl
      have hnot : o ∉ (s.list param).map (·.observer) := fun hmem =>
        Bool.false_ne_true (hnew.symm.trans (has_iff.mpr hmem))
      rw [step_subscribe_new hmode hnew]
      simp only [list, Function.update_self, map_append, map_cons, map_nil]
      exact nodup_append.mpr ⟨h.nodup, nodup_singleton o, fun a ha b hb hab =>
        hnot (mem_singleton.mp hb ▸ hab ▸ ha)⟩
  | unSubscribe observer answer =>
    by_cases hrefused : ∀ o ∈ observer, answer ≠ rdbOk
    · rw [step_unSubscribe_refused hrefused]
      exact h.nodup
    · push Not at hrefused
      obtain ⟨o, rfl, rfl⟩ := hrefused
      rw [step_unSubscribe]
      simp only [list, Function.update_self]
      exact h.nodup.sublist (filter_sublist.map _)

theorem counted_iff_fits (param : AutoSyncParam) (option : SubscribeOption)
    (calls : List SubscriptionCall) :
    (∀ t ∈ trace (step param option) initial calls, t.post.Counted param) ↔
      ∀ t ∈ trace (step param option) initial calls, t.pre.Fits param option t.call :=
  trace_forall_iff (fun _ _ h hfits => h.step hfits) (fun _ c h => h.counted_step_iff c)
    (inv_initial param)

theorem subscribed_twice :
    let param : AutoSyncParam := ⟨"a.db".toList, "b"⟩
    let s := final (step param ⟨.cloud, ""⟩) initial [.subscribe (some 1) rdbOk,
      .subscribe (some 1) rdbOk, .unSubscribe (some 1) rdbOk]
    s.subscribed = 2 ∧ s.unsubscribed = 1 ∧ s.list param = [] ∧ ¬ s.Counted param := by
  refine ⟨by decide, by decide, by decide, fun h => ?_⟩
  exact absurd h.balance (by decide)

end Subscriptions

end RelationalStore
