import RelationalStore.Rdb.Paths

/-! # Observers of automatic synchronisations

The observers of a store are in a list; the service is asked for each that is added or removed. -/

namespace RelationalStore

def rdbOk : Int := 0

def rdbError : Int := 1

structure AutoSyncObserver where
  syncObserver : Nat
  bundleName : String
  deriving DecidableEq

abbrev SyncObservers := List Char → List AutoSyncObserver

structure AutoSyncParam where
  storeName : List Char
  bundleName : String

namespace SyncObservers

def isRegistered (observers : SyncObservers) (param : AutoSyncParam) (observer : Nat) : Bool :=
  (observers (SqliteUtils.removeSuffix param.storeName)).any (·.syncObserver = observer)

def registerAutoSyncCallback (observers : SyncObservers) (param : AutoSyncParam)
    (observer : Option Nat) (answer : Int) : Int × SyncObservers :=
  match observer with
  | none => (rdbError, observers)
  | some observer =>
    if param.storeName = [] then (rdbError, observers)
    else
      let name := SqliteUtils.removeSuffix param.storeName
      if observers.isRegistered param observer then (rdbOk, observers)
      else if answer = rdbOk then
        (answer, Function.update observers name (observers name ++ [⟨observer, param.bundleName⟩]))
      else (answer, observers)

def unregisterLoop (answers : Nat → Int) (observer : Nat) :
    Nat → List AutoSyncObserver → List AutoSyncObserver → Nat → Int →
      Option (Int × List AutoSyncObserver)
  | _, before, [], _, status => some (status, before)
  | 0, _, _ :: _, _, _ => none
  | fuel + 1, before, o :: rest, requests, status =>
    if o.syncObserver ≠ observer then
      unregisterLoop answers observer fuel (before ++ [o]) rest requests status
    else if answers requests = rdbOk then
      unregisterLoop answers observer fuel before rest (requests + 1) (answers requests)
    -- the iterator stays where it is
    else unregisterLoop answers observer fuel before (o :: rest) (requests + 1) (answers requests)

def unregisterAutoSyncCallback (fuel : Nat) (observers : SyncObservers) (param : AutoSyncParam)
    (observer : Option Nat) (answers : Nat → Int) : Option (Int × SyncObservers) :=
  match observer with
  | none => some (rdbError, observers)
  | some observer =>
    if param.storeName = [] then some (rdbError, observers)
    else
      let name := SqliteUtils.removeSuffix param.storeName
      (unregisterLoop answers observer fuel [] (observers name) 0 rdbOk).map fun (status, list) =>
        (status, Function.update observers name list)

/-- The call returns, and its result says what has become of the observer. -/
def Unregisters (observers : SyncObservers) (param : AutoSyncParam) (observer : Option Nat)
    (answers : Nat → Int) : Prop :=
  ∃ fuel status after, unregisterAutoSyncCallback fuel observers param observer answers =
      some (status, after) ∧
    (status = rdbOk → ∀ o ∈ observer, after.isRegistered param o = false) ∧
    (status ≠ rdbOk → after = observers)

def successes (answers : Nat → Int) : Nat → Nat → Nat
  | _, 0 => 0
  | k, m + 1 => (if answers k = rdbOk then 1 else 0) + successes answers (k + 1) m

def registrations (list : List AutoSyncObserver) (observer : Nat) : Nat :=
  list.countP (·.syncObserver = observer)

variable {answers : Nat → Int} {observer fuel k m : Nat} {status status' : Int}
  {o : AutoSyncObserver} {before rest after : List AutoSyncObserver}

theorem registrations_cons_of_eq (h : o.syncObserver = observer) :
    registrations (o :: rest) observer = registrations rest observer + 1 :=
  List.countP_cons_of_pos (by simpa using h)

theorem registrations_cons_of_ne (h : o.syncObserver ≠ observer) :
    registrations (o :: rest) observer = registrations rest observer :=
  List.countP_cons_of_neg (by simpa using h)

/-! ## The loop -/

theorem unregisterLoop_eq_some
    (h : unregisterLoop answers observer fuel before rest k status = some (status', after)) :
    after = before ++ rest.filter (·.syncObserver ≠ observer) ∧
      (status' = rdbOk ∨ status' = status ∧ registrations rest observer = 0) := by
  induction fuel generalizing before rest k status with
  | zero =>
    cases rest with
    | nil =>
      cases h
      exact ⟨by simp, .inr ⟨rfl, rfl⟩⟩
    | cons o rest => exact nomatch h
  | succ fuel ih =>
    cases rest with
    | nil =>
      cases h
      exact ⟨by simp, .inr ⟨rfl, rfl⟩⟩
    | cons o rest =>
      rw [unregisterLoop] at h
      split at h
      next hne =>
        rw [registrations_cons_of_ne hne]
        obtain ⟨rfl, hstatus⟩ := ih h
        exact ⟨by simp [hne], hstatus⟩
      next heq =>
        split at h
        next hok =>
          obtain ⟨rfl, hstatus⟩ := ih h
          exact ⟨by simp [heq], .inl (hstatus.elim id fun hkept => hkept.1.trans hok)⟩
        · obtain ⟨rfl, hstatus⟩ := ih h
          refine ⟨rfl, .inl (hstatus.resolve_right fun hkept => ?_)⟩
          rw [registrations_cons_of_eq (not_not.mp heq)] at hkept
          exact nomatch hkept.2

theorem successes_of_unregisterLoop
    (h : unregisterLoop answers observer fuel before rest k status = some r) :
    ∃ m, registrations rest observer ≤ successes answers k m := by
  induction fuel generalizing before rest k status with
  | zero =>
    cases rest with
    | nil => exact ⟨0, Nat.le_refl 0⟩
    | cons o rest => exact nomatch h
  | succ fuel ih =>
    cases rest with
    | nil => exact ⟨0, Nat.le_refl 0⟩
    | cons o rest =>
      rw [unregisterLoop] at h
      split at h
      next hne =>
        rw [registrations_cons_of_ne hne]
        exact ih h
      next heq =>
        split at h
        all_goals
          rename_i hanswer
          obtain ⟨m, hm⟩ := ih h
          refine ⟨m + 1, ?_⟩
          rw [successes]
        · rw [registrations_cons_of_eq (not_not.mp heq), if_pos hanswer, Nat.add_comm]
          exact Nat.add_le_add_left hm 1
        · rw [if_neg hanswer, Nat.zero_add]
          exact hm

theorem unregisterLoop_of_successes (before : List AutoSyncObserver) (status : Int)
    (h : registrations rest observer ≤ successes answers k m) :
    ∃ fuel r, unregisterLoop answers observer fuel before rest k status = some r := by
  induction hn : m + rest.length using Nat.strong_induction_on
    generalizing before rest k m status with
  | h n ih =>
    subst hn
    cases rest with
    | nil => exact ⟨0, _, rfl⟩
    | cons o rest =>
      by_cases heq : o.syncObserver = observer
      · cases m with
        | zero =>
          rw [registrations_cons_of_eq heq] at h
          exact absurd h (Nat.not_succ_le_zero _)
        | succ m =>
          rw [successes] at h
          by_cases hanswer : answers k = rdbOk
          · rw [if_pos hanswer, registrations_cons_of_eq heq, Nat.add_comm] at h
            obtain ⟨fuel, r, hr⟩ := ih (m + rest.length) (by simp; omega) before
              (answers k) (Nat.le_of_add_le_add_left h) rfl
            refine ⟨fuel + 1, r, ?_⟩
            rw [unregisterLoop, if_neg (not_not.mpr heq), if_pos hanswer, hr]
          · rw [if_neg hanswer, Nat.zero_add] at h
            obtain ⟨fuel, r, hr⟩ := ih (m + (o :: rest).length) (by simp) before
              (answers k) h rfl
            refine ⟨fuel + 1, r, ?_⟩
            rw [unregisterLoop, if_neg (not_not.mpr heq), if_neg hanswer, hr]
      · rw [registrations_cons_of_ne heq] at h
        obtain ⟨fuel, r, hr⟩ := ih (m + rest.length) (by simp) (before ++ [o]) status
          h rfl
        exact ⟨fuel + 1, r, by rw [unregisterLoop, if_pos heq, hr]⟩

/-! ## The call -/

variable {observers : SyncObservers} {param : AutoSyncParam}

theorem unregisters_some_iff (hname : param.storeName ≠ []) :
    Unregisters observers param (some observer) answers ↔
      ∃ m, registrations (observers (SqliteUtils.removeSuffix param.storeName)) observer ≤
        successes answers 0 m := by
  have hcall (fuel : Nat) :
      unregisterAutoSyncCallback fuel observers param (some observer) answers =
      (unregisterLoop answers observer fuel []
        (observers (SqliteUtils.removeSuffix param.storeName)) 0 rdbOk).map fun (status, list) =>
          (status, Function.update observers (SqliteUtils.removeSuffix param.storeName) list) :=
    if_neg hname
  constructor
  · rintro ⟨fuel, status, after, hsome, -⟩
    rw [hcall] at hsome
    obtain ⟨r, hr, -⟩ := Option.map_eq_some_iff.mp hsome
    exact successes_of_unregisterLoop hr
  · rintro ⟨m, hm⟩
    obtain ⟨fuel, ⟨status, list⟩, hr⟩ :=
      unregisterLoop_of_successes [] rdbOk hm
    obtain ⟨rfl, hstatus⟩ := unregisterLoop_eq_some hr
    have hok : status = rdbOk := hstatus.elim id And.left
    refine ⟨fuel, status, _, by rw [hcall, hr]; rfl, fun _ o ho => ?_, fun herr => absurd hok herr⟩
    cases ho
    simp [isRegistered]

theorem unregisters_iff (observers : SyncObservers) (param : AutoSyncParam) (observer : Option Nat)
    (answers : Nat → Int) :
    Unregisters observers param observer answers ↔
      ∀ o ∈ observer, param.storeName ≠ [] →
        ∃ m, registrations (observers (SqliteUtils.removeSuffix param.storeName)) o ≤
          successes answers 0 m := by
  -- wrong arguments are refused at once
  have hrefused (hcall : unregisterAutoSyncCallback 0 observers param observer answers =
      some (rdbError, observers)) : Unregisters observers param observer answers :=
    ⟨0, rdbError, observers, hcall, fun h => absurd h (by decide), fun _ => rfl⟩
  cases observer with
  | none => exact iff_of_true (hrefused rfl) fun _ h => nomatch h
  | some observer =>
    by_cases hname : param.storeName = []
    · exact iff_of_true (hrefused (if_pos hname)) fun _ _ h => absurd hname h
    · rw [unregisters_some_iff hname]
      simp [hname]

theorem unregister_retries_forever :
    let param : AutoSyncParam := ⟨"a.db".toList, "b"⟩
    let observers := (registerAutoSyncCallback (fun _ => []) param (some 1) rdbOk).2
    ¬ Unregisters observers param (some 1) fun _ => rdbError := by
  intro param observers h
  obtain ⟨m, hm⟩ := (unregisters_some_iff (by decide)).mp h
  have hnone (k m : Nat) : successes (fun _ => rdbError) k m = 0 := by
    induction m generalizing k with
    | zero => rfl
    | succ m ih => rw [successes, ih]; rfl
  rw [hnone] at hm
  revert hm
  decide

end SyncObservers

end RelationalStore
