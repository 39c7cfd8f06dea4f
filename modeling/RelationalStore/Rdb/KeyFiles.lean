import Mathlib.Data.Fintype.Basic
import RelationalStore.Theory.Flock
import RelationalStore.Theory.Run

/-! # The lock of the key files

The key files of a database are guarded by a lock file, which may be removed after its use. -/

namespace RelationalStore

inductive KeyFilesPc where
  | outside
  | opened
  | critical
  | unlocked
  | closed
  deriving DecidableEq

structure KeyFilesUser where
  pc : KeyFilesPc
  delAll : Bool
  lockFd : Option Nat
  deriving DecidableEq

namespace KeyFilesUser

def InCritical (u : KeyFilesUser) : Prop := u.pc = .critical
  deriving Decidable

def heldFd (u : KeyFilesUser) : Option Nat :=
  if u.pc = .opened ∨ u.pc = .critical then u.lockFd else none

end KeyFilesUser

structure KeyFilesState (π : Type) where
  file : LockFile π
  user : π → KeyFilesUser

inductive KeyFilesStep (π : Type) where
  | initLockPath (p : π) (delAll ok : Bool)
  | flock (p : π) (ok : Bool)
  | unlock (p : π) (ok : Bool)
  | close (p : π)
  | deleteLock (p : π)

namespace KeyFilesState
variable {π : Type} [DecidableEq π]

def initial (named : Option Nat) : KeyFilesState π :=
  ⟨⟨named, (named.map (· + 1)).getD 0, fun _ => none⟩, fun _ => ⟨.outside, false, none⟩⟩

variable (s : KeyFilesState π)

def setUser (p : π) (u : KeyFilesUser) : KeyFilesState π :=
  { s with user := Function.update s.user p u }

def initLockPath (p : π) (delAll ok : Bool) : KeyFilesState π :=
  if ok then
    { s with file := s.file.openCreate.2 }.setUser p ⟨.opened, delAll, some s.file.openCreate.1⟩
  else s.setUser p ⟨.critical, delAll, none⟩

def flock (p : π) (ino : Nat) (ok : Bool) : KeyFilesState π :=
  if ok then
    match s.file.lock p ino with
    | some file => { s with file }.setUser p { s.user p with pc := .critical }
    | none => s
  else s.setUser p { s.user p with pc := .critical }

def unlock (s : KeyFilesState π) (p : π) (ok : Bool) : KeyFilesState π :=
  let s' := s.setUser p { s.user p with pc := .unlocked }
  match (s.user p).lockFd with
  | some ino => if ok then { s' with file := s.file.unlock p ino } else s'
  | none => s'

def close (p : π) : KeyFilesState π :=
  let s' := s.setUser p ⟨if (s.user p).delAll then .closed else .outside, (s.user p).delAll, none⟩
  match (s.user p).lockFd with
  | some ino => { s' with file := s.file.unlock p ino }
  | none => s'

def deleteLock (p : π) : KeyFilesState π :=
  { s with file := s.file.unlink }.setUser p ⟨.outside, false, none⟩

def step : KeyFilesStep π → Unit × KeyFilesState π
  | .initLockPath p delAll ok =>
    ((), if (s.user p).pc = .outside then s.initLockPath p delAll ok else s)
  | .flock p ok =>
    ((), match (s.user p).pc, (s.user p).lockFd with
      | .opened, some ino => s.flock p ino ok
      | _, _ => s)
  | .unlock p ok => ((), if (s.user p).pc = .critical then s.unlock p ok else s)
  | .close p => ((), if (s.user p).pc = .unlocked then s.close p else s)
  | .deleteLock p => ((), if (s.user p).pc = .closed then s.deleteLock p else s)

end KeyFilesState

/-- At most one process works on the key files. -/
def KeyFilesState.MutuallyExclusive {π : Type} (s : KeyFilesState π) : Prop :=
  ∀ p q, (s.user p).InCritical → (s.user q).InCritical → p = q

/-- The opens and the `flock`s of the step succeed. -/
def KeyFilesStep.Locks {π : Type} : KeyFilesStep π → Prop
  | .initLockPath _ _ ok => ok
  | .flock _ ok => ok
  | _ => True

/-- The lock file is removed only when no process has it open before its `Unlock`. -/
def KeyFilesStep.UnlinksUnused {π : Type} (s : KeyFilesState π) : KeyFilesStep π → Prop
  | .deleteLock p => (s.user p).pc = .closed → ∀ q, (s.user q).heldFd = none
  | _ => True

instance {π : Type} (c : KeyFilesStep π) : Decidable c.Locks :=
  match c with
  | .initLockPath _ _ ok | .flock _ ok => inferInstanceAs (Decidable (ok))
  | .unlock .. | .close _ | .deleteLock _ => .isTrue trivial

instance {π : Type} [Fintype π] (s : KeyFilesState π) (c : KeyFilesStep π) :
    Decidable (c.UnlinksUnused s) :=
  match c with
  | .deleteLock p => inferInstanceAs (Decidable ((s.user p).pc = .closed → ∀ _, _ = none))
  | .initLockPath .. | .flock .. | .unlock .. | .close _ => .isTrue trivial

namespace KeyFilesState
variable {π : Type} [DecidableEq π] {s : KeyFilesState π} {p : π}

def Guarded (s : KeyFilesState π) : Prop :=
  s.file.Exclusive (fun p => (s.user p).heldFd) (fun p => (s.user p).InCritical)

omit [DecidableEq π] in
theorem Guarded.mutuallyExclusive (H : s.Guarded) : s.MutuallyExclusive :=
  fun _ _ hp hq => H.exclusion hp hq

omit [DecidableEq π] in
theorem initial_guarded (named : Option Nat) : (initial named : KeyFilesState π).Guarded :=
  ⟨nofun, nofun⟩

@[simp] theorem setUser_self : (s.setUser p u).user p = u :=
  Function.update_self ..

theorem setUser_of_ne (h : q ≠ p) : (s.setUser p u).user q = s.user q :=
  Function.update_of_ne h ..

section
variable (H : s.Guarded)
include H

theorem Guarded.leave (hu : u.heldFd = none) (hin : ¬ u.InCritical) : (s.setUser p u).Guarded := by
  apply LockFile.Exclusive.mono H
  · intro q
    by_cases hq : q = p
    · subst hq
      simp [hu, hin]
    · simp [setUser_of_ne hq]
  · intro q h
    by_cases hq : q = p
    · subst hq
      rw [setUser_self] at h
      exact absurd h hin
    · rwa [setUser_of_ne hq] at h

theorem Guarded.initLockPath (delAll : Bool) :
    (s.initLockPath p delAll true).Guarded := by
  apply LockFile.Exclusive.openCreate (p := p) H
  · simp [KeyFilesState.initLockPath, KeyFilesUser.heldFd]
  · intro q hq
    simp [KeyFilesState.initLockPath, setUser_of_ne hq]
  · intro q h
    by_cases hq : q = p
    · subst hq
      simp [KeyFilesState.initLockPath, KeyFilesUser.InCritical] at h
    · refine ⟨hq, ?_⟩
      simpa [KeyFilesState.initLockPath, setUser_of_ne hq] using h

theorem Guarded.flock (hpc : (s.user p).pc = .opened) (hfd : (s.user p).lockFd = some ino) :
    (s.flock p ino true).Guarded := by
  simp only [KeyFilesState.flock, if_true]
  split
  next file hlock =>
    have hsame : (fun q => (({ s with file }.setUser p
        { s.user p with pc := .critical }).user q).heldFd) = fun q => (s.user q).heldFd := by
      funext q
      by_cases hq : q = p
      · subst hq
        simp [KeyFilesUser.heldFd, hpc]
      · simp [setUser_of_ne hq]
    rw [Guarded, hsame]
    apply LockFile.Exclusive.lock H hlock
    · simp [KeyFilesUser.heldFd, hpc, hfd]
    · intro q h
      by_cases hq : q = p
      · exact .inl hq
      · rw [setUser_of_ne hq] at h
        exact .inr h
  next => exact H

theorem Guarded.giveBack (hin : ¬ (s.user p).InCritical) (ino : Nat) :
    ({ s with file := s.file.unlock p ino } : KeyFilesState π).Guarded :=
  LockFile.Exclusive.unlock H hin

theorem Guarded.unlock (ok : Bool) : (s.unlock p ok).Guarded := by
  have hleft : (s.setUser p { s.user p with pc := .unlocked }).Guarded :=
    H.leave (by simp [KeyFilesUser.heldFd]) (by simp [KeyFilesUser.InCritical])
  simp only [KeyFilesState.unlock]
  split
  · split
    · exact hleft.giveBack (by simp [KeyFilesUser.InCritical]) _
    · exact hleft
  · exact hleft

theorem Guarded.close : (s.close p).Guarded := by
  have hpc : ∀ b : Bool, (if b then KeyFilesPc.closed else .outside) ≠ .opened ∧
      (if b then KeyFilesPc.closed else .outside) ≠ .critical := by decide
  have hleft := H.leave (p := p)
    (u := ⟨if (s.user p).delAll then .closed else .outside, (s.user p).delAll, none⟩)
    (by simp [KeyFilesUser.heldFd]) (hpc _).2
  simp only [KeyFilesState.close]
  split
  · exact hleft.giveBack (by simpa [KeyFilesUser.InCritical] using (hpc _).2) _
  · exact hleft

theorem Guarded.deleteLock (hunused : ∀ q, (s.user q).heldFd = none) :
    (s.deleteLock p).Guarded :=
  Guarded.leave (s := { s with file := s.file.unlink }) (LockFile.Exclusive.unlink H hunused)
    rfl (by simp [KeyFilesUser.InCritical])

theorem Guarded.step (hlocks : c.Locks) (hunused : c.UnlinksUnused s) : (s.step c).2.Guarded := by
  cases c with
  | initLockPath p delAll ok =>
    cases (hlocks : ok)
    simp only [KeyFilesState.step]
    split
    · exact H.initLockPath delAll
    · exact H
  | flock p ok =>
    cases (hlocks : ok)
    simp only [KeyFilesState.step]
    split
    next hpc hfd => exact H.flock hpc hfd
    next => exact H
  | unlock p ok =>
    simp only [KeyFilesState.step]
    split
    · exact H.unlock ok
    · exact H
  | close p =>
    simp only [KeyFilesState.step]
    split
    · exact H.close
    · exact H
  | deleteLock p =>
    simp only [KeyFilesState.step]
    split
    next hpc => exact H.deleteLock (hunused hpc)
    next => exact H

end

theorem keyFiles_mutuallyExclusive (named : Option Nat) (calls : List (KeyFilesStep π))
    (hlocks : ∀ c ∈ calls, c.Locks)
    (hunused : ∀ t ∈ trace step (initial named) calls, t.call.UnlinksUnused t.pre) :
    ∀ t ∈ trace step (initial named) calls, t.post.MutuallyExclusive := by
  have hguard : ∀ t ∈ trace step (initial named) calls,
      t.call.Locks ∧ t.call.UnlinksUnused t.pre :=
    fun t ht => ⟨hlocks _ (call_mem_of_mem_trace ht), hunused t ht⟩
  refine trace_forall (I := Guarded)
    (G := fun s c => c.Locks ∧ c.UnlinksUnused s) (fun s c hs hc => ?_)
    (initial_guarded named) hguard
  have hnext := hs.step hc.1 hc.2
  exact ⟨hnext, hnext.mutuallyExclusive⟩

def inTurn : List (KeyFilesStep (Fin 2)) :=
  [.initLockPath 0 false true, .flock 0 true, .unlock 0 true, .close 0,
    .initLockPath 1 true true, .flock 1 true, .unlock 1 true, .close 1, .deleteLock 1]

theorem keyFiles_mutuallyExclusive_in_turn :
    (∀ t ∈ trace step (initial none) inTurn, t.call.UnlinksUnused t.pre) ∧
      ∀ t ∈ trace step (initial none) inTurn, t.post.MutuallyExclusive := by
  have hunused : ∀ t ∈ trace step (initial none) inTurn, t.call.UnlinksUnused t.pre := by decide
  exact ⟨hunused, keyFiles_mutuallyExclusive none inTurn (by decide) hunused⟩

theorem deleteLock_splits_the_lock :
    ¬ ∀ t ∈ trace step (initial none) ([.initLockPath 0 true true, .flock 0 true,
        .initLockPath 1 false true, .unlock 0 true, .flock 1 true, .close 0, .deleteLock 0,
        .initLockPath 2 false true, .flock 2 true] : List (KeyFilesStep (Fin 3))),
      t.post.MutuallyExclusive := by
  intro h
  have hlast := h _ (List.getLast_mem (by decide))
  exact absurd (hlast 1 2 (by decide) (by decide)) (by decide)

end KeyFilesState

end RelationalStore
