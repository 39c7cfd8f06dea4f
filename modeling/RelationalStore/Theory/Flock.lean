import Mathlib.Logic.Function.Basic

/-! Advisory locks behind one file name.

A lock belongs to an inode, while its users agree only on the name of the file. -/

namespace RelationalStore

structure LockFile (π : Type _) where
  named : Option Nat
  fresh : Nat
  holder : Nat → Option π

namespace LockFile
variable {π : Type _} [DecidableEq π] {f : LockFile π} {p : π} {ino : Nat}

def openCreate (f : LockFile π) : Nat × LockFile π :=
  match f.named with
  | some ino => (ino, f)
  | none => (f.fresh, { f with named := some f.fresh, fresh := f.fresh + 1 })

def lock (f : LockFile π) (p : π) (ino : Nat) : Option (LockFile π) :=
  if f.holder ino = none ∨ f.holder ino = some p then
    some { f with holder := Function.update f.holder ino (some p) }
  else none

def unlock (f : LockFile π) (p : π) (ino : Nat) : LockFile π :=
  if f.holder ino = some p then { f with holder := Function.update f.holder ino none } else f

def unlink (f : LockFile π) : LockFile π := { f with named := none }

omit [DecidableEq π] in
@[simp] theorem openCreate_named : f.openCreate.2.named = some f.openCreate.1 := by
  unfold openCreate
  split <;> simp [*]

omit [DecidableEq π] in
@[simp] theorem openCreate_holder : f.openCreate.2.holder = f.holder := by
  unfold openCreate
  split <;> rfl

omit [DecidableEq π] in
theorem openCreate_fst (h : f.named = some ino) : f.openCreate.1 = ino := by
  simp [openCreate, h]

theorem lock_spec (h : f.lock p ino = some f') :
    f'.named = f.named ∧ f'.holder = Function.update f.holder ino (some p) ∧
      (f.holder ino = none ∨ f.holder ino = some p) := by
  unfold lock at h
  split at h
  next hfree => cases h; exact ⟨rfl, rfl, hfree⟩
  next => cases h

@[simp] theorem unlock_named : (f.unlock p ino).named = f.named := by
  unfold unlock
  split <;> rfl

theorem unlock_holder_of_ne (hq : q ≠ p) (h : f.holder i = some q) :
    (f.unlock p ino).holder i = some q := by
  unfold unlock
  split
  next hp =>
    have hi : i ≠ ino := by
      rintro rfl
      exact hq (Option.some.inj (h.symm.trans hp))
    simp [hi, h]
  next => exact h

structure Exclusive (f : LockFile π) (fd : π → Option Nat) (inside : π → Prop) : Prop where
  anchored : ∀ p ino, fd p = some ino → f.named = some ino
  owned : ∀ p, inside p → ∃ ino, fd p = some ino ∧ f.holder ino = some p

namespace Exclusive
variable {fd fd' : π → Option Nat} {inside inside' : π → Prop}

omit [DecidableEq π] in
theorem exclusion (H : f.Exclusive fd inside) (hp : inside p) (hq : inside q) : p = q := by
  obtain ⟨i, hpi, hi⟩ := H.owned p hp
  obtain ⟨j, hqj, hj⟩ := H.owned q hq
  have hij : i = j :=
    Option.some.inj ((H.anchored p i hpi).symm.trans (H.anchored q j hqj))
  subst hij
  exact Option.some.inj (hi.symm.trans hj)

omit [DecidableEq π] in
theorem mono (H : f.Exclusive fd inside) (hfd : ∀ q, fd' q = fd q ∨ fd' q = none ∧ ¬ inside' q)
    (hin : ∀ q, inside' q → inside q) : f.Exclusive fd' inside' := by
  refine ⟨fun q i h => ?_, fun q h => ?_⟩
  · rcases hfd q with he | ⟨he, -⟩
    · exact H.anchored q i (he ▸ h)
    · rw [he] at h
      cases h
  · rcases hfd q with he | ⟨-, hn⟩
    · rw [he]
      exact H.owned q (hin q h)
    · exact absurd h hn

omit [DecidableEq π] in
theorem openCreate (H : f.Exclusive fd inside) (hp : fd' p = some f.openCreate.1)
    (hfd : ∀ q, q ≠ p → fd' q = fd q) (hin : ∀ q, inside' q → q ≠ p ∧ inside q) :
    f.openCreate.2.Exclusive fd' inside' := by
  refine ⟨fun q i h => ?_, fun q h => ?_⟩
  · rw [openCreate_named]
    by_cases hq : q = p
    · subst hq
      exact hp.symm.trans h
    · rw [openCreate_fst (H.anchored q i (hfd q hq ▸ h))]
  · obtain ⟨hq, hold⟩ := hin q h
    rw [hfd q hq, openCreate_holder]
    exact H.owned q hold

theorem lock (H : f.Exclusive fd inside) (h : f.lock p ino = some f') (hp : fd p = some ino)
    (hin : ∀ q, inside' q → q = p ∨ inside q) : f'.Exclusive fd inside' := by
  obtain ⟨hname, hholder, hfree⟩ := lock_spec h
  refine ⟨fun q i hq => hname ▸ H.anchored q i hq, fun q hq => ?_⟩
  rw [hholder]
  by_cases hqp : q = p
  · subst hqp
    exact ⟨ino, hp, Function.update_self ..⟩
  · obtain ⟨i, hi, hown⟩ := H.owned q ((hin q hq).resolve_left hqp)
    refine ⟨i, hi, ?_⟩
    -- the lock was free or `p`'s own, so it is not the one that `q` has
    have hne : i ≠ ino := by
      rintro rfl
      rcases hfree with hn | hs
      · rw [hn] at hown
        cases hown
      · exact hqp (Option.some.inj (hown.symm.trans hs))
    rw [Function.update_of_ne hne, hown]

theorem unlock (H : f.Exclusive fd inside) (hp : ¬ inside p) :
    (f.unlock p ino).Exclusive fd inside := by
  refine ⟨fun q i h => by rw [unlock_named]; exact H.anchored q i h, fun q h => ?_⟩
  obtain ⟨i, hi, hown⟩ := H.owned q h
  exact ⟨i, hi, unlock_holder_of_ne (fun e => hp (e ▸ h)) hown⟩

omit [DecidableEq π] in
theorem unlink (H : f.Exclusive fd inside) (hfd : ∀ q, fd q = none) :
    f.unlink.Exclusive fd inside := by
  refine ⟨fun q i h => ?_, fun q h => ?_⟩
  · rw [hfd q] at h
    cases h
  · obtain ⟨i, hi, -⟩ := H.owned q h
    rw [hfd q] at hi
    cases hi

end Exclusive

end LockFile

end RelationalStore
