import Mathlib

/-! Comparisons that are not orders.

A `less than` as programs define it may fail to tell two different values apart: neither is less
than the other. -/

namespace RelationalStore

/-- Neither is less than the other. -/
def Alike {α : Type _} (lt : α → α → Bool) (a b : α) : Prop := lt a b = false ∧ lt b a = false

def lexLess {α : Type _} (lt : α → α → Bool) : List α → List α → Bool
  | _, [] => false
  | [], _ :: _ => true
  | a :: as, b :: bs => if lt a b then true else if lt b a then false else lexLess lt as bs

section
variable {α : Type _} {lt : α → α → Bool} {a b : α}

theorem alike_comm : Alike lt a b ↔ Alike lt b a := and_comm

theorem alike_decide [LinearOrder α] : Alike (fun a b : α => decide (a < b)) a b ↔ a = b := by
  simp only [Alike, decide_eq_false_iff_not, not_lt]
  exact ⟨fun ⟨hba, hab⟩ => le_antisymm hab hba, fun h => ⟨h.ge, h.le⟩⟩

theorem ite_lt_alike [LinearOrder β] {x y : β} :
    ((if x ≠ y then decide (x < y) else p) = false ∧
      (if y ≠ x then decide (y < x) else q) = false) ↔ x = y ∧ p = false ∧ q = false := by
  by_cases h : x = y
  · simp [h]
  · have hne : y ≠ x := Ne.symm h
    rcases lt_or_gt_of_ne h with hlt | hlt <;> simp [h, hne, hlt]

theorem alike_lexLess : Alike (lexLess lt) as bs ↔ List.Forall₂ (Alike lt) as bs := by
  induction as generalizing bs with
  | nil => cases bs <;> simp [Alike, lexLess]
  | cons a as ih =>
    cases bs with
    | nil => simp [Alike, lexLess]
    | cons b bs =>
      rw [List.forall₂_cons, ← ih]
      cases hab : lt a b <;> cases hba : lt b a <;> simp [Alike, lexLess, hab, hba]

theorem alike_lexLess_eq (h : ∀ a b, Alike lt a b ↔ a = b) :
    Alike (lexLess lt) as bs ↔ as = bs := by
  rw [alike_lexLess, show Alike lt = Eq from funext fun a => funext fun b => propext (h a b),
    List.forall₂_eq_eq_eq]

end

/-! ## The numbers of IEEE 754 -/

structure Ieee (exponentBits fractionBits : Nat) where
  sign : Bool
  magnitude : Fin (2 ^ (exponentBits + fractionBits))
  deriving DecidableEq

namespace Ieee
variable {e f : Nat}

def isNan (x : Ieee e f) : Bool := decide ((2 ^ e - 1) * 2 ^ f < x.magnitude.val)

def key (x : Ieee e f) : Int := if x.sign then -(x.magnitude.val : Int) else x.magnitude.val

def less (x y : Ieee e f) : Bool := !x.isNan && !y.isNan && decide (x.key < y.key)

theorem alike_less : Alike less x y ↔ x.isNan ∨ y.isNan ∨ x.key = y.key := by
  cases hx : x.isNan <;> cases hy : y.isNan <;> simp [Alike, less, hx, hy]
  omega

theorem key_inj {x y : Ieee e f} :
    x.key = y.key ↔ x = y ∨ x.magnitude.val = 0 ∧ y.magnitude.val = 0 := by
  obtain ⟨signX, magnitudeX⟩ := x
  obtain ⟨signY, magnitudeY⟩ := y
  simp only [key, Ieee.mk.injEq, Fin.ext_iff]
  cases signX <;> cases signY <;>
    simp only [if_true, Bool.false_eq_true, Bool.true_eq_false, if_false, true_and, false_and,
      false_or] <;> omega

end Ieee

end RelationalStore
