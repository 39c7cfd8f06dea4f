import Mathlib.Data.List.Basic

/-! Texts with holes.

`fill` marks each hole of a text with the value that is meant for it, `holes` reads the marks off.
-/

namespace RelationalStore.Holes

open List

variable {α V : Type*} [DecidableEq α]

def fill (hole : α) : List α → List V → List (α × Option V)
  | [], _ => []
  | a :: as, vs =>
    if a = hole then (a, vs.head?) :: fill hole as vs.tail else (a, none) :: fill hole as vs

def holes (hole : α) : List (α × Option V) → List (Option V)
  | [] => []
  | (a, v) :: marks => if a = hole then v :: holes hole marks else holes hole marks

section
variable {hole : α}

@[simp] theorem map_fst_fill (text : List α) (vs : List V) :
    (fill hole text vs).map Prod.fst = text := by
  induction text generalizing vs with
  | nil => rfl
  | cons a as ih =>
    unfold fill
    split <;> simp [ih]

@[simp] theorem holes_append (marks marks' : List (α × Option V)) :
    holes hole (marks ++ marks') = holes hole marks ++ holes hole marks' := by
  induction marks with
  | nil => rfl
  | cons mark marks ih =>
    simp only [cons_append, holes, ih]
    split <;> rfl

theorem length_holes (marks : List (α × Option V)) :
    (holes hole marks).length = (marks.map Prod.fst).count hole := by
  induction marks with
  | nil => rfl
  | cons mark marks ih =>
    by_cases h : mark.1 = hole
    · simp [holes, h, ih]
    · simp [holes, h, ih]

theorem length_holes_fill (text : List α) (vs : List V) :
    (holes hole (fill hole text vs)).length = text.count hole := by
  rw [length_holes, map_fst_fill]

theorem holes_fill_of_not_mem (vs : List V) (h : hole ∉ text) :
    holes hole (fill hole text vs) = [] := by
  rw [← length_eq_zero_iff, length_holes_fill, count_eq_zero_of_not_mem h]

theorem holes_fill_of_count (h : text.count hole = vs.length) :
    holes hole (fill hole text vs) = vs.map some := by
  induction text generalizing vs with
  | nil =>
    rw [length_eq_zero_iff.mp h.symm]
    rfl
  | cons a as ih =>
    by_cases ha : a = hole
    · subst ha
      cases vs with
      | nil => simp at h
      | cons v vs =>
        have hcount : as.count a = vs.length := by simpa using h
        simp [fill, holes, ih hcount]
    · have hcount : as.count hole = vs.length := by
        rwa [count_cons_of_ne ha] at h
      simp [fill, holes, ha, ih hcount]

theorem count_le_of_forall_isSome (h : ∀ v ∈ holes hole (fill hole text vs), v.isSome) :
    text.count hole ≤ vs.length := by
  induction text generalizing vs with
  | nil => exact Nat.zero_le _
  | cons a as ih =>
    by_cases ha : a = hole
    · subst ha
      simp only [fill, holes, if_true, forall_mem_cons] at h
      cases vs with
      | nil => exact nomatch h.1
      | cons v vs =>
        have hle := ih h.2
        simpa using hle
    · simp only [fill, holes, ha, if_false] at h
      rw [count_cons_of_ne ha]
      exact ih h

end

end RelationalStore.Holes
