import Mathlib.Data.List.Infix

/-! The first and the last place where a list occurs in another one. -/

namespace RelationalStore

open List
variable {α : Type*}

theorem append_ne_append_of_suffix (h : ¬ u <:+ v ∧ ¬ v <:+ u) : s ++ u ≠ t ++ v := by
  intro heq
  have hv : v <:+ s ++ u := heq ▸ suffix_append t v
  exact (suffix_or_suffix_of_suffix (suffix_append s u) hv).elim h.1 h.2

theorem eq_of_append_cons_eq (hs : a ∉ s) (hu : a ∉ u) (h : s ++ a :: t = u ++ a :: v) : s = u := by
  rcases append_eq_append_iff.mp h with ⟨w, rfl, hw⟩ | ⟨w, rfl, hw⟩
  all_goals
    cases w with
    | nil => simp
    | cons b w =>
      cases (List.cons.inj hw).1
      simp at hs hu

variable [DecidableEq α]

def findSub (sub : List α) : List α → Option Nat
  | [] => if sub = [] then some 0 else none
  | a :: s => if sub <+: a :: s then some 0 else (findSub sub s).map (· + 1)

def rfindSub (sub : List α) : List α → Option Nat
  | [] => if sub = [] then some 0 else none
  | a :: s =>
    match rfindSub sub s with
    | some i => some (i + 1)
    | none => if sub <+: a :: s then some 0 else none

variable {sub s t : List α} {i : Nat} {a : α}

theorem drop_of_findSub (h : findSub sub s = some i) : sub <+: s.drop i := by
  induction s generalizing i with
  | nil =>
    rw [findSub] at h
    split at h
    next hsub => exact hsub ▸ nil_prefix
    · exact nomatch h
  | cons a s ih =>
    rw [findSub] at h
    split at h
    · cases h
      assumption
    · obtain ⟨j, hj, rfl⟩ := Option.map_eq_some_iff.mp h
      exact ih hj

theorem findSub_le (h : sub <+: s.drop i) : ∃ j ≤ i, findSub sub s = some j := by
  induction s generalizing i with
  | nil =>
    rw [drop_nil, prefix_nil] at h
    exact ⟨0, Nat.zero_le i, if_pos h⟩
  | cons a s ih =>
    rw [findSub]
    split
    · exact ⟨0, Nat.zero_le i, rfl⟩
    next hhere =>
      cases i with
      | zero => exact absurd h hhere
      | succ i =>
        obtain ⟨j, hj, heq⟩ := ih h
        exact ⟨j + 1, Nat.succ_le_succ hj, by rw [heq]; rfl⟩

theorem findSub_eq_none_iff : findSub sub s = none ↔ ¬ sub <:+: s := by
  constructor
  · rintro h ⟨u, v, rfl⟩
    have hdrop : sub <+: (u ++ sub ++ v).drop u.length := by simp
    obtain ⟨j, -, hj⟩ := findSub_le hdrop
    exact nomatch h.symm.trans hj
  · intro h
    by_contra hsome
    obtain ⟨i, hi⟩ := Option.ne_none_iff_exists'.mp hsome
    exact h ((drop_of_findSub hi).isInfix.trans (drop_suffix i s).isInfix)

theorem drop_of_rfindSub (h : rfindSub sub s = some i) : sub <+: s.drop i := by
  induction s generalizing i with
  | nil =>
    rw [rfindSub] at h
    split at h
    next hsub => exact hsub ▸ nil_prefix
    · exact nomatch h
  | cons a s ih =>
    rw [rfindSub] at h
    split at h
    next j hj =>
      cases h
      exact ih hj
    · split at h
      · cases h
        assumption
      · exact nomatch h

theorem rfindSub_of_suffix (h : sub <:+ s) : rfindSub sub s = some (s.length - sub.length) := by
  induction s with
  | nil =>
    cases suffix_nil.mp h
    rfl
  | cons a s ih =>
    rw [rfindSub]
    rcases suffix_cons_iff.mp h with rfl | hs
    · have hnone : rfindSub (a :: s) s = none := by
        by_contra hsome
        obtain ⟨i, hi⟩ := Option.ne_none_iff_exists'.mp hsome
        have hle := (drop_of_rfindSub hi).length_le
        simp only [length_cons, length_drop] at hle
        omega
      simp [hnone]
    · have hle := hs.length_le
      rw [ih hs]
      simp only [length_cons]
      congr 1
      omega

theorem rfindSub_eq_none (h : ¬ sub <:+: s) : rfindSub sub s = none := by
  by_contra hsome
  obtain ⟨i, hi⟩ := Option.ne_none_iff_exists'.mp hsome
  exact h ((drop_of_rfindSub hi).isInfix.trans (drop_suffix i s).isInfix)

theorem rfindSub_append_of_not_mem (h : a ∉ t) : rfindSub [a] (s ++ t) = rfindSub [a] s := by
  induction s with
  | nil =>
    refine rfindSub_eq_none fun hsub => h (hsub.subset (mem_singleton_self a))
  | cons b s ih => simp [rfindSub, ih, cons_prefix_cons]

end RelationalStore
