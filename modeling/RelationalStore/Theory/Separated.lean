import Mathlib.Data.List.Chain

/-! Items with a separator between them.

`List.intercalate` puts the items of a list together. -/

namespace RelationalStore

open List

structure Clean {α : Type _} (sep : α) (l : List α) : Prop where
  head : l.head? ≠ some sep
  last : l.getLast? ≠ some sep
  apart : l.IsChain fun a b => a ≠ sep ∨ b ≠ sep

namespace Separated
variable {α : Type _} {sep : α} {x y : List α}

instance [DecidableEq α] (l : List α) : Decidable (Clean sep l) :=
  decidable_of_iff (l.head? ≠ some sep ∧ l.getLast? ≠ some sep ∧
      l.IsChain fun a b => a ≠ sep ∨ b ≠ sep)
    ⟨fun h => ⟨h.1, h.2.1, h.2.2⟩, fun h => ⟨h.head, h.last, h.apart⟩⟩

theorem clean_append_cons (hx : x ≠ []) (hy : y ≠ []) :
    Clean sep (x ++ sep :: y) ↔ Clean sep x ∧ Clean sep y := by
  have hhead : (x ++ sep :: y).head? = x.head? := head?_append_of_ne_nil x hx
  have hlast : (x ++ sep :: y).getLast? = y.getLast? := by
    rw [getLast?_append_of_ne_nil x (cons_ne_nil sep y), getLast?_cons_of_ne_nil hy]
  constructor
  · intro h
    have hapart := h.apart
    rw [isChain_append, isChain_cons] at hapart
    obtain ⟨hleft, ⟨hnext, hright⟩, hjoint⟩ := hapart
    refine ⟨⟨hhead ▸ h.head, fun hend => ?_, hleft⟩, fun hbegin => ?_, hlast ▸ h.last, hright⟩
    · exact (hjoint sep hend sep rfl).elim (· rfl) (· rfl)
    · exact (hnext sep hbegin).elim (· rfl) (· rfl)
  · rintro ⟨hleft, hright⟩
    refine ⟨hhead ▸ hleft.head, hlast ▸ hright.last, ?_⟩
    rw [isChain_append, isChain_cons]
    refine ⟨hleft.apart, ⟨fun b hb => .inr ?_, hright.apart⟩, fun a ha b _ => .inl ?_⟩
    · rintro rfl
      exact hright.head hb
    · rintro rfl
      exact hleft.last ha

theorem clean_intercalate (hne : ∀ x ∈ items, x ≠ []) :
    Clean sep ([sep].intercalate items) ↔ ∀ x ∈ items, Clean sep x := by
  induction items with
  | nil => exact iff_of_true ⟨nofun, nofun, .nil⟩ fun _ h => nomatch h
  | cons x items ih =>
    obtain ⟨hx, hitems⟩ := forall_mem_cons.mp hne
    cases items with
    | nil => simp
    | cons y items =>
      have hrest : [sep].intercalate (y :: items) ≠ [] := by
        have hy : y ≠ [] := hitems y mem_cons_self
        cases items <;> simp [hy]
      rw [intercalate_cons_cons, append_assoc, singleton_append,
        clean_append_cons hx hrest, ih hitems]
      exact forall_mem_cons.symm

theorem clean_append_of_not_mem (hx : x ≠ []) (hy : y ≠ []) (hsep : sep ∉ y) :
    Clean sep (x ++ y) ↔ x.head? ≠ some sep ∧ x.IsChain fun a b => a ≠ sep ∨ b ≠ sep := by
  have hne {b : α} (hb : b ∈ y) : b ≠ sep := fun h => hsep (h ▸ hb)
  constructor
  · intro h
    exact ⟨head?_append_of_ne_nil x hx ▸ h.head, (isChain_append.mp h.apart).1⟩
  · rintro ⟨hhead, hapart⟩
    refine ⟨(head?_append_of_ne_nil x hx).symm ▸ hhead, ?_, ?_⟩
    · rw [getLast?_append_of_ne_nil x hy]
      exact fun h => hsep (mem_of_getLast? h)
    · refine isChain_append.mpr ⟨hapart, ?_, fun a _ b hb => .inr ?_⟩
      · refine (pairwise_iff_forall_sublist.mpr fun hsub => ?_).isChain
        exact .inl (hne (hsub.subset mem_cons_self))
      · exact hne (mem_of_mem_head? hb)

/-! ## Lists put together one by one -/

theorem length_intercalate (items : List (List α)) :
    ([sep].intercalate items).length = items.flatten.length + (items.length - 1) := by
  induction items with
  | nil => rfl
  | cons x items ih =>
    cases items with
    | nil => simp
    | cons y items =>
      rw [intercalate_cons_cons, length_append, length_append, ih]
      simp only [flatten_cons, length_append, length_cons, length_nil]
      omega

theorem flatten_intercalate_eq_iff (lists : List (List (List α))) :
    (lists.map fun items => [sep].intercalate items).flatten = [sep].intercalate lists.flatten ↔
      (lists.filter fun items => !items.isEmpty).length ≤ 1 := by
  have hcount : (lists.map fun items => items.length - 1).sum +
      (lists.filter fun items => !items.isEmpty).length = lists.flatten.length := by
    induction lists with
    | nil => rfl
    | cons items lists ih =>
      cases items with
      | nil => simpa using ih
      | cons x items =>
        simp only [map_cons, sum_cons, filter_cons, isEmpty_cons,
          Bool.not_false, if_true, length_cons, flatten_cons, length_append]
        omega
  have hlength : ((lists.map fun items => [sep].intercalate items).flatten).length =
      lists.flatten.flatten.length + (lists.map fun items => items.length - 1).sum := by
    clear hcount
    induction lists with
    | nil => rfl
    | cons items lists ih =>
      simp only [map_cons, flatten_cons, length_append, flatten_append,
        sum_cons, length_intercalate, ih]
      omega
  constructor
  · intro h
    have hsum := congrArg List.length h
    rw [hlength, length_intercalate] at hsum
    omega
  · intro hle
    clear hcount hlength
    induction lists with
    | nil => rfl
    | cons items lists ih =>
      cases items with
      | nil => simpa using ih (by simpa using hle)
      | cons x items =>
        -- the others have no items
        have hnil : ∀ items ∈ lists, items = [] := by
          simpa [filter_cons] using hle
        have hflatten : lists.flatten = [] := flatten_eq_nil_iff.mpr hnil
        have hmap : (lists.map fun items => [sep].intercalate items).flatten = [] := by
          refine flatten_eq_nil_iff.mpr fun text htext => ?_
          obtain ⟨items, hitems, rfl⟩ := mem_map.mp htext
          rw [hnil items hitems]
          rfl
        rw [map_cons, flatten_cons, hmap, flatten_cons, hflatten, append_nil,
          append_nil]

end Separated

end RelationalStore
