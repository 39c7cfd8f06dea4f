import Mathlib.Data.List.Sort
import RelationalStore.Theory.AssocList

/-! Ordered maps.

A map is a list of entries whose keys ascend, as an iterator goes through them. -/

namespace RelationalStore

open List

structure OrderedMap (κ α : Type _) [LinearOrder κ] where
  entries : List (κ × α)
  sorted : entries.Pairwise (·.1 < ·.1)

namespace OrderedMap
variable {κ α : Type _} [LinearOrder κ] {key k : κ} {x : α} {f : α → α} {l l' : List (κ × α)}

def empty : OrderedMap κ α := ⟨[], .nil⟩

variable (m : OrderedMap κ α)

def find (key : κ) : Option α := m.entries.lookup key

def insertWith (key : κ) (x : α) (f : α → α) : List (κ × α) → List (κ × α)
  | [] => [(key, x)]
  | p :: l =>
    if key < p.1 then (key, x) :: p :: l
    else if p.1 < key then p :: insertWith key x f l
    else (p.1, f p.2) :: l

theorem lookup_eq_none_of_lt (h : ∀ p ∈ l, key < p.1) : l.lookup key = none := by
  rw [lookup_eq_none_iff_keys]
  intro hmem
  obtain ⟨p, hp, hkey⟩ := mem_map.mp hmem
  exact absurd hkey.symm (ne_of_lt (h p hp))

theorem lookup_insertWith (h : l.Pairwise (·.1 < ·.1)) :
    (insertWith key x f l).lookup k =
      if k = key then some ((l.lookup key).elim x f) else l.lookup k := by
  induction l with
  | nil =>
    by_cases hk : k = key
    · rw [if_pos hk, hk]
      exact lookup_cons_self
    · rw [if_neg hk]
      exact lookup_cons_of_ne hk
  | cons p l ih =>
    obtain ⟨hhead, htail⟩ := pairwise_cons.mp h
    obtain ⟨k', y⟩ := p
    rw [insertWith]
    rcases lt_trichotomy key k' with hlt | rfl | hgt
    · have hnone : ((k', y) :: l).lookup key = none := by
        refine lookup_eq_none_of_lt (forall_mem_cons.mpr ⟨hlt, fun q hq => ?_⟩)
        exact lt_trans hlt (hhead q hq)
      rw [if_pos hlt, hnone]
      by_cases hk : k = key
      · rw [if_pos hk, hk]
        exact lookup_cons_self
      · rw [if_neg hk, lookup_cons_of_ne hk]
    · rw [if_neg (lt_irrefl _), if_neg (lt_irrefl _), lookup_cons_self]
      by_cases hk : k = key
      · rw [if_pos hk, hk]
        exact lookup_cons_self
      · rw [if_neg hk, lookup_cons_of_ne hk, lookup_cons_of_ne hk]
    · rw [if_neg (lt_asymm hgt), if_pos hgt, lookup_cons_of_ne (ne_of_gt hgt)]
      by_cases hk : k = k'
      · subst hk
        rw [lookup_cons_self, lookup_cons_self, if_neg (ne_of_lt hgt)]
      · rw [lookup_cons_of_ne hk, lookup_cons_of_ne hk, ih htail]

theorem keys_insertWith (hj : j < key) (h : ∀ p ∈ l, j < p.1) :
    ∀ p ∈ insertWith key x f l, j < p.1 := by
  induction l with
  | nil => exact forall_mem_singleton.mpr hj
  | cons p l ih =>
    obtain ⟨hhead, htail⟩ := forall_mem_cons.mp h
    rw [insertWith]
    split
    · exact forall_mem_cons.mpr ⟨hj, h⟩
    split
    · exact forall_mem_cons.mpr ⟨hhead, ih htail⟩
    · exact forall_mem_cons.mpr ⟨hhead, htail⟩

theorem sorted_insertWith (h : l.Pairwise (·.1 < ·.1)) :
    (insertWith key x f l).Pairwise (·.1 < ·.1) := by
  induction l with
  | nil => exact pairwise_singleton _ _
  | cons p l ih =>
    obtain ⟨hhead, htail⟩ := pairwise_cons.mp h
    rw [insertWith]
    split
    next hlt =>
      refine pairwise_cons.mpr ⟨forall_mem_cons.mpr ⟨hlt, fun q hq => ?_⟩, h⟩
      exact lt_trans hlt (hhead q hq)
    split
    next hgt => exact pairwise_cons.mpr ⟨keys_insertWith hgt hhead, ih htail⟩
    · exact pairwise_cons.mpr ⟨hhead, htail⟩

def insert (key : κ) (x : α) : OrderedMap κ α :=
  ⟨insertWith key x id m.entries, sorted_insertWith m.sorted⟩

theorem find_insert :
    (m.insert key x).find k = if k = key then some ((m.find key).getD x) else m.find k := by
  refine (lookup_insertWith m.sorted).trans ?_
  cases h : m.find key with
  | none => rw [find] at h; rw [h]; rfl
  | some y => rw [find] at h; rw [h]; rfl

def insertOrAssign (key : κ) (x : α) : OrderedMap κ α :=
  ⟨insertWith key x (fun _ => x) m.entries, sorted_insertWith m.sorted⟩

theorem find_insertOrAssign :
    (m.insertOrAssign key x).find k = if k = key then some x else m.find k := by
  refine (lookup_insertWith m.sorted).trans ?_
  cases m.entries.lookup key <;> rfl

def erase (key : κ) : OrderedMap κ α :=
  ⟨m.entries.filter fun p => p.1 != key, m.sorted.filter _⟩

theorem find_erase :
    (m.erase key).find k = if k = key then none else m.find k := by
  split
  next hk =>
    subst hk
    exact lookup_filter_self
  next hk => exact lookup_filter_of_ne hk

theorem find_foldl_insert (l : List (κ × β)) (g : β → α) (m : OrderedMap κ α) :
    (l.foldl (fun m p => m.insert p.1 (g p.2)) m).find k =
      (m.find k).or ((l.lookup k).map g) := by
  induction l generalizing m with
  | nil => exact (Option.or_none).symm
  | cons p l ih =>
    rw [foldl_cons, ih, find_insert]
    by_cases hk : k = p.1
    · subst hk
      rw [if_pos rfl, lookup_cons_self]
      cases m.find p.1 <;> rfl
    · rw [if_neg hk, lookup_cons_of_ne hk]

theorem nodup_keys : (m.entries.map (·.1)).Nodup :=
  pairwise_map.mpr (m.sorted.imp ne_of_lt)

theorem mem_entries_iff {m : OrderedMap κ α} : (k, x) ∈ m.entries ↔ m.find k = some x :=
  (lookup_eq_some_iff_mem m.nodup_keys).symm

theorem ext_find {m m' : OrderedMap κ α} (h : ∀ key, m.find key = m'.find key) : m = m' := by
  have hirrefl : Std.Irrefl fun p q : κ × α => p.1 < q.1 := ⟨fun _ => lt_irrefl _⟩
  have hentries : m.entries = m'.entries := m.sorted.eq_of_mem_iff m'.sorted fun p => by
    rw [mem_entries_iff, mem_entries_iff, h]
  cases m
  cases m'
  cases hentries
  rfl

end OrderedMap

end RelationalStore
