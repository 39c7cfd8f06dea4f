import Mathlib.Data.List.Basic

/-! Maps as association lists: `List.lookup` finds the entry of a key, `assign` replaces it. -/

namespace RelationalStore

open List

section
variable {α β : Type _} [BEq α] [LawfulBEq α] {entries : List (α × β)} {key key' : α} {x : β}

theorem lookup_eq_none_iff_keys : entries.lookup key = none ↔ key ∉ entries.map (·.1) := by
  simp only [lookup_eq_none_iff, mem_map, bne_iff_ne, ne_eq, not_exists, not_and]
  exact ⟨fun h p hp heq => h p hp heq.symm, fun h p hp heq => h p hp heq.symm⟩

theorem lookup_cons_of_ne (h : key ≠ key') :
    ((key', x) :: entries).lookup key = entries.lookup key := by
  rw [lookup_cons, beq_eq_false_iff_ne.mpr h]

theorem mem_of_lookup (h : entries.lookup key = some x) : (key, x) ∈ entries := by
  obtain ⟨before, after, rfl, -⟩ := lookup_eq_some_iff.mp h
  exact mem_append_right _ mem_cons_self

theorem lookup_eq_some_iff_mem (h : (entries.map (·.1)).Nodup) :
    entries.lookup key = some x ↔ (key, x) ∈ entries := by
  refine ⟨mem_of_lookup, fun hmem => ?_⟩
  induction entries with
  | nil => exact nomatch hmem
  | cons p entries ih =>
    obtain ⟨hfresh, hnodup⟩ := nodup_cons.mp h
    rcases mem_cons.mp hmem with rfl | hmem
    · exact lookup_cons_self
    · have hne : key ≠ p.1 := fun heq => hfresh (mem_map.mpr ⟨(key, x), hmem, heq⟩)
      rw [lookup_cons_of_ne hne]
      exact ih hnodup hmem

def assign (entries : List (α × β)) (key : α) (x : β) : List (α × β) :=
  (key, x) :: entries.filter fun p => p.1 != key

theorem lookup_assign_self : (assign entries key x).lookup key = some x := lookup_cons_self

theorem lookup_filter_self : (entries.filter fun p => p.1 != key).lookup key = none := by
  rw [lookup_eq_none_iff_keys]
  intro hmem
  obtain ⟨p, hp, hkey⟩ := mem_map.mp hmem
  exact bne_iff_ne.mp (mem_filter.mp hp).2 hkey

theorem lookup_filter_of_ne (h : key ≠ key') :
    (entries.filter fun p => p.1 != key').lookup key = entries.lookup key := by
  induction entries with
  | nil => rfl
  | cons p entries ih =>
    obtain ⟨k, y⟩ := p
    by_cases hk : k = key'
    · subst hk
      rw [filter_cons_of_neg (by simp), lookup_cons_of_ne h, ih]
    · rw [filter_cons_of_pos (by simpa using hk)]
      by_cases hkey : key = k
      · subst hkey
        rw [lookup_cons_self, lookup_cons_self]
      · rw [lookup_cons_of_ne hkey, lookup_cons_of_ne hkey, ih]

theorem lookup_assign_of_ne (h : key ≠ key') :
    (assign entries key' x).lookup key = entries.lookup key := by
  rw [assign, lookup_cons_of_ne h]
  exact lookup_filter_of_ne h

theorem keys_assign (h : (entries.map (·.1)).Nodup) :
    ((assign entries key x).map (·.1)).Nodup := by
  rw [assign, map_cons, nodup_cons]
  refine ⟨fun hmem => ?_, h.sublist (filter_sublist.map _)⟩
  obtain ⟨p, hp, rfl⟩ := mem_map.mp hmem
  exact absurd rfl (bne_iff_ne.mp (mem_filter.mp hp).2)

def assignAll (entries new : List (α × β)) : List (α × β) :=
  new.foldl (fun entries p => assign entries p.1 p.2) entries

theorem lookup_assignAll (h : (new.map (·.1)).Nodup) :
    (assignAll entries new).lookup key = (new.lookup key).or (entries.lookup key) := by
  induction new generalizing entries with
  | nil => rfl
  | cons p new ih =>
    obtain ⟨k, y⟩ := p
    obtain ⟨hfresh, hnodup⟩ := nodup_cons.mp h
    rw [assignAll, foldl_cons, ← assignAll, ih hnodup]
    by_cases hk : key = k
    · subst hk
      rw [lookup_eq_none_iff_keys.mpr hfresh, lookup_assign_self, lookup_cons_self]
      rfl
    · rw [lookup_assign_of_ne hk, lookup_cons_of_ne hk]

theorem keys_assignAll (h : (entries.map (·.1)).Nodup) :
    ((assignAll entries new).map (·.1)).Nodup :=
  List.foldlRecOn (motive := fun entries : List (α × β) => (entries.map (·.1)).Nodup) _ _ h
    fun _ h _ _ => keys_assign h

end

end RelationalStore
