import Mathlib.Data.List.Basic

/-! A list cut into pieces of one length.

`chunks_length_flatten` and `flatten_chunks` are the two ways back. -/

namespace RelationalStore

open List

theorem getElem?_of_drop {l l' : List α} (h : l.drop i = x :: l') :
    l[i]? = some x ∧ l.drop (i + 1) = l' := by
  constructor
  · rw [← head?_drop, h]
    rfl
  · rw [← tail_drop, h]
    rfl

def chunks {α : Type _} (size : Nat) : Nat → List α → List (List α)
  | 0, _ => []
  | n + 1, as => as.take size :: chunks size n (as.drop size)

section
variable {α : Type _} {size n : Nat} {as : List α}

theorem length_chunks : (chunks size n as).length = n := by
  induction n generalizing as with
  | zero => rfl
  | succ n ih => exact congrArg (· + 1) ih

theorem length_of_mem_chunks (hlength : n * size ≤ as.length) (h : piece ∈ chunks size n as) :
    piece.length = size := by
  induction n generalizing as with
  | zero => exact nomatch h
  | succ n ih =>
    rw [Nat.succ_mul] at hlength
    rcases mem_cons.mp h with rfl | h
    · rw [length_take]
      omega
    · refine ih ?_ h
      rw [length_drop]
      omega

theorem flatten_chunks : (chunks size n as).flatten = as.take (n * size) := by
  induction n generalizing as with
  | zero => simp [chunks]
  | succ n ih =>
    rw [chunks, flatten_cons, ih, Nat.succ_mul, Nat.add_comm, take_add]

theorem chunks_append (h : as.length = m * size) :
    chunks size (m + n) (as ++ bs) = chunks size m as ++ chunks size n bs := by
  induction m generalizing as with
  | zero =>
    obtain rfl : as = [] := length_eq_zero_iff.mp (h.trans (Nat.zero_mul _))
    simp [chunks]
  | succ m ih =>
    rw [Nat.succ_mul] at h
    have hdrop : (as.drop size).length = m * size := by
      rw [length_drop]
      omega
    rw [Nat.succ_add, chunks, chunks, take_append_of_le_length (by omega),
      drop_append_of_le_length (by omega), ih hdrop, cons_append]

variable {pieces : List (List α)}

section
variable (h : ∀ piece ∈ pieces, piece.length = size)
include h

theorem length_flatten :
    pieces.flatten.length = pieces.length * size := by
  induction pieces with
  | nil => simp
  | cons piece pieces ih =>
    rw [flatten_cons, length_append, h piece mem_cons_self,
      ih fun q hq => h q (mem_cons_of_mem _ hq), length_cons, Nat.succ_mul, Nat.add_comm]

theorem getElem?_flatten (hj : j < size) :
    pieces.flatten[j + i * size]? = pieces[i]?.bind (·[j]?) := by
  induction pieces generalizing i with
  | nil => simp
  | cons piece pieces ih =>
    have hpiece := h piece mem_cons_self
    cases i with
    | zero =>
      rw [Nat.zero_mul, Nat.add_zero, flatten_cons, getElem?_append_left (hpiece ▸ hj)]
      rfl
    | succ i =>
      rw [Nat.succ_mul, flatten_cons, getElem?_append_right (by omega), hpiece,
        show j + (i * size + size) - size = j + i * size by omega,
        ih fun q hq => h q (mem_cons_of_mem _ hq)]
      rfl

theorem chunks_length_flatten :
    chunks size pieces.length pieces.flatten = pieces := by
  induction pieces with
  | nil => rfl
  | cons piece pieces ih =>
    have hpiece := h piece mem_cons_self
    rw [length_cons, chunks, flatten_cons, take_left' hpiece,
      drop_left' hpiece, ih fun q hq => h q (mem_cons_of_mem _ hq)]

end

def allChunks (size : Nat) (as : List α) : List (List α) := chunks size (as.length / size) as

theorem flatMap_allChunks (hsize : 0 < size) {blocks : List (List α)}
    (h : ∀ block ∈ blocks, ∃ k, block.length = k * size) :
    blocks.flatMap (allChunks size) = allChunks size blocks.flatten := by
  induction blocks with
  | nil => simp [allChunks, chunks]
  | cons block blocks ih =>
    obtain ⟨k, hk⟩ := h block mem_cons_self
    have hdiv : (block ++ blocks.flatten).length / size = k + blocks.flatten.length / size := by
      rw [length_append, hk, Nat.mul_comm, Nat.mul_add_div hsize]
    rw [flatMap_cons, ih fun b hb => h b (mem_cons_of_mem _ hb), flatten_cons]
    simp only [allChunks, hdiv]
    rw [chunks_append hk, hk, Nat.mul_div_cancel k hsize]

theorem allChunks_flatten (hsize : 0 < size)
    (h : ∀ piece ∈ pieces, piece.length = size) : allChunks size pieces.flatten = pieces := by
  rw [allChunks, length_flatten h, Nat.mul_div_cancel _ hsize, chunks_length_flatten h]

end

end RelationalStore
