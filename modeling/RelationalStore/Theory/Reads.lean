import Mathlib.Data.List.Basic

/-! Programs that read memory.

A program is a tree that asks for one cell after the other, so that it says which cells it looks
at. -/

namespace RelationalStore

inductive Reads (β α : Type) where
  | ret (a : α)
  | read (addr : Nat) (next : β → Reads β α)

namespace Reads
variable {β α γ : Type}

protected def bind : Reads β α → (α → Reads β γ) → Reads β γ
  | ret a, f => f a
  | read addr next, f => read addr fun b => (next b).bind f

instance : Monad (Reads β) where
  pure := ret
  bind := Reads.bind

def run (mem : Nat → β) : Reads β α → α
  | ret a => a
  | read addr next => (next (mem addr)).run mem

def addrs (mem : Nat → β) : Reads β α → List Nat
  | ret _ => []
  | read addr next => addr :: (next (mem addr)).addrs mem

def cells (addr : Nat) : Nat → Reads β (List β)
  | 0 => pure []
  | n + 1 => read addr fun b => do return b :: (← cells (addr + 1) n)

def block (mem : Nat → β) (addr : Nat) : Nat → List β
  | 0 => []
  | n + 1 => mem addr :: block mem (addr + 1) n

section
variable {mem mem' : Nat → β} {addr n k : Nat}

@[simp] theorem length_block : (block mem addr n).length = n := by
  induction n generalizing addr with
  | zero => rfl
  | succ n ih => exact congrArg (· + 1) ih

theorem take_block (h : k ≤ n) : (block mem addr n).take k = block mem addr k := by
  induction k generalizing addr n with
  | zero => rfl
  | succ k ih =>
    cases n with
    | zero => exact absurd h (Nat.not_succ_le_zero k)
    | succ n => exact congrArg (mem addr :: ·) (ih (Nat.le_of_succ_le_succ h))

theorem drop_block : (block mem addr n).drop k = block mem (addr + k) (n - k) := by
  induction k generalizing addr n with
  | zero => rfl
  | succ k ih =>
    cases n with
    | zero => rw [Nat.zero_sub]; rfl
    | succ n =>
      rw [Nat.succ_sub_succ, ← Nat.add_assoc, Nat.add_right_comm]
      exact ih

theorem block_add_one : block mem (addr + 1) n = block (fun i => mem (i + 1)) addr n := by
  induction n generalizing addr with
  | zero => rfl
  | succ n ih => exact congrArg (mem (addr + 1) :: ·) ih

theorem block_getD (l : List β) (b : β) : block (fun i => l.getD i b) 0 l.length = l := by
  induction l with
  | nil => rfl
  | cons x l ih =>
    rw [List.length_cons, block, block_add_one]
    exact congrArg (x :: ·) ih

theorem part_block (h : j + k ≤ n) :
    ((block mem addr n).drop j).take k = block mem (addr + j) k := by
  rw [drop_block, take_block (by omega)]

theorem block_congr (h : ∀ i, i < addr + n → mem' i = mem i) :
    block mem' addr n = block mem addr n := by
  induction n generalizing addr with
  | zero => rfl
  | succ n ih =>
    rw [block, block, h addr (by omega), ih fun i hi => h i (by omega)]

end

/-! ## Programs that stay within the first cells -/

structure Within (mem : Nat → β) (n : Nat) (p : Reads β α) (a : α) : Prop where
  run_eq : p.run mem = a
  addrs_lt : ∀ i ∈ p.addrs mem, i < n

namespace Within
variable {mem : Nat → β} {n : Nat} {p q : Reads β α} {a b : α}

theorem pure (a : α) : Within mem n (pure a) a := ⟨rfl, fun _ hi => nomatch hi⟩

theorem bind (hp : Within mem n p a) (hf : Within mem n (f a) c) : Within mem n (p >>= f) c := by
  induction p with
  | ret a' =>
    obtain rfl : a' = a := hp.run_eq
    exact hf
  | read addr next ih =>
    have htail : Within mem n (next (mem addr) >>= f) c :=
      ih _ ⟨hp.run_eq, fun i hi => hp.addrs_lt i (List.mem_cons_of_mem addr hi)⟩
    refine ⟨htail.run_eq, List.forall_mem_cons.mpr ⟨?_, htail.addrs_lt⟩⟩
    exact hp.addrs_lt addr List.mem_cons_self

theorem check [Decidable c] [Decidable c'] (hc : c ↔ c') (hq : ¬ c' → Within mem n q b) :
    Within mem n (if c then Pure.pure a else q) (if c' then a else b) := by
  rw [if_congr hc rfl rfl]
  split
  · exact pure a
  · exact hq ‹_›

theorem cells (h : addr + k ≤ n) : Within mem n (Reads.cells addr k) (block mem addr k) := by
  induction k generalizing addr with
  | zero => exact pure []
  | succ k ih =>
    have htail : Within mem n (do return mem addr :: (← Reads.cells (addr + 1) k))
        (block mem addr (k + 1)) := bind (ih (by omega)) (pure _)
    exact ⟨htail.run_eq, List.forall_mem_cons.mpr ⟨by omega, htail.addrs_lt⟩⟩

end Within

end Reads

end RelationalStore
