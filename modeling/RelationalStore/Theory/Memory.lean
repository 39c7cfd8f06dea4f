import Mathlib.Tactic.Ring

/-! Byte-addressed memory with little-endian words.

A read outside the mapping is not an error but an address that a safety statement excludes. -/

namespace RelationalStore

abbrev Mem := Nat → UInt8

namespace Mem

def EqOn (m m' : Mem) (lo hi : Nat) : Prop := ∀ i, lo ≤ i → i < hi → m' i = m i

def read (m : Mem) (a n : Nat) : List UInt8 := (List.range n).map fun i => m (a + i)

def blit (m : Mem) (a : Nat) (src : Nat → UInt8) (n : Nat) : Mem :=
  fun i => if a ≤ i ∧ i < a + n then src (i - a) else m i

def word (m : Mem) (a : Nat) : Nat → Nat
  | 0 => 0
  | w + 1 => (m a).toNat + 256 * word m (a + 1) w

def byteOf (v i : Nat) : UInt8 := UInt8.ofNat (v / 256 ^ i)

def setWord (m : Mem) (a w v : Nat) : Mem := m.blit a (byteOf v) w

def strlen (m : Mem) (a : Nat) : Nat → Nat
  | 0 => 0
  | limit + 1 => if m a = 0 then 0 else strlen m (a + 1) limit + 1

variable {m m' m'' : Mem} {a lo hi n w v : Nat} {src : Nat → UInt8}

/-! ### Agreement on a range -/

theorem EqOn.refl : EqOn m m lo hi := fun _ _ _ => rfl

theorem EqOn.trans (h : EqOn m m' lo hi) (h' : EqOn m' m'' lo hi) : EqOn m m'' lo hi :=
  fun i hlo hhi => (h' i hlo hhi).trans (h i hlo hhi)

theorem EqOn.mono (h : EqOn m m' lo hi) (hlo : lo ≤ lo') (hhi : hi' ≤ hi) :
    EqOn m m' lo' hi' :=
  fun i h1 h2 => h i (hlo.trans h1) (h2.trans_le hhi)

theorem blit_eqOn (h : hi ≤ a ∨ a + n ≤ lo) : EqOn m (m.blit a src n) lo hi := by
  intro i hlo hhi
  exact if_neg (by omega)

theorem setWord_eqOn (h : hi ≤ a ∨ a + w ≤ lo) : EqOn m (m.setWord a w v) lo hi :=
  blit_eqOn h

/-! ### Reads -/

theorem word_congr (h : EqOn m m' a (a + w)) : m'.word a w = m.word a w := by
  induction w generalizing a with
  | zero => rfl
  | succ w ih =>
    have hhead : m' a = m a := h a (Nat.le_refl a) (by omega)
    have htail : m'.word (a + 1) w = m.word (a + 1) w := ih (h.mono (by omega) (by omega))
    rw [word, word, hhead, htail]

theorem word_lt : m.word a w < 256 ^ w := by
  induction w generalizing a with
  | zero => exact Nat.one_pos
  | succ w ih =>
    have hb : (m a).toNat < 256 := (m a).toNat_lt
    have := ih (a := a + 1)
    rw [word, pow_succ]
    omega

theorem word_eq_zero (h : ∀ i < w, m (a + i) = 0) : m.word a w = 0 := by
  induction w generalizing a with
  | zero => rfl
  | succ w ih =>
    have hhead : m a = 0 := h 0 (Nat.succ_pos w)
    have htail : m.word (a + 1) w = 0 := by
      refine ih fun i hi => ?_
      rw [Nat.add_assoc, Nat.add_comm 1 i]
      exact h (i + 1) (Nat.succ_lt_succ hi)
    rw [word, hhead, htail]
    rfl

theorem read_congr (h : EqOn m m' a (a + n)) : m'.read a n = m.read a n := by
  refine List.map_congr_left fun i hi => h _ (Nat.le_add_right a i) ?_
  exact Nat.add_lt_add_left (List.mem_range.mp hi) a

/-! ### Reading back a write -/

theorem blit_apply (h : i < n) : m.blit a src n (a + i) = src i := by
  rw [blit, if_pos ⟨Nat.le_add_right a i, Nat.add_lt_add_left h a⟩, Nat.add_sub_cancel_left]

theorem read_blit : (m.blit a src n).read a n = (List.range n).map src :=
  List.map_congr_left fun _ hi => blit_apply (List.mem_range.mp hi)

private theorem word_bytes (h : ∀ i < w, m (a + i) = byteOf v i) : m.word a w = v % 256 ^ w := by
  induction w generalizing a v with
  | zero => rw [word, pow_zero, Nat.mod_one]
  | succ w ih =>
    have hhead : (m a).toNat = v % 256 := by
      have := h 0 (Nat.succ_pos w)
      rw [Nat.add_zero] at this
      rw [this, byteOf, pow_zero, Nat.div_one, UInt8.toNat_ofNat']
    have htail : m.word (a + 1) w = v / 256 % 256 ^ w := by
      refine ih fun i hi => ?_
      have := h (i + 1) (Nat.succ_lt_succ hi)
      rw [show a + 1 + i = a + (i + 1) by omega, this, byteOf, byteOf, pow_succ',
        Nat.div_div_eq_div_mul]
    rw [word, hhead, htail, pow_succ', Nat.mod_mul]

theorem word_setWord : (m.setWord a w v).word a w = v % 256 ^ w :=
  word_bytes fun _ hi => blit_apply hi

theorem word_setWord_of_disjoint (h : a' + w' ≤ a ∨ a + w ≤ a') :
    (m.setWord a w v).word a' w' = m.word a' w' :=
  word_congr (setWord_eqOn h)

theorem word_blit_of_disjoint (h : a' + w' ≤ a ∨ a + n ≤ a') :
    (m.blit a src n).word a' w' = m.word a' w' :=
  word_congr (blit_eqOn h)

private theorem byteOf_word (h : i < w) : byteOf (m.word a w) i = m (a + i) := by
  induction w generalizing a i with
  | zero => exact absurd h (Nat.not_lt_zero i)
  | succ w ih =>
    have hb : (m a).toNat < 256 := (m a).toNat_lt
    cases i with
    | zero =>
      rw [byteOf, word, pow_zero, Nat.div_one, ← UInt8.toNat_inj, UInt8.toNat_ofNat',
        Nat.add_mul_mod_self_left, Nat.mod_eq_of_lt hb]
      rfl
    | succ i =>
      have := ih (a := a + 1) (Nat.lt_of_succ_lt_succ h)
      rw [byteOf] at this
      rw [byteOf, word, pow_succ', ← Nat.div_div_eq_div_mul, Nat.add_mul_div_left _ _ (by decide),
        Nat.div_eq_of_lt hb, Nat.zero_add, this, Nat.add_assoc, Nat.add_comm 1 i]

theorem setWord_word : m.setWord a w (m.word a w) = m := by
  funext i
  rw [setWord, blit]
  split
  next h => rw [byteOf_word (by omega), show a + (i - a) = i by omega]
  · rfl

theorem setWord_setWord : (m.setWord a w v).setWord a w v' = m.setWord a w v' := by
  funext i
  simp only [setWord, blit]
  split <;> rfl

/-! ### Zero-terminated texts -/

theorem strlen_eq (hk : k < limit) (hne : ∀ i < k, m (a + i) ≠ 0) (hz : m (a + k) = 0) :
    m.strlen a limit = k := by
  induction k generalizing a limit with
  | zero =>
    obtain ⟨limit, rfl⟩ := Nat.exists_eq_succ_of_ne_zero (Nat.ne_of_gt hk)
    exact if_pos hz
  | succ k ih =>
    obtain ⟨limit, rfl⟩ := Nat.exists_eq_succ_of_ne_zero (Nat.ne_of_gt (Nat.zero_lt_of_lt hk))
    have hrest : m.strlen (a + 1) limit = k := by
      refine ih (Nat.lt_of_succ_lt_succ hk) (fun i hi => ?_) ?_
      · rw [show a + 1 + i = a + (i + 1) by omega]
        exact hne (i + 1) (Nat.succ_lt_succ hi)
      · rwa [show a + 1 + k = a + (k + 1) by omega]
    have hhead : m a ≠ 0 := hne 0 (Nat.succ_pos k)
    rw [strlen, if_neg hhead, hrest]

end Mem

end RelationalStore
