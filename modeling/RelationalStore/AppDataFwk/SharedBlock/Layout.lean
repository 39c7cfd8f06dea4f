import RelationalStore.AppDataFwk.SharedBlock.Basic

/-! # The layout of a block

Every live object ends below `unusedOffset`, and any two of them are apart. -/

namespace RelationalStore.SharedBlock

inductive Obj where
  | header
  | group (groupPos : Nat)
  | dir (row : Nat)
  | payload (row column : Nat)

def IsPayload (code : Nat) : Prop := 3 ≤ code ∧ code ≤ 8
  deriving Decidable

def Obj.lo (b : SharedBlock) : Obj → Nat
  | .header => 0
  | .group g => b.groupOffset g
  | .dir r => b.rowOffset r
  | .payload r c => b.cellOffset (b.cellAddr r c)

def Obj.len (b : SharedBlock) : Obj → Nat
  | .header => 536
  | .group _ => 512
  | .dir _ => 12 * b.columnNums
  | .payload r c => b.cellSize (b.cellAddr r c)

def allCells : Nat → Nat → Prop := fun _ _ => True

def Live (b : SharedBlock) (W : Nat → Nat → Prop) : Obj → Prop
  | .header => True
  | .group g => g < 128 ∧ b.groupOffset g ≠ 0
  | .dir r => r < b.rowNums
  | .payload r c =>
    r < b.rowNums ∧ c < b.columnNums ∧ W r c ∧ IsPayload (b.cellType (b.cellAddr r c))

def Obj.IsData : Obj → Prop
  | .dir _ | .payload .. => True
  | _ => False

def Obj.Has (b : SharedBlock) (o : Obj) (i : Nat) : Prop := o.lo b ≤ i ∧ i < o.lo b + o.len b

structure WellFormed (b : SharedBlock) : Prop where
  unused : b.unusedOffset ≤ b.mSize
  rows : b.rowNums ≤ 128 * 128
  inside : ∀ o, b.Live allCells o → o.lo b + o.len b ≤ b.mSize
  disjoint : ∀ o o', b.Live allCells o → b.Live allCells o' → o ≠ o' → o.IsData →
    ∀ i, ¬ (o.Has b i ∧ o'.Has b i)

def Apart (b : SharedBlock) (o o' : Obj) : Prop :=
  o.lo b + o.len b ≤ o'.lo b ∨ o'.lo b + o'.len b ≤ o.lo b

structure Inv (b : SharedBlock) (W : Nat → Nat → Prop) : Prop where
  size_ge : 1048 ≤ b.mSize
  size_lt : b.mSize < 2 ^ 31
  unused_le : b.unusedOffset ≤ b.mSize
  rows_le : b.rowNums ≤ 128 * 128
  columns_le : b.columnNums ≤ colMaxNum
  group_ne : ∀ r < b.rowNums, b.groupOffset (r / 128) ≠ 0
  within : ∀ o, b.Live W o → o.lo b + o.len b ≤ b.unusedOffset
  apart : ∀ o o', b.Live W o → b.Live W o' → o ≠ o' → b.Apart o o'

variable {b b' : SharedBlock} {W W' : Nat → Nat → Prop}

theorem unusedOffset_lt : b.unusedOffset < 2 ^ 32 := by
  have := Mem.word_lt (m := b.mData) (a := 0) (w := 4)
  unfold unusedOffset
  omega

theorem unusedOffset_setUnusedOffset (h : v < 2 ^ 32) : (b.setUnusedOffset v).unusedOffset = v := by
  unfold unusedOffset setUnusedOffset setWord
  rw [Mem.word_setWord]
  exact Nat.mod_eq_of_lt (by omega)

theorem Inv.wellFormed (h : b.Inv allCells) : b.WellFormed where
  unused := h.unused_le
  rows := h.rows_le
  inside o ho := (h.within o ho).trans h.unused_le
  disjoint o o' ho ho' hne _ i hi := by
    obtain ⟨⟨h1, h2⟩, h3, h4⟩ := hi
    rcases h.apart o o' ho ho' hne with ha | ha <;> omega

theorem Inv.extend (h : b.Inv W) (new : Obj) (hsize : b'.mSize = b.mSize)
    (hunused : b.unusedOffset ≤ b'.unusedOffset) (hfits : b'.unusedOffset ≤ b.mSize)
    (hrows : b'.rowNums ≤ 128 * 128) (hcols : b'.columnNums ≤ colMaxNum)
    (hgroup : ∀ r < b'.rowNums, b'.groupOffset (r / 128) ≠ 0)
    (hobj : ∀ o, b'.Live W' o → (b.Live W o ∧ o.lo b' = o.lo b ∧ o.len b' = o.len b) ∨
      (o = new ∧ b.unusedOffset ≤ o.lo b' ∧ o.lo b' + o.len b' ≤ b'.unusedOffset)) :
    b'.Inv W' where
  size_ge := hsize ▸ h.size_ge
  size_lt := hsize ▸ h.size_lt
  unused_le := hsize ▸ hfits
  rows_le := hrows
  columns_le := hcols
  group_ne := hgroup
  within o ho := by
    rcases hobj o ho with ⟨hl, hlo, hlen⟩ | ⟨_, _, hhi⟩
    · have := h.within o hl
      omega
    · exact hhi
  apart o o' ho ho' hne := by
    -- an old object ends below the old `unusedOffset`, where the new one starts
    rcases hobj o ho with ⟨hl, hlo, hlen⟩ | ⟨rfl, hlo, _⟩ <;>
      rcases hobj o' ho' with ⟨hl', hlo', hlen'⟩ | ⟨rfl, hlo', _⟩
    · rcases h.apart o o' hl hl' hne with ha | ha
      · exact .inl (by omega)
      · exact .inr (by omega)
    · have := h.within o hl
      exact .inl (by omega)
    · have := h.within o' hl'
      exact .inr (by omega)
    · exact absurd rfl hne

theorem Live.mono (hW : ∀ r c, r < b.rowNums → W' r c → W r c) (h : b.Live W' o) :
    b.Live W o := by
  cases o with
  | payload r c =>
    obtain ⟨hr, hc, hw, hp⟩ := h
    exact ⟨hr, hc, hW r c hr hw, hp⟩
  | _ => exact h

theorem Inv.anti (h : b.Inv W) (hW : ∀ r c, r < b.rowNums → W' r c → W r c) : b.Inv W' :=
  { h with
    within := fun o ho => h.within o (ho.mono hW)
    apart := fun o o' ho ho' => h.apart o o' (ho.mono hW) (ho'.mono hW) }

theorem Inv.header_le (h : b.Inv W) : 536 ≤ b.unusedOffset := by
  simpa [Obj.lo, Obj.len] using h.within .header trivial

theorem Inv.slot_within (h : b.Inv W) (hr : r < b.rowNums) :
    b.Live W (.group (r / 128)) ∧ b.groupOffset (r / 128) ≤ b.rowSlot r ∧
      b.rowSlot r + 4 ≤ b.groupOffset (r / 128) + 512 := by
  have hrows := h.rows_le
  refine ⟨⟨by omega, h.group_ne r hr⟩, ?_, ?_⟩ <;> unfold rowSlot <;> omega

theorem Inv.group_ge (h : b.Inv W) (hg : b.Live W (.group g)) : 536 ≤ b.groupOffset g := by
  rcases h.apart .header (.group g) trivial hg nofun with ha | ha <;>
    simp only [Obj.lo, Obj.len] at ha <;> omega

theorem Inv.data_ge (h : b.Inv W) (ho : b.Live W o) (hd : o.IsData) (hlen : 0 < o.len b) :
    536 ≤ o.lo b := by
  have hne : Obj.header ≠ o := by
    rintro rfl
    exact hd
  rcases h.apart .header o trivial ho hne with ha | ha
  · simpa only [Obj.lo, Obj.len, Nat.zero_add] using ha
  · rw [Obj.lo] at ha
    omega

theorem cell_within (hc : c < b.columnNums) :
    b.rowOffset r ≤ b.cellAddr r c ∧
      b.cellAddr r c + 12 ≤ b.rowOffset r + 12 * b.columnNums := by
  unfold cellAddr
  omega

theorem Inv.cell_bounds (hI : b.Inv W) (hr : r < b.rowNums) (hc : c < b.columnNums) :
    536 ≤ b.cellAddr r c ∧ b.cellAddr r c + 12 ≤ b.unusedOffset := by
  have hin := cell_within (b := b) (r := r) hc
  have hdir := hI.within (.dir r) hr
  have hge := hI.apart .header (.dir r) trivial hr nofun
  simp only [Apart, Obj.lo, Obj.len] at hdir hge
  omega

/-! ### What a cell reads -/

def SameCell (b b' : SharedBlock) (r c : Nat) : Prop :=
  b'.cellAddr r c = b.cellAddr r c ∧
    Mem.EqOn b.mData b'.mData (b.cellAddr r c) (b.cellAddr r c + 12)

namespace SameCell

theorem type_eq (h : SameCell b b' r c) :
    b'.cellType (b'.cellAddr r c) = b.cellType (b.cellAddr r c) := by
  rw [h.1]
  exact Mem.word_congr (h.2.mono (by omega) (by omega))

theorem offset_eq (h : SameCell b b' r c) :
    b'.cellOffset (b'.cellAddr r c) = b.cellOffset (b.cellAddr r c) := by
  rw [h.1]
  exact Mem.word_congr (h.2.mono (by omega) (by omega))

theorem size_eq (h : SameCell b b' r c) :
    b'.cellSize (b'.cellAddr r c) = b.cellSize (b.cellAddr r c) := by
  rw [h.1]
  exact Mem.word_congr (h.2.mono (by omega) (by omega))

theorem bits_eq (h : SameCell b b' r c) :
    b'.cellBits (b'.cellAddr r c) = b.cellBits (b.cellAddr r c) := by
  rw [h.1]
  exact Mem.word_congr (h.2.mono (by omega) (by omega))

end SameCell

theorem rowOffset_congr (hg : b'.groupOffset (r / 128) = b.groupOffset (r / 128))
    (hslot : Mem.EqOn b.mData b'.mData (b.rowSlot r) (b.rowSlot r + 4)) :
    b'.rowOffset r = b.rowOffset r := by
  have : b'.rowSlot r = b.rowSlot r := by rw [rowSlot, hg, rowSlot]
  rw [rowOffset, this]
  exact Mem.word_congr hslot

end RelationalStore.SharedBlock
