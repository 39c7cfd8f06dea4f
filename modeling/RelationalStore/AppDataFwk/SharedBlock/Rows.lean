import RelationalStore.AppDataFwk.SharedBlock.Frame

/-! # Clearing, columns and rows

`AllocRow` makes sure that the row group exists, and then takes a directory for the row. -/

namespace RelationalStore.SharedBlock

open Mem

variable {b b' : SharedBlock} {W W' : Nat → Nat → Prop}

theorem setWord_eqOn (h : hi ≤ a ∨ a + 4 ≤ lo) :
    Mem.EqOn b.mData (b.setWord a v).mData lo hi := Mem.setWord_eqOn h

theorem rowNums_setRowNums (h : v < 2 ^ 32) : (b.setRowNums v).rowNums = v := by
  unfold rowNums setRowNums setWord
  rw [word_setWord]
  exact Nat.mod_eq_of_lt (by omega)

theorem columnNums_setColumnNums (h : v < 2 ^ 32) : (b.setColumnNums v).columnNums = v := by
  unfold columnNums setColumnNums setWord
  rw [word_setWord]
  exact Nat.mod_eq_of_lt (by omega)

theorem groupOffset_setGroupOffset (h : v < 2 ^ 32) :
    (b.setGroupOffset g v).groupOffset g = v := by
  unfold groupOffset setGroupOffset setWord
  rw [word_setWord]
  exact Nat.mod_eq_of_lt (by omega)

theorem Grows.of_header (hI : b.Inv W) (hsize : b'.mSize = b.mSize)
    (hmem : ∀ lo hi, 8 ≤ lo → hi ≤ 12 ∨ 24 ≤ lo → EqOn b.mData b'.mData lo hi) :
    Grows b b' W where
  size := hsize
  columns := word_congr (hmem _ _ (by omega) (by omega))
  group r hr := word_congr (hmem _ _ (by omega) (by omega))
  slot r hr := by
    obtain ⟨hlive, hslot, _⟩ := hI.slot_within hr
    have := hI.group_ge hlive
    exact hmem _ _ (by omega) (by omega)
  data o ho hd := by
    by_cases hlen : 0 < o.len b
    · have := hI.data_ge ho hd hlen
      exact hmem _ _ (by omega) (by omega)
    · intro i h1 h2
      omega

/-! ### The other operations on rows -/

structure FreeSpec (b b' : SharedBlock) (W : Nat → Nat → Prop) : Prop where
  inv : b'.Inv W
  size : b'.mSize = b.mSize
  rows : b'.rowNums = b.rowNums - 1
  columns : b'.columnNums = b.columnNums
  keeps : ∀ r c, r < b'.rowNums → c < b.columnNums → W r c → Keeps b b' r c

theorem setRowNums_spec (hI : b.Inv W) (hv : v ≤ b.rowNums) :
    (b.setRowNums v).Inv W ∧ Grows b (b.setRowNums v) W := by
  have hrows := hI.rows_le
  have hrows' := rowNums_setRowNums (b := b) (v := v) (by omega)
  generalize hb' : b.setRowNums v = b' at hrows' ⊢
  have hmem : ∀ lo hi, 8 ≤ lo → EqOn b.mData b'.mData lo hi :=
    fun lo hi hlo => hb' ▸ setWord_eqOn (.inr hlo)
  have hunused : b'.unusedOffset = b.unusedOffset :=
    hb' ▸ word_congr (setWord_eqOn (.inl (by omega)))
  have hgroups : ∀ g, b'.groupOffset g = b.groupOffset g := fun g =>
    word_congr (hmem _ _ (by omega))
  have hgrows := Grows.of_header hI (hb' ▸ rfl) fun lo hi hlo _ => hmem lo hi hlo
  refine ⟨hgrows.inv hI .header (by omega) (hunused ▸ hI.unused_le) (by omega) ?_ ?_ ?_ ?_, hgrows⟩
  · intro r hr
    rw [hgroups]
    exact hI.group_ne r (by omega)
  · exact fun g _ _ => .inl (hgroups g)
  · exact fun r hr => .inl (by omega)
  · exact fun r c hr _ hw _ => ⟨by omega, hw⟩

theorem setPos_spec (hI : b.Inv W) (ha : 12 ≤ a) (ha' : a + 4 ≤ 24) :
    (b.setWord a v).Inv W ∧ Grows b (b.setWord a v) W := by
  generalize hb' : b.setWord a v = b'
  have hmem : ∀ lo hi, hi ≤ 12 ∨ 24 ≤ lo → EqOn b.mData b'.mData lo hi :=
    fun lo hi h => hb' ▸ setWord_eqOn (by omega)
  have hunused : b'.unusedOffset = b.unusedOffset := word_congr (hmem _ _ (by omega))
  have hrows : b'.rowNums = b.rowNums := word_congr (hmem _ _ (by omega))
  have hgroups : ∀ g, b'.groupOffset g = b.groupOffset g := fun g =>
    word_congr (hmem _ _ (by omega))
  have hgrows := Grows.of_header hI (hb' ▸ rfl) fun lo hi _ => hmem lo hi
  refine ⟨hgrows.inv hI .header (by omega) (hunused ▸ hI.unused_le) (hrows ▸ hI.rows_le)
    ?_ ?_ ?_ ?_, hgrows⟩
  · intro r hr
    rw [hgroups]
    exact hI.group_ne r (hrows ▸ hr)
  · exact fun g _ _ => .inl (hgroups g)
  · exact fun r hr => .inl (hrows ▸ hr)
  · exact fun r c hr _ hw _ => ⟨hrows ▸ hr, hw⟩

theorem freeLastRow_spec (hI : b.Inv W) : FreeSpec b b.freeLastRow.2 W := by
  have hrows := hI.rows_le
  unfold freeLastRow
  split
  · obtain ⟨hinv, hgrows⟩ := setRowNums_spec hI (Nat.sub_le b.rowNums 1)
    have hrows' := rowNums_setRowNums (b := b) (v := b.rowNums - 1) (by omega)
    refine ⟨hinv, rfl, hrows', hgrows.columns, fun r c hr hc => hgrows.keeps ?_ hc⟩
    have : r < b.rowNums - 1 := hrows' ▸ hr
    omega
  · exact ⟨hI, rfl, (by omega : b.rowNums = b.rowNums - 1), rfl, fun _ _ _ _ _ => .refl⟩

theorem setColumnNums_self : b.setColumnNums b.columnNums = b := by
  unfold setColumnNums setWord columnNums
  rw [setWord_word]

theorem setGroupOffset_self : b.setGroupOffset g (b.groupOffset g) = b := by
  unfold setGroupOffset setWord groupOffset
  rw [setWord_word]

theorem setColumnNum_spec (hI : b.Inv W) :
    (b.setColumnNum n).2.Inv W ∧ (b.setColumnNum n).2.mSize = b.mSize ∧
      (b.setColumnNum n).2.rowNums = b.rowNums ∧
      ((b.setColumnNum n).1 = .ok → (b.setColumnNum n).2.columnNums = n) := by
  unfold setColumnNum
  simp only
  split
  · exact ⟨hI, rfl, rfl, nofun⟩
  split
  · exact ⟨hI, rfl, rfl, nofun⟩
  rename_i hfree
  split
  · exact ⟨hI, rfl, rfl, nofun⟩
  rename_i hmax
  by_cases hn : b.columnNums = n
  · rw [← hn, setColumnNums_self]
    exact ⟨hI, rfl, rfl, fun _ => rfl⟩
  -- the number of columns changes, so there are no rows: the objects are the header and the groups
  have hr0 : b.rowNums = 0 := by omega
  have hmax : n ≤ 32767 := Nat.le_of_not_lt hmax
  have hcols := columnNums_setColumnNums (b := b) (v := n) (by omega)
  have hrows : (b.setColumnNums n).rowNums = b.rowNums :=
    word_congr (setWord_eqOn (.inl (by omega)))
  have hunused : (b.setColumnNums n).unusedOffset = b.unusedOffset :=
    word_congr (setWord_eqOn (.inl (by omega)))
  have hgroups : ∀ g, (b.setColumnNums n).groupOffset g = b.groupOffset g := fun g =>
    word_congr (setWord_eqOn (.inr (by omega)))
  refine ⟨?_, rfl, hrows, fun _ => hcols⟩
  refine hI.extend .header rfl hunused.ge (hunused.trans_le hI.unused_le)
    (hrows.trans_le hI.rows_le) (hcols.trans_le hmax)
    (fun r hr => absurd (hr.trans_eq hrows) (by omega)) ?_
  intro o ho
  cases o with
  | header => exact .inl ⟨trivial, rfl, rfl⟩
  | group g => exact .inl ⟨⟨ho.1, hgroups g ▸ ho.2⟩, hgroups g, rfl⟩
  | dir r =>
    have : r < b.rowNums := hrows ▸ ho
    omega
  | payload r c =>
    have : r < b.rowNums := hrows ▸ ho.1
    omega

/-! ### Clearing -/

structure Cleared (b : SharedBlock) : Prop where
  unused : b.unusedOffset = 1048
  rows : b.rowNums = 0
  columns : b.columnNums = 0
  start : b.startPos = 0
  last : b.lastPos = 0
  block : b.blockPos = 0
  group : b.groupOffset 0 = 536
  groups : ∀ g < 128, g ≠ 0 → b.groupOffset g = 0

theorem clear_cleared (h : b.mReadOnly = false) : Cleared b.clear.2 := by
  have hb : b.clear.2 = _ := congrArg Prod.snd (if_neg (by simp [h]))
  rw [hb]
  constructor
  case groups =>
    intro g hg hne
    unfold groupOffset setGroupOffset setWord
    rw [word_setWord_of_disjoint (by omega)]
    refine word_eq_zero fun i hi => ?_
    exact if_pos ⟨by omega, by omega⟩
  case group => exact groupOffset_setGroupOffset (by omega)
  all_goals
    simp (disch := omega) only [unusedOffset, rowNums, columnNums, startPos, lastPos, blockPos,
      setUnusedOffset, setRowNums, setColumnNums, setStartPos, setLastPos, setBlockPos,
      setGroupOffset, setWord, word_setWord, word_setWord_of_disjoint,
      word_blit_of_disjoint]
    norm_num

theorem clear_size : b.clear.2.mSize = b.mSize := by
  unfold clear
  split <;> rfl

theorem Cleared.live (h : Cleared b) (ho : b.Live W o) : o = .header ∨ o = .group 0 := by
  cases o with
  | header => exact .inl rfl
  | group g =>
    by_cases hg : g = 0
    · exact .inr (hg ▸ rfl)
    · exact absurd (h.groups g ho.1 hg) ho.2
  | dir r =>
    have : r < 0 := h.rows ▸ ho
    omega
  | payload r c =>
    have : r < 0 := h.rows ▸ ho.1
    omega

theorem Cleared.inv (h : Cleared b) (hsize : 1048 ≤ b.mSize) (hlt : b.mSize < 2 ^ 31) :
    b.Inv W where
  size_ge := hsize
  size_lt := hlt
  unused_le := h.unused.trans_le hsize
  rows_le := h.rows ▸ Nat.zero_le _
  columns_le := h.columns ▸ Nat.zero_le _
  group_ne r hr := absurd hr (h.rows ▸ Nat.not_lt_zero r)
  within o ho := by
    rcases h.live ho with rfl | rfl <;> simp [Obj.lo, Obj.len, h.unused, h.group]
  apart o o' ho ho' hne := by
    rcases h.live ho with rfl | rfl <;> rcases h.live ho' with rfl | rfl <;>
      simp_all [Apart, Obj.lo, Obj.len, h.group]

/-! ### Allocating a row -/

def freshRow (b : SharedBlock) : Nat := (b.allocGroup (b.rowNums / 128)).alignedOffset

theorem alignedOffset_eq (hfits : b.unusedOffset ≤ b.mSize) (hlt : b.mSize < 2 ^ 31) :
    b.alignedOffset = b.unusedOffset + (2 ^ 32 - b.unusedOffset) % 4 :=
  Nat.mod_eq_of_lt (by omega)

theorem alignedOffset_ge (hfits : b.unusedOffset ≤ b.mSize) (hlt : b.mSize < 2 ^ 31) :
    b.unusedOffset ≤ b.alignedOffset := by
  rw [alignedOffset_eq hfits hlt]
  exact Nat.le_add_right _ _

theorem alloc_cases (size : Nat) (hfits : b.unusedOffset ≤ b.mSize) (hlt : b.mSize < 2 ^ 31)
    (hsize : size ≤ 2 ^ 30) :
    (b.mSize < b.alignedOffset + size ∧ b.alloc size = (0, b)) ∨
      (b.alignedOffset + size ≤ b.mSize ∧
        b.alloc size = (b.alignedOffset, b.setUnusedOffset (b.alignedOffset + size))) := by
  have haligned := alignedOffset_eq hfits hlt
  have hsum : (b.alignedOffset + size) % 2 ^ 32 = b.alignedOffset + size :=
    Nat.mod_eq_of_lt (by omega)
  unfold alloc
  simp only [hsum]
  split
  · exact .inl ⟨‹_›, rfl⟩
  · exact .inr ⟨by omega, rfl⟩

structure GroupStep (b b' : SharedBlock) (g : Nat) : Prop where
  size : b'.mSize = b.mSize
  mem : ∀ lo hi, 4 ≤ lo → hi ≤ 24 + 4 * g ∨ 28 + 4 * g ≤ lo → EqOn b.mData b'.mData lo hi
  unused : b.unusedOffset ≤ b'.unusedOffset
  fits : b'.unusedOffset ≤ b.mSize
  group : b'.groupOffset g = b.groupOffset g ∨ (b.groupOffset g = 0 ∧
    b.unusedOffset ≤ b'.groupOffset g ∧ b'.groupOffset g + 512 ≤ b'.unusedOffset)

theorem GroupStep.refl (hI : b.Inv W) : GroupStep b b g :=
  ⟨rfl, fun _ _ _ _ => .refl, Nat.le_refl _, hI.unused_le, .inl rfl⟩

theorem allocGroup_step (hI : b.Inv W) : GroupStep b (b.allocGroup g) g := by
  have hlt := hI.size_lt
  unfold allocGroup
  split
  swap
  · exact .refl hI
  rename_i hnone
  have hge := alignedOffset_ge hI.unused_le hlt
  obtain ⟨_, hfull⟩ | ⟨hfits, hok⟩ := alloc_cases 512 hI.unused_le hlt (by decide)
  · -- the block is full: the word is set to the zero it holds
    have hzero : b.setGroupOffset g 0 = b := by
      rw [← hnone, setGroupOffset_self]
    rw [hfull]
    simpa only [hzero] using GroupStep.refl hI
  · simp only [hok]
    generalize hb' : (b.setUnusedOffset (b.alignedOffset + 512)).setGroupOffset g b.alignedOffset =
      b'
    have hunused : b'.unusedOffset = b.alignedOffset + 512 :=
      hb' ▸ (word_congr (setWord_eqOn (.inl (by omega)))).trans
        (unusedOffset_setUnusedOffset (by omega))
    have hgroup : b'.groupOffset g = b.alignedOffset :=
      hb' ▸ groupOffset_setGroupOffset (by omega)
    refine ⟨hb' ▸ rfl, fun lo hi hlo hhi => ?_, by omega, by omega, .inr ⟨hnone, by omega, ?_⟩⟩
    · exact hb' ▸ (setWord_eqOn (.inr hlo)).trans (setWord_eqOn (by omega))
    · omega

namespace GroupStep

section
variable (h : GroupStep b b' g)
include h

theorem rowNums_eq : b'.rowNums = b.rowNums :=
  word_congr (h.mem _ _ (by omega) (by omega))

theorem columnNums_eq : b'.columnNums = b.columnNums :=
  word_congr (h.mem _ _ (by omega) (by omega))

theorem groupOffset_eq (hne : g' ≠ g ∨ b.groupOffset g ≠ 0) :
    b'.groupOffset g' = b.groupOffset g' := by
  by_cases hg : g' = g
  · subst hg
    rcases h.group with hg | hg
    · exact hg
    · exact absurd hg.1 (by simpa using hne)
  · exact word_congr (h.mem _ _ (by omega) (by omega))

theorem grows (hI : b.Inv W) (hg : g < 128) : Grows b b' W where
  size := h.size
  columns := h.columnNums_eq
  group r hr := by
    have := hI.group_ne r hr
    by_cases hgr : r / 128 = g
    · exact h.groupOffset_eq (.inr (hgr ▸ this))
    · exact h.groupOffset_eq (.inl hgr)
  slot r hr := by
    obtain ⟨hlive, hslot, _⟩ := hI.slot_within hr
    have := hI.group_ge hlive
    exact h.mem _ _ (by omega) (by omega)
  data o ho hd := by
    by_cases hlen : 0 < o.len b
    · have := hI.data_ge ho hd hlen
      exact h.mem _ _ (by omega) (by omega)
    · intro i h1 h2
      omega

theorem inv (hI : b.Inv W) (hg : g < 128) : b'.Inv W := by
  have hgrows := h.grows hI hg
  refine hgrows.inv hI (.group g) h.unused h.fits (h.rowNums_eq ▸ hI.rows_le) ?_ ?_ ?_ ?_
  · intro r hr
    rw [h.rowNums_eq] at hr
    rw [hgrows.group r hr]
    exact hI.group_ne r hr
  · intro g' _ _
    by_cases hg' : g' = g
    · subst hg'
      exact h.group.imp_right fun hnew => ⟨rfl, hnew.2⟩
    · exact .inl (h.groupOffset_eq (.inl hg'))
  · exact fun r hr => .inl (h.rowNums_eq ▸ hr)
  · exact fun r c hr _ hw _ => ⟨h.rowNums_eq ▸ hr, hw⟩

end

end GroupStep

structure AllocSpec (b : SharedBlock) (W : Nat → Nat → Prop) (res : BlockStatus × SharedBlock) :
    Prop where
  inv : ∀ W' : Nat → Nat → Prop, (∀ r c, r < b.rowNums → W' r c → W r c) →
    (∀ c < b.columnNums, W' b.rowNums c → ¬ IsPayload (b.cellType (b.freshRow + 12 * c))) →
    res.2.Inv W'
  size : res.2.mSize = b.mSize
  columns : res.2.columnNums = b.columnNums
  keeps : ∀ r c, r < b.rowNums → c < b.columnNums → W r c → Keeps b res.2 r c
  failed : res.1 ≠ .ok → res.2.rowNums = b.rowNums
  done : res.1 = .ok → res.2.rowNums = b.rowNums + 1 ∧ ∀ c < b.columnNums,
    res.2.cellType (res.2.cellAddr b.rowNums c) = b.cellType (b.freshRow + 12 * c)

theorem GroupStep.failed (h : GroupStep b b' g) (hI : b.Inv W) (hg : g < 128) :
    AllocSpec b W (.noMemory, b') where
  inv _ hW _ := (h.inv hI hg).anti fun r c hr => hW r c (h.rowNums_eq ▸ hr)
  size := h.size
  columns := h.columnNums_eq
  keeps _ _ hr hc := (h.grows hI hg).keeps hr hc
  failed _ := h.rowNums_eq
  done := nofun

structure RowStep (b b' : SharedBlock) (a : Nat) : Prop where
  size : b'.mSize = b.mSize
  mem : ∀ lo hi, 8 ≤ lo → hi ≤ b.rowSlot b.rowNums ∨ b.rowSlot b.rowNums + 4 ≤ lo →
    EqOn b.mData b'.mData lo hi
  rows : b'.rowNums = b.rowNums + 1
  unused : b'.unusedOffset = a + 12 * b.columnNums
  ge : b.unusedOffset ≤ a
  fits : a + 12 * b.columnNums ≤ b.mSize
  slot : b'.mData.word (b.rowSlot b.rowNums) 4 = a

namespace RowStep
variable {a : Nat}

theorem slot_within (hI : b.Inv W) (hg : b.Live W (.group (b.rowNums / 128))) :
    536 ≤ b.groupOffset (b.rowNums / 128) ∧
      b.groupOffset (b.rowNums / 128) ≤ b.rowSlot b.rowNums ∧
      b.rowSlot b.rowNums + 4 ≤ b.groupOffset (b.rowNums / 128) + 512 ∧
      b.groupOffset (b.rowNums / 128) + 512 ≤ b.unusedOffset := by
  have hge := hI.group_ge hg
  have hwithin := hI.within _ hg
  simp only [Obj.lo, Obj.len] at hwithin
  refine ⟨hge, ?_, ?_, hwithin⟩ <;> unfold rowSlot <;> omega

section
variable (h : RowStep b b' a)
include h

theorem groupOffset_eq (hI : b.Inv W) (hg : b.Live W (.group (b.rowNums / 128))) (hg' : g < 128) :
    b'.groupOffset g = b.groupOffset g := by
  obtain ⟨h1, h2, _⟩ := slot_within hI hg
  exact word_congr (h.mem _ _ (by omega) (.inl (by omega)))

theorem grows (hI : b.Inv W) (hg : b.Live W (.group (b.rowNums / 128))) :
    Grows b b' W := by
  obtain ⟨h1, h2, h3, _⟩ := slot_within hI hg
  refine ⟨h.size, word_congr (h.mem _ _ (by omega) (by omega)), ?_, ?_, ?_⟩
  · intro r hr
    exact h.groupOffset_eq hI hg (hI.slot_within hr).1.1
  · intro r hr
    obtain ⟨hlive, hlo, hhi⟩ := hI.slot_within hr
    have hge := hI.group_ge hlive
    refine h.mem _ _ (by omega) ?_
    by_cases hgr : r / 128 = b.rowNums / 128
    · -- two words of one group
      have hne : r % 128 ≠ b.rowNums % 128 := by omega
      unfold rowSlot
      rw [hgr]
      omega
    · rcases hI.apart _ _ hlive hg (by simpa using hgr) with ha | ha <;>
        simp only [Obj.lo, Obj.len] at ha
      · exact .inl (by omega)
      · exact .inr (by omega)
  · intro o ho hd
    by_cases hlen : 0 < o.len b
    · have hge := hI.data_ge ho hd hlen
      have hne : o ≠ .group (b.rowNums / 128) := by
        rintro rfl
        exact hd
      refine h.mem _ _ (by omega) ?_
      rcases hI.apart _ _ ho hg hne with ha | ha <;> simp only [Obj.lo, Obj.len] at ha
      · exact .inl (Nat.le_trans ha h2)
      · exact .inr (h3.trans ha)
    · intro i h1 h2
      omega

theorem rowOffset_eq (hI : b.Inv W)
    (hg : b.Live W (.group (b.rowNums / 128))) : b'.rowOffset b.rowNums = a := by
  rw [rowOffset, rowSlot, h.groupOffset_eq hI hg hg.1]
  exact h.slot

theorem cellType_eq (hI : b.Inv W) (hg : b.Live W (.group (b.rowNums / 128))) :
    b'.cellType (b'.cellAddr b.rowNums c) = b.cellType (a + 12 * c) := by
  obtain ⟨h1, h2, h3, h4⟩ := slot_within hI hg
  have hge := h.ge
  rw [cellAddr, h.rowOffset_eq hI hg]
  exact word_congr (h.mem _ _ (by omega) (.inr (by omega)))

theorem inv (hI : b.Inv W) (hg : b.Live W (.group (b.rowNums / 128)))
    (hW : ∀ r c, r < b.rowNums → W' r c → W r c)
    (hfresh : ∀ c < b.columnNums, W' b.rowNums c → ¬ IsPayload (b.cellType (a + 12 * c))) :
    b'.Inv W' := by
  have hgrows := h.grows hI hg
  have hge := h.ge
  have hrows := h.rows
  have hunused := h.unused
  have hg128 := hg.1
  refine hgrows.inv hI (.dir b.rowNums) (by omega) (hunused.trans_le h.fits) (by omega) ?_ ?_ ?_ ?_
  · intro r hr
    rcases Nat.lt_succ_iff_lt_or_eq.mp (hrows ▸ hr) with hr | rfl
    · rw [hgrows.group r hr]
      exact hI.group_ne r hr
    · rw [h.groupOffset_eq hI hg hg.1]
      exact hg.2
  · exact fun g hg' _ => .inl (h.groupOffset_eq hI hg hg')
  · intro r hr
    rcases Nat.lt_succ_iff_lt_or_eq.mp (hrows ▸ hr) with hr | rfl
    · exact .inl hr
    · rw [h.rowOffset_eq hI hg]
      exact .inr ⟨rfl, hge, by omega⟩
  · intro r c hr hc hw hp
    rcases Nat.lt_succ_iff_lt_or_eq.mp (hrows ▸ hr) with hr | rfl
    · exact ⟨hr, hW r c hr hw⟩
    · exact absurd (h.cellType_eq hI hg ▸ hp) (hfresh c hc hw)

end

end RowStep

theorem allocDir_step (hI : b.Inv W) (hg : b.Live W (.group (b.rowNums / 128))) :
    let b₁ := b.setRowNums (b.rowNums + 1)
    let r := b₁.alloc (b₁.columnNums * 12)
    (b.mSize < b.alignedOffset + 12 * b.columnNums ∧ r.1 = 0 ∧
        r.2.setRowNums (r.2.rowNums - 1) = b) ∨
      (r.1 = b.alignedOffset ∧ b.alignedOffset ≠ 0 ∧
        RowStep b (r.2.setWord (b.rowSlot b.rowNums) b.alignedOffset) b.alignedOffset) := by
  have hlt := hI.size_lt
  have hrows := hI.rows_le
  have hcols : b.columnNums ≤ 32767 := hI.columns_le
  have hheader := hI.header_le
  obtain ⟨h1, h2, h3, h4⟩ := RowStep.slot_within hI hg
  have hrows₁ := rowNums_setRowNums (b := b) (v := b.rowNums + 1) (by omega)
  have hcols₁ : (b.setRowNums (b.rowNums + 1)).columnNums = b.columnNums :=
    word_congr (setWord_eqOn (.inr (by omega)))
  have hunused₁ : (b.setRowNums (b.rowNums + 1)).unusedOffset = b.unusedOffset :=
    word_congr (setWord_eqOn (.inl (by omega)))
  have haligned : (b.setRowNums (b.rowNums + 1)).alignedOffset = b.alignedOffset := by
    rw [alignedOffset, hunused₁, alignedOffset]
  have hge := alignedOffset_ge hI.unused_le hlt
  obtain ⟨hsize, hfull⟩ | ⟨hfits, hok⟩ := alloc_cases (b := b.setRowNums (b.rowNums + 1))
    (b.columnNums * 12) (hunused₁.trans_le hI.unused_le) hlt (by omega)
  · have hsize : b.mSize < b.alignedOffset + b.columnNums * 12 := haligned ▸ hsize
    refine .inl ⟨by omega, ?_⟩
    simp only [hcols₁, hfull, hrows₁, Nat.add_sub_cancel, true_and]
    unfold setRowNums setWord rowNums
    simp only [setWord_setWord, setWord_word]
  · have hfits : b.alignedOffset + b.columnNums * 12 ≤ b.mSize := haligned ▸ hfits
    refine .inr ?_
    simp only [hcols₁, hok, haligned]
    refine ⟨trivial, by omega, rfl, ?_, ?_, ?_, by omega, by omega, ?_⟩
    · intro lo hi hlo hhi
      exact ((setWord_eqOn (.inr hlo)).trans (setWord_eqOn (.inr (by omega)))).trans
        (setWord_eqOn (by omega))
    · exact ((word_congr (setWord_eqOn (.inl (by omega)))).trans
        (word_congr (setWord_eqOn (.inr (by omega))))).trans hrows₁
    · rw [Nat.mul_comm 12]
      exact (word_congr (setWord_eqOn (.inl (by omega)))).trans
        (unusedOffset_setUnusedOffset (by omega))
    · rw [setWord, word_setWord]
      exact Nat.mod_eq_of_lt (by omega)

theorem allocRowOffset_eq (hI : b.Inv W) (hg : b.rowNums / 128 < 128) :
    b.allocRowOffset =
      if (b.allocGroup (b.rowNums / 128)).groupOffset (b.rowNums / 128) = 0 then
        (none, b.allocGroup (b.rowNums / 128))
      else
        (some ((b.allocGroup (b.rowNums / 128)).rowSlot b.rowNums),
          (b.allocGroup (b.rowNums / 128)).setRowNums (b.rowNums + 1)) := by
  have hstep := allocGroup_step (g := b.rowNums / 128) hI
  rw [allocRowOffset, if_neg (Nat.not_le_of_lt hg)]
  simp only
  split
  · rfl
  rename_i hne
  have hwithin := (hstep.inv hI hg).within (.group (b.rowNums / 128)) ⟨hg, hne⟩
  have hptr : (b.allocGroup (b.rowNums / 128)).offsetToPtr
      ((b.allocGroup (b.rowNums / 128)).groupOffset (b.rowNums / 128)) 0 =
        some ((b.allocGroup (b.rowNums / 128)).groupOffset (b.rowNums / 128)) := by
    have hfits := hstep.fits
    have hsize := hstep.size
    have hlt := hI.size_lt
    simp only [Obj.lo, Obj.len] at hwithin
    exact if_neg (by rw [Nat.mod_eq_of_lt (by omega)]; omega)
  rw [hptr, hstep.rowNums_eq, rowSlot]

theorem RowStep.allocated (hrow : RowStep b₁ b₂ b₁.alignedOffset) (hI : b.Inv W) (hg : g < 128)
    (hstep : GroupStep b b₁ g) (hlive : b₁.Live W (.group (b₁.rowNums / 128)))
    (hfresh : b.freshRow = b₁.alignedOffset) : AllocSpec b W (.ok, b₂) := by
  have hI₁ := hstep.inv hI hg
  have hrows := hstep.rowNums_eq
  have hcols := hstep.columnNums_eq
  have hgrows := hrow.grows hI₁ hlive
  have hge := hrow.ge
  have hheader := hI₁.header_le
  have htype : ∀ c, b₁.cellType (b.freshRow + 12 * c) = b.cellType (b.freshRow + 12 * c) :=
    fun c => word_congr (hstep.mem _ _ (by omega) (by omega))
  refine ⟨fun W' hW hnew => ?_, hrow.size.trans hstep.size, hgrows.columns.trans hcols, ?_, nofun,
    fun _ => ⟨hrow.rows.trans (congrArg (· + 1) hrows), ?_⟩⟩
  · refine hrow.inv hI₁ hlive (fun r c hr => hW r c (hrows ▸ hr)) fun c hc hw => ?_
    rw [← hfresh, htype]
    exact hnew c (hcols ▸ hc) (hrows ▸ hw)
  · intro r c hr hc hw
    exact ((hstep.grows hI hg).keeps hr hc hw).trans
      (hgrows.keeps (hrows.symm ▸ hr) (hcols.symm ▸ hc) hw)
  · intro c hc
    rw [← hrows, hrow.cellType_eq hI₁ hlive, ← hfresh, htype]

theorem allocRow_spec (hI : b.Inv W) : AllocSpec b W b.allocRow := by
  by_cases hg : 128 ≤ b.rowNums / 128
  · have hfull : b.allocRowOffset = (none, b) := if_pos hg
    rw [allocRow, hfull]
    exact (GroupStep.refl (g := 0) hI).failed hI (by decide)
  have hg := Nat.lt_of_not_le hg
  have hstep := allocGroup_step (g := b.rowNums / 128) hI
  have hfresh : b.freshRow = (b.allocGroup (b.rowNums / 128)).alignedOffset := rfl
  rw [allocRow, allocRowOffset_eq hI hg]
  generalize b.allocGroup (b.rowNums / 128) = b₁ at hstep hfresh ⊢
  have hI₁ := hstep.inv hI hg
  have hrows := hstep.rowNums_eq
  split
  next hoffset =>
    split at hoffset
    · obtain ⟨-, rfl⟩ := Prod.mk.inj hoffset
      exact hstep.failed hI hg
    · exact nomatch hoffset
  rename_i rowOffset _ hoffset
  split at hoffset
  · exact nomatch hoffset
  rename_i hne
  obtain ⟨hslot, rfl⟩ := Prod.mk.inj hoffset
  obtain rfl := Option.some.inj hslot
  have hlive : b₁.Live W (.group (b₁.rowNums / 128)) := hrows ▸ ⟨hg, hne⟩
  have hdir := allocDir_step hI₁ hlive
  rw [hrows] at hdir
  obtain ⟨_, hzero, hback⟩ | ⟨hat, hne0, hrow⟩ := hdir
  · simp only [hzero, hback, if_true]
    exact hstep.failed hI hg
  simp only [hat, hne0, if_false]
  generalize setWord _ _ _ = b₂ at hrow ⊢
  exact hrow.allocated hI hg hstep hlive hfresh

/-! ### The mode of the mapping -/

theorem alloc_readOnly (size : Nat) : (b.alloc size).2.mReadOnly = b.mReadOnly := by
  unfold alloc
  dsimp only
  split <;> rfl

theorem allocGroup_readOnly : (b.allocGroup g).mReadOnly = b.mReadOnly := by
  have halloc := alloc_readOnly (b := b) 512
  unfold allocGroup
  generalize b.alloc 512 = res at halloc
  split
  · exact halloc
  · rfl

theorem allocRow_readOnly : b.allocRow.2.mReadOnly = b.mReadOnly := by
  have hoffset : b.allocRowOffset.2.mReadOnly = b.mReadOnly := by
    have hgroup := allocGroup_readOnly (b := b) (g := b.rowNums / 128)
    unfold allocRowOffset
    dsimp only
    generalize b.allocGroup (b.rowNums / 128) = b₁ at hgroup ⊢
    split
    · rfl
    split
    · exact hgroup
    split <;> exact hgroup
  unfold allocRow
  generalize b.allocRowOffset = res at hoffset ⊢
  obtain ⟨_ | rowOffset, b₁⟩ := res
  · exact hoffset
  · have halloc := alloc_readOnly (b := b₁) (b₁.columnNums * 12)
    dsimp only at hoffset ⊢
    generalize b₁.alloc (b₁.columnNums * 12) = res at halloc ⊢
    split <;> exact halloc.trans hoffset

theorem freeLastRow_readOnly : b.freeLastRow.2.mReadOnly = b.mReadOnly := by
  unfold freeLastRow
  split <;> rfl

theorem clear_readOnly : b.clear.2.mReadOnly = b.mReadOnly := by
  unfold clear
  split <;> rfl

theorem setColumnNum_readOnly : (b.setColumnNum n).2.mReadOnly = b.mReadOnly := by
  unfold setColumnNum
  dsimp only
  repeat' split
  all_goals rfl

end RelationalStore.SharedBlock
