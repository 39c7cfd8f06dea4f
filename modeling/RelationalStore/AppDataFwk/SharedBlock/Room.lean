import RelationalStore.AppDataFwk.SharedBlock.Put
import RelationalStore.AppDataFwk.SharedBlock.Rows

/-! # Room in a block

A call succeeds just when its bytes end within the mapping and `memcpy_s` copies them. -/

namespace RelationalStore.SharedBlock

variable {b : SharedBlock} {W : Nat → Nat → Prop} {row column : Nat}

/-! ### Rows -/

def rowStart (b : SharedBlock) : Nat :=
  b.alignedOffset + if b.groupOffset (b.rowNums / 128) = 0 then 512 else 0

theorem allocGroup_room (hI : b.Inv W) :
    ((b.allocGroup g).groupOffset g = 0 ↔
      b.groupOffset g = 0 ∧ b.mSize < b.alignedOffset + 512) ∧
    ((b.allocGroup g).groupOffset g ≠ 0 → (b.allocGroup g).alignedOffset =
      b.alignedOffset + if b.groupOffset g = 0 then 512 else 0) := by
  have hlt := hI.size_lt
  have hunused := hI.unused_le
  have hheader := hI.header_le
  unfold allocGroup
  by_cases hnone : b.groupOffset g = 0
  swap
  · rw [if_neg hnone, if_neg hnone]
    exact ⟨⟨fun h => absurd h hnone, fun h => absurd h.1 hnone⟩,
      fun _ => (Nat.add_zero _).symm⟩
  have hge := alignedOffset_ge hunused hlt
  rw [if_pos hnone, if_pos hnone]
  obtain ⟨hfull, halloc⟩ | ⟨hfits, halloc⟩ := alloc_cases 512 hunused hlt (by decide)
  · have hzero : b.setGroupOffset g 0 = b := by
      rw [← hnone, setGroupOffset_self]
    rw [halloc]
    dsimp only
    rw [hzero]
    exact ⟨⟨fun h => ⟨h, hfull⟩, And.left⟩, fun h => absurd hnone h⟩
  · rw [halloc]
    dsimp only
    have hgroup : ((b.setUnusedOffset (b.alignedOffset + 512)).setGroupOffset g
        b.alignedOffset).groupOffset g = b.alignedOffset :=
      groupOffset_setGroupOffset (by omega)
    have hnew : ((b.setUnusedOffset (b.alignedOffset + 512)).setGroupOffset g
        b.alignedOffset).unusedOffset = b.alignedOffset + 512 :=
      (Mem.word_congr (setWord_eqOn (.inl (by omega)))).trans
        (unusedOffset_setUnusedOffset (by omega))
    rw [hgroup]
    refine ⟨⟨fun h => by omega, fun h => by omega⟩, fun _ => ?_⟩
    -- an aligned address plus a multiple of four is aligned
    rw [alignedOffset, hnew]
    unfold alignedOffset at hfits ⊢
    omega

theorem Inv.rowStart_ge (hI : b.Inv W) : 1048 ≤ b.rowStart := by
  have hge := alignedOffset_ge hI.unused_le hI.size_lt
  have hheader := hI.header_le
  have hrows := hI.rows_le
  unfold rowStart
  split
  · omega
  next hne =>
    by_cases hg : b.rowNums / 128 < 128
    · have hlive : b.Live W (.group (b.rowNums / 128)) := ⟨hg, hne⟩
      have hwithin := hI.within _ hlive
      have := hI.group_ge hlive
      simp only [Obj.lo, Obj.len] at hwithin
      omega
    · -- a block with all its rows has its first row group
      obtain ⟨hlive, _⟩ := hI.slot_within (r := 0) (by omega)
      have hwithin := hI.within _ hlive
      have := hI.group_ge hlive
      simp only [Obj.lo, Obj.len] at hwithin
      omega

structure AllocRoom (b : SharedBlock) (res : BlockStatus × SharedBlock) : Prop where
  ok_iff : res.1 = .ok ↔ b.rowNums < 128 * 128 ∧ b.rowStart + 12 * b.columnNums ≤ b.mSize
  unused : res.1 = .ok → res.2.unusedOffset = b.rowStart + 12 * b.columnNums
  groups : res.1 = .ok → ∀ g < 128, g ≠ b.rowNums / 128 → res.2.groupOffset g = b.groupOffset g
  pos : Mem.EqOn b.mData res.2.mData 12 24

theorem AllocRoom.failed (h : b.rowNums < 128 * 128 → b.mSize < b.rowStart + 12 * b.columnNums)
    (hpos : Mem.EqOn b.mData b'.mData 12 24) : AllocRoom b (.noMemory, b') := by
  refine ⟨⟨nofun, fun ⟨hrows, hfits⟩ => ?_⟩, nofun, nofun, hpos⟩
  exact absurd hfits (Nat.not_le_of_lt (h hrows))

theorem allocRow_room (hI : b.Inv W) : AllocRoom b b.allocRow := by
  by_cases hg : 128 ≤ b.rowNums / 128
  · have hfull : b.allocRowOffset = (none, b) := if_pos hg
    rw [allocRow, hfull]
    exact .failed (fun hrows => by omega) .refl
  have hg := Nat.lt_of_not_le hg
  have hstep := allocGroup_step (g := b.rowNums / 128) hI
  obtain ⟨hzero, hstart⟩ := allocGroup_room (g := b.rowNums / 128) hI
  rw [allocRow, allocRowOffset_eq hI hg]
  generalize b.allocGroup (b.rowNums / 128) = b₁ at hstep hzero hstart ⊢
  have hI₁ := hstep.inv hI hg
  have hrows := hstep.rowNums_eq
  have hcols := hstep.columnNums_eq
  have hsize := hstep.size
  have hpos : Mem.EqOn b.mData b₁.mData 12 24 := hstep.mem _ _ (by omega) (.inl (by omega))
  by_cases hnone : b₁.groupOffset (b.rowNums / 128) = 0
  · rw [if_pos hnone]
    obtain ⟨hmissing, hfull⟩ := hzero.mp hnone
    refine .failed (fun _ => ?_) hpos
    rw [rowStart, if_pos hmissing]
    omega
  rw [if_neg hnone]
  have hlive : b₁.Live W (.group (b₁.rowNums / 128)) := hrows ▸ ⟨hg, hnone⟩
  have hrowStart : b.rowStart = b₁.alignedOffset := (hstart hnone).symm
  have hdir := allocDir_step hI₁ hlive
  rw [hrows] at hdir
  dsimp only
  obtain ⟨hfull, hzero, hback⟩ | ⟨hat, hne0, hrow⟩ := hdir
  · simp only [hzero, hback, if_true]
    exact .failed (fun _ => by omega) hpos
  · simp only [hat, hne0, if_false]
    generalize setWord _ _ _ = b₂ at hrow ⊢
    have hfits := hrow.fits
    obtain ⟨hgroup, hslot, _⟩ := RowStep.slot_within hI₁ hlive
    refine ⟨⟨fun _ => ⟨by omega, by omega⟩, fun _ => rfl⟩, fun _ => ?_, fun _ g hg' hne => ?_, ?_⟩
    · rw [hrow.unused, hrowStart, hcols]
    · rw [hrow.groupOffset_eq hI₁ hlive hg', hstep.groupOffset_eq (.inl hne)]
    · exact hpos.trans (hrow.mem _ _ (by omega) (.inl (by omega)))

/-! ### Values -/

structure Takes (b : SharedBlock) (size : Nat) (copied ok : Prop) (b' : SharedBlock) : Prop where
  ok_iff : ok ↔ b.unusedOffset + size ≤ b.mSize ∧ copied
  unused : ok → b'.unusedOffset = b.unusedOffset + size
  header : ok → Mem.EqOn b.mData b'.mData 4 536
  pos : Mem.EqOn b.mData b'.mData 12 24

theorem Takes.inCell (hI : b.Inv W) (hmem : Mem.EqOn b.mData b'.mData 0 536) :
    Takes b 0 True (BlockStatus.ok = .ok) b' where
  ok_iff := ⟨fun _ => ⟨hI.unused_le, trivial⟩, fun _ => rfl⟩
  unused _ := Mem.word_congr (hmem.mono (Nat.le_refl 0) (by omega))
  header _ := hmem.mono (by omega) (Nat.le_refl _)
  pos := hmem.mono (by omega) (by omega)

theorem Takes.congr (h : Takes b size copied ok b') (hcopied : copied ↔ copied') (hok : ok ↔ ok') :
    Takes b size copied' ok' b' :=
  ⟨hok.symm.trans (h.ok_iff.trans (and_congr_right fun _ => hcopied)),
    fun h' => h.unused (hok.mpr h'), fun h' => h.header (hok.mpr h'), h.pos⟩

theorem Takes.trans (h : Takes b m copied ok b') (hsize : b'.mSize = b.mSize)
    (h' : ok → Takes b' n copied' ok' b'') (hpos : Mem.EqOn b'.mData b''.mData 12 24) :
    Takes b (m + n) (copied ∧ copied') (ok ∧ ok') b'' where
  ok_iff := by
    constructor
    · rintro ⟨hok, hok'⟩
      obtain ⟨hfits, hcopied'⟩ := (h' hok).ok_iff.mp hok'
      rw [h.unused hok, hsize] at hfits
      exact ⟨by omega, (h.ok_iff.mp hok).2, hcopied'⟩
    · rintro ⟨hfits, hcopied, hcopied'⟩
      have hok := h.ok_iff.mpr ⟨by omega, hcopied⟩
      refine ⟨hok, (h' hok).ok_iff.mpr ⟨?_, hcopied'⟩⟩
      rw [h.unused hok, hsize]
      omega
  unused := fun ⟨hok, hok'⟩ => by rw [(h' hok).unused hok', h.unused hok, Nat.add_assoc]
  header := fun ⟨hok, hok'⟩ => (h.header hok).trans ((h' hok).header hok')
  pos := h.pos.trans hpos

theorem putBits_takes (hI : b.Inv W) (hr : row < b.rowNums) (hc : column < b.columnNums) :
    Takes b 0 True ((b.putBits row column type bits).1 = .ok)
      (b.putBits row column type bits).2 := by
  obtain ⟨hcell, _⟩ := hI.cell_bounds hr hc
  rw [putBits, if_neg (by omega)]
  exact .inCell hI ((Mem.setWord_eqOn (.inl hcell)).trans (Mem.setWord_eqOn (.inl (by omega))))

theorem putNull_takes (hI : b.Inv W) (hr : row < b.rowNums) (hc : column < b.columnNums) :
    Takes b 0 True ((b.putNull row column).1 = .ok) (b.putNull row column).2 := by
  obtain ⟨hcell, _⟩ := hI.cell_bounds hr hc
  rw [putNull, if_neg (by omega)]
  exact .inCell hI (setCell_eqOn _ _ _ _ _ (.inl hcell))

theorem putBlobOrString_takes (memcpyS : Nat → Bool) (value : Nat → UInt8) (hI : b.Inv W)
    (hr : row < b.rowNums) (hc : column < b.columnNums) (hsum : b.unusedOffset + size < 2 ^ 32) :
    Takes b size (size ≠ 0 → memcpyS size)
      ((b.putBlobOrString memcpyS row column (some value) size type).1 = .ok)
      (b.putBlobOrString memcpyS row column (some value) size type).2 := by
  obtain ⟨hcell, hcell'⟩ := hI.cell_bounds hr hc
  have hheader := hI.header_le
  unfold putBlobOrString
  simp only [Nat.mod_eq_of_lt hsum]
  rw [if_neg (by omega)]
  split
  next hfull => exact ⟨⟨nofun, fun h => absurd h.1 (Nat.not_le_of_lt hfull)⟩, nofun, nofun, .refl⟩
  rename_i hfits
  split
  next hcopy =>
    exact ⟨⟨nofun, fun h => absurd (h.2 hcopy.1) (by rw [hcopy.2]; nofun)⟩, nofun, nofun,
      setWord_eqOn (.inr (by omega))⟩
  rename_i hcopy
  have hcopied : size ≠ 0 → memcpyS size := fun hne =>
    Bool.eq_true_of_not_eq_false fun hfail => hcopy ⟨hne, hfail⟩
  -- the payload and the cell lie above the header
  have hrest : Mem.EqOn (b.setUnusedOffset (b.unusedOffset + size)).mData
      (setCell { b.setUnusedOffset (b.unusedOffset + size) with
        mData := (b.setUnusedOffset (b.unusedOffset + size)).mData.blit b.unusedOffset value size }
        (b.cellAddr row column) type b.unusedOffset size).mData 0 536 :=
    (Mem.blit_eqOn (.inl hheader)).trans (setCell_eqOn _ _ _ _ _ (.inl hcell))
  have hheader' := Mem.EqOn.trans (setWord_eqOn (b := b) (a := 0) (.inr (Nat.le_refl 4)))
    (hrest.mono (by omega) (Nat.le_refl _))
  refine ⟨⟨fun _ => ⟨Nat.le_of_not_lt hfits, hcopied⟩, fun _ => rfl⟩, fun _ => ?_,
    fun _ => hheader', hheader'.mono (by omega) (by omega)⟩
  exact (Mem.word_congr (hrest.mono (Nat.le_refl _) (by omega))).trans
    (unusedOffset_setUnusedOffset hsum)

theorem freeLastRow_pos : Mem.EqOn b.mData b.freeLastRow.2.mData 12 24 := by
  unfold freeLastRow
  split
  · exact setWord_eqOn (.inr (by omega))
  · exact .refl

theorem setColumnNum_eqOn (h : hi ≤ 8 ∨ 12 ≤ lo) :
    Mem.EqOn b.mData (b.setColumnNum n).2.mData lo hi := by
  unfold setColumnNum
  dsimp only
  repeat' split
  all_goals first | exact .refl | exact setWord_eqOn (by omega)

/-! ### The size of the mapping -/

theorem putBlobOrString_size (memcpyS : Nat → Bool) :
    (b.putBlobOrString memcpyS row column value size type).2.mSize = b.mSize := by
  unfold putBlobOrString
  cases value with
  | none => rfl
  | some value =>
    dsimp only
    repeat' split
    all_goals rfl

theorem putBits_size : (b.putBits row column type bits).2.mSize = b.mSize := by
  unfold putBits
  split <;> rfl

theorem putNull_size : (b.putNull row column).2.mSize = b.mSize := by
  unfold putNull
  split <;> rfl

theorem allocGroup_size (b : SharedBlock) (group : Nat) :
    (b.allocGroup group).mSize = b.mSize := by
  unfold allocGroup alloc
  dsimp only
  repeat' split
  all_goals rfl

theorem allocRowOffset_size : b.allocRowOffset.2.mSize = b.mSize := by
  have hgroup := allocGroup_size b (b.rowNums / 128)
  unfold allocRowOffset
  dsimp only
  split
  · rfl
  generalize b.allocGroup (b.rowNums / 128) = b' at hgroup
  repeat' split
  all_goals exact hgroup

theorem allocRow_size : b.allocRow.2.mSize = b.mSize := by
  have hoffset := allocRowOffset_size (b := b)
  unfold allocRow alloc
  split
  next heq => rwa [heq] at hoffset
  next heq =>
    rw [heq] at hoffset
    dsimp only
    repeat' split
    all_goals exact hoffset

theorem freeLastRow_size : b.freeLastRow.2.mSize = b.mSize := by
  unfold freeLastRow
  split <;> rfl

theorem setColumnNum_size : (b.setColumnNum n).2.mSize = b.mSize := by
  unfold setColumnNum
  dsimp only
  repeat' split
  all_goals rfl

end RelationalStore.SharedBlock
