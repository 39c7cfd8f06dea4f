import RelationalStore.AppDataFwk.SharedBlock.Frame

/-! # The `Put` methods

A `Put` leaves the block alone, moves `unusedOffset` only, or stores one cell. -/

namespace RelationalStore.SharedBlock

open Mem

variable {b b' : SharedBlock} {W W' : Nat → Nat → Prop} {row column : Nat}

structure PutSpec (b : SharedBlock) (W : Nat → Nat → Prop) (row column : Nat) (x : RawCell)
    (res : BlockStatus × SharedBlock) : Prop where
  inv : ∀ W' : Nat → Nat → Prop,
    (∀ r c, W' r c → W r c ∨ (res.1 = .ok ∧ (r, c) = (row, column))) → res.2.Inv W'
  size : res.2.mSize = b.mSize
  rows : res.2.rowNums = b.rowNums
  columns : res.2.columnNums = b.columnNums
  keeps : ∀ r c, r < b.rowNums → c < b.columnNums → W r c → (res.1 = .ok → (r, c) ≠ (row, column)) →
    Keeps b res.2 r c
  holds : res.1 = .ok → row < b.rowNums ∧ column < b.columnNums ∧ res.2.Holds row column x

theorem PutSpec.refused (hI : b.Inv W) (hst : st ≠ .ok) : PutSpec b W row column x (st, b) where
  inv _ hW := hI.anti fun r c _ h => (hW r c h).resolve_right fun h => hst h.1
  size := rfl
  rows := rfl
  columns := rfl
  keeps _ _ _ _ _ _ := .refl
  holds h := absurd h hst

theorem Touches.inv {target : Option (Nat × Nat)} (h : Touches b b' target) (hI : b.Inv W)
    (hunused : b.unusedOffset ≤ b'.unusedOffset) (hfits : b'.unusedOffset ≤ b.mSize)
    (hW : ∀ r c, W' r c → W r c ∨ target = some (r, c))
    (hnew : ∀ row column, target = some (row, column) →
      IsPayload (b'.cellType (b'.cellAddr row column)) →
      b.unusedOffset ≤ b'.cellOffset (b'.cellAddr row column) ∧
        b'.cellOffset (b'.cellAddr row column) + b'.cellSize (b'.cellAddr row column) ≤
          b'.unusedOffset) : b'.Inv W' := by
  have hrows := h.rowNums_eq hI
  have hcols := h.columnNums_eq hI
  refine hI.extend ((target.map fun t => Obj.payload t.1 t.2).getD .header) h.size hunused hfits
    (hrows ▸ hI.rows_le) (hcols ▸ hI.columns_le) ?_ ?_
  · intro r hr
    rw [hrows] at hr
    have := hI.rows_le
    rw [h.groupOffset_eq hI (by omega)]
    exact hI.group_ne r hr
  · intro o ho
    cases o with
    | header => exact .inl ⟨trivial, rfl, rfl⟩
    | group g =>
      have hg := h.groupOffset_eq hI ho.1
      exact .inl ⟨⟨ho.1, hg ▸ ho.2⟩, hg, rfl⟩
    | dir r =>
      have hr : r < b.rowNums := hrows ▸ ho
      exact .inl ⟨hr, h.rowOffset_eq hI hr, by rw [Obj.len, hcols, Obj.len]⟩
    | payload r c =>
      obtain ⟨hr, hc, hw, hp⟩ := ho
      rw [hrows] at hr
      rw [hcols] at hc
      by_cases ht : target = some (r, c)
      · obtain ⟨h1, h2⟩ := hnew r c ht hp
        exact .inr ⟨by rw [ht]; rfl, h1, h2⟩
      · have hw := (hW r c hw).resolve_right ht
        obtain ⟨hcell, _⟩ := h.keeps hI hr hc hw ht
        exact .inl ⟨⟨hr, hc, hw, hcell.type_eq ▸ hp⟩, hcell.offset_eq, hcell.size_eq⟩

/-! ### The stored cell -/

section
variable (b : SharedBlock) (cell : Nat) (type : CellUnitType) (offset size : Nat)

theorem setCell_eqOn (h : hi ≤ cell ∨ cell + 12 ≤ lo) :
    EqOn b.mData (b.setCell cell type offset size).mData lo hi := by
  refine (setWord_eqOn ?_).trans ((setWord_eqOn ?_).trans (setWord_eqOn ?_)) <;> omega

theorem cellType_setCell : (b.setCell cell type offset size).cellType cell = type.code := by
  have hcode := type.code_lt
  unfold cellType setCell setWord
  rw [word_setWord_of_disjoint (by omega), word_setWord_of_disjoint (by omega),
    word_setWord]
  exact Nat.mod_eq_of_lt (by omega)

theorem cellOffset_setCell (h : offset < 2 ^ 32) :
    (b.setCell cell type offset size).cellOffset cell = offset := by
  unfold cellOffset setCell setWord
  rw [word_setWord_of_disjoint (by omega), word_setWord]
  exact Nat.mod_eq_of_lt (by omega)

theorem cellSize_setCell (h : size < 2 ^ 32) :
    (b.setCell cell type offset size).cellSize cell = size := by
  unfold cellSize setCell setWord
  rw [word_setWord]
  exact Nat.mod_eq_of_lt (by omega)

end

/-! ### The methods -/

theorem PutSpec.stored (h : Touches b b' (some (row, column))) (hI : b.Inv W)
    (hunused : b.unusedOffset ≤ b'.unusedOffset) (hfits : b'.unusedOffset ≤ b.mSize)
    (hnew : IsPayload (b'.cellType (b.cellAddr row column)) →
      b.unusedOffset ≤ b'.cellOffset (b.cellAddr row column) ∧
        b'.cellOffset (b.cellAddr row column) + b'.cellSize (b.cellAddr row column) ≤
          b'.unusedOffset)
    (hx : b'.cellAddr row column = b.cellAddr row column → b'.Holds row column x) :
    PutSpec b W row column x (.ok, b') := by
  obtain ⟨hr, hc⟩ := h.live row column rfl
  have haddr : b'.cellAddr row column = b.cellAddr row column := by
    rw [cellAddr, h.rowOffset_eq hI hr, cellAddr]
  refine ⟨fun W' hW => h.inv hI hunused hfits ?_ ?_, h.size, h.rowNums_eq hI, h.columnNums_eq hI,
    ?_, fun _ => ⟨hr, hc, hx haddr⟩⟩
  · intro r c hw
    exact (hW r c hw).imp_right fun h => congrArg some h.2.symm
  · rintro _ _ ⟨⟩ hp
    rw [haddr] at hp ⊢
    exact hnew hp
  · intro r c hr' hc' hw hne
    exact h.keeps hI hr' hc' hw fun h => hne rfl (Option.some.inj h).symm

theorem putBits_spec (hI : b.Inv W) (htype : type = .integer ∨ type = .float)
    (hbits : bits < 2 ^ 64) :
    PutSpec b W row column (.bits type bits) (b.putBits row column type bits) := by
  unfold putBits
  split
  · exact .refused hI nofun
  rename_i hcond
  obtain ⟨hr, hc⟩ : row < b.rowNums ∧ column < b.columnNums := by omega
  obtain ⟨hcell, hcell'⟩ := hI.cell_bounds hr hc
  have hcode : type.code < 3 := by rcases htype with rfl | rfl <;> decide
  let m := (b.mData.setWord (b.cellAddr row column) 4 type.code).setWord
    (b.cellAddr row column + 4) 8 bits
  have hmem : ∀ lo hi, hi ≤ b.cellAddr row column ∨ b.cellAddr row column + 12 ≤ lo →
      EqOn b.mData m lo hi := fun lo hi h =>
    (setWord_eqOn (by omega)).trans (setWord_eqOn (by omega))
  have htypeEq : m.word (b.cellAddr row column) 4 = type.code := by
    rw [word_setWord_of_disjoint (by omega), word_setWord]
    exact Nat.mod_eq_of_lt (by omega)
  have hbitsEq : m.word (b.cellAddr row column + 4) 8 = bits := by
    rw [word_setWord]
    exact Nat.mod_eq_of_lt (by omega)
  have hunused : m.word 0 4 = b.unusedOffset := word_congr (hmem _ _ (by omega))
  have htouch : Touches b ⟨m, b.mSize, b.mReadOnly⟩ (some (row, column)) :=
    { size := rfl
      live := by rintro _ _ ⟨⟩; exact ⟨hr, hc⟩
      mem := fun lo hi _ _ haway => hmem lo hi (haway row column rfl) }
  refine PutSpec.stored htouch hI (Nat.le_of_eq hunused.symm) (hunused.trans_le hI.unused_le) ?_ ?_
  · intro hp
    have : 3 ≤ type.code := hp.1.trans_eq htypeEq
    omega
  · intro haddr
    rw [Holds, haddr]
    exact ⟨htypeEq, hbitsEq⟩

theorem putNull_spec (hI : b.Inv W) : PutSpec b W row column .null (b.putNull row column) := by
  unfold putNull
  split
  · exact .refused hI nofun
  rename_i hcond
  obtain ⟨hr, hc⟩ : row < b.rowNums ∧ column < b.columnNums := by omega
  obtain ⟨hcell, hcell'⟩ := hI.cell_bounds hr hc
  have hunused : unusedOffset (b.setCell (b.cellAddr row column) .null 0 0) = b.unusedOffset :=
    word_congr (setCell_eqOn _ _ _ _ _ (by omega))
  have htouch : Touches b (b.setCell (b.cellAddr row column) .null 0 0) (some (row, column)) :=
    { size := rfl
      live := by rintro _ _ ⟨⟩; exact ⟨hr, hc⟩
      mem := fun lo hi _ _ haway => setCell_eqOn _ _ _ _ _ (haway row column rfl) }
  refine PutSpec.stored htouch hI (Nat.le_of_eq hunused.symm) (hunused ▸ hI.unused_le) ?_ ?_
  · intro hp
    rw [cellType_setCell] at hp
    exact absurd hp.1 (by decide)
  · intro haddr
    rw [Holds, haddr, cellType_setCell]

def PayloadSafe (b : SharedBlock) (size : Nat) : Prop :=
  (b.unusedOffset + size) % 2 ^ 32 ≤ b.mSize → b.unusedOffset + size < 2 ^ 32
  deriving Decidable

theorem PutSpec.moved {size : Nat} (hI : b.Inv W) (hsum : b.unusedOffset + size < 2 ^ 32)
    (hfits : b.unusedOffset + size ≤ b.mSize) (hst : st ≠ .ok) :
    PutSpec b W row column x (st, b.setUnusedOffset (b.unusedOffset + size)) := by
  have hunused := unusedOffset_setUnusedOffset (b := b) hsum
  generalize hb' : b.setUnusedOffset (b.unusedOffset + size) = b' at hunused ⊢
  have hsize : b'.mSize = b.mSize := hb' ▸ rfl
  have htouch : Touches b b' none :=
    { size := hsize
      live := nofun
      mem := fun lo hi hlo _ _ => hb' ▸ setWord_eqOn (.inr hlo) }
  refine ⟨fun W' hW => htouch.inv hI (by omega) (by omega) ?_ nofun, hsize, htouch.rowNums_eq hI,
    htouch.columnNums_eq hI, ?_, fun hok => absurd hok hst⟩
  · intro r c hw
    exact .inl ((hW r c hw).resolve_right fun h => hst h.1)
  · intro r c hr hc hw _
    exact htouch.keeps hI hr hc hw nofun

theorem PutSpec.copied {size : Nat} (value : Nat → UInt8) (hI : b.Inv W)
    (htype : IsPayload type.code) (hr : row < b.rowNums) (hc : column < b.columnNums)
    (hsum : b.unusedOffset + size < 2 ^ 32) (hfits : b.unusedOffset + size ≤ b.mSize)
    (hb₁ : { b.setUnusedOffset (b.unusedOffset + size) with
      mData := (b.setUnusedOffset (b.unusedOffset + size)).mData.blit b.unusedOffset value size } =
        b₁) :
    PutSpec b W row column (.payload type ((List.range size).map value))
      (.ok, b₁.setCell (b.cellAddr row column) type b.unusedOffset size) := by
  obtain ⟨hcell, hcell'⟩ := hI.cell_bounds hr hc
  have hheader := hI.header_le
  have hunused := unusedOffset_setUnusedOffset (b := b) hsum
  have hmem₀ : ∀ lo hi, 4 ≤ lo →
      EqOn b.mData (b.setUnusedOffset (b.unusedOffset + size)).mData lo hi :=
    fun lo hi hlo => setWord_eqOn (.inr hlo)
  have hmem : ∀ lo hi, hi ≤ b.unusedOffset →
      EqOn (b.setUnusedOffset (b.unusedOffset + size)).mData b₁.mData lo hi :=
    fun lo hi hhi => hb₁ ▸ blit_eqOn (.inl hhi)
  have hdata : b₁.mData.read b.unusedOffset size = (List.range size).map value :=
    hb₁ ▸ read_blit
  have hoffset := cellOffset_setCell b₁ (b.cellAddr row column) type _ size
    (unusedOffset_lt (b := b))
  have hsize := cellSize_setCell b₁ (b.cellAddr row column) type b.unusedOffset size (by omega)
  have htypeEq := cellType_setCell b₁ (b.cellAddr row column) type b.unusedOffset size
  have hcellMem : ∀ lo hi, hi ≤ b.cellAddr row column ∨ b.cellAddr row column + 12 ≤ lo →
      EqOn b₁.mData _ lo hi := fun _ _ => setCell_eqOn b₁ _ type b.unusedOffset size
  have hunused₂ : unusedOffset _ = b.unusedOffset + size :=
    (word_congr (hcellMem 0 4 (by omega))).trans
      ((word_congr (hmem 0 4 (by omega))).trans hunused)
  generalize hb₂ : setCell _ _ _ _ _ = b₂ at hoffset hsize hcellMem hunused₂ htypeEq ⊢
  have htouch : Touches b b₂ (some (row, column)) :=
    { size := hb₂ ▸ hb₁ ▸ rfl
      live := by rintro _ _ ⟨⟩; exact ⟨hr, hc⟩
      mem := fun lo hi hlo hhi haway =>
        ((hmem₀ lo hi hlo).trans (hmem lo hi hhi)).trans (hcellMem lo hi (haway row column rfl)) }
  refine PutSpec.stored htouch hI (by omega) (by omega) (fun _ => by omega) fun haddr => ?_
  refine ⟨htype, haddr.symm ▸ htypeEq, ?_, ?_⟩
  · rw [haddr, hsize, List.length_map, List.length_range]
  · -- the cell lies below the payload, so storing it leaves the payload alone
    rw [haddr, hoffset, List.length_map, List.length_range,
      read_congr (hcellMem _ _ (.inr hcell')), hdata]

theorem putBlobOrString_spec (memcpyS : Nat → Bool) (value : Nat → UInt8) (hI : b.Inv W)
    (htype : IsPayload type.code) (hsafe : b.PayloadSafe size) :
    PutSpec b W row column (.payload type ((List.range size).map value))
      (b.putBlobOrString memcpyS row column (some value) size type) := by
  unfold putBlobOrString
  simp only
  split
  · exact .refused hI nofun
  rename_i hcond
  split
  · exact .refused hI nofun
  rename_i hfits
  have hsum := hsafe (Nat.le_of_not_lt hfits)
  rw [Nat.mod_eq_of_lt hsum] at hfits ⊢
  split
  · exact .moved hI hsum (by omega) nofun
  · exact .copied value hI htype (by omega) (by omega) hsum (by omega) rfl

/-! ### The mode of the mapping -/

theorem putBlobOrString_readOnly (memcpyS : Nat → Bool) :
    (b.putBlobOrString memcpyS row column value size type).2.mReadOnly = b.mReadOnly := by
  unfold putBlobOrString
  cases value with
  | none => rfl
  | some value =>
    dsimp only
    repeat' split
    all_goals rfl

theorem putBits_readOnly : (b.putBits row column type bits).2.mReadOnly = b.mReadOnly := by
  unfold putBits
  split <;> rfl

theorem putNull_readOnly : (b.putNull row column).2.mReadOnly = b.mReadOnly := by
  unfold putNull
  split <;> rfl

end RelationalStore.SharedBlock
