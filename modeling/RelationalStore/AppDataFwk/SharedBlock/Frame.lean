import RelationalStore.AppDataFwk.SharedBlock.Layout

/-! # What an operation leaves alone

`Touches` are the operations that write a cell, `Grows` those that change the set of rows. -/

namespace RelationalStore.SharedBlock

open Obj

variable {b b' : SharedBlock} {W W' : Nat → Nat → Prop}

/-- The cell at `r` and `c` and its payload, if it has one, are the same in `b'`. -/
def Keeps (b b' : SharedBlock) (r c : Nat) : Prop :=
  SameCell b b' r c ∧
    (IsPayload (b.cellType (b.cellAddr r c)) →
      Mem.EqOn b.mData b'.mData (lo b (.payload r c))
        (lo b (.payload r c) + len b (.payload r c)))

theorem Keeps.of_eqOn (haddr : b'.rowOffset r = b.rowOffset r)
    (hcell : Mem.EqOn b.mData b'.mData (b.cellAddr r c) (b.cellAddr r c + 12))
    (hpay : IsPayload (b.cellType (b.cellAddr r c)) →
      Mem.EqOn b.mData b'.mData (lo b (.payload r c))
        (lo b (.payload r c) + len b (.payload r c))) : Keeps b b' r c :=
  ⟨⟨by rw [cellAddr, haddr, cellAddr], hcell⟩, hpay⟩

theorem Keeps.refl : Keeps b b r c := ⟨⟨rfl, .refl⟩, fun _ => .refl⟩

theorem Keeps.trans (h : Keeps b b' r c) (h' : Keeps b' b'' r c) : Keeps b b'' r c := by
  refine ⟨⟨h'.1.1.trans h.1.1, h.1.2.trans ?_⟩, fun hp => (h.2 hp).trans ?_⟩
  · have := h'.1.2
    rwa [h.1.1] at this
  · have := h'.2 (h.1.type_eq.symm ▸ hp)
    simpa only [lo, len, h.1.offset_eq, h.1.size_eq] using this

inductive RawCell where
  | null
  | bits (type : CellUnitType) (value : Nat)
  | payload (type : CellUnitType) (data : List UInt8)

def Holds (b : SharedBlock) (r c : Nat) : RawCell → Prop
  | .null => b.cellType (b.cellAddr r c) = CellUnitType.null.code
  | .bits type value =>
    b.cellType (b.cellAddr r c) = type.code ∧ b.cellBits (b.cellAddr r c) = value
  | .payload type data =>
    IsPayload type.code ∧ b.cellType (b.cellAddr r c) = type.code ∧
      b.cellSize (b.cellAddr r c) = data.length ∧
      b.mData.read (b.cellOffset (b.cellAddr r c)) data.length = data

theorem Holds.congr (h : Keeps b b' r c) (hx : b.Holds r c x) : b'.Holds r c x := by
  cases x with
  | null => exact h.1.type_eq.trans hx
  | bits type value => exact ⟨h.1.type_eq.trans hx.1, h.1.bits_eq.trans hx.2⟩
  | payload type data =>
    obtain ⟨hp, htype, hsize, hdata⟩ := hx
    refine ⟨hp, h.1.type_eq.trans htype, h.1.size_eq.trans hsize, ?_⟩
    have hkeep := h.2 (htype.symm ▸ hp)
    simp only [lo, len, hsize] at hkeep
    rw [h.1.offset_eq, Mem.read_congr hkeep, hdata]

/-! ### Writing a cell -/

/-- Below `unusedOffset`, `b'` differs from `b` at most in the word `unusedOffset` and in the
cell `target`. -/
structure Touches (b b' : SharedBlock) (target : Option (Nat × Nat)) : Prop where
  size : b'.mSize = b.mSize
  live : ∀ row column, target = some (row, column) → row < b.rowNums ∧ column < b.columnNums
  mem : ∀ lo hi, 4 ≤ lo → hi ≤ b.unusedOffset →
    (∀ row column, target = some (row, column) →
      hi ≤ b.cellAddr row column ∨ b.cellAddr row column + 12 ≤ lo) →
    Mem.EqOn b.mData b'.mData lo hi

namespace Touches
variable {target : Option (Nat × Nat)}

section
variable (h : Touches b b' target)
include h

theorem object (hI : b.Inv W) (ho : b.Live W o) (hlo : 4 ≤ o.lo b)
    (hne : ∀ row column, target = some (row, column) → o ≠ .dir row) :
    Mem.EqOn b.mData b'.mData (o.lo b) (o.lo b + o.len b) := by
  refine h.mem _ _ hlo (hI.within o ho) fun row column ht => ?_
  obtain ⟨hrow, hcol⟩ := h.live row column ht
  have hcell := cell_within (b := b) (r := row) hcol
  rcases hI.apart o (.dir row) ho hrow (hne row column ht) with ha | ha
  · exact .inl (ha.trans hcell.1)
  · exact .inr (hcell.2.trans ha)

theorem header (hI : b.Inv W) : Mem.EqOn b.mData b'.mData 4 536 := by
  refine h.mem 4 536 (Nat.le_refl 4) hI.header_le fun row column ht => ?_
  obtain ⟨hrow, hcol⟩ := h.live row column ht
  have hcell := cell_within (b := b) (r := row) hcol
  rcases hI.apart .header (.dir row) trivial hrow nofun with ha | ha <;>
    simp only [lo, len] at ha
  · exact .inl (by omega)
  · omega

theorem rowNums_eq (hI : b.Inv W) : b'.rowNums = b.rowNums :=
  Mem.word_congr ((h.header hI).mono (by omega) (by omega))

theorem columnNums_eq (hI : b.Inv W) : b'.columnNums = b.columnNums :=
  Mem.word_congr ((h.header hI).mono (by omega) (by omega))

theorem groupOffset_eq (hI : b.Inv W) (hg : g < 128) :
    b'.groupOffset g = b.groupOffset g :=
  Mem.word_congr ((h.header hI).mono (by omega) (by omega))

theorem rowOffset_eq (hI : b.Inv W) (hr : r < b.rowNums) :
    b'.rowOffset r = b.rowOffset r := by
  obtain ⟨hlive, h1, h2⟩ := hI.slot_within hr
  have hge := hI.group_ge hlive
  refine rowOffset_congr (h.groupOffset_eq hI hlive.1) ?_
  exact (h.object hI hlive (by simp only [lo]; omega) nofun).mono
    (by simpa only [lo] using h1) (by simpa only [lo, len] using h2)

theorem keeps (hI : b.Inv W) (hr : r < b.rowNums) (hc : c < b.columnNums)
    (hW : W r c) (hne : target ≠ some (r, c)) : Keeps b b' r c := by
  have hin := cell_within (b := b) (r := r) hc
  have hdir := hI.within (.dir r) hr
  simp only [lo, len] at hdir
  have hge : 536 ≤ b.rowOffset r := by
    rcases hI.apart .header (.dir r) trivial hr (by simp) with ha | ha <;>
      simp only [lo, len] at ha <;> omega
  refine .of_eqOn (h.rowOffset_eq hI hr) ?_ fun hp => ?_
  · -- two cells of one directory are twelve bytes apart; two directories are apart
    refine h.mem _ _ (by omega) (by omega) fun row column ht => ?_
    obtain ⟨hrow, hcol⟩ := h.live row column ht
    by_cases hrr : row = r
    · subst hrr
      have hcc : column ≠ c := fun hcc => hne (hcc ▸ ht)
      unfold cellAddr
      omega
    · have hcell := cell_within (b := b) (r := row) hcol
      rcases hI.apart (.dir r) (.dir row) hr hrow (by simpa using Ne.symm hrr) with ha | ha <;>
        simp only [lo, len] at ha <;> omega
  · have hlive : b.Live W (.payload r c) := ⟨hr, hc, hW, hp⟩
    by_cases hlen : 0 < len b (.payload r c)
    · have := hI.data_ge hlive trivial hlen
      exact h.object hI hlive (by omega) (by simp)
    · intro i h1 h2
      omega

end

end Touches

/-! ### Changing the set of rows -/

structure Grows (b b' : SharedBlock) (W : Nat → Nat → Prop) : Prop where
  size : b'.mSize = b.mSize
  columns : b'.columnNums = b.columnNums
  group : ∀ r < b.rowNums, b'.groupOffset (r / 128) = b.groupOffset (r / 128)
  slot : ∀ r < b.rowNums, Mem.EqOn b.mData b'.mData (b.rowSlot r) (b.rowSlot r + 4)
  data : ∀ o, b.Live W o → o.IsData → Mem.EqOn b.mData b'.mData (o.lo b) (o.lo b + o.len b)

namespace Grows

theorem rowOffset_eq (h : Grows b b' W) (hr : r < b.rowNums) : b'.rowOffset r = b.rowOffset r :=
  rowOffset_congr (h.group r hr) (h.slot r hr)

theorem keeps (h : Grows b b' W) (hr : r < b.rowNums) (hc : c < b.columnNums) (hW : W r c) :
    Keeps b b' r c := by
  have hin := cell_within (b := b) (r := r) hc
  refine .of_eqOn (h.rowOffset_eq hr) ?_ fun hp => h.data _ ⟨hr, hc, hW, hp⟩ trivial
  exact (h.data (.dir r) hr trivial).mono hin.1 hin.2

theorem inv (h : Grows b b' W) (hI : b.Inv W) (new : Obj)
    (hunused : b.unusedOffset ≤ b'.unusedOffset) (hfits : b'.unusedOffset ≤ b.mSize)
    (hrows : b'.rowNums ≤ 128 * 128) (hgroup : ∀ r < b'.rowNums, b'.groupOffset (r / 128) ≠ 0)
    (hgroups : ∀ g < 128, b'.groupOffset g ≠ 0 → b'.groupOffset g = b.groupOffset g ∨
      (.group g = new ∧ b.unusedOffset ≤ b'.groupOffset g ∧
        b'.groupOffset g + 512 ≤ b'.unusedOffset))
    (hdirs : ∀ r < b'.rowNums, r < b.rowNums ∨
      (.dir r = new ∧ b.unusedOffset ≤ b'.rowOffset r ∧
        b'.rowOffset r + 12 * b.columnNums ≤ b'.unusedOffset))
    (hcells : ∀ r c, r < b'.rowNums → c < b.columnNums → W' r c →
      IsPayload (b'.cellType (b'.cellAddr r c)) → r < b.rowNums ∧ W r c) : b'.Inv W' := by
  refine hI.extend new h.size hunused hfits hrows (h.columns ▸ hI.columns_le) hgroup ?_
  intro o ho
  cases o with
  | header => exact .inl ⟨trivial, rfl, rfl⟩
  | group g =>
    rcases hgroups g ho.1 ho.2 with hg | hg
    · exact .inl ⟨⟨ho.1, hg ▸ ho.2⟩, hg, rfl⟩
    · exact .inr hg
  | dir r =>
    have hlen : len b' (.dir r) = 12 * b.columnNums := by rw [len, h.columns]
    rcases hdirs r ho with hr | ⟨hnew, hlo, hhi⟩
    · exact .inl ⟨hr, h.rowOffset_eq hr, hlen⟩
    · exact .inr ⟨hnew, hlo, hlen ▸ hhi⟩
  | payload r c =>
    obtain ⟨hr, hc, hw, hp⟩ := ho
    rw [h.columns] at hc
    obtain ⟨hr, hw⟩ := hcells r c hr hc hw hp
    obtain ⟨hcell, _⟩ := h.keeps hr hc hw
    exact .inl ⟨⟨hr, hc, hw, hcell.type_eq ▸ hp⟩, hcell.offset_eq, hcell.size_eq⟩

end Grows

end RelationalStore.SharedBlock
