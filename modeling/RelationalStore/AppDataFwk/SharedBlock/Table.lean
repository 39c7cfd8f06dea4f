import Mathlib.Data.List.TakeWhile
import RelationalStore.AppDataFwk.SharedBlock.Calls

/-! # A block as a table

What a block is for: a list of rows of values, which the bytes are shown to represent. -/

namespace RelationalStore.SharedBlock

open List

abbrev Table := List (Nat → CellValue)

def Table.put (t : Table) (row column : Nat) (value : CellValue) : Table :=
  t.modify row fun cells c => if c = column then value else cells c

def Op.put? : Op → Option (Nat × Nat × CellValue)
  | putBlob row column (some v) size => some (row, column, .bytes .blob ((List.range size).map v))
  | putString row column (some v) size =>
    some (row, column, .string ((List.range (size - 1)).map v))
  | putLong row column v => some (row, column, .integer v)
  | putDouble row column v => some (row, column, .float v)
  | putAsset row column (some v) size => some (row, column, .bytes .asset ((List.range size).map v))
  | putAssets row column (some v) size =>
    some (row, column, .bytes .assets ((List.range size).map v))
  | putFloats row column (some v) size =>
    some (row, column, .bytes .floats ((List.range size).map v))
  | putBigInt row column (some v) size =>
    some (row, column, .bytes .bigint ((List.range size).map v))
  | putNull row column => some (row, column, .null)
  | _ => none

def Table.record (t : Table) (op : Op) (st : BlockStatus) : Table :=
  if st = .ok then
    match op, op.put? with
    | .allocRow, _ => t ++ [fun _ : Nat => CellValue.null]
    | .freeLastRow, _ => t.dropLast
    | _, some (row, column, value) => t.put row column value
    | _, none => t
  else t

def IsText (v : Nat → UInt8) (size : Nat) : Prop :=
  0 < size ∧ (∀ i < size - 1, v i ≠ 0) ∧ v (size - 1) = 0

instance (v : Nat → UInt8) (size : Nat) : Decidable (IsText v size) :=
  inferInstanceAs (Decidable (_ ∧ _))

variable {b b' : SharedBlock} {W : Nat → Nat → Prop} {memcpyS : Nat → Bool} {t : Table}

/-! ### Reading a cell -/

/-- The value that a reader gets from the content of a cell. -/
inductive RawCell.Reads : RawCell → CellValue → Prop
  | null : Reads .null .null
  | integer : Reads (.bits .integer w) (.integer (Int64.ofUInt64 (UInt64.ofNat w)))
  | float : Reads (.bits .float w) (.float (UInt64.ofNat w))
  | string (text : List UInt8) :
    Reads (.payload .string (text ++ [0])) (.string (text.takeWhile (· ≠ 0)))
  | bytes : type ≠ .string → Reads (.payload type data) (.bytes type data)

theorem getBlob_eq (hsize : b.cellSize cell = data.length)
    (hdata : b.mData.read (b.cellOffset cell) data.length = data)
    (hfits : b.cellOffset cell + data.length ≤ b.mSize) (hlt : b.mSize < 2 ^ 31) :
    b.getBlob cell = data := by
  have hptr : b.offsetToPtr (b.cellOffset cell) (b.cellSize cell) = some (b.cellOffset cell) :=
    if_neg (by rw [hsize, Nat.mod_eq_of_lt (by omega)]; omega)
  rw [getBlob, hptr]
  exact hsize ▸ hdata

theorem takeWhile_ne_zero (text : List UInt8) :
    ∃ rest, text ++ [0] = text.takeWhile (· ≠ 0) ++ 0 :: rest := by
  induction text with
  | nil => exact ⟨[], rfl⟩
  | cons x text ih =>
    obtain ⟨rest, hrest⟩ := ih
    by_cases hx : x = 0
    · exact ⟨text ++ [0], by simp [hx]⟩
    · exact ⟨rest, by simp [hx] at hrest ⊢; exact hrest⟩

theorem getString_eq (hsize : b.cellSize cell = text.length + 1)
    (hdata : b.mData.read (b.cellOffset cell) (text.length + 1) = text ++ [0])
    (hfits : b.cellOffset cell + (text.length + 1) ≤ b.mSize) (hlt : b.mSize < 2 ^ 31) :
    b.getString cell = text.takeWhile (· ≠ 0) := by
  have hptr : b.offsetToPtr (b.cellOffset cell) (b.cellSize cell) = some (b.cellOffset cell) :=
    if_neg (by rw [hsize, Nat.mod_eq_of_lt (by omega)]; omega)
  rw [getString, hptr]
  simp only [hsize, Nat.not_lt.mpr (Nat.le_add_left 1 text.length), if_false]
  obtain ⟨rest, hrest⟩ := takeWhile_ne_zero text
  have hlen := congrArg List.length hrest
  have hne : ∀ x ∈ text.takeWhile (· ≠ 0), x ≠ 0 := fun x hx => by
    simpa using mem_takeWhile_imp hx
  rw [hrest] at hdata
  generalize text.takeWhile (· ≠ 0) = pre at hdata hlen hne
  simp only [length_append, length_cons, length_nil] at hlen
  -- the bytes up to the zero byte are the text read, and none of them is zero
  rw [show text.length + 1 = pre.length + (1 + rest.length) by omega, Mem.read, range_add,
    map_append] at hdata
  obtain ⟨hbytes, htail⟩ := append_inj hdata (by simp)
  have hlen : b.mData.strlen (b.cellOffset cell) (b.mSize - b.cellOffset cell) = pre.length := by
    refine Mem.strlen_eq (by omega) (fun i hi => hne _ ?_) ?_
    · rw [← hbytes]
      exact mem_map.mpr ⟨i, mem_range.mpr hi, rfl⟩
    · rw [Nat.add_comm 1, range_succ_eq_map] at htail
      exact (List.cons.inj htail).1
  rw [hlen]
  exact hbytes
theorem readCell_of_holds (hI : b.Inv W) (hr : r < b.rowNums) (hc : c < b.columnNums) (hW : W r c)
    (hx : b.Holds r c x) (hv : x.Reads v) : b.readCell r c = some v := by
  have hcell : b.getCellUnit r c = some (b.cellAddr r c) := if_neg (by omega)
  have hfits : ∀ (type : CellUnitType) (data : List UInt8), b.Holds r c (.payload type data) →
      b.cellOffset (b.cellAddr r c) + data.length ≤ b.mSize := by
    rintro type data ⟨hp, htype, hsize, _⟩
    have := hI.within (.payload r c) ⟨hr, hc, hW, htype.symm ▸ hp⟩
    rw [Obj.lo, Obj.len, hsize] at this
    exact this.trans hI.unused_le
  have hlt := hI.size_lt
  rw [readCell, hcell]
  cases hv with
  | null => simp only [show b.cellType (b.cellAddr r c) = CellUnitType.null.code from hx,
      CellUnitType.ofCode?_code]
  | integer => simp only [hx.1, hx.2, CellUnitType.ofCode?_code]
  | float => simp only [hx.1, hx.2, CellUnitType.ofCode?_code]
  | string text =>
    have hfits := hfits _ _ hx
    obtain ⟨_, htype, hsize, hdata⟩ := hx
    rw [length_append, length_singleton] at hsize hdata hfits
    simp only [htype, CellUnitType.ofCode?_code, getString_eq hsize hdata hfits hlt]
  | bytes hne =>
    rename_i type data
    have hfits := hfits _ _ hx
    obtain ⟨hp, htype, hsize, hdata⟩ := hx
    simp only [htype, CellUnitType.ofCode?_code]
    cases type with
    | null | integer | float => exact absurd hp (by decide)
    | string => exact absurd rfl hne
    | _ => simp only [getBlob_eq hsize hdata hfits hlt]

/-! ### The simulation -/

structure Models (b : SharedBlock) (n : Nat) (t : Table) : Prop where
  inv : b.Inv allCells
  rows : b.rowNums = t.length
  columns : b.columnNums = n
  cell : ∀ r cells, t[r]? = some cells → ∀ c < n, ∃ x, b.Holds r c x ∧ x.Reads (cells c)

/-- A reader of the block sees the table. -/
def Shows (b : SharedBlock) (n : Nat) (t : Table) : Prop :=
  b.rowNums = t.length ∧ b.columnNums = n ∧
    ∀ r cells, t[r]? = some cells → ∀ c < n, b.readCell r c = some (cells c)

theorem Models.row_lt (h : Models b n t) (hr : t[r]? = some cells) : r < b.rowNums :=
  h.rows ▸ (List.getElem?_eq_some_iff.mp hr).1

theorem Models.shows (h : Models b n t) : Shows b n t := by
  refine ⟨h.rows, h.columns, fun r cells hr c hc => ?_⟩
  obtain ⟨x, hx, hv⟩ := h.cell r cells hr c hc
  exact readCell_of_holds h.inv (h.row_lt hr) (h.columns.symm ▸ hc) trivial hx hv

theorem Shows.readCell_eq (h : Shows b n t) (h' : Shows b' n t) (hr : r < b.rowNums)
    (hc : c < b.columnNums) : b'.readCell r c = b.readCell r c := by
  have hr : r < t.length := h.1 ▸ hr
  have hc : c < n := h.2.1 ▸ hc
  have hget : t[r]? = some t[r] := List.getElem?_eq_getElem hr
  rw [h.2.2 r _ hget c hc, h'.2.2 r _ hget c hc]

theorem Models.put (h : Models b n t) (hspec : PutSpec b allCells row column x res)
    (hv : x.Reads v) : Models res.2 n (if res.1 = .ok then t.put row column v else t) := by
  have hlen : (if res.1 = .ok then t.put row column v else t).length = t.length := by
    split
    · exact length_modify _ _ _
    · rfl
  refine ⟨hspec.inv _ fun _ _ => .inl, by rw [hspec.rows, h.rows, hlen],
    hspec.columns.trans h.columns, ?_⟩
  intro r cells hr c hc
  have hkeep : ∀ old, t[r]? = some old → (res.1 = .ok → (r, c) ≠ (row, column)) →
      ∃ x, res.2.Holds r c x ∧ x.Reads (old c) := by
    intro old hold hne
    obtain ⟨y, hy, hy'⟩ := h.cell r old hold c hc
    exact ⟨y, hy.congr (hspec.keeps r c (h.row_lt hold) (h.columns.symm ▸ hc) trivial hne), hy'⟩
  split at hr
  next hok =>
    rw [Table.put, getElem?_modify] at hr
    obtain ⟨old, hold, rfl⟩ := Option.map_eq_some_iff.mp hr
    by_cases hrow : row = r
    · by_cases hcol : c = column
      · subst hrow hcol
        obtain ⟨_, _, hx⟩ := hspec.holds hok
        exact ⟨x, hx, by simpa using hv⟩
      · simpa [hrow, hcol] using hkeep old hold fun _ h => hcol (Prod.mk.inj h).2
    · simpa [hrow] using hkeep old hold fun _ h => hrow (Prod.mk.inj h).1.symm
  next hok => exact hkeep cells hr fun h => absurd h hok

theorem Models.allocRow (h : Models b n t)
    (hfresh : ∀ c < b.columnNums, b.cellType (b.freshRow + 12 * c) = 0) :
    Models b.allocRow.2 n (if b.allocRow.1 = .ok then t ++ [fun _ => .null] else t) := by
  have hspec := allocRow_spec h.inv
  have hinv : b.allocRow.2.Inv allCells := by
    refine hspec.inv _ (fun _ _ _ hw => hw) fun c hc _ => ?_
    rw [hfresh c hc]
    decide
  have hcols := hspec.columns.trans h.columns
  have hold : ∀ r cells, t[r]? = some cells → ∀ c < n,
      ∃ x, b.allocRow.2.Holds r c x ∧ x.Reads (cells c) := by
    intro r cells hr c hc
    obtain ⟨y, hy, hy'⟩ := h.cell r cells hr c hc
    exact ⟨y, hy.congr (hspec.keeps r c (h.row_lt hr) (h.columns.symm ▸ hc) trivial), hy'⟩
  by_cases hok : b.allocRow.1 = .ok
  · obtain ⟨hrows, htype⟩ := hspec.done hok
    rw [if_pos hok]
    refine ⟨hinv, by rw [hrows, h.rows, length_append, length_singleton], hcols, ?_⟩
    intro r cells hr c hc
    rcases Nat.lt_trichotomy r t.length with hlt | heq | hgt
    · rw [getElem?_append_left hlt] at hr
      exact hold r cells hr c hc
    · subst heq
      rw [getElem?_concat_length] at hr
      obtain rfl := Option.some.inj hr
      have hc : c < b.columnNums := h.columns.symm ▸ hc
      refine ⟨.null, ?_, .null⟩
      rw [Holds, ← h.rows, htype c hc, hfresh c hc]
      rfl
    · rw [getElem?_eq_none (by rw [length_append]; exact hgt)] at hr
      cases hr
  · rw [if_neg hok]
    exact ⟨hinv, (hspec.failed hok).trans h.rows, hcols, hold⟩

theorem Models.freeLastRow (h : Models b n t) : Models b.freeLastRow.2 n t.dropLast := by
  have hspec := freeLastRow_spec h.inv
  refine ⟨hspec.inv, by rw [hspec.rows, h.rows, length_dropLast],
    hspec.columns.trans h.columns, ?_⟩
  intro r cells hr c hc
  rw [getElem?_dropLast] at hr
  split at hr
  · obtain ⟨y, hy, hy'⟩ := h.cell r cells hr c hc
    have hlt : r < b.freeLastRow.2.rowNums := by rw [hspec.rows, h.rows]; assumption
    exact ⟨y, hy.congr (hspec.keeps r c hlt (h.columns.symm ▸ hc) trivial), hy'⟩
  · exact nomatch hr

/-- A new directory holds no old cell, and a payload ends where its 32-bit end says. -/
def Op.Plain (b : SharedBlock) : Op → Prop
  | clear | setColumnNum _ => False
  | allocRow => ∀ c < b.columnNums, b.cellType (b.freshRow + 12 * c) = 0
  | putString _ _ value size => b.PayloadSafe size ∧ ∀ v ∈ value, IsText v size
  | putBlob _ _ _ size | putAsset _ _ _ size | putAssets _ _ _ size | putFloats _ _ _ size
  | putBigInt _ _ _ size => b.PayloadSafe size
  | _ => True

instance (b : SharedBlock) : (op : Op) → Decidable (op.Plain b)
  | .clear | .setColumnNum _ => .isFalse nofun
  | .allocRow => inferInstanceAs (Decidable (∀ _ < _, _))
  | .putString _ _ none size => decidable_of_iff (b.PayloadSafe size) (by simp [Op.Plain])
  | .putString _ _ (some v) size =>
    decidable_of_iff (b.PayloadSafe size ∧ IsText v size) (by simp [Op.Plain])
  | .putBlob _ _ _ size | .putAsset _ _ _ size | .putAssets _ _ _ size
  | .putFloats _ _ _ size | .putBigInt _ _ _ size =>
    inferInstanceAs (Decidable (b.PayloadSafe size))
  | .freeLastRow | .putLong .. | .putDouble .. | .putNull .. => .isTrue trivial

def tableStep (memcpyS : Nat → Bool) (s : SharedBlock × Table) (op : Op) :
    BlockStatus × SharedBlock × Table :=
  let (st, b) := op.apply memcpyS s.1
  (st, b, s.2.record op st)

theorem Op.put_spec (memcpyS : Nat → Bool) {op : Op} (hI : b.Inv allCells) (hplain : op.Plain b)
    (hput : op.put? = some (row, column, v)) :
    ∃ x : RawCell, x.Reads v ∧ PutSpec b allCells row column x (op.apply memcpyS b) := by
  cases op with
  | clear | setColumnNum n | allocRow | freeLastRow => exact nomatch hput
  | putNull r c =>
    cases hput
    exact ⟨.null, .null, putNull_spec hI⟩
  | putLong r c value =>
    cases hput
    refine ⟨.bits .integer value.toUInt64.toNat, ?_,
      putBits_spec hI (.inl rfl) value.toUInt64.toNat_lt⟩
    simpa using RawCell.Reads.integer (w := value.toUInt64.toNat)
  | putDouble r c value =>
    cases hput
    refine ⟨.bits .float value.toNat, ?_, putBits_spec hI (.inr rfl) value.toNat_lt⟩
    simpa using RawCell.Reads.float (w := value.toNat)
  | putString r c value size =>
    cases value with
    | none => exact nomatch hput
    | some bytes =>
      cases hput
      obtain ⟨hpos, hne, hzero⟩ := hplain.2 bytes rfl
      refine ⟨_, ?_, putBlobOrString_spec memcpyS bytes hI (by decide) hplain.1⟩
      obtain ⟨n, rfl⟩ := Nat.exists_eq_succ_of_ne_zero (Nat.ne_of_gt hpos)
      rw [range_succ, map_append, map_singleton, show bytes n = 0 from hzero]
      have htext : ((List.range n).map bytes).takeWhile (· ≠ 0) = (List.range n).map bytes := by
        refine takeWhile_eq_self_iff.mpr fun x hx => ?_
        obtain ⟨i, hi, rfl⟩ := mem_map.mp hx
        exact decide_eq_true (hne i (mem_range.mp hi))
      have hreads := RawCell.Reads.string ((List.range n).map bytes)
      rwa [htext] at hreads
  | putBlob r c value size | putAsset r c value size | putAssets r c value size
  | putFloats r c value size | putBigInt r c value size =>
    cases value with
    | none => exact nomatch hput
    | some bytes =>
      cases hput
      exact ⟨_, .bytes nofun, putBlobOrString_spec memcpyS bytes hI (by decide) hplain⟩

theorem Table.record_of_put (hput : op.put? = some (row, column, v)) :
    t.record op st = if st = .ok then t.put row column v else t := by
  cases op with
  | clear | setColumnNum n | allocRow | freeLastRow => exact nomatch hput
  | _ => simp only [record, hput]

theorem Models.step (memcpyS : Nat → Bool) (h : Models b n t) (hplain : op.Plain b) :
    Models (op.apply memcpyS b).2 n (t.record op (op.apply memcpyS b).1) := by
  cases hput : op.put? with
  | some p =>
    obtain ⟨row, column, v⟩ := p
    obtain ⟨x, hx, hspec⟩ := Op.put_spec memcpyS h.inv hplain hput
    rw [Table.record_of_put hput]
    exact h.put hspec hx
  | none =>
    cases op with
    | clear | setColumnNum n => exact hplain.elim
    | allocRow => exact h.allocRow hplain
    | freeLastRow =>
      have hok : b.freeLastRow.1 = .ok := by
        unfold SharedBlock.freeLastRow
        split <;> rfl
      rw [Op.apply, Table.record, if_pos hok]
      exact h.freeLastRow
    | putLong r c value | putDouble r c value | putNull r c => cases hput
    | putBlob r c value size | putString r c value size | putAsset r c value size
    | putAssets r c value size | putFloats r c value size | putBigInt r c value size =>
      -- a null pointer
      cases value with
      | none => exact h
      | some bytes => cases hput

theorem Models.start (b : SharedBlock) (numColumns : Nat) (hw : b.mReadOnly = false)
    (hsize : 1048 ≤ b.mSize) (hlt : b.mSize < 2 ^ 31) :
    Models (b.clear.2.setColumnNum numColumns).2 (b.clear.2.setColumnNum numColumns).2.columnNums
      [] := by
  have hclear := clear_cleared hw
  have hI : b.clear.2.Inv allCells := hclear.inv (clear_size.symm ▸ hsize) (clear_size.symm ▸ hlt)
  obtain ⟨hinv, _, hrows, _⟩ := setColumnNum_spec (n := numColumns) hI
  exact ⟨hinv, hrows.trans hclear.rows, rfl, nofun⟩

theorem shows_of_plain (memcpyS : Nat → Bool) (b : SharedBlock) (numColumns : Nat) (ops : List Op)
    (hw : b.mReadOnly = false) (hsize : 1048 ≤ b.mSize) (hlt : b.mSize < 2 ^ 31)
    (hplain : ∀ t ∈ trace (tableStep memcpyS) ((b.clear.2.setColumnNum numColumns).2, []) ops,
      t.call.Plain t.pre.1) :
    ∀ t ∈ trace (tableStep memcpyS) ((b.clear.2.setColumnNum numColumns).2, []) ops,
      Shows t.post.1 (b.clear.2.setColumnNum numColumns).2.columnNums t.post.2 ∧
      (t.ret ≠ .ok → t.post.1.rowNums = t.pre.1.rowNums ∧
        ∀ r < t.pre.1.rowNums, ∀ c < t.pre.1.columnNums,
          t.post.1.readCell r c = t.pre.1.readCell r c) := by
  refine trace_forall (I := fun s => Models s.1 _ s.2) (G := fun s op => op.Plain s.1) ?_
    (Models.start b numColumns hw hsize hlt) hplain
  rintro ⟨b', t⟩ op hmodels hplain
  have hnext := hmodels.step memcpyS hplain
  refine ⟨hnext, hnext.shows, fun hret => ?_⟩
  have hsame : t.record op (op.apply memcpyS b').1 = t := if_neg hret
  rw [hsame] at hnext
  exact ⟨hnext.rows.trans hmodels.rows.symm,
    fun r hr c hc => hmodels.shows.readCell_eq hnext.shows hr hc⟩

theorem shows_of_plain_row : ∃ b, create 4096 = some b ∧
    ∀ t ∈ trace (tableStep secureMemcpy) ((b.clear.2.setColumnNum 2).2, [])
      [.allocRow, .putString 0 0 (some fun i => if i < 2 then 65 else 0) 3, .putLong 0 1 9],
      Shows t.post.1 (b.clear.2.setColumnNum 2).2.columnNums t.post.2 :=
  ⟨_, rfl, fun t ht => (shows_of_plain secureMemcpy _ 2 _ rfl (by decide) (by decide) (by decide) t
    ht).1⟩

theorem not_shows_of_wrap_or_stale : ∃ b, create 4096 = some b ∧
    (let s := final (tableStep secureMemcpy) ((b.clear.2.setColumnNum 1).2, [])
      [.allocRow, .putLong 0 0 7, .putBlob 0 0 (some fun _ => 0) (2 ^ 32 - 12), .allocRow,
        .putLong 1 0 9]
    ¬ Shows s.1 1 s.2) ∧
    let old := final (Op.apply secureMemcpy) b [.setColumnNum 1, .allocRow, .putLong 0 0 7]
    old.WellFormed ∧
      let s := final (tableStep secureMemcpy) ((old.clear.2.setColumnNum 1).2, []) [.allocRow]
      ¬ Shows s.1 1 s.2 := by
  refine ⟨_, rfl, fun h => ?_, ?_, fun h => ?_⟩
  · exact absurd (h.2.2 0 _ rfl 0 (by decide)) (by decide)
  · exact (final_inv_of_safe (create_inv (by decide : 1048 ≤ 4096) (by decide) rfl)
      (by decide)).wellFormed
  · exact absurd (h.2.2 0 _ rfl 0 (by decide)) (by decide)

end RelationalStore.SharedBlock
