import RelationalStore.AppDataFwk.SharedBlock.Room
import RelationalStore.Rdb.ResultSet.SharedCursor

/-! # Rows that fit

When `FillOneRow`, which reports every failure as a full block, copies a row. -/

namespace RelationalStore

open List
open SharedBlock

variable {q : Query} {b b' : SharedBlock} {memcpyS : Nat → Bool}

def SqliteValue.payload : SqliteValue → Nat
  | text bytes => bytes.length + 1
  | blob bytes => bytes.length
  | _ => 0

def encodedSize (row : List SqliteValue) : Nat :=
  12 * row.length + (row.map SqliteValue.payload).sum

def SqliteValue.Copied (memcpyS : Nat → Bool) (v : SqliteValue) : Prop :=
  v ≠ .blob [] ∧ (v.payload ≠ 0 → memcpyS v.payload)

def SharedBlock.HasRoom (b : SharedBlock) (row : List SqliteValue) : Prop :=
  b.rowNums < 128 * 128 ∧ b.rowStart + encodedSize row ≤ b.mSize

/-! ### One row -/

variable {res : BlockStatus × SharedBlock}

theorem fillResult_success :
    (fillResult res).1 = .success ↔ res.1 = .ok := by
  unfold fillResult
  split <;> simp_all

theorem fillResult_block : (fillResult res).2 = res.2 := by
  unfold fillResult
  split <;> rfl

theorem fillResult_size :
    (fillResult res).2.mSize = res.2.mSize :=
  congrArg mSize fillResult_block

theorem SharedBlock.Takes.fillResult
    (h : Takes b size copied (res.1 = .ok) res.2) (hcopied : copied ↔ copied') :
    Takes b size copied' ((RelationalStore.fillResult res).1 = .success)
      (RelationalStore.fillResult res).2 := by
  rw [fillResult_block]
  exact h.congr hcopied fillResult_success.symm

theorem SqliteValue.copied_of_cell {v : SqliteValue} (hzero : v.payload = 0) (hne : v ≠ .blob []) :
    True ↔ v.Copied memcpyS :=
  ⟨fun _ => ⟨hne, fun h => absurd hzero h⟩, fun _ => trivial⟩

theorem fillColumn_takes (memcpyS : Nat → Bool) (hI : b.Inv W) (decl : Option String)
    (hv : v.size + 1 < 2 ^ 31) (hr : row < b.rowNums) (hc : c < b.columnNums) :
    Takes b v.payload (v.Copied memcpyS) ((fillColumn memcpyS b row c decl v).1 = .success)
      (fillColumn memcpyS b row c decl v).2 := by
  have hunused := hI.unused_le
  have hlt := hI.size_lt
  cases v with
  | null =>
    rw [fillColumn, fillOneRowOfNull]
    exact (putNull_takes hI hr hc).fillResult (SqliteValue.copied_of_cell rfl nofun)
  | integer value =>
    rw [fillColumn, fillOneRowOfLong, putLong]
    exact (putBits_takes hI hr hc).fillResult (SqliteValue.copied_of_cell rfl nofun)
  | float bits =>
    rw [fillColumn, fillOneRowOfFloat, putDouble]
    exact (putBits_takes hI hr hc).fillResult (SqliteValue.copied_of_cell rfl nofun)
  | text bytes =>
    have hlen : bytes.length + 1 < 2 ^ 31 := hv
    have hsum : b.unusedOffset + (bytes.length + 1) < 2 ^ 32 := by omega
    rw [fillColumn, fillOneRowOfString, putString]
    exact (putBlobOrString_takes memcpyS _ hI hr hc hsum).fillResult
      ⟨fun h => ⟨nofun, h⟩, And.right⟩
  | blob bytes =>
    have hlen : bytes.length + 1 < 2 ^ 31 := hv
    have hsum : b.unusedOffset + bytes.length < 2 ^ 32 := by omega
    rw [fillColumn, fillOneRowOfBlob_eq]
    by_cases hne : bytes = []
    · -- the pointer of an empty blob is null
      rw [if_pos hne]
      refine ⟨⟨nofun, fun h => absurd (congrArg SqliteValue.blob hne) h.2.1⟩, nofun, nofun, ?_⟩
      rw [fillResult_block]
      exact .refl
    · rw [if_neg hne]
      exact (putBlobOrString_takes memcpyS _ hI hr hc hsum).fillResult
        ⟨fun h => ⟨fun h' => hne (SqliteValue.blob.inj h'), h⟩, And.right⟩

theorem fillColumns_takes (memcpyS : Nat → Bool) (hI : b.Inv (Before width row k))
    (hsize : ∀ x ∈ cells, x.2.size + 1 < 2 ^ 31) (hr : row < b.rowNums)
    (hc : k + cells.length ≤ b.columnNums) :
    Takes b (cells.map (·.2.payload)).sum (∀ x ∈ cells, x.2.Copied memcpyS)
      ((fillColumns memcpyS row k cells b).1 = .success)
      (fillColumns memcpyS row k cells b).2 := by
  induction cells generalizing k b with
  | nil =>
    exact ⟨⟨fun _ => ⟨hI.unused_le, nofun⟩, fun _ => rfl⟩, fun _ => rfl, fun _ => .refl, .refl⟩
  | cons x cells ih =>
    obtain ⟨decl, v⟩ := x
    rw [length_cons] at hc
    have hhead := fillColumn_takes memcpyS hI decl (hsize _ (.head _)) hr (c := k) (by omega)
    obtain ⟨res, hfill, hput, _⟩ := fillColumn_cases memcpyS hI decl (hsize _ (.head _)) row k
    rw [fillColumns]
    rw [hfill, fillResult_block] at hhead
    rw [hfill]
    have hcopied : (v.Copied memcpyS ∧ ∀ x ∈ cells, x.2.Copied memcpyS) ↔
        ∀ x ∈ (decl, v) :: cells, x.2.Copied memcpyS := by
      rw [forall_mem_cons]
    by_cases hok : res.1 = .ok
    · have hrest := ih (hput.inv_before hok) (fun x hx => hsize x (.tail _ hx))
        (hput.rows.symm ▸ hr) (hput.columns.symm ▸ by omega)
      have hres : fillResult res = (.success, res.2) := if_pos hok
      rw [hres]
      refine (hhead.trans hput.size (fun _ => hrest) hrest.pos).congr hcopied
        ⟨And.right, fun h => ⟨?_, h⟩⟩
      exact fillResult_success.mpr hok
    · have hres : fillResult res = (.isFull, res.2) := if_neg hok
      rw [hres]
      have hnever : (fillResult res).1 = .success → Takes res.2 (cells.map (·.2.payload)).sum
          (∀ x ∈ cells, x.2.Copied memcpyS) False res.2 :=
        fun h => absurd (fillResult_success.mp h) hok
      exact (hhead.trans hput.size hnever .refl).congr hcopied
        ⟨fun h => h.2.elim, fun h => by cases h⟩

structure RowTakes (b : SharedBlock) (row : List SqliteValue) (copied : Prop)
    (res : FillOneRowResult × SharedBlock) : Prop where
  success_iff : res.1 = .success ↔ b.HasRoom row ∧ copied
  unused : res.1 = .success → res.2.unusedOffset = b.rowStart + encodedSize row
  groups : res.1 = .success →
    ∀ g < 128, g ≠ b.rowNums / 128 → res.2.groupOffset g = b.groupOffset g
  pos : Mem.EqOn b.mData res.2.mData 12 24

theorem RowTakes.failed (h : b.HasRoom row → ¬ copied) (hpos : Mem.EqOn b.mData b'.mData 12 24) :
    RowTakes b row copied (.isFull, b') :=
  ⟨⟨nofun, fun ⟨hroom, hcopied⟩ => absurd hcopied (h hroom)⟩, nofun, nofun, hpos⟩

theorem fillColumns_takes_of_opened (memcpyS : Nat → Bool) (h : Opened q b start rows)
    (hcells : q.rows[start + rows]? = some cells) :
    Takes b (cells.map SqliteValue.payload).sum (∀ v ∈ cells, v.Copied memcpyS)
      ((fillColumns memcpyS rows 0 (q.decls.zip cells) b).1 = .success)
      (fillColumns memcpyS rows 0 (q.decls.zip cells) b).2 := by
  have hmem := mem_of_getElem? hcells
  have hwidth := q.width cells hmem
  have hsnd : (q.decls.zip cells).map Prod.snd = cells := map_snd_zip hwidth.le
  have htakes := fillColumns_takes memcpyS h.inv
    (fun x (hx : x ∈ q.decls.zip cells) => q.size_lt cells hmem x.2 (of_mem_zip hx).2)
    (h.rows_eq.symm ▸ Nat.lt_succ_self rows)
    (by rw [Nat.zero_add, length_zip, hwidth, Nat.min_self, h.columns_eq])
  have hsum : ((q.decls.zip cells).map (·.2.payload)).sum =
      (cells.map SqliteValue.payload).sum := by
    conv_rhs => rw [← hsnd, map_map]
    rfl
  rw [hsum] at htakes
  refine htakes.congr ?_ .rfl
  conv_rhs => rw [← hsnd]
  exact forall_mem_map.symm

theorem Window.fillOneRow_takes (memcpyS : Nat → Bool) (h : Window q b start rows)
    (hcells : q.rows[start + rows]? = some cells) :
    RowTakes b cells (∀ v ∈ cells, v.Copied memcpyS)
      (fillOneRow memcpyS b (q.decls.zip cells) rows) := by
  have hwidth : cells.length = b.columnNums :=
    (q.width cells (mem_of_getElem? hcells)).trans h.columns_eq.symm
  have hroom := allocRow_room h.inv
  have hspec := allocRow_spec h.inv
  obtain ⟨hopened, _⟩ := h.allocRow
  unfold fillOneRow
  generalize b.allocRow = res at hroom hspec hopened
  obtain ⟨st, b₁⟩ := res
  by_cases hok : st = .ok
  · subst hok
    have htakes := fillColumns_takes_of_opened memcpyS (hopened rfl) hcells
    obtain ⟨hrows, hdir⟩ := hroom.ok_iff.mp rfl
    have hunused := hroom.unused rfl
    have hgroups := hroom.groups rfl
    have hsize : b₁.mSize = b.mSize := hspec.size
    have hend : b₁.unusedOffset + (cells.map SqliteValue.payload).sum =
        b.rowStart + encodedSize cells := by
      rw [hunused, encodedSize, hwidth, Nat.add_assoc]
    have hroom_iff : b₁.unusedOffset + (cells.map SqliteValue.payload).sum ≤ b₁.mSize ↔
        b.HasRoom cells := by
      rw [hend, hsize]
      exact ⟨fun hfits => ⟨hrows, hfits⟩, And.right⟩
    dsimp only
    generalize fillColumns memcpyS rows 0 (q.decls.zip cells) b₁ = res at htakes
    obtain ⟨st, b₂⟩ := res
    have hpos := hroom.pos.trans htakes.pos
    cases st with
    | success =>
      refine ⟨htakes.ok_iff.trans (and_congr_left fun _ => hroom_iff), fun _ => ?_,
        fun _ g hg hne => ?_, hpos⟩
      · exact (htakes.unused rfl).trans hend
      · rw [← hgroups g hg hne]
        exact Mem.word_congr ((htakes.header rfl).mono (by omega) (by omega))
    | isFull =>
      refine .failed (fun hfits hcopied => ?_) (hpos.trans freeLastRow_pos)
      exact nomatch htakes.ok_iff.mpr ⟨hroom_iff.mpr hfits, hcopied⟩
  · have hfull : ¬ b.HasRoom cells := fun ⟨hrows, hfits⟩ => by
      refine hok (hroom.ok_iff.mpr ⟨hrows, ?_⟩)
      rw [encodedSize, hwidth] at hfits
      omega
    cases st with
    | ok => exact absurd rfl hok
    | _ => exact .failed (fun hroom => absurd hroom hfull) hroom.pos

theorem fillColumn_size (memcpyS : Nat → Bool) (row c : Nat) (decl : Option String)
    (v : SqliteValue) : (fillColumn memcpyS b row c decl v).2.mSize = b.mSize := by
  cases v with
  | null => rw [fillColumn, fillOneRowOfNull, fillResult_size, putNull_size]
  | integer value => rw [fillColumn, fillOneRowOfLong, putLong, fillResult_size, putBits_size]
  | float bits => rw [fillColumn, fillOneRowOfFloat, putDouble, fillResult_size, putBits_size]
  | text bytes =>
    rw [fillColumn, fillOneRowOfString, putString, fillResult_size, putBlobOrString_size]
  | blob bytes => rw [fillColumn, fillOneRowOfBlob_eq, fillResult_size, putBlobOrString_size]

theorem fillColumns_size (memcpyS : Nat → Bool) (row k : Nat)
    (cells : List (Option String × SqliteValue)) :
    (fillColumns memcpyS row k cells b).2.mSize = b.mSize := by
  induction cells generalizing k b with
  | nil => rfl
  | cons x cells ih =>
    have hhead := fillColumn_size (b := b) memcpyS row k x.1 x.2
    rw [fillColumns]
    split
    next hfill => rwa [hfill] at hhead
    next b₁ hfill =>
      rw [hfill] at hhead
      exact (ih (k + 1)).trans hhead

theorem fillOneRow_size (memcpyS : Nat → Bool) (cells : List (Option String × SqliteValue))
    (rows : Nat) : (fillOneRow memcpyS b cells rows).2.mSize = b.mSize := by
  have halloc := allocRow_size (b := b)
  unfold fillOneRow
  generalize b.allocRow = res at halloc
  obtain ⟨st, b₁⟩ := res
  cases st with
  | ok =>
    have hcolumns := fillColumns_size (b := b₁) memcpyS rows 0 cells
    dsimp only at halloc ⊢
    generalize fillColumns memcpyS rows 0 cells b₁ = res at hcolumns
    obtain ⟨st, b₂⟩ := res
    cases st with
    | success => exact hcolumns.trans halloc
    | isFull => exact freeLastRow_size.trans (hcolumns.trans halloc)
  | _ => exact halloc

/-! ### An empty block -/

structure Emptied (b : SharedBlock) : Prop where
  unused : b.unusedOffset = 1048
  rows : b.rowNums = 0
  group : b.groupOffset 0 ≠ 0
  groups : ∀ g < 128, g ≠ 0 → b.groupOffset g = 0

theorem emptied_setColumnNum (hw : b.mReadOnly = false) : Emptied (b.clear.2.setColumnNum n).2 := by
  have hclear := clear_cleared hw
  have hgroups : ∀ g, (b.clear.2.setColumnNum n).2.groupOffset g = b.clear.2.groupOffset g :=
    fun g => Mem.word_congr (setColumnNum_eqOn (.inr (by omega)))
  refine ⟨(Mem.word_congr (setColumnNum_eqOn (.inl (by omega)))).trans hclear.unused,
    (Mem.word_congr (setColumnNum_eqOn (.inl (by omega)))).trans hclear.rows, ?_,
    fun g hg hne => ?_⟩
  · rw [hgroups, hclear.group]
    decide
  · rw [hgroups, hclear.groups g hg hne]

theorem Emptied.hasRoom_iff (h : Emptied b) :
    b.HasRoom row ↔ 1048 + encodedSize row ≤ b.mSize := by
  have hstart : b.rowStart = 1048 := by
    rw [rowStart, h.rows, if_neg h.group, alignedOffset, h.unused]
    norm_num
  rw [HasRoom, hstart, h.rows]
  exact and_iff_right (by decide)

theorem Window.emptied (start : Nat) (hw : b.mReadOnly = false) (hsize : 1048 ≤ b.mSize)
    (hlt : b.mSize < 2 ^ 31) (hcols : q.decls.length ≤ colMaxNum) :
    Window q (b.clear.2.setColumnNum q.decls.length).2 start 0 :=
  .cleared start hw hsize hlt
    (setColumnNum_of_cleared (clear_cleared hw) (clear_readOnly.trans hw) hcols)

theorem emptied_size : (b.clear.2.setColumnNum n).2.mSize = b.mSize :=
  setColumnNum_size.trans clear_size

theorem SqliteValue.copied_iff (hmemcpy : ∀ size < 2 ^ 31, memcpyS size) {v : SqliteValue}
    (hv : v.size + 1 < 2 ^ 31) : v.Copied memcpyS ↔ v ≠ .blob [] := by
  refine ⟨And.left, fun hne => ⟨hne, fun _ => hmemcpy _ ?_⟩⟩
  cases v <;> simp only [payload, size] at hv ⊢ <;> omega

def ReadsBack (q : Query) (b : SharedBlock) (r p : Nat) : Prop :=
  ∀ i < q.decls.length, b.readCell r i = q.value p i

theorem Window.readsBack_iff (h : Window q b start rows) (hr : r < rows)
    (hcells : q.rows[start + r]? = some cells) :
    ReadsBack q b r (start + r) ↔ ∀ v ∈ cells, v.NulFree := by
  have hlt := (List.getElem?_eq_some_iff.mp hcells).1
  have hwidth := q.width cells (mem_of_getElem? hcells)
  constructor
  · intro hreads v hv
    obtain ⟨i, hi, rfl⟩ := mem_iff_getElem.mp hv
    obtain ⟨decl, cells', v, hdecl, hcells', hv, hvalue⟩ := q.cell hlt (hwidth ▸ hi)
    cases hcells'.symm.trans hcells
    cases hv.symm.trans (List.getElem?_eq_getElem hi)
    have hread := hreads i (hwidth ▸ hi)
    rw [h.readCell hr hdecl hcells hv, hvalue] at hread
    exact SqliteValue.shown_eq_iff.mp (Option.some.inj hread)
  · intro hfree i hi
    obtain ⟨decl, cells', v, hdecl, hcells', hv, hvalue⟩ := q.cell hlt hi
    cases hcells'.symm.trans hcells
    rw [h.readCell hr hdecl hcells hv, hvalue,
      SqliteValue.shown_eq_iff.mpr (hfree v (mem_of_getElem? hv))]

theorem fillOneRow_keeps_iff (memcpyS : Nat → Bool)
    (hmemcpy : ∀ size < 2 ^ 31, memcpyS size) (q : Query) (b : SharedBlock)
    (hw : b.mReadOnly = false) (hlt : b.mSize < 2 ^ 31) (hcols : q.decls.length ≤ colMaxNum)
    (hcells : q.rows[p]? = some cells) :
    let empty := (b.clear.2.setColumnNum q.decls.length).2
    let res := fillOneRow memcpyS empty (q.decls.zip cells) 0
    ((1048 + encodedSize cells ≤ b.mSize → res.1 = .success ∧ ReadsBack q res.2 0 p) ∧
      ∀ b' start rows, b'.mSize = b.mSize → Window q b' start rows → start + rows = p →
        (fillOneRow memcpyS b' (q.decls.zip cells) rows).1 = .isFull → ¬ b'.HasRoom cells) ↔
    (1048 + encodedSize cells ≤ b.mSize → ∀ v ∈ cells, v ≠ .blob [] ∧ v.NulFree) := by
  intro empty res
  have hcopied : (∀ v ∈ cells, v.Copied memcpyS) ↔ ∀ v ∈ cells, v ≠ .blob [] :=
    forall₂_congr fun v hv =>
      SqliteValue.copied_iff hmemcpy (q.size_lt cells (mem_of_getElem? hcells) v hv)
  have hempty (hfits : 1048 + encodedSize cells ≤ b.mSize) : Window q empty p 0 :=
    .emptied p hw (by omega) hlt hcols
  -- in the empty block the row is copied just when it has no empty blob
  have hsuccess (hfits : 1048 + encodedSize cells ≤ b.mSize) :
      res.1 = .success ↔ ∀ v ∈ cells, v ≠ .blob [] := by
    have htakes := (hempty hfits).fillOneRow_takes memcpyS hcells
    rw [htakes.success_iff, (emptied_setColumnNum hw).hasRoom_iff, emptied_size, hcopied]
    exact and_iff_right hfits
  have hreads (hfits : 1048 + encodedSize cells ≤ b.mSize) (hok : res.1 = .success) :
      ReadsBack q res.2 0 p ↔ ∀ v ∈ cells, v.NulFree := by
    have hwindow := fillOneRow_window memcpyS (hempty hfits) hcells
    rw [show (fillOneRow memcpyS empty (q.decls.zip cells) 0).1.added = 1 from
      congrArg FillOneRowResult.added hok] at hwindow
    exact hwindow.readsBack_iff Nat.one_pos hcells
  constructor
  · rintro ⟨hkeeps, _⟩ hfits v hv
    obtain ⟨hok, hback⟩ := hkeeps hfits
    exact ⟨(hsuccess hfits).mp hok v hv, (hreads hfits hok).mp hback v hv⟩
  · intro hplain
    refine ⟨fun hfits => ?_, fun b' start rows hsize hwindow hp hfull hroom => ?_⟩
    · have hok := (hsuccess hfits).mpr fun v hv => (hplain hfits v hv).1
      exact ⟨hok, (hreads hfits hok).mpr fun v hv => (hplain hfits v hv).2⟩
    · have hfits : 1048 + encodedSize cells ≤ b.mSize := by
        have := hwindow.inv.rowStart_ge
        have := hroom.2
        omega
      have htakes := hwindow.fillOneRow_takes memcpyS (hp.symm ▸ hcells)
      have hok := htakes.success_iff.mpr
        ⟨hroom, hcopied.mpr fun v hv => (hplain hfits v hv).1⟩
      exact nomatch hfull.symm.trans hok

theorem fillOneRow_keeps_iff_text :
    let q : Query := ⟨[some "BLOB", some "TEXT"], [[.blob [7], .text [65, 0, 66]]], by decide,
      by decide, by decide⟩
    let cells : List SqliteValue := [.blob [7], .text [65, 0, 66]]
    ∃ b, SharedBlock.create DEFAULT_BLOCK_SIZE = some b ∧
      let res := fillOneRow secureMemcpy (b.clear.2.setColumnNum 2).2 (q.decls.zip cells) 0
      res.1 = .success ∧
      (((1048 + encodedSize cells ≤ b.mSize → res.1 = .success ∧ ReadsBack q res.2 0 0) ∧
        ∀ b' start rows, b'.mSize = b.mSize → Window q b' start rows → start + rows = 0 →
          (fillOneRow secureMemcpy b' (q.decls.zip cells) rows).1 = .isFull →
            ¬ b'.HasRoom cells) ↔
      (1048 + encodedSize cells ≤ b.mSize → ∀ v ∈ cells, v ≠ .blob [] ∧ v.NulFree)) := by
  intro q cells
  refine ⟨_, rfl, by decide +kernel, ?_⟩
  exact fillOneRow_keeps_iff secureMemcpy copies_secureMemcpy q _ rfl (by decide) (by decide) rfl

theorem fillOneRow_refuses_empty_blob :
    let q : Query := ⟨[some "BLOB"], [[.blob []]], by decide, by decide, by decide⟩
    ∃ b, SharedBlock.create DEFAULT_BLOCK_SIZE = some b ∧
      1048 + encodedSize [.blob []] ≤ b.mSize ∧
      (fillOneRow secureMemcpy (b.clear.2.setColumnNum 1).2 (q.decls.zip [.blob []]) 0).1 =
        .isFull ∧
      ((b.clear.2.setColumnNum 1).2).HasRoom [.blob []] := by
  refine ⟨_, rfl, by decide, by decide +kernel, ?_⟩
  exact (emptied_setColumnNum rfl).hasRoom_iff.mpr (by decide)

end RelationalStore
