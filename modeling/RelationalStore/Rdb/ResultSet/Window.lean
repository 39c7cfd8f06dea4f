import RelationalStore.AppDataFwk.SharedBlock.Table
import RelationalStore.Rdb.ResultSet.FillBlock

/-! # What a filled block holds

A filled block holds the rows of the result from `startPos` on, one after the other. -/

namespace RelationalStore

open List
open SharedBlock

def SqliteValue.raw (decl : Option String) : SqliteValue → RawCell
  | null => .null
  | integer value => .bits .integer value.toUInt64.toNat
  | float bits => .bits .float bits.toNat
  | text bytes => .payload .string (bytes ++ [0])
  | blob bytes => .payload (decl.elim .blob blobType) bytes

def HoldsRows (q : Query) (b : SharedBlock) (start rows : Nat) : Prop :=
  ∀ r < rows, ∃ cells, q.rows[start + r]? = some cells ∧
    ∀ c decl v, q.decls[c]? = some decl → cells[c]? = some v → b.Holds r c (v.raw decl)

structure Window (q : Query) (b : SharedBlock) (start rows : Nat) : Prop where
  inv : b.Inv fun r c => r < rows ∧ c < q.decls.length
  writable : b.mReadOnly = false
  rows_eq : b.rowNums = rows
  columns_eq : b.columnNums = q.decls.length
  holds : HoldsRows q b start rows

variable {q : Query} {b b' : SharedBlock} {memcpyS : Nat → Bool}

/-! ### One value -/

theorem blobType_mem (decl : String) :
    blobType decl ∈ [CellUnitType.asset, .assets, .floats, .bigint, .blob] := by
  unfold blobType
  dsimp only
  repeat' split
  all_goals simp

theorem map_range_getD (bytes : List UInt8) (k : Nat) :
    (List.range (bytes.length + k)).map (fun i => bytes.getD i 0) =
      bytes ++ List.replicate k 0 := by
  refine ext_getElem (by simp) fun i hi _ => ?_
  rw [getElem_map, getElem_range, getD_eq_getElem?_getD, getElem_append]
  split
  next h => rw [List.getElem?_eq_getElem h, Option.getD_some]
  next h => rw [getElem?_eq_none (Nat.le_of_not_lt h), Option.getD_none, getElem_replicate]

theorem putBytes_spec (memcpyS : Nat → Bool) (hI : b.Inv W) (bytes : List UInt8) (k : Nat)
    (hlen : bytes.length + k < 2 ^ 31) (htype : IsPayload type.code) (row c : Nat) :
    PutSpec b W row c (.payload type (bytes ++ List.replicate k 0))
      (b.putBlobOrString memcpyS row c (some fun i => bytes.getD i 0) (bytes.length + k) type) := by
  have hunused := hI.unused_le
  have hlt := hI.size_lt
  have hsafe : b.PayloadSafe (bytes.length + k) := fun _ => by omega
  rw [← map_range_getD]
  exact putBlobOrString_spec memcpyS _ hI htype hsafe

theorem fillOneRowOfBlob_eq (b : SharedBlock) (row c : Nat) (decl : Option String)
    (bytes : List UInt8) :
    fillOneRowOfBlob memcpyS b row c decl bytes =
      fillResult (b.putBlobOrString memcpyS row c
        (if bytes = [] then none else some fun i => bytes.getD i 0) bytes.length
        (decl.elim .blob blobType)) := by
  unfold fillOneRowOfBlob
  cases decl with
  | none => rfl
  | some decl =>
    have hmem := blobType_mem decl
    rw [Option.elim_some]
    generalize blobType decl = type at hmem
    simp only [mem_cons, not_mem_nil, or_false] at hmem
    rcases hmem with rfl | rfl | rfl | rfl | rfl <;> rfl

theorem isPayload_blobType (decl : Option String) :
    IsPayload (decl.elim CellUnitType.blob blobType).code := by
  cases decl with
  | none => decide
  | some decl =>
    have hmem := blobType_mem decl
    rw [Option.elim_some]
    generalize blobType decl = type at hmem
    revert type
    decide

theorem fillColumn_cases (memcpyS : Nat → Bool) (hI : b.Inv W) (decl : Option String)
    (hv : v.size + 1 < 2 ^ 31) (row c : Nat) :
    ∃ res, fillColumn memcpyS b row c decl v = fillResult res ∧
      PutSpec b W row c (v.raw decl) res ∧ res.2.mReadOnly = b.mReadOnly := by
  cases v with
  | null => exact ⟨_, rfl, putNull_spec hI, putNull_readOnly⟩
  | integer value =>
    exact ⟨_, rfl, putBits_spec hI (.inl rfl) value.toUInt64.toNat_lt, putBits_readOnly⟩
  | float bits => exact ⟨_, rfl, putBits_spec hI (.inr rfl) bits.toNat_lt, putBits_readOnly⟩
  | text bytes =>
    exact ⟨_, rfl, putBytes_spec memcpyS hI bytes 1 hv (by decide) row c,
      putBlobOrString_readOnly memcpyS⟩
  | blob bytes =>
    refine ⟨_, fillOneRowOfBlob_eq b row c decl bytes, ?_, putBlobOrString_readOnly memcpyS⟩
    by_cases hne : bytes = []
    · -- the pointer of an empty blob is null, which is refused
      rw [if_pos hne]
      exact .refused hI nofun
    · have hspec := putBytes_spec memcpyS hI bytes 0 (Nat.lt_of_succ_lt hv)
        (isPayload_blobType decl) row c
      rw [if_neg hne]
      rwa [replicate_zero, append_nil] at hspec

/-! ### One row -/

def Before (width row k r c : Nat) : Prop := (r < row ∧ c < width) ∨ (r = row ∧ c < k)

theorem Before.mono (h : Before width row k r c) (hk : k ≤ k') : Before width row k' r c :=
  h.imp_right fun h => ⟨h.1, h.2.trans_le hk⟩

theorem SharedBlock.PutSpec.inv_before (h : PutSpec b (Before width row k) row k x res)
    (hok : res.1 = .ok) : res.2.Inv (Before width row (k + 1)) := by
  refine h.inv _ fun r c hrc => ?_
  rcases hrc with hrc | ⟨rfl, hlt⟩
  · exact .inl (.inl hrc)
  · rcases Nat.lt_succ_iff_lt_or_eq.mp hlt with hlt | rfl
    · exact .inl (.inr ⟨rfl, hlt⟩)
    · exact .inr ⟨hok, rfl⟩

structure ColumnsSpec (b : SharedBlock) (width row k : Nat)
    (cells : List (Option String × SqliteValue)) (res : FillOneRowResult × SharedBlock) : Prop where
  readOnly : res.2.mReadOnly = b.mReadOnly
  rows : res.2.rowNums = b.rowNums
  columns : res.2.columnNums = b.columnNums
  inv : res.2.Inv (Before width row 0)
  keeps : ∀ r c, r < b.rowNums → c < b.columnNums → Before width row k r c →
    SharedBlock.Keeps b res.2 r c
  done : res.1 = .success → res.2.Inv (Before width row (k + cells.length)) ∧
    ∀ i decl v, cells[i]? = some (decl, v) → res.2.Holds row (k + i) (v.raw decl)

theorem fillColumns_spec (memcpyS : Nat → Bool) (hI : b.Inv (Before width row k))
    (hsize : ∀ x ∈ cells, x.2.size + 1 < 2 ^ 31) :
    ColumnsSpec b width row k cells (fillColumns memcpyS row k cells b) := by
  induction cells generalizing k b with
  | nil => exact ⟨rfl, rfl, rfl, hI.anti fun _ _ _ h => h.mono (Nat.zero_le k),
      fun _ _ _ _ _ => .refl,
      fun _ => ⟨hI, nofun⟩⟩
  | cons x cells ih =>
    obtain ⟨decl, v⟩ := x
    obtain ⟨res, hfill, hput, hro⟩ := fillColumn_cases memcpyS hI decl (hsize _ (.head _)) row k
    obtain ⟨st, b₁⟩ := res
    have hne : ∀ r c, Before width row k r c → (r, c) = (row, k) → False := by
      rintro r c h ⟨⟩
      rcases h with h | h <;> omega
    rw [fillColumns, hfill, fillResult]
    by_cases hok : st = .ok
    · rw [if_pos hok]
      have hrest := ih (hput.inv_before hok) fun x hx => hsize x (.tail _ hx)
      refine ⟨hrest.readOnly.trans hro, hrest.rows.trans hput.rows,
        hrest.columns.trans hput.columns, hrest.inv, fun r c hr hc h => ?_, fun hdone => ?_⟩
      · exact (hput.keeps r c hr hc h fun _ => hne r c h).trans
          (hrest.keeps r c (hput.rows.symm ▸ hr) (hput.columns.symm ▸ hc) (h.mono (Nat.le_succ k)))
      · obtain ⟨hinv, hholds⟩ := hrest.done hdone
        refine ⟨by rwa [length_cons, Nat.add_comm cells.length, ← Nat.add_assoc], ?_⟩
        intro i decl' v' hi
        cases i with
        | zero =>
          cases hi
          obtain ⟨hr, hc, hx⟩ := hput.holds hok
          exact hx.congr (hrest.keeps row k (hput.rows.symm ▸ hr) (hput.columns.symm ▸ hc)
            (.inr ⟨rfl, Nat.lt_succ_self k⟩))
        | succ i =>
          rw [Nat.add_comm i, ← Nat.add_assoc]
          exact hholds i decl' v' hi
    · rw [if_neg hok]
      exact ⟨hro, hput.rows, hput.columns, hput.inv _ fun _ _ h => .inl (h.mono (Nat.zero_le k)),
        fun r c hr hc h => hput.keeps r c hr hc h fun hst => absurd hst hok, nofun⟩

theorem HoldsRows.congr (h : HoldsRows q b start rows)
    (hkeeps : ∀ r c, r < rows → c < q.decls.length → SharedBlock.Keeps b b' r c) :
    HoldsRows q b' start rows := by
  intro r hr
  obtain ⟨cells, hcells, hholds⟩ := h r hr
  refine ⟨cells, hcells, fun c decl v hdecl hv => ?_⟩
  exact (hholds c decl v hdecl hv).congr
    (hkeeps r c hr (List.getElem?_eq_some_iff.mp hdecl).1)

theorem Window.keep (h : Window q b start rows)
    (hI : b'.Inv fun r c => r < rows ∧ c < q.decls.length) (hro : b'.mReadOnly = b.mReadOnly)
    (hrows : b'.rowNums = b.rowNums) (hcols : b'.columnNums = b.columnNums)
    (hkeeps : ∀ r c, r < rows → c < q.decls.length → SharedBlock.Keeps b b' r c) :
    Window q b' start rows :=
  ⟨hI, hro.trans h.writable, hrows.trans h.rows_eq, hcols.trans h.columns_eq,
    h.holds.congr hkeeps⟩

/-- A window with one more row in the block, whose cells do not count yet. -/
structure Opened (q : Query) (b : SharedBlock) (start rows : Nat) : Prop where
  inv : b.Inv (Before q.decls.length rows 0)
  writable : b.mReadOnly = false
  rows_eq : b.rowNums = rows + 1
  columns_eq : b.columnNums = q.decls.length
  holds : HoldsRows q b start rows

theorem Window.allocRow (h : Window q b start rows) :
    (b.allocRow.1 = .ok → Opened q b.allocRow.2 start rows) ∧
      (b.allocRow.1 ≠ .ok → Window q b.allocRow.2 start rows) := by
  have hrows := h.rows_eq
  have hcols := h.columns_eq
  have hspec := allocRow_spec h.inv
  have hkeeps : ∀ r c, r < rows → c < q.decls.length → SharedBlock.Keeps b b.allocRow.2 r c :=
    fun r c hr hc => hspec.keeps r c (by omega) (by omega) ⟨hr, hc⟩
  constructor
  · intro hok
    refine ⟨?_, allocRow_readOnly.trans h.writable, by rw [(hspec.done hok).1, hrows],
      hspec.columns.trans hcols, h.holds.congr hkeeps⟩
    refine hspec.inv _ (fun r c _ hw => ?_) fun c _ hw => ?_
    · exact hw.resolve_right fun h => absurd h.2 (Nat.not_lt_zero c)
    · rcases hw with hw | hw <;> omega
  · intro hfull
    refine h.keep ?_ allocRow_readOnly (hspec.failed hfull) hspec.columns hkeeps
    exact hspec.inv _ (fun _ _ _ h => h) fun c _ hc => by omega

theorem Opened.fillColumns (memcpyS : Nat → Bool) (h : Opened q b start rows)
    (hcells : q.rows[start + rows]? = some cells) :
    ((fillColumns memcpyS rows 0 (q.decls.zip cells) b).1 = .success →
      Window q (fillColumns memcpyS rows 0 (q.decls.zip cells) b).2 start (rows + 1)) ∧
    Opened q (fillColumns memcpyS rows 0 (q.decls.zip cells) b).2 start rows := by
  have hrows := h.rows_eq
  have hcols := h.columns_eq
  have hmem := mem_of_getElem? hcells
  have hspec := fillColumns_spec memcpyS h.inv fun x (hx : x ∈ q.decls.zip cells) =>
    q.size_lt cells hmem x.2 (of_mem_zip hx).2
  have hlen : (q.decls.zip cells).length = q.decls.length := by
    rw [length_zip, q.width cells hmem, Nat.min_self]
  generalize RelationalStore.fillColumns memcpyS rows 0 (q.decls.zip cells) b = res at hspec
  have hkeeps : ∀ r c, r < rows → c < q.decls.length → SharedBlock.Keeps b res.2 r c :=
    fun r c hr hc => hspec.keeps r c (by omega) (by omega) (.inl ⟨hr, hc⟩)
  have hholds := h.holds.congr hkeeps
  refine ⟨fun hdone => ?_, hspec.inv, hspec.readOnly.trans h.writable, hspec.rows.trans hrows,
    hspec.columns.trans hcols, hholds⟩
  obtain ⟨hinv, hnew⟩ := hspec.done hdone
  refine ⟨hinv.anti fun r c _ hrc => ?_, hspec.readOnly.trans h.writable, hspec.rows.trans hrows,
    hspec.columns.trans hcols, fun r hr => ?_⟩
  · rcases Nat.lt_succ_iff_lt_or_eq.mp hrc.1 with hr | rfl
    · exact .inl ⟨hr, hrc.2⟩
    · exact .inr ⟨rfl, by rw [Nat.zero_add, hlen]; exact hrc.2⟩
  · rcases Nat.lt_succ_iff_lt_or_eq.mp hr with hr | rfl
    · exact hholds r hr
    · refine ⟨cells, hcells, fun c decl v hdecl hv => ?_⟩
      have hx := hnew c decl v (getElem?_zip_eq_some.mpr ⟨hdecl, hv⟩)
      rwa [Nat.zero_add] at hx

theorem Opened.freeLastRow (h : Opened q b start rows) : Window q b.freeLastRow.2 start rows := by
  have hrows := h.rows_eq
  have hcols := h.columns_eq
  have hspec := freeLastRow_spec h.inv
  have hrows' : b.freeLastRow.2.rowNums = rows := by rw [hspec.rows, hrows, Nat.add_sub_cancel]
  refine ⟨hspec.inv.anti fun _ _ _ => .inl, freeLastRow_readOnly.trans h.writable, hrows',
    hspec.columns.trans hcols, h.holds.congr fun r c hr hc => ?_⟩
  exact hspec.keeps r c (by omega) (by omega) (.inl ⟨hr, hc⟩)

def FillOneRowResult.added : FillOneRowResult → Nat
  | success => 1
  | isFull => 0

theorem fillOneRow_window (memcpyS : Nat → Bool) (h : Window q b start rows)
    (hcells : q.rows[start + rows]? = some cells) :
    Window q (fillOneRow memcpyS b (q.decls.zip cells) rows).2 start
      (rows + (fillOneRow memcpyS b (q.decls.zip cells) rows).1.added) := by
  obtain ⟨hok, hfull⟩ := h.allocRow
  unfold fillOneRow
  generalize b.allocRow = res at hok hfull
  obtain ⟨st, b₁⟩ := res
  cases st with
  | ok =>
    obtain ⟨hsuccess, hopened⟩ := (hok rfl).fillColumns memcpyS hcells
    dsimp only
    generalize fillColumns memcpyS rows 0 (q.decls.zip cells) b₁ = res at hsuccess hopened
    obtain ⟨st, b₂⟩ := res
    cases st with
    | success => exact hsuccess rfl
    | isFull => exact hopened.freeLastRow
  | _ => exact hfull nofun

/-! ### A whole fill -/

theorem setColumnNum_of_cleared (h : Cleared b) (hw : b.mReadOnly = false) (hn : n ≤ colMaxNum) :
    (b.setColumnNum n).1 = .ok := by
  unfold setColumnNum
  dsimp only
  rw [if_neg (by rw [hw]; nofun), if_neg (by rw [h.rows, h.columns]; omega), if_neg (by omega)]

theorem Window.cleared (start : Nat) (hw : b.mReadOnly = false) (hsize : 1048 ≤ b.mSize)
    (hlt : b.mSize < 2 ^ 31) (hok : (b.clear.2.setColumnNum q.decls.length).1 = .ok) :
    Window q (b.clear.2.setColumnNum q.decls.length).2 start 0 := by
  have hclear := clear_cleared hw
  obtain ⟨hI, _, hrows, hcols⟩ := setColumnNum_spec (n := q.decls.length)
    (hclear.inv (clear_size.symm ▸ hsize) (clear_size.symm ▸ hlt))
  exact ⟨hI, setColumnNum_readOnly.trans (clear_readOnly.trans hw), hrows.trans hclear.rows,
    hcols hok, nofun⟩

theorem Window.restart (h : Window q b start rows) (start' : Nat) :
    Window q (b.clear.2.setColumnNum q.decls.length).2 start' 0 := by
  refine .cleared start' h.writable h.inv.size_ge h.inv.size_lt ?_
  exact setColumnNum_of_cleared (clear_cleared h.writable) (clear_readOnly.trans h.writable)
    (h.columns_eq ▸ h.inv.columns_le)

structure Filling (q : Query) (required : Nat) (isFull : Bool) (info : SharedBlockInfo) (p : Nat) :
    Prop where
  block : ∃ b, info.sharedBlock = some b ∧ Window q b info.startPos info.addedRows
  all : info.isCountAllRows = false
  column : info.columnNum = q.decls.length
  required_eq : info.requiredPos = required
  total : info.totalRows = p
  full : info.isFull = isFull
  start_le : info.startPos ≤ required
  added : isFull = false → info.addedRows = p - info.startPos
  covers : isFull →
    0 < p ∧ (info.addedRows = 0 ∨ required < info.startPos + info.addedRows)

theorem Filling.filled {info : SharedBlockInfo} (hwindow : Window q b info.startPos info.addedRows)
    (hcells : q.rows[p]? = some cells) (hp : info.startPos = p) (hadded : info.addedRows = 0)
    (hall : info.isCountAllRows = false) (hcolumn : info.columnNum = q.decls.length)
    (hreq : info.requiredPos = required) (htotal : info.totalRows = p + 1)
    (hfull : info.isFull = false) (hstart : info.startPos ≤ required) :
    Filling q required
      (info.filled (fillOneRow memcpyS b (q.decls.zip cells) info.addedRows)).isFull
      (info.filled (fillOneRow memcpyS b (q.decls.zip cells) info.addedRows)) (p + 1) := by
  have hrow : info.startPos + info.addedRows = p := by omega
  have hnew := fillOneRow_window memcpyS hwindow (hrow.symm ▸ hcells)
  generalize fillOneRow memcpyS b (q.decls.zip cells) info.addedRows = res at hnew ⊢
  obtain ⟨st, b'⟩ := res
  cases st with
  | success =>
    refine ⟨⟨b', rfl, hnew⟩, hall, hcolumn, hreq, htotal, rfl, hstart, fun _ => ?_, fun h => ?_⟩
    · change info.addedRows + 1 = p + 1 - info.startPos
      omega
    · exact absurd (hfull.symm.trans h) nofun
  | isFull =>
    exact ⟨⟨b', rfl, hnew⟩, hall, hcolumn, hreq, htotal, rfl, hstart, nofun,
      fun _ => ⟨Nat.succ_pos p, .inl hadded⟩⟩

theorem Filling.onRow (h : Filling q required isFull info p) (hcells : q.rows[p]? = some cells)
    (hgo : isFull → info.isCountAllRows) :
    Filling q required (info.onRow memcpyS isFull (q.decls.zip cells)).1
      (info.onRow memcpyS isFull (q.decls.zip cells)).2 (p + 1) := by
  have hfull : isFull = false := by
    cases isFull with
    | false => rfl
    | true => exact absurd (h.all.symm.trans (hgo rfl)) nofun
  subst hfull
  obtain ⟨b, hb, hwindow⟩ := h.block
  have hadded := h.added rfl
  have htotal := h.total
  have hreq := h.required_eq
  rcases info.onRow_cases memcpyS false (q.decls.zip cells) with ⟨hskip, heq⟩ | ⟨hstart, _, hrow⟩
  · have hskip : info.totalRows < info.startPos := hskip.resolve_right nofun
    rw [heq]
    exact ⟨⟨b, hb, hwindow⟩, h.all, h.column, hreq, congrArg (· + 1) htotal, h.full, h.start_le,
      fun _ => by dsimp only; omega, nofun⟩
  have hp : info.startPos + info.addedRows = p := by omega
  have hnew := fillOneRow_window memcpyS hwindow (hp.symm ▸ hcells)
  rcases hrow b hb with ⟨b', hres, heq⟩ | ⟨b', hres, hcovers, heq⟩ |
    ⟨b', info', hres, hrestart, hinfo', heq⟩
  · rw [hres] at hnew
    rw [heq]
    refine ⟨⟨b', rfl, hnew⟩, h.all, h.column, hreq, congrArg (· + 1) htotal, rfl, h.start_le,
      fun _ => ?_, fun hfull => nomatch h.full.symm.trans hfull⟩
    change info.addedRows + 1 = p + 1 - info.startPos
    omega
  · rw [hres] at hnew
    rw [heq]
    exact ⟨⟨b', rfl, hnew⟩, h.all, h.column, hreq, congrArg (· + 1) htotal, rfl, h.start_le, nofun,
      fun _ => ⟨Nat.succ_pos p, hreq ▸ hcovers⟩⟩
  · -- the block is full before the required row: the window starts again at this row
    rw [hres] at hnew
    have hempty := hnew.restart (info.startPos + info.addedRows)
    rw [← h.column] at hempty
    rw [heq, hinfo']
    exact Filling.filled hempty hcells hp rfl h.all h.column hreq (congrArg (· + 1) htotal) h.full
      (hreq ▸ hrestart.2)

theorem Stmt.fillBlockInfo_window {stmt : Stmt} (hq : stmt.query = q) (hnext : stmt.next = 0)
    (hwindow : Window q b start 0) (hstart : start ≤ required) (hlt : required < q.rows.length)
    (hok : stmt.fillBlockInfo memcpyS
      ⟨some b, start, 0, required, 0, false, q.decls.length, false⟩ = (.ok (), info, stmt')) :
    (∃ b', info.sharedBlock = some b' ∧ Window q b' info.startPos info.addedRows) ∧
      info.startPos ≤ required ∧ required < info.startPos + info.addedRows ∧
      stmt'.query = q ∧ stmt'.next = 0 := by
  rcases stmt.fillBlockInfo_cases memcpyS
      ⟨some b, start, 0, required, 0, false, q.decls.length, false⟩ with
    ⟨err, res, herr⟩ | ⟨info', s, hfill, hok', hnot⟩
  · exact nomatch herr.symm.trans hok
  cases hok'.symm.trans hok
  have hinit : Filling q required false
      ⟨some b, start, 0, required, 0, false, q.decls.length, false⟩ stmt.next :=
    ⟨⟨b, rfl, hwindow⟩, rfl, rfl, rfl, hnext.symm, rfl, hstart,
      fun _ => by rw [hnext, Nat.zero_sub], nofun⟩
  rw [fillSharedBlock] at hfill
  obtain ⟨isFull, p, hJ, hs, hend⟩ := fillLoop_rule (J := Filling q required)
    (fun _ _ _ _ h hcells hgo => h.onRow hcells hgo) hinit hq hfill
  obtain ⟨b', hb', hwindow'⟩ := hJ.block
  have hcovers : required < info.startPos + info.addedRows := by
    cases isFull with
    | true =>
      obtain ⟨hp, hzero | hcovers⟩ := hJ.covers rfl
      · exact absurd ⟨hJ.full, hJ.total.symm ▸ hp, hzero, by rw [hb']; rfl⟩ hnot
      · exact hcovers
    | false =>
      have hp := hend.resolve_left fun h => nomatch h.1
      have hadded := hJ.added rfl
      have := hJ.start_le
      omega
  exact ⟨⟨b', hb', hwindow'⟩, hJ.start_le, hcovers, hs, rfl⟩

end RelationalStore
