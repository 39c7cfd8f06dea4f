import RelationalStore.Rdb.ResultSet.Shared

/-! # The shared result set as a window on the rows

As long as the fills succeed the block is a window on the result, with `blockPos` at the row. -/

namespace RelationalStore

open List SqliteSharedResultSet
open SharedBlock

variable {q : Query} {b : SharedBlock} {memcpyS : Nat → Bool}

/-! ### What is read -/

def SqliteValue.shown (decl : Option String) : SqliteValue → ValueObject
  | text bytes => .string (bytes.takeWhile (· ≠ 0))
  | v => v.object decl

/-- A value without a text that holds a zero byte. -/
def SqliteValue.NulFree : SqliteValue → Prop
  | text bytes => 0 ∉ bytes
  | _ => True

/-- A row without such a text. -/
def Query.NulFree (q : Query) (row : Nat) : Prop := ∀ cells ∈ q.rows[row]?, ∀ v ∈ cells, v.NulFree

theorem SqliteValue.shown_eq_iff {v : SqliteValue} : v.shown decl = v.object decl ↔ v.NulFree := by
  cases v with
  | text bytes =>
    simp only [shown, object, NulFree, CellValue.string.injEq, takeWhile_eq_self_iff]
    exact ⟨fun h h0 => absurd rfl (of_decide_eq_true (h 0 h0)),
      fun h x hx => decide_eq_true fun h0 => h (h0 ▸ hx)⟩
  | _ => exact ⟨fun _ => trivial, fun _ => rfl⟩

theorem SqliteValue.raw_reads (decl : Option String) (v : SqliteValue) :
    (v.raw decl).Reads (v.shown decl) := by
  cases v with
  | null => exact .null
  | integer value =>
    simpa [raw, shown, object] using RawCell.Reads.integer (w := value.toUInt64.toNat)
  | float bits => simpa [raw, shown, object] using RawCell.Reads.float (w := bits.toNat)
  | text bytes => exact .string bytes
  | blob bytes =>
    refine .bytes fun hstring => ?_
    cases decl with
    | none => cases hstring
    | some decl =>
      have hmem := blobType_mem decl
      rw [show blobType decl = .string from hstring] at hmem
      exact absurd hmem (by decide)

theorem Window.readCell (h : Window q b start rows) (hr : r < rows)
    (hdecl : q.decls[c]? = some decl) (hcells : q.rows[start + r]? = some cells)
    (hv : cells[c]? = some v) : b.readCell r c = some (v.shown decl) := by
  have hc : c < q.decls.length := (List.getElem?_eq_some_iff.mp hdecl).1
  obtain ⟨cells', hcells', hholds⟩ := h.holds r hr
  cases hcells'.symm.trans hcells
  exact readCell_of_holds h.inv (h.rows_eq.symm ▸ hr) (h.columns_eq.symm ▸ hc) ⟨hr, hc⟩
    (hholds c decl v hdecl hv) (v.raw_reads decl)

/-! ### The positions of the header -/

theorem Window.setPos (h : Window q b start rows) (ha : 12 ≤ a) (ha' : a + 4 ≤ 24) :
    Window q (b.setWord a v) start rows := by
  obtain ⟨hI, hgrows⟩ := setPos_spec (v := v) h.inv ha ha'
  refine h.keep hI rfl (Mem.word_congr (setWord_eqOn (by omega))) hgrows.columns fun r c hr hc => ?_
  exact hgrows.keeps (h.rows_eq.symm ▸ hr) (h.columns_eq.symm ▸ hc) ⟨hr, hc⟩

theorem setWord_word_eq (h : v < 2 ^ 32) : (b.setWord a v).mData.word a 4 = v := by
  rw [setWord, Mem.word_setWord]
  exact Nat.mod_eq_of_lt (by omega)

theorem setWord_word_of_ne (h : a' + 4 ≤ a ∨ a + 4 ≤ a') :
    (b.setWord a v).mData.word a' 4 = b.mData.word a' 4 :=
  Mem.word_setWord_of_disjoint h

/-- A filled block: a window whose header says where it starts and ends. -/
structure Filled (q : Query) (b : SharedBlock) : Prop where
  window : Window q b b.startPos b.rowNums
  last : b.lastPos = b.startPos + b.rowNums

theorem Window.filled (h : Window q b start rows) (hstart : start < 2 ^ 31) (hpos : pos < 2 ^ 32)
    (hb' : ((b.setStartPos start).setBlockPos pos).setLastPos
      (start + ((b.setStartPos start).setBlockPos pos).rowNums) = b') :
    Filled q b' ∧ b'.startPos = start ∧ b'.blockPos = pos ∧ b'.lastPos = start + rows := by
  have hmax := h.rows_eq ▸ h.inv.rows_le
  have hwindow₂ : Window q ((b.setStartPos start).setBlockPos pos) start rows :=
    (h.setPos (by omega) (by omega)).setPos (by omega) (by omega)
  rw [hwindow₂.rows_eq] at hb'
  have hwindow : Window q b' start rows := hb' ▸ hwindow₂.setPos (by omega) (by omega)
  have hstartPos : b'.startPos = start :=
    hb' ▸ (setWord_word_of_ne (by omega)).trans ((setWord_word_of_ne (by omega)).trans
      (setWord_word_eq (by omega)))
  have hblockPos : b'.blockPos = pos :=
    hb' ▸ (setWord_word_of_ne (by omega)).trans (setWord_word_eq hpos)
  have hlastPos : b'.lastPos = start + rows := hb' ▸ setWord_word_eq (by omega)
  refine ⟨⟨?_, ?_⟩, hstartPos, hblockPos, hlastPos⟩
  · rwa [hstartPos, hwindow.rows_eq]
  · rw [hstartPos, hlastPos, hwindow.rows_eq]

theorem Filled.setBlockPos (h : Filled q b) (hlt : pos < 2 ^ 32) :
    Filled q (b.setBlockPos pos) ∧ (b.setBlockPos pos).startPos = b.startPos ∧
      (b.setBlockPos pos).blockPos = pos ∧ (b.setBlockPos pos).lastPos = b.lastPos := by
  have hstart : (b.setBlockPos pos).startPos = b.startPos := setWord_word_of_ne (by omega)
  have hlast : (b.setBlockPos pos).lastPos = b.lastPos := setWord_word_of_ne (by omega)
  have hrows : (b.setBlockPos pos).rowNums = b.rowNums := setWord_word_of_ne (by omega)
  refine ⟨⟨?_, ?_⟩, hstart, setWord_word_eq hlt, hlast⟩
  · rw [hstart, hrows]
    exact h.window.setPos (by omega) (by omega)
  · rw [hlast, hstart, hrows, h.last]

namespace SqliteSharedResultSet

theorem toUInt32_sub {m n : Nat} (h : n ≤ m) (hlt : m < 2 ^ 32) :
    toUInt32 ((m : Int) - n) = m - n := by
  unfold toUInt32
  omega

theorem executeForSharedBlock_filled {stmt stmt' : Stmt} (hw : b.mReadOnly = false)
    (hsize : 1048 ≤ b.mSize) (hlt : b.mSize < 2 ^ 31) (hq : stmt.query = q) (hnext : stmt.next = 0)
    (hstart : start ≤ required) (hreq : required < q.rows.length)
    (hok : executeForSharedBlock memcpyS stmt b start required = (.ok (), b', stmt')) :
    Filled q b' ∧ b'.startPos + b'.blockPos = required ∧ required < b'.lastPos ∧
      stmt'.query = q ∧ stmt'.next = 0 := by
  unfold executeForSharedBlock at hok
  split at hok
  rotate_left
  · exact nomatch hok
  rename_i b₁ hclear
  split at hok
  rotate_left
  · exact nomatch hok
  rename_i b₂ hset
  split at hok
  rotate_left
  · exact nomatch hok
  rename_i info s hfill
  have hb₁ : b.clear.2 = b₁ := congrArg Prod.snd hclear
  rw [hq] at hset hfill
  have hempty := Window.cleared (q := q) start hw hsize hlt (by rw [hb₁, hset])
  rw [hb₁, hset] at hempty
  obtain ⟨⟨b₃, hb₃, hwindow⟩, hle, hcovers, hs⟩ :=
    Stmt.fillBlockInfo_window hq hnext hempty hstart hreq hfill
  have hrows := q.rows_lt
  have hpos := toUInt32_sub hle (by omega)
  simp only [hb₃, Option.getD_some, hpos, Prod.mk.injEq, true_and] at hok
  obtain ⟨hb', rfl⟩ := hok
  obtain ⟨hfilled, hstartPos, hblockPos, hlastPos⟩ := hwindow.filled (by omega) (by omega) hb'
  exact ⟨hfilled, by omega, by omega, hs⟩

/-! ### The invariant -/

variable {s : SqliteSharedResultSet}

/-- The fill that `GoToRow` makes, if it makes one, succeeds. -/
def RefillSucceeds (memcpyS : Nat → Bool) (s : SqliteSharedResultSet) (position : Int) : Prop :=
  0 ≤ position → position < s.rowCount → position ≠ s.rowPos →
    ∀ b ∈ s.getBlock.sharedBlock, s.Misses b s.rowPos position.toNat →
      (executeForSharedBlock memcpyS s.stmt b.clear.2 (s.fillStart position.toNat)
        position.toNat).1 = .ok ()
  deriving Decidable

/-- The block is a window on the result with `blockPos` on row `p`. -/
def OnRow (q : Query) (s : SqliteSharedResultSet) (p : Nat) : Prop :=
  ∃ b, s.sharedBlock = some b ∧ Filled q b ∧ b.startPos + b.blockPos = p ∧ p < b.lastPos

structure Usable (q : Query) (b : SharedBlock) : Prop where
  writable : b.mReadOnly = false
  size_ge : 1048 ≤ b.mSize
  size_lt : b.mSize < 2 ^ 31
  content : b.lastPos = 0 ∨ Filled q b

structure Ready (q : Query) (s : SqliteSharedResultSet) : Prop where
  opened : s.isClosed = false
  noErr : s.lastErr = none
  query : s.stmt.query = q
  next : s.stmt.next = 0
  count : s.rowCount = q.rows.length
  block : ∀ b, s.sharedBlock = some b → Usable q b

structure Inv (q : Query) (s : SqliteSharedResultSet) : Prop extends Ready q s where
  place : s.rowPos = -1 ∨ s.rowPos = q.rows.length ∨ ∃ p : Nat, s.rowPos = p ∧ s.OnRow q p

theorem Usable.of_filled (h : Filled q b) : Usable q b :=
  ⟨h.window.writable, h.window.inv.size_ge, h.window.inv.size_lt, .inr h⟩

theorem create_block (h : SharedBlock.create size = some b) :
    b.mSize = size ∧ b.mReadOnly = false ∧ b.lastPos = 0 := by
  unfold SharedBlock.create at h
  split at h
  · cases h
    exact ⟨clear_size, clear_readOnly, (clear_cleared rfl).last⟩
  · exact nomatch h

theorem create_usable (h : SharedBlock.create DEFAULT_BLOCK_SIZE = some b) : Usable q b := by
  obtain ⟨hsize, hw, hlast⟩ := create_block h
  exact ⟨hw, by rw [hsize]; decide, by rw [hsize]; decide, .inl hlast⟩

theorem getBlock_eq (s : SqliteSharedResultSet) : ∃ block lowMem,
    s.getBlock = { s with sharedBlock := block, lowMem := lowMem } ∧
      (block = s.sharedBlock ∨
        s.sharedBlock = none ∧ block = SharedBlock.create DEFAULT_BLOCK_SIZE) := by
  unfold getBlock
  split
  · exact ⟨_, _, rfl, .inl rfl⟩
  rename_i hnone
  have hnone : s.sharedBlock = none := by simpa using mt Or.inl hnone
  split
  · exact ⟨_, _, rfl, .inl rfl⟩
  next block hblock =>
    refine ⟨some block, _, rfl, .inr ⟨hnone, ?_⟩⟩
    split at hblock
    · exact hblock.symm
    · exact nomatch hblock

theorem Ready.getBlock (h : s.Ready q) : s.getBlock.Ready q := by
  obtain ⟨block, lowMem, heq, hblock⟩ := s.getBlock_eq
  rw [heq]
  refine ⟨h.opened, h.noErr, h.query, h.next, h.count, fun b hb => ?_⟩
  rcases hblock with rfl | ⟨_, rfl⟩
  · exact h.block b hb
  · exact create_usable hb

theorem Inv.getBlock (h : s.Inv q) : s.getBlock.Inv q := by
  refine ⟨h.toReady.getBlock, ?_⟩
  obtain ⟨block, lowMem, heq, hblock⟩ := s.getBlock_eq
  rw [heq]
  refine h.place.imp_right (.imp_right ?_)
  rintro ⟨p, hp, b, hb, hrow⟩
  rcases hblock with rfl | ⟨hnone, _⟩
  · exact ⟨p, hp, b, hb, hrow⟩
  · exact nomatch hb.symm.trans hnone

theorem getBlock_stmt : s.getBlock.stmt = s.stmt := by
  obtain ⟨block, lowMem, heq, _⟩ := s.getBlock_eq
  rw [heq]

theorem getBlock_fillStart : s.getBlock.fillStart p = s.fillStart p := by
  obtain ⟨block, lowMem, heq, _⟩ := s.getBlock_eq
  rw [heq]
  rfl

theorem fillStart_le : s.fillStart p ≤ p := by
  unfold fillStart pickFillBlockStartPosition
  split <;> omega

/-! ### Moving -/

theorem Filled.move (h : Filled q b) (hle : b.startPos ≤ p) (hlt : p < b.lastPos) (hp : p < 2 ^ 31)
    (hb' : (if p ≠ (b.startPos + b.blockPos) % 2 ^ 32 then
      b.setBlockPos (toUInt32 (p - b.startPos)) else b) = b') :
    Filled q b' ∧ b'.startPos + b'.blockPos = p ∧ p < b'.lastPos := by
  have hword : b.blockPos < 2 ^ 32 := Mem.word_lt
  split at hb'
  · rw [toUInt32_sub hle (by omega)] at hb'
    subst hb'
    have hpos : p - b.startPos < 2 ^ 32 := by omega
    obtain ⟨hfilled, hstart, hblock, hlast⟩ := h.setBlockPos hpos
    exact ⟨hfilled, by omega, by omega⟩
  · subst hb'
    exact ⟨h, by omega, hlt⟩

theorem Ready.fillBlock (h : s.Ready q) (hb : s.sharedBlock = some b) (hp : p < q.rows.length)
    (hok : (executeForSharedBlock memcpyS s.stmt b.clear.2 (s.fillStart p) p).1 = .ok ()) :
    (s.fillBlock memcpyS p).1 = .ok () ∧ (s.fillBlock memcpyS p).2.Ready q ∧
      (s.fillBlock memcpyS p).2.OnRow q p := by
  have husable := h.block b hb
  unfold SqliteSharedResultSet.fillBlock
  rw [hb]
  generalize hres : executeForSharedBlock memcpyS s.stmt b.clear.2 (s.fillStart p) p = res at hok
  obtain ⟨_, b', stmt'⟩ := res
  cases hok
  obtain ⟨hfilled, hpos, hlast, hq, hnext⟩ := executeForSharedBlock_filled
    (clear_readOnly.trans husable.writable) (clear_size.symm ▸ husable.size_ge)
    (clear_size.symm ▸ husable.size_lt) h.query h.next fillStart_le hp hres
  dsimp only
  rw [hres]
  refine ⟨if_neg (by omega), ⟨h.opened, h.noErr, hq, hnext, h.count, ?_⟩,
    b', rfl, hfilled, hpos, hlast⟩
  rintro _ ⟨⟩
  exact .of_filled hfilled

theorem Ready.onGo (h : s.Ready q) (hp : p < q.rows.length)
    (hrefill : ∀ b ∈ s.getBlock.sharedBlock, s.Misses b old p →
      (executeForSharedBlock memcpyS s.stmt b.clear.2 (s.fillStart p) p).1 = .ok ()) :
    (s.getBlock.sharedBlock = none ∧ s.onGo memcpyS old p = (.error .error, s.getBlock)) ∨
      ((s.onGo memcpyS old p).1 = .ok () ∧ (s.onGo memcpyS old p).2.Ready q ∧
        ∃ b, (s.onGo memcpyS old p).2.sharedBlock = some b ∧ Filled q b ∧ b.startPos ≤ p ∧
          p < b.lastPos) := by
  have hblock := h.getBlock
  unfold SqliteSharedResultSet.onGo
  rw [if_neg (by rw [h.opened]; nofun)]
  match hb : s.getBlock.sharedBlock with
  | none => exact .inl ⟨rfl, rfl⟩
  | some b =>
    refine .inr ?_
    dsimp only
    split
    next hmiss =>
      have hok := hrefill b hb hmiss
      rw [← getBlock_stmt, ← getBlock_fillStart] at hok
      obtain ⟨hret, hready, b', hb', hfilled, hpos, hlast⟩ := hblock.fillBlock hb hp hok
      generalize s.getBlock.fillBlock memcpyS p = res at hret hready hb'
      obtain ⟨_, s'⟩ := res
      cases hret
      exact ⟨rfl, hready, b', hb', hfilled, by omega, hlast⟩
    next hmiss =>
      unfold Misses at hmiss
      refine ⟨rfl, hblock, b, hb, ?_, by omega, by omega⟩
      exact (hblock.block b hb).content.resolve_left (by omega)

theorem Ready.updateBlockPos (h : s.Ready q) (hp : p < q.rows.length)
    (hrefill : ∀ b ∈ s.getBlock.sharedBlock, s.Misses b s.rowPos p →
      (executeForSharedBlock memcpyS s.stmt b.clear.2 (s.fillStart p) p).1 = .ok ()) :
    (s.getBlock.sharedBlock = none ∧ s.updateBlockPos memcpyS p = (.error .error, s.getBlock)) ∨
      ((s.updateBlockPos memcpyS p).1 = .ok () ∧ (s.updateBlockPos memcpyS p).2.Ready q ∧
        (s.updateBlockPos memcpyS p).2.OnRow q p) := by
  have hgo := h.onGo hp hrefill
  unfold SqliteSharedResultSet.updateBlockPos
  generalize s.onGo memcpyS s.rowPos p = res at hgo
  obtain ⟨ret, s'⟩ := res
  rcases hgo with ⟨hnone, hgo⟩ | ⟨hret, hready, b, hb, hfilled, hle, hlt⟩
  · cases hgo
    exact .inl ⟨hnone, rfl⟩
  cases hret
  dsimp only at hready hb ⊢
  refine .inr ⟨rfl, ?_⟩
  rw [hb, Option.map_some]
  have hrows := q.rows_lt
  obtain ⟨b', hb'⟩ : ∃ b', (if p ≠ (b.startPos + b.blockPos) % 2 ^ 32 then
      b.setBlockPos (toUInt32 (p - b.startPos)) else b) = b' := ⟨_, rfl⟩
  obtain ⟨hfilled', hpos, hlast⟩ := Filled.move hfilled hle hlt (by omega) hb'
  rw [hb']
  refine ⟨⟨hready.opened, hready.noErr, hready.query, hready.next, hready.count, ?_⟩,
    b', rfl, hfilled', hpos, hlast⟩
  rintro _ ⟨⟩
  exact .of_filled hfilled'

theorem Ready.getRowCount_eq (h : s.Ready q) : s.getRowCount = .ok (q.rows.length : Int) := by
  unfold getRowCount
  rw [h.noErr]
  exact (if_pos (by rw [h.count, invalidCount]; omega)).trans (congrArg Except.ok h.count)

structure Lands (q : Query) (s : SqliteSharedResultSet) (position : Int)
    (res : Except RdbError Unit × SqliteSharedResultSet) : Prop where
  inv : res.2.Inv q
  reached : 0 ≤ position → position < q.rows.length → s.getBlock.sharedBlock ≠ none → res.1 = .ok ()
  onRow : res.1 = .ok () → 0 ≤ position ∧ position < q.rows.length ∧ res.2.rowPos = position ∧
    res.2.OnRow q position.toNat
  past : q.rows.length ≤ position → q.rows ≠ [] →
    res = (.error .rowOutRange, { s with rowPos := q.rows.length })

theorem Inv.goToRow (h : s.Inv q) (hrefill : s.RefillSucceeds memcpyS position) :
    Lands q s position (s.goToRow memcpyS position) := by
  have hready := h.toReady
  have hcount := h.count
  unfold SqliteSharedResultSet.goToRow
  rw [if_neg (by rw [h.opened]; nofun), hready.getRowCount_eq]
  dsimp only
  split
  next hout =>
    refine ⟨⟨⟨h.opened, h.noErr, h.query, h.next, h.count, h.block⟩, ?_⟩,
      fun _ _ => by omega, nofun, fun hge hne => ?_⟩
    · dsimp only
      split
      · exact .inr (.inl rfl)
      · exact h.place
    · have hlen := length_pos_iff.mpr hne
      rw [if_pos ⟨hge, by omega⟩]
  rename_i hin
  split
  next hpos =>
    refine ⟨h, fun _ _ _ => rfl, fun _ => ⟨by omega, by omega, hpos.symm, ?_⟩, fun _ => by omega⟩
    rcases h.place with hplace | hplace | ⟨p, hp, hrow⟩
    · omega
    · omega
    · rw [hpos, hp, Int.toNat_natCast]
      exact hrow
  next hne =>
    have hupdate := hready.updateBlockPos (p := position.toNat) (by omega)
      (hrefill (by omega) (by omega) hne)
    generalize s.updateBlockPos memcpyS position.toNat = res at hupdate
    obtain ⟨ret, s'⟩ := res
    rcases hupdate with ⟨hnone, hupdate⟩ | ⟨hret, hready', hrow⟩
    · cases hupdate
      exact ⟨h.getBlock, fun _ _ hblock => absurd hnone hblock, nofun, fun _ => by omega⟩
    · cases hret
      have hnat : position = position.toNat := (Int.toNat_of_nonneg (by omega)).symm
      exact ⟨⟨⟨hready'.opened, hready'.noErr, hready'.query, hready'.next, hready'.count,
        hready'.block⟩, .inr (.inr ⟨position.toNat, hnat, hrow⟩)⟩, fun _ _ _ => rfl,
        fun _ => ⟨by omega, by omega, rfl, hrow⟩, fun _ => by omega⟩

/-! ### Reading -/

/-- `Get` returns every column of row `p`. -/
def Reads (q : Query) (s : SqliteSharedResultSet) (p : Nat) : Prop :=
  ∀ i < q.decls.length, ∃ x, q.value p i = some x ∧ (s.get i).1 = .ok x

theorem getBlock_of_some (hb : s.sharedBlock = some b) : s.getBlock = s :=
  if_pos (.inl (by rw [hb]; rfl))

theorem Ready.get_eq {i : Nat} (h : s.Ready q) (hrow : s.OnRow q p) (hpos : s.rowPos = p)
    (hp : p < q.rows.length) (hdecl : q.decls[i]? = some decl) (hcells : q.rows[p]? = some cells)
    (hv : cells[i]? = some v) : (s.get i).1 = .ok (v.shown decl) := by
  obtain ⟨b, hb, hfilled, hblock, hlast⟩ := hrow
  have hi := (List.getElem?_eq_some_iff.mp hdecl).1
  have hcount := h.count
  have hcheck : s.checkState i = .ok () := by
    unfold checkState
    rw [if_neg (by rw [h.opened]; nofun), if_neg (by rw [hb]; nofun), if_neg (by omega),
      if_neg (by rw [h.query]; omega)]
  have hrows : b.blockPos < b.rowNums := by
    have := hfilled.last
    omega
  have hread := hfilled.window.readCell hrows hdecl (hblock.symm ▸ hcells) hv
  have hcell : b.getCellUnit b.blockPos i = some (b.cellAddr b.blockPos i) :=
    if_neg (by rw [hfilled.window.columns_eq]; omega)
  unfold get
  simp only [getBlock_of_some hb, hcheck, hb, Int.toNat_natCast, hcell, hread]

theorem Ready.reads_iff (h : s.Ready q) (hrow : s.OnRow q p) (hpos : s.rowPos = p)
    (hp : p < q.rows.length) : s.Reads q p ↔ q.NulFree p := by
  constructor
  · intro hreads cells hcells v hv
    obtain ⟨i, hi, rfl⟩ := mem_iff_getElem.mp hv
    have hwidth := q.width cells (mem_of_getElem? hcells)
    obtain ⟨decl, cells', v, hdecl, hcells', hv, hvalue⟩ := q.cell hp (hwidth ▸ hi)
    cases hcells'.symm.trans hcells
    cases hv.symm.trans (List.getElem?_eq_getElem hi)
    obtain ⟨x, hx, hget⟩ := hreads i (hwidth ▸ hi)
    cases hvalue.symm.trans hx
    have hshown := h.get_eq hrow hpos hp hdecl hcells hv
    exact SqliteValue.shown_eq_iff.mp (Except.ok.inj (hshown.symm.trans hget))
  · intro hfree i hi
    obtain ⟨decl, cells, v, hdecl, hcells, hv, hvalue⟩ := q.cell hp hi
    have hshown : v.shown decl = v.object decl :=
      SqliteValue.shown_eq_iff.mpr (hfree cells hcells v (mem_of_getElem? hv))
    exact ⟨_, hvalue, hshown ▸ h.get_eq hrow hpos hp hdecl hcells hv⟩

theorem getRowCount_of_lt {p : Nat} (herr : s.lastErr = none) (hlt : (p : Int) < s.rowCount) :
    s.getRowCount = .ok s.rowCount := by
  rw [getRowCount, herr]
  exact if_pos (by rw [invalidCount]; omega)

theorem goToRow_of_fails {p : Nat} (hopen : s.isClosed = false) (herr : s.lastErr = none)
    (hlt : (p : Int) < s.rowCount) (hne : (p : Int) ≠ s.rowPos)
    (hb : s.getBlock.sharedBlock = some b) (hmiss : s.Misses b s.rowPos p)
    (hexec : executeForSharedBlock memcpyS s.stmt b.clear.2 (s.fillStart p) p =
      (.error err, b', stmt')) :
    (s.goToRow memcpyS p).1 ≠ .ok () ∧ (err ≠ .noMoreRows → s.goToRow memcpyS p =
      (.error err, { s.getBlock with sharedBlock := some b', stmt := stmt' })) := by
  rw [← getBlock_stmt, ← getBlock_fillStart] at hexec
  have hfill : s.getBlock.fillBlock memcpyS p =
      (.error err, { s.getBlock with sharedBlock := some b', stmt := stmt' }) := by
    unfold fillBlock
    rw [hb]
    dsimp only
    rw [hexec]
  have hgo : (s.onGo memcpyS s.rowPos p).1 ≠ .ok () ∧ (err ≠ .noMoreRows →
      s.onGo memcpyS s.rowPos p =
        (.error err, { s.getBlock with sharedBlock := some b', stmt := stmt' })) := by
    unfold onGo
    rw [if_neg (by rw [hopen]; nofun), hb]
    dsimp only
    rw [if_pos hmiss, hfill]
    split
    next heq =>
      refine ⟨?_, fun hmore => absurd (Except.error.inj (Prod.mk.inj heq).1) hmore⟩
      unfold recount
      split <;> nofun
    · exact ⟨nofun, fun _ => rfl⟩
  unfold goToRow updateBlockPos
  rw [if_neg (by rw [hopen]; nofun), getRowCount_of_lt herr hlt]
  dsimp only
  rw [if_neg (by omega), if_neg hne, Int.toNat_natCast]
  generalize s.onGo memcpyS s.rowPos p = res at hgo
  obtain ⟨_ | _, _⟩ := res
  · exact ⟨nofun, fun hmore => hgo.2 hmore⟩
  · exact absurd rfl hgo.1

theorem goToRow_of_lastErr (memcpyS : Nat → Bool) (position : Int) (h : s.lastErr = some err) :
    ∃ err', s.goToRow memcpyS position = (.error err', s) := by
  unfold goToRow getRowCount
  rw [h]
  split
  · exact ⟨_, rfl⟩
  · exact ⟨_, rfl⟩

theorem create_inv (q : Query) (faults : List (Option RdbError)) (ashmem isOnlyFillBlock : Bool) :
    (∃ err, (create ⟨q, 0, none, faults⟩ ashmem isOnlyFillBlock).lastErr = some err) ∨
      (create ⟨q, 0, none, faults⟩ ashmem isOnlyFillBlock).Inv q := by
  unfold create
  match hcount : Stmt.count ⟨q, 0, none, faults⟩ with
  | (.error err, stmt) => exact .inl ⟨err, rfl⟩
  | (.ok count, stmt) =>
    obtain ⟨rfl, s, rfl, hs⟩ := Stmt.count_ok rfl hcount
    exact .inr ⟨⟨rfl, rfl, hs, rfl, rfl, nofun⟩, .inl rfl⟩

def go (memcpyS : Nat → Bool) (s : SqliteSharedResultSet) (position : Int32) :
    Except RdbError Unit × SqliteSharedResultSet :=
  s.goToRow memcpyS position.toInt

end SqliteSharedResultSet

open SqliteSharedResultSet (go)

theorem onRow_and_reads_iff_nulFree (memcpyS : Nat → Bool) (q : Query)
    (faults : List (Option RdbError)) (ashmem isOnlyFillBlock : Bool) (positions : List Int32)
    (hrefills : ∀ t ∈ trace (go memcpyS) (.create ⟨q, 0, none, faults⟩ ashmem isOnlyFillBlock)
      positions, t.pre.RefillSucceeds memcpyS t.call.toInt) :
    ∀ t ∈ trace (go memcpyS) (.create ⟨q, 0, none, faults⟩ ashmem isOnlyFillBlock) positions,
      t.ret = .ok () → 0 ≤ t.call.toInt → t.call.toInt < q.rows.length →
        t.post.OnRow q t.call.toInt.toNat ∧
          (t.post.Reads q t.call.toInt.toNat ↔ q.NulFree t.call.toInt.toNat) := by
  refine trace_forall (I := fun s => (∃ err, s.lastErr = some err) ∨ s.Inv q)
    (G := fun s c => s.RefillSucceeds memcpyS c.toInt) (fun s position hs hrefill => ?_)
    (create_inv q faults ashmem isOnlyFillBlock) hrefills
  rcases hs with ⟨err, herr⟩ | hs
  · obtain ⟨err', hgo⟩ := goToRow_of_lastErr memcpyS position.toInt herr
    refine ⟨.inl ⟨err, ?_⟩, fun hok => ?_⟩
    · rw [go, hgo, herr]
    · rw [transition, go, hgo] at hok
      exact nomatch hok
  · have hlands := hs.goToRow hrefill
    refine ⟨.inr hlands.inv, fun hret hnonneg hlt => ?_⟩
    obtain ⟨_, _, hpos, hrow⟩ := hlands.onRow hret
    refine ⟨hrow, hlands.inv.reads_iff hrow ?_ (by omega)⟩
    exact hpos.trans (Int.toNat_of_nonneg hnonneg).symm

theorem onRow_and_reads_iff_nulFree_revisited :
    let q : Query :=
      ⟨[some "INTEGER"], [[.integer 1], [.integer 2]], by decide, by decide, by decide⟩
    let s := create ⟨q, 0, none, []⟩ true false
    (∀ t ∈ trace (go secureMemcpy) s [1, 0, 0], t.ret = .ok () ∧
      t.pre.RefillSucceeds secureMemcpy t.call.toInt) ∧
      ∀ t ∈ trace (go secureMemcpy) s [1, 0, 0],
        t.ret = .ok () → 0 ≤ t.call.toInt → t.call.toInt < q.rows.length →
          t.post.OnRow q t.call.toInt.toNat ∧
            (t.post.Reads q t.call.toInt.toNat ↔ q.NulFree t.call.toInt.toNat) :=
  ⟨by decide +kernel, onRow_and_reads_iff_nulFree _ _ _ _ _ _ (by decide +kernel)⟩

def Query.FitAlone (memcpyS : Nat → Bool) (q : Query) : Prop :=
  ∀ cells ∈ q.rows, ∀ b ∈ SharedBlock.create DEFAULT_BLOCK_SIZE,
    (fillOneRow memcpyS (b.setColumnNum q.decls.length).2 (q.decls.zip cells) 0).1 = .success
  deriving Decidable

theorem not_reads_of_zero_byte :
    let q : Query := ⟨[some "TEXT"], [[.text [65, 0, 66]]], by decide, by decide, by decide⟩
    let s := create ⟨q, 0, none, []⟩ true false
    q.FitAlone secureMemcpy ∧
      (∀ t ∈ trace (go secureMemcpy) s [0], t.pre.RefillSucceeds secureMemcpy t.call.toInt) ∧
      ((final (go secureMemcpy) s [0]).get 0).1 = .ok (.string [65]) ∧
      ¬ ∀ t ∈ trace (go secureMemcpy) s [0],
        t.ret = .ok () → 0 ≤ t.call.toInt → t.call.toInt < q.rows.length →
          t.post.OnRow q t.call.toInt.toNat ∧ t.post.Reads q t.call.toInt.toNat := by
  refine ⟨by decide +kernel, by decide +kernel, by decide +kernel, fun h => ?_⟩
  obtain ⟨_, hreads⟩ := h _ (.head _) (by decide +kernel) (by decide) (by decide)
  obtain ⟨x, hx, hget⟩ := hreads 0 (by decide)
  cases hx
  exact absurd hget (by decide +kernel)

end RelationalStore
