import RelationalStore.Rdb.ResultSet.Packing

/-! # A refill that fails

The block is cleared before the statement steps, and the position changes only at the end. -/

namespace RelationalStore

open List SqliteSharedResultSet
open SharedBlock

variable {q : Query} {b b' : SharedBlock} {memcpyS : Nat → Bool}

/-! ### What a fill leaves, however it ends -/

def Query.drop (q : Query) (n : Nat) : Query where
  decls := q.decls
  rows := q.rows.drop n
  rows_lt := Nat.lt_of_le_of_lt (by rw [length_drop]; exact Nat.sub_le _ _) q.rows_lt
  width row hrow := q.width row (mem_of_mem_drop hrow)
  size_lt row hrow := q.size_lt row (mem_of_mem_drop hrow)

theorem Window.fillOneRow_blockPos (memcpyS : Nat → Bool) (h : Window q b start rows)
    (hcells : q.rows[start + rows]? = some cells) :
    (fillOneRow memcpyS b (q.decls.zip cells) rows).2.blockPos = b.blockPos :=
  Mem.word_congr ((h.fillOneRow_takes memcpyS hcells).pos.mono (by omega) (by omega))

theorem emptied_blockPos (hw : b.mReadOnly = false) :
    (b.clear.2.setColumnNum n).2.blockPos = 0 :=
  (Mem.word_congr (setColumnNum_eqOn (.inr (by omega)))).trans (clear_cleared hw).block

def SharedBlockInfo.AtFirst (info : SharedBlockInfo) : Prop :=
  ∀ b, info.sharedBlock = some b → b.blockPos = 0

theorem SharedBlockInfo.AtFirst.filled {info : SharedBlockInfo} (h : res.2.blockPos = 0) :
    (info.filled res).AtFirst := by
  obtain ⟨st, b⟩ := res
  cases st <;> rintro _ ⟨⟩ <;> exact h

theorem Filling.atFirst (h : Filling q required isFull info p) (hfirst : info.AtFirst)
    (hcells : q.rows[p]? = some cells) :
    (info.onRow memcpyS isFull (q.decls.zip cells)).2.AtFirst := by
  obtain ⟨b, hb, hwindow⟩ := h.block
  have htotal := h.total
  rcases info.onRow_cases memcpyS isFull (q.decls.zip cells) with ⟨_, heq⟩ | ⟨hstart, hnot, hrow⟩
  · rw [heq]
    exact hfirst
  have hadded := h.added hnot
  have hp : info.startPos + info.addedRows = p := by omega
  have hpos := hwindow.fillOneRow_blockPos memcpyS (hp.symm ▸ hcells)
  rw [hfirst b hb] at hpos
  rcases hrow b hb with ⟨b', hres, heq⟩ | ⟨b', hres, _, heq⟩ | ⟨b', info', hres, _, hinfo', heq⟩
  · rw [hres] at hpos
    rw [heq]
    rintro _ ⟨⟩
    exact hpos
  · rw [hres] at hpos
    rw [heq]
    rintro _ ⟨⟩
    exact hpos
  · have hold := fillOneRow_window memcpyS hwindow (hp.symm ▸ hcells)
    rw [hres] at hold
    have hempty := hold.restart (info.startPos + info.addedRows)
    have hzero := hempty.fillOneRow_blockPos memcpyS (hp.symm ▸ hcells)
    rw [emptied_blockPos hold.writable, ← h.column] at hzero
    rw [heq, hinfo']
    exact .filled hzero

theorem Stmt.fillBlockInfo_left (memcpyS : Nat → Bool) {stmt : Stmt} (hq : stmt.query = q)
    (hwindow : Window (q.drop stmt.next) b start 0) (hpos : b.blockPos = 0)
    (hstart : start ≤ required)
    (hres : stmt.fillBlockInfo memcpyS
      ⟨some b, start, 0, required, 0, false, q.decls.length, false⟩ = (ret, info, stmt')) :
    (∃ b', info.sharedBlock = some b' ∧
      Window (q.drop stmt.next) b' info.startPos info.addedRows ∧ b'.blockPos = 0) ∧
      stmt'.query = q := by
  have hinit : Filling (q.drop stmt.next) required false
      ⟨some b, start, 0, required, 0, false, q.decls.length, false⟩ (stmt.next - stmt.next) :=
    ⟨⟨b, rfl, hwindow⟩, rfl, rfl, rfl, (Nat.sub_self _).symm, rfl, hstart,
      fun _ => by rw [Nat.sub_self, Nat.zero_sub], nofun⟩
  obtain ⟨isFull, p, ⟨_, hJ, hfirst⟩, hquery, _⟩ := fillLoop_invariant memcpyS RETRY_TIME
    (stmt.ahead + 1) 0
    (J := fun isFull info p => stmt.next ≤ p ∧
      Filling (q.drop stmt.next) required isFull info (p - stmt.next) ∧ info.AtFirst)
    (fun isFull info p cells ⟨hle, h, hfirst⟩ hcells hgo => by
      have hcells' : (q.drop stmt.next).rows[p - stmt.next]? = some cells := by
        rw [Query.drop, getElem?_drop, Nat.add_sub_of_le hle]
        exact hcells
      rw [Nat.sub_add_comm hle]
      exact ⟨Nat.le_succ_of_le hle, h.onRow hcells' hgo, h.atFirst hfirst hcells'⟩)
    ⟨Nat.le_refl _, hinit, by rintro _ ⟨⟩; exact hpos⟩ hq
  obtain ⟨hinfo, hstmt⟩ := stmt.fillBlockInfo_snd memcpyS
    ⟨some b, start, 0, required, 0, false, q.decls.length, false⟩
  rw [hres] at hinfo hstmt
  obtain rfl : info = _ := hinfo
  have hstmt : stmt'.query = _ := hstmt.elim (congrArg Stmt.query) (congrArg Stmt.query)
  obtain ⟨b', hb', hleft⟩ := hJ.block
  exact ⟨⟨b', hb', hleft, hfirst b' hb'⟩, hstmt.trans hquery⟩

/-! ### What is read after a failure -/

def Query.shown (q : Query) (row column : Nat) : Option ValueObject :=
  match q.rows[row]?, q.decls[column]? with
  | some cells, some decl => cells[column]?.map (·.shown decl)
  | _, _ => none

/-- What is read for row `r` is row `p`. -/
def Query.ShownAs (q : Query) (r p : Nat) : Prop :=
  ∀ i < q.decls.length, q.shown r i = q.value p i

theorem Query.shown_drop (q : Query) (n row column : Nat) :
    (q.drop n).shown row column = q.shown (n + row) column := by
  rw [shown, shown, drop, getElem?_drop]

theorem Window.readCell_eq (h : Window q b start rows) (hr : r < rows) (hc : c < q.decls.length) :
    b.readCell r c = q.shown (start + r) c ∧ (q.shown (start + r) c).isSome := by
  obtain ⟨cells, hcells, _⟩ := h.holds r hr
  have hlt := (List.getElem?_eq_some_iff.mp hcells).1
  obtain ⟨decl, cells', v, hdecl, hcells', hv, _⟩ := q.cell hlt hc
  cases hcells'.symm.trans hcells
  have hshown : q.shown (start + r) c = some (v.shown decl) := by
    rw [Query.shown, hcells, hdecl]
    exact congrArg (Option.map _) hv
  rw [hshown]
  exact ⟨h.readCell hr hdecl hcells hv, rfl⟩

namespace SqliteSharedResultSet

variable {s : SqliteSharedResultSet}

/-- The result set stands on row `p`, and `Get` returns it. -/
structure Standing (q : Query) (s : SqliteSharedResultSet) (p : Nat) (b : SharedBlock) : Prop where
  opened : s.isClosed = false
  noErr : s.lastErr = none
  query : s.stmt.query = q
  columns_le : q.decls.length ≤ colMaxNum
  block : s.sharedBlock = some b
  writable : b.mReadOnly = false
  size_ge : 1048 ≤ b.mSize
  size_lt : b.mSize < 2 ^ 31
  pos : s.rowPos = p
  lt_count : (p : Int) < s.rowCount
  reads : s.Reads q p

/-- `GoToRow` to `position` has to fill the block again, and the fill fails with `err` and leaves
`info`. -/
structure RefillFails (memcpyS : Nat → Bool) (s : SqliteSharedResultSet) (b : SharedBlock)
    (position : Nat) (err : RdbError) (info : SharedBlockInfo) : Prop where
  lt_count : (position : Int) < s.rowCount
  ne : (position : Int) ≠ s.rowPos
  misses : s.Misses b s.rowPos position
  fails : ∃ stmt', s.stmt.fillBlockInfo memcpyS
    ⟨some (b.clear.2.clear.2.setColumnNum s.stmt.query.decls.length).2, s.fillStart position, 0,
      position, 0, false, s.stmt.query.decls.length, false⟩ = (.error err, info, stmt')
  ne_noMoreRows : err ≠ .noMoreRows

/-- The result set denotes row `p`: `GoToRow` to it fails, or makes `Get` return it. -/
def Denotes (memcpyS : Nat → Bool) (q : Query) (s : SqliteSharedResultSet) (p : Nat) : Prop :=
  (s.goToRow memcpyS p).1 = .ok () → (s.goToRow memcpyS p).2.Reads q p

theorem Standing.goToRow (h : s.Standing q p b)
    (hfail : s.RefillFails memcpyS b position err info) :
    ∃ b' stmt', s.goToRow memcpyS position =
        (.error err, { s with sharedBlock := some b', stmt := stmt' }) ∧ stmt'.query = q ∧
      Window (q.drop s.stmt.next) b' info.startPos info.addedRows ∧ b'.blockPos = 0 := by
  obtain ⟨stmt', hfill⟩ := hfail.fails
  have hw : b.clear.2.mReadOnly = false := clear_readOnly.trans h.writable
  have hempty : Window (q.drop s.stmt.next) (b.clear.2.clear.2.setColumnNum q.decls.length).2
      (s.fillStart position) 0 :=
    Window.emptied (q := q.drop s.stmt.next) _ hw (clear_size.symm ▸ h.size_ge)
      (clear_size.symm ▸ h.size_lt) h.columns_le
  rw [h.query] at hfill
  obtain ⟨⟨b', hb', hleft, hpos⟩, hquery⟩ := Stmt.fillBlockInfo_left memcpyS h.query hempty
    (emptied_blockPos hw) fillStart_le hfill
  refine ⟨b', stmt', ?_, hquery, hleft, hpos⟩
  have hexec : executeForSharedBlock memcpyS s.stmt b.clear.2 (s.fillStart position) position =
      (.error err, b', stmt') := by
    rw [(executeForSharedBlock_eq _ _ hw h.query h.columns_le hfill).2 nofun, hb',
      Option.getD_some]
  rw [(goToRow_of_fails h.opened h.noErr hfail.lt_count hfail.ne
    (by rw [getBlock_of_some h.block, h.block]) hfail.misses hexec).2 hfail.ne_noMoreRows,
    getBlock_of_some h.block]

section
variable {p : Nat} (hopen : s.isClosed = false) (hquery : s.stmt.query = q)
  (hb : s.sharedBlock = some b) (hpos : s.rowPos = p) (hlt : p < s.rowCount)
  (hwindow : Window (q.drop n) b start rows) (hfirst : b.blockPos = 0)
include hopen hquery hb hpos hlt hwindow hfirst

theorem get_first (hi : i < q.decls.length) :
    (rows = 0 → (s.get i).1 = .error .error) ∧
      (rows ≠ 0 → ∃ x, q.shown (n + start) i = some x ∧ (s.get i).1 = .ok x) := by
  have hcheck : s.checkState i = .ok () := by
    unfold checkState
    rw [if_neg (by rw [hopen]; nofun), if_neg (by rw [hb]; nofun), if_neg (by omega),
      if_neg (by rw [hquery]; omega)]
  have hcols : b.columnNums = q.decls.length := hwindow.columns_eq
  unfold get
  simp only [getBlock_of_some hb, hcheck, hb, Int.toNat_natCast]
  constructor
  · intro hrows
    have hcell : b.getCellUnit b.blockPos i = none :=
      if_pos (.inl (by rw [hwindow.rows_eq, hrows]; exact Nat.zero_le _))
    rw [hcell]
  · intro hrows
    have hcell : b.getCellUnit b.blockPos i = some (b.cellAddr b.blockPos i) :=
      if_neg (by rw [hcols, hwindow.rows_eq, hfirst]; omega)
    obtain ⟨hread, hsome⟩ := hwindow.readCell_eq (Nat.pos_of_ne_zero hrows) (c := i) hi
    obtain ⟨x, hx⟩ := Option.isSome_iff_exists.mp hsome
    rw [hx] at hread
    rw [Nat.add_zero, Query.shown_drop] at hx
    refine ⟨x, hx, ?_⟩
    rw [hcell, hfirst]
    dsimp only
    rw [hread]

theorem reads_first_iff :
    s.Reads q p ↔ q.decls = [] ∨ (rows ≠ 0 ∧ q.ShownAs (n + start) p) := by
  have hget {i : Nat} (hi : i < q.decls.length) :=
    get_first hopen hquery hb hpos hlt hwindow hfirst hi
  constructor
  · intro hreads
    by_cases hrows : rows = 0
    · refine .inl (length_eq_zero_iff.mp (Nat.eq_zero_of_not_pos fun hne => ?_))
      obtain ⟨x, _, hx⟩ := hreads 0 hne
      exact nomatch ((hget hne).1 hrows).symm.trans hx
    · refine .inr ⟨hrows, fun i hi => ?_⟩
      obtain ⟨x, hx, hgetx⟩ := hreads i hi
      obtain ⟨y, hy, hgety⟩ := (hget hi).2 hrows
      rw [hy, hx, Except.ok.inj (hgety.symm.trans hgetx)]
  · rintro (hnil | ⟨hrows, hshown⟩) i hi
    · exact absurd hi (by rw [hnil]; exact Nat.not_lt_zero i)
    · obtain ⟨x, hx, hgetx⟩ := (hget hi).2 hrows
      exact ⟨x, (hshown i hi).symm.trans hx, hgetx⟩

end

theorem denotes_iff_of_refillFails (memcpyS : Nat → Bool) (h : s.Standing q p b)
    (hfail : s.RefillFails memcpyS b position err info) :
    (s.goToRow memcpyS position).1 = .error err ∧
      ((s.goToRow memcpyS position).2.Denotes memcpyS q p ↔
        q.decls = [] ∨ (info.addedRows ≠ 0 ∧ q.ShownAs (s.stmt.next + info.startPos) p)) := by
  obtain ⟨b', stmt', hgo, hquery, hleft, hfirst⟩ := h.goToRow hfail
  have hlt := h.lt_count
  rw [hgo]
  refine ⟨rfl, ?_⟩
  dsimp only
  generalize hs' : ({ s with sharedBlock := some b', stmt := stmt' } : SqliteSharedResultSet) = s'
  have hopen : s'.isClosed = false := hs' ▸ h.opened
  have hpos : s'.rowPos = p := hs' ▸ h.pos
  have hcount : s'.rowCount = s.rowCount := hs' ▸ rfl
  -- the position is the old one, so the block is not looked at
  have hback : s'.goToRow memcpyS p = (.ok (), s') := by
    unfold goToRow
    rw [if_neg (by rw [hopen]; nofun),
      getRowCount_of_lt (hs' ▸ h.noErr) (hcount.symm ▸ hlt)]
    dsimp only
    rw [if_neg (by omega), if_pos hpos.symm]
  rw [Denotes, hback]
  refine (forall_prop_of_true rfl).trans ?_
  exact reads_first_iff hopen (hs' ▸ hquery) (hs' ▸ rfl) hpos (hcount ▸ hlt) hleft hfirst

theorem Inv.standing (h : s.Inv q) (hpos : s.rowPos = (p : Nat)) (hp : p < q.rows.length)
    (hcols : q.decls.length ≤ colMaxNum) (hfree : q.NulFree p) :
    ∃ b, s.sharedBlock = some b ∧ s.Standing q p b := by
  have hrow : s.OnRow q p := by
    rcases h.place with hplace | hplace | ⟨p', hp', hrow⟩
    · omega
    · omega
    · rwa [show p = p' by omega]
  have hreads := (h.reads_iff hrow hpos hp).mpr hfree
  obtain ⟨b, hb, _⟩ := hrow
  have husable := h.block b hb
  have hcount := h.count
  exact ⟨b, hb, h.opened, h.noErr, h.query, hcols, hb, husable.writable, husable.size_ge,
    husable.size_lt, hpos, by omega, hreads⟩

end SqliteSharedResultSet

open SqliteSharedResultSet (go)

theorem denotes_iff_of_refillFails_busy :
    let q : Query :=
      ⟨[some "INTEGER"], [[.integer 1], [.integer 2]], by decide, by decide, by decide⟩
    let faults := List.replicate 7 none ++ List.replicate 51 (some RdbError.sqliteBusy)
    let s := final (go secureMemcpy) (.create ⟨q, 0, none, faults⟩ true false) [1]
    ∃ b info, s.Standing q 1 b ∧ s.RefillFails secureMemcpy b 0 .databaseBusy info ∧
      (s.goToRow secureMemcpy 0).1 = .error .databaseBusy ∧
      ((s.goToRow secureMemcpy 0).2.Denotes secureMemcpy q 1 ↔
        q.decls = [] ∨ (info.addedRows ≠ 0 ∧ q.ShownAs (s.stmt.next + info.startPos) 1)) := by
  intro q faults s
  have hcreate : (create ⟨q, 0, none, faults⟩ true false).Inv q :=
    (create_inv q faults true false).resolve_left fun ⟨_, herr⟩ =>
      nomatch herr.symm.trans (by decide +kernel : _ = none)
  have hinv : s.Inv q := (hcreate.goToRow (by decide +kernel)).inv
  obtain ⟨b, hb, hstanding⟩ := hinv.standing (p := 1) (by decide +kernel) (by decide) (by decide)
    (by rintro _ ⟨⟩ v hv; cases mem_singleton.mp hv; trivial)
  have hcount : s.rowCount = 2 := by decide +kernel
  have hpos : s.rowPos = 1 := by decide +kernel
  have hquery : s.stmt.query = q := hinv.query
  have hstart : s.sharedBlock.map SharedBlock.startPos = some 1 := by decide +kernel
  have hret : s.sharedBlock.map (fun b => (s.stmt.fillBlockInfo secureMemcpy
      ⟨some (b.clear.2.clear.2.setColumnNum 1).2, s.fillStart 0, 0, 0, 0, false, 1, false⟩).1) =
        some (.error .databaseBusy) := by
    decide +kernel
  rw [hb, Option.map_some] at hstart hret
  -- what is needed of the run is known by now
  clear_value s
  have hfail : s.RefillFails secureMemcpy b 0 .databaseBusy _ :=
    ⟨by omega, by omega, .inl (by rw [Option.some.inj hstart]; exact Nat.one_pos),
      ⟨_, Prod.ext (hquery ▸ Option.some.inj hret) rfl⟩, nofun⟩
  exact ⟨b, _, hstanding, hfail,
    denotes_iff_of_refillFails secureMemcpy hstanding hfail⟩

theorem not_denotes_after_busy :
    let q : Query :=
      ⟨[some "INTEGER"], [[.integer 1], [.integer 2]], by decide, by decide, by decide⟩
    let busy := List.replicate 51 (some RdbError.sqliteBusy)
    let start (faults : List (Option RdbError)) :=
      create ⟨q, 0, none, faults⟩ true false
    let before := List.replicate 6 none ++ busy
    let between := List.replicate 7 none ++ busy
    ((final (go secureMemcpy) (start before) [1]).get 0).1 = .ok (.integer 2) ∧
      (trace (go secureMemcpy) (start before) [1, 0, 1]).map (·.ret) =
        [.ok (), .error .databaseBusy, .ok ()] ∧
      ((final (go secureMemcpy) (start before) [1, 0, 1]).get 0).1 = .error .error ∧
      (trace (go secureMemcpy) (start between) [1, 0, 1]).map (·.ret) =
        [.ok (), .error .databaseBusy, .ok ()] ∧
      ((final (go secureMemcpy) (start between) [1, 0, 1]).get 0).1 = .ok (.integer 1) := by
  decide +kernel

end RelationalStore
