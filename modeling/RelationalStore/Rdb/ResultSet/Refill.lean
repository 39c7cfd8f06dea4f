import RelationalStore.Rdb.ResultSet.Packing

/-! # Refills that succeed

A result set whose rows fit alone can move to each of them, whatever its block holds. -/

namespace RelationalStore

open SharedBlock

variable {q : Query} {b : SharedBlock} {memcpyS : Nat → Bool} {stmt : Stmt}

/-! ## The size of the block -/

namespace SharedBlockInfo
variable {info : SharedBlockInfo}

def Sized (size : Nat) (info : SharedBlockInfo) : Prop :=
  ∀ b, info.sharedBlock = some b → b.mSize = size

theorem Sized.filled (h : res.2.mSize = size) : (info.filled res).Sized size := by
  obtain ⟨st, b⟩ := res
  cases st <;> rintro _ ⟨⟩ <;> exact h

theorem Sized.onRow (h : info.Sized size) (isFull : Bool)
    (cells : List (Option String × SqliteValue)) :
    (info.onRow memcpyS isFull cells).2.Sized size := by
  unfold SharedBlockInfo.onRow
  dsimp only
  split
  · exact h
  split
  · exact h
  next b hb =>
    have hrow := (fillOneRow_size memcpyS cells info.addedRows).trans (h b hb)
    unfold fillRow
    dsimp only
    split
    · exact .filled ((fillOneRow_size memcpyS cells 0).trans (emptied_size.trans hrow))
    · exact .filled hrow

end SharedBlockInfo

theorem fillSharedBlock_sized (memcpyS : Nat → Bool) (stmt : Stmt) (retryTime : Nat)
    (h : info.Sized size) : (fillSharedBlock memcpyS info stmt retryTime).2.1.Sized size := by
  have hstart : { info with totalRows := 0, addedRows := 0 }.Sized size := h
  obtain ⟨_, _, hsized, _⟩ : ∃ (_ : Bool) (_ : Nat),
      (fillSharedBlock memcpyS info stmt retryTime).2.1.Sized size ∧ _ :=
    fillLoop_invariant memcpyS retryTime (stmt.ahead + 1) 0 (J := fun _ info _ => info.Sized size)
      (fun isFull _ _ cells h _ _ => h.onRow isFull _) hstart rfl
  exact hsized

namespace SqliteSharedResultSet

theorem executeForSharedBlock_left (memcpyS : Nat → Bool) (b : SharedBlock) (start required : Nat)
    (hfaults : stmt.faults = []) :
    (executeForSharedBlock memcpyS stmt b start required).2.1.mSize = b.mSize ∧
      (executeForSharedBlock memcpyS stmt b start required).2.2.faults = [] := by
  have hsize := emptied_size (b := b) (n := stmt.query.decls.length)
  have hclear := clear_size (b := b)
  unfold executeForSharedBlock
  split
  swap
  next heq =>
    rw [heq] at hclear
    exact ⟨hclear, hfaults⟩
  rename_i b₁ heq
  rw [heq] at hsize
  split
  swap
  next heq =>
    rw [heq] at hsize
    exact ⟨hsize, hfaults⟩
  rename_i b₂ heq
  rw [heq] at hsize
  obtain ⟨hinfo, hstmt⟩ := stmt.fillBlockInfo_snd memcpyS
    ⟨some b₂, start, 0, required, 0, false, stmt.query.decls.length, false⟩
  have hstart : SharedBlockInfo.Sized b.mSize
      ⟨some b₂, start, 0, required, 0, false, stmt.query.decls.length, false⟩ := by
    rintro _ ⟨⟩
    exact hsize
  have hsized := fillSharedBlock_sized memcpyS stmt RETRY_TIME hstart
  obtain ⟨info', stmt', hfill, hfaults'⟩ : ∃ info' stmt', fillSharedBlock memcpyS
      ⟨some b₂, start, 0, required, 0, false, stmt.query.decls.length, false⟩ stmt RETRY_TIME =
        (.ok (), info', stmt') ∧ stmt'.faults = [] := fillLoop_ok hfaults (Nat.lt_succ_self _)
  rw [← hinfo] at hsized
  rw [hfill] at hstmt
  generalize stmt.fillBlockInfo memcpyS
    ⟨some b₂, start, 0, required, 0, false, stmt.query.decls.length, false⟩ = res at hsized hstmt
  obtain ⟨ret, info, stmt''⟩ := res
  have hblock : (info.sharedBlock.getD b₂).mSize = b.mSize := by
    cases hb : info.sharedBlock with
    | none => exact hsize
    | some b' => exact hsized b' hb
  have hleft : stmt''.faults = [] := by rcases hstmt with rfl | rfl <;> exact hfaults'
  cases ret with
  | error err => exact ⟨hblock, hleft⟩
  | ok => exact ⟨hblock, hleft⟩

/-! ## Rows that fit alone -/

theorem executeForSharedBlock_fits (hw : b.mReadOnly = false) (hsize : 1048 ≤ b.mSize)
    (hlt : b.mSize < 2 ^ 31) (hcols : q.decls.length ≤ colMaxNum) (hq : stmt.query = q)
    (hnext : stmt.next = 0) (hfaults : stmt.faults = []) (hle : start ≤ required)
    (hreq : required < q.rows.length) (hfits : ∀ cells ∈ q.rows, FitsAlone memcpyS b.mSize cells) :
    (executeForSharedBlock memcpyS stmt b start required).1 = .ok () := by
  obtain ⟨info, stmt', hfill, _⟩ : ∃ info stmt', fillSharedBlock memcpyS
      ⟨some (b.clear.2.setColumnNum q.decls.length).2, start, 0, required, 0, false,
        q.decls.length, false⟩ stmt RETRY_TIME = (.ok (), info, stmt') ∧ stmt'.faults = [] :=
    fillLoop_ok hfaults (Nat.lt_succ_self _)
  obtain ⟨hwindow, _⟩ := maximalWindow_of_ok hw hsize hlt hcols hq hnext hle
    (fun _ cells _ hcells => hfits cells (List.mem_of_getElem? hcells)) hfill
  have hmem := hwindow.required_mem hreq
  have hinfo : stmt.fillBlockInfo memcpyS ⟨some (b.clear.2.setColumnNum q.decls.length).2, start, 0,
      required, 0, false, q.decls.length, false⟩ = (.ok (), info, stmt'.reset) := by
    rw [Stmt.fillBlockInfo, hfill]
    exact if_neg (by omega)
  exact (executeForSharedBlock_eq start required hw hq hcols hinfo).1

structure Refusing (empty : SharedBlock) (p : Nat) (isFull : Bool) (info : SharedBlockInfo)
    (seen : Nat) : Prop where
  all : info.isCountAllRows = false
  start : info.startPos = p
  added : info.addedRows = 0
  total : info.totalRows = seen
  full : info.isFull = isFull
  copying : isFull = false → seen ≤ p ∧ info.sharedBlock = some empty
  ended : isFull → 0 < seen ∧ info.sharedBlock.isSome

theorem Refusing.onRow (h : Refusing empty p isFull info seen)
    (hgo : isFull → info.isCountAllRows)
    (hrefused : seen = p → (fillOneRow memcpyS empty cells 0).1 ≠ .success) :
    Refusing empty p (info.onRow memcpyS isFull cells).1 (info.onRow memcpyS isFull cells).2
      (seen + 1) := by
  have hnot : isFull = false := by
    cases isFull with
    | false => rfl
    | true => exact nomatch h.all.symm.trans (hgo rfl)
  obtain ⟨hseen, hblock⟩ := h.copying hnot
  have htotal := h.total
  have hstart := h.start
  have hadded := h.added
  rcases info.onRow_cases memcpyS isFull cells with ⟨hskip, heq⟩ | ⟨hge, _, hrow⟩
  · have hbefore := hskip.resolve_right fun hfull => nomatch hnot.symm.trans hfull
    rw [heq]
    exact ⟨h.all, hstart, hadded, congrArg (· + 1) htotal, h.full, fun _ => ⟨by omega, hblock⟩,
      fun hfull => nomatch hnot.symm.trans hfull⟩
  · have hrefused := hrefused (by omega)
    rcases hrow empty hblock with ⟨b', hfill, _⟩ | ⟨b', _, _, heq⟩ | ⟨_, _, _, hrestart, _⟩
    · rw [hadded] at hfill
      exact absurd (congrArg Prod.fst hfill) hrefused
    · rw [heq]
      exact ⟨h.all, hstart, hadded, congrArg (· + 1) htotal, rfl, nofun,
        fun _ => ⟨Nat.succ_pos _, rfl⟩⟩
    · exact absurd hadded hrestart.1

theorem columns_le_of_executeForSharedBlock
    (hok : (executeForSharedBlock memcpyS stmt b start required).1 = .ok ()) :
    stmt.query.decls.length ≤ colMaxNum := by
  unfold executeForSharedBlock at hok
  split at hok
  swap
  · exact nomatch hok
  split at hok
  swap
  · exact nomatch hok
  rename_i b₁ _ b₂ hset
  have hset := congrArg Prod.fst hset
  unfold setColumnNum at hset
  dsimp only at hset
  split at hset
  · exact nomatch hset
  split at hset
  · exact nomatch hset
  split at hset
  · exact nomatch hset
  · omega

theorem fitsAlone_of_executeForSharedBlock (hw : b.mReadOnly = false) (hsize : 1048 ≤ b.mSize)
    (hlt : b.mSize < 2 ^ 31) (hq : stmt.query = q) (hnext : stmt.next = 0)
    (hcells : q.rows[p]? = some cells)
    (hok : (executeForSharedBlock memcpyS stmt b p p).1 = .ok ()) :
    FitsAlone memcpyS b.mSize cells := by
  have hcols : q.decls.length ≤ colMaxNum := hq ▸ columns_le_of_executeForSharedBlock hok
  refine (fitsAlone_iff memcpyS hw hsize hlt hcols hcells).mp ?_
  have hp := (List.getElem?_eq_some_iff.mp hcells).1
  by_contra hrefused
  rcases stmt.fillBlockInfo_cases memcpyS ⟨some (b.clear.2.setColumnNum q.decls.length).2, p, 0, p,
    0, false, q.decls.length, false⟩ with ⟨err, res, herr⟩ | ⟨info, stmt', hfill, _, hnot⟩
  · exact nomatch hok.symm.trans (executeForSharedBlock_eq p p hw hq hcols herr).1
  have hinit : Refusing (b.clear.2.setColumnNum q.decls.length).2 p false
      ⟨some (b.clear.2.setColumnNum q.decls.length).2, p, 0, p, 0, false, q.decls.length, false⟩
      stmt.next :=
    ⟨rfl, rfl, rfl, hnext.symm, rfl, fun _ => ⟨hnext.symm ▸ Nat.zero_le _, rfl⟩, nofun⟩
  obtain ⟨isFull, seen, hJ, _, hend⟩ := fillLoop_rule
    (J := Refusing (b.clear.2.setColumnNum q.decls.length).2 p)
    (fun isFull info seen cells' h hcells' hgo => h.onRow hgo fun hseen => by
      rw [hseen] at hcells'
      cases hcells.symm.trans hcells'
      exact hrefused)
    hinit hq hfill
  cases isFull with
  | true =>
    obtain ⟨hpos, hsome⟩ := hJ.ended rfl
    exact hnot ⟨hJ.full, hJ.total.symm ▸ hpos, hJ.added, hsome⟩
  | false =>
    have hlast := hend.resolve_left fun h => nomatch h.1
    have hseen := (hJ.copying rfl).1
    omega

/-! ## Moves -/

variable {s : SqliteSharedResultSet}

structure Granted (s : SqliteSharedResultSet) : Prop where
  faults : s.stmt.faults = []
  ashmem : s.ashmem
  enough : s.lowMem = false
  sized : ∀ b, s.sharedBlock = some b → b.mSize = DEFAULT_BLOCK_SIZE

section
variable (h : s.Granted)
include h

theorem Granted.getBlock : s.getBlock.Granted := by
  obtain ⟨b, hb⟩ : ∃ b, SharedBlock.create DEFAULT_BLOCK_SIZE = some b := ⟨_, rfl⟩
  unfold SqliteSharedResultSet.getBlock
  split
  · exact h
  · rw [if_pos h.ashmem, hb]
    refine ⟨h.faults, h.ashmem, h.enough, ?_⟩
    rintro _ ⟨⟩
    exact (create_block hb).1

theorem Granted.getBlock_ne (hopen : s.isClosed = false) :
    s.getBlock.sharedBlock ≠ none := by
  obtain ⟨b, hb⟩ : ∃ b, SharedBlock.create DEFAULT_BLOCK_SIZE = some b := ⟨_, rfl⟩
  unfold SqliteSharedResultSet.getBlock
  split
  next hcase =>
    rcases hcase with hsome | hclosed | hlow
    · exact Option.isSome_iff_ne_none.mp hsome
    · exact nomatch hopen.symm.trans hclosed
    · exact nomatch h.enough.symm.trans hlow
  · rw [if_pos h.ashmem, hb]
    exact Option.some_ne_none b

theorem Granted.fillBlock (memcpyS : Nat → Bool) (p : Nat) :
    (s.fillBlock memcpyS p).2.Granted := by
  unfold SqliteSharedResultSet.fillBlock
  split
  · exact h
  rename_i b hb
  obtain ⟨hsize, hfaults⟩ :=
    executeForSharedBlock_left memcpyS b.clear.2 (s.fillStart p) p h.faults
  have hsize := hsize.trans (clear_size.trans (h.sized b hb))
  generalize executeForSharedBlock memcpyS s.stmt b.clear.2 (s.fillStart p) p = res at hsize hfaults
  obtain ⟨ret, b', stmt'⟩ := res
  have hsized : ∀ b, some b' = some b → b.mSize = DEFAULT_BLOCK_SIZE := by
    rintro _ ⟨⟩
    exact hsize
  cases ret with
  | error err => exact ⟨hfaults, h.ashmem, h.enough, hsized⟩
  | ok => exact ⟨hfaults, h.ashmem, h.enough, hsized⟩

theorem Granted.onGo (memcpyS : Nat → Bool) (old : Int) (new : Nat) :
    (s.onGo memcpyS old new).2.Granted := by
  have hfill := h.getBlock.fillBlock memcpyS new
  unfold SqliteSharedResultSet.onGo
  split
  · exact h
  split
  · exact h.getBlock
  split
  · split
    next heq =>
      rw [heq] at hfill
      unfold recount
      split
      · exact ⟨hfill.faults, hfill.ashmem, hfill.enough, hfill.sized⟩
      · exact hfill
    · exact hfill
  · exact h.getBlock

theorem Granted.updateBlockPos (memcpyS : Nat → Bool) (p : Nat) :
    (s.updateBlockPos memcpyS p).2.Granted := by
  have hgo := h.onGo memcpyS s.rowPos p
  unfold SqliteSharedResultSet.updateBlockPos
  generalize s.onGo memcpyS s.rowPos p = res at hgo
  obtain ⟨ret, s'⟩ := res
  cases ret with
  | error err => exact hgo
  | ok =>
    refine ⟨hgo.faults, hgo.ashmem, hgo.enough, fun b hb => ?_⟩
    obtain ⟨b', hb', rfl⟩ := Option.map_eq_some_iff.mp hb
    rw [← hgo.sized b' hb']
    split <;> rfl

theorem Granted.goToRow (memcpyS : Nat → Bool) (position : Int) :
    (s.goToRow memcpyS position).2.Granted := by
  have hupdate := h.updateBlockPos memcpyS position.toNat
  unfold SqliteSharedResultSet.goToRow
  split
  · exact h
  split
  · exact h
  split
  · exact ⟨h.faults, h.ashmem, h.enough, h.sized⟩
  split
  · exact h
  generalize s.updateBlockPos memcpyS position.toNat = res at hupdate
  obtain ⟨ret, s'⟩ := res
  cases ret with
  | error err => exact hupdate
  | ok => exact ⟨hupdate.faults, hupdate.ashmem, hupdate.enough, hupdate.sized⟩

theorem Granted.refillSucceeds (hready : s.Ready q) (hcols : q.decls.length ≤ colMaxNum)
    (hfits : ∀ cells ∈ q.rows, FitsAlone memcpyS DEFAULT_BLOCK_SIZE cells) (position : Int) :
    s.RefillSucceeds memcpyS position := by
  intro hnonneg hlt _ b hb _
  have hcount := hready.count
  have husable := hready.getBlock.block b hb
  have hsize : b.clear.2.mSize = DEFAULT_BLOCK_SIZE := clear_size.trans (h.getBlock.sized b hb)
  refine executeForSharedBlock_fits (clear_readOnly.trans husable.writable)
    (clear_size.symm ▸ husable.size_ge) (clear_size.symm ▸ husable.size_lt) hcols hready.query
    hready.next h.faults fillStart_le (by omega) ?_
  rw [hsize]
  exact hfits

end

theorem refillSucceeds_of_goToRow (hopen : s.isClosed = false) (herr : s.lastErr = none) {p : Nat}
    (hok : (s.goToRow memcpyS p).1 = .ok ()) : s.RefillSucceeds memcpyS p := by
  intro _ hlt hne b hb hmiss
  rw [Int.toNat_natCast] at hmiss ⊢
  generalize hres : executeForSharedBlock memcpyS s.stmt b.clear.2 (s.fillStart p) p = res
  obtain ⟨ret, b', stmt'⟩ := res
  cases ret with
  | ok => rfl
  | error err => exact absurd hok (goToRow_of_fails hopen herr hlt hne hb hmiss hres).1

theorem Granted.fitsAlone_of_goToRow (h : s.Granted) (hready : s.Ready q)
    (hnone : s.sharedBlock = none) (hcapacity : s.blockCapacity = 0) (hpos : s.rowPos = -1)
    {p : Nat} (hcells : q.rows[p]? = some cells)
    (hok : (s.goToRow memcpyS p).1 = .ok ()) :
    q.decls.length ≤ colMaxNum ∧ FitsAlone memcpyS DEFAULT_BLOCK_SIZE cells := by
  have hp := (List.getElem?_eq_some_iff.mp hcells).1
  have hcount := hready.count
  obtain ⟨b, hb⟩ := Option.ne_none_iff_exists'.mp (h.getBlock_ne hready.opened)
  have husable := hready.getBlock.block b hb
  have hsize : b.clear.2.mSize = DEFAULT_BLOCK_SIZE := clear_size.trans (h.getBlock.sized b hb)
  have hstart : s.fillStart p = p := by
    unfold fillStart pickFillBlockStartPosition
    rw [hcapacity]
    split <;> rfl
  have hlast : b.lastPos = 0 := by
    obtain ⟨block, lowMem, heq, hblock⟩ := s.getBlock_eq
    rw [heq] at hb
    rcases hblock with rfl | ⟨_, rfl⟩
    · exact nomatch hnone.symm.trans hb
    · have hcreate : SharedBlock.create DEFAULT_BLOCK_SIZE = some b := hb
      exact (create_block hcreate).2.2
  have hexec : (executeForSharedBlock memcpyS s.stmt b.clear.2 p p).1 = .ok () := by
    have hrefill := refillSucceeds_of_goToRow hready.opened hready.noErr hok (Int.natCast_nonneg p)
      (by omega) (by omega) b hb (.inr (.inl (hlast ▸ Nat.zero_le _)))
    rwa [Int.toNat_natCast, hstart] at hrefill
  refine ⟨hready.query ▸ columns_le_of_executeForSharedBlock hexec, hsize ▸ ?_⟩
  exact fitsAlone_of_executeForSharedBlock (clear_readOnly.trans husable.writable)
    (clear_size.symm ▸ husable.size_ge) (clear_size.symm ▸ husable.size_lt) hready.query hready.next
    hcells hexec

end SqliteSharedResultSet

end RelationalStore
