import RelationalStore.Rdb.ResultSet.Fits

/-! # How many rows a fill packs

`place` counts the room of a block in numbers alone. -/

namespace RelationalStore

open List
open SharedBlock

variable {q : Query} {b b' : SharedBlock} {memcpyS : Nat → Bool} {size : Nat}

/-! ### Counting the room -/

def place (size : Nat) (taken : Nat × Nat) (row : List SqliteValue) : Option (Nat × Nat) :=
  let start := (taken.2 + 3) / 4 * 4 + if taken.1 ≠ 0 ∧ taken.1 % 128 = 0 then 512 else 0
  if taken.1 < 128 * 128 ∧ start + encodedSize row ≤ size then
    some (taken.1 + 1, start + encodedSize row)
  else none

def FitTogether (size : Nat) (rows : List (List SqliteValue)) : Prop :=
  (rows.foldlM (place size) (0, 1048)).isSome

def Query.slice (q : Query) (start rows : Nat) : List (List SqliteValue) :=
  (q.rows.drop start).take rows

theorem Query.slice_succ (hcells : q.rows[start + n]? = some cells) :
    q.slice start (n + 1) = q.slice start n ++ [cells] := by
  rw [slice, slice, take_add_one, getElem?_drop, hcells, Option.toList_some]

structure Packed (q : Query) (size : Nat) (b : SharedBlock) (start rows : Nat) : Prop where
  window : Window q b start rows
  size_eq : b.mSize = size
  placed : (q.slice start rows).foldlM (place size) (0, 1048) = some (rows, b.unusedOffset)
  group : b.groupOffset 0 ≠ 0
  groups : ∀ g < 128, g ≠ 0 → rows ≤ 128 * g → b.groupOffset g = 0

theorem Packed.empty (h : Emptied b) (hwindow : Window q b start 0) :
    Packed q b.mSize b start 0 :=
  ⟨hwindow, rfl, by rw [Query.slice, take_zero, h.unused]; rfl, h.group,
    fun g hg hne _ => h.groups g hg hne⟩

theorem Packed.group_eq_zero_iff (h : Packed q size b start rows) (hrows : rows < 128 * 128) :
    b.groupOffset (rows / 128) = 0 ↔ rows ≠ 0 ∧ rows % 128 = 0 := by
  constructor
  · intro hzero
    refine ⟨fun hnil => ?_, Classical.byContradiction fun hmod => ?_⟩
    · subst hnil
      exact h.group hzero
    · have hlast : (rows - 1) / 128 = rows / 128 := by omega
      refine h.window.inv.group_ne (rows - 1) (by rw [h.window.rows_eq]; omega) ?_
      rwa [hlast]
  · rintro ⟨hne, hmod⟩
    exact h.groups _ (by omega) (by omega) (by omega)

theorem Packed.place_eq (h : Packed q size b start rows) :
    (b.HasRoom cells → place size (rows, b.unusedOffset) cells =
      some (rows + 1, b.rowStart + encodedSize cells)) ∧
    (¬ b.HasRoom cells → place size (rows, b.unusedOffset) cells = none) := by
  have hlt := h.window.inv.size_lt
  have hunused := h.window.inv.unused_le
  have haligned : b.alignedOffset = (b.unusedOffset + 3) / 4 * 4 := by
    rw [alignedOffset, Nat.mod_eq_of_lt (by omega)]
    omega
  have hroom : b.HasRoom cells ↔ rows < 128 * 128 ∧ b.rowStart + encodedSize cells ≤ size := by
    rw [HasRoom, h.window.rows_eq, h.size_eq]
  have hstart (hrows : rows < 128 * 128) : b.rowStart =
      (b.unusedOffset + 3) / 4 * 4 + if rows ≠ 0 ∧ rows % 128 = 0 then 512 else 0 := by
    rw [rowStart, h.window.rows_eq, haligned]
    exact congrArg _ (if_congr (h.group_eq_zero_iff hrows) rfl rfl)
  constructor
  · intro hhas
    obtain ⟨hrows, hfits⟩ := hroom.mp hhas
    rw [hstart hrows] at hfits ⊢
    exact if_pos ⟨hrows, hfits⟩
  · intro hhas
    refine if_neg fun hplace => hhas (hroom.mpr ⟨hplace.1, ?_⟩)
    rw [hstart hplace.1]
    exact hplace.2

theorem Packed.fillOneRow (h : Packed q size b start rows)
    (hcells : q.rows[start + rows]? = some cells) (hcopied : ∀ v ∈ cells, v.Copied memcpyS) :
    ((fillOneRow memcpyS b (q.decls.zip cells) rows).1 = .success →
      Packed q size (fillOneRow memcpyS b (q.decls.zip cells) rows).2 start (rows + 1)) ∧
    ((fillOneRow memcpyS b (q.decls.zip cells) rows).1 = .isFull →
      ¬ FitTogether size (q.slice start (rows + 1))) := by
  have htakes := h.window.fillOneRow_takes memcpyS hcells
  have hwindow := fillOneRow_window memcpyS h.window hcells
  have hkept := fillOneRow_size (b := b) memcpyS (q.decls.zip cells) rows
  have hplaced := h.placed
  generalize RelationalStore.fillOneRow memcpyS b (q.decls.zip cells) rows = res
    at htakes hwindow hkept ⊢
  obtain ⟨st, b'⟩ := res
  have hfold : (q.slice start (rows + 1)).foldlM (place size) (0, 1048) =
      place size (rows, b.unusedOffset) cells := by
    rw [Query.slice_succ hcells, foldlM_append, hplaced]
    simp
  constructor
  · rintro rfl
    have hgroups := htakes.groups rfl
    rw [h.window.rows_eq] at hgroups
    have hroom := (htakes.success_iff.mp rfl).1
    refine ⟨hwindow, hkept.trans h.size_eq, ?_, ?_, fun g hg hne hle => ?_⟩
    · rw [hfold, h.place_eq.1 hroom, htakes.unused rfl]
    · exact hwindow.inv.group_ne 0 (by rw [hwindow.rows_eq]; exact Nat.succ_pos rows)
    · rw [hgroups g hg (by omega)]
      exact h.groups g hg hne (by omega)
  · rintro rfl hfit
    have hroom : ¬ b.HasRoom cells := fun hroom =>
      nomatch htakes.success_iff.mpr ⟨hroom, hcopied⟩
    rw [FitTogether, hfold, h.place_eq.2 hroom] at hfit
    exact nomatch hfit

/-! ### Rows that fit alone -/

def FitsAlone (memcpyS : Nat → Bool) (size : Nat) (row : List SqliteValue) : Prop :=
  1048 + encodedSize row ≤ size ∧ ∀ v ∈ row, v.Copied memcpyS

theorem fitsAlone_iff (memcpyS : Nat → Bool) (hw : b.mReadOnly = false) (hsize : 1048 ≤ b.mSize)
    (hlt : b.mSize < 2 ^ 31) (hcols : q.decls.length ≤ colMaxNum)
    {i : Nat} (hcells : q.rows[i]? = some cells) :
    (fillOneRow memcpyS (b.clear.2.setColumnNum q.decls.length).2 (q.decls.zip cells) 0).1 =
      .success ↔ FitsAlone memcpyS b.mSize cells := by
  have hwindow : Window q _ i 0 := .emptied i hw hsize hlt hcols
  rw [(hwindow.fillOneRow_takes memcpyS hcells).success_iff,
    (emptied_setColumnNum hw).hasRoom_iff, emptied_size, FitsAlone]

theorem Packed.fillOneRow_first (h : Packed q size b start 0)
    (hcells : q.rows[start]? = some cells) (hfits : FitsAlone memcpyS size cells) :
    (RelationalStore.fillOneRow memcpyS b (q.decls.zip cells) 0).1 = .success := by
  have hplaced : some (0, 1048) = some (0, b.unusedOffset) := h.placed
  have hempty : Emptied b :=
    ⟨by simpa using hplaced.symm, h.window.rows_eq, h.group,
      fun g hg hne => h.groups g hg hne (Nat.zero_le _)⟩
  refine (h.window.fillOneRow_takes memcpyS hcells).success_iff.mpr ⟨?_, hfits.2⟩
  rw [hempty.hasRoom_iff, h.size_eq]
  exact hfits.1

/-! ### The loop -/

structure PackedFill (q : Query) (size first required : Nat) (countAll isFull : Bool)
    (info : SharedBlockInfo) (seen : Nat) : Prop where
  seen_le : seen ≤ q.rows.length
  countAll_eq : info.isCountAllRows = countAll
  column : info.columnNum = q.decls.length
  required_eq : info.requiredPos = required
  total : info.totalRows = seen
  full : info.isFull = isFull
  start_ge : first ≤ info.startPos
  start_le : info.startPos ≤ required
  copying : isFull = false → info.addedRows = seen - info.startPos ∧
    ∃ b, info.sharedBlock = some b ∧ Packed q size b info.startPos info.addedRows
  ended : isFull → required < info.startPos + info.addedRows ∧
    ¬ FitTogether size (q.slice info.startPos (info.addedRows + 1)) ∧
    ∃ b, info.sharedBlock = some b ∧ Window q b info.startPos info.addedRows

theorem PackedFill.copied (h : PackedFill q size first required countAll false info seen)
    (hcells : q.rows[seen]? = some cells) (hge : info.startPos ≤ start) (hle : start ≤ required)
    (hseen : start + rows = seen) (hpacked : Packed q size b start (rows + 1)) :
    PackedFill q size first required countAll info.isFull
      { info with
        totalRows := info.totalRows + 1, startPos := start, sharedBlock := some b
        addedRows := rows + 1 } (seen + 1) := by
  refine ⟨(List.getElem?_eq_some_iff.mp hcells).1, h.countAll_eq, h.column, h.required_eq,
    congrArg (· + 1) h.total, rfl, h.start_ge.trans hge, hle, fun _ => ⟨?_, b, rfl, hpacked⟩,
    fun hfull => nomatch h.full.symm.trans hfull⟩
  change rows + 1 = seen + 1 - start
  omega

theorem Packed.restart (h : Packed q size b start rows)
    (hcells : q.rows[start + rows]? = some cells) (hfits : FitsAlone memcpyS size cells)
    (hfill : RelationalStore.fillOneRow memcpyS b (q.decls.zip cells) rows = (st, b')) :
    ∃ b'', RelationalStore.fillOneRow memcpyS (b'.clear.2.setColumnNum q.decls.length).2
        (q.decls.zip cells) 0 = (.success, b'') ∧ Packed q size b'' (start + rows) 1 := by
  have hold := fillOneRow_window memcpyS h.window hcells
  have hsize := fillOneRow_size (b := b) memcpyS (q.decls.zip cells) rows
  rw [hfill] at hold hsize
  have hempty := Packed.empty (emptied_setColumnNum (n := q.decls.length) hold.writable)
    (hold.restart (start + rows))
  rw [emptied_size, hsize, h.size_eq] at hempty
  have hfirst := hempty.fillOneRow_first hcells hfits
  exact ⟨_, Prod.ext hfirst rfl, (hempty.fillOneRow hcells hfits.2).1 hfirst⟩

theorem PackedFill.onRow (h : PackedFill q size first required countAll isFull info seen)
    (hcells : q.rows[seen]? = some cells)
    (hfits : first ≤ seen → FitsAlone memcpyS size cells) :
    PackedFill q size first required countAll
      (info.onRow memcpyS isFull (q.decls.zip cells)).1
      (info.onRow memcpyS isFull (q.decls.zip cells)).2 (seen + 1) := by
  have hseen : seen < q.rows.length := (List.getElem?_eq_some_iff.mp hcells).1
  have htotal := h.total
  have hreq := h.required_eq
  rcases info.onRow_cases memcpyS isFull (q.decls.zip cells) with
    ⟨hskip, heq⟩ | ⟨hstart, hnot, hrow⟩
  · rw [heq]
    refine ⟨hseen, h.countAll_eq, h.column, hreq, congrArg (· + 1) htotal, h.full, h.start_ge,
      h.start_le, fun hcopy => ?_, h.ended⟩
    obtain ⟨hadded, hblock⟩ := h.copying hcopy
    have hstart := hskip.resolve_right fun hfull => nomatch hcopy.symm.trans hfull
    refine ⟨?_, hblock⟩
    change info.addedRows = seen + 1 - info.startPos
    omega
  subst hnot
  obtain ⟨hadded, b, hb, hpacked⟩ := h.copying rfl
  have hp : info.startPos + info.addedRows = seen := by omega
  have hfits := hfits (h.start_ge.trans (by omega))
  obtain ⟨hsuccess, hlast⟩ := hpacked.fillOneRow (hp.symm ▸ hcells) hfits.2
  rcases hrow b hb with ⟨b', hfill, heq⟩ | ⟨b', hfill, hcovers, heq⟩ |
    ⟨b', info', hfill, hrestart, hinfo', heq⟩
  · rw [hfill] at hsuccess
    rw [heq]
    exact h.copied hcells (Nat.le_refl _) h.start_le hp (hsuccess rfl)
  · have hold := fillOneRow_window memcpyS hpacked.window (hp.symm ▸ hcells)
    have hne : info.addedRows ≠ 0 := by
      -- a first row that fits alone is copied
      intro hzero
      rw [hzero] at hpacked hp hfill
      have hstart : seen = info.startPos := hp.symm
      have hfirst := hpacked.fillOneRow_first (hstart ▸ hcells) hfits
      exact nomatch (congrArg Prod.fst hfill).symm.trans hfirst
    rw [hfill] at hold hlast
    rw [heq]
    exact ⟨hseen, h.countAll_eq, h.column, hreq, congrArg (· + 1) htotal, rfl, h.start_ge,
      h.start_le, nofun, fun _ => ⟨hreq ▸ hcovers.resolve_left hne, hlast rfl, b', rfl, hold⟩⟩
  · obtain ⟨b'', hfirst, hpacked'⟩ := hpacked.restart (hp.symm ▸ hcells) hfits hfill
    rw [← h.column] at hfirst
    rw [heq, hinfo', hfirst]
    exact h.copied hcells (Nat.le_add_right _ _) (hreq ▸ hrestart.2) hp hpacked'

theorem SqliteSharedResultSet.executeForSharedBlock_eq {stmt : Stmt} (start required : Nat)
    (hw : b.mReadOnly = false) (hq : stmt.query = q) (hcols : q.decls.length ≤ colMaxNum)
    (hfill : stmt.fillBlockInfo memcpyS
      ⟨some (b.clear.2.setColumnNum q.decls.length).2, start, 0, required, 0, false,
        q.decls.length, false⟩ = (ret, info, stmt')) :
    (executeForSharedBlock memcpyS stmt b start required).1 = ret ∧
      (ret ≠ .ok () → executeForSharedBlock memcpyS stmt b start required =
        (ret, info.sharedBlock.getD (b.clear.2.setColumnNum q.decls.length).2, stmt')) := by
  have hclear : b.clear = (.ok, b.clear.2) := by
    rw [SharedBlock.clear, if_neg (by rw [hw]; nofun)]
  have hset : b.clear.2.setColumnNum q.decls.length =
      (.ok, (b.clear.2.setColumnNum q.decls.length).2) :=
    Prod.ext (setColumnNum_of_cleared (clear_cleared hw) (clear_readOnly.trans hw) hcols) rfl
  unfold executeForSharedBlock
  rw [hclear]
  dsimp only
  rw [hq, hset]
  dsimp only
  rw [hfill]
  cases ret with
  | error err => exact ⟨rfl, fun _ => rfl⟩
  | ok => exact ⟨rfl, fun h => absurd rfl h⟩

/-! ### Busy steps -/

def WithinRetries (retryTime : Nat) : Nat → List (Option RdbError) → Prop
  | _, [] => True
  | _, none :: faults => WithinRetries retryTime 0 faults
  | count, some err :: faults =>
    (err = .sqliteBusy ∨ err = .sqliteLocked) ∧ count < retryTime ∧
      WithinRetries retryTime (count + 1) faults

theorem fillLoop_ok_of_withinRetries (hfaults : WithinRetries retryTime retryCount stmt.faults)
    (hfuel : stmt.ahead < fuel) :
    (fillLoop memcpyS retryTime fuel retryCount isFull info stmt).1 = .ok () := by
  induction fuel generalizing retryCount isFull info stmt with
  | zero => exact absurd hfuel (Nat.not_lt_zero _)
  | succ fuel ih =>
    obtain ⟨query, next, row, faults⟩ := stmt
    cases faults with
    | nil =>
      obtain ⟨info', stmt', hok, _⟩ : ∃ info' stmt', fillLoop memcpyS retryTime (fuel + 1)
          retryCount isFull info ⟨query, next, row, []⟩ = (.ok (), info', stmt') ∧
            stmt'.faults = [] :=
        fillLoop_ok rfl hfuel
      rw [hok]
    | cons fault faults =>
      have hahead : (query.rows.length - next) + (faults.length + 1) < fuel + 1 := hfuel
      rw [fillLoop]
      split
      · rfl
      cases fault with
      | none =>
        simp only [Stmt.step, Stmt.deliver]
        cases hrow : query.rows[next]? with
        | none => rfl
        | some cells =>
          have hlt := (List.getElem?_eq_some_iff.mp hrow).1
          refine ih hfaults ?_
          change query.rows.length - (next + 1) + faults.length < fuel
          omega
      | some err =>
        obtain ⟨hbusy, hcount, hrest⟩ := hfaults
        simp only [Stmt.step, if_pos hbusy, if_neg (Nat.not_le_of_lt hcount)]
        refine ih hrest ?_
        change query.rows.length - next + faults.length < fuel
        omega

/-! ### A whole fill -/

structure MaximalWindow (q : Query) (size first required : Nat) (info : SharedBlockInfo) :
    Prop where
  window : ∃ b, info.sharedBlock = some b ∧ Window q b info.startPos info.addedRows
  start_ge : first ≤ info.startPos
  required_mem : required < q.rows.length →
    info.startPos ≤ required ∧ required < info.startPos + info.addedRows
  maximal : q.rows.length ≤ info.startPos + info.addedRows ∨
    ¬ FitTogether size (q.slice info.startPos (info.addedRows + 1))

theorem maximalWindow_of_ok {stmt stmt' : Stmt} (hw : b.mReadOnly = false) (hsize : 1048 ≤ b.mSize)
    (hlt : b.mSize < 2 ^ 31) (hcols : q.decls.length ≤ colMaxNum) (hq : stmt.query = q)
    (hnext : stmt.next = 0) (hle : first ≤ required)
    (hfits : ∀ i cells, first ≤ i → q.rows[i]? = some cells → FitsAlone memcpyS b.mSize cells)
    (hres : fillSharedBlock memcpyS ⟨some (b.clear.2.setColumnNum q.decls.length).2, first, 0,
      required, 0, countAll, q.decls.length, false⟩ stmt retryTime = (.ok (), info, stmt')) :
    MaximalWindow q b.mSize first required info ∧
      (countAll → info.totalRows = q.rows.length) := by
  have hempty : Packed q b.mSize (b.clear.2.setColumnNum q.decls.length).2 first 0 := by
    have hpacked := Packed.empty (emptied_setColumnNum (n := q.decls.length) hw)
      (Window.emptied first hw hsize hlt hcols)
    rwa [emptied_size] at hpacked
  have hinit : PackedFill q b.mSize first required countAll false
      ⟨some (b.clear.2.setColumnNum q.decls.length).2, first, 0, required, 0, countAll,
        q.decls.length, false⟩ stmt.next := by
    rw [hnext]
    exact ⟨Nat.zero_le _, rfl, rfl, rfl, rfl, rfl, Nat.le_refl _, hle,
      fun _ => ⟨(Nat.zero_sub _).symm, _, rfl, hempty⟩, nofun⟩
  obtain ⟨isFull, seen, hJ, _, hend⟩ :=
    fillLoop_rule (J := PackedFill q b.mSize first required countAll)
      (fun _ _ seen cells h hcells _ =>
        h.onRow hcells fun hseen => hfits seen cells hseen hcells) hinit hq hres
  have hseen := hJ.seen_le
  have htotal := hJ.total
  have hall := hJ.countAll_eq
  cases isFull with
  | true =>
    obtain ⟨hcovers, hmax, hwindow⟩ := hJ.ended rfl
    refine ⟨⟨hwindow, hJ.start_ge, fun _ => ⟨hJ.start_le, hcovers⟩, .inr hmax⟩, fun hcount => ?_⟩
    -- a fill that counts goes on to the last row
    have hlast := hend.resolve_left fun h => nomatch hcount.symm.trans (hall.symm.trans h.2)
    omega
  | false =>
    obtain ⟨hadded, b', hb', hpacked⟩ := hJ.copying rfl
    have hlast := hend.resolve_left fun h => nomatch h.1
    have hstart := hJ.start_le
    refine ⟨⟨⟨b', hb', hpacked.window⟩, hJ.start_ge, fun hreq => ⟨hstart, by omega⟩,
      .inl (by omega)⟩, fun _ => by omega⟩

theorem fillSharedBlock_maximalWindow (memcpyS : Nat → Bool) (q : Query) (b : SharedBlock)
    (hw : b.mReadOnly = false) (hsize : 1048 ≤ b.mSize) (hlt : b.mSize < 2 ^ 31)
    (hcols : q.decls.length ≤ colMaxNum) (faults : List (Option RdbError))
    (retryTime first required : Nat) (hle : first ≤ required) (countAll : Bool)
    (hfits : ∀ i cells, first ≤ i → q.rows[i]? = some cells →
      (fillOneRow memcpyS (b.clear.2.setColumnNum q.decls.length).2 (q.decls.zip cells) 0).1 =
        .success) :
    let empty := (b.clear.2.setColumnNum q.decls.length).2
    let res := fillSharedBlock memcpyS
      ⟨some empty, first, 0, required, 0, countAll, q.decls.length, false⟩ ⟨q, 0, none, faults⟩
      retryTime
    (WithinRetries retryTime 0 faults → res.1 = .ok ()) ∧
      (res.1 = .ok () → MaximalWindow q b.mSize first required res.2.1 ∧
        (countAll → res.2.1.totalRows = q.rows.length)) := by
  intro empty res
  refine ⟨fun hfaults => fillLoop_ok_of_withinRetries hfaults (Nat.lt_succ_self _), fun hok => ?_⟩
  refine maximalWindow_of_ok hw hsize hlt hcols rfl rfl hle (fun i cells hi hcells => ?_)
    (Prod.ext hok rfl)
  exact (fitsAlone_iff memcpyS hw hsize hlt hcols hcells).mp (hfits i cells hi hcells)

theorem fillSharedBlock_maximalWindow_restarted :
    let q : Query := ⟨[some "INTEGER"],
      [[.integer 1], [.integer 2], [.integer 3], [.integer 4], [.integer 5]], by decide, by decide,
      by decide⟩
    ∃ b, SharedBlock.create 1072 = some b ∧
      let res := fillSharedBlock secureMemcpy
        ⟨some (b.clear.2.setColumnNum 1).2, 0, 0, 3, 0, true, 1, false⟩
        ⟨q, 0, none, [none, some .sqliteBusy]⟩ RETRY_TIME
      (res.2.1.startPos = 2 ∧ res.2.1.addedRows = 2) ∧ res.1 = .ok () ∧
        MaximalWindow q b.mSize 0 3 res.2.1 ∧ res.2.1.totalRows = 5 := by
  intro q
  refine ⟨_, rfl, by decide +kernel, ?_⟩
  have hfits : ∀ cells ∈ q.rows, (fillOneRow secureMemcpy
      ((SharedBlock.clear ⟨fun _ => 0, 1072, false⟩).2.clear.2.setColumnNum q.decls.length).2
      (q.decls.zip cells) 0).1 = .success := by
    decide +kernel
  obtain ⟨hok, hwindow⟩ := fillSharedBlock_maximalWindow secureMemcpy q _ rfl (by decide)
    (by decide) (by decide) [none, some .sqliteBusy] RETRY_TIME 0 3 (by decide) true
    fun _ cells _ hcells => hfits cells (mem_of_getElem? hcells)
  have hret := hok ⟨.inl rfl, by decide, trivial⟩
  exact ⟨hret, (hwindow hret).1, (hwindow hret).2 rfl⟩

end RelationalStore
