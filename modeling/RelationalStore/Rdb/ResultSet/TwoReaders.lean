import RelationalStore.Rdb.ResultSet.Packing
import RelationalStore.Rdb.ResultSet.StepCursor

/-! # One row, two result sets

One decodes a column from its statement, the other reads the cell to which it was copied. -/

namespace RelationalStore

open List
open SharedBlock

variable {q : Query} {b : SharedBlock} {memcpyS : Nat → Bool}

/-! ### The first fill -/

structure FirstFill (b : SharedBlock) (p : Nat) (copied : Prop) (isFull : Bool)
    (info : SharedBlockInfo) (seen : Nat) : Prop where
  start : info.startPos = p
  required : info.requiredPos = p
  total : info.totalRows = seen
  full : info.isFull = isFull
  before : seen ≤ p → isFull = false ∧ info.addedRows = 0 ∧ info.sharedBlock = some b
  after : p < seen → (info.addedRows ≠ 0 ↔ copied) ∧ (info.addedRows = 0 → isFull) ∧
    info.sharedBlock.isSome

theorem FirstFill.onRow (hcells : q.rows[p]? = some cells)
    (h : FirstFill b p ((fillOneRow memcpyS b (q.decls.zip cells) 0).1 = .success) isFull info seen)
    (hrow : q.rows[seen]? = some row) :
    FirstFill b p ((fillOneRow memcpyS b (q.decls.zip cells) 0).1 = .success)
      (info.onRow memcpyS isFull (q.decls.zip row)).1
      (info.onRow memcpyS isFull (q.decls.zip row)).2 (seen + 1) := by
  have hstart := h.start
  have hreq := h.required
  have htotal : info.totalRows + 1 = seen + 1 := congrArg (· + 1) h.total
  have hfull := h.full
  rcases info.onRow_cases memcpyS isFull (q.decls.zip row) with ⟨hskip, heq⟩ | ⟨_, hnot, hfill⟩
  · rw [heq]
    refine ⟨hstart, hreq, htotal, hfull, fun _ => h.before (by omega), fun hlt => ?_⟩
    refine h.after (Nat.lt_of_not_le fun hle => ?_)
    obtain ⟨hnot, _⟩ := h.before hle
    have hlt := hskip.resolve_right fun hfull => nomatch hnot.symm.trans hfull
    omega
  subst hnot
  have hge : p ≤ seen := by omega
  obtain ⟨b₁, hb₁, hcopied⟩ : ∃ b₁, info.sharedBlock = some b₁ ∧
      ((fillOneRow memcpyS b (q.decls.zip cells) 0).1 = .success ↔
        info.addedRows ≠ 0 ∨ (fillOneRow memcpyS b₁ (q.decls.zip row) info.addedRows).1 =
          .success) := by
    rcases Nat.eq_or_lt_of_le hge with rfl | hlt
    · -- this is the required row
      obtain ⟨_, hzero, hb⟩ := h.before (Nat.le_refl _)
      cases hcells.symm.trans hrow
      rw [hzero]
      exact ⟨b, hb, (or_iff_right fun h => h rfl).symm⟩
    · obtain ⟨hiff, hnone, hsome⟩ := h.after hlt
      obtain ⟨b₁, hb₁⟩ := Option.isSome_iff_exists.mp hsome
      have hne : info.addedRows ≠ 0 := fun hzero => nomatch hnone hzero
      exact ⟨b₁, hb₁, fun _ => .inl hne, fun _ => hiff.mp hne⟩
  rcases hfill b₁ hb₁ with ⟨b', hres, heq⟩ | ⟨b', hres, _, heq⟩ | ⟨b', info', hres, hrestart, _⟩
  · rw [hres] at hcopied
    rw [heq]
    refine ⟨hstart, hreq, htotal, rfl, fun hle => by omega, fun _ => ⟨?_, nofun, rfl⟩⟩
    exact ⟨fun _ => hcopied.mpr (.inr rfl), fun _ => Nat.succ_ne_zero _⟩
  · rw [hres] at hcopied
    rw [heq]
    refine ⟨hstart, hreq, htotal, rfl, fun hle => by omega, fun _ => ⟨?_, fun _ => rfl, rfl⟩⟩
    exact ⟨fun hne => hcopied.mpr (.inl hne), fun hok => (hcopied.mp hok).resolve_right nofun⟩
  · -- only a block without the required row is started again
    omega

theorem Stmt.fillBlockInfo_first (memcpyS : Nat → Bool) {stmt : Stmt} {cells : List SqliteValue}
    (hq : stmt.query = q) (hnext : stmt.next = 0) (hfaults : stmt.faults = [])
    (hcells : q.rows[p]? = some cells) :
    (stmt.fillBlockInfo memcpyS ⟨some b, p, 0, p, 0, false, q.decls.length, false⟩).1 = .ok () ↔
      (fillOneRow memcpyS b (q.decls.zip cells) 0).1 = .success := by
  have hp : p < q.rows.length := (List.getElem?_eq_some_iff.mp hcells).1
  obtain ⟨info, stmt', hfill, _⟩ : ∃ info stmt', fillSharedBlock memcpyS
      ⟨some b, p, 0, p, 0, false, q.decls.length, false⟩ stmt RETRY_TIME = (.ok (), info, stmt') ∧
        stmt'.faults = [] :=
    fillLoop_ok hfaults (Nat.lt_succ_self _)
  have hinit : FirstFill b p ((fillOneRow memcpyS b (q.decls.zip cells) 0).1 = .success) false
      ⟨some b, p, 0, p, 0, false, q.decls.length, false⟩ stmt.next :=
    ⟨rfl, rfl, hnext.symm, rfl, fun _ => ⟨rfl, rfl, rfl⟩, fun hlt => by omega⟩
  have hloop := hfill
  rw [fillSharedBlock] at hloop
  obtain ⟨isFull, seen, hJ, _, hend⟩ := fillLoop_rule
    (J := FirstFill b p ((fillOneRow memcpyS b (q.decls.zip cells) 0).1 = .success))
    (fun _ _ _ _ h hrow _ => h.onRow hcells hrow) hinit hq hloop
  have hlt : p < seen := Nat.lt_of_not_le fun hle => by
    obtain ⟨hnot, _⟩ := hJ.before hle
    rcases hend with ⟨hfull, _⟩ | hend
    · exact absurd (hnot.symm.trans hfull) Bool.false_ne_true
    · omega
  obtain ⟨hiff, hnone, hsome⟩ := hJ.after hlt
  have htotal := hJ.total
  rw [fillBlockInfo, hfill, ← hiff]
  dsimp only
  split
  next hempty => exact ⟨fun herr => (by cases herr), fun hne => absurd hempty.2.2.1 hne⟩
  next hrows =>
    refine ⟨fun _ hzero => hrows ⟨?_, by omega, hzero, hsome⟩, fun _ => rfl⟩
    exact hJ.full.trans (hnone hzero)

/-! ### The two result sets -/

namespace SqliteSharedResultSet

variable {s : SqliteSharedResultSet}

def getInto (s : SqliteSharedResultSet) (col : Int) (value : ValueObject) :
    Except RdbError ValueObject :=
  match (s.get col).1 with
  | .ok .null => .ok value
  | res => res

theorem executeForSharedBlock_first (memcpyS : Nat → Bool) {stmt : Stmt}
    (hq : stmt.query = q) (hnext : stmt.next = 0) (hfaults : stmt.faults = [])
    (hw : b.mReadOnly = false) (hsize : 1048 ≤ b.mSize) (hlt : b.mSize < 2 ^ 31)
    (hcols : q.decls.length ≤ colMaxNum) (hcells : q.rows[p]? = some cells) :
    (executeForSharedBlock memcpyS stmt b p p).1 = .ok () ↔ FitsAlone memcpyS b.mSize cells := by
  rcases hres : stmt.fillBlockInfo memcpyS
    ⟨some (b.clear.2.setColumnNum q.decls.length).2, p, 0, p, 0, false, q.decls.length, false⟩
    with ⟨ret, info, stmt'⟩
  have hfirst := Stmt.fillBlockInfo_first (b := (b.clear.2.setColumnNum q.decls.length).2) memcpyS
    hq hnext hfaults hcells
  rw [hres] at hfirst
  rw [(executeForSharedBlock_eq p p hw hq hcols hres).1, hfirst,
    fitsAlone_iff memcpyS hw hsize hlt hcols hcells]

theorem create_eq (q : Query) (isOnlyFillBlock : Bool) :
    create ⟨q, 0, none, []⟩ true isOnlyFillBlock =
      ⟨⟨q, 0, none, []⟩, none, false, true, initPos, q.rows.length, isOnlyFillBlock, 0, false,
        none⟩ := by
  rw [create, Stmt.count_faultless rfl rfl]
  rfl

theorem create_goToRow (memcpyS : Nat → Bool) (q : Query) (isOnlyFillBlock : Bool)
    (hcols : q.decls.length ≤ colMaxNum) {p : Nat} (hcells : q.rows[p]? = some cells) :
    let s := create ⟨q, 0, none, []⟩ true isOnlyFillBlock
    ((s.goToRow memcpyS p).1 = .ok () ↔ FitsAlone memcpyS DEFAULT_BLOCK_SIZE cells) ∧
      ((s.goToRow memcpyS p).1 = .ok () → (s.goToRow memcpyS p).2.Ready q ∧
        (s.goToRow memcpyS p).2.rowPos = p ∧ (s.goToRow memcpyS p).2.OnRow q p) := by
  have hp : p < q.rows.length := (List.getElem?_eq_some_iff.mp hcells).1
  have hs := create_eq q isOnlyFillBlock
  intro s
  have hinv : s.Inv q := by
    refine (create_inv q [] true isOnlyFillBlock).resolve_left fun ⟨err, herr⟩ => ?_
    rw [hs] at herr
    exact nomatch herr
  have hpos : s.rowPos = -1 := congrArg rowPos hs
  have hfaults : s.stmt.faults = [] := congrArg (fun s => Stmt.faults s.stmt) hs
  obtain ⟨b, hb, hblock⟩ : ∃ b, SharedBlock.create DEFAULT_BLOCK_SIZE = some b ∧
      s.getBlock.sharedBlock = some b := ⟨_, rfl, by rw [show s = _ from hs]; rfl⟩
  obtain ⟨hsize, hw, hlast⟩ := create_block hb
  have hmiss : s.Misses b s.rowPos p := .inr (.inl (by rw [hlast]; exact Nat.zero_le _))
  have hstart : s.fillStart p = p := by
    rw [show s = _ from hs, fillStart]
    split
    · rfl
    · simp [pickFillBlockStartPosition]
  have hexec : (executeForSharedBlock memcpyS s.stmt b.clear.2 (s.fillStart p) p).1 = .ok () ↔
      FitsAlone memcpyS DEFAULT_BLOCK_SIZE cells := by
    have hsize' : b.clear.2.mSize = DEFAULT_BLOCK_SIZE := clear_size.trans hsize
    rw [hstart, executeForSharedBlock_first memcpyS hinv.query hinv.next hfaults
      (clear_readOnly.trans hw) (by rw [hsize']; decide) (by rw [hsize']; decide) hcols hcells,
      hsize']
  have hlands (hfits : FitsAlone memcpyS DEFAULT_BLOCK_SIZE cells) :
      Lands q s p (s.goToRow memcpyS p) := by
    refine hinv.goToRow fun _ _ _ b' hb' _ => ?_
    obtain rfl : b = b' := Option.some.inj (hblock.symm.trans hb')
    exact hexec.mpr hfits
  have hiff : (s.goToRow memcpyS p).1 = .ok () ↔ FitsAlone memcpyS DEFAULT_BLOCK_SIZE cells := by
    constructor
    · intro hok
      refine hexec.mp ?_
      rcases hres : executeForSharedBlock memcpyS s.stmt b.clear.2 (s.fillStart p) p with
        ⟨err | _, b', stmt'⟩
      · have hcount := hinv.count
        exact absurd hok (goToRow_of_fails hinv.opened hinv.noErr (by omega) (by omega) hblock hmiss
          hres).1
      · rfl
    · exact fun hfits => (hlands hfits).reached (by omega) (by omega) (by rw [hblock]; nofun)
  refine ⟨hiff, fun hok => ?_⟩
  have hl := hlands (hiff.mp hok)
  obtain ⟨_, _, hrowPos, hrow⟩ := hl.onRow hok
  exact ⟨hl.inv.toReady, hrowPos, hrow⟩

end SqliteSharedResultSet

/-- The two result sets read the same object at column `i` of row `p`; `value` is the one that the
caller passes. -/
def SameRead (memcpyS : Nat → Bool) (step : StepResultSet) (shared : SqliteSharedResultSet)
    (p i : Nat) (value : ValueObject) : Prop :=
  ∃ x, (step.goToRow p).1 = .ok () ∧ (step.goToRow p).2.get i = .ok x ∧
    (shared.goToRow memcpyS p).1 = .ok () ∧
    (shared.goToRow memcpyS p).2.getInto i value = .ok x

theorem StepResultSet.create_get (q : Query) (preCount isGotoNextRowReturnLastError : Bool)
    {p i : Nat} (hdecl : q.decls[i]? = some decl) (hcells : q.rows[p]? = some cells)
    (hv : cells[i]? = some v) :
    let s := create ⟨q, 0, none, []⟩ preCount isGotoNextRowReturnLastError
    (s.goToRow p).1 = .ok () ∧ (s.goToRow p).2.get i = Stmt.columnOf decl v := by
  intro s
  have hp : p < q.rows.length := (List.getElem?_eq_some_iff.mp hcells).1
  have hi : i < q.decls.length := (List.getElem?_eq_some_iff.mp hdecl).1
  have hcoh : s.Coherent q := (create_inv q preCount isGotoNextRowReturnLastError).coherent
  have hsafe : s.SafeTarget q.rows.length p := fun _ _ => by omega
  have hlands := hcoh.goToRow hsafe
  obtain ⟨hok, hpos⟩ := hlands.reached (by omega) (by omega)
  have hon := hlands.coherent.onRow hpos hp
  have hquery := hlands.coherent.query
  refine ⟨hok, ?_⟩
  rw [hlands.coherent.get_eq hon]
  obtain ⟨decl', v', hdecl', ⟨cells', hcells', hv'⟩, hget, _⟩ :=
    Stmt.getColumn_eq hon.row (by rw [hquery]; exact hp) (i := i) (by rw [hquery]; exact hi)
  rw [hquery] at hdecl' hcells'
  cases hdecl'.symm.trans hdecl
  cases hcells'.symm.trans hcells
  cases hv'.symm.trans hv
  exact hget

theorem SqliteValue.shown_eq_columnOf_iff (hne : v ≠ .blob []) :
    (∃ x, Stmt.columnOf decl v = .ok x ∧ (if v = .null then value else v.shown decl) = x) ↔
      v.Readable decl ∧ v.NulFree ∧ (v = .null → value = .null) := by
  by_cases hread : v.Readable decl
  · rw [Stmt.columnOf_eq_iff.mpr hread]
    by_cases hnull : v = .null
    · subst hnull
      simp [Readable, NulFree, object, eq_comm]
    · simp only [hnull, if_false, Except.ok.injEq, exists_eq_left', false_implies, and_true, hread,
        true_and]
      exact shown_eq_iff
  · refine ⟨?_, fun h => absurd h.1 hread⟩
    rintro ⟨x, hx, _⟩
    cases v with
    | blob bytes =>
      cases decl with
      | none => cases hx
      | some decl => exact absurd ⟨Option.some_ne_none decl, fun h => hne (congrArg _ h)⟩ hread
    | _ => exact absurd trivial hread

theorem sameRead_iff (memcpyS : Nat → Bool) (hmemcpy : ∀ size < 2 ^ 31, memcpyS size)
    (q : Query) (preCount isGotoNextRowReturnLastError isOnlyFillBlock : Bool)
    (hcols : q.decls.length ≤ colMaxNum) {p i : Nat} (hcells : q.rows[p]? = some cells)
    (hfits : 1048 + encodedSize cells ≤ DEFAULT_BLOCK_SIZE) (hdecl : q.decls[i]? = some decl)
    (hv : cells[i]? = some v) (value : ValueObject) :
    SameRead memcpyS (.create ⟨q, 0, none, []⟩ preCount isGotoNextRowReturnLastError)
      (.create ⟨q, 0, none, []⟩ true isOnlyFillBlock) p i value ↔
      (∀ w ∈ cells, w ≠ .blob []) ∧ v.Readable decl ∧ v.NulFree ∧ (v = .null → value = .null) := by
  have hp : p < q.rows.length := (List.getElem?_eq_some_iff.mp hcells).1
  obtain ⟨hgoStep, hgetStep⟩ :=
    StepResultSet.create_get q preCount isGotoNextRowReturnLastError hdecl hcells hv
  obtain ⟨hgo, hon⟩ := SqliteSharedResultSet.create_goToRow memcpyS q isOnlyFillBlock hcols
    hcells
  have hcopied : FitsAlone memcpyS DEFAULT_BLOCK_SIZE cells ↔ ∀ w ∈ cells, w ≠ .blob [] :=
    (and_iff_right hfits).trans (forall₂_congr fun w hw =>
      SqliteValue.copied_iff hmemcpy (q.size_lt cells (mem_of_getElem? hcells) w hw))
  rw [hcopied] at hgo
  generalize SqliteSharedResultSet.create ⟨q, 0, none, []⟩ true isOnlyFillBlock = shared at hgo hon
  -- what the shared result set writes, once it is on the row
  have hinto (hok : (shared.goToRow memcpyS p).1 = .ok ()) :
      (shared.goToRow memcpyS p).2.getInto i value =
        .ok (if v = .null then value else v.shown decl) := by
    obtain ⟨hready, hpos, hrow⟩ := hon hok
    rw [SqliteSharedResultSet.getInto, hready.get_eq hrow hpos hp hdecl hcells hv]
    cases v <;> rfl
  rw [SameRead, hgetStep]
  constructor
  · rintro ⟨x, _, hx, hok, hval⟩
    have hplain := hgo.mp hok
    rw [hinto hok] at hval
    exact ⟨hplain, (SqliteValue.shown_eq_columnOf_iff (hplain v (mem_of_getElem? hv))).mp
      ⟨x, hx, Except.ok.inj hval⟩⟩
  · rintro ⟨hplain, hsame⟩
    have hok := hgo.mpr hplain
    obtain ⟨x, hx, hval⟩ :=
      (SqliteValue.shown_eq_columnOf_iff (hplain v (mem_of_getElem? hv))).mpr hsame
    exact ⟨x, hgoStep, hx, hok, (hinto hok).trans (congrArg _ hval)⟩

theorem sameRead_iff_asset :
    let q : Query := ⟨[some "TEXT", some "ASSET"], [[.text [65], .blob [1, 2]]], by decide,
      by decide, by decide⟩
    let cells : List SqliteValue := [.text [65], .blob [1, 2]]
    1048 + encodedSize cells ≤ DEFAULT_BLOCK_SIZE ∧
      (SameRead secureMemcpy (.create ⟨q, 0, none, []⟩ true false)
        (.create ⟨q, 0, none, []⟩ true false) 0 1 (.integer 5) ↔
      (∀ w ∈ cells, w ≠ .blob []) ∧ (SqliteValue.blob [1, 2]).Readable (some "ASSET") ∧
        (SqliteValue.blob [1, 2]).NulFree ∧
        (SqliteValue.blob [1, 2] = .null → CellValue.integer 5 = .null)) := by
  intro q cells
  exact ⟨by decide, sameRead_iff secureMemcpy copies_secureMemcpy q true false false (by decide) rfl
    (by decide) rfl rfl _⟩

theorem not_sameRead :
    let step (q : Query) :=
      (StepResultSet.create ⟨q, 0, none, []⟩ true false).goToRow 0
    let shared (q : Query) :=
      (SqliteSharedResultSet.create ⟨q, 0, none, []⟩ true false).goToRow secureMemcpy 0
    let zeroByte : Query := ⟨[some "TEXT"], [[.text [65, 0, 66]]], by decide, by decide, by decide⟩
    let emptyBlob : Query := ⟨[some "BLOB"], [[.blob []]], by decide, by decide, by decide⟩
    let undeclared : Query := ⟨[none], [[.blob [7]]], by decide, by decide, by decide⟩
    let null : Query := ⟨[some "TEXT"], [[.null]], by decide, by decide, by decide⟩
    ((step zeroByte).2.get 0 = .ok (.string [65, 0, 66]) ∧
      (shared zeroByte).2.getInto 0 .null = .ok (.string [65])) ∧
    ((step emptyBlob).2.get 0 = .ok .null ∧ (shared emptyBlob).1 = .error .error) ∧
    ((step undeclared).2.get 0 = .error .error ∧
      (shared undeclared).2.getInto 0 .null = .ok (.bytes .blob [7])) ∧
    ((step null).2.get 0 = .ok .null ∧
      (shared null).2.getInto 0 (.integer 5) = .ok (.integer 5)) := by
  decide +kernel

end RelationalStore
