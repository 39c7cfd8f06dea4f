import RelationalStore.Rdb.ResultSet.Statement

/-! # Filling a shared block

`FillSharedBlock` copies the rows of a statement into a block until it is full or they are used up.
-/

namespace RelationalStore

inductive FillOneRowResult where
  | success
  | isFull
  deriving DecidableEq

structure SharedBlockInfo where
  sharedBlock : Option SharedBlock
  startPos : Nat
  addedRows : Nat
  requiredPos : Nat
  totalRows : Nat
  isCountAllRows : Bool
  columnNum : Nat
  isFull : Bool

section
variable (memcpyS : Nat → Bool)

def fillResult (res : BlockStatus × SharedBlock) : FillOneRowResult × SharedBlock :=
  if res.1 = .ok then (.success, res.2) else (.isFull, res.2)

variable (b : SharedBlock)

def fillOneRowOfString (addedRows pos : Nat) (bytes : List UInt8) :=
  fillResult (b.putString memcpyS addedRows pos (some fun i => bytes.getD i 0) (bytes.length + 1))

def fillOneRowOfLong (addedRows pos : Nat) (value : Int64) :=
  fillResult (b.putLong addedRows pos value)

def fillOneRowOfFloat (addedRows pos : Nat) (value : UInt64) :=
  fillResult (b.putDouble addedRows pos value)

def fillOneRowOfBlob (addedRows pos : Nat) (decl : Option String)
    (bytes : List UInt8) :=
  let blob : SharedBlock.Buffer := if bytes = [] then none else some fun i => bytes.getD i 0
  let action :=
    match decl.elim .blob blobType with
    | .asset => b.putAsset memcpyS
    | .assets => b.putAssets memcpyS
    | .floats => b.putFloats memcpyS
    | .bigint => b.putBigInt memcpyS
    | _ => b.putBlob memcpyS
  fillResult (action addedRows pos blob bytes.length)

def fillOneRowOfNull (addedRows pos : Nat) :=
  fillResult (b.putNull addedRows pos)

def fillColumn (addedRows pos : Nat) (decl : Option String) :
    SqliteValue → FillOneRowResult × SharedBlock
  | .text bytes => fillOneRowOfString memcpyS b addedRows pos bytes
  | .integer value => fillOneRowOfLong b addedRows pos value
  | .float bits => fillOneRowOfFloat b addedRows pos bits
  | .blob bytes => fillOneRowOfBlob memcpyS b addedRows pos decl bytes
  | .null => fillOneRowOfNull b addedRows pos

def fillColumns (addedRows : Nat) :
    Nat → List (Option String × SqliteValue) → SharedBlock → FillOneRowResult × SharedBlock
  | _, [], b => (.success, b)
  | pos, (decl, v) :: cells, b =>
    match fillColumn memcpyS b addedRows pos decl v with
    | (.isFull, b) => (.isFull, b)
    | (.success, b) => fillColumns addedRows (pos + 1) cells b

def fillOneRow (cells : List (Option String × SqliteValue)) (addedRows : Nat) :
    FillOneRowResult × SharedBlock :=
  match b.allocRow with
  | (.ok, b) =>
    match fillColumns memcpyS addedRows 0 cells b with
    | (.success, b) => (.success, b)
    | (.isFull, b) => (.isFull, b.freeLastRow.2)
  | (_, b) => (.isFull, b)

namespace SharedBlockInfo

variable (info : SharedBlockInfo)

def filled (res : FillOneRowResult × SharedBlock) : SharedBlockInfo :=
  match res with
  | (.success, b) => { info with sharedBlock := some b, addedRows := info.addedRows + 1 }
  | (.isFull, b) => { info with sharedBlock := some b, isFull := true }

def fillRow (b : SharedBlock)
    (cells : List (Option String × SqliteValue)) : SharedBlockInfo :=
  let res := fillOneRow memcpyS b cells info.addedRows
  if res.1 = .isFull ∧ info.addedRows ≠ 0 ∧ info.startPos + info.addedRows ≤ info.requiredPos then
    let b := (res.2.clear.2.setColumnNum info.columnNum).2
    let info := { info with startPos := info.startPos + info.addedRows, addedRows := 0 }
    info.filled (fillOneRow memcpyS b cells info.addedRows)
  else info.filled res

def defFillRow : SharedBlockInfo := { info with isFull := true }

def onRow (isFull : Bool) (info : SharedBlockInfo) (cells : List (Option String × SqliteValue)) :
    Bool × SharedBlockInfo :=
  let info := { info with totalRows := info.totalRows + 1 }
  if info.startPos ≥ info.totalRows ∨ isFull then (isFull, info)
  else
    let info :=
      match info.sharedBlock with
      | none => info.defFillRow
      | some b => info.fillRow memcpyS b cells
    (info.isFull, info)

end SharedBlockInfo

def Stmt.cells (s : Stmt) : List (Option String × SqliteValue) :=
  s.query.decls.zip (s.row.getD [])

def fillLoop (retryTime : Nat) :
    Nat → Nat → Bool → SharedBlockInfo → Stmt → Except RdbError Unit × SharedBlockInfo × Stmt
  | 0, _, _, info, stmt => (.error .error, info, stmt)
  | fuel + 1, retryCount, isFull, info, stmt =>
    if isFull ∧ info.isCountAllRows = false then (.ok (), info, stmt)
    else
      match stmt.step with
      | (.row, stmt) =>
        let res := info.onRow memcpyS isFull stmt.cells
        fillLoop retryTime fuel 0 res.1 res.2 stmt
      | (.done, stmt) => (.ok (), info, stmt)
      | (.error err, stmt) =>
        if err = .sqliteBusy ∨ err = .sqliteLocked then
          if retryCount ≥ retryTime then (.error .databaseBusy, info, stmt)
          else fillLoop retryTime fuel (retryCount + 1) isFull info stmt
        else (.error err, info, stmt)

def Stmt.ahead (s : Stmt) : Nat := s.query.rows.length - s.next + s.faults.length

def fillSharedBlock (info : SharedBlockInfo) (stmt : Stmt) (retryTime : Nat) :
    Except RdbError Unit × SharedBlockInfo × Stmt :=
  fillLoop memcpyS retryTime (stmt.ahead + 1) 0 false
    { info with totalRows := 0, addedRows := 0 } stmt

def RETRY_TIME : Nat := 50

def Stmt.fillBlockInfo (stmt : Stmt) (info : SharedBlockInfo) :
    Except RdbError Unit × SharedBlockInfo × Stmt :=
  match fillSharedBlock memcpyS info stmt RETRY_TIME with
  | (.error err, info, stmt) => (.error err, info, stmt)
  | (.ok (), info, stmt) =>
    if info.isFull ∧ info.totalRows > 0 ∧ info.addedRows = 0 ∧
        info.sharedBlock.isSome then
      (.error .error, info, stmt.reset)
    else (.ok (), info, stmt.reset)

end

def Stmt.count (stmt : Stmt) : Except RdbError Nat × Stmt :=
  match stmt.fillBlockInfo (fun _ => true) ⟨none, 0, 0, 0, 0, true, 0, true⟩ with
  | (.error err, _, stmt) => (.error err, stmt)
  | (.ok (), info, stmt) => (.ok info.totalRows, stmt)

/-! ### One row -/

namespace SharedBlockInfo

theorem fillRow_cases (memcpyS : Nat → Bool) (info : SharedBlockInfo) (b : SharedBlock)
    (cells : List (Option String × SqliteValue)) :
    (∃ b', fillOneRow memcpyS b cells info.addedRows = (.success, b') ∧
      info.fillRow memcpyS b cells =
        { info with sharedBlock := some b', addedRows := info.addedRows + 1 }) ∨
    (∃ b', fillOneRow memcpyS b cells info.addedRows = (.isFull, b') ∧
      (info.addedRows = 0 ∨ info.requiredPos < info.startPos + info.addedRows) ∧
      info.fillRow memcpyS b cells = { info with sharedBlock := some b', isFull := true }) ∨
    ∃ b', fillOneRow memcpyS b cells info.addedRows = (.isFull, b') ∧
      (info.addedRows ≠ 0 ∧ info.startPos + info.addedRows ≤ info.requiredPos) ∧
      info.fillRow memcpyS b cells =
        { info with startPos := info.startPos + info.addedRows, addedRows := 0 }.filled
          (fillOneRow memcpyS (b'.clear.2.setColumnNum info.columnNum).2 cells 0) := by
  unfold fillRow
  generalize fillOneRow memcpyS b cells info.addedRows = res
  obtain ⟨st, b'⟩ := res
  cases st with
  | success => exact .inl ⟨b', rfl, if_neg fun h => nomatch h.1⟩
  | isFull =>
    by_cases hrestart : info.addedRows ≠ 0 ∧ info.startPos + info.addedRows ≤ info.requiredPos
    · exact .inr (.inr ⟨b', rfl, hrestart, if_pos ⟨rfl, hrestart⟩⟩)
    · exact .inr (.inl ⟨b', rfl, by omega, if_neg fun h => hrestart h.2⟩)

theorem onRow_cases (memcpyS : Nat → Bool) (isFull : Bool) (info : SharedBlockInfo)
    (cells : List (Option String × SqliteValue)) :
    ((info.totalRows < info.startPos ∨ isFull) ∧
      info.onRow memcpyS isFull cells = (isFull, { info with totalRows := info.totalRows + 1 })) ∨
    info.startPos ≤ info.totalRows ∧ isFull = false ∧ ∀ b, info.sharedBlock = some b →
      (∃ b', fillOneRow memcpyS b cells info.addedRows = (.success, b') ∧
        info.onRow memcpyS isFull cells =
          (info.isFull, { info with
            totalRows := info.totalRows + 1, sharedBlock := some b'
            addedRows := info.addedRows + 1 })) ∨
      (∃ b', fillOneRow memcpyS b cells info.addedRows = (.isFull, b') ∧
        (info.addedRows = 0 ∨ info.requiredPos < info.startPos + info.addedRows) ∧
        info.onRow memcpyS isFull cells =
          (true, { info with
            totalRows := info.totalRows + 1, sharedBlock := some b', isFull := true })) ∨
      ∃ b' info', fillOneRow memcpyS b cells info.addedRows = (.isFull, b') ∧
        (info.addedRows ≠ 0 ∧ info.startPos + info.addedRows ≤ info.requiredPos) ∧
        info' = { info with
          totalRows := info.totalRows + 1, startPos := info.startPos + info.addedRows
          addedRows := 0 }.filled
            (fillOneRow memcpyS (b'.clear.2.setColumnNum info.columnNum).2 cells 0) ∧
        info.onRow memcpyS isFull cells = (info'.isFull, info') := by
  by_cases hskip : info.totalRows + 1 ≤ info.startPos ∨ isFull
  · exact .inl ⟨hskip, if_pos hskip⟩
  have hnot : isFull = false := Bool.eq_false_of_not_eq_true fun hfull => hskip (.inr hfull)
  refine .inr ⟨by omega, hnot, fun b hb => ?_⟩
  have hrow : info.onRow memcpyS isFull cells =
      (({ info with totalRows := info.totalRows + 1 }.fillRow memcpyS b cells).isFull,
        { info with totalRows := info.totalRows + 1 }.fillRow memcpyS b cells) := by
    unfold onRow
    dsimp only
    rw [if_neg hskip]
    split
    next hnone => exact nomatch hnone.symm.trans hb
    next b' hb' =>
      cases hb'.symm.trans hb
      rfl
  rw [hrow]
  rcases fillRow_cases memcpyS { info with totalRows := info.totalRows + 1 } b cells with
    ⟨b', hres, heq⟩ | ⟨b', hres, hcovers, heq⟩ | ⟨b', hres, hrestart, heq⟩
  · exact .inl ⟨b', hres, by rw [heq]⟩
  · exact .inr (.inl ⟨b', hres, hcovers, by rw [heq]⟩)
  · exact .inr (.inr ⟨b', _, hres, hrestart, heq, rfl⟩)

end SharedBlockInfo

/-! ### The loop -/

section
variable {memcpyS : Nat → Bool} {q : Query} {stmt stmt' : Stmt}

theorem Stmt.step_cases (stmt : Stmt) :
    (∃ cells faults, stmt.query.rows[stmt.next]? = some cells ∧
      stmt.step = (.row, ⟨stmt.query, stmt.next + 1, some cells, faults⟩) ∧
      faults.length ≤ stmt.faults.length) ∨
    (∃ faults, stmt.query.rows.length ≤ stmt.next ∧
      stmt.step = (.done, ⟨stmt.query, 0, none, faults⟩) ∧
      faults.length ≤ stmt.faults.length) ∨
    ∃ err faults, stmt.faults.length = faults.length + 1 ∧
      stmt.step = (.error err, ⟨stmt.query,
        if err = .sqliteBusy ∨ err = .sqliteLocked then stmt.next else 0, none, faults⟩) := by
  by_cases hfault : ∃ err faults, stmt.faults = some err :: faults
  · obtain ⟨err, faults, hf⟩ := hfault
    refine .inr (.inr ⟨err, faults, congrArg List.length hf, ?_⟩)
    simp only [step, hf]
    split <;> rfl
  · obtain ⟨faults, hle, hstep⟩ : ∃ faults, faults.length ≤ stmt.faults.length ∧
        stmt.step = { stmt with faults := faults }.deliver := by
      match hf : stmt.faults with
      | [] => exact ⟨[], Nat.le_refl _, by cases stmt; cases hf; rfl⟩
      | none :: faults => exact ⟨faults, Nat.le_succ _, by rw [step, hf]⟩
      | some err :: faults => exact absurd ⟨err, faults, hf⟩ hfault
    rw [hstep]
    cases hrow : stmt.query.rows[stmt.next]? with
    | some cells => exact .inl ⟨cells, faults, rfl, by simp only [deliver, hrow], hle⟩
    | none =>
      exact .inr (.inl ⟨faults, List.getElem?_eq_none_iff.mp hrow, by simp only [deliver, hrow],
        hle⟩)

section
variable {J : Bool → SharedBlockInfo → Nat → Prop} {isFull : Bool} {info info' : SharedBlockInfo}
  (memcpyS) (retryTime fuel retryCount : Nat)
  (hrow : ∀ isFull info p cells, J isFull info p → q.rows[p]? = some cells →
    (isFull → info.isCountAllRows) → J (info.onRow memcpyS isFull (q.decls.zip cells)).1
      (info.onRow memcpyS isFull (q.decls.zip cells)).2 (p + 1))
  (hJ : J isFull info stmt.next) (hq : stmt.query = q)
include hrow hJ hq

theorem fillLoop_invariant :
    ∃ isFull' p, J isFull' (fillLoop memcpyS retryTime fuel retryCount isFull info stmt).2.1 p ∧
      (fillLoop memcpyS retryTime fuel retryCount isFull info stmt).2.2.query = q ∧
      ((fillLoop memcpyS retryTime fuel retryCount isFull info stmt).1 = .ok () →
        (isFull' ∧ (fillLoop memcpyS retryTime fuel retryCount isFull info
          stmt).2.1.isCountAllRows = false) ∨ q.rows.length ≤ p) := by
  induction fuel generalizing retryCount isFull info stmt with
  | zero => exact ⟨isFull, _, hJ, hq, nofun⟩
  | succ fuel ih =>
    rw [fillLoop]
    split
    next hfull => exact ⟨isFull, _, hJ, hq, fun _ => .inl hfull⟩
    rename_i hfull
    rcases stmt.step_cases with ⟨cells, faults, hcells, hstep, _⟩ | ⟨faults, hend, hstep, _⟩ |
      ⟨err, faults, _, hstep⟩
    · rw [hstep]
      subst hq
      generalize hs : (⟨stmt.query, stmt.next + 1, some cells, faults⟩ : Stmt) = s
      refine ih 0 (hs ▸ hrow isFull info stmt.next cells hJ hcells fun h => ?_) (hs ▸ rfl)
      cases hc : info.isCountAllRows with
      | false => exact absurd ⟨h, hc⟩ hfull
      | true => rfl
    · rw [hstep]
      exact ⟨isFull, _, hJ, hq, fun _ => .inr (hq ▸ hend)⟩
    · rw [hstep]
      dsimp only
      split
      · split
        · exact ⟨isFull, _, hJ, hq, nofun⟩
        · exact ih (retryCount + 1) hJ hq
      · exact ⟨isFull, _, hJ, hq, nofun⟩

variable {memcpyS retryTime fuel retryCount}

theorem fillLoop_rule
    (hok : fillLoop memcpyS retryTime fuel retryCount isFull info stmt = (.ok (), info', stmt')) :
    ∃ isFull' p, J isFull' info' p ∧ stmt'.query = q ∧
      ((isFull' ∧ info'.isCountAllRows = false) ∨ q.rows.length ≤ p) := by
  obtain ⟨isFull', p, hJ', hq', hend⟩ := fillLoop_invariant memcpyS retryTime fuel retryCount hrow
    hJ hq
  rw [hok] at hJ' hq' hend
  exact ⟨isFull', p, hJ', hq', hend rfl⟩

end

theorem fillLoop_ok (hfaults : stmt.faults = []) (h : stmt.ahead < fuel) :
    ∃ info' stmt', fillLoop memcpyS retryTime fuel retryCount isFull info stmt =
      (.ok (), info', stmt') ∧ stmt'.faults = [] := by
  induction fuel generalizing retryCount isFull info stmt with
  | zero => exact absurd h (Nat.not_lt_zero _)
  | succ fuel ih =>
    rw [fillLoop]
    split
    · exact ⟨_, _, rfl, hfaults⟩
    rcases stmt.step_cases with ⟨cells, faults, hcells, hstep, hle⟩ | ⟨faults, _, hstep, hle⟩ |
      ⟨err, faults, hlen, hstep⟩
    · rw [hstep]
      have hlt := (List.getElem?_eq_some_iff.mp hcells).1
      have hnil : faults = [] := by simpa [hfaults] using hle
      refine ih hnil ?_
      unfold Stmt.ahead at h ⊢
      simp only [hfaults, hnil] at h ⊢
      omega
    · rw [hstep]
      exact ⟨_, _, rfl, by simpa [hfaults] using hle⟩
    · rw [hfaults] at hlen
      exact nomatch hlen

theorem Stmt.fillBlockInfo_snd (memcpyS : Nat → Bool) (stmt : Stmt) (info : SharedBlockInfo) :
    (stmt.fillBlockInfo memcpyS info).2.1 = (fillSharedBlock memcpyS info stmt RETRY_TIME).2.1 ∧
      ((stmt.fillBlockInfo memcpyS info).2.2 =
        (fillSharedBlock memcpyS info stmt RETRY_TIME).2.2 ∨
      (stmt.fillBlockInfo memcpyS info).2.2 =
        (fillSharedBlock memcpyS info stmt RETRY_TIME).2.2.reset) := by
  unfold fillBlockInfo
  generalize fillSharedBlock memcpyS info stmt RETRY_TIME = res
  obtain ⟨ret, info', stmt'⟩ := res
  cases ret with
  | error err => exact ⟨rfl, .inl rfl⟩
  | ok =>
    dsimp only
    split <;> exact ⟨rfl, .inr rfl⟩

theorem Stmt.fillBlockInfo_cases (memcpyS : Nat → Bool) (info : SharedBlockInfo) :
    (∃ err res, stmt.fillBlockInfo memcpyS info = (.error err, res)) ∨
      ∃ info' stmt', fillSharedBlock memcpyS info stmt RETRY_TIME = (.ok (), info', stmt') ∧
        stmt.fillBlockInfo memcpyS info = (.ok (), info', stmt'.reset) ∧
        ¬ (info'.isFull ∧ info'.totalRows > 0 ∧ info'.addedRows = 0 ∧
          info'.sharedBlock.isSome) := by
  unfold fillBlockInfo
  match hfill : fillSharedBlock memcpyS info stmt RETRY_TIME with
  | (.error err, info', stmt') => exact .inl ⟨err, _, rfl⟩
  | (.ok (), info', stmt') =>
    dsimp only
    split
    · exact .inl ⟨.error, _, rfl⟩
    · exact .inr ⟨info', stmt', rfl, rfl, ‹_›⟩

def Counting (_ : Bool) (info : SharedBlockInfo) (p : Nat) : Prop :=
  info.sharedBlock = none ∧ info.isCountAllRows ∧ info.totalRows = p

theorem Counting.onRow (h : Counting isFull info p) :
    Counting (info.onRow memcpyS isFull cells).1 (info.onRow memcpyS isFull cells).2 (p + 1) := by
  obtain ⟨hblock, hall, htotal⟩ := h
  unfold SharedBlockInfo.onRow
  dsimp only
  split
  · exact ⟨hblock, hall, congrArg (· + 1) htotal⟩
  · rw [hblock]
    exact ⟨rfl, hall, congrArg (· + 1) htotal⟩

theorem fillSharedBlock_count (hnext : stmt.next = 0)
    (h : fillSharedBlock memcpyS ⟨none, 0, 0, 0, 0, true, 0, true⟩ stmt retryTime =
      (.ok (), info, stmt')) :
    info.sharedBlock = none ∧ info.totalRows = stmt.query.rows.length ∧
      stmt'.query = stmt.query := by
  obtain ⟨isFull, p, ⟨⟨hblock, hall, htotal⟩, hp⟩, hq, hend⟩ :=
    fillLoop_rule (J := fun isFull info p => Counting isFull info p ∧ p ≤ stmt.query.rows.length)
      (fun _ _ _ _ hJ hrow _ => ⟨hJ.1.onRow, (List.getElem?_eq_some_iff.mp hrow).1⟩)
      ⟨⟨rfl, rfl, hnext.symm⟩, by omega⟩ rfl h
  refine ⟨hblock, ?_, hq⟩
  rcases hend with ⟨_, hnot⟩ | hend
  · rw [hall] at hnot
    exact nomatch hnot
  · omega

theorem Stmt.count_ok (hnext : stmt.next = 0) (h : stmt.count = (.ok c, stmt')) :
    c = stmt.query.rows.length ∧ ∃ s : Stmt, stmt' = s.reset ∧ s.query = stmt.query := by
  unfold count at h
  rcases stmt.fillBlockInfo_cases (fun _ => true) ⟨none, 0, 0, 0, 0, true, 0, true⟩ with
    ⟨err, res, herr⟩ | ⟨info, s, hfill, hok, _⟩
  · rw [herr] at h
    exact nomatch h
  · rw [hok] at h
    cases h
    obtain ⟨_, htotal, hq⟩ := fillSharedBlock_count hnext hfill
    exact ⟨htotal, s, rfl, hq⟩

theorem Stmt.count_faultless (hnext : stmt.next = 0) (hfaults : stmt.faults = []) :
    stmt.count = (.ok stmt.query.rows.length, stmt.reset) := by
  obtain ⟨info, s, hfill, hs⟩ :
      ∃ info s, fillSharedBlock (fun _ => true) ⟨none, 0, 0, 0, 0, true, 0, true⟩ stmt RETRY_TIME =
        (.ok (), info, s) ∧ s.faults = [] :=
    fillLoop_ok hfaults (Nat.lt_succ_self _)
  obtain ⟨hblock, htotal, hq⟩ := fillSharedBlock_count hnext hfill
  simp only [count, fillBlockInfo, hfill, hblock, Option.isSome_none, Bool.false_eq_true, and_false,
    if_false, htotal, reset, hq, hs, hfaults]

end

end RelationalStore
