import RelationalStore.Rdb.ResultSet.SharedCursor
import RelationalStore.Rdb.ResultSet.StepCursor

/-! # The cached result set beside the other two

`CacheResultSet` holds its rows, and differs from the other two in its conventions. -/

namespace RelationalStore

structure CacheResultSet where
  row : Int
  maxRow : Int
  isClosed : Bool

namespace CacheResultSet

/-- The constructor; `initPos` is `0` where it is not given. -/
def create (rows : Nat) (initPos : Int) : CacheResultSet := ⟨initPos, rows, false⟩

def goToRow (s : CacheResultSet) (position : Int) : Except RdbError Unit × CacheResultSet :=
  if s.isClosed then (.error .alreadyClosed, s)
  else if position ≥ s.maxRow then (.error .rowOutRange, { s with row := s.maxRow })
  else if position < 0 then (.error .rowOutRange, { s with row := -1 })
  else (.ok (), { s with row := position })

def goTo (s : CacheResultSet) (offset : Int) : Except RdbError Unit × CacheResultSet :=
  s.goToRow (toInt32 (offset + s.row))

def nav (s : CacheResultSet) : Nav → Except RdbError Unit × CacheResultSet
  | .goToRow position => s.goToRow position.toInt
  | .goTo offset => s.goTo offset.toInt
  | .goToFirstRow => s.goToRow 0
  | .goToLastRow => s.goToRow (s.maxRow - 1)
  | .goToNextRow => s.goTo 1
  | .goToPreviousRow => s.goTo (-1)

def answer (s : CacheResultSet) (x : α) : Except RdbError α :=
  if s.isClosed then .error .alreadyClosed else .ok x

def getRowIndex (s : CacheResultSet) : Except RdbError Int := s.answer s.row

def isAtFirstRow (s : CacheResultSet) : Except RdbError Bool := s.answer (s.row = 0)

def isAtLastRow (s : CacheResultSet) : Except RdbError Bool := s.answer (s.row = s.maxRow - 1)

def isStarted (s : CacheResultSet) : Except RdbError Bool := s.answer (s.row = -1)

def isEnded (s : CacheResultSet) : Except RdbError Bool :=
  s.answer (s.maxRow = 0 ∨ s.row = s.maxRow)

end CacheResultSet

/-! ### Side by side -/

structure Observation where
  ok : Bool
  rowIndex : Except RdbError Int
  isStarted : Except RdbError Bool
  isEnded : Except RdbError Bool
  isAtFirstRow : Except RdbError Bool
  isAtLastRow : Except RdbError Bool

def CacheResultSet.observe (s : CacheResultSet) (ret : Except RdbError Unit) : Observation :=
  ⟨ret.isOk, s.getRowIndex, s.isStarted, s.isEnded, s.isAtFirstRow, s.isAtLastRow⟩

def StepResultSet.observe (s : StepResultSet) (ret : Except RdbError Unit) :
    Observation × StepResultSet :=
  (⟨ret.isOk, .ok s.rowPos, .ok s.isStarted, s.isEnded.1, .ok s.isEnded.2.isAtFirstRow,
      s.isEnded.2.isAtLastRow.1⟩,
    s.isEnded.2.isAtLastRow.2)

def SqliteSharedResultSet.observe (s : SqliteSharedResultSet) (ret : Except RdbError Unit) :
    Observation :=
  ⟨ret.isOk, .ok s.rowPos, .ok s.isStarted, s.isEnded, .ok s.isAtFirstRow, s.isAtLastRow⟩

structure ThreeSets where
  cache : CacheResultSet
  step : StepResultSet
  shared : SqliteSharedResultSet

structure Observations where
  cache : Observation
  step : Observation
  shared : Observation

def ThreeSets.nav (memcpyS : Nat → Bool) (s : ThreeSets) (c : Nav) : Observations × ThreeSets :=
  let cache := s.cache.nav c
  let step := s.step.nav c
  let shared := s.shared.nav memcpyS c
  (⟨cache.2.observe cache.1, (step.2.observe step.1).1, shared.2.observe shared.1⟩,
    ⟨cache.2, (step.2.observe step.1).2, shared.2⟩)

/-- The three give the same answers. -/
def Observations.Agree (o : Observations) : Prop := o.cache = o.step ∧ o.cache = o.shared

def ThreeSets.create (q : Query) (initPos : Int) (stepFaults sharedFaults : List (Option RdbError))
    (preCount isGotoNextRowReturnLastError ashmem isOnlyFillBlock : Bool) : ThreeSets :=
  ⟨.create q.rows.length initPos,
    .create ⟨q, 0, none, stepFaults⟩ preCount isGotoNextRowReturnLastError,
    .create ⟨q, 0, none, sharedFaults⟩ ashmem isOnlyFillBlock⟩

variable {s : ThreeSets} {q : Query} {memcpyS : Nat → Bool}

/-! ### No agreement on `IsStarted` -/

theorem CacheResultSet.nav_isClosed {s : CacheResultSet} : (s.nav c).2.isClosed = s.isClosed := by
  have hgo : ∀ position, (s.goToRow position).2.isClosed = s.isClosed := by
    intro position
    unfold goToRow
    repeat' split
    all_goals rfl
  cases c <;> exact hgo _

theorem ThreeSets.not_agree (hopen : s.cache.isClosed = false) : ¬ (s.nav memcpyS c).1.Agree := by
  rintro ⟨h, _⟩
  have hopen := (CacheResultSet.nav_isClosed (c := c)).trans hopen
  have hpos : (s.cache.nav c).2.getRowIndex = .ok (s.step.nav c).2.rowPos :=
    congrArg Observation.rowIndex h
  have hstarted : (s.cache.nav c).2.isStarted = .ok (s.step.nav c).2.isStarted :=
    congrArg Observation.isStarted h
  unfold CacheResultSet.getRowIndex CacheResultSet.answer at hpos
  unfold CacheResultSet.isStarted CacheResultSet.answer at hstarted
  rw [hopen] at hpos hstarted
  have hpos : (s.cache.nav c).2.row = (s.step.nav c).2.rowPos := Except.ok.inj hpos
  have hstarted := Except.ok.inj hstarted
  rw [hpos, StepResultSet.isStarted, decide_eq_decide] at hstarted
  exact not_iff_self hstarted.symm

/-- The three result sets agree call by call in the empty run only. -/
theorem agree_iff_nil (memcpyS : Nat → Bool) (q : Query) (initPos : Int)
    (stepFaults sharedFaults : List (Option RdbError))
    (preCount isGotoNextRowReturnLastError ashmem isOnlyFillBlock : Bool) (calls : List Nav) :
    (∀ t ∈ trace (ThreeSets.nav memcpyS) (.create q initPos stepFaults sharedFaults preCount
      isGotoNextRowReturnLastError ashmem isOnlyFillBlock) calls, t.ret.Agree) ↔ calls = [] := by
  constructor
  · intro h
    cases calls with
    | nil => rfl
    | cons c calls =>
      exact (ThreeSets.not_agree rfl (h _ List.mem_cons_self)).elim
  · rintro rfl t ht
    exact absurd ht List.not_mem_nil

theorem not_agree_on_isStarted :
    let q : Query := ⟨[some "INTEGER"], [[.integer 1]], by decide, by decide, by decide⟩
    let s := ThreeSets.create q 0 [] [] true false true false
    let first := (s.nav SharedBlock.secureMemcpy .goToFirstRow).1
    let back := (final (ThreeSets.nav SharedBlock.secureMemcpy) s [.goToFirstRow, .goToRow (-1)])
    let next := (s.nav SharedBlock.secureMemcpy .goToNextRow).1
    (¬ ∀ t ∈ trace (ThreeSets.nav SharedBlock.secureMemcpy) s [.goToFirstRow], t.ret.Agree) ∧
      (first.cache.rowIndex = .ok 0 ∧ first.step.rowIndex = .ok 0 ∧ first.shared.rowIndex = .ok 0) ∧
      (first.cache.isStarted = .ok false ∧ first.step.isStarted = .ok true ∧
        first.shared.isStarted = .ok true) ∧
      (back.cache.row = -1 ∧ back.step.rowPos = 0 ∧ back.shared.rowPos = 0) ∧
      (next.cache.ok = false ∧ next.step.ok ∧ next.shared.ok) := by
  refine ⟨fun h => ?_, by decide +kernel, by decide +kernel, by decide +kernel, by decide +kernel⟩
  have hstarted := congrArg Observation.isStarted (h _ List.mem_cons_self).1
  exact absurd hstarted (by decide +kernel)

end RelationalStore
