import RelationalStore.Rdb.Replica.Basic

/-! # Backup or restore

The tables and indexes of the two databases are counted; a count that fails is taken to be 0. -/

namespace RelationalStore

inductive ExchangeStrategy where
  | notHandle
  | backup
  | restore
  | pendingBackup
  deriving DecidableEq, Repr

def isCorrupt : Except RdbError Nat → Bool
  | .error err => err = .sqliteCorrupt
  | .ok _ => false

def count : Except RdbError Nat → Nat
  | .error _ => 0
  | .ok n => n

structure CountRound where
  slaveTables : Except RdbError Nat
  slaveIndexes : Except RdbError Nat
  mainTables : Except RdbError Nat
  mainIndexes : Except RdbError Nat

structure StrategyCall where
  isOpen : Bool
  status : SlaveStatus
  isReplay : Bool
  isSlaveInvalid : Bool
  isUseAsyncRestore : Bool
  first : CountRound
  second : CountRound

namespace CountRound

def mainCorrupt (q : CountRound) : Bool := isCorrupt q.mainTables || isCorrupt q.mainIndexes

end CountRound

def compareInTrigger (q : CountRound) (replay : ExchangeStrategy) : ExchangeStrategy :=
  if isCorrupt q.slaveTables then .notHandle
  else if q.mainCorrupt then .restore
  else if count q.mainTables ≠ 0 then .notHandle
  else if count q.slaveTables > 0 then .restore
  else replay

namespace StrategyCall
variable (cfg : ReplicaConfig) (c : StrategyCall)

def exchangeCompareInTrigger : ExchangeStrategy :=
  -- the call after the replay does not replay again
  compareInTrigger c.first
    (if cfg.isSupportBinlog then compareInTrigger c.second .notHandle else .notHandle)

def exchangeCompareWithMainEmpty : ExchangeStrategy :=
  if !isCorrupt c.first.slaveTables && count c.first.slaveTables > 0 then .restore
  else if c.isReplay then .notHandle
  else if cfg.isSupportBinlog && !c.isUseAsyncRestore then
    if !isCorrupt c.second.slaveTables && count c.second.mainTables = 0 &&
        count c.second.slaveTables > 0 then .restore
    else .notHandle
  else .notHandle

def compareWithSlave : ExchangeStrategy :=
  if isCorrupt c.first.slaveTables || isCorrupt c.first.slaveIndexes then .backup
  else if count c.first.mainTables = count c.first.slaveTables &&
      count c.first.mainIndexes = count c.first.slaveIndexes && !c.isSlaveInvalid then .notHandle
  else .backup

def generateExchangeStrategy : ExchangeStrategy :=
  if !c.isOpen || cfg.haMode = .single || c.status = .backingUp then .notHandle
  else if cfg.haMode = .manualTrigger then c.exchangeCompareInTrigger cfg
  else if c.status = .dbClosing then .notHandle
  else if c.first.mainCorrupt then .restore
  else if c.status = .backupInterrupt then .backup
  else if count c.first.mainTables = 0 then c.exchangeCompareWithMainEmpty cfg
  else if cfg.isSupportBinlog && !c.isReplay then .pendingBackup
  else c.compareWithSlave

end StrategyCall

/-! ## What an answer rests on -/

namespace CountRound
variable (q : CountRound)

def Justifies : Prop :=
  q.mainCorrupt ∨ q.mainTables = .ok 0 ∧ ∃ n, q.slaveTables = .ok n ∧ 0 < n

/-- The tables of the main database could not be counted, though it is not corrupt, and the slave
has tables. -/
def Misleads : Prop :=
  q.mainCorrupt = false ∧ (∃ err, q.mainTables = .error err) ∧ ∃ n, q.slaveTables = .ok n ∧ 0 < n

def isInconclusive : Bool :=
  !q.mainCorrupt && count q.mainTables = 0 && count q.slaveTables = 0

end CountRound

namespace StrategyCall
variable (cfg : ReplicaConfig) (c : StrategyCall)

/-- The two databases are compared. -/
def Compares : Prop :=
  c.isOpen ∧ cfg.haMode ≠ .single ∧ c.status ≠ .backingUp ∧
    (cfg.haMode ≠ .manualTrigger → c.status ≠ .dbClosing ∧ c.status ≠ .backupInterrupt)

/-- The binlog is replayed and the queries are made again. -/
def AsksAgain : Prop :=
  c.first.isInconclusive ∧ cfg.isSupportBinlog ∧
    if cfg.haMode = .manualTrigger then isCorrupt c.first.slaveTables = false
    else c.isReplay = false ∧ c.isUseAsyncRestore = false

def again : CountRound :=
  if cfg.haMode = .manualTrigger then c.second else { c.second with mainIndexes := .ok 0 }

/-- Some round of answers justifies a restore. -/
def Justified : Prop := c.first.Justifies ∨ c.AsksAgain cfg ∧ (c.again cfg).Justifies

end StrategyCall

theorem count_pos_iff : 0 < count r ↔ ∃ n, r = .ok n ∧ 0 < n := by
  cases r <;> simp [count]

theorem isCorrupt_of_count_pos (h : 0 < count r) : isCorrupt r = false := by
  obtain ⟨n, rfl, -⟩ := count_pos_iff.mp h
  rfl

namespace CountRound
variable {q : CountRound}

theorem Misleads.counts (h : q.Misleads) :
    q.mainCorrupt = false ∧ count q.mainTables = 0 ∧ 0 < count q.slaveTables := by
  obtain ⟨hmain, ⟨err, herr⟩, hslave⟩ := h
  exact ⟨hmain, by simp [herr, count], count_pos_iff.mpr hslave⟩

theorem Misleads.not_justifies (h : q.Misleads) : ¬ q.Justifies := by
  rintro (hmain | ⟨hzero, -⟩)
  · simp [h.1] at hmain
  · obtain ⟨-, ⟨err, herr⟩, -⟩ := h
    simp [herr] at hzero

theorem justifies_or_misleads (hmain : count q.mainTables = 0) (hslave : 0 < count q.slaveTables) :
    q.Justifies ∨ q.Misleads := by
  cases hcorrupt : q.mainCorrupt with
  | true => exact .inl (.inl hcorrupt)
  | false =>
    cases htables : q.mainTables with
    | error err => exact .inr ⟨hcorrupt, ⟨err, htables⟩, count_pos_iff.mp hslave⟩
    | ok n =>
      have hn : n = 0 := by simpa [htables, count] using hmain
      exact .inl (.inr ⟨by rw [htables, hn], count_pos_iff.mp hslave⟩)

theorem not_justifies_of_isInconclusive (h : q.isInconclusive) : ¬ q.Justifies := by
  simp only [isInconclusive, Bool.and_eq_true, Bool.not_eq_true', decide_eq_true_eq] at h
  rintro (hmain | ⟨-, hslave⟩)
  · simp [h.1.1] at hmain
  · exact absurd (count_pos_iff.mpr hslave) (by simp [h.2])

end CountRound

theorem compareInTrigger_eq_restore :
    compareInTrigger q replay = .restore ↔ isCorrupt q.slaveTables = false ∧
      (q.mainCorrupt ∨ count q.mainTables = 0 ∧ 0 < count q.slaveTables ∨
        q.isInconclusive ∧ replay = .restore) := by
  unfold compareInTrigger CountRound.isInconclusive
  cases isCorrupt q.slaveTables with
  | true => simp
  | false =>
    cases q.mainCorrupt with
    | true => simp
    | false =>
      cases count q.mainTables with
      | succ n => simp
      | zero => cases count q.slaveTables <;> simp

namespace StrategyCall
variable {cfg : ReplicaConfig} {c : StrategyCall}

theorem generateExchangeStrategy_eq_restore (h : c.Compares cfg) :
    c.generateExchangeStrategy cfg = .restore ↔
      (cfg.haMode = .manualTrigger → isCorrupt c.first.slaveTables = false) ∧
      (c.first.mainCorrupt ∨
        count c.first.mainTables = 0 ∧ 0 < count c.first.slaveTables ∨
        c.AsksAgain cfg ∧
          (count (c.again cfg).mainTables = 0 ∧ 0 < count (c.again cfg).slaveTables ∨
            cfg.haMode = .manualTrigger ∧ isCorrupt c.second.slaveTables = false ∧
              c.second.mainCorrupt)) := by
  obtain ⟨hopen, hmode, hstatus, hidle⟩ := h
  unfold generateExchangeStrategy AsksAgain again
  simp only [hopen, hmode, hstatus, Bool.not_true, decide_false, Bool.or_self, Bool.false_eq_true,
    ↓reduceIte]
  by_cases htrigger : cfg.haMode = .manualTrigger
  · have hslave : 0 < count c.second.slaveTables → isCorrupt c.second.slaveTables = false :=
      isCorrupt_of_count_pos
    simp only [htrigger, ↓reduceIte, exchangeCompareInTrigger, compareInTrigger_eq_restore]
    cases cfg.isSupportBinlog with
    | false => simp
    | true =>
      simp only [↓reduceIte, compareInTrigger_eq_restore]
      grind
  · obtain ⟨hclosing, hinterrupt⟩ := hidle htrigger
    have hslave : 0 < count c.first.slaveTables → isCorrupt c.first.slaveTables = false :=
      isCorrupt_of_count_pos
    have hslave' : 0 < count c.second.slaveTables → isCorrupt c.second.slaveTables = false :=
      isCorrupt_of_count_pos
    simp only [htrigger, hclosing, hinterrupt, ↓reduceIte, CountRound.isInconclusive]
    unfold exchangeCompareWithMainEmpty compareWithSlave
    grind

theorem justifies_of_not_compares (h : ¬ c.Compares cfg)
    (hrestore : c.generateExchangeStrategy cfg = .restore) : c.first.Justifies := by
  unfold generateExchangeStrategy at hrestore
  split at hrestore
  · cases hrestore
  next hgate =>
    simp only [Bool.or_eq_true, Bool.not_eq_true', decide_eq_true_eq, not_or,
      Bool.not_eq_false] at hgate
    split at hrestore
    next htrigger => exact absurd ⟨hgate.1.1, hgate.1.2, hgate.2, absurd htrigger⟩ h
    next htrigger =>
      split at hrestore
      · cases hrestore
      next hclosing =>
        split at hrestore
        next hcorrupt => exact .inl hcorrupt
        next hcorrupt =>
          split at hrestore
          · cases hrestore
          next hinterrupt =>
            exact absurd ⟨hgate.1.1, hgate.1.2, hgate.2, fun _ => ⟨hclosing, hinterrupt⟩⟩ h

theorem restore_justified_iff (cfg : ReplicaConfig) (c : StrategyCall) :
    (c.generateExchangeStrategy cfg = .restore → c.Justified cfg) ↔
      (c.Compares cfg → ¬ c.first.Misleads ∧ (c.AsksAgain cfg → ¬ (c.again cfg).Misleads)) := by
  constructor
  · intro hjust hcompares
    have hanswer := generateExchangeStrategy_eq_restore hcompares
    refine ⟨fun hfirst => ?_, fun hagain hsecond => ?_⟩
    · -- a first round that misleads leads to a restore, and to no second round
      obtain ⟨-, hmain, hslave⟩ := hfirst.counts
      have hrestore := hanswer.mpr
        ⟨fun _ => isCorrupt_of_count_pos hslave, .inr (.inl ⟨hmain, hslave⟩)⟩
      rcases hjust hrestore with hj | ⟨⟨hnothing, -⟩, -⟩
      · exact hfirst.not_justifies hj
      · simp [CountRound.isInconclusive, Nat.ne_of_gt hslave] at hnothing
    · obtain ⟨-, hmain, hslave⟩ := hsecond.counts
      have hrestore := hanswer.mpr
        ⟨fun htrigger => by simpa [htrigger] using hagain.2.2,
          .inr (.inr ⟨hagain, .inl ⟨hmain, hslave⟩⟩)⟩
      rcases hjust hrestore with hj | ⟨-, hj⟩
      · exact CountRound.not_justifies_of_isInconclusive hagain.1 hj
      · exact hsecond.not_justifies hj
  · intro hsafe hrestore
    by_cases hcompares : c.Compares cfg
    · obtain ⟨hfirst, hsecond⟩ := hsafe hcompares
      obtain ⟨-, hcorrupt | ⟨hmain, hslave⟩ | ⟨hagain, hround⟩⟩ :=
        (generateExchangeStrategy_eq_restore hcompares).mp hrestore
      · exact .inl (.inl hcorrupt)
      · exact .inl ((CountRound.justifies_or_misleads hmain hslave).resolve_right hfirst)
      · refine .inr ⟨hagain, ?_⟩
        rcases hround with ⟨hmain, hslave⟩ | ⟨htrigger, -, hcorrupt⟩
        · exact (CountRound.justifies_or_misleads hmain hslave).resolve_right (hsecond hagain)
        · exact .inl (by simpa [again, htrigger] using hcorrupt)
    · exact .inl (justifies_of_not_compares hcompares hrestore)

theorem not_justified_of_locked :
    generateExchangeStrategy ⟨.mainReplica, false, false⟩
        ⟨true, .undefined, false, false, false,
          ⟨.ok 5, .ok 0, .error .sqliteLocked, .error .sqliteLocked⟩,
          ⟨.ok 5, .ok 0, .ok 5, .ok 0⟩⟩ = .restore ∧
      ¬ Justified ⟨.mainReplica, false, false⟩
        ⟨true, .undefined, false, false, false,
          ⟨.ok 5, .ok 0, .error .sqliteLocked, .error .sqliteLocked⟩,
          ⟨.ok 5, .ok 0, .ok 5, .ok 0⟩⟩ := by
  refine ⟨rfl, ?_⟩
  rintro ((hcorrupt | ⟨hzero, -⟩) | ⟨⟨hnothing, -⟩, -⟩)
  · cases hcorrupt
  · cases hzero
  · cases hnothing

end StrategyCall

end RelationalStore
