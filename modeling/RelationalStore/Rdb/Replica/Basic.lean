import RelationalStore.Rdb.Errno

/-! # Main and slave

One of two databases is copied over the other with SQLite's backup API. -/

namespace RelationalStore

inductive HAMode where
  | single
  | mainReplica
  | manualTrigger
  deriving DecidableEq, Repr

inductive SlaveStatus where
  | undefined
  | backingUp
  | backupInterrupt
  | backupFinished
  | dbClosing
  deriving DecidableEq, Repr

structure ReplicaConfig where
  haMode : HAMode
  isSearchable : Bool
  isSupportBinlog : Bool
  deriving DecidableEq, Repr

def ReplicaConfig.isRowForSearch (cfg : ReplicaConfig) : Bool :=
  cfg.haMode = .manualTrigger && cfg.isSearchable

inductive Side where
  | main
  | slave
  deriving DecidableEq, Repr

inductive ReplicaEvent (D : Type) where
  | copied (contents : Option D)
  | setSlaveValid
  deriving DecidableEq, Repr

structure ReplicaStore (D : Type) where
  main : Option D
  slave : Option D
  connected : Bool
  isTemp : Bool
  invalid : Bool
  interrupted : Bool
  status : SlaveStatus
  log : List (ReplicaEvent D)
  deriving DecidableEq, Repr

inductive SlaveSignal where
  | interrupt
  | closing
  deriving DecidableEq, Repr

structure BackupStep (D : Type) where
  signal : Option SlaveSignal
  writes : Option D
  rc : Int
  pageCount : Nat
  deriving DecidableEq, Repr

structure BackupRun (D : Type) where
  init : Bool
  steps : List (BackupStep D)
  deriving DecidableEq, Repr

inductive BackupEnd where
  | cancel
  | code (rc : Int)
  deriving DecidableEq, Repr

structure SlaveOpen where
  first : Option RdbError
  second : Option RdbError
  deriving DecidableEq, Repr

inductive SlaveFile where
  | slave
  | masterBackup
  deriving DecidableEq, Repr

structure CheckPoint where
  err : Option RdbError
  slaveErr : Option RdbError
  deriving DecidableEq, Repr

structure SlaveQueries where
  slaveTables : Except RdbError Nat
  mainTables : Except RdbError Nat
  decompressedSize : Int
  fileSize : Option Int
  integrity : Except RdbError String

structure ExchangeCall (D : Type) where
  isRestore : Bool
  verifyDb : Bool
  isForceRestore : Bool
  mainExists : Bool
  quickCheck : Except RdbError String
  replayed : Option D
  openSlave : SlaveOpen
  queries : SlaveQueries
  mainTables : Except RdbError Nat
  mainVersion : Except RdbError Int
  slaveVersion : Except RdbError Int
  openMasterBackup : SlaveOpen
  corruptedCopy : BackupRun D
  copy : BackupRun D
  checkpoint : CheckPoint
  cleansBinlog : Bool
  marks : Bool

abbrev ReplicaResult (D : Type) := Except RdbError Unit × ReplicaStore D

variable {D : Type}

namespace ReplicaStore

variable (s : ReplicaStore D)

def setSlaveInvalid (marks : Bool) : ReplicaStore D :=
  { s with invalid := s.invalid || marks }

def setSlaveInterrupted (marks : Bool) : ReplicaStore D :=
  { s with interrupted := s.interrupted || marks }

def setSlaveValid (s : ReplicaStore D) : ReplicaStore D :=
  { s with invalid := false, interrupted := false, log := s.log ++ [.setSlaveValid] }

def signal : Option SlaveSignal → ReplicaStore D
  | none => s
  | some .interrupt => if s.status = .backingUp then { s with status := .backupInterrupt } else s
  | some .closing => { s with status := .dbClosing }

def contents : Side → Option D
  | .main => s.main
  | .slave => s.slave

def write (side : Side) : Option D → ReplicaStore D
  | none => s
  | some d =>
    match side with
    | .main => { s with main := some d }
    | .slave => { s with slave := some d }

def copied (s : ReplicaStore D) (source : Side) : ReplicaStore D :=
  match source with
  | .main => { s with slave := s.main, log := s.log ++ [.copied s.main] }
  | .slave => { s with main := s.slave, log := s.log ++ [.copied s.slave] }

def deleteCorruptSlave (cfg : ReplicaConfig) (marks : Bool)
    (file : SlaveFile) : ReplicaStore D :=
  let s := { s with connected := false, slave := if file = .slave then none else s.slave }
  if cfg.isRowForSearch then s.setSlaveInvalid marks else s

def createSlaveConnection (cfg : ReplicaConfig) (marks : Bool)
    (file : SlaveFile) (o : SlaveOpen) : ReplicaResult D :=
  match o.first with
  | none => (.ok (), s)
  | some err =>
    let s := s.setSlaveInvalid marks
    if err = .sqliteCorrupt then
      let s := s.deleteCorruptSlave cfg marks file
      -- trigger mode does not rebuild the slave
      if cfg.haMode = .manualTrigger then (.error err, s)
      else
        match o.second with
        | some err => (.error err, s)
        | none => (.ok (), s)
    else (.error err, s)

def releaseTempSlaveConnection : ReplicaStore D :=
  if s.isTemp then { s with connected := false, isTemp := false } else s

def autoCheck (cfg : ReplicaConfig) (marks : Bool) (o : CheckPoint) :
    ReplicaStore D :=
  if s.connected && o.slaveErr = some .sqliteCorrupt then s.deleteCorruptSlave cfg marks .slave
  else s

def resetBinlog (cfg : ReplicaConfig) (marks cleans : Bool) :
    ReplicaStore D :=
  if !cfg.isRowForSearch && !cleans then s.setSlaveInvalid marks else s

end ReplicaStore

namespace BackupStep

def continues (step : BackupStep D) : Bool :=
  step.pageCount ≠ 0 && (step.rc = 0 || step.rc = sqliteBusy || step.rc = sqliteLocked)

end BackupStep

def BackupEnd.errCode : BackupEnd → Except RdbError Unit
  | .cancel => .error .cancel
  | .code rc => errNo rc

def backupLoop (cancels : Bool) (source : Side) :
    List (BackupStep D) → ReplicaStore D → Option (BackupEnd × ReplicaStore D)
  | [], _ => none
  | step :: steps, s =>
    let s := s.signal step.signal
    if cancels && (s.status = .backupInterrupt || s.status = .dbClosing) then some (.cancel, s)
    else
      let s := s.write source step.writes
      if step.continues then backupLoop cancels source steps s else some (.code step.rc, s)

def sourceOf (isRestore : Bool) : Side := if isRestore then .slave else .main

def sqliteBackupStep (isRestore : Bool) (steps : List (BackupStep D)) (s : ReplicaStore D) :
    Option (BackupEnd × ReplicaStore D) :=
  backupLoop (!isRestore) (sourceOf isRestore) steps s

def slaveIntegrityCheckLimit : Int := 524288000

namespace SlaveQueries

variable (q : SlaveQueries)

def mCount (mainOpen : Bool) : Nat :=
  if mainOpen then q.mainTables.toOption.getD 0 else 0

def slaveSize (cfg : ReplicaConfig) : Int :=
  let size := if cfg.isSupportBinlog then q.decompressedSize else 0
  if size = 0 then q.fileSize.getD 0 else size

def skipsCheck (cfg : ReplicaConfig) (mainOpen : Bool) : Bool :=
  q.slaveSize cfg > slaveIntegrityCheckLimit && q.mCount mainOpen = 0

end SlaveQueries

def isCorruptOrEmpty : Except RdbError Nat → Bool
  | .error err => err = .sqliteCorrupt
  | .ok n => n = 0

def isFoundCorrupt : Except RdbError String → Bool
  | .error _ => false
  | .ok answer => answer ≠ "ok"

namespace ReplicaStore

variable (s : ReplicaStore D)

def verifyOrCreateTempSlaveConnection (cfg : ReplicaConfig) (marks : Bool)
    (isForceRestore : Bool) (o : SlaveOpen) : ReplicaResult D :=
  if isForceRestore && !s.connected then
    match s.createSlaveConnection cfg marks .slave o with
    | (.error err, s) => (.error err, s)
    | (.ok (), s) => (.ok (), { s with connected := true, isTemp := true })
  else if !s.connected then (.error .alreadyClosed, s)
  else (.ok (), s)

def verifySlave (cfg : ReplicaConfig) (marks mainOpen : Bool)
    (q : SlaveQueries) : ReplicaResult D :=
  if s.interrupted then (.error .sqliteCorrupt, s)
  else if isCorruptOrEmpty q.slaveTables then (.error .sqliteCorrupt, s)
  else if q.skipsCheck cfg mainOpen then (if s.invalid then .error .sqliteCorrupt else .ok (), s)
  else if isFoundCorrupt q.integrity then (.error .sqliteCorrupt, s.setSlaveInvalid marks)
  else (.ok (), s)

def verifySlaveIntegrity (cfg : ReplicaConfig) (marks mainOpen : Bool)
    (isForceRestore : Bool) (o : SlaveOpen) (q : SlaveQueries) : ReplicaResult D :=
  match s.verifyOrCreateTempSlaveConnection cfg marks isForceRestore o with
  | (.error err, s) => (.error err, s)
  | (.ok (), s) => s.verifySlave cfg marks mainOpen q

end ReplicaStore

namespace ExchangeCall

def isDbVersionBelowSlave (c : ExchangeCall D) : Bool :=
  if isCorruptOrEmpty c.mainTables then true
  else
    -- the slave's version is asked for only when the main database has none
    match c.mainVersion.toOption.getD 0, c.slaveVersion with
    | 0, .ok version => version > 0
    | _, _ => false

variable (cfg : ReplicaConfig)

def replayBinlog (c : ExchangeCall D) (s : ReplicaStore D) :
    ReplicaStore D :=
  if cfg.isSupportBinlog && s.connected && c.mainExists then s.write .slave c.replayed else s

def exchangeVerify (c : ExchangeCall D) (s : ReplicaStore D) :
    ReplicaResult D :=
  if c.isRestore then
    match (c.replayBinlog cfg s).verifySlaveIntegrity cfg c.marks true c.isForceRestore
      c.openSlave c.queries with
    | (.error err, s) => (.error err, s)
    | (.ok (), s) =>
      if c.isDbVersionBelowSlave then (.ok (), s)
      else if c.isForceRestore then (.ok (), s)
      else if s.invalid then (.error .sqliteCorrupt, s)
      else (.ok (), s)
  else if !s.connected then (.error .alreadyClosed, s)
  else if !c.mainExists then (.error .dbNotExist, s)
  else if isFoundCorrupt c.quickCheck then (.error .sqliteCorrupt, s)
  else (.ok (), s.setSlaveInterrupted c.marks)

def sqliteBackupCheckpoint (c : ExchangeCall D) (s : ReplicaStore D) :
    ReplicaResult D :=
  let s := if c.isRestore then s.autoCheck cfg c.marks c.checkpoint else s
  if !c.isRestore && c.checkpoint.err = some .sqliteCorrupt then
    (.error .sqliteCorrupt,
      { s.deleteCorruptSlave cfg c.marks .slave with status := .backupInterrupt })
  else if c.checkpoint.err.isSome && cfg.haMode = .manualTrigger then
    (.ok (), if c.isRestore then s else { s with status := .backupInterrupt })
  else (.ok (), { s with status := .backupFinished }.setSlaveValid)

def sqliteNativeBackup (c : ExchangeCall D) (s : ReplicaStore D) :
    Option (ReplicaResult D) :=
  if !s.connected then none
  else if !c.copy.init then some (.ok (), { s with status := .undefined })
  else
    match sqliteBackupStep c.isRestore c.copy.steps s with
    | none => none
    | some (res, s) =>
      if res = .code sqliteDone then
        some (c.sqliteBackupCheckpoint cfg (s.copied (sourceOf c.isRestore)))
      else if c.isRestore then some (res.errCode, s)
      else if res = .code sqliteBusy ∨ res = .code sqliteLocked then
        some (res.errCode, { s with status := .backupInterrupt })
      else
        some (res.errCode,
          { s.deleteCorruptSlave cfg c.marks .slave with status := .backupInterrupt })

def sqliteNativeCorruptedBackup (c : ExchangeCall D) (s : ReplicaStore D) :
    Option (ReplicaResult D) :=
  match s.createSlaveConnection cfg c.marks .masterBackup c.openMasterBackup with
  | (.error err, s) => some (.error err, s)
  | (.ok (), s) =>
    if !c.corruptedCopy.init then some (.ok (), { s with status := .undefined })
    else
      match backupLoop false .main c.corruptedCopy.steps s with
      | none => none
      | some (res, s) => some (if res = .code sqliteDone then .ok () else res.errCode, s)

def copiesCorrupted (c : ExchangeCall D) : Bool := c.isRestore && c.verifyDb && c.isForceRestore

def finishExchange (c : ExchangeCall D) (s : ReplicaStore D) :
    ReplicaStore D :=
  let s := if c.isRestore && c.isForceRestore then s.setSlaveValid else s
  if !c.isRestore && cfg.isSupportBinlog && cfg.haMode ≠ .single then
    s.resetBinlog cfg c.marks c.cleansBinlog
  else s

def exchangeCopy (c : ExchangeCall D) (s : ReplicaStore D) :
    Option (ReplicaResult D) :=
  match c.sqliteNativeBackup cfg s with
  | none => none
  | some (.error err, s) => some (.error err, s.releaseTempSlaveConnection)
  | some (.ok (), s) => some (.ok (), c.finishExchange cfg s)

def exchangeSlaverToMaster (c : ExchangeCall D) (s : ReplicaStore D) :
    Option (ReplicaResult D) :=
  let s := { s with status := .backingUp }
  match if c.verifyDb then c.exchangeVerify cfg s else (.ok (), s) with
  | (.error err, s) => some (.error err, { s.releaseTempSlaveConnection with status := .undefined })
  | (.ok (), s) =>
    match if c.copiesCorrupted then c.sqliteNativeCorruptedBackup cfg s else some (.ok (), s) with
    | none => none
    | some (.error err, s) => some (.error err, s.releaseTempSlaveConnection)
    | some (.ok (), s) => c.exchangeCopy cfg s

def backup (c : ExchangeCall D) (o : SlaveOpen) (s : ReplicaStore D) :
    Option (ReplicaResult D) :=
  let c := { c with isRestore := false, isForceRestore := false }
  if s.status = .backingUp then some (.ok (), s)
  else if s.connected then c.exchangeSlaverToMaster cfg s
  else
    match s.createSlaveConnection cfg c.marks .slave o with
    | (.error err, s) => some (.error err, s)
    | (.ok (), s) => c.exchangeSlaverToMaster cfg { s with connected := true }

end ExchangeCall

inductive BinlogReplay (D : Type) where
  | skipped
  | overLimit
  | replayed (slave : D)
  deriving DecidableEq, Repr

structure RepairCall (D : Type) where
  slaveExists : Bool
  openSlave : SlaveOpen
  replay : BinlogReplay D
  queries : SlaveQueries
  removes : Bool
  reopen : Option RdbError
  checkpoint : CheckPoint
  restore : ExchangeCall D
  marks : Bool

namespace ReplicaStore

variable (s : ReplicaStore D)

def replayBinlog (cfg : ReplicaConfig) (marks : Bool) :
    BinlogReplay D → ReplicaStore D
  | .skipped => s
  | .overLimit => if cfg.haMode = .manualTrigger then s.setSlaveInvalid marks else s
  | .replayed d => { s with slave := some d }

def deleteMain (removes : Bool) : ReplicaStore D :=
  { s with main := if removes then none else s.main }

def unconnected : ReplicaStore D :=
  { s with connected := false, isTemp := false, status := .undefined }

end ReplicaStore

namespace RepairCall

variable (cfg : ReplicaConfig)

def beforeVerify (r : RepairCall D) (s : ReplicaStore D) : ReplicaStore D :=
  let s := { s with connected := true }
  if cfg.isSupportBinlog then s.replayBinlog cfg r.marks r.replay else s

def repairVerify (r : RepairCall D) (s : ReplicaStore D) :
    ReplicaResult D :=
  let s := s.unconnected
  if !r.slaveExists then (.error .notSupport, s)
  else
    match s.createSlaveConnection cfg r.marks .slave r.openSlave with
    | (.error err, s) => (.error err, s)
    | (.ok (), s) =>
      -- the main database is not open, so its tables are not counted
      (r.beforeVerify cfg s).verifySlaveIntegrity cfg r.marks false false r.openSlave r.queries

def exchangeCall (r : RepairCall D) : ExchangeCall D :=
  { r.restore with isRestore := true, verifyDb := false, isForceRestore := false }

def repair (r : RepairCall D) (s : ReplicaStore D) :
    Option (ReplicaResult D) :=
  match r.repairVerify cfg s with
  | (.error err, s) => some (.error err, s)
  | (.ok (), s) =>
    let s := s.deleteMain r.removes
    match r.reopen with
    | some err => some (.error err, s)
    | none => r.exchangeCall.exchangeSlaverToMaster cfg (s.autoCheck cfg r.marks r.checkpoint)

end RepairCall

end RelationalStore
