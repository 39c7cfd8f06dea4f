import RelationalStore.Rdb.Replica.Basic

/-! # What an exchange returns and leaves

Whether `E_OK` stands for a copy that was made, and whether `BACKING_UP` is taken back. -/

namespace RelationalStore

open BackupRun
variable {D : Type}

/-! ## The conditions, on what the call is answered -/

def SlaveOpen.Opens (cfg : ReplicaConfig) (o : SlaveOpen) : Prop :=
  o.first = none ∨
    o.first = some .sqliteCorrupt ∧ cfg.haMode ≠ .manualTrigger ∧ o.second = none

def SlaveQueries.Passes (cfg : ReplicaConfig) (q : SlaveQueries)
    (mainOpen invalid interrupted : Bool) : Prop :=
  interrupted = false ∧ isCorruptOrEmpty q.slaveTables = false ∧
    if q.skipsCheck cfg mainOpen then invalid = false else isFoundCorrupt q.integrity = false

def ReplicaStore.invalidAtCheck (s : ReplicaStore D) (marks : Bool) (o : SlaveOpen) : Bool :=
  s.invalid || (!s.connected && o.first.isSome && marks)

namespace BackupStep

def endOf (cancels : Bool) (step : BackupStep D) : Option BackupEnd :=
  if cancels && step.signal.isSome then some .cancel
  else if step.continues then none
  else some (.code step.rc)

end BackupStep

namespace BackupRun

def ends (cancels : Bool) (run : BackupRun D) : Option BackupEnd :=
  run.steps.findSome? (·.endOf cancels)

def isSignalled : List (BackupStep D) → Bool
  | [] => false
  | step :: steps => step.signal.isSome || (step.continues && isSignalled steps)

def Unsignalled (run : BackupRun D) : Prop := run.init ∧ isSignalled run.steps = false

end BackupRun

def BackupEnd.copyCode (res : BackupEnd) : Except RdbError Unit :=
  if res = .code sqliteDone then .ok () else res.errCode

namespace ExchangeCall
variable (cfg : ReplicaConfig) (c : ExchangeCall D) (s : ReplicaStore D)

def Verified : Prop :=
  c.verifyDb →
    if c.isRestore then
      (s.connected ∨ c.isForceRestore ∧ c.openSlave.Opens cfg) ∧
        c.queries.Passes cfg true (s.invalidAtCheck c.marks c.openSlave) s.interrupted ∧
        (c.isDbVersionBelowSlave ∨ c.isForceRestore ∨ s.invalid = false)
    else s.connected ∧ c.mainExists ∧ isFoundCorrupt c.quickCheck = false

/-- The call comes to the copy proper, with a connection to the slave. -/
def Reaches : Prop :=
  c.Verified cfg s ∧ (c.verifyDb = false → s.connected) ∧
    (c.copiesCorrupted → c.openMasterBackup.first = none ∧
      (c.corruptedCopy.init →
        ∃ res, c.corruptedCopy.ends false = some res ∧ res.copyCode = .ok ()))

/-- The copy proper has a handle, and does not end with `SQLITE_OK` or `SQLITE_ROW`. -/
def Copies : Prop :=
  c.copy.init ∧
    ∀ rc, c.copy.ends (!c.isRestore) = some (.code rc) → rc ≠ 0 ∧ rc ≠ sqliteRow

/-- A restore that returns without having set the status. -/
def Forgets : Prop :=
  c.isRestore ∧ c.Verified cfg s ∧
    -- the copy of the corrupt main database fails, or
    (c.copiesCorrupted ∧ ¬ c.openMasterBackup.Opens cfg ∨
    c.copiesCorrupted ∧ c.openMasterBackup.Opens cfg ∧ c.corruptedCopy.Unsignalled ∧
      (∃ res, c.corruptedCopy.ends false = some res ∧ res.copyCode ≠ .ok ()) ∨
    -- the copy proper fails, or the checkpoint after it does
    c.Reaches cfg s ∧ (c.copiesCorrupted → c.corruptedCopy.Unsignalled) ∧
      c.copy.Unsignalled ∧ ∃ res, c.copy.ends false = some res ∧
        (res = .code sqliteDone → c.checkpoint.err.isSome ∧ cfg.haMode = .manualTrigger))

end ExchangeCall

/-! ## Frames -/

namespace ReplicaStore
variable {s t u : ReplicaStore D} {cfg : ReplicaConfig} {marks : Bool}

structure SameMain (s t : ReplicaStore D) : Prop where
  main : t.main = s.main
  status : t.status = s.status
  log : t.log = s.log

theorem SameMain.refl (s : ReplicaStore D) : s.SameMain s := ⟨rfl, rfl, rfl⟩

theorem SameMain.trans (h : s.SameMain t) (h' : t.SameMain u) : s.SameMain u :=
  ⟨h'.main.trans h.main, h'.status.trans h.status, h'.log.trans h.log⟩

theorem deleteCorruptSlave_spec (s : ReplicaStore D) (cfg : ReplicaConfig) (marks : Bool)
    (file : SlaveFile) :
    s.SameMain (s.deleteCorruptSlave cfg marks file) ∧
      (s.deleteCorruptSlave cfg marks file).interrupted = s.interrupted ∧
      (s.deleteCorruptSlave cfg marks file).connected = false ∧
      (cfg.haMode ≠ .manualTrigger →
        (s.deleteCorruptSlave cfg marks file).invalid = s.invalid) := by
  unfold deleteCorruptSlave
  cases hsearch : cfg.isRowForSearch with
  | false => exact ⟨⟨rfl, rfl, rfl⟩, rfl, rfl, fun _ => rfl⟩
  | true =>
    refine ⟨⟨rfl, rfl, rfl⟩, rfl, rfl, fun hmode => ?_⟩
    simp [ReplicaConfig.isRowForSearch, hmode] at hsearch

theorem sameMain_autoCheck (s : ReplicaStore D) (cfg : ReplicaConfig) (marks : Bool)
    (o : CheckPoint) : s.SameMain (s.autoCheck cfg marks o) := by
  unfold autoCheck
  split
  · exact (deleteCorruptSlave_spec s cfg marks .slave).1
  · exact .refl s

theorem createSlaveConnection_spec (h : s.createSlaveConnection cfg marks file o = (ret, t)) :
    s.SameMain t ∧ t.interrupted = s.interrupted ∧ (ret = .ok () ↔ o.Opens cfg) ∧
      (ret = .ok () → t.invalid = (s.invalid || (o.first.isSome && marks)) ∧
        t.connected = (s.connected && o.first.isNone)) := by
  unfold createSlaveConnection at h
  unfold SlaveOpen.Opens
  cases hfirst : o.first with
  | none =>
    simp only [hfirst] at h
    cases h
    simp [SameMain.refl]
  | some err =>
    simp only [hfirst] at h
    split at h
    next hcorrupt =>
      subst hcorrupt
      obtain ⟨hmain, hint, hconn, hinv⟩ :=
        deleteCorruptSlave_spec (s.setSlaveInvalid marks) cfg marks file
      have hmain' : s.SameMain ((s.setSlaveInvalid marks).deleteCorruptSlave cfg marks file) :=
        ⟨hmain.main, hmain.status, hmain.log⟩
      split at h
      next hmode =>
        cases h
        exact ⟨hmain', hint, by simp [hmode], nofun⟩
      next hmode =>
        split at h
        next err hsecond =>
          cases h
          exact ⟨hmain', hint, by simp [hsecond], nofun⟩
        next hsecond =>
          cases h
          refine ⟨hmain', hint, by simp [hmode, hsecond], fun _ => ⟨?_, ?_⟩⟩
          · exact (hinv hmode).trans (by simp [setSlaveInvalid])
          · simpa using hconn
    next hcorrupt =>
      cases h
      exact ⟨⟨rfl, rfl, rfl⟩, rfl, by simp [hcorrupt], nofun⟩

theorem sameMain_releaseTemp (s : ReplicaStore D) : s.SameMain s.releaseTempSlaveConnection := by
  unfold releaseTempSlaveConnection
  split
  · exact ⟨rfl, rfl, rfl⟩
  · exact .refl s

/-! ## The verification -/

theorem verifySlave_spec (h : s.verifySlave cfg marks mainOpen q = res) :
    s.SameMain res.2 ∧ (res.1 = .ok () ↔ q.Passes cfg mainOpen s.invalid s.interrupted) ∧
      (res.1 = .ok () → res.2 = s) := by
  subst h
  unfold verifySlave SlaveQueries.Passes
  cases s.interrupted with
  | true => simp [SameMain.refl]
  | false =>
    cases isCorruptOrEmpty q.slaveTables with
    | true => simp [SameMain.refl]
    | false =>
      cases q.skipsCheck cfg mainOpen with
      | true => cases s.invalid <;> simp [SameMain.refl]
      | false =>
        cases isFoundCorrupt q.integrity with
        | true => exact ⟨⟨rfl, rfl, rfl⟩, by simp, nofun⟩
        | false => simp [SameMain.refl]

theorem verifySlaveIntegrity_spec (h : s.verifySlaveIntegrity cfg marks mainOpen force o q = res) :
    s.SameMain res.2 ∧
    (res.1 = .ok () ↔ (s.connected ∨ force ∧ o.Opens cfg) ∧
      q.Passes cfg mainOpen (s.invalidAtCheck marks o) s.interrupted) ∧
    (res.1 = .ok () → res.2.connected ∧ res.2.invalid = s.invalidAtCheck marks o) := by
  unfold verifySlaveIntegrity verifyOrCreateTempSlaveConnection at h
  unfold invalidAtCheck
  cases hconn : s.connected with
  | true =>
    simp only [hconn, Bool.not_true, Bool.and_false, Bool.false_eq_true, ↓reduceIte] at h
    obtain ⟨hmain, hok, heq⟩ := verifySlave_spec h
    refine ⟨hmain, by simpa using hok, fun hret => ?_⟩
    rw [heq hret]
    simp [hconn]
  | false =>
    cases force with
    | false =>
      simp only [hconn, Bool.false_and, Bool.false_eq_true, ↓reduceIte, Bool.not_false] at h
      subst h
      simp [SameMain.refl]
    | true =>
      simp only [hconn, Bool.not_false, Bool.and_self, ↓reduceIte] at h
      rcases hcreate : s.createSlaveConnection cfg marks .slave o with ⟨ret, t⟩
      obtain ⟨hmain, hint, hopens, hstate⟩ := createSlaveConnection_spec hcreate
      rw [hcreate] at h
      cases ret with
      | error err =>
        subst h
        simp [hmain, ← hopens]
      | ok =>
        -- the slave is connected anew, and verified with the marker that this has left
        obtain ⟨hmain', hok, heq⟩ := verifySlave_spec h
        obtain ⟨hinv, -⟩ := hstate rfl
        refine ⟨hmain.trans ⟨hmain'.main, hmain'.status, hmain'.log⟩, ?_, fun hret => ?_⟩
        · simpa [hopens.mp rfl, hinv, hint] using hok
        · rw [heq hret]
          simp [hinv]

end ReplicaStore

namespace ExchangeCall
open ReplicaStore
variable {cfg : ReplicaConfig} {c : ExchangeCall D} {s : ReplicaStore D}

theorem replayBinlog_eq (cfg : ReplicaConfig) (c : ExchangeCall D) (s : ReplicaStore D) :
    ∃ slave, c.replayBinlog cfg s = { s with slave } := by
  unfold replayBinlog
  split
  · cases hreplayed : c.replayed with
    | none => exact ⟨s.slave, rfl⟩
    | some d => exact ⟨some d, rfl⟩
  · exact ⟨s.slave, rfl⟩

variable {res : ReplicaResult D} (hverify : c.verifyDb) (h : c.exchangeVerify cfg s = res)
include hverify h

theorem exchangeVerify_backup_spec (hrestore : c.isRestore = false) :
    s.SameMain res.2 ∧ (res.1 = .ok () ↔ c.Verified cfg s) ∧
      (res.1 = .ok () → res.2.connected) := by
  unfold exchangeVerify at h
  simp only [Verified, hverify, hrestore, true_imp_iff, Bool.false_eq_true, ↓reduceIte] at h ⊢
  split at h
  next hconn =>
    subst h
    simp_all [SameMain.refl]
  next hconn =>
    split at h
    next hmain =>
      subst h
      simp_all [SameMain.refl]
    next hmain =>
      split at h
      next hcheck =>
        subst h
        simp_all [SameMain.refl]
      next hcheck =>
        subst h
        exact ⟨⟨rfl, rfl, rfl⟩, by simp_all, fun _ => by simpa [setSlaveInterrupted] using hconn⟩

theorem exchangeVerify_restore_spec (hrestore : c.isRestore) :
    s.SameMain res.2 ∧ (res.1 = .ok () ↔ c.Verified cfg s) ∧
      (res.1 = .ok () → res.2.connected) := by
  unfold exchangeVerify at h
  simp only [Verified, hverify, hrestore, true_imp_iff, ↓reduceIte] at h ⊢
  obtain ⟨slave, hreplay⟩ := replayBinlog_eq cfg c s
  rw [hreplay] at h
  rcases hslave : ReplicaStore.verifySlaveIntegrity { s with slave } cfg c.marks true
    c.isForceRestore c.openSlave c.queries with ⟨ret, t⟩
  obtain ⟨hmain, hok, hstate⟩ := verifySlaveIntegrity_spec hslave
  have hsame : s.SameMain t := ⟨hmain.main, hmain.status, hmain.log⟩
  rw [hslave] at h
  cases ret with
  | error err =>
    subst h
    simp only [reduceCtorEq, false_iff] at hok
    refine ⟨hsame, ⟨nofun, fun hall => absurd ⟨hall.1, hall.2.1⟩ hok⟩, nofun⟩
  | ok =>
    obtain ⟨hconn, hinv⟩ := hstate rfl
    have hpass := hok.mp rfl
    dsimp only at h
    -- a slave that was not connected is only verified when the restore is forced
    have hmarker : c.isForceRestore = false → t.invalid = s.invalid := by
      intro hforce
      have hconnected : s.connected := by simpa [hforce] using hpass.1
      rw [hinv]
      simp [invalidAtCheck, hconnected]
    split at h
    next hbelow =>
      subst h
      exact ⟨hsame, ⟨fun _ => ⟨hpass.1, hpass.2, .inl hbelow⟩, fun _ => rfl⟩, fun _ => hconn⟩
    next hbelow =>
      split at h
      next hforce =>
        subst h
        exact ⟨hsame, ⟨fun _ => ⟨hpass.1, hpass.2, .inr (.inl hforce)⟩, fun _ => rfl⟩,
          fun _ => hconn⟩
      next hforce =>
        have hmarked := hmarker (by simpa using hforce)
        split at h
        next hinvalid =>
          subst h
          simp [hsame, hbelow, hforce, ← hmarked, hinvalid]
        next hinvalid =>
          subst h
          rw [hmarked, Bool.not_eq_true] at hinvalid
          exact ⟨hsame, ⟨fun _ => ⟨hpass.1, hpass.2, .inr (.inr hinvalid)⟩, fun _ => rfl⟩,
            fun _ => hconn⟩

theorem exchangeVerify_spec :
    s.SameMain res.2 ∧ (res.1 = .ok () ↔ c.Verified cfg s) ∧
      (res.1 = .ok () → res.2.connected) := by
  cases hrestore : c.isRestore with
  | false => exact exchangeVerify_backup_spec hverify h hrestore
  | true => exact exchangeVerify_restore_spec hverify h hrestore

end ExchangeCall

/-! ## The loop -/

namespace ReplicaStore
variable {s : ReplicaStore D}

theorem write_frame (s : ReplicaStore D) (side : Side) (d : Option D) :
    (s.write side d).status = s.status ∧ (s.write side d).log = s.log ∧
      (s.write side d).connected = s.connected := by
  cases d with
  | none => exact ⟨rfl, rfl, rfl⟩
  | some d => cases side <;> exact ⟨rfl, rfl, rfl⟩

theorem signal_frame (s : ReplicaStore D) (sig : Option SlaveSignal) :
    (s.signal sig).log = s.log ∧ (s.signal sig).connected = s.connected := by
  unfold signal
  (repeat' split) <;> exact ⟨rfl, rfl⟩

theorem status_signal (s : ReplicaStore D) (sig : Option SlaveSignal) :
    (s.signal sig).status = .backingUp ↔ s.status = .backingUp ∧ sig.isSome = false := by
  unfold signal
  split
  · simp
  · split <;> simp_all
  · simp

theorem cancels_iff_signal (h : cancels = true → s.status = .backingUp) :
    (cancels && ((s.signal sig).status = .backupInterrupt || (s.signal sig).status = .dbClosing)) =
      (cancels && sig.isSome) := by
  cases cancels with
  | false => rfl
  | true =>
    match sig with
    | none => simp [signal, h rfl]
    | some .interrupt => simp [signal, h rfl]
    | some .closing => simp [signal]

end ReplicaStore

section
open ReplicaStore
variable {s t : ReplicaStore D} {cancels : Bool} {source : Side} {steps : List (BackupStep D)}

theorem backupLoop_spec (h : backupLoop cancels source steps s = some (res, t)) :
    t.log = s.log ∧ t.connected = s.connected ∧
      (cancels = false → (t.status = .backingUp ↔
        s.status = .backingUp ∧ isSignalled steps = false)) := by
  induction steps generalizing s with
  | nil => cases h
  | cons step steps ih =>
    unfold backupLoop at h
    have hsignal := signal_frame s step.signal
    have hwrite := write_frame (s.signal step.signal) source step.writes
    have hstatus := s.status_signal step.signal
    dsimp only at h
    split at h
    next hcancel =>
      cases h
      exact ⟨hsignal.1, hsignal.2, fun hno => by simp [hno] at hcancel⟩
    next hcancel =>
      split at h
      next hcontinues =>
        obtain ⟨hlog, hconn, hst⟩ := ih h
        refine ⟨hlog.trans (hwrite.2.1.trans hsignal.1),
          hconn.trans (hwrite.2.2.trans hsignal.2), fun hno => ?_⟩
        rw [hst hno, hwrite.1, hstatus]
        simp [isSignalled, hcontinues, and_assoc]
      next hcontinues =>
        cases h
        refine ⟨hwrite.2.1.trans hsignal.1, hwrite.2.2.trans hsignal.2, fun _ => ?_⟩
        rw [hwrite.1, hstatus]
        simp [isSignalled, hcontinues]

theorem backupLoop_ends (source : Side) (steps : List (BackupStep D))
    (hstatus : cancels → s.status = .backingUp) :
    (backupLoop cancels source steps s).map Prod.fst = steps.findSome? (·.endOf cancels) := by
  induction steps generalizing s with
  | nil => rfl
  | cons step steps ih =>
    have hwrite := (write_frame (s.signal step.signal) source step.writes).1
    unfold backupLoop
    dsimp only
    rw [List.findSome?_cons, cancels_iff_signal hstatus, BackupStep.endOf]
    cases hcancel : cancels && step.signal.isSome with
    | true => rfl
    | false =>
      cases hcontinues : step.continues with
      | false => rfl
      | true =>
        -- a round without a signal leaves the copy under way
        refine ih fun hc => ?_
        rw [hwrite]
        exact (s.status_signal _).mpr ⟨hstatus hc, by simpa [hc] using hcancel⟩

end

/-! ## The phases -/

def destOf (isRestore : Bool) : Side := if isRestore then .main else .slave

namespace ExchangeCall
open ReplicaStore
variable {cfg : ReplicaConfig} {c : ExchangeCall D} {s : ReplicaStore D}

inductive CorruptedCopy (cfg : ReplicaConfig) (c : ExchangeCall D) (s : ReplicaStore D) :
    Option (ReplicaResult D) → Prop where
  | refused {err t} : ¬ c.openMasterBackup.Opens cfg → s.SameMain t →
      CorruptedCopy cfg c s (some (.error err, t))
  | skipped {t} : c.openMasterBackup.Opens cfg → c.corruptedCopy.init = false → t.log = s.log →
      t.connected = (s.connected && c.openMasterBackup.first.isNone) → t.status = .undefined →
      CorruptedCopy cfg c s (some (.ok (), t))
  | endless : c.openMasterBackup.Opens cfg → c.corruptedCopy.init →
      c.corruptedCopy.ends false = none → CorruptedCopy cfg c s none
  | ended {res t} : c.openMasterBackup.Opens cfg → c.corruptedCopy.init →
      c.corruptedCopy.ends false = some res → t.log = s.log →
      t.connected = (s.connected && c.openMasterBackup.first.isNone) →
      (t.status = .backingUp ↔
        s.status = .backingUp ∧ isSignalled c.corruptedCopy.steps = false) →
      CorruptedCopy cfg c s (some (res.copyCode, t))

theorem sqliteNativeCorruptedBackup_cases (cfg : ReplicaConfig) (c : ExchangeCall D)
    (s : ReplicaStore D) : CorruptedCopy cfg c s (c.sqliteNativeCorruptedBackup cfg s) := by
  unfold sqliteNativeCorruptedBackup
  rcases hcreate : s.createSlaveConnection cfg c.marks .masterBackup c.openMasterBackup
    with ⟨ret, t⟩
  obtain ⟨hmain, -, hopens, hstate⟩ := createSlaveConnection_spec hcreate
  cases ret with
  | error err => exact .refused (by simp [← hopens]) hmain
  | ok =>
    have ho := hopens.mp rfl
    have hconn := (hstate rfl).2
    cases hinit : c.corruptedCopy.init with
    | false => exact .skipped ho hinit hmain.log hconn rfl
    | true =>
      have hends : (backupLoop false .main c.corruptedCopy.steps t).map Prod.fst =
        c.corruptedCopy.ends false := backupLoop_ends _ _ nofun
      simp only [Bool.not_true, Bool.false_eq_true, ↓reduceIte]
      rcases hloop : backupLoop false .main c.corruptedCopy.steps t with _ | ⟨res, u⟩
      · rw [hloop] at hends
        exact .endless ho hinit hends.symm
      · rw [hloop] at hends
        obtain ⟨hlog, hconn', hstatus⟩ := backupLoop_spec hloop
        refine .ended ho hinit hends.symm (hlog.trans hmain.log) (hconn'.trans hconn) ?_
        rw [hstatus rfl, hmain.status]

inductive NativeCopy (cfg : ReplicaConfig) (c : ExchangeCall D) (s : ReplicaStore D) :
    Option (ReplicaResult D) → Prop where
  | skipped {t} : c.copy.init = false → t.log = s.log → t.status = .undefined →
      NativeCopy cfg c s (some (.ok (), t))
  | endless : c.copy.init → c.copy.ends (!c.isRestore) = none → NativeCopy cfg c s none
  | failed {res t} : c.copy.init → c.copy.ends (!c.isRestore) = some res →
      res ≠ .code sqliteDone → t.log = s.log →
      (t.status = .backingUp ↔ c.isRestore ∧ s.status = .backingUp ∧
        isSignalled c.copy.steps = false) →
      NativeCopy cfg c s (some (res.errCode, t))
  | copied {ret t d} : c.copy.init → c.copy.ends (!c.isRestore) = some (.code sqliteDone) →
      .copied d ∈ t.log → (ret = .ok () → t.contents (destOf c.isRestore) = d) →
      (t.status = .backingUp ↔ c.isRestore ∧ (s.status = .backingUp ∧
        isSignalled c.copy.steps = false) ∧
        c.checkpoint.err.isSome ∧ cfg.haMode = .manualTrigger) →
      NativeCopy cfg c s (some (ret, t))

theorem sqliteBackupCheckpoint_spec (hsource : source = sourceOf c.isRestore)
    (h : c.sqliteBackupCheckpoint cfg (s.copied source) = res) :
    .copied (s.contents source) ∈ res.2.log ∧
      (res.1 = .ok () → res.2.contents (destOf c.isRestore) = s.contents source) ∧
      (res.2.status = .backingUp ↔ c.isRestore ∧ s.status = .backingUp ∧
        c.checkpoint.err.isSome ∧ cfg.haMode = .manualTrigger) := by
  subst hsource h
  unfold sqliteBackupCheckpoint
  cases hrestore : c.isRestore with
  | false =>
    simp only [sourceOf, destOf, copied, contents, Bool.false_eq_true, ↓reduceIte, Bool.not_false,
      Bool.true_and, false_and, iff_false]
    split
    next hcorrupt =>
      obtain ⟨hmain, -⟩ := deleteCorruptSlave_spec
        { s with slave := s.main, log := s.log ++ [.copied s.main] } cfg c.marks .slave
      exact ⟨by simp [hmain.log], nofun, nofun⟩
    next hcorrupt =>
      split
      · exact ⟨by simp, fun _ => rfl, nofun⟩
      · exact ⟨by simp [setSlaveValid], fun _ => rfl, nofun⟩
  | true =>
    simp only [sourceOf, destOf, copied, contents, ↓reduceIte, Bool.not_true, Bool.false_and,
      Bool.false_eq_true, true_and]
    have hmain := sameMain_autoCheck
      { s with main := s.slave, log := s.log ++ [.copied s.slave] } cfg c.marks c.checkpoint
    split
    next hfails =>
      refine ⟨by simp [hmain.log], fun _ => hmain.main, ?_⟩
      rw [hmain.status]
      simpa using fun _ => hfails
    next hfails =>
      refine ⟨by simp [setSlaveValid, hmain.log], fun _ => hmain.main, ?_⟩
      simp only [Bool.and_eq_true, decide_eq_true_eq] at hfails
      simp [setSlaveValid, hfails]

theorem sqliteNativeBackup_cases (hconn : s.connected)
    (hstatus : c.isRestore = false → s.status = .backingUp) :
    NativeCopy cfg c s (c.sqliteNativeBackup cfg s) := by
  unfold sqliteNativeBackup sqliteBackupStep
  simp only [hconn, Bool.not_true, Bool.false_eq_true, ↓reduceIte]
  cases hinit : c.copy.init with
  | false => exact .skipped hinit rfl rfl
  | true =>
    have hends : (backupLoop (!c.isRestore) (sourceOf c.isRestore) c.copy.steps s).map Prod.fst =
      c.copy.ends (!c.isRestore) := backupLoop_ends _ _ fun h => hstatus (by simpa using h)
    simp only [Bool.not_true, Bool.false_eq_true, ↓reduceIte]
    rcases hloop : backupLoop (!c.isRestore) (sourceOf c.isRestore) c.copy.steps s with
      _ | ⟨res, t⟩
    · rw [hloop] at hends
      exact .endless hinit hends.symm
    · rw [hloop] at hends
      obtain ⟨hlog, -, hst⟩ := backupLoop_spec hloop
      dsimp only
      split
      next hdone =>
        subst hdone
        rcases hcheck : c.sqliteBackupCheckpoint cfg (t.copied (sourceOf c.isRestore)) with ⟨ret, u⟩
        obtain ⟨hmem, hcontents, hst'⟩ := sqliteBackupCheckpoint_spec rfl hcheck
        refine .copied hinit hends.symm hmem hcontents (hst'.trans (and_congr_right fun hr => ?_))
        rw [hst (by simp [hr])]
      next hdone =>
        split
        next hrestore =>
          refine .failed hinit hends.symm hdone hlog ?_
          simp [hst (by simp [hrestore]), hrestore]
        next hrestore =>
          split
          · exact .failed hinit hends.symm hdone hlog (by simp [hrestore])
          · refine .failed hinit hends.symm hdone ?_ (by simp [hrestore])
            exact (deleteCorruptSlave_spec t cfg c.marks .slave).1.log.trans hlog

inductive Exchanged (cfg : ReplicaConfig) (c : ExchangeCall D) (s : ReplicaStore D) :
    Option (ReplicaResult D) → Prop where
  | lost : (c.Reaches cfg s → c.Copies) → ¬ c.Forgets cfg s → Exchanged cfg c s none
  | failed {err t} : (c.Reaches cfg s → c.Copies) → t.log = s.log →
      (t.status = .backingUp ↔ c.Forgets cfg s) → Exchanged cfg c s (some (.error err, t))
  | uncopied {t} : c.Reaches cfg s → ¬ c.Copies → (∀ d, .copied d ∈ t.log → .copied d ∈ s.log) →
      (t.status = .backingUp ↔ c.Forgets cfg s) → Exchanged cfg c s (some (.ok (), t))
  | copied {ret t d} : c.Copies → .copied d ∈ t.log →
      (ret = .ok () → t.contents (destOf c.isRestore) = d) →
      (t.status = .backingUp ↔ c.Forgets cfg s) → Exchanged cfg c s (some (ret, t))

theorem forgets_of_reaches (h : c.Reaches cfg s) :
    c.Forgets cfg s ↔ c.isRestore ∧
      (c.copiesCorrupted → c.corruptedCopy.Unsignalled) ∧ c.copy.Unsignalled ∧
      ∃ res, c.copy.ends false = some res ∧
        (res = .code sqliteDone →
          c.checkpoint.err.isSome ∧ cfg.haMode = .manualTrigger) := by
  constructor
  · rintro ⟨hrestore, -, ⟨hcopies, hopens⟩ | ⟨hcopies, -, hquiet, res, hends, hcode⟩ | hall⟩
    · exact absurd (.inl (h.2.2 hcopies).1) hopens
    · obtain ⟨res', hends', hcode'⟩ := (h.2.2 hcopies).2 hquiet.1
      rw [hends] at hends'
      cases hends'
      exact absurd hcode' hcode
    · exact ⟨hrestore, hall.2⟩
  · rintro ⟨hrestore, hall⟩
    exact ⟨hrestore, h.1, .inr (.inr ⟨h, hall⟩)⟩

theorem finishExchange_spec (cfg : ReplicaConfig) (c : ExchangeCall D) (t : ReplicaStore D) :
    (∀ side, (c.finishExchange cfg t).contents side = t.contents side) ∧
      (c.finishExchange cfg t).status = t.status ∧
      ∀ d, .copied d ∈ (c.finishExchange cfg t).log ↔ .copied d ∈ t.log := by
  unfold finishExchange resetBinlog
  cases c.isRestore && c.isForceRestore <;>
    cases !c.isRestore && cfg.isSupportBinlog && cfg.haMode ≠ .single <;>
    cases !cfg.isRowForSearch && !c.cleansBinlog <;>
    exact ⟨fun side => by cases side <;> rfl, rfl,
      fun d => by simp [setSlaveValid, setSlaveInvalid]⟩

theorem copies_iff_of_ends (hinit : c.copy.init)
    (hends : c.copy.ends (!c.isRestore) = some res) : c.Copies ↔ res.errCode ≠ .ok () := by
  unfold Copies
  rw [hends]
  cases res with
  | cancel => simp [hinit, BackupEnd.errCode]
  | code rc => simp [hinit, BackupEnd.errCode, errNo_eq_ok]

variable {t : ReplicaStore D}

theorem forgets_iff_of_ends {res : BackupEnd} (hreaches : c.Reaches cfg s)
    (hstatus : c.isRestore → (t.status = .backingUp ↔
      (c.copiesCorrupted → c.corruptedCopy.Unsignalled)))
    (hinit : c.copy.init) (hends : c.copy.ends (!c.isRestore) = some res) :
    c.Forgets cfg s ↔ c.isRestore ∧
      (t.status = .backingUp ∧ isSignalled c.copy.steps = false) ∧
      (res = .code sqliteDone → c.checkpoint.err.isSome ∧ cfg.haMode = .manualTrigger) := by
  rw [forgets_of_reaches hreaches]
  refine and_congr_right fun hrestore => ?_
  rw [hstatus hrestore]
  simp only [hrestore, Bool.not_true] at hends
  simp [Unsignalled, hinit, hends, and_assoc]

theorem exchangeCopy_cases (hreaches : c.Reaches cfg s)
    (hconn : t.connected) (hlog : t.log = s.log)
    (hbackup : c.isRestore = false → t.status = .backingUp)
    (hstatus : c.isRestore → (t.status = .backingUp ↔
      (c.copiesCorrupted → c.corruptedCopy.Unsignalled))) :
    Exchanged cfg c s (c.exchangeCopy cfg t) := by
  have hforgets := forgets_of_reaches hreaches
  have hnative : NativeCopy cfg c t (c.sqliteNativeBackup cfg t) :=
    sqliteNativeBackup_cases hconn hbackup
  unfold exchangeCopy
  generalize c.sqliteNativeBackup cfg t = out at hnative
  cases hnative with
  | @skipped u hinit hlog' hst =>
    obtain ⟨-, hstatus', hmem⟩ := finishExchange_spec cfg c u
    refine .uncopied hreaches (fun h => by simp [h.1] at hinit) (fun d hd => ?_) ?_
    · rwa [hmem, hlog', hlog] at hd
    · rw [hstatus', hst]
      exact ⟨nofun, fun hforgot => by simp [(hforgets.mp hforgot).2.2.1.1] at hinit⟩
  | endless hinit hends =>
    refine .lost (fun _ => ⟨hinit, fun rc hrc => by simp [hends] at hrc⟩) fun hforgot => ?_
    obtain ⟨hrestore, -, -, res, hends', -⟩ := hforgets.mp hforgot
    simp [hrestore, hends'] at hends
  | @failed res u hinit hends hdone hlog' hst =>
    have hst' : u.status = .backingUp ↔ c.Forgets cfg s := by
      rw [hst, forgets_iff_of_ends hreaches hstatus hinit hends]
      simp [hdone]
    cases hcode : res.errCode with
    | error err =>
      have hcopies : c.Copies := (copies_iff_of_ends hinit hends).mpr (by simp [hcode])
      have hrelease := sameMain_releaseTemp u
      exact .failed (fun _ => hcopies) (hrelease.log.trans (hlog'.trans hlog))
        (hrelease.status ▸ hst')
    | ok =>
      obtain ⟨-, hstatus', hmem⟩ := finishExchange_spec cfg c u
      refine .uncopied hreaches (fun h => (copies_iff_of_ends hinit hends).mp h hcode)
        (fun d hd => ?_) (hstatus'.symm ▸ hst')
      rwa [hmem, hlog', hlog] at hd
  | @copied ret u d hinit hends hmem hcontents hst =>
    have hcopies : c.Copies := by
      rw [copies_iff_of_ends hinit hends]
      simp [BackupEnd.errCode, errNo_eq_ok, sqliteDone, sqliteRow]
    have hst' : u.status = .backingUp ↔ c.Forgets cfg s := by
      rw [hst, forgets_iff_of_ends hreaches hstatus hinit hends]
      simp
    cases ret with
    | error err =>
      have hrelease := sameMain_releaseTemp u
      exact .copied hcopies (by rw [hrelease.log]; exact hmem) nofun (hrelease.status ▸ hst')
    | ok =>
      obtain ⟨hsides, hstatus', hmem'⟩ := finishExchange_spec cfg c u
      exact .copied hcopies ((hmem' d).mpr hmem) (fun h => (hsides _).trans (hcontents h))
        (hstatus'.symm ▸ hst')

theorem exchangeCopy_unconnected (h : t.connected = false) :
    c.exchangeCopy cfg t = none := by
  simp [exchangeCopy, sqliteNativeBackup, h]

theorem not_forgets (hno : ¬ c.Reaches cfg s)
    (h : c.copiesCorrupted → c.openMasterBackup.Opens cfg ∧
      (c.corruptedCopy.init →
        ∀ res, c.corruptedCopy.ends false = some res → res.copyCode = .ok ())) :
    ¬ c.Forgets cfg s := by
  rintro ⟨-, -, ⟨hcopies, hopens⟩ | ⟨hcopies, -, hquiet, res, hends, hcode⟩ | hall⟩
  · exact hopens (h hcopies).1
  · exact hcode ((h hcopies).2 hquiet.1 res hends)
  · exact hno hall.1

theorem exchangeCopy_cases_of_corrupted {u : ReplicaStore D} (hverified : c.Verified cfg s)
    (hcopies : c.copiesCorrupted) (hopens : c.openMasterBackup.Opens cfg)
    (hconn : t.connected) (hlog : u.log = s.log)
    (hconn' : u.connected = (t.connected && c.openMasterBackup.first.isNone))
    (hstatus : u.status = .backingUp ↔ c.corruptedCopy.Unsignalled)
    (hended : c.corruptedCopy.init →
      ∃ res, c.corruptedCopy.ends false = some res ∧ res.copyCode = .ok ()) :
    Exchanged cfg c s (c.exchangeCopy cfg u) := by
  obtain ⟨⟨hrestore, hverify⟩, -⟩ : (c.isRestore ∧ c.verifyDb) ∧ _ := by
    simpa [copiesCorrupted] using hcopies
  -- the slave is still connected only if the third file was opened at the first attempt
  cases hfirst : c.openMasterBackup.first with
  | none =>
    refine exchangeCopy_cases ⟨hverified, by simp [hverify], fun _ => ⟨hfirst, hended⟩⟩ ?_
      hlog (by simp [hrestore]) fun _ => by simp [hstatus, hcopies]
    simp [hconn', hconn, hfirst]
  | some err =>
    have hno : ¬ c.Reaches cfg s := fun h => by simpa [hfirst] using (h.2.2 hcopies).1
    rw [exchangeCopy_unconnected (by simp [hconn', hfirst])]
    refine .lost (fun h => absurd h hno)
      (not_forgets hno fun _ => ⟨hopens, fun hinit res hends => ?_⟩)
    obtain ⟨res', hends', hcode⟩ := hended hinit
    rw [hends] at hends'
    cases hends'
    exact hcode

theorem exchangeCorrupted_cases (hverified : c.Verified cfg s)
    (hcopies : c.copiesCorrupted) (hconn : t.connected) (hlog : t.log = s.log)
    (hstatus : t.status = .backingUp) :
    Exchanged cfg c s (match c.sqliteNativeCorruptedBackup cfg t with
      | none => none
      | some (.error err, s) => some (.error err, s.releaseTempSlaveConnection)
      | some (.ok (), s) => c.exchangeCopy cfg s) := by
  obtain ⟨⟨hrestore, -⟩, -⟩ : (c.isRestore ∧ _) ∧ _ := by
    simpa [copiesCorrupted] using hcopies
  have hcorrupted := sqliteNativeCorruptedBackup_cases cfg c t
  generalize c.sqliteNativeCorruptedBackup cfg t = out at hcorrupted
  cases hcorrupted with
  | @refused err u hopens hmain =>
    have hrelease := sameMain_releaseTemp u
    refine .failed (fun h => absurd (.inl (h.2.2 hcopies).1) hopens)
      (hrelease.log.trans (hmain.log.trans hlog)) ?_
    rw [hrelease.status, hmain.status, hstatus]
    simp only [true_iff]
    exact ⟨hrestore, hverified, .inl ⟨hcopies, hopens⟩⟩
  | skipped hopens hinit hlog' hconn' hst =>
    exact exchangeCopy_cases_of_corrupted hverified hcopies hopens hconn (hlog'.trans hlog) hconn'
      (by simp [hst, Unsignalled, hinit]) (by simp [hinit])
  | endless hopens hinit hends =>
    have hno : ¬ c.Reaches cfg s := fun h => by
      obtain ⟨res, hends', -⟩ := (h.2.2 hcopies).2 hinit
      simp [hends] at hends'
    exact .lost (fun h => absurd h hno) (not_forgets hno fun _ => ⟨hopens, by simp [hends]⟩)
  | @ended res u hopens hinit hends hlog' hconn' hst =>
    have hst' : u.status = .backingUp ↔ c.corruptedCopy.Unsignalled := by
      simp [hst, hstatus, Unsignalled, hinit]
    cases hcode : res.copyCode with
    | ok =>
      exact exchangeCopy_cases_of_corrupted hverified hcopies hopens hconn (hlog'.trans hlog) hconn'
        hst' fun _ => ⟨res, hends, hcode⟩
    | error err =>
      have hno : ¬ c.Reaches cfg s := fun h => by
        obtain ⟨res', hends', hcode'⟩ := (h.2.2 hcopies).2 hinit
        rw [hends] at hends'
        cases hends'
        simp [hcode] at hcode'
      have hrelease := sameMain_releaseTemp u
      refine .failed (fun h => absurd h hno) (hrelease.log.trans (hlog'.trans hlog)) ?_
      rw [hrelease.status, hst']
      constructor
      · exact fun hquiet => ⟨hrestore, hverified,
          .inr (.inl ⟨hcopies, hopens, hquiet, res, hends, by simp [hcode]⟩)⟩
      · rintro ⟨-, -, ⟨-, hopens'⟩ | ⟨-, -, hquiet, -⟩ | hall⟩
        · exact absurd hopens hopens'
        · exact hquiet
        · exact absurd hall.1 hno

theorem exchangeSlaverToMaster_cases (cfg : ReplicaConfig) (c : ExchangeCall D)
    (s : ReplicaStore D) : Exchanged cfg c s (c.exchangeSlaverToMaster cfg s) := by
  unfold exchangeSlaverToMaster
  cases hverify : c.verifyDb with
  | false =>
    have hcopies : c.copiesCorrupted = false := by simp [copiesCorrupted, hverify]
    have hverified : c.Verified cfg s := by simp [Verified, hverify]
    simp only [hcopies, Bool.false_eq_true, ↓reduceIte]
    by_cases hconn : s.connected
    · exact exchangeCopy_cases ⟨hverified, fun _ => hconn, by simp [hcopies]⟩ hconn rfl
        (fun _ => rfl) fun _ => by simp [hcopies]
    · have hno : ¬ c.Reaches cfg s := fun h => hconn (h.2.1 hverify)
      rw [exchangeCopy_unconnected (by simpa using hconn)]
      exact .lost (fun h => absurd h hno) (not_forgets hno (by simp [hcopies]))
  | true =>
    simp only [↓reduceIte]
    rcases hver : c.exchangeVerify cfg { s with status := .backingUp } with ⟨ret, t⟩
    obtain ⟨hmain, hok, hconn⟩ := exchangeVerify_spec hverify hver
    have hverified : ret = .ok () ↔ c.Verified cfg s := hok
    cases ret with
    | error err =>
      have hno : ¬ c.Verified cfg s := by simp [← hverified]
      refine .failed (fun h => absurd h.1 hno) ((sameMain_releaseTemp t).log.trans hmain.log) ?_
      exact ⟨nofun, fun h => absurd h.2.1 hno⟩
    | ok =>
      cases hcopies : c.copiesCorrupted with
      | true =>
        exact exchangeCorrupted_cases (hverified.mp rfl) hcopies (hconn rfl) hmain.log hmain.status
      | false =>
        refine exchangeCopy_cases ⟨hverified.mp rfl, by simp [hverify], by simp [hcopies]⟩
          (hconn rfl) hmain.log (fun _ => hmain.status) fun _ => ?_
        simpa [hcopies] using hmain.status

end ExchangeCall

/-! ## What the result stands for -/

def ReplicaStore.HoldsCopy (t : ReplicaStore D) (dest : Side) : Prop :=
  ∃ d, .copied d ∈ t.log ∧ t.contents dest = d

/-- `E_OK` stands for a copy that was made, and so does a slave that was declared valid. -/
def Truthful (dest : Side) (out : Option (ReplicaResult D)) : Prop :=
  ∀ ret t, out = some (ret, t) →
    (ret = .ok () → t.HoldsCopy dest) ∧ (.setSlaveValid ∈ t.log → ∃ d, .copied d ∈ t.log)

namespace ExchangeCall
variable {cfg : ReplicaConfig} {c : ExchangeCall D} {s : ReplicaStore D}

theorem Exchanged.truthful_iff (h : Exchanged cfg c s out) (hlog : ∀ d, .copied d ∉ s.log)
    (hvalid : .setSlaveValid ∉ s.log) :
    Truthful (destOf c.isRestore) out ↔ (c.Reaches cfg s → c.Copies) := by
  cases h with
  | lost hcopies _ => exact ⟨fun _ => hcopies, fun _ _ _ heq => nomatch heq⟩
  | failed hcopies hsame _ =>
    refine ⟨fun _ => hcopies, fun _ ret t heq => ?_⟩
    cases heq
    exact ⟨nofun, fun hmem => absurd (hsame ▸ hmem) hvalid⟩
  | uncopied hreaches hno hnone _ =>
    refine ⟨fun htrue => ?_, fun hcopies => absurd (hcopies hreaches) hno⟩
    obtain ⟨d, hmem, -⟩ := (htrue _ _ rfl).1 rfl
    exact absurd (hnone d hmem) (hlog d)
  | copied hcopies hmem hcontents _ =>
    refine ⟨fun _ _ => hcopies, fun _ ret t heq => ?_⟩
    cases heq
    exact ⟨fun hret => ⟨_, hmem, hcontents hret⟩, fun _ => ⟨_, hmem⟩⟩

theorem status_ne_backingUp_iff (cfg : ReplicaConfig) (c : ExchangeCall D) (s : ReplicaStore D) :
    (∀ ret t, c.exchangeSlaverToMaster cfg s = some (ret, t) → t.status ≠ .backingUp) ↔
      ¬ c.Forgets cfg s := by
  have hcases := exchangeSlaverToMaster_cases cfg c s
  generalize c.exchangeSlaverToMaster cfg s = out at hcases
  cases hcases with
  | lost _ hnot => exact ⟨fun _ => hnot, fun _ _ _ heq => nomatch heq⟩
  | failed _ _ hstatus | uncopied _ _ _ hstatus | copied _ _ _ hstatus =>
    rw [← hstatus]
    refine ⟨fun h => h _ _ rfl, fun h ret t heq => ?_⟩
    cases heq
    exact h

def smooth (isRestore : Bool) : ExchangeCall D where
  isRestore
  verifyDb := true
  isForceRestore := false
  mainExists := true
  quickCheck := .ok "ok"
  replayed := none
  openSlave := ⟨none, none⟩
  queries := ⟨.ok 1, .ok 1, 0, some 4096, .ok "ok"⟩
  mainTables := .ok 1
  mainVersion := .ok 1
  slaveVersion := .ok 1
  openMasterBackup := ⟨none, none⟩
  corruptedCopy := ⟨true, [⟨none, none, sqliteDone, 1⟩]⟩
  copy := ⟨true, [⟨none, none, sqliteDone, 1⟩]⟩
  checkpoint := ⟨none, none⟩
  cleansBinlog := true
  marks := true

theorem not_status_of_ioerr :
    ∃ t : ReplicaStore Nat, exchangeSlaverToMaster ⟨.mainReplica, false, false⟩
        { smooth true with copy := ⟨true, [⟨none, none, 10, 1⟩]⟩ }
        ⟨some 1, some 2, true, false, false, false, .undefined, []⟩ =
          some (.error .sqliteIoerr, t) ∧ t.status = .backingUp ∧
      ∀ cfg c o, backup cfg c o t = some (.ok (), t) :=
  ⟨⟨some 1, some 2, true, false, false, false, .backingUp, []⟩, rfl, rfl, fun _ _ _ => rfl⟩

end ExchangeCall

end RelationalStore
