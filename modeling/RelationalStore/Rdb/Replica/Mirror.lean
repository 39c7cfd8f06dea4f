import RelationalStore.Rdb.Errno
import RelationalStore.Theory.Run

/-! # Mirrored statements

Each statement of the writer has a second one on the slave, which repeats what the first one did. -/

namespace RelationalStore

structure SqlSemantics (Sql Args D : Type) where
  exec : Sql → Args → D → D
  rows : Sql → Args → D → Nat
  returned : Sql → Args → D → Nat
  noArgs : Args

/-- A statement that never changes the database. -/
def SqlSemantics.ReadOnly {Sql Args D : Type} (sem : SqlSemantics Sql Args D) (sql : Sql) : Prop :=
  ∀ args db, sem.exec sql args db = db

inductive VmPhase where
  | ready
  | rows (left : Nat)
  | done
  deriving DecidableEq

structure Vm (Sql Args : Type) where
  sql : Sql
  returning : Bool
  args : Args
  phase : VmPhase

structure StepFault (D : Type) where
  err : RdbError
  leaves : D

inductive VmAnswer where
  | row
  | done
  | failed (err : RdbError)

structure MirroredStmt (Sql Args : Type) where
  main : Vm Sql Args
  slave : Option (Vm Sql Args)

structure SlaveOutcome (ε : Type) where
  err : Option ε
  marks : Bool

structure Replica (Sql Args D : Type) where
  main : D
  slave : D
  invalid : Bool
  stmts : Nat → Option (MirroredStmt Sql Args)

inductive MirrorCall (Sql Args D : Type) where
  | create (id : Nat) (sql : Sql) (returning : Bool) (err : Option RdbError)
      (slave : SlaveOutcome RdbError)
  | prepare (id : Nat) (sql : Sql) (err : Option RdbError) (slave : SlaveOutcome RdbError)
  | bind (id : Nat) (args : Args) (err : Option RdbError) (slave : SlaveOutcome RdbError)
  | execute (id : Nat) (args : Args) (err : Option (StepFault D))
      (slave : SlaveOutcome (StepFault D))
  | executeForValue (id : Nat) (args : Args) (err : Option (StepFault D))
      (column : Option RdbError) (slave : SlaveOutcome (StepFault D))
  | executeForRows (id : Nat) (args : Args) (hasColumns : Bool)
      (err rowsErr : Option (StepFault D)) (slave : SlaveOutcome (StepFault D))
  | step (id : Nat) (err : Option (StepFault D)) (slave : SlaveOutcome (StepFault D))
  | reset (id : Nat)
  | finalize (id : Nat)

variable {Sql Args D : Type}

namespace Vm

def bind (vm : Vm Sql Args) (args : Args) : Vm Sql Args := { vm with args, phase := .ready }

def reset (vm : Vm Sql Args) : Vm Sql Args := { vm with phase := .ready }

def step (sem : SqlSemantics Sql Args D) (vm : Vm Sql Args) (db : D) :
    Option (StepFault D) → VmAnswer × Vm Sql Args × D
  | some fault => (.failed fault.err, vm.reset, fault.leaves)
  | none =>
    match vm.phase with
    | .rows (left + 1) => (.row, { vm with phase := .rows left }, db)
    | .rows 0 => (.done, { vm with phase := .done }, db)
    | .ready | .done =>
      match (if vm.returning then sem.returned else sem.rows) vm.sql vm.args db with
      | left + 1 => (.row, { vm with phase := .rows left }, sem.exec vm.sql vm.args db)
      | 0 => (.done, { vm with phase := .done }, sem.exec vm.sql vm.args db)

def prepare [DecidableEq Sql] (sem : SqlSemantics Sql Args D) (vm : Vm Sql Args) (sql : Sql)
    (err : Option RdbError) : Except RdbError (Vm Sql Args) :=
  if vm.sql = sql ∧ vm.returning = false then .ok vm
  else
    match err with
    | some err => .error err
    | none => .ok ⟨sql, false, sem.noArgs, .ready⟩

end Vm

namespace Replica

variable (s : Replica Sql Args D)

def put (id : Nat) (st : MirroredStmt Sql Args) : Replica Sql Args D :=
  { s with stmts := Function.update s.stmts id (some st) }

def setSlaveInvalid (marks : Bool) : Replica Sql Args D :=
  { s with invalid := s.invalid || marks }

variable (sem : SqlSemantics Sql Args D)

def create (s : Replica Sql Args D) (id : Nat) (sql : Sql)
    (returning : Bool) (err : Option RdbError) (slave : SlaveOutcome RdbError) :
    Except RdbError Unit × Replica Sql Args D :=
  match err with
  | some err => (.error err, s)
  | none =>
    let main : Vm Sql Args := ⟨sql, returning, sem.noArgs, .ready⟩
    match slave.err with
    | some _ => (.ok (), (s.put id ⟨main, none⟩).setSlaveInvalid slave.marks)
    | none => (.ok (), s.put id ⟨main, some ⟨sql, false, sem.noArgs, .ready⟩⟩)

def prepare [DecidableEq Sql] (sem : SqlSemantics Sql Args D) (s : Replica Sql Args D) (id : Nat)
    (st : MirroredStmt Sql Args) (sql : Sql) (err : Option RdbError)
    (slave : SlaveOutcome RdbError) : Except RdbError Unit × Replica Sql Args D :=
  match st.main.prepare sem sql err with
  | .error err => (.error err, s)
  | .ok main =>
    match st.slave with
    | none => (.ok (), s.put id ⟨main, none⟩)
    | some sv =>
      match sv.prepare sem sql slave.err with
      | .error _ => (.ok (), (s.put id ⟨main, sv⟩).setSlaveInvalid slave.marks)
      | .ok sv => (.ok (), s.put id ⟨main, sv⟩)

def bind (s : Replica Sql Args D) (id : Nat) (st : MirroredStmt Sql Args) (args : Args)
    (err : Option RdbError) (slave : SlaveOutcome RdbError) :
    Except RdbError Unit × Replica Sql Args D :=
  match err with
  | some err => (.error err, s)
  | none =>
    match st.slave, slave.err with
    | some sv, some _ => (.ok (), (s.put id ⟨st.main.bind args, sv⟩).setSlaveInvalid slave.marks)
    | some sv, none => (.ok (), s.put id ⟨st.main.bind args, sv.bind args⟩)
    | none, _ => (.ok (), s.put id ⟨st.main.bind args, none⟩)

def executeSlave (s : Replica Sql Args D) (id : Nat)
    (st : MirroredStmt Sql Args) (args : Args) (slave : SlaveOutcome (StepFault D)) :
    Replica Sql Args D :=
  match st.slave with
  | none => s
  | some sv =>
    match (sv.bind args).step sem s.slave slave.err with
    | (.failed _, sv, db) =>
      ({ s with slave := db }.put id ⟨st.main, sv⟩).setSlaveInvalid slave.marks
    | (_, sv, db) => { s with slave := db }.put id ⟨st.main, sv⟩

def execute (s : Replica Sql Args D) (id : Nat)
    (st : MirroredStmt Sql Args) (args : Args) (err : Option (StepFault D))
    (slave : SlaveOutcome (StepFault D)) : Except RdbError Unit × Replica Sql Args D :=
  match (st.main.bind args).step sem s.main err with
  | (.failed err, main, db) => (.error err, { s with main := db }.put id ⟨main, st.slave⟩)
  | (_, main, db) =>
    (.ok (), ({ s with main := db }.put id ⟨main, st.slave⟩).executeSlave sem id ⟨main, st.slave⟩
      args slave)

def executeForRows (s : Replica Sql Args D) (id : Nat)
    (st : MirroredStmt Sql Args) (args : Args) (hasColumns : Bool)
    (err rowsErr : Option (StepFault D)) (slave : SlaveOutcome (StepFault D)) :
    Except RdbError Unit × Replica Sql Args D :=
  if hasColumns = false then s.execute sem id st args err slave
  else
    match (st.main.bind args).step sem s.main err with
    | (.failed err, main, db) => (.error err, { s with main := db }.put id ⟨main, st.slave⟩)
    | (_, main, db) =>
      let s := { s with main := db }.put id ⟨main.reset, st.slave⟩
      match rowsErr with
      | some fault => (.error fault.err, { s with main := fault.leaves })
      | none => (.ok (), s.executeSlave sem id ⟨main.reset, st.slave⟩ args slave)

def stepStmt (s : Replica Sql Args D) (id : Nat)
    (st : MirroredStmt Sql Args) (err : Option (StepFault D))
    (slave : SlaveOutcome (StepFault D)) : Except RdbError Unit × Replica Sql Args D :=
  match st.main.step sem s.main err with
  | (.failed err, main, db) => (.error err, { s with main := db }.put id ⟨main, st.slave⟩)
  | (.done, main, db) => (.error .noMoreRows, { s with main := db }.put id ⟨main, st.slave⟩)
  | (.row, main, db) =>
    match st.slave with
    | none => (.ok (), { s with main := db }.put id ⟨main, none⟩)
    | some sv =>
      match sv.step sem s.slave slave.err with
      | (_, sv, slaveDb) => (.ok (), { s with main := db, slave := slaveDb }.put id ⟨main, sv⟩)

def onStmt (id : Nat)
    (f : MirroredStmt Sql Args → Except RdbError Unit × Replica Sql Args D) :
    Except RdbError Unit × Replica Sql Args D :=
  match s.stmts id with
  | none => (.error .error, s)
  | some st => f st

def call [DecidableEq Sql] (s : Replica Sql Args D) :
    MirrorCall Sql Args D → Except RdbError Unit × Replica Sql Args D
  | .create id sql returning err slave => s.create sem id sql returning err slave
  | .prepare id sql err slave => s.onStmt id fun st => s.prepare sem id st sql err slave
  | .bind id args err slave => s.onStmt id fun st => s.bind id st args err slave
  | .execute id args err slave => s.onStmt id fun st => s.execute sem id st args err slave
  | .executeForValue id args err column slave => s.onStmt id fun st =>
    match s.execute sem id st args err slave, column with
    | (.ok (), s), some err => (.error err, s)
    | answer, _ => answer
  | .executeForRows id args hasColumns err rowsErr slave => s.onStmt id fun st =>
    s.executeForRows sem id st args hasColumns err rowsErr slave
  | .step id err slave => s.onStmt id fun st => s.stepStmt sem id st err slave
  | .reset id => s.onStmt id fun st =>
    (.ok (), s.put id ⟨st.main.reset, st.slave.map (·.reset)⟩)
  | .finalize id => (.ok (), { s with stmts := Function.update s.stmts id none })

end Replica

variable (s : Replica Sql Args D)

/-- No statement is between two of its rows. -/
def Replica.Quiet : Prop :=
  ∀ id st, s.stmts id = some st →
    (∀ left, st.main.phase ≠ .rows left) ∧ ∀ sv ∈ st.slave, ∀ left, sv.phase ≠ .rows left

/-- The slave may be restored from, or it is marked. -/
def Replica.Faithful : Prop := s.slave = s.main ∨ s.invalid

/-- The marker file can be created when the call needs it. -/
def MirrorCall.Marks : MirrorCall Sql Args D → Prop
  | .create _ _ _ _ slave | .prepare _ _ _ slave | .bind _ _ _ slave | .execute _ _ _ slave
  | .executeForValue _ _ _ _ slave | .executeForRows _ _ _ _ _ slave => slave.marks
  | .step _ _ _ | .reset _ | .finalize _ => True

/-- A statement that fails leaves the database as it was. -/
def Keeps (db : D) (err : Option (StepFault D)) : Prop := ∀ fault ∈ err, fault.leaves = db

/-- A statement that fails on the main database leaves it as it was, also when only its rows cannot
be fetched. `Step` is used for statements that only read, on either side. -/
def MirrorCall.Mirrored (sem : SqlSemantics Sql Args D) (s : Replica Sql Args D) :
    MirrorCall Sql Args D → Prop
  | .execute _ _ err _ | .executeForValue _ _ err _ _ => Keeps s.main err
  | .executeForRows _ _ hasColumns err rowsErr _ =>
    Keeps s.main err ∧ (hasColumns → err = none → Keeps s.main rowsErr)
  | .step id err slave => Keeps s.main err ∧ Keeps s.slave slave.err ∧
    ∀ st, s.stmts id = some st → sem.ReadOnly st.main.sql
  | _ => True

def MirroredStmt.Paired (st : MirroredStmt Sql Args) : Prop :=
  ∃ sv, st.slave = some sv ∧ sv.sql = st.main.sql

def Replica.Synced : Prop :=
  s.invalid ∨ s.slave = s.main ∧ ∀ id st, s.stmts id = some st → st.Paired

namespace Vm
variable {sem : SqlSemantics Sql Args D} {vm : Vm Sql Args} {db : D}

@[simp] theorem step_sql (vm : Vm Sql Args) (sem : SqlSemantics Sql Args D) (db : D)
    (err : Option (StepFault D)) : (vm.step sem db err).2.1.sql = vm.sql := by
  unfold step
  (repeat' split) <;> rfl

theorem step_readOnly (vm : Vm Sql Args) (hkeeps : Keeps db err) (h : sem.ReadOnly vm.sql) :
    (vm.step sem db err).2.2 = db := by
  unfold step
  (repeat' split) <;> first | rfl | exact h _ _ | exact hkeeps _ rfl

theorem step_bind (vm : Vm Sql Args) (sem : SqlSemantics Sql Args D) (args : Args) (db : D)
    (err : Option (StepFault D)) :
    (∃ fault, err = some fault ∧
      (vm.bind args).step sem db err = (.failed fault.err, vm.bind args, fault.leaves)) ∨
    err = none ∧ ∃ answer vm', (∀ e, answer ≠ .failed e) ∧ vm'.sql = vm.sql ∧
      (vm.bind args).step sem db err = (answer, vm', sem.exec vm.sql args db) := by
  cases err with
  | some fault => exact .inl ⟨fault, rfl, rfl⟩
  | none =>
    refine .inr ⟨rfl, ((vm.bind args).step sem db none).1, ((vm.bind args).step sem db none).2.1,
      ?_, step_sql _ _ _ _, ?_⟩
    · intro e
      simp only [step, bind]
      split <;> nofun
    · simp only [step, bind]
      split <;> rfl

theorem prepare_sql [DecidableEq Sql] {sql : Sql} (h : vm.prepare sem sql err = .ok vm') :
    vm'.sql = sql := by
  unfold prepare at h
  split at h
  next hsame =>
    cases h
    exact hsame.1
  next =>
    split at h
    · cases h
    · cases h
      rfl

end Vm

namespace Replica
variable {sem : SqlSemantics Sql Args D} {s : Replica Sql Args D} {id : Nat} {args : Args}
  {st : MirroredStmt Sql Args} {err : Option (StepFault D)} {slave : SlaveOutcome (StepFault D)}

theorem put_stmts : (s.put id st).stmts id' = if id' = id then some st else s.stmts id' :=
  Function.update_apply ..

theorem setSlaveInvalid_synced {marks : Bool} (hmarks : marks) :
    (s.setSlaveInvalid marks).Synced :=
  .inl (by simp [setSlaveInvalid, hmarks])

theorem paired_put (h : ∀ id st, s.stmts id = some st → st.Paired) (hst : st.Paired) :
    ∀ id' st', (s.put id st).stmts id' = some st' → st'.Paired := by
  intro id' st' hst'
  rw [put_stmts] at hst'
  split at hst'
  · cases hst'
    exact hst
  · exact h id' st' hst'

theorem Synced.put (h : s.Synced) (hst : st.Paired) : (s.put id st).Synced :=
  h.imp (fun hinvalid => hinvalid) fun ⟨heq, hstmts⟩ => ⟨heq, paired_put hstmts hst⟩

theorem executeSlave_synced (hstmts : ∀ id st, s.stmts id = some st → st.Paired)
    (hst : st.Paired) (hmain : s.main = sem.exec st.main.sql args s.slave) (hmarks : slave.marks) :
    (s.executeSlave sem id st args slave).Synced := by
  obtain ⟨sv, hslave, hsql⟩ := hst
  unfold executeSlave
  rw [hslave]
  rcases sv.step_bind sem args s.slave slave.err with
    ⟨e, -, hstep⟩ | ⟨-, answer, sv', hanswer, hsv, hstep⟩
  · simp only [hstep]
    exact setSlaveInvalid_synced hmarks
  · simp only [hstep]
    cases answer with
    | failed e => exact absurd rfl (hanswer e)
    | row | done =>
      refine .inr ⟨?_, paired_put hstmts ⟨sv', rfl, hsv.trans hsql⟩⟩
      rw [hsql]
      exact hmain.symm

section
variable (heq : s.slave = s.main) (hstmts : ∀ id st, s.stmts id = some st → st.Paired)
  (hst : st.Paired)
include heq hstmts hst

theorem failed_synced {main : Vm Sql Args} (hdb : db = s.main) (hsql : main.sql = st.main.sql) :
    ({ s with main := db }.put id ⟨main, st.slave⟩).Synced := by
  obtain ⟨sv, hslave, hsv⟩ := hst
  exact .inr ⟨heq.trans hdb.symm, paired_put hstmts ⟨sv, hslave, hsv.trans hsql.symm⟩⟩

theorem execute_synced (hmarks : slave.marks) (hkeeps : Keeps s.main err) :
    (s.execute sem id st args err slave).2.Synced := by
  unfold execute
  rcases st.main.step_bind sem args s.main err with
    ⟨fault, rfl, hstep⟩ | ⟨-, answer, main, hanswer, hsql', hstep⟩
  · simp only [hstep]
    exact failed_synced heq hstmts hst (hkeeps fault rfl) rfl
  · simp only [hstep]
    obtain ⟨sv, hslave, hsql⟩ := hst
    have hpaired : MirroredStmt.Paired ⟨main, st.slave⟩ := ⟨sv, hslave, hsql.trans hsql'.symm⟩
    have hsynced : (({ s with main := sem.exec st.main.sql args s.main }.put id
        ⟨main, st.slave⟩).executeSlave sem id ⟨main, st.slave⟩ args slave).Synced :=
      executeSlave_synced (paired_put hstmts hpaired) hpaired
        (by simp [Replica.put, heq, hsql']) hmarks
    cases answer with
    | failed e => exact absurd rfl (hanswer e)
    | row | done => exact hsynced

theorem executeForRows_synced (hmarks : slave.marks)
    (hkeeps : Keeps s.main err) (hrows : hasColumns = true → err = none → Keeps s.main rowsErr) :
    (s.executeForRows sem id st args hasColumns err rowsErr slave).2.Synced := by
  unfold executeForRows
  split
  · exact execute_synced heq hstmts hst hmarks hkeeps
  next hcolumns =>
    rcases st.main.step_bind sem args s.main err with
      ⟨fault, rfl, hstep⟩ | ⟨rfl, answer, main, hanswer, hsql', hstep⟩
    · simp only [hstep]
      exact failed_synced heq hstmts hst (hkeeps fault rfl) rfl
    · simp only [hstep]
      obtain ⟨sv, hslave, hsql⟩ := hst
      have hpaired : MirroredStmt.Paired ⟨main.reset, st.slave⟩ :=
        ⟨sv, hslave, hsql.trans hsql'.symm⟩
      cases answer with
      | failed e => exact absurd rfl (hanswer e)
      | row | done =>
        cases rowsErr with
        | some fault =>
          -- the slave is left behind, so that nothing may have been written
          have hdb := hrows (by simpa using hcolumns) rfl fault rfl
          exact .inr ⟨heq.trans hdb.symm, paired_put hstmts hpaired⟩
        | none =>
          exact executeSlave_synced (paired_put hstmts hpaired) hpaired
            (by simp [Replica.put, heq, Vm.reset, hsql']) hmarks

theorem stepStmt_synced (hkeeps : Keeps s.main err) (hkeeps' : Keeps s.slave slave.err)
    (hro : sem.ReadOnly st.main.sql) : (s.stepStmt sem id st err slave).2.Synced := by
  obtain ⟨sv, hslave, hsql⟩ := hst
  have hmain := st.main.step_readOnly hkeeps hro
  have hmainSql := st.main.step_sql sem s.main err
  have hslaveDb := sv.step_readOnly hkeeps' (hsql ▸ hro)
  have hslaveSql := sv.step_sql sem s.slave slave.err
  unfold stepStmt
  simp only [hslave]
  generalize st.main.step sem s.main err = run at hmain hmainSql ⊢
  generalize sv.step sem s.slave slave.err = slaveRun at hslaveDb hslaveSql ⊢
  obtain ⟨answer, main, db⟩ := run
  obtain ⟨_, sv', slaveDb⟩ := slaveRun
  dsimp only at hmain hmainSql hslaveDb hslaveSql
  subst hmain hslaveDb
  cases answer with
  | failed e => exact .inr ⟨heq, paired_put hstmts ⟨sv, rfl, hsql.trans hmainSql.symm⟩⟩
  | done => exact .inr ⟨heq, paired_put hstmts ⟨sv, rfl, hsql.trans hmainSql.symm⟩⟩
  | row =>
    exact .inr ⟨heq, paired_put hstmts ⟨sv', rfl, hslaveSql.trans (hsql.trans hmainSql.symm)⟩⟩

end

section
variable {err : Option RdbError} {slave : SlaveOutcome RdbError}

theorem create_synced (h : s.Synced) (sql : Sql) (returning : Bool) (hmarks : slave.marks) :
    (s.create sem id sql returning err slave).2.Synced := by
  unfold create
  split
  · exact h
  · split
    · exact setSlaveInvalid_synced hmarks
    · exact h.put ⟨_, rfl, rfl⟩

theorem prepare_synced [DecidableEq Sql] (h : s.Synced) (hst : st.Paired) (sql : Sql)
    (hmarks : slave.marks) :
    (s.prepare sem id st sql err slave).2.Synced := by
  obtain ⟨sv, hslave, -⟩ := hst
  unfold prepare
  simp only [hslave]
  split
  · exact h
  next main hmain =>
    split
    · exact setSlaveInvalid_synced hmarks
    next sv' hsv =>
      exact h.put ⟨sv', rfl, (Vm.prepare_sql hsv).trans (Vm.prepare_sql hmain).symm⟩

theorem bind_synced (h : s.Synced) (hst : st.Paired) (hmarks : slave.marks) :
    (s.bind id st args err slave).2.Synced := by
  obtain ⟨sv, hslave, hsql⟩ := hst
  unfold bind
  rw [hslave]
  split
  · exact h
  · split
    · exact setSlaveInvalid_synced hmarks
    next sv' hsome _ =>
      cases hsome
      exact h.put ⟨_, rfl, hsql⟩
    next hnone => cases hnone

end

theorem onStmt_ind {P : Replica Sql Args D → Prop} (h : P s)
    (hf : ∀ st, s.stmts id = some st → P (f st).2) : P (s.onStmt id f).2 := by
  unfold onStmt
  split
  · exact h
  next st hst => exact hf st hst

theorem executeSlave_invalid (h : s.invalid) :
    (s.executeSlave sem id st args slave).invalid := by
  unfold executeSlave
  (repeat' split) <;> simp [setSlaveInvalid, Replica.put, h]

theorem execute_invalid (h : s.invalid) :
    (s.execute sem id st args err slave).2.invalid := by
  unfold execute
  split
  · exact h
  · exact executeSlave_invalid h

theorem call_invalid [DecidableEq Sql] (h : s.invalid) (c : MirrorCall Sql Args D) :
    (s.call sem c).2.invalid := by
  have hon : ∀ id f, (∀ st, (f st).2.invalid) → (s.onStmt id f).2.invalid :=
    fun id f hf => onStmt_ind (P := fun s => s.invalid) h fun st _ => hf st
  cases c with
  | create id sql returning err slave =>
    simp only [call, create]
    (repeat' split) <;> simp [setSlaveInvalid, Replica.put, h]
  | prepare id sql err slave =>
    refine hon id _ fun st => ?_
    unfold prepare
    (repeat' split) <;> simp [setSlaveInvalid, Replica.put, h]
  | bind id args err slave =>
    refine hon id _ fun st => ?_
    unfold bind
    (repeat' split) <;> simp [setSlaveInvalid, Replica.put, h]
  | execute id args err slave => exact hon id _ fun st => execute_invalid h
  | executeForValue id args err column slave =>
    refine hon id _ fun st => ?_
    have hinvalid : (s.execute sem id st args err slave).2.invalid := execute_invalid h
    split
    next heq => rwa [heq] at hinvalid
    next => exact hinvalid
  | executeForRows id args hasColumns err rowsErr slave =>
    refine hon id _ fun st => ?_
    unfold executeForRows
    split
    · exact execute_invalid h
    · split
      · exact h
      · split
        · exact h
        · exact executeSlave_invalid h
  | step id err slave =>
    refine hon id _ fun st => ?_
    unfold stepStmt
    (repeat' split) <;> exact h
  | reset id => exact hon id _ fun st => h
  | finalize id => exact h

theorem Synced.call [DecidableEq Sql] (h : s.Synced) (hmarks : c.Marks)
    (hmirrored : c.Mirrored sem s) : (s.call sem c).2.Synced := by
  rcases h with hinvalid | ⟨heq, hstmts⟩
  · exact .inl (call_invalid hinvalid c)
  have h : s.Synced := .inr ⟨heq, hstmts⟩
  have hon : ∀ id f, (∀ st, s.stmts id = some st → st.Paired → (f st).2.Synced) →
      (s.onStmt id f).2.Synced :=
    fun id f hf => onStmt_ind (P := Synced) h fun st hst => hf st hst (hstmts id st hst)
  cases c with
  | create id sql returning err slave => exact create_synced h sql returning hmarks
  | prepare id sql err slave => exact hon id _ fun st _ hp => prepare_synced h hp sql hmarks
  | bind id args err slave => exact hon id _ fun st _ hp => bind_synced h hp hmarks
  | execute id args err slave =>
    exact hon id _ fun st _ hp => execute_synced heq hstmts hp hmarks hmirrored
  | executeForValue id args err column slave =>
    refine hon id _ fun st _ hp => ?_
    have hsynced : (s.execute sem id st args err slave).2.Synced :=
      execute_synced heq hstmts hp hmarks hmirrored
    split
    next heq => rwa [heq] at hsynced
    next => exact hsynced
  | executeForRows id args hasColumns err rowsErr slave =>
    refine hon id _ fun st _ hp => ?_
    exact executeForRows_synced heq hstmts hp hmarks hmirrored.1 hmirrored.2
  | step id err slave =>
    exact hon id _ fun st hst hp =>
      stepStmt_synced heq hstmts hp hmirrored.1 hmirrored.2.1 (hmirrored.2.2 st hst)
  | reset id =>
    refine hon id _ fun st _ hp => ?_
    obtain ⟨sv, hslave, hsql⟩ := hp
    exact h.put ⟨sv.reset, by simp [hslave], hsql⟩
  | finalize id =>
    refine .inr ⟨heq, fun id' st hst => ?_⟩
    dsimp only [Replica.call] at hst
    rw [Function.update_apply] at hst
    split at hst
    · cases hst
    · exact hstmts id' st hst

def opened (db : D) : Replica Sql Args D := ⟨db, db, false, fun _ => none⟩

theorem faithful_of_mirrored [DecidableEq Sql] (sem : SqlSemantics Sql Args D) (db : D)
    (calls : List (MirrorCall Sql Args D)) (hmarks : ∀ c ∈ calls, c.Marks)
    (hmirrored : ∀ t ∈ trace (call sem) (opened db) calls, t.call.Mirrored sem t.pre) :
    ∀ t ∈ trace (call sem) (opened db) calls, t.post.Quiet → t.post.Faithful := by
  refine trace_forall (I := Synced) (G := fun s c => c.Marks ∧ c.Mirrored sem s)
    (P := fun t => t.post.Quiet → t.post.Faithful) (fun s c hs hc => ?_) (.inr ⟨rfl, nofun⟩)
    fun t ht => ⟨hmarks _ (call_mem_of_mem_trace ht), hmirrored t ht⟩
  have hnext := hs.call hc.1 hc.2
  exact ⟨hnext, fun _ => hnext.symm.imp_left And.left⟩

end Replica

def SqlSemantics.adding : SqlSemantics Nat Unit Nat := ⟨fun k _ db => db + k, fun _ _ _ => 0,
  fun _ _ _ => 1, ()⟩

namespace Replica

theorem faithful_of_mirrored_refused :
    SqlSemantics.adding.ReadOnly 0 ∧
      ∀ t ∈ trace (call .adding) (opened 0) [.create 0 5 false none ⟨none, true⟩,
          .execute 0 () (some ⟨.sqliteBusy, 0⟩) ⟨none, true⟩,
          .execute 0 () none ⟨some ⟨.sqliteBusy, 3⟩, true⟩, .create 1 0 false none ⟨none, true⟩,
          .step 1 none ⟨none, true⟩],
        t.post.Quiet → t.post.Faithful := by
  refine ⟨fun args db => rfl, faithful_of_mirrored .adding 0 _ (by simp [MirrorCall.Marks]) ?_⟩
  simp only [trace, List.forall_mem_cons]
  refine ⟨trivial, ?_, ?_, trivial, ⟨?_, ?_, fun st hst args db => ?_⟩, List.forall_mem_nil _⟩ <;>
    first | rintro _ ⟨⟩ | cases hst
  all_goals rfl

theorem not_faithful_of_step :
    ¬ ∀ t ∈ trace (call .adding) (opened 0) [.create 0 5 false none ⟨none, true⟩,
        .step 0 none ⟨none, true⟩], t.post.Quiet → t.post.Faithful := by
  intro h
  have hlast := h _ (List.mem_cons_of_mem _ List.mem_cons_self) (fun id st hst => ?_)
  · rcases hlast with hdb | hmark
    · exact absurd hdb (by decide)
    · exact absurd hmark (by decide)
  · match id, hst with
    | 0, hst =>
      cases hst
      exact ⟨nofun, by rintro sv ⟨⟩; exact nofun⟩

end Replica

end RelationalStore
