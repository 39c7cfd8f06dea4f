import RelationalStore.Rdb.Replica.Exchange

/-! # Repairing the main database

`Repair` deletes a main database that could not be opened and restores it from the slave. -/

namespace RelationalStore

open RepairCall
variable {D : Type}

def BinlogReplay.isOverLimit : BinlogReplay D → Bool
  | .overLimit => true
  | _ => false

namespace RepairCall
variable (cfg : ReplicaConfig) (r : RepairCall D) (s : ReplicaStore D)

def invalidAtVerify : Bool :=
  s.invalid || (r.openSlave.first.isSome && r.marks) ||
    (cfg.isSupportBinlog && r.replay.isOverLimit && cfg.haMode = .manualTrigger && r.marks)

/-- The call comes to delete the main database. -/
def Deletes : Prop :=
  r.slaveExists ∧ r.openSlave.Opens cfg ∧
    r.queries.Passes cfg false (r.invalidAtVerify cfg s) s.interrupted

/-- The call comes to the restore, with a connection to the slave. -/
def Restores : Prop :=
  r.Deletes cfg s ∧ r.reopen = none ∧ r.checkpoint.slaveErr ≠ some .sqliteCorrupt

end RepairCall

namespace RepairCall
open ReplicaStore
variable {cfg : ReplicaConfig} {r : RepairCall D} {s t : ReplicaStore D}

theorem beforeVerify_spec (cfg : ReplicaConfig) (r : RepairCall D) (t : ReplicaStore D) :
    (r.beforeVerify cfg t).connected ∧ (r.beforeVerify cfg t).log = t.log ∧
      (r.beforeVerify cfg t).interrupted = t.interrupted ∧
      (r.beforeVerify cfg t).invalid = (t.invalid ||
        (cfg.isSupportBinlog && r.replay.isOverLimit && cfg.haMode = .manualTrigger &&
          r.marks)) := by
  unfold beforeVerify
  cases cfg.isSupportBinlog with
  | false => simp
  | true =>
    cases hreplay : r.replay with
    | skipped | replayed => simp [replayBinlog, BinlogReplay.isOverLimit]
    | overLimit =>
      by_cases hmode : cfg.haMode = .manualTrigger <;>
        simp [replayBinlog, BinlogReplay.isOverLimit, hmode, setSlaveInvalid]

theorem repairVerify_spec (h : r.repairVerify cfg s = res) :
    res.2.log = s.log ∧ (res.1 = .ok () ↔ r.Deletes cfg s) ∧
      (res.1 = .ok () → res.2.connected) := by
  unfold repairVerify at h
  unfold Deletes
  cases hexists : r.slaveExists with
  | false =>
    simp only [hexists, Bool.not_false, ↓reduceIte] at h
    subst h
    simp [unconnected]
  | true =>
    simp only [hexists, Bool.not_true, Bool.false_eq_true, ↓reduceIte] at h
    rcases hcreate : s.unconnected.createSlaveConnection cfg r.marks .slave r.openSlave
      with ⟨ret, t⟩
    obtain ⟨hmain, hint, hopens, hstate⟩ := createSlaveConnection_spec hcreate
    rw [hcreate] at h
    cases ret with
    | error err =>
      subst h
      exact ⟨hmain.log, by simp [← hopens], nofun⟩
    | ok =>
      obtain ⟨hconn, hlog, hint', hinv⟩ := beforeVerify_spec cfg r t
      obtain ⟨hmain', hok, hstate'⟩ := verifySlaveIntegrity_spec h
      refine ⟨hmain'.log.trans (hlog.trans hmain.log), ?_, fun hret => (hstate' hret).1⟩
      rw [hok, hint', hint]
      simp [hconn, hopens.mp rfl, invalidAtCheck, invalidAtVerify, hinv, (hstate rfl).1,
        unconnected]

theorem connected_autoCheck {marks : Bool} (h : t.connected) :
    (t.autoCheck cfg marks o).connected ↔ o.slaveErr ≠ some .sqliteCorrupt := by
  unfold autoCheck
  by_cases herr : o.slaveErr = some .sqliteCorrupt
  · simp [h, herr, (deleteCorruptSlave_spec t cfg marks .slave).2.2.1]
  · simp [h, herr]

theorem reaches_exchangeCall : r.exchangeCall.Reaches cfg t ↔ t.connected := by
  simp [exchangeCall, ExchangeCall.Reaches, ExchangeCall.Verified, ExchangeCall.copiesCorrupted]

theorem repair_truthful_iff (cfg : ReplicaConfig) (r : RepairCall D)
    (hlog : ∀ d, .copied d ∉ s.log) (hvalid : .setSlaveValid ∉ s.log) :
    Truthful .main (r.repair cfg s) ↔ (r.Restores cfg s → r.exchangeCall.Copies) := by
  unfold repair Restores
  rcases hverify : r.repairVerify cfg s with ⟨ret, t⟩
  obtain ⟨hsame, hdeletes, hconn⟩ := repairVerify_spec hverify
  cases ret with
  | error err =>
    refine ⟨fun _ h => absurd h.1 (by simp [← hdeletes]), fun _ ret u heq => ?_⟩
    cases heq
    exact ⟨nofun, fun hmem => absurd (hsame ▸ hmem) hvalid⟩
  | ok =>
    cases hreopen : r.reopen with
    | some err =>
      refine ⟨fun _ h => by simp at h, fun _ ret u heq => ?_⟩
      cases heq
      exact ⟨nofun, fun hmem => absurd (hsame ▸ hmem) hvalid⟩
    | none =>
      have hauto := sameMain_autoCheck (t.deleteMain r.removes) cfg r.marks r.checkpoint
      have hlog' : ((t.deleteMain r.removes).autoCheck cfg r.marks r.checkpoint).log = s.log :=
        hauto.log.trans hsame
      have hexchange : Truthful .main (r.exchangeCall.exchangeSlaverToMaster cfg
          ((t.deleteMain r.removes).autoCheck cfg r.marks r.checkpoint)) ↔ _ :=
        (r.exchangeCall.exchangeSlaverToMaster_cases cfg _).truthful_iff
          (by rwa [hlog']) (by rwa [hlog'])
      have hconn' : (t.deleteMain r.removes).connected := hconn rfl
      rw [reaches_exchangeCall, connected_autoCheck hconn'] at hexchange
      simpa [← hdeletes] using hexchange

end RepairCall

def ReplicaStore.begun (s : ReplicaStore D) : ReplicaStore D := { s with log := [] }

theorem truthful_iff_copies (cfg : ReplicaConfig) :
    (∀ (c : ExchangeCall D) (s : ReplicaStore D),
      Truthful (destOf c.isRestore) (c.exchangeSlaverToMaster cfg s.begun) ↔
        (c.Reaches cfg s → c.Copies)) ∧
    ∀ (r : RepairCall D) (s : ReplicaStore D),
      Truthful .main (r.repair cfg s.begun) ↔ (r.Restores cfg s → r.exchangeCall.Copies) := by
  constructor
  · intro c s
    exact (c.exchangeSlaverToMaster_cases cfg s.begun).truthful_iff nofun nofun
  · intro r s
    exact r.repair_truthful_iff cfg nofun nofun

def RepairCall.smooth : RepairCall D where
  slaveExists := true
  openSlave := ⟨none, none⟩
  replay := .skipped
  queries := ⟨.ok 1, .ok 1, 0, some 4096, .ok "ok"⟩
  removes := true
  reopen := none
  checkpoint := ⟨none, none⟩
  restore := .smooth true
  marks := true

theorem not_truthful_of_no_handle :
    (∃ t : ReplicaStore Nat, ExchangeCall.exchangeSlaverToMaster ⟨.mainReplica, false, false⟩
        { ExchangeCall.smooth true with isForceRestore := true, copy := ⟨false, []⟩ }
        ⟨some 1, some 2, true, false, true, false, .undefined, []⟩ = some (.ok (), t) ∧
      t.main = some 1 ∧ t.slave = some 2 ∧ t.log = [.setSlaveValid]) ∧
    ∃ t : ReplicaStore Nat, repair ⟨.mainReplica, false, false⟩
        { smooth with
          restore := { ExchangeCall.smooth true with copy := ⟨false, []⟩ } }
        ⟨some 1, some 2, true, false, false, false, .undefined, []⟩ = some (.ok (), t) ∧
      t.main = none ∧ t.log = [] :=
  ⟨⟨_, rfl, rfl, rfl, rfl⟩, _, rfl, rfl, rfl⟩

/-! ## What is known of the slave when the main database is deleted -/

namespace RepairCall
variable (tables : D → Nat) (cfg : ReplicaConfig) (r : RepairCall D) (s : ReplicaStore D)

def MainEmpty : Prop := ∀ d, s.main = some d → tables d = 0

def Sound : Prop :=
  s.interrupted = false ∧ (∃ n, r.queries.slaveTables = .ok n ∧ 0 < n) ∧
    (r.queries.skipsCheck cfg false = false ∧ r.queries.integrity = .ok "ok" ∨
      slaveIntegrityCheckLimit < r.queries.slaveSize cfg ∧ MainEmpty tables s ∧
        r.invalidAtVerify cfg s = false)

def Answered : Prop :=
  (∀ err, r.queries.slaveTables ≠ .error err) ∧
    if r.queries.skipsCheck cfg false then MainEmpty tables s
    else ∀ err, r.queries.integrity ≠ .error err

end RepairCall

theorem SlaveQueries.skipsCheck_closed {cfg : ReplicaConfig} {q : SlaveQueries} :
    q.skipsCheck cfg false ↔ slaveIntegrityCheckLimit < q.slaveSize cfg := by
  simp [skipsCheck, mCount]

theorem isFoundCorrupt_eq_false :
    isFoundCorrupt check = false ↔ (∀ err, check ≠ .error err) → check = .ok "ok" := by
  cases check <;> simp [isFoundCorrupt]

theorem isCorruptOrEmpty_eq_false (h : isCorruptOrEmpty count = false) :
    (∃ n, count = .ok n ∧ 0 < n) ↔ ∀ err, count ≠ .error err := by
  cases count with
  | error err => simp
  | ok n =>
    have hn : n ≠ 0 := by simpa [isCorruptOrEmpty] using h
    simp [Nat.pos_of_ne_zero hn]

/-- A repair deletes a main database that has a table, for a slave that was not found sound. -/
def RepairCall.DeletesUnsound (queries : SlaveQueries) : Prop :=
  ({ smooth with queries }.repairVerify ⟨.mainReplica, false, false⟩
    ⟨some 1, some 2, true, false, false, false, .undefined, []⟩).1 = .ok () ∧
  ¬ Sound (fun n : Nat => n) ⟨.mainReplica, false, false⟩
    { smooth with queries } ⟨some 1, some 2, true, false, false, false, .undefined, []⟩

end RelationalStore
