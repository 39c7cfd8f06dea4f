import RelationalStore.Rdb.ConnectionPool.Init

/-! # Attaching databases

In WAL mode `Attach` first makes the pool a single writer in `TRUNCATE` mode. -/

namespace RelationalStore

open List

structure AttachStore where
  pool : ConnectionPool
  hasPool : Bool
  isReadOnly : Bool
  isVector : Bool
  isHaSingle : Bool
  isEncrypt : Bool
  isMemoryRdb : Bool
  attachedInfo : List String

structure AttachCall where
  attachName : String
  isMemoryRdb : Bool
  isEncrypt : Bool
  hasPath : Bool
  hasKey : Bool
  busy : Bool
  init : InitOutcome
  encryptAlgo : Except RdbError Unit
  statement : StmtOutcome

structure DetachCall where
  attachName : String
  busy : Bool
  init : InitOutcome
  statement : StmtOutcome

def ConnectionPool.getJournalMode (p : ConnectionPool) : JournalMode :=
  (p.configOf p.isAttach).journalMode

namespace AttachStore

variable (s : AttachStore)

def NoWriter (busy : Bool) : Prop := busy ∨ s.pool.writers.total = 0
  deriving Decidable

def executeAttach (c : AttachCall) : Except RdbError Unit :=
  if c.isEncrypt ∧ c.hasKey then
    match c.encryptAlgo, c.statement with
    | .error e, _ => .error e
    | .ok _, .noStatement _ => .error .error
    | .ok _, .failed e => .error e
    | .ok _, .done => .ok ()
  else
    match c.statement with
    | .noStatement e | .failed e => .error e
    | .done => .ok ()

def attachInner (c : AttachCall) : Except RdbError Unit × AttachStore :=
  if s.hasPool = false then (.error .alreadyClosed, s)
  else if s.NoWriter c.busy then (.error .databaseBusy, s)
  else if s.isMemoryRdb = false ∧ s.pool.getJournalMode = .wal then
    match s.pool.closeAllConnections.disableWal c.init with
    | (.error e, pool) => (.error e, { s with pool })
    | (.ok _, pool) => (executeAttach c, { s with pool })
  else (executeAttach c, s)

def attachCheck (c : AttachCall) : Option RdbError :=
  if s.isReadOnly ∨ s.isVector ∨ s.isHaSingle = false ∨ (c.isMemoryRdb ∧ c.isEncrypt) then
    some .notSupport
  else if c.hasPath = false then some .invalidFilePath
  -- an encrypted store does not attach a database that is not encrypted
  else if c.isEncrypt = false ∧ s.isEncrypt then some .notSupport
  else if c.attachName ∈ s.attachedInfo then some .attachedDatabaseExist
  else none

def attach (c : AttachCall) : Except RdbError Unit × AttachStore :=
  match s.attachCheck c with
  | some e => (.error e, s)
  | none =>
    match s.attachInner c with
    | (.error .sqliteError, s') => (.error .attachedDatabaseExist, s')
    | (.error e, s') => (.error e, s')
    | (.ok _, s') => (.ok (), { s' with attachedInfo := c.attachName :: s'.attachedInfo })

def detach (c : DetachCall) : Except RdbError Unit × AttachStore :=
  if s.isReadOnly ∨ s.isVector then (.error .notSupport, s)
  else if c.attachName ∉ s.attachedInfo then (.ok (), s)
  else if s.hasPool = false then (.error .alreadyClosed, s)
  else if s.NoWriter c.busy then (.error .databaseBusy, s)
  else
    match c.statement with
    | .noStatement e | .failed e => (.error e, s)
    | .done =>
      let s' := { s with attachedInfo := s.attachedInfo.erase c.attachName }
      if s'.attachedInfo ≠ [] then (.ok (), s')
      else if s.isMemoryRdb = false ∧ s.pool.getJournalMode = .wal then
        match s.pool.closeAllConnections.enableWal c.init with
        | (.error e, pool) => (.error e, { s' with pool })
        | (.ok _, pool) => (.ok (), { s' with pool })
      else (.ok (), s')

end AttachStore

inductive AttachStep where
  | attach (c : AttachCall)
  | detach (c : DetachCall)

namespace AttachStore

def step (s : AttachStore) : AttachStep → Except RdbError Unit × AttachStore
  | .attach c => s.attach c
  | .detach c => s.detach c

end AttachStore

namespace ConnectionPool

structure AttachMode (p : ConnectionPool) : Prop where
  isAttach : p.isAttach
  journal : p.getJournalMode = .truncate
  writers : p.writers.total = 1
  maxReader : p.maxReader = 0
  readers : p.readers.total = 0

/-- One writer, in WAL mode, and the readers of the configuration. -/
structure WalMode (p : ConnectionPool) : Prop where
  isAttach : p.isAttach = false
  journal : p.getJournalMode = .wal
  writers : p.writers.total = 1
  maxReader : p.maxReader = p.config.readConSize
  readers : p.readers.total = p.maxReader

end ConnectionPool

/-- The mode of the pool tells whether something is attached. -/
def ModeTells (s : AttachStore) : Prop :=
  (s.pool.AttachMode ↔ s.attachedInfo ≠ []) ∧ (s.attachedInfo = [] → s.pool.WalMode)

namespace ConnectionPool
variable {p p' : ConnectionPool} {o : InitOutcome}

theorem initReaders_attach (p : ConnectionPool) (opens : Nat → Except RdbError Unit) :
    p.initReaders true opens =
      (.ok (), { p with
        isAttach := true, maxReader := 0, readers := p.readers.initMembers false 0 true }) := by
  have hmax : (p.configOf true).getMaxReaders = 0 := by
    simp [configOf, PoolConfig.getMaxReaders]
  simp [initReaders, hmax, ConnPool.Container.initializeNodes, ConnPool.Container.extendNodes]

theorem disableWal_closed (hwriter : p.config.hasWriter) :
    (∃ node p', p.closeAllConnections.disableWal o = (.ok node, p') ∧ p'.config = p.config ∧
      p'.AttachMode ∧ o.config = .ok () ∧ o.writer = .ok ()) ∨
    (∃ e p', p.closeAllConnections.disableWal o = (.error e, p') ∧ p'.config = p.config ∧
      p'.writers.total = 0 ∧ ¬(o.config = .ok () ∧ o.writer = .ok ())) := by
  unfold disableWal init
  cases hconfig : o.config with
  | error e => exact .inr ⟨e, _, rfl, rfl, rfl, fun h => nomatch h.1⟩
  | ok u =>
    cases hw : p.closeAllConnections.initWriters true o.writer with
    | mk result q =>
      cases result with
      | error e =>
        obtain ⟨_, hopen, hqconfig, _, htotal, _⟩ := initWriters_error hw
        exact .inr ⟨e, q, rfl, hqconfig, htotal, fun h => nomatch h.2.symm.trans hopen⟩
      | ok node =>
        obtain ⟨hqconfig, hqreaders, htotal, _, hopen⟩ := initWriters_ok hw
        rw [if_pos (show p.closeAllConnections.config.hasWriter from hwriter)] at htotal
        simp only [initReaders_attach]
        refine .inl ⟨node, _, rfl, hqconfig, ⟨rfl, rfl, htotal, rfl, ?_⟩, trivial, hopen hwriter⟩
        simp only [ConnPool.Container.initMembers, hqreaders]
        rfl

end ConnectionPool

namespace AttachStore
variable {s : AttachStore}

def Refuses (s : AttachStore) (c : AttachCall) : Prop :=
  s.attachCheck c ≠ none ∨ s.hasPool = false ∨ s.NoWriter c.busy

def DetachesLast (s : AttachStore) (c : DetachCall) : Prop :=
  s.isReadOnly = false ∧ s.isVector = false ∧ s.hasPool ∧ ¬ s.NoWriter c.busy ∧
    c.statement = .done ∧ s.attachedInfo = [c.attachName]

theorem attach_of_refuses (h : s.Refuses c) : (s.attach c).2 = s := by
  unfold attach
  cases hcheck : s.attachCheck c with
  | some e => rfl
  | none =>
    rcases h with hne | hpool | hbusy
    · exact absurd hcheck hne
    · simp only [attachInner, if_pos hpool]
    · by_cases hpool : s.hasPool = false
      · simp only [attachInner, if_pos hpool]
      · simp only [attachInner, if_neg hpool, if_pos hbusy]

theorem attach_of_inner_error (h : ¬ s.Refuses c) (hinner : s.attachInner c = (.error e, s')) :
    (s.attach c).2 = s' := by
  have hcheck : s.attachCheck c = none := Decidable.byContradiction fun hne => h (.inl hne)
  simp only [attach, hcheck, hinner]
  split
  next heq =>
    cases heq
    rfl
  next heq =>
    cases heq
    rfl
  next heq => cases heq

theorem attach_of_inner_ok (h : ¬ s.Refuses c) (hinner : s.attachInner c = (.ok u, s')) :
    (s.attach c).2 = { s' with attachedInfo := c.attachName :: s'.attachedInfo } := by
  have hcheck : s.attachCheck c = none := Decidable.byContradiction fun hne => h (.inl hne)
  simp only [attach, hcheck, hinner]

section
variable {c : AttachCall} {pool : ConnectionPool} (h : ¬ s.Refuses c)
include h

theorem attachInner_of_switch_error (hwal : s.isMemoryRdb = false ∧ s.pool.getJournalMode = .wal)
    (hres : s.pool.closeAllConnections.disableWal c.init = (.error e, pool)) :
    s.attachInner c = (.error e, { s with pool }) := by
  simp only [Refuses, not_or] at h
  simp only [attachInner, if_neg h.2.1, if_neg h.2.2, if_pos hwal, hres]

theorem attachInner_of_switch_ok (hwal : s.isMemoryRdb = false ∧ s.pool.getJournalMode = .wal)
    (hres : s.pool.closeAllConnections.disableWal c.init = (.ok node, pool)) :
    s.attachInner c = (executeAttach c, { s with pool }) := by
  simp only [Refuses, not_or] at h
  simp only [attachInner, if_neg h.2.1, if_neg h.2.2, if_pos hwal, hres]

theorem attachInner_of_no_switch
    (hwal : ¬(s.isMemoryRdb = false ∧ s.pool.getJournalMode = .wal)) :
    s.attachInner c = (executeAttach c, s) := by
  simp only [Refuses, not_or] at h
  simp only [attachInner, if_neg h.2.1, if_neg h.2.2, if_neg hwal]

end

structure Sound (s : AttachStore) : Prop where
  journal : s.pool.config.journalMode = .wal
  writer : s.pool.config.hasWriter
  readers : 0 < s.pool.config.readConSize
  memory : s.isMemoryRdb = false
  mode : (s.attachedInfo = [] ∧ s.pool.WalMode) ∨ (s.attachedInfo ≠ [] ∧ s.pool.AttachMode)

theorem Sound.modeTells (h : s.Sound) : ModeTells s := by
  rcases h.mode with ⟨hnil, hwal⟩ | ⟨hne, hattach⟩
  · exact ⟨iff_of_false (fun ha => nomatch hwal.isAttach.symm.trans ha.isAttach)
      (not_not.mpr hnil), fun _ => hwal⟩
  · exact ⟨iff_of_true hattach hne, fun hnil => absurd hnil hne⟩

end AttachStore

def AttachStep.KeepsMode (s : AttachStore) : AttachStep → Prop
  | .attach c => s.Refuses c ∨ s.attachedInfo ≠ [] ∨
      (c.init.config = .ok () ∧ c.init.writer = .ok () ∧ AttachStore.executeAttach c = .ok ())
  | .detach c => ¬ s.DetachesLast c

namespace AttachStore
variable {s : AttachStore}

theorem Sound.attach (h : s.Sound) (c : AttachCall) :
    (AttachStep.KeepsMode s (.attach c) → (s.attach c).2.Sound) ∧
      (ModeTells (s.attach c).2 ↔ AttachStep.KeepsMode s (.attach c)) := by
  by_cases hr : s.Refuses c
  · rw [attach_of_refuses hr]
    exact ⟨fun _ => h, iff_of_true h.modeTells (.inl hr)⟩
  rcases h.mode with ⟨hnil, hwal⟩ | ⟨hne, hattach⟩
  · -- the pool is switched to attach mode before the statement is executed
    have hguard : AttachStep.KeepsMode s (.attach c) → c.init.config = .ok () ∧
        c.init.writer = .ok () ∧ executeAttach c = .ok () := fun hg =>
      (hg.resolve_left hr).resolve_left (not_not.mpr hnil)
    rcases ConnectionPool.disableWal_closed (o := c.init) h.writer with
      ⟨node, pool, hres, hconfig, hmode, hok⟩ | ⟨e, pool, hres, hconfig, hzero, hno⟩
    · have hinner := attachInner_of_switch_ok hr ⟨h.memory, hwal.journal⟩ hres
      cases hexec : executeAttach c with
      | error e =>
        have hg : ¬ AttachStep.KeepsMode s (.attach c) := fun hg =>
          nomatch (hguard hg).2.2.symm.trans hexec
        rw [attach_of_inner_error hr (hexec ▸ hinner)]
        exact ⟨fun hg' => absurd hg' hg, iff_of_false (fun hm => hm.1.mp hmode hnil) hg⟩
      | ok u =>
        rw [attach_of_inner_ok hr (hexec ▸ hinner)]
        have hsound : AttachStore.Sound
            { s with pool, attachedInfo := c.attachName :: s.attachedInfo } :=
          ⟨hconfig ▸ h.journal, hconfig ▸ h.writer, hconfig ▸ h.readers, h.memory,
            .inr ⟨cons_ne_nil _ _, hmode⟩⟩
        exact ⟨fun _ => hsound, iff_of_true hsound.modeTells (.inr (.inr ⟨hok.1, hok.2, hexec⟩))⟩
    · have hg : ¬ AttachStep.KeepsMode s (.attach c) := fun hg =>
        hno ⟨(hguard hg).1, (hguard hg).2.1⟩
      rw [attach_of_inner_error hr
        (attachInner_of_switch_error hr ⟨h.memory, hwal.journal⟩ hres)]
      refine ⟨fun hg' => absurd hg' hg, iff_of_false (fun hm => ?_) hg⟩
      exact absurd ((hm.2 hnil).writers.symm.trans hzero) (by decide)
  · have hinner := attachInner_of_no_switch hr fun hw => nomatch hw.2.symm.trans hattach.journal
    have hguard : AttachStep.KeepsMode s (.attach c) := .inr (.inl hne)
    cases hexec : executeAttach c with
    | error e =>
      rw [attach_of_inner_error hr (hexec ▸ hinner)]
      exact ⟨fun _ => h, iff_of_true h.modeTells hguard⟩
    | ok u =>
      rw [attach_of_inner_ok hr (hexec ▸ hinner)]
      have hsound : AttachStore.Sound { s with attachedInfo := c.attachName :: s.attachedInfo } :=
        ⟨h.journal, h.writer, h.readers, h.memory, .inr ⟨cons_ne_nil _ _, hattach⟩⟩
      exact ⟨fun _ => hsound, iff_of_true hsound.modeTells hguard⟩

theorem Sound.detach_cases (h : s.Sound) (c : DetachCall) :
    ((s.detach c).2 = s ∧ ¬ s.DetachesLast c) ∨
    (s.pool.AttachMode ∧
      (s.detach c).2 = { s with attachedInfo := s.attachedInfo.erase c.attachName } ∧
      (s.attachedInfo.erase c.attachName = [] ↔ s.DetachesLast c)) := by
  unfold detach
  split
  next hro => exact .inl ⟨rfl, fun hl => by simp [hl.1, hl.2.1] at hro⟩
  rename_i hro
  split
  next hn => exact .inl ⟨rfl, fun hl => hn (by rw [hl.2.2.2.2.2]; exact mem_cons_self)⟩
  rename_i hn
  rw [not_not] at hn
  split
  next hpool => exact .inl ⟨rfl, fun hl => nomatch hpool.symm.trans hl.2.2.1⟩
  rename_i hpool
  split
  next hbusy => exact .inl ⟨rfl, fun hl => hl.2.2.2.1 hbusy⟩
  rename_i hbusy
  split
  next hstmt => exact .inl ⟨rfl, fun hl => nomatch hstmt.symm.trans hl.2.2.2.2.1⟩
  next hstmt => exact .inl ⟨rfl, fun hl => nomatch hstmt.symm.trans hl.2.2.2.2.1⟩
  next hstmt =>
    have hattach : s.pool.AttachMode :=
      (h.mode.resolve_left fun hw => ne_nil_of_mem hn hw.1).2
    have htrunc : ¬(s.isMemoryRdb = false ∧ s.pool.getJournalMode = .wal) := fun hw =>
      nomatch hw.2.symm.trans hattach.journal
    refine .inr ⟨hattach, ?_, ?_⟩
    · simp only [if_neg htrunc]
      split <;> rfl
    · simp only [not_or, Bool.not_eq_true, Bool.not_eq_false] at hro hpool
      constructor
      · intro herase
        rcases erase_eq_nil_iff.mp herase with hnil | hlast
        · exact absurd hnil (ne_nil_of_mem hn)
        · exact ⟨hro.1, hro.2, hpool, hbusy, hstmt, hlast⟩
      · intro hl
        exact erase_eq_nil_iff.mpr (.inr hl.2.2.2.2.2)

theorem Sound.detach (h : s.Sound) (c : DetachCall) :
    (AttachStep.KeepsMode s (.detach c) → (s.detach c).2.Sound) ∧
      (ModeTells (s.detach c).2 ↔ AttachStep.KeepsMode s (.detach c)) := by
  rcases h.detach_cases c with ⟨hsame, hnot⟩ | ⟨hattach, hpost, hlast⟩
  · rw [hsame]
    exact ⟨fun _ => h, iff_of_true h.modeTells hnot⟩
  · rw [hpost]
    have hsound (hne : s.attachedInfo.erase c.attachName ≠ []) :
        AttachStore.Sound { s with attachedInfo := s.attachedInfo.erase c.attachName } :=
      ⟨h.journal, h.writer, h.readers, h.memory, .inr ⟨hne, hattach⟩⟩
    refine ⟨fun hkeep => hsound fun hnil => hkeep (hlast.mp hnil), fun hm hl => ?_, fun hkeep => ?_⟩
    · exact hm.1.mp hattach (hlast.mpr hl)
    · exact (hsound fun hnil => hkeep (hlast.mp hnil)).modeTells

theorem Sound.step (h : s.Sound) (c : AttachStep) :
    (c.KeepsMode s → (s.step c).2.Sound) ∧ (ModeTells (s.step c).2 ↔ c.KeepsMode s) := by
  cases c with
  | attach c => exact h.attach c
  | detach c => exact h.detach c

theorem modeTells_iff_keepsMode (s : AttachStore) (calls : List AttachStep)
    (hopen : s.attachedInfo = [] ∧ s.pool.WalMode) (hjournal : s.pool.config.journalMode = .wal)
    (hwriter : s.pool.config.hasWriter) (hreaders : 0 < s.pool.config.readConSize)
    (hmemory : s.isMemoryRdb = false) :
    (∀ t ∈ trace step s calls, ModeTells t.post) ↔
      ∀ t ∈ trace step s calls, t.call.KeepsMode t.pre := by
  have hsound : s.Sound := ⟨hjournal, hwriter, hreaders, hmemory, .inl hopen⟩
  exact trace_forall_iff (I := Sound) (G := fun s (c : AttachStep) => c.KeepsMode s)
    (P := fun t => ModeTells t.post)
    (fun _ c h hg => (h.step c).1 hg) (fun _ c h => (h.step c).2) hsound

def allOpen : InitOutcome := ⟨.ok (), .ok (), fun _ => .ok ()⟩

def openedStore : AttachStore where
  pool := ((ConnectionPool.fresh ConnectionPool.walConfig).init false false allOpen).2
  hasPool := true
  isReadOnly := false
  isVector := false
  isHaSingle := true
  isEncrypt := false
  isMemoryRdb := false
  attachedInfo := []

theorem openedStore_walMode : openedStore.pool.WalMode := ⟨rfl, rfl, rfl, rfl, rfl⟩

def attachOther : AttachCall :=
  ⟨"other", false, false, true, false, false, allOpen, .ok (), .done⟩

theorem detach_last_stays_in_attachMode :
    let detached := final step openedStore
      [.attach attachOther, .detach ⟨"other", false, allOpen, .done⟩]
    let failed := (openedStore.attach { attachOther with statement := .failed .sqliteBusy }).2
    openedStore.pool.WalMode ∧
      detached.attachedInfo = [] ∧ detached.pool.AttachMode ∧
      failed.attachedInfo = [] ∧ failed.pool.AttachMode ∧
      ¬ ModeTells detached ∧ ¬ ModeTells failed := by
  intro detached failed
  have hdetached : detached.pool.AttachMode := ⟨rfl, rfl, rfl, rfl, rfl⟩
  have hfailed : failed.pool.AttachMode := ⟨rfl, rfl, rfl, rfl, rfl⟩
  exact ⟨openedStore_walMode, rfl, hdetached, rfl, hfailed,
    fun h => h.1.mp hdetached rfl, fun h => h.1.mp hfailed rfl⟩

theorem modeTells_iff_keepsMode_attach :
    ModeTells (step openedStore (.attach attachOther)).2 := by
  have hrun := (modeTells_iff_keepsMode openedStore [.attach attachOther]
    ⟨rfl, openedStore_walMode⟩ rfl rfl (by decide) rfl).mpr ?_
  · exact hrun _ mem_cons_self
  · intro t ht
    obtain rfl := mem_singleton.mp ht
    exact .inr (.inr ⟨rfl, rfl, rfl⟩)

end AttachStore

end RelationalStore
