import RelationalStore.Rdb.ConnectionPool.Container
import RelationalStore.Rdb.Transaction.Maintenance
import RelationalStore.Rdb.TransactionImpl

/-! # Opening the connections of a pool

`Init` fills the containers; `ReopenConns`, `EnableWal` and `DisableWal` run it again later. -/

namespace RelationalStore

inductive RoleType where
  | owner
  | visitor
  | visitorWrite
  deriving DecidableEq

structure PoolConfig where
  role : RoleType
  isReadOnly : Bool
  isMemory : Bool
  journalMode : JournalMode
  readConSize : Int
  deriving DecidableEq

namespace PoolConfig

def hasWriter (config : PoolConfig) : Bool :=
  (config.role = .owner || config.role = .visitorWrite) && !config.isReadOnly

def getMaxReaders (config : PoolConfig) : Int :=
  if !config.isMemory && config.journalMode = .wal then config.readConSize else 0

end PoolConfig

structure ConnectionPool where
  config : PoolConfig
  writers : ConnPool.Container
  readers : ConnPool.Container
  trans : ConnPool.Container
  maxReader : Int
  isAttach : Bool

structure InitOutcome where
  config : Except RdbError Unit
  writer : Except RdbError Unit
  readers : Nat → Except RdbError Unit

namespace ConnectionPool

def fresh (config : PoolConfig) : ConnectionPool :=
  ⟨config, .fresh 0, .fresh 0, .fresh MIN_TRANS_ID, 0, false⟩

def configOf (p : ConnectionPool) (isAttach : Bool) : PoolConfig :=
  if isAttach then { p.config with journalMode := .truncate } else p.config

def initWriters (p : ConnectionPool) (needWriter : Bool) (opened : Except RdbError Unit) :
    Except RdbError (Option ConnPool.ConnNode) × ConnectionPool :=
  if p.config.hasWriter then
    match p.writers.initializeNodes true 1 true needWriter fun _ => opened with
    | (.error e, writers) => (.error e, { p with writers })
    | (.ok node, writers) =>
      (.ok node, { p with writers, trans := p.trans.initMembers true MAX_TRANS false })
  else (.ok none, p)

def initReaders (p : ConnectionPool) (isAttach : Bool) (opens : Nat → Except RdbError Unit) :
    Except RdbError Unit × ConnectionPool :=
  let maxReader := (p.configOf isAttach).getMaxReaders
  if 64 < maxReader then (.error .argsReadConOverload, { p with isAttach, maxReader })
  else
    match p.readers.initializeNodes false maxReader (maxReader = 0) false opens with
    | (.error e, readers) => (.error e, { p with isAttach, maxReader, readers })
    | (.ok _, readers) => (.ok (), { p with isAttach, maxReader, readers })

def init (p : ConnectionPool) (isAttach needWriter : Bool) (o : InitOutcome) :
    Except RdbError (Option ConnPool.ConnNode) × ConnectionPool :=
  match o.config with
  | .error e => (.error e, p)
  | .ok _ =>
    match p.initWriters needWriter o.writer with
    | (.error e, p') => (.error e, p')
    | (.ok node, p') =>
      match p'.initReaders isAttach o.readers with
      | (.error e, p'') => (.error e, p'')
      | (.ok _, p'') => (.ok node, p'')

def closeAllConnections (p : ConnectionPool) : ConnectionPool :=
  { p with writers := p.writers.clear, readers := p.readers.clear, trans := p.trans.clear }

def reopenConns (p : ConnectionPool) (o : InitOutcome) :
    Except RdbError (Option ConnPool.ConnNode) × ConnectionPool :=
  p.closeAllConnections.init false false o

def enableWal (p : ConnectionPool) (o : InitOutcome) :
    Except RdbError (Option ConnPool.ConnNode) × ConnectionPool := p.init false false o

def disableWal (p : ConnectionPool) (o : InitOutcome) :
    Except RdbError (Option ConnPool.ConnNode) × ConnectionPool := p.init true true o

def tryInit : Nat → (Nat → InitOutcome) → ConnectionPool → Except RdbError ConnectionPool
  | 0, _, _ => .error .sqliteCorrupt
  | n + 1, outcomes, p =>
    match p.init false false (outcomes 0) with
    | (.ok _, p') => .ok p'
    | (.error .sqliteCorrupt, p') => tryInit n (fun i => outcomes (i + 1)) p'
    | (.error e, _) => .error e

def ITERS_COUNT : Nat := 2

def create (config : PoolConfig) (outcomes : Nat → InitOutcome) : Except RdbError ConnectionPool :=
  tryInit ITERS_COUNT outcomes (fresh config)

/-- The pool has just the connections that its configuration asks for, and no writer if it may not
write. -/
structure Filled (p : ConnectionPool) : Prop where
  writers_total : p.writers.total = if p.config.hasWriter then 1 else 0
  writers_count : p.writers.count = p.writers.nodes.length
  readers_total : p.readers.total = p.maxReader.toNat
  readers_idle : p.readers.nodes.length = p.maxReader.toNat

/-- No connection is in the containers yet. -/
structure Unfilled (p : ConnectionPool) : Prop where
  writers_total : p.writers.total = 0
  writers_count : p.writers.count = p.writers.nodes.length
  readers_total : p.readers.total = 0
  readers_idle : p.readers.nodes = []

variable {p p' : ConnectionPool} {isAttach needWriter : Bool} {o : InitOutcome}
  {node : Option ConnPool.ConnNode}

theorem initWriters_ok (h : p.initWriters needWriter opened = (.ok node, p')) :
    p'.config = p.config ∧ p'.readers = p.readers ∧
      p'.writers.total = p.writers.total + (if p.config.hasWriter then 1 else 0) ∧
      (p'.writers.count = p'.writers.nodes.length ↔
        p.writers.count = p.writers.nodes.length) ∧
      (p.config.hasWriter → opened = .ok ()) := by
  unfold initWriters at h
  split at h
  next hhas =>
    rw [if_pos hhas]
    split at h
    · cases h
    next hwriters =>
      cases h
      obtain ⟨htotal, hcount, _⟩ := ConnPool.Container.initializeNodes_ok hwriters
      refine ⟨rfl, rfl, htotal, hcount Int.one_pos, fun _ => ?_⟩
      cases opened with
      | ok u => rfl
      | error e =>
        have hfail : (p.writers.initializeNodes true 1 true needWriter fun _ => .error e).1 =
            .error e :=
          p.writers.initializeNodes_of_error true true needWriter Nat.one_pos
            (fun i hi => absurd hi i.not_lt_zero) rfl
        rw [hwriters] at hfail
        cases hfail
  next hhas =>
    rw [if_neg hhas]
    cases h
    exact ⟨rfl, rfl, (Int.add_zero _).symm, .rfl, fun h => absurd h hhas⟩

variable {opens : Nat → Except RdbError Unit}

theorem initReaders_ok (h : p.initReaders isAttach opens = (.ok u, p')) :
    p'.config = p.config ∧ p'.writers = p.writers ∧
      p'.readers.total = p.readers.total + p'.maxReader.toNat ∧
      p'.readers.nodes.length = p.readers.nodes.length + p'.maxReader.toNat := by
  unfold initReaders at h
  simp only at h
  split at h
  · cases h
  split at h
  · cases h
  next hreaders =>
    cases h
    obtain ⟨htotal, _, hlen⟩ := ConnPool.Container.initializeNodes_ok hreaders
    exact ⟨rfl, rfl, htotal, hlen rfl⟩

theorem init_ok (h : p.init isAttach needWriter o = (.ok node, p')) :
    ∃ q u, p.initWriters needWriter o.writer = (.ok node, q) ∧
      q.initReaders isAttach o.readers = (.ok u, p') := by
  unfold init at h
  split at h
  · cases h
  split at h
  · cases h
  rename_i q hq
  split at h
  · cases h
  next u _ hr =>
    cases h
    exact ⟨q, u, hq, hr⟩

theorem filled_init_iff (h : p.init isAttach needWriter o = (.ok node, p')) :
    p'.Filled ↔ p.Unfilled := by
  obtain ⟨q, u, hw, hr⟩ := init_ok h
  obtain ⟨hqconfig, hqreaders, hwtotal, hwcount, _⟩ := initWriters_ok hw
  obtain ⟨hconfig, hwriters, hrtotal, hrlen⟩ := initReaders_ok hr
  rw [hqreaders] at hrtotal hrlen
  constructor
  · intro hf
    have h₁ := hf.writers_total
    have h₃ := hf.readers_total
    have h₄ := hf.readers_idle
    rw [hwriters, hconfig, hqconfig, hwtotal] at h₁
    refine ⟨by omega, hwcount.mp (hwriters ▸ hf.writers_count), by omega, ?_⟩
    exact List.length_eq_zero_iff.mp (by omega)
  · intro hu
    have h₁ := hu.writers_total
    have h₃ := hu.readers_total
    have h₄ := List.length_eq_zero_iff.mpr hu.readers_idle
    refine ⟨?_, hwriters ▸ hwcount.mpr hu.writers_count, by omega, by omega⟩
    rw [hwriters, hconfig, hqconfig, hwtotal, h₁, Int.zero_add]

theorem unfilled_fresh (config : PoolConfig) : (fresh config).Unfilled := ⟨rfl, rfl, rfl, rfl⟩

/-- The first try of `Create` finds the database corrupt at a reader, after it has made a node. -/
def CorruptReader (config : PoolConfig) (o : InitOutcome) : Prop :=
  o.config = .ok () ∧ (config.hasWriter → o.writer = .ok ()) ∧ config.getMaxReaders ≤ 64 ∧
    ∃ k < config.getMaxReaders.toNat, (∀ i < k, o.readers i = .ok ()) ∧
      o.readers k = .error .sqliteCorrupt ∧ (config.hasWriter ∨ 0 < k)

theorem initWriters_error (h : p.initWriters needWriter opened = (.error e, p')) :
    p.config.hasWriter ∧ opened = .error e ∧ p'.config = p.config ∧ p'.readers = p.readers ∧
      p'.writers.total = p.writers.total ∧ p'.writers.count = p.writers.count ∧
      p'.writers.nodes = [] := by
  unfold initWriters at h
  split at h
  next hhas =>
    split at h
    next hwriters =>
      cases h
      obtain ⟨j, hj, _, hopen, htotal, hcount, hnil⟩ :=
        ConnPool.Container.initializeNodes_error hwriters
      have hj : j = 0 := Nat.lt_one_iff.mp hj
      subst hj
      exact ⟨hhas, hopen, rfl, rfl, by simpa using htotal, by simpa using hcount, hnil⟩
    · cases h
  · cases h

theorem initReaders_corrupt (h : p.initReaders isAttach opens = (.error .sqliteCorrupt, p')) :
    (p.configOf isAttach).getMaxReaders ≤ 64 ∧ p'.writers = p.writers ∧
      ∃ j < (p.configOf isAttach).getMaxReaders.toNat, (∀ i < j, opens i = .ok ()) ∧
        opens j = .error .sqliteCorrupt ∧ p'.readers.total = p.readers.total + j ∧
        p'.readers.nodes = [] := by
  unfold initReaders at h
  simp only at h
  split at h
  · cases h
  rename_i hmax
  split at h
  next hreaders =>
    cases h
    obtain ⟨j, hj, hbefore, hopen, htotal, _, hnil⟩ :=
      ConnPool.Container.initializeNodes_error hreaders
    exact ⟨Int.not_lt.mp hmax, rfl, j, hj, hbefore, hopen, htotal, hnil⟩
  · cases h

theorem first_failure_unique (hj : ∀ i < j, opens i = .ok ()) (hj' : opens j = .error e)
    (hk : ∀ i < k, opens i = .ok ()) (hk' : opens k = .error e') : j = k := by
  rcases Nat.lt_trichotomy j k with h | h | h
  · exact nomatch (hk j h).symm.trans hj'
  · exact h
  · exact nomatch (hj k h).symm.trans hk'

variable {config : PoolConfig}

theorem unfilled_iff_of_corrupt
    (h : (fresh config).init false false o = (.error .sqliteCorrupt, p')) :
    p'.Unfilled ↔ ¬ CorruptReader config o := by
  unfold init at h
  split at h
  next hconfig =>
    cases h
    exact iff_of_true (unfilled_fresh config) fun hc => nomatch hc.1.symm.trans hconfig
  rename_i hconfig
  split at h
  next hwriter =>
    cases h
    obtain ⟨hhas, hopen, _, hreaders, htotal, hcount, hnil⟩ := initWriters_error hwriter
    refine iff_of_true ⟨htotal, ?_, by rw [hreaders]; rfl, by rw [hreaders]; rfl⟩
      fun hc => nomatch (hc.2.1 hhas).symm.trans hopen
    rw [hnil, hcount]
    rfl
  rename_i node q hwriter
  obtain ⟨hqconfig, hqreaders, hwtotal, hwcount, hopen⟩ := initWriters_ok hwriter
  split at h
  next hreaders =>
    cases h
    obtain ⟨hmax, hwriters, j, hj, hbefore, hfail, hrtotal, hrnil⟩ := initReaders_corrupt hreaders
    have hcfg : q.configOf false = config := hqconfig
    rw [hcfg] at hmax hj
    rw [hqreaders] at hrtotal
    constructor
    · intro hu hc
      obtain ⟨_, _, _, k, _, hkbefore, hkfail, hmade⟩ := hc
      obtain rfl := first_failure_unique hbefore hfail hkbefore hkfail
      have htotal := hu.writers_total
      have hrtotal' := hu.readers_total
      rw [hwriters, hwtotal] at htotal
      rcases hmade with hhas | hpos
      · rw [if_pos (show (fresh config).config.hasWriter from hhas)] at htotal
        exact absurd htotal (by simp [fresh, ConnPool.Container.fresh])
      · rw [hrtotal] at hrtotal'
        exact absurd hrtotal' (by simp only [fresh, ConnPool.Container.fresh]; omega)
    · intro hc
      have hnone : ¬ (config.hasWriter ∨ 0 < j) := fun hmade =>
        hc ⟨hconfig, hopen, hmax, j, hj, hbefore, hfail, hmade⟩
      obtain ⟨hno, hj₀⟩ := not_or.mp hnone
      obtain rfl : j = 0 := Nat.eq_zero_of_not_pos hj₀
      refine ⟨?_, hwriters ▸ hwcount.mpr rfl, hrtotal, hrnil⟩
      rw [hwriters, hwtotal, if_neg (show ¬ (fresh config).config.hasWriter from hno)]
      rfl
  · cases h

theorem not_corruptReader_of_init
    (h : (fresh config).init false false o = (.ok node, p')) : ¬ CorruptReader config o := by
  rintro ⟨_, _, _, k, hk, hbefore, hfail, _⟩
  obtain ⟨q, u, hw, hr⟩ := init_ok h
  obtain ⟨hqconfig, _⟩ := initWriters_ok hw
  have hcfg : q.configOf false = config := hqconfig
  unfold initReaders at hr
  simp only [hcfg] at hr
  split at hr
  · cases hr
  split at hr
  · cases hr
  next hreaders =>
    have herr := q.readers.initializeNodes_of_error false (decide (config.getMaxReaders = 0)) false
      hk hbefore hfail
    rw [hreaders] at herr
    cases herr

theorem filled_create_iff (h : create config outcomes = .ok p) :
    p.Filled ↔ ¬ CorruptReader config (outcomes 0) := by
  simp only [create, ITERS_COUNT, tryInit] at h
  split at h
  next hinit =>
    cases h
    exact iff_of_true ((filled_init_iff hinit).mpr (unfilled_fresh config))
      (not_corruptReader_of_init hinit)
  next hcorrupt =>
    split at h
    next hinit =>
      cases h
      exact (filled_init_iff hinit).trans (unfilled_iff_of_corrupt hcorrupt)
    · cases h
    · cases h
  · cases h

theorem filled_iff_of_opened (config : PoolConfig) (outcomes : Nat → InitOutcome)
    (o : InitOutcome) (node : Option ConnPool.ConnNode) (p p' : ConnectionPool) :
    (create config outcomes = .ok p' → (p'.Filled ↔ ¬ CorruptReader config (outcomes 0))) ∧
    (reopenConns p o = (.ok node, p') → p'.Filled) ∧
    (enableWal p o = (.ok node, p') ∨ disableWal p o = (.ok node, p') →
      (p'.Filled ↔ p.Unfilled)) := by
  refine ⟨fun h => filled_create_iff h, fun h => ?_, fun h => ?_⟩
  · exact (filled_init_iff h).mpr ⟨rfl, rfl, rfl, rfl⟩
  · exact h.elim filled_init_iff filled_init_iff

def walConfig : PoolConfig := ⟨.owner, false, false, .wal, 4⟩

theorem create_after_corrupt_reader :
    let first : InitOutcome :=
      ⟨.ok (), .ok (), fun i => if i = 1 then .error .sqliteCorrupt else .ok ()⟩
    let second : InitOutcome := ⟨.ok (), .ok (), fun _ => .ok ()⟩
    ∃ p, create walConfig (fun i => if i = 0 then first else second) = .ok p ∧
      p.writers.total = 2 ∧ p.writers.nodes.length = 2 ∧ p.readers.total = 5 ∧
      p.readers.nodes.length = 4 ∧ p.maxReader = 4 ∧ ¬ p.Filled :=
  ⟨_, rfl, rfl, rfl, rfl, rfl, rfl, fun h => absurd h.writers_total (by decide)⟩

theorem filled_iff_of_opened_corrupt_writer :
    let first : InitOutcome := ⟨.ok (), .error .sqliteCorrupt, fun _ => .ok ()⟩
    let second : InitOutcome := ⟨.ok (), .ok (), fun _ => .ok ()⟩
    ∃ p, create walConfig (fun i => if i = 0 then first else second) = .ok p ∧ p.Filled ∧
      ((fresh walConfig).disableWal second).2.Filled := by
  intro first second
  have hcreate : ∃ p, create walConfig (fun i => if i = 0 then first else second) = .ok p :=
    ⟨_, rfl⟩
  obtain ⟨p, hp⟩ := hcreate
  have hfilled := (filled_iff_of_opened walConfig (fun i => if i = 0 then first else second) second
    none (fresh walConfig) p).1 hp
  refine ⟨p, hp, hfilled.mpr fun h => (nomatch h.2.1 rfl), ?_⟩
  exact ((filled_iff_of_opened walConfig (fun _ => second) second _ (fresh walConfig) _).2.2
    (.inr rfl)).mpr (unfilled_fresh _)

end ConnectionPool

end RelationalStore
