import RelationalStore.Rdb.Transaction.Agreement

/-! # Replacing the connections of the pool

`CloseAllConnections` clears the containers; the transaction stack and the flag stay. -/

namespace RelationalStore

inductive JournalMode where
  | wal
  | truncate
  deriving DecidableEq

structure PooledStore (D : Type) extends Store D where
  isMemoryRdb : Bool
  configMode : JournalMode
  mode : JournalMode
  attachedInfo : List String
  writer : Nat
  begunOn : Option Nat

variable {D : Type}

namespace PooledStore

variable (s : PooledStore D)

def reinit (mode : JournalMode) : PooledStore D :=
  { s with db := s.db.close, mode := mode, writer := s.writer + 1 }

def attach (attachName : String) : Except RdbError Unit × PooledStore D :=
  if s.isReadOnly ∨ s.isVector then (.error .notSupport, s)
  else if attachName ∈ s.attachedInfo then (.error .attachedDatabaseExist, s)
  else if s.hasPool = false then (.error .alreadyClosed, s)
  else
    let s := if s.isMemoryRdb = false ∧ s.mode = .wal then s.reinit .truncate else s
    (.ok (), { s with attachedInfo := attachName :: s.attachedInfo })

def detach (attachName : String) : Except RdbError Unit × PooledStore D :=
  if s.isReadOnly ∨ s.isVector then (.error .notSupport, s)
  else if attachName ∉ s.attachedInfo then (.ok (), s)
  else if s.hasPool = false then (.error .alreadyClosed, s)
  else
    let s := { s with attachedInfo := s.attachedInfo.filter (· ≠ attachName) }
    if s.attachedInfo ≠ [] then (.ok (), s)
    else if s.isMemoryRdb = false ∧ s.mode = .wal then (.ok (), s.reinit s.configMode)
    else (.ok (), s)

def rekey : Except RdbError Unit × PooledStore D :=
  if s.isReadOnly ∨ s.isMemoryRdb then (.error .notSupport, s)
  else if s.hasPool = false then (.error .alreadyClosed, s)
  else (.ok (), s.reinit s.configMode)

def reopenConns : Except RdbError Unit × PooledStore D :=
  (.ok (), s.reinit s.configMode)

def restore (backup : D) : Except RdbError Unit × PooledStore D :=
  if s.isReadOnly ∨ s.isMemoryRdb then (.error .notSupport, s)
  else if s.hasPool = false then (.error .alreadyClosed, s)
  else
    let s := s.reinit s.configMode
    (.ok (), { s with db := ⟨backup, none⟩ })

def txnCall (c : TxnCall D) : Except RdbError Unit × PooledStore D :=
  let (ret, store) := s.toStore.call c
  let begunOn :=
    match c, s.stack, ret with
    | .beginTransaction _, [], .ok () => some s.writer
    | _, _, _ => s.begunOn
  (ret, { s with toStore := store, begunOn := begunOn })

end PooledStore

inductive PoolCall (D : Type) where
  | beginTransaction
  | commit
  | rollBack
  | write (f : D → D)
  | attach (attachName : String)
  | detach (attachName : String)
  | rekey
  | reopenConns
  | restore (backup : D)

namespace PooledStore

variable (s : PooledStore D)

def call : PoolCall D → Except RdbError Unit × PooledStore D
  | .beginTransaction => s.txnCall (.beginTransaction .done)
  | .commit => s.txnCall (.commit .done)
  | .rollBack => s.txnCall (.rollBack .done)
  | .write f => s.txnCall (.write f)
  | .attach name => s.attach name
  | .detach name => s.detach name
  | .rekey => s.rekey
  | .reopenConns => s.reopenConns
  | .restore backup => s.restore backup

/-- The call opens a new writer connection. -/
def Replaces : PoolCall D → Prop
  | .attach name => name ∉ s.attachedInfo ∧ s.isMemoryRdb = false ∧ s.mode = .wal
  | .detach name => name ∈ s.attachedInfo ∧ s.attachedInfo.filter (· ≠ name) = [] ∧
      s.isMemoryRdb = false ∧ s.mode = .wal
  | .rekey | .restore _ => s.isMemoryRdb = false
  | .reopenConns => True
  | .beginTransaction | .commit | .rollBack | .write _ => False

def HoldsTxn : Prop :=
  s.stack ≠ [] → s.begunOn = some s.writer ∧ s.db.txn.isSome

end PooledStore

/-- After the call the open transaction is held, and a call with an open level other than `RollBack`
discards no write. -/
def CallHolds (t : Transition (PooledStore D) (PoolCall D) (Except RdbError Unit)) : Prop :=
  t.post.HoldsTxn ∧ (t.pre.stack ≠ [] →
    match t.call with
    | .rollBack => True
    | .write f => t.post.db.view = f t.pre.db.view
    | _ => t.post.db.view = t.pre.db.view)

/-! ### Transaction calls

They keep the writer, and all but `RollBack` keep what it sees. -/

namespace Store.AtDepth
variable {s : Store D} {d : Nat}

theorem stack_ne (h : s.AtDepth d) : s.stack ≠ [] ↔ d ≠ 0 := by
  rw [h.stack, ne_eq, stackOf_eq_nil]

theorem view_beginTransaction (h : s.AtDepth d) (o : StmtOutcome) :
    (s.beginTransaction o).2.db.view = s.db.view := by
  rcases s.beginTransaction_cases (o := o) h.usable with ⟨err, herr⟩ | ⟨db, hrun, heq⟩
  · rw [herr]
  · rw [heq]
    rw [BaseTransaction.getTransactionStr] at hrun
    split at hrun <;> rw [TransSql.run] at hrun
    · exact Db.view_exec hrun (by simp) (by simp)
    · exact Db.view_exec hrun (by simp) (by simp)

theorem view_commit (h : s.AtDepth d) (o : StmtOutcome) : (s.commit o).2.db.view = s.db.view := by
  cases d with
  | zero => rw [s.commit_nil h.usable h.stack]
  | succ d =>
    by_cases hid : (BaseTransaction.ofSize d).id = 0
    · rcases s.commit_outer (o := o) h.usable h.stack hid with ⟨err, herr⟩ | ⟨db, hrun, heq⟩
      · rw [herr]
      · rw [heq]
        exact Db.view_exec hrun nofun nofun
    · rw [s.commit_inner h.usable h.stack hid]

end Store.AtDepth

namespace PooledStore
variable {s : PooledStore D}

structure Held (s : PooledStore D) : Prop where
  atDepth : ∃ d, s.toStore.AtDepth d
  begun : s.stack ≠ [] → s.begunOn = some s.writer

theorem Held.holdsTxn (h : s.Held) : s.HoldsTxn := by
  intro hne
  obtain ⟨d, hd⟩ := h.atDepth
  refine ⟨h.begun hne, ?_⟩
  rw [hd.txn, decide_eq_true_iff]
  exact hd.stack_ne.mp hne

theorem Held.beginTransaction (h : s.Held) (o : StmtOutcome) :
    (s.txnCall (.beginTransaction o)).2.Held := by
  obtain ⟨d, hd⟩ := h.atDepth
  obtain ⟨d', hd', _⟩ := hd.beginTransaction (o := o)
  refine ⟨⟨d', hd'⟩, fun hne => ?_⟩
  rcases s.beginTransaction_cases (o := o) hd.usable with ⟨err, herr⟩ | ⟨db, _, heq⟩
  · simp only [txnCall, Store.call, herr] at hne ⊢
    split
    · contradiction
    · exact h.begun hne
  · -- the outermost `BEGIN` runs on the current writer
    simp only [txnCall, Store.call, heq]
    cases hstack : s.stack with
    | nil => rfl
    | cons t rest => exact h.begun (by rw [hstack]; exact List.cons_ne_nil t rest)

theorem Held.of_depth_le (h : s.toStore.AtDepth d) (hle : d' ≤ d) (hd' : store.AtDepth d')
    (hs : s.Held) : ({ s with toStore := store } : PooledStore D).Held := by
  refine ⟨⟨d', hd'⟩, fun hne => hs.begun (h.stack_ne.mpr ?_)⟩
  have := hd'.stack_ne.mp hne
  omega

theorem Held.commit (h : s.Held) (o : StmtOutcome) : (s.txnCall (.commit o)).2.Held := by
  obtain ⟨d, hd⟩ := h.atDepth
  obtain ⟨d', hle, hd', _⟩ := hd.commit (o := o)
  exact .of_depth_le hd hle hd' h

theorem Held.rollBack (h : s.Held) : (s.txnCall (.rollBack .done)).2.Held := by
  obtain ⟨d, hd⟩ := h.atDepth
  obtain ⟨⟨d', hle, hd'⟩, _⟩ := hd.rollBack (o := .done) fun _ => rfl
  exact .of_depth_le hd hle hd' h

theorem Held.write (h : s.Held) : (s.txnCall (.write f)).2.Held := by
  obtain ⟨d, hd⟩ := h.atDepth
  exact .of_depth_le hd (Nat.le_refl d) hd.write h

/-! ### Maintenance calls -/

def Untouched (s s' : PooledStore D) : Prop :=
  s'.toStore = s.toStore ∧ s'.writer = s.writer ∧ s'.begunOn = s.begunOn

def Reopened (s s' : PooledStore D) : Prop :=
  (∃ db, db.txn = none ∧ s'.toStore = { s.toStore with db := db }) ∧
    s'.writer = s.writer + 1 ∧ s'.begunOn = s.begunOn

theorem reinit_reopened (mode : JournalMode) : s.Reopened (s.reinit mode) :=
  ⟨⟨s.db.close, rfl, rfl⟩, rfl, rfl⟩

theorem usable_iff : s.toStore.checkUsable = .ok () ↔
    s.hasPool ∧ s.isReadOnly = false ∧ s.isVector = false := by
  unfold Store.checkUsable
  cases s.hasPool <;> cases s.isReadOnly <;> cases s.isVector <;> simp

section
variable (hs : s.toStore.checkUsable = .ok ())
include hs

theorem attach_cases :
    (s.Replaces (.attach name) ∧ s.Reopened (s.attach name).2) ∨
      (¬ s.Replaces (.attach name) ∧ s.Untouched (s.attach name).2) := by
  obtain ⟨hpool, hro, hvec⟩ := usable_iff.mp hs
  unfold attach Replaces
  rw [if_neg (by simp [hro, hvec])]
  by_cases hmem : name ∈ s.attachedInfo
  · rw [if_pos hmem]
    exact .inr ⟨fun h => h.1 hmem, rfl, rfl, rfl⟩
  rw [if_neg hmem, if_neg (by simp [hpool])]
  by_cases hwal : s.isMemoryRdb = false ∧ s.mode = .wal
  · rw [if_pos hwal]
    exact .inl ⟨⟨hmem, hwal⟩, reinit_reopened .truncate⟩
  · rw [if_neg hwal]
    exact .inr ⟨fun h => hwal h.2, rfl, rfl, rfl⟩

theorem detach_cases :
    (s.Replaces (.detach name) ∧ s.Reopened (s.detach name).2) ∨
      (¬ s.Replaces (.detach name) ∧ s.Untouched (s.detach name).2) := by
  obtain ⟨hpool, hro, hvec⟩ := usable_iff.mp hs
  unfold detach Replaces
  rw [if_neg (by simp [hro, hvec])]
  by_cases hmem : name ∈ s.attachedInfo
  swap
  · rw [if_pos hmem]
    exact .inr ⟨fun h => hmem h.1, rfl, rfl, rfl⟩
  rw [if_neg (not_not.mpr hmem), if_neg (by simp [hpool])]
  by_cases hlast : s.attachedInfo.filter (· ≠ name) = []
  swap
  · rw [if_pos hlast]
    exact .inr ⟨fun h => hlast h.2.1, rfl, rfl, rfl⟩
  rw [if_neg (not_not.mpr hlast)]
  by_cases hwal : s.isMemoryRdb = false ∧ s.mode = .wal
  · rw [if_pos hwal]
    exact .inl ⟨⟨hmem, hlast, hwal⟩, ⟨s.db.close, rfl, rfl⟩, rfl, rfl⟩
  · rw [if_neg hwal]
    exact .inr ⟨fun h => hwal h.2.2, rfl, rfl, rfl⟩

theorem rekey_cases :
    (s.Replaces .rekey ∧ s.Reopened s.rekey.2) ∨ (¬ s.Replaces .rekey ∧ s.Untouched s.rekey.2) := by
  obtain ⟨hpool, hro, _⟩ := usable_iff.mp hs
  unfold rekey Replaces
  cases hmem : s.isMemoryRdb with
  | true =>
    rw [if_pos (.inr rfl)]
    exact .inr ⟨nofun, rfl, rfl, rfl⟩
  | false =>
    rw [if_neg (by simp [hro]), if_neg (by simp [hpool])]
    exact .inl ⟨rfl, reinit_reopened _⟩

theorem restore_cases :
    (s.Replaces (.restore backup) ∧ s.Reopened (s.restore backup).2) ∨
      (¬ s.Replaces (.restore backup) ∧ s.Untouched (s.restore backup).2) := by
  obtain ⟨hpool, hro, _⟩ := usable_iff.mp hs
  unfold restore Replaces
  cases hmem : s.isMemoryRdb with
  | true =>
    rw [if_pos (.inr rfl)]
    exact .inr ⟨nofun, rfl, rfl, rfl⟩
  | false =>
    rw [if_neg (by simp [hro]), if_neg (by simp [hpool])]
    exact .inl ⟨rfl, ⟨_, rfl, rfl⟩, rfl, rfl⟩

end

section
variable {s' : PooledStore D} {r : Prop}

theorem Held.maintain (h : s.Held) (hcases : (r ∧ s.Reopened s') ∨ (¬ r ∧ s.Untouched s'))
    (hg : r → s.stack = []) : s'.Held := by
  obtain ⟨d, hd⟩ := h.atDepth
  rcases hcases with ⟨hr, ⟨db, hdb, hstore⟩, _, _⟩ | ⟨_, hstore, hwriter, hbegun⟩
  · have hstack := hg hr
    have hd0 : d = 0 := by rw [hd.stack, stackOf_eq_nil] at hstack; exact hstack
    subst hd0
    refine ⟨⟨0, ?_⟩, fun hne => absurd (by rw [hstore]; exact hstack) hne⟩
    rw [hstore]
    exact ⟨⟨⟨db.committed, []⟩, ⟨hd.usable, hd.stack, Nat.zero_le _, rfl, fun _ => hdb,
      fun hne => absurd rfl hne⟩, rfl⟩, hd.flag⟩
  · refine ⟨⟨d, by rwa [hstore]⟩, ?_⟩
    rw [hstore, hwriter, hbegun]
    exact h.begun

theorem Held.maintain_iff (h : s.Held) (hcases : (r ∧ s.Reopened s') ∨ (¬ r ∧ s.Untouched s')) :
    (s'.HoldsTxn ∧ (s.stack ≠ [] → s'.db.view = s.db.view)) ↔ (r → s.stack = []) := by
  constructor
  · rintro ⟨hholds, _⟩ hr
    rcases hcases with ⟨_, ⟨db, _, hstore⟩, hwriter, hbegun⟩ | ⟨hnr, _⟩
    · -- the level was begun on the connection before
      by_contra hne
      have hnew := (hholds (by rwa [hstore])).1
      rw [hbegun, hwriter, h.begun hne, Option.some.injEq] at hnew
      omega
    · exact absurd hr hnr
  · intro hg
    refine ⟨(h.maintain hcases hg).holdsTxn, fun hne => ?_⟩
    rcases hcases with ⟨hr, _⟩ | ⟨_, hstore, _⟩
    · exact absurd (hg hr) hne
    · rw [hstore]

end

theorem Held.call (h : s.Held) (hg : s.Replaces c → s.stack = []) : (s.call c).2.Held := by
  obtain ⟨d, hd⟩ := h.atDepth
  cases c with
  | beginTransaction => exact h.beginTransaction .done
  | commit => exact h.commit .done
  | rollBack => exact h.rollBack
  | write f => exact h.write
  | attach name => exact h.maintain (attach_cases hd.usable) hg
  | detach name => exact h.maintain (detach_cases hd.usable) hg
  | rekey => exact h.maintain (rekey_cases hd.usable) hg
  | reopenConns => exact h.maintain (.inl ⟨trivial, reinit_reopened _⟩) hg
  | restore backup => exact h.maintain (restore_cases hd.usable) hg

theorem Held.callHolds_iff (h : s.Held) :
    CallHolds (transition PooledStore.call s c) ↔ (s.Replaces c → s.stack = []) := by
  obtain ⟨d, hd⟩ := h.atDepth
  cases c with
  | beginTransaction =>
    exact ⟨fun _ hr => hr.elim, fun _ => ⟨(h.beginTransaction .done).holdsTxn, fun _ =>
      hd.view_beginTransaction .done⟩⟩
  | commit =>
    exact ⟨fun _ hr => hr.elim, fun _ => ⟨(h.commit .done).holdsTxn, fun _ =>
      hd.view_commit .done⟩⟩
  | rollBack => exact ⟨fun _ hr => hr.elim, fun _ => ⟨h.rollBack.holdsTxn, fun _ => trivial⟩⟩
  | write f => exact ⟨fun _ hr => hr.elim, fun _ => ⟨h.write.holdsTxn, fun _ => Db.view_write⟩⟩
  | attach name => exact h.maintain_iff (attach_cases hd.usable)
  | detach name => exact h.maintain_iff (detach_cases hd.usable)
  | rekey => exact h.maintain_iff (rekey_cases hd.usable)
  | reopenConns => exact h.maintain_iff (.inl ⟨trivial, reinit_reopened _⟩)
  | restore backup => exact h.maintain_iff (restore_cases hd.usable)

def opened (d : D) (isMemoryRdb : Bool) (configMode : JournalMode) : PooledStore D :=
  ⟨.opened d, isMemoryRdb, configMode, configMode, [], 0, none⟩

end PooledStore

theorem holdsTxn_iff_replaces (d : D) (isMemoryRdb : Bool) (configMode : JournalMode)
    (calls : List (PoolCall D)) :
    (∀ t ∈ trace PooledStore.call (.opened d isMemoryRdb configMode) calls, CallHolds t) ↔
      ∀ t ∈ trace PooledStore.call (.opened d isMemoryRdb configMode) calls,
        t.pre.Replaces t.call → t.pre.stack = [] :=
  trace_forall_iff (I := PooledStore.Held) (fun _ _ h hg => h.call hg)
    (fun _ _ h => h.callHolds_iff) ⟨⟨0, .opened _⟩, fun hne => absurd rfl hne⟩

theorem not_holdsTxn_of_attach :
    let s := PooledStore.opened (0 : Nat) false .wal
    let calls : List (PoolCall Nat) := [.beginTransaction, .write (· + 1), .attach "a"]
    (∀ t ∈ trace PooledStore.call s calls, t.ret = .ok ()) ∧
      (final PooledStore.call s calls).stack ≠ [] ∧
      (final PooledStore.call s calls).db.txn.isSome = false ∧
      (final PooledStore.call s calls).db.view = 0 ∧
      ¬ ∀ t ∈ trace PooledStore.call s calls, CallHolds t := by
  refine ⟨by decide, by decide, by decide, by decide, fun h => ?_⟩
  have hattach := (h _ (.tail _ (.tail _ (.head _)))).1
  exact absurd (hattach (by decide)).2 (by decide)

end RelationalStore
