import RelationalStore.Rdb.Transaction.Basic

/-! # Transaction objects

A transaction object owns a connection of `trans_` until `CloseInner` marks it and lets it go. -/

namespace RelationalStore

open List

structure ConnNode (W : Type) where
  id : Nat
  isRecyclable : Bool
  txn : Option (List W)
  deriving DecidableEq

variable {W : Type}

inductive TransStmt where
  | begin
  | commit
  | rollback

namespace ConnNode

def run (conn : ConnNode W) : TransStmt → Option (ConnNode W)
  | .begin =>
    match conn.txn with
    | none => some { conn with txn := some [] }
    | some _ => none
  | .commit | .rollback => conn.txn.map fun _ => { conn with txn := none }

def execute (conn : ConnNode W) (stmt : TransStmt) : StmtOutcome → Except RdbError (ConnNode W)
  | .noStatement err | .failed err => .error err
  | .done =>
    match conn.run stmt with
    | none => .error .sqliteError
    | some conn => .ok conn

end ConnNode

structure Container (W : Type) where
  nodes : List (ConnNode W)
  count : Int
  total : Int
  left : Nat
  right : Nat
  max : Nat
  disable : Bool

namespace Container

variable (c : Container W)

def extendNode (creator : Except RdbError Unit) :
    Except RdbError Unit × Container W :=
  match creator with
  | .error err => (.error err, c)
  | .ok () =>
    (.ok (), { c with
      nodes := ⟨c.right, true, none⟩ :: c.nodes, right := c.right + 1, count := c.count + 1
      total := c.total + 1 })

def waiter (creator : Except RdbError Unit) :
    Bool × Except RdbError Unit × Container W :=
  if 0 < c.count then (true, .ok (), c)
  else if c.disable then (false, .ok (), c)
  else
    match c.extendNode creator with
    | (.ok (), c) => (true, .ok (), c)
    | (.error err, c) => (false, .error err, c)

def acquire (creator : Except RdbError Unit) :
    Except RdbError Unit × Option (ConnNode W) × Container W :=
  if c.max = 0 then (.error .error, none, c)
  else
    match c.waiter creator with
    | (false, err, c) => (err, none, c)
    | (true, _, c) =>
      match c.nodes with
      | [] => (.error .error, none, { c with count := 0 })
      | node :: nodes => (.ok (), some node, { c with nodes := nodes, count := c.count - 1 })

def releaseTrans (node : ConnNode W) : Container W :=
  if node.id < c.left ∨ node.id ≥ c.right then c
  else if node.isRecyclable then { c with nodes := node :: c.nodes, count := c.count + 1 }
  else { c with total := c.total - 1 }

end Container

def MAX_TRANS : Nat := 4

def MIN_TRANS_ID : Nat := 10000

structure TransPool (W : Type) where
  trans : Container W
  transEnable : Bool
  transCount : Nat

namespace TransPool

def createTransConn (p : TransPool W) (limited : Bool) (creator : Except RdbError Unit) :
    Except RdbError Unit × Option (ConnNode W) × TransPool W :=
  if p.transEnable = false ∨ (p.transCount ≥ MAX_TRANS ∧ limited) then
    (.error .databaseBusy, none, p)
  else
    match p.trans.acquire creator with
    | (err, none, trans) => (err, none, { p with trans := trans })
    | (err, some node, trans) =>
      (err, some node, { p with trans := trans, transCount := p.transCount + 1 })

def releaseNode (p : TransPool W) (node : ConnNode W) : TransPool W :=
  { p with trans := p.trans.releaseTrans node, transCount := p.transCount - 1 }

end TransPool

structure TransactionImpl (W : Type) where
  connection : Option (ConnNode W)

namespace TransactionImpl

def getBeginSql (type : Int) : String :=
  if type < 0 ∨ type ≥ 3 then ""
  else if type = 0 then "BEGIN DEFERRED;"
  else if type = 1 then "BEGIN IMMEDIATE;"
  else "BEGIN EXCLUSIVE;"

variable (t : TransactionImpl W)

def closeInner (connRecycle : Bool) (p : TransPool W) :
    TransactionImpl W × TransPool W :=
  match t.connection with
  | none => (t, p)
  | some conn => (⟨none⟩, p.releaseNode { conn with isRecyclable := connRecycle })

def begin (conn : ConnNode W) (type : Int) (o : StmtOutcome) (p : TransPool W) :
    Except RdbError Unit × TransactionImpl W × TransPool W :=
  if getBeginSql type = "" then (.error .invalidArgs, closeInner ⟨some conn⟩ true p)
  else
    match conn.execute .begin o with
    | .error err => (.error err, closeInner ⟨some conn⟩ true p)
    | .ok conn => (.ok (), ⟨some conn⟩, p)

def endTrans (stmt : TransStmt) (o : StmtOutcome) (p : TransPool W) :
    Except RdbError Unit × TransactionImpl W × TransPool W :=
  match t.connection with
  | none => (.error .alreadyClosed, t, p)
  | some conn =>
    match conn.execute stmt o with
    | .error err => (.error err, t.closeInner false p)
    | .ok conn => (.ok (), closeInner ⟨some conn⟩ true p)

def commit (t : TransactionImpl W) := t.endTrans .commit

def rollback (t : TransactionImpl W) := t.endTrans .rollback

def close (p : TransPool W) :
    Except RdbError Unit × TransactionImpl W × TransPool W :=
  (.ok (), t.closeInner true p)

def destroy (o : StmtOutcome) (p : TransPool W) :
    Except RdbError Unit × TransactionImpl W × TransPool W :=
  match t.connection with
  | none => (.ok (), t, p)
  | some _ => (.ok (), (t.rollback o p).2)

def data (txn : Option (List W)) (p : TransPool W) :
    Except RdbError Unit × TransactionImpl W × TransPool W :=
  match t.connection with
  | none => (.error .alreadyClosed, t, p)
  | some conn => (.ok (), ⟨some { conn with txn := txn }⟩, p)

end TransactionImpl

structure TransStore (W : Type) where
  pool : TransPool W
  objects : List (TransactionImpl W)

inductive TransCall (W : Type) where
  | create (type : Int) (creator : Except RdbError Unit) (o : StmtOutcome)
  | data (i : Nat) (txn : Option (List W))
  | commit (i : Nat) (o : StmtOutcome)
  | rollback (i : Nat) (o : StmtOutcome)
  | close (i : Nat)
  | destroy (i : Nat) (o : StmtOutcome)

namespace TransStore

variable (s : TransStore W)

def create (type : Int) (creator : Except RdbError Unit) (o : StmtOutcome) :
    Except RdbError Unit × TransStore W :=
  match s.pool.createTransConn true creator with
  | (err, none, pool) => (err, { s with pool := pool })
  | (_, some conn, pool) =>
    match TransactionImpl.begin conn type o pool with
    | (.ok (), t, pool) => (.ok (), ⟨pool, s.objects ++ [t]⟩)
    | (.error err, _, pool) => (.error err, { s with pool := pool })

def onObject (i : Nat)
    (method : TransactionImpl W → TransPool W →
      Except RdbError Unit × TransactionImpl W × TransPool W) :
    Except RdbError Unit × TransStore W :=
  match s.objects[i]? with
  | none => (.error .error, s)
  | some t =>
    let (ret, t, pool) := method t s.pool
    (ret, ⟨pool, s.objects.set i t⟩)

def call : TransCall W → Except RdbError Unit × TransStore W
  | .create type creator o => s.create type creator o
  | .data i txn => s.onObject i (·.data txn)
  | .commit i o => s.onObject i (·.commit o)
  | .rollback i o => s.onObject i (·.rollback o)
  | .close i => s.onObject i (·.close)
  | .destroy i o => s.onObject i (·.destroy o)

def opened : TransStore W :=
  ⟨⟨⟨[], 0, 0, MIN_TRANS_ID, MIN_TRANS_ID, MAX_TRANS, false⟩, true, 0⟩, []⟩

end TransStore

/-- Idle connections have no open transaction, and neither does one that `CreateTransConn` hands
out. -/
def CallClean (t : Transition (TransStore W) (TransCall W) (Except RdbError Unit)) : Prop :=
  (∀ node ∈ t.post.pool.trans.nodes, node.txn = none) ∧
    match t.call with
    | .create _ creator _ =>
      ∀ node, (t.pre.pool.createTransConn true creator).2.1 = some node → node.txn = none
    | _ => True

/-- `Close` is called on objects only whose transaction has ended. -/
def TransStore.ClosesEnded (s : TransStore W) : TransCall W → Prop
  | .close i => ∀ t ∈ s.objects[i]?, ∀ conn ∈ t.connection, conn.txn = none
  | _ => True

/-! ### What the pool keeps

`Clean` is the invariant of the container, and `Step` what a method of an object does to the pool
and to its object. -/

namespace Container
variable {c c' : Container W} {node : ConnNode W}

def Owns (c : Container W) (node : ConnNode W) : Prop := c.left ≤ node.id ∧ node.id < c.right

def Grows (c c' : Container W) : Prop := c'.left = c.left ∧ c.right ≤ c'.right

theorem Owns.mono (h : c.Owns node) (hc : c.Grows c') : c'.Owns node :=
  ⟨hc.1 ▸ h.1, Nat.lt_of_lt_of_le h.2 hc.2⟩

theorem Grows.refl : c.Grows c := ⟨rfl, Nat.le_refl _⟩

theorem Grows.trans (h : c.Grows c') (h' : c'.Grows c'') : c.Grows c'' :=
  ⟨h'.1.trans h.1, Nat.le_trans h.2 h'.2⟩

structure Clean (c : Container W) : Prop where
  range : c.left ≤ c.right
  ended : ∀ node ∈ c.nodes, node.txn = none
  owns : ∀ node ∈ c.nodes, c.Owns node

variable (creator : Except RdbError Unit)

theorem extendNode_clean (h : c.Clean) :
    (c.extendNode creator).2.Clean ∧ c.Grows (c.extendNode creator).2 := by
  cases creator with
  | error err => exact ⟨h, .refl⟩
  | ok _ =>
    have hgrows : c.Grows (c.extendNode (.ok ())).2 := ⟨rfl, Nat.le_succ _⟩
    refine ⟨⟨Nat.le_succ_of_le h.range, fun node hnode => ?_, fun node hnode => ?_⟩, hgrows⟩
    all_goals rcases mem_cons.mp hnode with rfl | hnode
    · rfl
    · exact h.ended node hnode
    · exact ⟨h.range, Nat.lt_succ_self _⟩
    · exact (h.owns node hnode).mono hgrows

theorem waiter_clean (h : c.Clean) :
    (c.waiter creator).2.2.Clean ∧ c.Grows (c.waiter creator).2.2 := by
  have hextend := extendNode_clean creator h
  unfold waiter
  split
  · exact ⟨h, .refl⟩
  · split
    · exact ⟨h, .refl⟩
    · split <;> simp_all only [and_self]

theorem acquire_clean (h : c.Clean) :
    (c.acquire creator).2.2.Clean ∧ c.Grows (c.acquire creator).2.2 ∧
      ∀ node, (c.acquire creator).2.1 = some node →
        node.txn = none ∧ (c.acquire creator).2.2.Owns node := by
  unfold acquire
  split
  · exact ⟨h, .refl, nofun⟩
  have hwaiter := waiter_clean creator h
  match hw : c.waiter creator with
  | (false, err, c') =>
    rw [hw] at hwaiter
    exact ⟨hwaiter.1, hwaiter.2, nofun⟩
  | (true, err, c') =>
    rw [hw] at hwaiter
    obtain ⟨hclean, hgrows⟩ := hwaiter
    dsimp only
    split
    · exact ⟨⟨hclean.range, hclean.ended, hclean.owns⟩, hgrows, nofun⟩
    next node nodes hnodes =>
      have hmem : node ∈ c'.nodes := by rw [hnodes]; exact mem_cons_self
      have hsub : ∀ n ∈ nodes, n ∈ c'.nodes := fun n hn => by
        rw [hnodes]; exact mem_cons_of_mem _ hn
      refine ⟨⟨hclean.range, fun n hn => hclean.ended n (hsub n hn), fun n hn =>
        hclean.owns n (hsub n hn)⟩, hgrows, ?_⟩
      rintro _ ⟨rfl⟩
      exact ⟨hclean.ended node hmem, hclean.owns node hmem⟩

theorem releaseTrans_clean (node : ConnNode W) (h : c.Clean)
    (hnode : node.isRecyclable → node.txn = none) :
    (c.releaseTrans node).Clean ∧ c.Grows (c.releaseTrans node) := by
  unfold releaseTrans
  split
  · exact ⟨h, .refl⟩
  next hid =>
    have hown : c.Owns node := ⟨by omega, by omega⟩
    split
    · refine ⟨⟨h.range, ?_, ?_⟩, .refl⟩ <;> rintro n (_ | ⟨_, hn⟩)
      · exact hnode ‹_›
      · exact h.ended n hn
      · exact hown
      · exact h.owns n hn
    · exact ⟨⟨h.range, h.ended, h.owns⟩, .refl⟩

theorem mem_releaseTrans (hown : c.Owns node) (hnode : node.isRecyclable) :
    node ∈ (c.releaseTrans node).nodes := by
  obtain ⟨hl, hr⟩ := hown
  unfold releaseTrans
  rw [if_neg (by omega), if_pos hnode]
  exact mem_cons_self

end Container

namespace TransactionImpl
variable {t : TransactionImpl W} {p : TransPool W}

def Owned (t : TransactionImpl W) (p : TransPool W) : Prop :=
  ∀ conn ∈ t.connection, p.trans.Owns conn

structure Step (p : TransPool W) (res : TransactionImpl W × TransPool W) : Prop where
  clean : res.2.trans.Clean
  grows : p.trans.Grows res.2.trans
  owned : res.1.Owned res.2

theorem closeInner_step (hp : p.trans.Clean) (connRecycle : Bool)
    (hend : connRecycle → ∀ conn ∈ t.connection, conn.txn = none) :
    Step p (t.closeInner connRecycle p) := by
  unfold closeInner
  cases hconn : t.connection with
  | none => exact ⟨hp, .refl, by rintro conn h; rw [hconn] at h; exact nomatch h⟩
  | some conn =>
    obtain ⟨hclean, hgrows⟩ := Container.releaseTrans_clean
      { conn with isRecyclable := connRecycle } hp fun h => hend h conn hconn
    exact ⟨hclean, hgrows, nofun⟩

theorem run_ended {conn conn' : ConnNode W} {stmt : TransStmt} (h : conn.run stmt = some conn')
    (hstmt : stmt ≠ .begin) : conn'.txn = none := by
  cases stmt with
  | begin => exact absurd rfl hstmt
  | commit | rollback =>
    obtain ⟨_, _, rfl⟩ := Option.map_eq_some_iff.mp h
    rfl

theorem execute_ok {conn conn' : ConnNode W} (h : conn.execute stmt o = .ok conn') :
    conn.run stmt = some conn' := by
  cases o with
  | noStatement err | failed err => exact nomatch h
  | done =>
    rw [ConnNode.execute] at h
    split at h
    · exact nomatch h
    · cases h
      assumption

theorem endTrans_step (hp : p.trans.Clean) (ht : t.Owned p) {stmt : TransStmt}
    (hstmt : stmt ≠ .begin) : Step p (t.endTrans stmt o p).2 := by
  unfold endTrans
  cases hconn : t.connection with
  | none => exact ⟨hp, .refl, ht⟩
  | some conn =>
    dsimp only
    split
    · exact closeInner_step hp false nofun
    next conn' hexec =>
      have hend : conn'.txn = none := run_ended (execute_ok hexec) hstmt
      exact closeInner_step (t := ⟨some conn'⟩) hp true fun _ => by rintro _ ⟨rfl⟩; exact hend

theorem destroy_step (hp : p.trans.Clean) (ht : t.Owned p) : Step p (t.destroy o p).2 := by
  unfold destroy
  split
  · exact ⟨hp, .refl, ht⟩
  · exact endTrans_step hp ht nofun

theorem data_step (hp : p.trans.Clean) (ht : t.Owned p) : Step p (t.data txn p).2 := by
  unfold data
  cases hconn : t.connection with
  | none => exact ⟨hp, .refl, ht⟩
  | some conn =>
    refine ⟨hp, .refl, ?_⟩
    rintro _ ⟨rfl⟩
    exact ht conn hconn

theorem begin_step {conn : ConnNode W} (type : Int) (o : StmtOutcome) (hp : p.trans.Clean)
    (hown : p.trans.Owns conn) (hend : conn.txn = none) : Step p (begin conn type o p).2 := by
  have hback : Step p (closeInner ⟨some conn⟩ true p) :=
    closeInner_step hp true fun _ => by rintro _ ⟨rfl⟩; exact hend
  unfold begin
  split
  · exact hback
  split
  · exact hback
  next conn' hexec =>
    refine ⟨hp, .refl, ?_⟩
    rintro _ ⟨rfl⟩
    have hrun := execute_ok hexec
    rw [ConnNode.run, hend] at hrun
    cases hrun
    exact hown

end TransactionImpl

namespace TransStore
variable {s : TransStore W} {c : TransCall W}

structure Inv (s : TransStore W) : Prop where
  clean : s.pool.trans.Clean
  owned : ∀ t ∈ s.objects, t.Owned s.pool

section
variable (h : s.Inv)
include h

theorem Inv.createTransConn (limited : Bool) (creator : Except RdbError Unit) :
    let res := s.pool.createTransConn limited creator
    res.2.2.trans.Clean ∧ s.pool.trans.Grows res.2.2.trans ∧
      ∀ node, res.2.1 = some node → node.txn = none ∧ res.2.2.trans.Owns node := by
  have hacquire := Container.acquire_clean creator h.clean
  unfold TransPool.createTransConn
  split
  · exact ⟨h.clean, .refl, nofun⟩
  · split
    next heq =>
      rw [heq] at hacquire
      exact ⟨hacquire.1, hacquire.2.1, nofun⟩
    next heq =>
      rw [heq] at hacquire
      exact hacquire

theorem Inv.objects {pool : TransPool W} (hgrows : s.pool.trans.Grows pool.trans) :
    ∀ t ∈ s.objects, t.Owned pool :=
  fun t ht conn hconn => (h.owned t ht conn hconn).mono hgrows

theorem Inv.create : (s.create type creator o).2.Inv := by
  obtain ⟨hclean, hgrows, hnode⟩ := h.createTransConn true creator
  unfold TransStore.create
  match hconn : s.pool.createTransConn true creator with
  | (err, none, pool) =>
    rw [hconn] at hclean hgrows
    exact ⟨hclean, h.objects hgrows⟩
  | (err, some conn, pool) =>
    rw [hconn] at hclean hgrows hnode
    obtain ⟨hend, hown⟩ := hnode conn rfl
    have hbegin := TransactionImpl.begin_step type o hclean hown hend
    dsimp only at hgrows ⊢
    have hgrows' := hgrows.trans hbegin.grows
    match hres : TransactionImpl.begin conn type o pool with
    | (.error err, t, pool') =>
      rw [hres] at hbegin hgrows'
      exact ⟨hbegin.clean, h.objects hgrows'⟩
    | (.ok (), t, pool') =>
      rw [hres] at hbegin hgrows'
      refine ⟨hbegin.clean, fun t' ht' => ?_⟩
      rcases mem_append.mp ht' with ht' | ht'
      · exact h.objects hgrows' t' ht'
      · rw [mem_singleton.mp ht']
        exact hbegin.owned

theorem Inv.onObject {i : Nat} {method : TransactionImpl W → TransPool W →
      Except RdbError Unit × TransactionImpl W × TransPool W}
    (hstep : ∀ t ∈ s.objects[i]?, TransactionImpl.Step s.pool (method t s.pool).2) :
    (s.onObject i method).2.Inv := by
  unfold TransStore.onObject
  cases ht : s.objects[i]? with
  | none => exact h
  | some t =>
    have hres := hstep t ht
    refine ⟨hres.clean, fun t' ht' => ?_⟩
    rcases mem_or_eq_of_mem_set ht' with ht' | rfl
    · exact h.objects hres.grows t' ht'
    · exact hres.owned

theorem Inv.owned_at {i : Nat} : ∀ t ∈ s.objects[i]?, t.Owned s.pool :=
  fun t ht => h.owned t (mem_of_getElem? ht)

theorem Inv.call (hc : s.ClosesEnded c) : (s.call c).2.Inv := by
  cases c with
  | create type creator o => exact h.create
  | data i txn => exact h.onObject fun t ht => t.data_step h.clean (h.owned_at t ht)
  | commit i o => exact h.onObject fun t ht => t.endTrans_step h.clean (h.owned_at t ht) nofun
  | rollback i o => exact h.onObject fun t ht => t.endTrans_step h.clean (h.owned_at t ht) nofun
  | close i => exact h.onObject fun t ht => t.closeInner_step h.clean true fun _ => hc t ht
  | destroy i o => exact h.onObject fun t ht => t.destroy_step h.clean (h.owned_at t ht)

theorem Inv.closesEnded (hc : CallClean (transition TransStore.call s c)) :
    s.ClosesEnded c := by
  cases c with
  | close i =>
    intro t ht conn hconn
    have hidle : ({ conn with isRecyclable := true } : ConnNode W) ∈
        (s.call (.close i)).2.pool.trans.nodes := by
      have hown := h.owned_at t ht conn hconn
      simp only [TransStore.call, TransStore.onObject, Option.mem_def.mp ht, TransactionImpl.close,
        TransactionImpl.closeInner, Option.mem_def.mp hconn, TransPool.releaseNode]
      exact Container.mem_releaseTrans hown rfl
    have hend : ({ conn with isRecyclable := true } : ConnNode W).txn = none := hc.1 _ hidle
    exact hend
  | _ => trivial

theorem Inv.callClean_iff :
    CallClean (transition TransStore.call s c) ↔ s.ClosesEnded c := by
  refine ⟨h.closesEnded, fun hc => ⟨(h.call hc).clean.ended, ?_⟩⟩
  cases c with
  | create type creator o =>
    exact fun node hnode => ((h.createTransConn true creator).2.2 node hnode).1
  | _ => trivial

end

end TransStore

theorem idle_clean_iff_closesEnded (calls : List (TransCall W)) :
    (∀ t ∈ trace TransStore.call .opened calls, CallClean t) ↔
      ∀ t ∈ trace TransStore.call .opened calls, t.pre.ClosesEnded t.call :=
  trace_forall_iff (I := TransStore.Inv) (fun _ _ h hc => h.call hc)
    (fun _ _ h => h.callClean_iff) ⟨⟨Nat.le_refl _, nofun, nofun⟩, nofun⟩

theorem not_idle_clean_of_close :
    let calls : List (TransCall Nat) :=
      [.create 0 (.ok ()) .done, .data 0 (some [7]), .close 0, .create 1 (.ok ()) .done]
    (¬ ∀ t ∈ trace TransStore.call .opened calls, CallClean t) ∧
      ((trace TransStore.call .opened calls).map (·.ret) =
        [.ok (), .ok (), .ok (), .error .sqliteError]) ∧
      (final TransStore.call .opened calls).pool.trans.nodes = [⟨10000, true, some [7]⟩] := by
  refine ⟨fun h => ?_, rfl, rfl⟩
  have hclose := (h _ (.tail _ (.tail _ (.head _)))).1
  exact nomatch hclose ⟨10000, true, some [7]⟩ (mem_singleton.mpr rfl)

end RelationalStore
