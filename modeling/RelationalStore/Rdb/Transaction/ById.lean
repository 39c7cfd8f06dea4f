import RelationalStore.Theory.Run
import Mathlib.Logic.Function.Basic

/-! # Transactions by id

A vector store keeps the connection of each transaction in `trxConnMap_` under an id that any thread
may pass to `Execute`, `Commit` and `RollBack`. A call looks the connection up, runs its statement
on it and takes it out when that has ended the transaction, and the threads interleave these
steps.

The engine is not part of the repository. A step takes its answer, and whether it has a transaction
on the connection afterwards, as they come; what the results assume of them is stated as laws. -/

namespace RelationalStore

/-- What `ExecuteByTrxId` is given. `Execute` refuses texts that begin or end a transaction. -/
inductive TrxSql where
  | begin
  | commit
  | rollback
  | data
  deriving DecidableEq

/-- Where a thread is in `ExecuteByTrxId`. `Contains` and `Find` are one step: a call whose id is
erased between them fails all the same. -/
inductive TrxPhase where
  | idle
  | called (trxId : Nat) (sql : TrxSql)
  | found (trxId : Nat) (sql : TrxSql) (conn : Nat)
  /-- The transaction has ended, or its `BEGIN` has failed. -/
  | erasing (trxId : Nat)
  deriving DecidableEq

structure TrxStore where
  newTrxId : Nat
  trxConnMap : Nat → Option Nat
  /-- The engine has a transaction on the connection. -/
  inTrans : Nat → Bool
  phase : Nat → TrxPhase

/-- The engine's answer to a statement, and whether it has a transaction on the connection then. -/
structure TrxAnswer where
  ok : Bool
  inTrans : Bool

inductive TrxStep where
  /-- `BeginTrans` puts the connection that `CreateTransConn` gives it into the map. -/
  | beginTrans (thread conn : Nat)
  | call (thread trxId : Nat) (sql : TrxSql) (hsql : sql ≠ .begin)
  /-- The thread goes on; the answer is that to its statement, if it runs one. -/
  | next (thread : Nat) (answer : TrxAnswer)

/-- `closeConnAfterExecute` -/
def TrxSql.closes : TrxSql → Bool
  | .commit | .rollback => true
  | .begin | .data => false

namespace TrxAnswer

/-- A transaction is opened by a successful `BEGIN` only, and a successful `COMMIT` or `ROLLBACK`
has found one and leaves none. -/
def Lawful (inTrans : Bool) (sql : TrxSql) (answer : TrxAnswer) : Prop :=
  (answer.inTrans → inTrans ∨ sql = .begin ∧ answer.ok) ∧
    (answer.ok → sql.closes → inTrans ∧ answer.inTrans = false)

/-- A successful `BEGIN` leaves a transaction, and only a successful `COMMIT` or `ROLLBACK` ends
one: the engine never rolls back on its own. -/
def Lasting (inTrans : Bool) (sql : TrxSql) (answer : TrxAnswer) : Prop :=
  (answer.ok → sql = .begin → answer.inTrans) ∧
    (inTrans → answer.inTrans ∨ answer.ok ∧ sql.closes)

end TrxAnswer

namespace TrxPhase

/-- Only `BeginTrans` erases the id after a failure. -/
def failed (trxId : Nat) (sql : TrxSql) : TrxPhase := if sql = .begin then .erasing trxId else .idle

/-- The id whose transaction the thread has still to begin, or has ended. -/
def changing : TrxPhase → Option Nat
  | .called trxId .begin | .found trxId .begin _ | .erasing trxId => some trxId
  | _ => none

theorem changing_called (h : sql ≠ .begin) : (called trxId sql).changing = none := by
  cases sql with
  | begin => exact absurd rfl h
  | _ => rfl

theorem changing_failed (trxId : Nat) (sql : TrxSql) :
    (failed trxId sql).changing = (called trxId sql).changing := by
  cases sql <;> rfl

theorem changing_found (trxId : Nat) (sql : TrxSql) (conn : Nat) :
    (found trxId sql conn).changing = (called trxId sql).changing := by
  cases sql <;> rfl

end TrxPhase

namespace TrxStore

def initial : TrxStore := ⟨1, fun _ => none, fun _ => false, fun _ => .idle⟩

def setPhase (s : TrxStore) (thread : Nat) (ph : TrxPhase) : TrxStore :=
  { s with phase := Function.update s.phase thread ph }

def advance (s : TrxStore) (thread : Nat) (answer : TrxAnswer) : TrxStore :=
  match s.phase thread with
  | .idle => s
  | .called trxId sql =>
    s.setPhase thread (match s.trxConnMap trxId with
      | some conn => .found trxId sql conn
      | none => .failed trxId sql)
  | .found trxId sql conn =>
    { s with inTrans := Function.update s.inTrans conn answer.inTrans }.setPhase thread
      (if answer.ok = false then .failed trxId sql
      else if sql.closes then .erasing trxId
      else .idle)
  | .erasing trxId =>
    { s with trxConnMap := Function.update s.trxConnMap trxId none }.setPhase thread .idle

/-- A thread makes one call at a time. -/
def step (s : TrxStore) : TrxStep → Unit × TrxStore
  | .beginTrans thread conn =>
    ((), if s.phase thread = .idle then
        { s with
          newTrxId := s.newTrxId + 1
          trxConnMap := Function.update s.trxConnMap s.newTrxId (some conn) }.setPhase thread
            (.called s.newTrxId .begin)
      else s)
  | .call thread trxId sql _ =>
    ((), if s.phase thread = .idle then s.setPhase thread (.called trxId sql) else s)
  | .next thread answer => ((), s.advance thread answer)

/-- `CreateTransConn` gives a connection that is not in the map, nor held by a call. -/
def Unused (s : TrxStore) : TrxStep → Prop
  | .beginTrans _ conn => (∀ trxId, s.trxConnMap trxId ≠ some conn) ∧
      ∀ thread trxId sql, s.phase thread ≠ .found trxId sql conn
  | .call _ _ _ _ | .next _ _ => True

/-- The engine keeps to the law in the statement that the step runs, if it runs one. -/
def Obeys (law : Bool → TrxSql → TrxAnswer → Prop) (s : TrxStore) : TrxStep → Prop
  | .next thread answer => ∀ trxId sql conn, s.phase thread = .found trxId sql conn →
      law (s.inTrans conn) sql answer
  | .beginTrans _ _ | .call _ _ _ _ => True

/-- What is assumed of the pool and of the engine. -/
structure Regular (s : TrxStore) (c : TrxStep) : Prop where
  unused : s.Unused c
  lawful : s.Obeys TrxAnswer.Lawful c

/-- The map has the connection under an id that no thread is about to begin or to erase. -/
def Reachable (s : TrxStore) (conn : Nat) : Prop :=
  ∃ trxId, s.trxConnMap trxId = some conn ∧ ∀ thread, (s.phase thread).changing ≠ some trxId

/-- No connection has two ids, and no transaction is lost. -/
structure Covered (s : TrxStore) : Prop where
  inj : ∀ trxId trxId' conn, s.trxConnMap trxId = some conn → s.trxConnMap trxId' = some conn →
    trxId = trxId'
  reachable : ∀ conn, s.inTrans conn → s.Reachable conn

/-- An id that no thread is about to begin or to erase has an open transaction. -/
def Exact (s : TrxStore) : Prop := ∀ conn, s.Reachable conn → s.inTrans conn

/-- One thread at a time begins or erases an id. A connection that a call holds is in the map under
the id of the call or not at all, and under it if the call is to begin the transaction. -/
structure Inv (s : TrxStore) : Prop extends Covered s where
  lt_of_mem : ∀ trxId conn, s.trxConnMap trxId = some conn → trxId < s.newTrxId
  lt_of_changing : ∀ thread trxId, (s.phase thread).changing = some trxId → trxId < s.newTrxId
  changing_inj : ∀ thread thread' trxId, (s.phase thread).changing = some trxId →
    (s.phase thread').changing = some trxId → thread = thread'
  found : ∀ thread trxId sql conn, s.phase thread = .found trxId sql conn →
    s.trxConnMap trxId = some conn ∨ sql ≠ .begin ∧ ∀ trxId', s.trxConnMap trxId' ≠ some conn

variable {s : TrxStore} {thread : Nat}

/-- A thread that goes on without changing anything else. -/
theorem Inv.setPhase (h : Inv s) (hph : ph.changing = (s.phase thread).changing)
    (hheld : ∀ trxId sql conn, ph = .found trxId sql conn → s.trxConnMap trxId = some conn) :
    Inv (s.setPhase thread ph) := by
  obtain ⟨⟨hinj, hopen⟩, hlt, hltChanging, hchanging, hfound⟩ := h
  refine ⟨⟨?_, ?_⟩, ?_, ?_, ?_, ?_⟩
  all_goals simp only [TrxStore.setPhase, Reachable, Function.update_apply] at hopen ⊢
  all_goals grind

variable {conn : Nat}

theorem Inv.beginTrans (h : Inv s) (hunused : s.Unused (.beginTrans thread conn)) :
    Inv ({ s with
      newTrxId := s.newTrxId + 1
      trxConnMap := Function.update s.trxConnMap s.newTrxId (some conn) }.setPhase thread
        (.called s.newTrxId .begin)) := by
  obtain ⟨⟨hinj, hopen⟩, hlt, hltChanging, hchanging, hfound⟩ := h
  obtain ⟨hmap, hheld⟩ := hunused
  refine ⟨⟨?_, ?_⟩, ?_, ?_, ?_, ?_⟩
  all_goals simp only [TrxStore.setPhase, Reachable, Function.update_apply] at hopen ⊢
  all_goals grind [TrxPhase.changing]

variable {trxId : Nat} {answer : TrxAnswer}

/-- A statement of a thread that has found its connection. -/
theorem Inv.execute (h : Inv s) (hphase : s.phase thread = .found trxId sql conn)
    (hlaw : answer.Lawful (s.inTrans conn) sql) :
    Inv ({ s with inTrans := Function.update s.inTrans conn answer.inTrans }.setPhase thread
      (if answer.ok = false then .failed trxId sql
      else if sql.closes then .erasing trxId
      else .idle)) := by
  obtain ⟨⟨hinj, hopen⟩, hlt, hltChanging, hchanging, hfound⟩ := h
  obtain ⟨hopens, hends⟩ := hlaw
  have hconn := hfound _ _ _ _ hphase
  refine ⟨⟨?_, ?_⟩, ?_, ?_, ?_, ?_⟩
  all_goals simp only [TrxStore.setPhase, Reachable, Function.update_apply] at hopen ⊢
  all_goals cases sql <;> grind [TrxPhase.changing, TrxPhase.failed, TrxSql.closes]

theorem Inv.erase (h : Inv s) (hphase : s.phase thread = .erasing trxId) :
    Inv ({ s with trxConnMap := Function.update s.trxConnMap trxId none }.setPhase thread
      .idle) := by
  obtain ⟨⟨hinj, hopen⟩, hlt, hltChanging, hchanging, hfound⟩ := h
  refine ⟨⟨?_, ?_⟩, ?_, ?_, ?_, ?_⟩
  all_goals simp only [TrxStore.setPhase, Reachable, Function.update_apply] at hopen ⊢
  all_goals grind [TrxPhase.changing]

theorem Inv.advance (h : Inv s)
    (hlaw : s.Obeys TrxAnswer.Lawful (.next thread answer)) : Inv (s.advance thread answer) := by
  unfold TrxStore.advance
  split
  · exact h
  next trxId sql hphase =>
    refine h.setPhase ?_ fun trxId' sql' conn heq => ?_
    · rw [hphase]
      split
      · exact TrxPhase.changing_found trxId sql _
      · exact TrxPhase.changing_failed trxId sql
    · split at heq
      next hconn =>
        cases heq
        exact hconn
      · cases sql <;> cases heq
  next trxId sql conn hphase => exact h.execute hphase (hlaw _ _ _ hphase)
  next trxId hphase => exact h.erase hphase

variable {c : TrxStep}

theorem Inv.step (h : Inv s) (hregular : s.Regular c) : Inv (step s c).2 := by
  cases c with
  | beginTrans thread conn =>
    unfold TrxStore.step
    dsimp only
    split
    · exact h.beginTrans hregular.unused
    · exact h
  | call thread trxId sql hsql =>
    unfold TrxStore.step
    dsimp only
    split
    next hidle =>
      refine h.setPhase ?_ fun _ _ _ heq => nomatch heq
      rw [hidle]
      exact TrxPhase.changing_called hsql
    · exact h
  | next thread answer => exact h.advance hregular.lawful

theorem inv_initial : Inv initial := by
  refine ⟨⟨?_, ?_⟩, ?_, ?_, ?_, ?_⟩
  all_goals simp [initial, Reachable, TrxPhase.changing]

/-! ## Ids without a transaction -/

theorem Exact.setPhase (h : Exact s) (hph : ph.changing = (s.phase thread).changing) :
    Exact (s.setPhase thread ph) := by
  unfold Exact Reachable TrxStore.setPhase at *
  simp only [Function.update_apply]
  grind

theorem Exact.beginTrans (h : Exact s) (hidle : s.phase thread = .idle) (conn : Nat) :
    Exact ({ s with
      newTrxId := s.newTrxId + 1
      trxConnMap := Function.update s.trxConnMap s.newTrxId (some conn) }.setPhase thread
        (.called s.newTrxId .begin)) := by
  unfold Exact Reachable TrxStore.setPhase at *
  simp only [Function.update_apply]
  grind [TrxPhase.changing]

theorem Exact.erase (h : Exact s) (hphase : s.phase thread = .erasing trxId) :
    Exact ({ s with trxConnMap := Function.update s.trxConnMap trxId none }.setPhase thread
      .idle) := by
  unfold Exact Reachable TrxStore.setPhase at *
  simp only [Function.update_apply]
  grind [TrxPhase.changing]

theorem exact_execute_iff (h : Inv s) (hexact : Exact s)
    (hphase : s.phase thread = .found trxId sql conn) (hlaw : answer.Lawful (s.inTrans conn) sql) :
    Exact ({ s with inTrans := Function.update s.inTrans conn answer.inTrans }.setPhase thread
      (if answer.ok = false then .failed trxId sql
      else if sql.closes then .erasing trxId
      else .idle)) ↔ answer.Lasting (s.inTrans conn) sql := by
  obtain ⟨⟨hinj, hopen⟩, -, -, hchanging, hfound⟩ := h
  obtain ⟨hopens, hends⟩ := hlaw
  have hconn := hfound _ _ _ _ hphase
  simp only [Exact, Reachable, TrxStore.setPhase, TrxAnswer.Lasting, Function.update_apply] at *
  cases sql <;> grind [TrxPhase.changing, TrxPhase.failed, TrxSql.closes]

theorem exact_advance_iff (h : Inv s) (hexact : Exact s)
    (hlaw : s.Obeys TrxAnswer.Lawful (.next thread answer)) :
    Exact (s.advance thread answer) ↔ s.Obeys TrxAnswer.Lasting (.next thread answer) := by
  unfold TrxStore.advance
  cases hphase : s.phase thread with
  | idle => exact iff_of_true hexact fun _ _ _ hfound => nomatch hphase.symm.trans hfound
  | called trxId sql =>
    refine iff_of_true (hexact.setPhase ?_) fun _ _ _ hfound => nomatch hphase.symm.trans hfound
    rw [hphase]
    split
    · exact TrxPhase.changing_found trxId sql _
    · exact TrxPhase.changing_failed trxId sql
  | found trxId sql conn =>
    refine (exact_execute_iff h hexact hphase (hlaw _ _ _ hphase)).trans ⟨?_, fun hlasting => ?_⟩
    · intro hlasting trxId' sql' conn' hfound
      cases hphase.symm.trans hfound
      exact hlasting
    · exact hlasting _ _ _ hphase
  | erasing trxId =>
    exact iff_of_true (hexact.erase hphase) fun _ _ _ hfound => nomatch hphase.symm.trans hfound

theorem exact_step_iff (h : Inv s) (hexact : Exact s) (hregular : s.Regular c) :
    Exact (step s c).2 ↔ s.Obeys TrxAnswer.Lasting c := by
  cases c with
  | beginTrans thread conn =>
    refine iff_of_true ?_ trivial
    unfold TrxStore.step
    dsimp only
    split
    next hidle => exact hexact.beginTrans hidle conn
    · exact hexact
  | call thread trxId sql hsql =>
    refine iff_of_true ?_ trivial
    unfold TrxStore.step
    dsimp only
    split
    next hidle =>
      refine hexact.setPhase ?_
      rw [hidle]
      exact TrxPhase.changing_called hsql
    · exact hexact
  | next thread answer => exact exact_advance_iff h hexact hregular.lawful

/-- In every interleaving a connection has one id at most, and an open transaction is under an id
that no thread is about to begin or to erase. Every such id has an open transaction throughout just
when the engine ends none on its own. -/
theorem covered_and_exact_iff (calls : List TrxStep)
    (h : ∀ t ∈ trace step initial calls, t.pre.Regular t.call) :
    (∀ t ∈ trace step initial calls, t.post.Covered) ∧
      ((∀ t ∈ trace step initial calls, t.post.Exact) ↔
        ∀ t ∈ trace step initial calls, t.pre.Obeys TrxAnswer.Lasting t.call) := by
  constructor
  · refine trace_forall (I := Inv) (fun s c hinv hregular => ?_) inv_initial h
    exact ⟨hinv.step hregular, (hinv.step hregular).toCovered⟩
  · refine trace_forall_iff_of (I := fun s => Inv s ∧ Exact s)
      (fun s c hs hregular hlasting => ?_) (fun s c hs hregular => ?_) ⟨inv_initial, ?_⟩ h
    · exact ⟨hs.1.step hregular, (exact_step_iff hs.1 hs.2 hregular).mpr hlasting⟩
    · exact exact_step_iff hs.1 hs.2 hregular
    · rintro conn ⟨trxId, hmem, -⟩
      exact nomatch hmem

/-- One thread begins a transaction and another one commits it. -/
def committedByAnother : List TrxStep :=
  [.beginTrans 0 7, .next 0 ⟨true, false⟩, .next 0 ⟨true, true⟩,
    .call 1 1 .commit (by decide), .next 1 ⟨true, true⟩, .next 1 ⟨true, false⟩,
    .next 1 ⟨true, false⟩]

theorem regular_committedByAnother :
    ∀ t ∈ trace step initial committedByAnother, t.pre.Regular t.call := by
  simp only [committedByAnother, trace, List.forall_mem_cons]
  refine ⟨⟨⟨by rintro _ ⟨⟩, ?_⟩, trivial⟩, ⟨trivial, ?_⟩, ⟨trivial, ?_⟩, ⟨trivial, trivial⟩,
    ⟨trivial, ?_⟩, ⟨trivial, ?_⟩, ⟨trivial, ?_⟩, List.forall_mem_nil _⟩ <;> rintro _ _ _ ⟨⟩
  · exact ⟨fun _ => .inr ⟨rfl, rfl⟩, by rintro _ ⟨⟩⟩
  · exact ⟨by rintro ⟨⟩, fun _ _ => ⟨rfl, rfl⟩⟩

theorem exact_committedByAnother :
    (∀ t ∈ trace step initial committedByAnother, t.pre.Regular t.call) ∧
    (∀ t ∈ trace step initial committedByAnother, t.post.Covered) ∧
      ∀ t ∈ trace step initial committedByAnother, t.post.Exact := by
  obtain ⟨hcovered, hexact⟩ := covered_and_exact_iff _ regular_committedByAnother
  refine ⟨regular_committedByAnother, hcovered, hexact.mpr ?_⟩
  simp only [committedByAnother, trace, List.forall_mem_cons]
  refine ⟨trivial, ?_, ?_, trivial, ?_, ?_, ?_, List.forall_mem_nil _⟩ <;> rintro _ _ _ ⟨⟩
  · exact ⟨fun _ _ => rfl, fun _ => .inl rfl⟩
  · exact ⟨fun _ h => absurd h (by decide), fun _ => .inr ⟨rfl, rfl⟩⟩

/-! ## Ending a transaction once -/

/-- A `Commit` or `RollBack` of the transaction succeeds. -/
def Ends (trxId : Nat) (t : Transition TrxStore TrxStep Unit) : Prop :=
  ∃ thread answer sql conn, t.call = .next thread answer ∧
    t.pre.phase thread = .found trxId sql conn ∧ sql.closes ∧ t.post.phase thread = .erasing trxId

/-- The id has been given, and it is not in the map or about to be erased. -/
def Ended (trxId : Nat) (s : TrxStore) : Prop :=
  trxId < s.newTrxId ∧ ∀ conn, s.trxConnMap trxId = some conn →
    ∃ thread, s.phase thread = .erasing trxId

/-- A transaction that ends is open, and no other thread is ending it. -/
theorem Inv.open_of_ends (h : Inv s) (hregular : s.Regular c)
    (hends : Ends trxId (transition TrxStore.step s c)) : ∃ conn, s.trxConnMap trxId = some conn ∧
      ∀ thread, (s.phase thread).changing ≠ some trxId := by
  obtain ⟨thread, answer, sql, conn, rfl, hphase, hcloses, hpost⟩ := hends
  have hok : answer.ok := by
    simp only [transition, TrxStore.step, TrxStore.advance, TrxStore.setPhase] at hphase hpost
    rw [hphase] at hpost
    cases sql <;> grind [TrxSql.closes, TrxPhase.failed]
  have hinTrans := ((hregular.lawful _ _ _ hphase).2 hok hcloses).1
  obtain ⟨trxId', hmem, hidle⟩ := h.reachable conn hinTrans
  rcases h.found _ _ _ _ hphase with hconn | ⟨-, hnone⟩
  · exact ⟨conn, hconn, h.inj _ _ _ hmem hconn ▸ hidle⟩
  · exact absurd hmem (hnone trxId')

theorem newTrxId_le_step (s : TrxStore) (c : TrxStep) :
    s.newTrxId ≤ (step s c).2.newTrxId := by
  cases c <;> unfold step <;> grind [advance, setPhase]

theorem Ended.step (h : Ended trxId s) (c : TrxStep) : Ended trxId (step s c).2 := by
  obtain ⟨hlt, herasing⟩ := h
  refine ⟨Nat.lt_of_lt_of_le hlt (s.newTrxId_le_step c), ?_⟩
  cases c with
  | beginTrans | call =>
    unfold TrxStore.step
    dsimp only
    split
    · simp only [setPhase, Function.update_apply]
      grind
    · exact herasing
  | next thread answer =>
    simp only [TrxStore.step, advance, setPhase]
    split
    · exact herasing
    all_goals simp only [Function.update_apply]
    all_goals grind

theorem pairwise_ends (h : Inv s) (calls : List TrxStep)
    (hregular : ∀ t ∈ trace step s calls, t.pre.Regular t.call) :
    (trace step s calls).Pairwise fun t t' => ∀ trxId, Ends trxId t → ¬ Ends trxId t' := by
  induction calls generalizing s with
  | nil => exact .nil
  | cons c calls ih =>
    obtain ⟨hc, hrest⟩ := List.forall_mem_cons.mp hregular
    refine List.pairwise_cons.mpr ⟨fun t' ht' trxId hends => ?_, ih (h.step hc) hrest⟩
    refine trace_forall (I := fun s => Inv s ∧ Ended trxId s) (P := fun t => ¬ Ends trxId t)
      (fun s c hs hc => ⟨⟨hs.1.step hc, hs.2.step c⟩, fun hends => ?_⟩)
      ⟨h.step hc, ?_⟩ hrest t' ht'
    · obtain ⟨conn, hconn, hidle⟩ := hs.1.open_of_ends hc hends
      obtain ⟨thread, hthread⟩ := hs.2.2 conn hconn
      exact hidle thread (congrArg TrxPhase.changing hthread)
    · obtain ⟨conn, hconn, -⟩ := h.open_of_ends hc hends
      obtain ⟨thread, -, -, -, -, -, -, hpost⟩ := hends
      exact ⟨Nat.lt_of_lt_of_le (h.lt_of_mem _ _ hconn) (s.newTrxId_le_step c),
        fun _ _ => ⟨thread, hpost⟩⟩

/-- However the threads interleave, of all calls of `Commit` and `RollBack` with an id one succeeds
at most. -/
theorem ends_at_most_once (calls : List TrxStep)
    (h : ∀ t ∈ trace step initial calls, t.pre.Regular t.call) :
    (trace step initial calls).Pairwise fun t t' => ∀ trxId, Ends trxId t → ¬ Ends trxId t' :=
  pairwise_ends inv_initial calls h

theorem ends_at_most_once_committedByAnother :
    (∃ t ∈ trace step initial committedByAnother, Ends 1 t) ∧
      (trace step initial committedByAnother).Pairwise fun t t' =>
        ∀ trxId, Ends trxId t → ¬ Ends trxId t' := by
  refine ⟨?_, ends_at_most_once _ regular_committedByAnother⟩
  refine ⟨transition step (final step initial (committedByAnother.take 5))
    (.next 1 ⟨true, false⟩), ?_, ?_⟩
  · simp [committedByAnother, trace, final]
  · exact ⟨1, ⟨true, false⟩, .commit, 7, rfl, rfl, rfl, rfl⟩

end TrxStore

end RelationalStore
