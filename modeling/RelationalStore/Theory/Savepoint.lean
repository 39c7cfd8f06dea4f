import Mathlib.Data.List.Basic

/-! Transactions with named savepoints, and nested transactions.

`Db` is a connection with the usual commands, `Nesting` the ideal that a stack of them is to keep.
-/

namespace RelationalStore

open List

structure Txn (ν D : Type) where
  cur : D
  savepoints : List (ν × D)

structure Db (ν D : Type) where
  committed : D
  txn : Option (Txn ν D)

inductive TxnCmd (ν : Type) where
  | begin
  | commit
  | rollback
  | savepoint (name : ν)
  | rollbackTo (name : ν)

namespace Db
variable {ν D : Type}

variable (db : Db ν D)

def view : D :=
  match db.txn with
  | none => db.committed
  | some t => t.cur

def write (f : D → D) : Db ν D :=
  match db.txn with
  | none => { db with committed := f db.committed }
  | some t => { db with txn := some { t with cur := f t.cur } }

def close : Db ν D := { db with txn := none }

def exec [DecidableEq ν] : TxnCmd ν → Option (Db ν D)
  | .begin =>
    match db.txn with
    | none => some { db with txn := some ⟨db.committed, []⟩ }
    | some _ => none
  | .commit => db.txn.map fun t => ⟨t.cur, none⟩
  | .rollback => db.txn.map fun _ => db.close
  | .savepoint name =>
    match db.txn with
    | none => some { db with txn := some ⟨db.committed, [(name, db.committed)]⟩ }
    | some t => some { db with txn := some { t with savepoints := (name, t.cur) :: t.savepoints } }
  | .rollbackTo name =>
    match db.txn with
    | none => none
    | some t =>
      match t.savepoints.dropWhile (·.1 ≠ name) with
      | [] => none
      | (n, saved) :: older => some { db with txn := some ⟨saved, (n, saved) :: older⟩ }

theorem view_write {db : Db ν D} : (db.write f).view = f db.view := by
  cases htxn : db.txn <;> simp only [view, write, htxn]

theorem view_exec {db db' : Db ν D} {cmd : TxnCmd ν} [DecidableEq ν] (h : db.exec cmd = some db')
    (hroll : cmd ≠ .rollback) (hrollTo : ∀ name, cmd ≠ .rollbackTo name) : db'.view = db.view := by
  cases cmd with
  | begin | savepoint name =>
    cases htxn : db.txn <;> simp only [exec, htxn, reduceCtorEq, Option.some.injEq] at h <;>
      simp only [view, htxn, ← h]
  | commit =>
    obtain ⟨t, htxn, rfl⟩ := Option.map_eq_some_iff.mp h
    simp only [view, htxn]
  | rollback => exact absurd rfl hroll
  | rollbackTo name => exact absurd rfl (hrollTo name)

end Db

structure Nesting (D : Type) where
  committed : D
  levels : List (List (D → D))

namespace Nesting
variable {D : Type}

def replay (log : List (D → D)) (d : D) : D := log.foldl (fun d f => f d) d

def viewOf (d : D) : List (List (D → D)) → D
  | [] => d
  | log :: outer => replay log (viewOf d outer)

variable (n : Nesting D)

def view : D := viewOf n.committed n.levels

def begin : Nesting D := { n with levels := [] :: n.levels }

def write (f : D → D) : Nesting D :=
  match n.levels with
  | [] => { n with committed := f n.committed }
  | log :: outer => { n with levels := (log ++ [f]) :: outer }

def commit : Nesting D :=
  match n.levels with
  | [] => n
  | [log] => ⟨replay log n.committed, []⟩
  | log :: parent :: outer => { n with levels := (parent ++ log) :: outer }

def rollback : Nesting D := { n with levels := n.levels.tail }

theorem replay_append (log log' : List (D → D)) (d : D) :
    replay (log ++ log') d = replay log' (replay log d) := foldl_append

theorem length_begin : n.begin.levels.length = n.levels.length + 1 := rfl

theorem length_write (f : D → D) :
    (n.write f).levels.length = n.levels.length := by
  unfold write
  split <;> simp_all

theorem length_commit : n.commit.levels.length = n.levels.length - 1 := by
  unfold commit
  split <;> simp_all

theorem length_rollback : n.rollback.levels.length = n.levels.length - 1 :=
  length_tail

def starts (d : D) : List (List (D → D)) → List D
  | [] | [_] => []
  | _ :: parent :: outer => viewOf d (parent :: outer) :: starts d (parent :: outer)

theorem starts_cons_congr (d : D) (log log' : List (D → D)) (outer : List (List (D → D))) :
    starts d (log :: outer) = starts d (log' :: outer) := by
  cases outer <;> rfl

end Nesting

/-! ### The simulation -/

section
variable {ν D : Type} {name : Nat → ν}

inductive Nested (name : Nat → ν) : Nat → List (ν × D) → List D → Prop
  | outermost : Nested name 1 savepoints []
  | level : Nested name depth older starts →
    (∀ p ∈ newer, ∀ i, 1 ≤ i → i ≤ depth → p.1 ≠ name i) →
    Nested name (depth + 1) (newer ++ (name depth, start) :: older) (start :: starts)

namespace Nested
variable {savepoints : List (ν × D)} {starts : List D} {depth : Nat}

theorem stale (h : Nested name depth savepoints starts)
    (hn : ∀ i, 1 ≤ i → i < depth → n ≠ name i) :
    Nested name depth ((n, saved) :: savepoints) starts := by
  cases h with
  | outermost => exact .outermost
  | level hold hnewer =>
    rw [← cons_append]
    refine .level hold fun p hp i h1 h2 => ?_
    rcases mem_cons.mp hp with rfl | hp
    · exact hn i h1 (Nat.lt_succ_of_le h2)
    · exact hnewer p hp i h1 h2

theorem pop (h : Nested name (depth + 1) savepoints (start :: starts))
    (hinj : ∀ i, 1 ≤ i → i < depth → name depth ≠ name i) :
    Nested name depth savepoints starts := by
  cases h with
  | level hold hnewer =>
    rename_i older newer
    have hstale : Nested name depth ((name depth, start) :: older) starts := hold.stale hinj
    clear hold
    induction newer with
    | nil => exact hstale
    | cons p newer ih =>
      refine stale (ih fun q hq => hnewer q (mem_cons_of_mem p hq)) fun i h1 h2 => ?_
      exact hnewer p mem_cons_self i h1 (Nat.le_of_lt h2)

theorem dropWhile_eq [DecidableEq ν] (h : Nested name (depth + 1) savepoints (start :: starts))
    (hpos : 1 ≤ depth) (hinj : ∀ i, 1 ≤ i → i < depth → name depth ≠ name i) :
    ∃ older, savepoints.dropWhile (·.1 ≠ name depth) = (name depth, start) :: older ∧
      Nested name depth ((name depth, start) :: older) starts := by
  cases h with
  | level hold hnewer =>
    rename_i older newer
    refine ⟨older, ?_, hold.stale hinj⟩
    rw [dropWhile_append_of_pos, dropWhile_cons_of_neg]
    · simp
    · intro p hp
      simpa using hnewer p hp depth hpos (Nat.le_refl depth)

end Nested

/-- The connection of a client that keeps the nesting `n` with its savepoints. -/
structure Agrees (name : Nat → ν) (db : Db ν D) (n : Nesting D) : Prop where
  committed : db.committed = n.committed
  closed : n.levels = [] → db.txn = none
  opened : n.levels ≠ [] → ∃ savepoints, db.txn = some ⟨n.view, savepoints⟩ ∧
    Nested name n.levels.length savepoints (Nesting.starts n.committed n.levels)

namespace Agrees
variable {db : Db ν D} {n : Nesting D}

theorem view_eq (h : Agrees name db n) : db.view = n.view := by
  cases hl : n.levels with
  | nil => rw [Db.view, h.closed hl, Nesting.view, hl, h.committed, Nesting.viewOf]
  | cons log outer =>
    obtain ⟨savepoints, htxn, _⟩ := h.opened (by rw [hl]; nofun)
    rw [Db.view, htxn]

theorem write (h : Agrees name db n) (f : D → D) : Agrees name (db.write f) (n.write f) := by
  cases hl : n.levels with
  | nil =>
    rw [Db.write, h.closed hl, Nesting.write, hl]
    exact ⟨congrArg f h.committed, fun _ => rfl, fun hne => absurd rfl hne⟩
  | cons log outer =>
    obtain ⟨savepoints, htxn, hnested⟩ := h.opened (by rw [hl]; nofun)
    rw [hl] at hnested
    rw [Db.write, htxn, Nesting.write, hl]
    refine ⟨h.committed, nofun, fun _ => ⟨savepoints, ?_, ?_⟩⟩
    · simp only [Nesting.view, hl, Nesting.viewOf, Nesting.replay_append]
      rfl
    · rwa [Nesting.starts_cons_congr n.committed (log ++ [f]) log]

theorem commit_inner (h : Agrees name db n) (hn : 2 ≤ n.levels.length)
    (hinj : ∀ i, 1 ≤ i → i < n.levels.length - 1 → name (n.levels.length - 1) ≠ name i) :
    Agrees name db n.commit := by
  match hl : n.levels with
  | [] => simp [hl] at hn
  | [_] => simp [hl] at hn
  | log :: parent :: outer =>
    obtain ⟨savepoints, htxn, hnested⟩ := h.opened (by rw [hl]; nofun)
    rw [hl] at hnested hinj
    rw [Nesting.commit, hl]
    refine ⟨h.committed, nofun, fun _ => ⟨savepoints, ?_, ?_⟩⟩
    · rw [htxn, Nesting.view, hl, Nesting.view, Nesting.viewOf, Nesting.viewOf, Nesting.viewOf,
        Nesting.replay_append]
    · rw [Nesting.starts_cons_congr n.committed (parent ++ log) parent]
      exact hnested.pop hinj

variable [DecidableEq ν]

section
variable (h : Agrees name db n)
include h

theorem begin (hn : n.levels = []) :
    ∃ db', db.exec .begin = some db' ∧ Agrees name db' n.begin := by
  refine ⟨{ db with txn := some ⟨db.committed, []⟩ }, by rw [Db.exec, h.closed hn], h.committed,
    nofun, fun _ => ⟨[], ?_, ?_⟩⟩
  · rw [Nesting.view, Nesting.begin, hn, h.committed]
    rfl
  · rw [Nesting.begin, hn]
    exact .outermost

theorem savepoint (hn : n.levels ≠ []) :
    ∃ db', db.exec (.savepoint (name n.levels.length)) = some db' ∧
      Agrees name db' n.begin := by
  obtain ⟨savepoints, htxn, hnested⟩ := h.opened hn
  refine ⟨{ db with txn := some ⟨n.view, (name n.levels.length, n.view) :: savepoints⟩ },
    by rw [Db.exec, htxn], h.committed, nofun, fun _ => ⟨_, rfl, ?_⟩⟩
  obtain ⟨log, outer, hl⟩ := exists_cons_of_ne_nil hn
  have hstarts : Nesting.starts n.begin.committed n.begin.levels =
      n.view :: Nesting.starts n.committed n.levels := by
    rw [Nesting.begin, Nesting.view, hl, Nesting.starts]
  rw [hstarts, ← nil_append ((name n.levels.length, n.view) :: savepoints)]
  exact .level hnested nofun

theorem commit_outer (hn : n.levels.length = 1) :
    ∃ db', db.exec .commit = some db' ∧ Agrees name db' n.commit := by
  obtain ⟨log, hl⟩ := length_eq_one_iff.mp hn
  obtain ⟨savepoints, htxn, _⟩ := h.opened (by rw [hl]; nofun)
  refine ⟨⟨n.view, none⟩, by rw [Db.exec, htxn]; rfl, ?_⟩
  rw [Nesting.commit, hl]
  refine ⟨?_, fun _ => rfl, fun hne => absurd rfl hne⟩
  rw [Nesting.view, hl]
  rfl

theorem rollback_outer (hn : n.levels.length = 1) :
    ∃ db', db.exec .rollback = some db' ∧ Agrees name db' n.rollback := by
  obtain ⟨log, hl⟩ := length_eq_one_iff.mp hn
  obtain ⟨savepoints, htxn, _⟩ := h.opened (by rw [hl]; nofun)
  refine ⟨db.close, by rw [Db.exec, htxn]; rfl, h.committed, fun _ => rfl, fun hne => ?_⟩
  exact absurd (by rw [Nesting.rollback, hl]; rfl) hne

theorem rollback_inner (hn : 2 ≤ n.levels.length)
    (hinj : ∀ i, 1 ≤ i → i < n.levels.length - 1 → name (n.levels.length - 1) ≠ name i) :
    ∃ db', db.exec (.rollbackTo (name (n.levels.length - 1))) = some db' ∧
      Agrees name db' n.rollback := by
  match hl : n.levels with
  | [] => simp [hl] at hn
  | [_] => simp [hl] at hn
  | log :: parent :: outer =>
    obtain ⟨savepoints, htxn, hnested⟩ := h.opened (by rw [hl]; nofun)
    rw [hl] at hnested hinj
    obtain ⟨older, hdrop, hrest⟩ := hnested.dropWhile_eq (Nat.succ_pos _) hinj
    have hexec : db.exec (.rollbackTo (name (parent :: outer).length)) = some { db with
        txn := some ⟨Nesting.viewOf n.committed (parent :: outer),
          (name (parent :: outer).length, Nesting.viewOf n.committed (parent :: outer)) ::
            older⟩ } := by
      simp only [Db.exec, htxn, hdrop]
    have hrollback : n.rollback = ⟨n.committed, parent :: outer⟩ := by
      rw [Nesting.rollback, hl]
      rfl
    rw [hrollback]
    exact ⟨_, hexec, h.committed, nofun, fun _ => ⟨_, rfl, hrest⟩⟩

end

end Agrees

end

end RelationalStore
