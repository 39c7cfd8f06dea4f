import RelationalStore.Theory.Run

/-! # The delayed actuator

`Execute` starts two timers, the first of which starts the task; a `Defer` guard suspends them. -/

namespace RelationalStore

open List

abbrev TaskId := Nat

/-! ## The pool -/

structure ExecutorPool where
  State : Type
  empty : State
  waiting : State → List TaskId
  /-- `Schedule`. -/
  schedule : State → TaskId × State
  reset : State → TaskId → Option TaskId × State
  remove : State → Option TaskId → State
  waiting_empty : waiting empty = []
  mem_schedule : ∀ pool id, id ∈ waiting (schedule pool).2 ↔
    id = (schedule pool).1 ∨ id ∈ waiting pool
  mem_remove : ∀ pool id id', id' ∈ waiting (remove pool id) ↔ id' ∈ waiting pool ∧ some id' ≠ id
  reset_waiting : ∀ pool, ∀ id ∈ waiting pool, (reset pool id).1 = some id
  reset_same : ∀ pool id id', (reset pool id).1 = some id' → id' = id
  mem_of_reset : ∀ pool id id', id' ∈ waiting (reset pool id).2 →
    id' ∈ waiting pool ∨ (reset pool id).1 = some id'
  mem_reset : ∀ pool id, waiting pool ⊆ waiting (reset pool id).2

/-! ## The actuator -/

def INVALID_INTERVAL : UInt32 := 0xFFFFFFFF

structure Intervals where
  firstDelayInterval : UInt32
  minExecuteInterval : UInt32
  maxExecuteInterval : UInt32
  valid : maxExecuteInterval ≠ INVALID_INTERVAL ∨
    firstDelayInterval ≠ INVALID_INTERVAL ∧ minExecuteInterval ≠ INVALID_INTERVAL

structure Actuator (E : ExecutorPool) where
  delayTaskId : Option TaskId
  forceTaskId : Option TaskId
  pool : E.State
  isSuspend : Bool

namespace Actuator
variable {E : ExecutorPool}

def initial : Actuator E := ⟨none, none, E.empty, false⟩

def waiting (a : Actuator E) : List TaskId := E.waiting a.pool

variable (a : Actuator E)

def suspend : Actuator E := { a with isSuspend := true }

def active : Actuator E := { a with isSuspend := false }

variable (intervals : Intervals)

def startForce (a : Actuator E) : Actuator E :=
  if a.forceTaskId = none ∧ intervals.maxExecuteInterval ≠ INVALID_INTERVAL then
    { a with forceTaskId := some (E.schedule a.pool).1, pool := (E.schedule a.pool).2 }
  else a

def startDelay (a : Actuator E) : Actuator E :=
  if intervals.firstDelayInterval = INVALID_INTERVAL ∨
      intervals.minExecuteInterval = INVALID_INTERVAL then a
  else
    match a.delayTaskId with
    | none => { a with delayTaskId := some (E.schedule a.pool).1, pool := (E.schedule a.pool).2 }
    | some id => { a with delayTaskId := (E.reset a.pool id).1, pool := (E.reset a.pool id).2 }

def startTimer (a : Actuator E) : Actuator E :=
  if a.isSuspend then a else (a.startForce intervals).startDelay intervals

def stopTimer : Actuator E :=
  { a with
    pool := E.remove (E.remove a.pool a.forceTaskId) a.delayTaskId
    forceTaskId := none
    delayTaskId := none }

end Actuator

/-! ## Runs -/

inductive ActuatorStep where
  | execute
  | fire (id : TaskId)
  | stopFired
  | startTask
  | deferSuspend
  | deferStopTimer
  | deferActive
  | deferStartTimer

structure ActuatorRun (E : ExecutorPool) where
  actuator : Actuator E
  fired : Nat
  stopped : Nat
  entering : Nat
  alive : Nat
  leaving : Nat
  owed : Bool

namespace ActuatorRun
variable {E : ExecutorPool}

def initial : ActuatorRun E := ⟨.initial, 0, 0, 0, 0, 0, false⟩

def step (intervals : Intervals) (r : ActuatorRun E) : ActuatorStep → Bool × ActuatorRun E
  | .execute => (false, { r with actuator := r.actuator.startTimer intervals, owed := true })
  | .fire id =>
    if id ∈ r.actuator.waiting then
      (false, { r with
        actuator := { r.actuator with pool := E.remove r.actuator.pool (some id) }
        fired := r.fired + 1 })
    else (false, r)
  | .stopFired =>
    if r.fired = 0 then (false, r)
    else (false, { r with
      actuator := r.actuator.stopTimer, fired := r.fired - 1, stopped := r.stopped + 1 })
  | .startTask =>
    if r.stopped = 0 then (false, r)
    else (true, { r with stopped := r.stopped - 1, owed := false })
  | .deferSuspend => (false, { r with actuator := r.actuator.suspend, entering := r.entering + 1 })
  | .deferStopTimer =>
    if r.entering = 0 then (false, r)
    else (false, { r with
      actuator := r.actuator.stopTimer, entering := r.entering - 1, alive := r.alive + 1 })
  | .deferActive =>
    if r.alive = 0 then (false, r)
    else (false, { r with
      actuator := r.actuator.active, alive := r.alive - 1, leaving := r.leaving + 1 })
  | .deferStartTimer =>
    if r.leaving = 0 then (false, r)
    else (false, { r with
      actuator := r.actuator.startTimer intervals, leaving := r.leaving - 1 })

/-- The guards are gone, no timer waits and no firing is under way. -/
def Quiet (r : ActuatorRun E) : Prop :=
  r.entering + r.alive + r.leaving = 0 ∧ r.actuator.waiting = [] ∧ r.fired + r.stopped = 0

def Apart (r : ActuatorRun E) : ActuatorStep → Prop
  | .deferSuspend => r.entering + r.alive + r.leaving = 0
  | .deferStopTimer => r.fired + r.stopped = 0
  | _ => True

end ActuatorRun

namespace Actuator
variable {E : ExecutorPool} {intervals : Intervals} {a : Actuator E} {fired : Nat}

def Knows (a : Actuator E) : Prop :=
  ∀ id ∈ a.waiting, a.forceTaskId = some id ∨ a.delayTaskId = some id

/-- A timer that the actuator knows waits, or it has fired and has not stopped the timers yet. -/
def Current (a : Actuator E) (fired : Nat) : Prop :=
  ∀ id, a.forceTaskId = some id ∨ a.delayTaskId = some id → id ∈ a.waiting ∨ 0 < fired

theorem Knows.startForce (h : a.Knows) : (a.startForce intervals).Knows := by
  rw [Actuator.startForce]
  split
  next hforce =>
    intro id hid
    rcases (E.mem_schedule a.pool id).mp hid with rfl | hid
    · exact .inl rfl
    · exact .inr ((h id hid).resolve_left fun hknown => nomatch hforce.1.symm.trans hknown)
  · exact h

theorem Knows.startDelay (h : a.Knows) : (a.startDelay intervals).Knows := by
  rw [Actuator.startDelay]
  split
  · exact h
  split
  next hdelay =>
    intro id hid
    rcases (E.mem_schedule a.pool id).mp hid with rfl | hid
    · exact .inr rfl
    · exact .inl ((h id hid).resolve_right fun hknown => nomatch hdelay.symm.trans hknown)
  next id hdelay =>
    intro id' hid'
    rcases E.mem_of_reset a.pool id id' hid' with hid' | hreset
    · refine (h id' hid').imp_right fun hknown => ?_
      obtain rfl : id = id' := Option.some.inj (hdelay.symm.trans hknown)
      exact E.reset_waiting a.pool id hid'
    · exact .inr hreset

theorem Knows.startTimer (h : a.Knows) : (a.startTimer intervals).Knows := by
  rw [Actuator.startTimer]
  split
  · exact h
  · exact h.startForce.startDelay

theorem Current.startForce (h : a.Current fired) : (a.startForce intervals).Current fired := by
  rw [Actuator.startForce]
  split
  · rintro id (hid | hid)
    · exact .inl ((E.mem_schedule a.pool id).mpr (.inl (Option.some.inj hid).symm))
    · exact (h id (.inr hid)).imp_left fun hid => (E.mem_schedule a.pool id).mpr (.inr hid)
  · exact h

theorem Current.startDelay (h : a.Current fired) : (a.startDelay intervals).Current fired := by
  rw [Actuator.startDelay]
  split
  · exact h
  split
  · rintro id (hid | hid)
    · exact (h id (.inl hid)).imp_left fun hid => (E.mem_schedule a.pool id).mpr (.inr hid)
    · exact .inl ((E.mem_schedule a.pool id).mpr (.inl (Option.some.inj hid).symm))
  next id hdelay =>
    rintro id' (hid | hid)
    · exact (h id' (.inl hid)).imp_left fun hid => E.mem_reset a.pool id hid
    · obtain rfl := E.reset_same a.pool id id' hid
      exact (h id' (.inr hdelay)).imp_left fun hid => E.mem_reset a.pool id' hid

theorem Current.startTimer (h : a.Current fired) : (a.startTimer intervals).Current fired := by
  rw [Actuator.startTimer]
  split
  · exact h
  · exact h.startForce.startDelay

theorem forceTaskId_startDelay : (a.startDelay intervals).forceTaskId = a.forceTaskId := by
  rw [Actuator.startDelay]
  split
  · rfl
  · split <;> rfl

theorem Current.delayTaskId_startDelay (h : a.Current fired)
    (hfirst : intervals.firstDelayInterval ≠ INVALID_INTERVAL)
    (hmin : intervals.minExecuteInterval ≠ INVALID_INTERVAL) :
    (a.startDelay intervals).delayTaskId ≠ none ∨ 0 < fired := by
  rw [Actuator.startDelay, if_neg (not_or.mpr ⟨hfirst, hmin⟩)]
  split
  · exact .inl (Option.some_ne_none _)
  next id hdelay =>
    refine (h id (.inr hdelay)).imp_left fun hid => ?_
    rw [E.reset_waiting a.pool id hid]
    exact Option.some_ne_none id

theorem Current.waiting_startTimer (h : a.Current fired) (hsuspend : a.isSuspend = false) :
    (a.startTimer intervals).waiting ≠ [] ∨ 0 < fired := by
  rw [Actuator.startTimer, hsuspend, if_neg Bool.false_ne_true]
  have hcurrent : ((a.startForce intervals).startDelay intervals).Current fired :=
    h.startForce.startDelay
  have hknown {id : TaskId} (hid : ((a.startForce intervals).startDelay intervals).forceTaskId =
      some id ∨ ((a.startForce intervals).startDelay intervals).delayTaskId = some id) :
      ((a.startForce intervals).startDelay intervals).waiting ≠ [] ∨ 0 < fired :=
    (hcurrent id hid).imp_left ne_nil_of_mem
  rcases intervals.valid with hmax | ⟨hfirst, hmin⟩
  · have hforce : (a.startForce intervals).forceTaskId ≠ none := by
      rw [Actuator.startForce]
      split
      · exact Option.some_ne_none _
      next hnone => exact fun hforce => hnone ⟨hforce, hmax⟩
    obtain ⟨id, hid⟩ := Option.ne_none_iff_exists'.mp hforce
    exact hknown (.inl (forceTaskId_startDelay.trans hid))
  · rcases h.startForce.delayTaskId_startDelay hfirst hmin with hdelay | hfired
    · obtain ⟨id, hid⟩ := Option.ne_none_iff_exists'.mp hdelay
      exact hknown (.inr hid)
    · exact .inr hfired

theorem Current.stopTimer : a.stopTimer.Current fired := by
  rintro id (hid | hid) <;> exact nomatch hid

theorem Knows.waiting_stopTimer (h : a.Knows) : a.stopTimer.waiting = [] := by
  refine eq_nil_iff_forall_not_mem.mpr fun id hid => ?_
  obtain ⟨hid, hdelay⟩ := (E.mem_remove _ _ id).mp hid
  obtain ⟨hid, hforce⟩ := (E.mem_remove _ _ id).mp hid
  rcases h id hid with hknown | hknown
  · exact hforce hknown.symm
  · exact hdelay hknown.symm

theorem isSuspend_startTimer : (a.startTimer intervals).isSuspend = a.isSuspend := by
  rw [Actuator.startTimer]
  split
  · rfl
  rw [Actuator.startDelay]
  have hforce : (a.startForce intervals).isSuspend = a.isSuspend := by
    rw [Actuator.startForce]
    split <;> rfl
  split
  · exact hforce
  · split <;> exact hforce

end Actuator

namespace ActuatorRun
variable {E : ExecutorPool} {intervals : Intervals} {r : ActuatorRun E}

/-! ## No call is lost -/

structure Inv (r : ActuatorRun E) : Prop where
  suspended : r.actuator.isSuspend → 0 < r.entering + r.alive
  current : r.actuator.Current r.fired
  owed : r.owed → ¬ r.Quiet

theorem inv_initial : (initial (E := E)).Inv where
  suspended h := nomatch h
  current := by rintro id (hid | hid) <;> exact nomatch hid
  owed h := nomatch h

theorem Inv.not_quiet_startTimer (h : r.Inv) {r' : ActuatorRun E}
    (hactuator : r'.actuator = r.actuator.startTimer intervals) (hfired : r'.fired = r.fired)
    (hguards : r'.entering + r'.alive = r.entering + r.alive) : ¬ r'.Quiet := by
  rintro ⟨hgone, hwaiting, hfiring⟩
  cases hsuspend : r.actuator.isSuspend with
  | true =>
    have hguard := h.suspended hsuspend
    omega
  | false =>
    rcases h.current.waiting_startTimer hsuspend with hne | hpos
    · exact hne (hactuator ▸ hwaiting)
    · omega

theorem Inv.step (h : r.Inv) (s : ActuatorStep) : (r.step intervals s).2.Inv := by
  cases s with
  | execute =>
    refine ⟨fun hsuspend => h.suspended (Actuator.isSuspend_startTimer ▸ hsuspend),
      h.current.startTimer, fun _ => ?_⟩
    exact h.not_quiet_startTimer rfl rfl rfl
  | fire id =>
    rw [ActuatorRun.step]
    split
    · refine ⟨h.suspended, fun _ _ => .inr (Nat.succ_pos _), fun _ hquiet => ?_⟩
      have hfiring : r.fired + 1 + r.stopped = 0 := hquiet.2.2
      omega
    · exact h
  | stopFired =>
    rw [ActuatorRun.step]
    split
    · exact h
    · refine ⟨h.suspended, .stopTimer, fun _ hquiet => ?_⟩
      have hfiring : r.fired - 1 + (r.stopped + 1) = 0 := hquiet.2.2
      omega
  | startTask =>
    rw [ActuatorRun.step]
    split
    · exact h
    · exact ⟨h.suspended, h.current, fun howed => nomatch howed⟩
  | deferSuspend =>
    refine ⟨fun _ => ?_, h.current, fun _ hquiet => ?_⟩
    · change 0 < r.entering + 1 + r.alive
      omega
    · have hgone : r.entering + 1 + r.alive + r.leaving = 0 := hquiet.1
      omega
  | deferStopTimer =>
    rw [ActuatorRun.step]
    split
    · exact h
    · refine ⟨fun _ => ?_, .stopTimer, fun _ hquiet => ?_⟩
      · change 0 < r.entering - 1 + (r.alive + 1)
        omega
      · have hgone : r.entering - 1 + (r.alive + 1) + r.leaving = 0 := hquiet.1
        omega
  | deferActive =>
    rw [ActuatorRun.step]
    split
    · exact h
    · refine ⟨fun hsuspend => (nomatch hsuspend), h.current, fun _ hquiet => ?_⟩
      have hgone : r.entering + (r.alive - 1) + (r.leaving + 1) = 0 := hquiet.1
      omega
  | deferStartTimer =>
    rw [ActuatorRun.step]
    split
    · exact h
    · refine ⟨fun hsuspend => h.suspended (Actuator.isSuspend_startTimer ▸ hsuspend),
        h.current.startTimer, fun _ => ?_⟩
      exact h.not_quiet_startTimer rfl rfl rfl

/-! ## Guards apart -/

structure Excluded (r : ActuatorRun E) : Prop where
  knows : r.actuator.Knows
  one : r.entering + r.alive + r.leaving ≤ 1
  suspended : 0 < r.entering + r.alive → r.actuator.isSuspend
  silent : 0 < r.alive → r.actuator.waiting = [] ∧ r.fired + r.stopped = 0

theorem excluded_initial : (initial (E := E)).Excluded where
  knows _ hid := by
    have hempty : (initial (E := E)).actuator.waiting = [] := E.waiting_empty
    rw [hempty] at hid
    exact nomatch hid
  one := Nat.zero_le 1
  suspended h := absurd h (Nat.lt_irrefl 0)
  silent h := absurd h (Nat.lt_irrefl 0)

theorem Excluded.step (h : r.Excluded) (hs : r.Apart s) : (r.step intervals s).2.Excluded := by
  cases s with
  | execute =>
    refine ⟨h.knows.startTimer, h.one,
      fun hguard => Actuator.isSuspend_startTimer.trans (h.suspended hguard), fun halive => ?_⟩
    change (r.actuator.startTimer intervals).waiting = [] ∧ _
    rw [Actuator.startTimer, if_pos (h.suspended (Nat.add_pos_right _ halive))]
    exact h.silent halive
  | fire id =>
    rw [ActuatorRun.step]
    split
    next hid =>
      refine ⟨fun id' hid' => h.knows id' ((E.mem_remove _ _ id').mp hid').1, h.one, h.suspended,
        fun halive => ?_⟩
      rw [(h.silent halive).1] at hid
      exact nomatch hid
    · exact h
  | stopFired =>
    rw [ActuatorRun.step]
    split
    · exact h
    next hfired =>
      refine ⟨fun id hid => ?_, h.one, h.suspended, fun halive => ?_⟩
      · rw [h.knows.waiting_stopTimer] at hid
        exact nomatch hid
      · have hfiring := (h.silent halive).2
        omega
  | startTask =>
    rw [ActuatorRun.step]
    split
    · exact h
    next hstopped =>
      refine ⟨h.knows, h.one, h.suspended, fun halive => ?_⟩
      have hfiring := (h.silent halive).2
      omega
  | deferSuspend =>
    have hnone : r.entering + r.alive + r.leaving = 0 := hs
    refine ⟨h.knows, ?_, fun _ => rfl, fun halive => ?_⟩
    · change r.entering + 1 + r.alive + r.leaving ≤ 1
      omega
    · have : 0 < r.alive := halive
      omega
  | deferStopTimer =>
    rw [ActuatorRun.step]
    split
    · exact h
    · have hone := h.one
      refine ⟨fun id hid => ?_, ?_, fun _ => ?_, fun _ => ?_⟩
      · rw [h.knows.waiting_stopTimer] at hid
        exact nomatch hid
      · change r.entering - 1 + (r.alive + 1) + r.leaving ≤ 1
        omega
      · exact h.suspended (by omega)
      · exact ⟨h.knows.waiting_stopTimer, hs⟩
  | deferActive =>
    rw [ActuatorRun.step]
    split
    · exact h
    · have hone := h.one
      refine ⟨h.knows, ?_, fun hguard => ?_, fun halive => ?_⟩
      · change r.entering + (r.alive - 1) + (r.leaving + 1) ≤ 1
        omega
      · have : 0 < r.entering + (r.alive - 1) := hguard
        omega
      · have : 0 < r.alive - 1 := halive
        omega
  | deferStartTimer =>
    rw [ActuatorRun.step]
    split
    · exact h
    · have hone := h.one
      refine ⟨h.knows.startTimer, ?_,
        fun hguard => Actuator.isSuspend_startTimer.trans (h.suspended hguard), fun halive => ?_⟩
      · change r.entering + r.alive + (r.leaving - 1) ≤ 1
        omega
      · have : 0 < r.alive := halive
        omega

theorem stopped_of_started (h : (r.step intervals s).1) : 0 < r.stopped := by
  cases s with
  | startTask =>
    rw [ActuatorRun.step] at h
    split at h
    · exact nomatch h
    next hstopped => exact Nat.pos_of_ne_zero hstopped
  | execute | deferSuspend => exact nomatch h
  | fire | stopFired | deferStopTimer | deferActive | deferStartTimer =>
    rw [ActuatorRun.step] at h
    split at h <;> exact nomatch h

theorem execute_not_lost_and_excluded (E : ExecutorPool) (intervals : Intervals)
    (steps : List ActuatorStep) :
    let start : ActuatorRun E := initial
    ((final (step intervals) start steps).Quiet →
      (final (step intervals) start steps).owed = false) ∧
    ((∀ t ∈ trace (step intervals) start steps, t.pre.Apart t.call) →
      ∀ t ∈ trace (step intervals) start steps, t.ret → t.pre.alive = 0) := by
  intro start
  constructor
  · intro hquiet
    have hinv : (final (step intervals) start steps).Inv :=
      final_inv (G := fun _ _ => True) (fun _ s h _ => h.step s) inv_initial fun _ _ => trivial
    exact Bool.eq_false_iff.mpr fun howed => hinv.owed howed hquiet
  · intro hapart
    refine trace_forall (I := Excluded) (G := Apart) ?_ excluded_initial hapart
    intro r s h hs
    refine ⟨h.step hs, fun hstart => ?_⟩
    have hstopped : 0 < r.stopped := stopped_of_started hstart
    by_contra halive
    have hfiring := (h.silent (Nat.pos_of_ne_zero halive)).2
    omega

def defaultIntervals : Intervals := ⟨0, 200, 500, .inl (by decide)⟩

def listPool : ExecutorPool where
  State := List TaskId × TaskId
  empty := ([], 0)
  waiting := Prod.fst
  schedule pool := (pool.2, (pool.2 :: pool.1, pool.2 + 1))
  reset pool id := (if id ∈ pool.1 then some id else none, pool)
  remove pool id := (pool.1.filter fun i => some i ≠ id, pool.2)
  waiting_empty := rfl
  mem_schedule _ _ := mem_cons
  mem_remove _ _ _ := by simp
  reset_waiting _ _ h := if_pos h
  reset_same _ _ _ h := by
    split at h
    · exact (Option.some.inj h).symm
    · exact nomatch h
  mem_of_reset _ _ _ h := .inl h
  mem_reset _ _ := fun _ h => h

theorem starts_while_guarded :
    let steps : List ActuatorStep := [.deferSuspend, .deferStopTimer, .deferSuspend,
      .deferStopTimer, .deferActive, .deferStartTimer, .fire 0, .stopFired, .startTask]
    ∃ t ∈ trace (step defaultIntervals) (initial (E := listPool)) steps,
      t.ret ∧ t.pre.alive = 1 := by
  refine ⟨_, mem_of_getElem? (i := 8) rfl, ?_⟩
  decide

example :
    let steps : List ActuatorStep := [.execute, .fire 0, .deferSuspend, .deferStopTimer, .stopFired,
      .startTask]
    ∃ t ∈ trace (step defaultIntervals) (initial (E := listPool)) steps,
      t.ret ∧ t.pre.alive = 1 := by
  refine ⟨_, mem_of_getElem? (i := 5) rfl, ?_⟩
  decide

end ActuatorRun

end RelationalStore
