import RelationalStore.Theory.Run

/-! # How often a fault is reported

`IsReportFault` counts the calls with one error code in an 8-bit counter that stops at its end. -/

namespace RelationalStore.RdbFaultHiViewReporter

open List

def E_BASE : Int := 0x1A20000

def E_DFX_BASE : Int := E_BASE + 0x8000

def MAX_FAULT_TIMES : Nat := 1

def UINT8_MAX : UInt8 := 255

def faultCodes : List Int :=
  [0x22, 0x25, 0x2d, 0x2f, 0x34, 0x37, 0x38, 0x3b, 0x3c, 0x3d, 0x3e, 0x40, 0x41, 0x43, 0x4d, 0x4e,
    0x4f, 0x50, 0x51, 0x52, 0x53, 0x54, 0x55, 0x56, 0x57].map (E_BASE + ·) ++
  [0x1, 0x2, 0x3, 0x4, 0x5, 0x6, 0x7, 0x8, 0x9, 0xa, 0xb, 0xc, 0xd, 0xe, 0xf, 0x10, 0x11, 0x12,
    0x13, 0x14].map (E_DFX_BASE + ·)

def uncountedCodes : List Int := [0x15, 0x16, 0x17, 0x18].map (E_DFX_BASE + ·)

def lowerBound (codes : List Int) (code : Int) : Nat → Nat → Nat → Nat
  | 0, first, _ => first
  | fuel + 1, first, len =>
    if len = 0 then first
    else if (codes.getD (first + len / 2) 0) < code then
      lowerBound codes code fuel (first + len / 2 + 1) (len - len / 2 - 1)
    else lowerBound codes code fuel first (len / 2)

def getFaultCounter (errCode : Int) : Option Nat :=
  let it := lowerBound faultCodes errCode faultCodes.length 0 faultCodes.length
  if faultCodes[it]? = some errCode then some it else none

theorem code_of_getFaultCounter (h : getFaultCounter code = some i) :
    faultCodes[i]? = some code := by
  rw [getFaultCounter, ite_eq_iff] at h
  rcases h with ⟨hcode, hi⟩ | ⟨-, hi⟩
  · exact Option.some.inj hi ▸ hcode
  · exact nomatch hi

theorem isSome_getFaultCounter : ∀ code ∈ faultCodes, (getFaultCounter code).isSome := by
  decide +kernel

theorem not_uncounted : ∀ code ∈ faultCodes, code ∉ uncountedCodes := by decide +kernel

/-! ## Calls that run at the same time -/

inductive FaultPhase where
  | entered
  | looping (counter : Nat) (old : UInt8)
  | returned (report : Bool)
  deriving DecidableEq

structure FaultCall where
  errCode : Int
  phase : FaultPhase := .entered
  deriving DecidableEq

structure FaultState where
  counters : Nat → UInt8 := fun _ => 0
  calls : List FaultCall := []

def isReportFault (counters : Nat → UInt8) (c : FaultCall) (spurious : Bool) :
    (Nat → UInt8) × FaultPhase :=
  match c.phase with
  | .entered =>
    if c.errCode ∈ uncountedCodes then (counters, .returned true)
    else
      match getFaultCounter c.errCode with
      | none => (counters, .returned false)
      | some i => (counters, .looping i (counters i))
  | .looping i old =>
    if old < UINT8_MAX then
      if counters i = old ∧ spurious = false then
        (Function.update counters i (old + 1), .returned (old.toNat < MAX_FAULT_TIMES))
      else (counters, .looping i (counters i))
    else (counters, .returned (old.toNat < MAX_FAULT_TIMES))
  | .returned report => (counters, .returned report)

inductive FaultStep where
  | call (errCode : Int)
  | proceed (thread : Nat) (spurious : Bool)

variable (s : FaultState)

def FaultState.step : FaultStep → Unit × FaultState
  | .call errCode => ((), { s with calls := s.calls ++ [{ errCode }] })
  | .proceed thread spurious =>
    match s.calls[thread]? with
    | none => ((), s)
    | some c =>
      let (counters, phase) := isReportFault s.counters c spurious
      ((), { counters, calls := s.calls.set thread { c with phase } })

def FaultState.count (errCode : Int) : Option UInt8 :=
  (getFaultCounter errCode).map s.counters

def FaultPhase.done : FaultPhase → Bool
  | .returned _ => true
  | _ => false

def FaultState.returned (code : Int) : Nat :=
  s.calls.countP fun c => c.errCode = code ∧ c.phase.done

def FaultState.reports (code : Int) : Nat :=
  s.calls.countP fun c => c.errCode = code ∧ c.phase = .returned true

/-! ## What one step does -/

def LoopsAt (counters : Nat → UInt8) (c : FaultCall) : Prop :=
  ∀ i old, c.phase = .looping i old → getFaultCounter c.errCode = some i ∧ old ≤ counters i

section
variable {counters : Nat → UInt8} {c : FaultCall} (spurious : Bool) {code : Int} {i : Nat}

theorem isReportFault_counters (h : LoopsAt counters c) :
    (isReportFault counters c spurious).1 = counters ∨
      ∃ j, getFaultCounter c.errCode = some j ∧ counters j < UINT8_MAX ∧
        (isReportFault counters c spurious).1 =
          Function.update counters j (counters j + 1) := by
  rw [isReportFault]
  split
  · refine .inl ?_
    split
    · rfl
    · split <;> rfl
  next j old hphase =>
    split_ifs with hlt hswap
    · obtain ⟨rfl, -⟩ := hswap
      exact .inr ⟨j, (h j _ hphase).1, hlt, rfl⟩
    · exact .inl rfl
    · exact .inl rfl
  · exact .inl rfl

theorem toNat_add_one (h : v < UINT8_MAX) : (v + 1).toNat = v.toNat + 1 := by
  have hlt : v.toNat < 255 := h
  rw [UInt8.toNat_add]
  change (v.toNat + 1) % 256 = v.toNat + 1
  exact Nat.mod_eq_of_lt (by omega)

theorem counters_le_isReportFault (h : LoopsAt counters c) (j : Nat) :
    counters j ≤ (isReportFault counters c spurious).1 j := by
  rcases isReportFault_counters spurious h with heq | ⟨k, -, hlt, heq⟩
  · rw [heq]
    exact UInt8.le_refl _
  · rw [heq]
    by_cases hj : j = k
    · subst hj
      rw [Function.update_self, UInt8.le_iff_toNat_le, toNat_add_one hlt]
      exact Nat.le_succ _
    · rw [Function.update_of_ne hj]
      exact UInt8.le_refl _

theorem isReportFault_other (h : LoopsAt counters c) (hi : getFaultCounter code = some i)
    (hne : c.errCode ≠ code) : (isReportFault counters c spurious).1 i = counters i := by
  rcases isReportFault_counters spurious h with heq | ⟨k, hk, -, heq⟩
  · rw [heq]
  · have hik : i ≠ k := by
      rintro rfl
      exact hne (Option.some.inj
        ((code_of_getFaultCounter hk).symm.trans (code_of_getFaultCounter hi)))
    rw [heq, Function.update_of_ne hik]

theorem LoopsAt.isReportFault (h : LoopsAt counters c) :
    LoopsAt (isReportFault counters c spurious).1
      { c with phase := (isReportFault counters c spurious).2 } := by
  intro i old hphase
  change (RdbFaultHiViewReporter.isReportFault counters c spurious).2 = _ at hphase
  rw [RdbFaultHiViewReporter.isReportFault] at hphase ⊢
  split at hphase
  · split_ifs at hphase ⊢
    split at hphase
    · exact nomatch hphase
    next hcounter =>
      cases hphase
      simp only [hcounter]
      exact ⟨trivial, UInt8.le_refl _⟩
  next hloop =>
    split_ifs at hphase ⊢
    cases hphase
    exact ⟨(h _ _ hloop).1, UInt8.le_refl _⟩
  · exact nomatch hphase

inductive FaultOutcome (i : Nat) (v v' : UInt8) : FaultPhase → FaultPhase → Prop where
  | loops {p : FaultPhase} (old : UInt8) : p.done = false → v' = v →
    FaultOutcome i v v' p (.looping i old)
  | counts {p : FaultPhase} : p.done = false → v < UINT8_MAX → v' = v + 1 →
    FaultOutcome i v v' p (.returned (v.toNat < MAX_FAULT_TIMES))
  | full {p : FaultPhase} : p.done = false → v = UINT8_MAX → v' = v →
    FaultOutcome i v v' p (.returned false)
  | stays (b : Bool) : v' = v → FaultOutcome i v v' (.returned b) (.returned b)

theorem eq_max_of_not_lt (h : ¬ old < UINT8_MAX) (hle : old ≤ v) :
    old = UINT8_MAX ∧ v = UINT8_MAX := by
  have hold : ¬ old.toNat < 255 := h
  have hv : old.toNat ≤ v.toNat := hle
  have := v.toNat_lt
  exact ⟨UInt8.toNat_inj.mp (show old.toNat = 255 by omega),
    UInt8.toNat_inj.mp (show v.toNat = 255 by omega)⟩

theorem isReportFault_outcome (h : LoopsAt counters c) (hcode : c.errCode ∈ faultCodes)
    (hi : getFaultCounter c.errCode = some i) :
    FaultOutcome i (counters i) ((isReportFault counters c spurious).1 i) c.phase
      (isReportFault counters c spurious).2 := by
  rw [isReportFault]
  split
  next hphase =>
    rw [if_neg (not_uncounted _ hcode), hi, hphase]
    exact .loops _ rfl rfl
  next j old hphase =>
    obtain ⟨hj, hold⟩ := h j old hphase
    cases hj.symm.trans hi
    rw [hphase]
    split_ifs with hlt hswap
    · obtain ⟨rfl, -⟩ := hswap
      exact .counts rfl hlt (Function.update_self ..)
    · exact .loops _ rfl rfl
    · obtain ⟨rfl, hfull⟩ := eq_max_of_not_lt hlt hold
      exact .full rfl hfull rfl
  next b hphase =>
    rw [hphase]
    exact .stays b rfl

end

/-! ## Whole runs -/

structure Tally (count returned reports : Nat) : Prop where
  le : count ≤ returned
  eq : count < 255 → returned = count
  reports : reports = min count MAX_FAULT_TIMES

structure Counted (code : Int) (i : Nat) (s : FaultState) : Prop where
  loops : ∀ c ∈ s.calls, LoopsAt s.counters c
  tally : Tally (s.counters i).toNat (s.returned code) (s.reports code)

section
variable {code : Int} {i : Nat} {s : FaultState}

theorem countP_set_call {calls : List FaultCall} (hc : calls[thread]? = some c) (c' : FaultCall)
    (p : FaultCall → Bool) :
    (calls.set thread c').countP p + (p c).toNat = calls.countP p + (p c').toNat := by
  obtain ⟨hlt, rfl⟩ := List.getElem?_eq_some_iff.mp hc
  rw [countP_set hlt]
  cases h : p calls[thread] with
  | false => cases p c' <;> simp
  | true =>
    have hpos : 0 < calls.countP p := countP_pos_iff.mpr ⟨_, getElem_mem hlt, h⟩
    cases p c' <;> simp <;> omega

theorem report_false {p : FaultPhase} (h : p.done = false) : (p = .returned true) = False :=
  eq_false fun heq => nomatch (heq ▸ h : FaultPhase.done (.returned true) = false)

theorem Tally.outcome {v v' : UInt8} {p p' : FaultPhase} {returned reports returned' reports' : Nat}
    (h : Tally v.toNat returned reports) (hout : FaultOutcome i v v' p p')
    (hreturned : returned' + p.done.toNat = returned + p'.done.toNat)
    (hreports : reports' + (decide (p = .returned true)).toNat =
      reports + (decide (p' = .returned true)).toNat) :
    Tally v'.toNat returned' reports' := by
  obtain ⟨hle, heq, hmin⟩ := h
  cases hout with
  | loops old hp hv =>
    rw [hp] at hreturned
    simp only [report_false hp, FaultPhase.done, reduceCtorEq, decide_false, Bool.toNat_false,
      Nat.add_zero] at hreturned hreports
    subst hv hreturned hreports
    exact ⟨hle, heq, hmin⟩
  | counts hp hlt hv =>
    have hlt' : v.toNat < 255 := hlt
    rw [hp] at hreturned
    simp only [report_false hp, FaultPhase.done, FaultPhase.returned.injEq, decide_false,
      Bool.toNat_false, Bool.toNat_true, Nat.add_zero, decide_eq_true_eq] at hreturned hreports
    rw [hv, toNat_add_one hlt, hreturned, hreports, hmin, heq hlt']
    refine ⟨Nat.le_refl _, fun _ => rfl, ?_⟩
    by_cases hfirst : v.toNat < MAX_FAULT_TIMES
    · simp only [hfirst, decide_true, Bool.toNat_true]
      omega
    · simp only [hfirst, decide_false, Bool.toNat_false]
      omega
  | full hp hfull hv =>
    have hv255 : v.toNat = 255 := congrArg UInt8.toNat hfull
    rw [hp] at hreturned
    simp only [report_false hp, FaultPhase.done, FaultPhase.returned.injEq, decide_false,
      Bool.toNat_false, Bool.toNat_true, Nat.add_zero, Bool.false_eq_true] at hreturned hreports
    rw [hv, hreturned, hreports]
    exact ⟨by omega, fun hlt => by omega, hmin⟩
  | stays b hv =>
    rw [hv, Nat.add_right_cancel hreturned, Nat.add_right_cancel hreports]
    exact ⟨hle, heq, hmin⟩

theorem Counted.call (h : Counted code i s) (errCode : Int) :
    Counted code i (s.step (.call errCode)).2 := by
  have hreturned : (s.step (.call errCode)).2.returned code = s.returned code := by
    simp [FaultState.step, FaultState.returned, countP_append, FaultPhase.done]
  have hreports : (s.step (.call errCode)).2.reports code = s.reports code := by
    simp [FaultState.step, FaultState.reports, countP_append]
  refine ⟨fun c hc => ?_, hreturned ▸ hreports ▸ h.tally⟩
  rcases mem_append.mp hc with hc | hc
  · exact h.loops c hc
  · cases mem_singleton.mp hc
    exact fun _ _ hphase => nomatch hphase

theorem Counted.proceed (hcode : code ∈ faultCodes) (hi : getFaultCounter code = some i)
    (h : Counted code i s) (thread : Nat) (spurious : Bool) :
    Counted code i (s.step (.proceed thread spurious)).2 := by
  cases hc : s.calls[thread]? with
  | none => simpa only [FaultState.step, hc] using h
  | some c =>
    have hloop := h.loops c (mem_of_getElem? hc)
    have hcount := countP_set_call hc ⟨c.errCode, (isReportFault s.counters c spurious).2⟩
    have hreturned := hcount fun c => c.errCode = code ∧ c.phase.done
    have hreports := hcount fun c => c.errCode = code ∧ c.phase = .returned true
    simp only [FaultState.step, hc]
    refine ⟨fun c' hc' => ?_, ?_⟩
    · rcases mem_or_eq_of_mem_set hc' with hc' | rfl
      · intro j old hphase
        obtain ⟨hj, hold⟩ := h.loops c' hc' j old hphase
        exact ⟨hj, UInt8.le_trans hold (counters_le_isReportFault spurious hloop j)⟩
      · exact hloop.isReportFault spurious
    · by_cases heq : c.errCode = code
      · subst heq
        simp only [true_and, Bool.decide_eq_true] at hreturned hreports
        have hout := isReportFault_outcome spurious hloop hcode hi
        exact h.tally.outcome hout hreturned hreports
      · simp only [heq, false_and, decide_false, Bool.toNat_false, Nat.add_zero]
          at hreturned hreports
        have htally := h.tally
        rw [← isReportFault_other spurious hloop hi heq, FaultState.returned,
          FaultState.reports, ← hreturned, ← hreports] at htally
        exact htally

theorem Counted.step (hcode : code ∈ faultCodes) (hi : getFaultCounter code = some i)
    (h : Counted code i s) (e : FaultStep) : Counted code i (s.step e).2 := by
  cases e with
  | call errCode => exact h.call errCode
  | proceed thread spurious => exact h.proceed hcode hi thread spurious

theorem counted_initial : Counted code i {} :=
  ⟨fun _ h => (nomatch h), Nat.le_refl 0, fun _ => rfl, rfl⟩

theorem Counted.reports_eq (h : Counted code i s)
    (hdone : ∀ c ∈ s.calls, c.errCode = code → c.phase.done) :
    s.reports code = min (s.calls.countP fun c => c.errCode = code) MAX_FAULT_TIMES := by
  have hall : s.returned code = s.calls.countP fun c => c.errCode = code :=
    countP_congr fun c hc => by
      simpa only [decide_eq_true_eq, and_iff_left_iff_imp] using hdone c hc
  have hle := h.tally.le
  have heq := h.tally.eq
  rw [h.tally.reports, ← hall]
  by_cases hlt : (s.counters i).toNat < 255
  · rw [heq hlt]
  · have hmax : MAX_FAULT_TIMES ≤ 255 := by decide
    omega

end

/-- What the callers of `IsReportFault` see of one code in a run. -/
structure FaultsReported (code : Int) (steps : List FaultStep) : Prop where
  reports : (∀ c ∈ (final FaultState.step {} steps).calls, c.errCode = code → c.phase.done) →
    (final FaultState.step {} steps).reports code =
      min ((final FaultState.step {} steps).calls.countP fun c => c.errCode = code)
        MAX_FAULT_TIMES
  other : ∀ t ∈ trace FaultState.step {} steps, ∀ thread spurious c,
    t.call = .proceed thread spurious → t.pre.calls[thread]? = some c → c.errCode ≠ code →
    t.post.count code = t.pre.count code

/-- For every code of the table, in every interleaving. -/
theorem faultsReported (code : Int) (hcode : code ∈ faultCodes) (steps : List FaultStep) :
    FaultsReported code steps := by
  obtain ⟨i, hi⟩ := Option.isSome_iff_exists.mp (isSome_getFaultCounter code hcode)
  have hstep : ∀ s e, Counted code i s → True → Counted code i (FaultState.step s e).2 :=
    fun _ e h _ => h.step hcode hi e
  refine ⟨?_, ?_⟩
  · have h : Counted code i (final FaultState.step {} steps) :=
      final_inv hstep counted_initial fun _ _ => trivial
    exact h.reports_eq
  · refine trace_forall (I := Counted code i) (G := fun _ _ => True) (fun s e h _ => ?_)
      counted_initial fun _ _ => trivial
    refine ⟨h.step hcode hi e, fun thread spurious c hcall hc hne => ?_⟩
    change e = _ at hcall
    subst hcall
    change s.calls[thread]? = some c at hc
    have hloop := h.loops c (mem_of_getElem? hc)
    simp only [transition, FaultState.step, hc, FaultState.count, hi, Option.map_some,
      isReportFault_other spurious hloop hi hne]

theorem faultsReported_database_busy :
    FaultsReported (E_BASE + 0x22) [.call (E_BASE + 0x22), .call (E_BASE + 0x22),
      .proceed 0 false, .proceed 1 false, .proceed 1 true, .proceed 0 false, .proceed 1 false,
      .proceed 1 false] :=
  faultsReported _ (by decide) _

end RelationalStore.RdbFaultHiViewReporter
