import RelationalStore.Theory.Run

/-! # The marker of an asynchronous restore

A restore in the background is announced by a marker file and guarded by a lock. -/

namespace RelationalStore

inductive Remover where
  | task
  | observer
  deriving DecidableEq

inductive RestorePhase where
  | idle
  | starting
  | creating
  | startLocking
  | started
  | restoring
  | observed
  | accessing (r : Remover)
  | removing (r : Remover)
  | recreating (r : Remover)
  | unlocking (r : Remover)
  deriving DecidableEq

namespace RestorePhase

def isLocked : RestorePhase → Bool
  | .started | .restoring | .accessing _ | .removing _ | .recreating _ | .unlocking _ => true
  | _ => false

def isBeforeRemoval : RestorePhase → Bool
  | .started | .restoring | .accessing _ | .removing _ => true
  | _ => false

def isStarting : RestorePhase → Bool
  | .starting | .creating | .startLocking => true
  | _ => false

end RestorePhase

structure RestoreShared where
  marker : Bool
  holder : Option Nat
  starting : List Nat
  begun : Bool
  deriving DecidableEq

namespace RestoreShared

def tryLock (sh : RestoreShared) (p : Nat) : Option RestoreShared :=
  if sh.holder = none then some { sh with holder := some p } else none

def advance (sh : RestoreShared) (p : Nat) (ok : Bool) :
    RestorePhase → RestoreShared × RestorePhase
  | .idle => (sh, .idle)
  | .starting => (sh, if sh.marker then .startLocking else .creating)
  | .creating => ({ sh with marker := sh.marker || ok }, .startLocking)
  | .startLocking =>
    let sh := { sh with starting := sh.starting.filter (· ≠ p) }
    match sh.tryLock p with
    | some sh => (sh, .started)
    | none => (sh, .idle)
  | .started => (sh, if ok then .restoring else .unlocking .task)
  | .restoring => (sh, .accessing .task)
  | .observed =>
    match sh.tryLock p with
    | some sh => ({ sh with begun := decide (sh.starting ≠ []) }, .accessing .observer)
    | none => (sh, .idle)
  | .accessing r => (sh, if sh.marker then .removing r else .recreating r)
  | .removing r => ({ sh with marker := sh.marker && !ok }, .unlocking r)
  | .recreating r => ({ sh with marker := sh.marker || ok }, .unlocking r)
  | .unlocking _ => ({ sh with holder := none }, .idle)

end RestoreShared

structure AsyncRestore where
  shared : RestoreShared
  phase : Nat → RestorePhase

inductive RestoreStep where
  | startAsyncRestore (p : Nat)
  | observe (p : Nat)
  | next (p : Nat) (ok : Bool)
  | crash (p : Nat)

namespace AsyncRestore

def initial : AsyncRestore := ⟨⟨false, none, [], false⟩, fun _ => .idle⟩

variable (s : AsyncRestore)

def move (p : Nat) (result : RestoreShared × RestorePhase) :
    AsyncRestore := ⟨result.1, Function.update s.phase p result.2⟩

def step : RestoreStep → Unit × AsyncRestore
  | .startAsyncRestore p =>
    ((), if s.phase p = .idle then
      s.move p ({ s.shared with starting := p :: s.shared.starting, begun := true }, .starting)
    else s)
  | .observe p =>
    ((), if s.phase p = .idle ∧ s.shared.marker then s.move p (s.shared, .observed) else s)
  | .next p ok => ((), s.move p (s.shared.advance p ok (s.phase p)))
  | .crash p =>
    ((), s.move p ({ s.shared with
      starting := s.shared.starting.filter (· ≠ p)
      holder := if s.shared.holder = some p then none else s.shared.holder }, .idle))

/-- The marker goes when it is to be removed and comes only when a restore starts. -/
structure MarkerStays (t : Transition AsyncRestore RestoreStep Unit) : Prop where
  created : t.pre.shared.marker = false → t.post.shared.marker →
    ∃ p ok, t.call = .next p ok ∧ t.pre.phase p = .creating
  removed : ∀ p ok, t.call = .next p ok → t.pre.phase p = .unlocking .observer →
    t.pre.shared.begun = false → t.post.shared.marker = false

/-- Whoever gets the lock gets it while the marker is there, and an observer can remove it. -/
def LocksMarked : RestoreStep → Prop
  | .next p ok =>
    (s.phase p = .startLocking ∨ s.phase p = .observed → s.shared.holder = none →
      s.shared.marker) ∧ (s.phase p = .removing .observer → ok)
  | _ => True

instance (c : RestoreStep) : Decidable (s.LocksMarked c) :=
  match c with
  | .next .. => inferInstanceAs (Decidable ((_ → _ → _) ∧ (_ → _)))
  | .startAsyncRestore _ | .observe _ | .crash _ => .isTrue trivial

end AsyncRestore

/-! ## What holds for each thread -/

/-- How a thread fits to what is shared. -/
structure RestorePhase.Fits (sh : RestoreShared) (p : Nat) (ph : RestorePhase) : Prop where
  locked : ph.isLocked → sh.holder = some p
  marked : ph.isBeforeRemoval → sh.marker
  starting : ph.isStarting → p ∈ sh.starting
  notRecreating : ∀ r, ph ≠ .recreating r
  removed : ph = .unlocking .observer → sh.begun = false → sh.marker = false

namespace RestorePhase.Fits
variable {sh sh' : RestoreShared} {p q : Nat} {ph : RestorePhase}

theorem of_unlocked (h : ph.isLocked = false) (hstarting : ph.isStarting → p ∈ sh.starting) :
    Fits sh p ph where
  locked hl := absurd hl (by rw [h]; exact Bool.false_ne_true)
  marked hm := by cases ph <;> simp_all [isLocked, isBeforeRemoval]
  starting := hstarting
  notRecreating r hr := by simp [hr, isLocked] at h
  removed hr := by simp [hr, isLocked] at h

theorem of_marked (hph : ph.isBeforeRemoval) (hholder : sh.holder = some p)
    (hmarker : sh.marker) : Fits sh p ph where
  locked _ := hholder
  marked _ := hmarker
  starting hs := by cases ph <;> simp_all [isStarting, isBeforeRemoval]
  notRecreating r hr := by simp [hr, isBeforeRemoval] at hph
  removed hr := by simp [hr, isBeforeRemoval] at hph

theorem of_unlocking (hholder : sh.holder = some p) (hremoved : r = .observer → sh.marker = false) :
    Fits sh p (.unlocking r) where
  locked _ := hholder
  marked hm := nomatch hm
  starting hs := nomatch hs
  notRecreating _ hr := nomatch hr
  removed hr _ := hremoved (RestorePhase.unlocking.inj hr)

theorem frame (h : Fits sh q ph) (hholder : sh'.holder = sh.holder)
    (hmarker : sh.marker → sh'.marker)
    (hquiet : sh'.begun = false → sh.begun = false ∧ sh'.marker = sh.marker)
    (hstarting : q ∈ sh.starting → q ∈ sh'.starting) : Fits sh' q ph where
  locked hl := hholder.trans (h.locked hl)
  marked hm := hmarker (h.marked hm)
  starting hs := hstarting (h.starting hs)
  notRecreating := h.notRecreating
  removed hr hb := (hquiet hb).2.trans (h.removed hr (hquiet hb).1)

theorem holder_ne (hholder : sh.holder = some p) (hq : q ≠ p) : sh.holder ≠ some q :=
  fun heq => hq (Option.some.inj (heq.symm.trans hholder))

theorem frame_of_lock (h : Fits sh q ph) (hne : sh.holder ≠ some q)
    (hstarting : q ∈ sh.starting → q ∈ sh'.starting) : Fits sh' q ph :=
  of_unlocked (eq_false_of_ne_true fun hl => hne (h.locked hl)) fun hs => hstarting (h.starting hs)

end RestorePhase.Fits

namespace AsyncRestore
variable {s : AsyncRestore} {p : Nat}

structure Inv (s : AsyncRestore) : Prop where
  fits : ∀ p, (s.phase p).Fits s.shared p
  quiet : s.shared.begun = false → s.shared.starting = []

theorem inv_initial : initial.Inv where
  fits _ := .of_unlocked rfl fun h => nomatch h
  quiet _ := rfl

theorem Inv.move (h : s.Inv) (hp : ph.Fits sh p)
    (hothers : ∀ q, q ≠ p → (s.phase q).Fits s.shared q → (s.phase q).Fits sh q)
    (hquiet : sh.begun = false → sh.starting = []) : (s.move p (sh, ph)).Inv where
  fits q := by
    by_cases hq : q = p
    · subst hq
      simpa [AsyncRestore.move] using hp
    · simpa [AsyncRestore.move, hq] using hothers q hq (h.fits q)
  quiet := hquiet

theorem Inv.move_self (h : s.Inv) (hp : ph.Fits s.shared p) :
    (s.move p (s.shared, ph)).Inv := h.move hp (fun _ _ hq => hq) h.quiet

theorem Inv.startAsyncRestore (h : s.Inv) : (s.step (.startAsyncRestore p)).2.Inv := by
  simp only [AsyncRestore.step]
  split
  · refine h.move (.of_unlocked rfl fun _ => List.mem_cons_self) (fun q _ hq => ?_)
      fun hb => nomatch hb
    exact hq.frame rfl id (fun hb => nomatch hb) (List.mem_cons_of_mem p)
  · exact h

theorem Inv.observe (h : s.Inv) : (s.step (.observe p)).2.Inv := by
  simp only [AsyncRestore.step]
  split
  · exact h.move_self (.of_unlocked rfl fun hs => nomatch hs)
  · exact h

theorem mem_filter_ne {l : List Nat} (hq : q ≠ p) (h : q ∈ l) : q ∈ l.filter (· ≠ p) :=
  List.mem_filter.mpr ⟨h, decide_eq_true hq⟩

theorem Inv.crash (h : s.Inv) : (s.step (.crash p)).2.Inv := by
  refine h.move (.of_unlocked rfl fun hs => nomatch hs) (fun q hq hfits => ?_) fun hb => ?_
  · by_cases hholder : s.shared.holder = some p
    · exact hfits.frame_of_lock (RestorePhase.Fits.holder_ne hholder hq) (mem_filter_ne hq)
    · exact hfits.frame (if_neg hholder) id (fun hb => ⟨hb, rfl⟩) (mem_filter_ne hq)
  · simp [h.quiet hb]

theorem Inv.leaveStarting (h : s.Inv) {ph : RestorePhase}
    (hph : ph.isLocked = false ∧ ph.isStarting = false) :
    (s.move p ({ s.shared with starting := s.shared.starting.filter (· ≠ p) }, ph)).Inv := by
  refine h.move (.of_unlocked hph.1 fun hs => ?_) (fun q hq hfits => ?_) fun hb => ?_
  · simp [hph.2] at hs
  · exact hfits.frame rfl id (fun hb => ⟨hb, rfl⟩) (mem_filter_ne hq)
  · simp [h.quiet hb]

section
variable {ok : Bool}

theorem Inv.creating (h : s.Inv) (hp : RestorePhase.creating.Fits s.shared p) :
    (s.move p (s.shared.advance p ok .creating)).Inv := by
  have hbegun : s.shared.begun := by
    refine eq_true_of_ne_false fun hb => ?_
    have hmem := hp.starting rfl
    simp [h.quiet hb] at hmem
  refine h.move (.of_unlocked rfl fun _ => hp.starting rfl) (fun q _ hfits => ?_) h.quiet
  exact hfits.frame rfl (fun hm => by simp [hm]) (fun hb => by simp [hbegun] at hb) id

theorem Inv.startLocking (h : s.Inv)
    (hmarker : s.shared.holder = none → s.shared.marker) :
    (s.move p (s.shared.advance p ok .startLocking)).Inv := by
  by_cases hfree : s.shared.holder = none
  · simp only [RestoreShared.advance, RestoreShared.tryLock, hfree, if_true]
    refine h.move (.of_marked rfl rfl (hmarker hfree)) (fun q hq hfits => ?_)
      fun hb => by simp [h.quiet hb]
    exact hfits.frame_of_lock (by simp [hfree]) (mem_filter_ne hq)
  · simp only [RestoreShared.advance, RestoreShared.tryLock, hfree, if_false]
    exact h.leaveStarting ⟨rfl, rfl⟩

theorem Inv.observed (h : s.Inv) (hmarker : s.shared.holder = none → s.shared.marker) :
    (s.move p (s.shared.advance p ok .observed)).Inv := by
  by_cases hfree : s.shared.holder = none
  · simp only [RestoreShared.advance, RestoreShared.tryLock, hfree, if_true]
    refine h.move (.of_marked rfl rfl (hmarker hfree)) (fun q _ hfits => ?_)
      fun hb => by simpa using hb
    exact hfits.frame_of_lock (by simp [hfree]) id
  · simp only [RestoreShared.advance, RestoreShared.tryLock, hfree, if_false]
    exact h.move_self (.of_unlocked rfl fun hs => nomatch hs)

theorem Inv.owner (h : s.Inv) (hholder : s.shared.holder = some p) (hp : ph.Fits sh p)
    (hstarting : sh.starting = s.shared.starting) (hquiet : sh.begun = false → sh.starting = []) :
    (s.move p (sh, ph)).Inv :=
  h.move hp (fun _ hq hfits => hfits.frame_of_lock (RestorePhase.Fits.holder_ne hholder hq)
    fun hmem => hstarting ▸ hmem) hquiet

theorem Inv.next (h : s.Inv) (hguard : s.LocksMarked (.next p ok)) :
    (s.step (.next p ok)).2.Inv := by
  have hp := h.fits p
  obtain ⟨hmarker, hremove⟩ := hguard
  simp only [AsyncRestore.step]
  generalize s.phase p = ph at hp hmarker hremove
  cases ph with
  | idle => exact h.move_self hp
  | starting =>
    refine h.move_self (.of_unlocked ?_ fun _ => hp.starting rfl)
    split <;> rfl
  | creating => exact h.creating hp
  | startLocking => exact h.startLocking (hmarker (.inl rfl))
  | started =>
    refine h.move_self ?_
    cases ok with
    | false => exact .of_unlocking (hp.locked rfl) fun hr => nomatch hr
    | true => exact .of_marked rfl (hp.locked rfl) (hp.marked rfl)
  | restoring => exact h.move_self (.of_marked rfl (hp.locked rfl) (hp.marked rfl))
  | observed => exact h.observed (hmarker (.inr rfl))
  | accessing r =>
    have hm : s.shared.marker := hp.marked rfl
    simp only [RestoreShared.advance, hm, if_true]
    exact h.move_self (.of_marked rfl (hp.locked rfl) hm)
  | removing r =>
    have hholder : s.shared.holder = some p := hp.locked rfl
    refine h.owner hholder (.of_unlocking hholder fun hr => ?_) rfl h.quiet
    simp [hremove (hr ▸ rfl)]
  | recreating r => exact absurd rfl (hp.notRecreating r)
  | unlocking r =>
    exact h.owner (hp.locked rfl) (.of_unlocked rfl fun hs => nomatch hs) rfl h.quiet

end

theorem inv_step (h : s.Inv) (c : RestoreStep) (hguard : s.LocksMarked c) : (s.step c).2.Inv := by
  cases c with
  | startAsyncRestore p => exact h.startAsyncRestore
  | observe p => exact h.observe
  | next p ok => exact h.next hguard
  | crash p => exact h.crash

theorem marker_advance {sh : RestoreShared} (hpre : sh.marker = false)
    (hpost : (sh.advance p ok ph).1.marker) : ph = .creating ∨ ∃ r, ph = .recreating r := by
  cases ph with
  | creating => exact .inl rfl
  | recreating r => exact .inr ⟨r, rfl⟩
  | startLocking | observed =>
    by_cases hfree : sh.holder = none <;>
      simp [RestoreShared.advance, RestoreShared.tryLock, hfree, hpre] at hpost
  | _ => simp [RestoreShared.advance, hpre] at hpost

theorem markerStays_step (h : s.Inv) (c : RestoreStep) : MarkerStays (transition step s c) where
  created hpre hpost := by
    cases c with
    | startAsyncRestore p | observe p =>
      simp only [transition, step] at hpre hpost
      split at hpost <;> simp [move, hpre] at hpost
    | crash p => exact absurd hpost (by simpa [transition, step, move] using hpre)
    | next p ok =>
      rcases marker_advance hpre hpost with hph | ⟨r, hph⟩
      · exact ⟨p, ok, rfl, hph⟩
      · exact absurd hph ((h.fits p).notRecreating r)
  removed p ok hcall hph hbegun := by
    have hc : c = .next p ok := hcall
    have hphase : s.phase p = .unlocking .observer := hph
    subst hc
    have hmarker : s.shared.marker = false := (h.fits p).removed hphase hbegun
    simpa [transition, step, move, hphase, RestoreShared.advance] using hmarker

end AsyncRestore

theorem markerStays_of_locksMarked (steps : List RestoreStep)
    (h : ∀ t ∈ trace AsyncRestore.step .initial steps, t.pre.LocksMarked t.call) :
    ∀ t ∈ trace AsyncRestore.step .initial steps, AsyncRestore.MarkerStays t :=
  trace_forall (G := fun s (c : RestoreStep) => AsyncRestore.LocksMarked s c)
    (fun _ c hinv hc => ⟨AsyncRestore.inv_step hinv c hc, AsyncRestore.markerStays_step hinv c⟩)
    AsyncRestore.inv_initial h

def RestoreStep.started (p : Nat) : List RestoreStep :=
  .startAsyncRestore p :: List.replicate 4 (.next p true)

theorem markerStays_of_locksMarked_crash :
    let steps := RestoreStep.started 0 ++ [.observe 1, .next 1 true] ++
      List.replicate 4 (.next 0 true) ++ RestoreStep.started 0 ++ [.crash 0, .observe 1] ++
      List.replicate 4 (.next 1 true)
    (∀ t ∈ trace AsyncRestore.step .initial steps, t.pre.LocksMarked t.call) ∧
      (∀ t ∈ trace AsyncRestore.step .initial steps, AsyncRestore.MarkerStays t) ∧
      (final AsyncRestore.step .initial steps).shared = ⟨false, none, [], false⟩ :=
  ⟨by decide, markerStays_of_locksMarked _ (by decide), by decide⟩

theorem marker_created_by_observer :
    let steps := RestoreStep.started 0 ++ [.crash 0, .observe 1, .observe 2] ++
      List.replicate 4 (.next 1 true)
    let removed := final AsyncRestore.step .initial steps
    let created := final AsyncRestore.step removed (List.replicate 4 (.next 2 true))
    removed.shared = ⟨false, none, [], false⟩ ∧ removed.phase 2 = .observed ∧
      created.shared = ⟨true, none, [], false⟩ := by
  decide

end RelationalStore
