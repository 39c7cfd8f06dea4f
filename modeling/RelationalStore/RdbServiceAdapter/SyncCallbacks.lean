import Mathlib
import RelationalStore.Theory.AssocList
import RelationalStore.Theory.Run

/-! # Callbacks of asynchronous synchronisations

`DoAsync` registers a callback under a fresh number, which the service reports to, and takes it out
when the request fails. -/

namespace RelationalStore

open List

inductive Progress where
  | syncBegin
  | syncInProgress
  | syncFinish
  deriving DecidableEq

inductive ProgressCode where
  | success
  | unknownError
  | networkError
  | cloudDisabled
  | lockedByOthers
  | recordLimitExceeded
  | noSpaceForAsset
  | blockedByNetworkStrategy
  | stopCloudSync
  deriving DecidableEq

structure Statistic where
  total : Nat
  success : Nat
  failed : Nat
  untreated : Nat
  deriving DecidableEq

structure TableDetail where
  upload : Statistic
  download : Statistic
  deriving DecidableEq

structure ProgressDetail where
  progress : Progress
  code : ProgressCode
  details : List (String × TableDetail)
  message : String
  deriving DecidableEq

abbrev Details := List (String × ProgressDetail)

def isFinished : Details → Bool
  | [] => true
  | (_, detail) :: _ => detail.progress = .syncFinish

def deathDetails : Details := [("", ⟨.syncFinish, .unknownError, [], ""⟩)]

inductive SyncPhase where
  | taking
  | retaking
  | inserting (seqNum : Nat)
  | sending (seqNum : Nat)
  | erasing (seqNum : Nat)
  | replying
  | returned (ok : Bool)
  deriving DecidableEq

namespace SyncPhase

def isRegistered : SyncPhase → Bool
  | .sending _ | .erasing _ | .replying | .returned true => true
  | .taking | .retaking | .inserting _ | .returned false => false

def unsent? : SyncPhase → Option Nat
  | .sending seqNum | .erasing seqNum => some seqNum
  | _ => none

def erasing? : SyncPhase → Option Nat
  | .erasing seqNum => some seqNum
  | _ => none

def isAccepted : SyncPhase → Bool
  | .replying | .returned true => true
  | _ => false

end SyncPhase

structure SyncCall where
  consumes : Bool
  phase : SyncPhase
  deriving DecidableEq

structure SyncRequest where
  seqNum : Nat
  call : Nat
  finished : Bool
  deriving DecidableEq

structure RemoteDeath where
  result : Details
  pending : List (Nat × Nat)
  left : List (Nat × Nat)
  deriving DecidableEq

structure SyncProxy where
  seqNum : Nat
  callbacks : List (Nat × Nat)
  calls : List SyncCall
  requests : List SyncRequest
  deaths : List RemoteDeath
  log : List (Nat × Details)
  deriving DecidableEq

inductive SyncStep where
  | sync (consumes : Bool)
  | next (call : Nat) (accepts : Bool)
  | deliver (request : Nat) (result : Details)
  | remoteDied
  | notify (death : Nat)

namespace SyncProxy

def initial : SyncProxy := ⟨0, [], [], [], [], []⟩

def phase (s : SyncProxy) (i : Nat) : Option SyncPhase := s.calls[i]?.map (·.phase)

def consumes (s : SyncProxy) (i : Nat) : Bool := (s.calls[i]?.map (·.consumes)).getD false

def setPhase (s : SyncProxy) (i : Nat) (ph : SyncPhase) : SyncProxy :=
  { s with calls := s.calls.modify i fun call => { call with phase := ph } }

def insertCallback (s : SyncProxy) (seqNum call : Nat) : SyncProxy :=
  { s with callbacks := s.callbacks.orderedInsert (·.1 ≤ ·.1) (seqNum, call) }

def eraseCallback (s : SyncProxy) (seqNum : Nat) : SyncProxy :=
  { s with callbacks := s.callbacks.filter (·.1 ≠ seqNum) }

def nextSeqNum (s : SyncProxy) : Nat := (s.seqNum + 1) % 2 ^ 32

def next (s : SyncProxy) (i : Nat) (accepts : Bool) : SyncProxy :=
  match s.phase i with
  | some .taking =>
    { s with seqNum := s.nextSeqNum }.setPhase i
      (if s.nextSeqNum = 0 then .retaking else .inserting s.nextSeqNum)
  | some .retaking => { s with seqNum := s.nextSeqNum }.setPhase i (.inserting s.nextSeqNum)
  | some (.inserting seqNum) =>
    if (s.callbacks.lookup seqNum).isSome then s.setPhase i (.returned false)
    else (s.insertCallback seqNum i).setPhase i (.sending seqNum)
  | some (.sending seqNum) =>
    if accepts then
      { s with requests := s.requests ++ [SyncRequest.mk seqNum i false] }.setPhase i .replying
    else s.setPhase i (.erasing seqNum)
  | some (.erasing seqNum) => (s.eraseCallback seqNum).setPhase i (.returned false)
  | some .replying => s.setPhase i (.returned true)
  | some (.returned _) | none => s

def hand (s : SyncProxy) (i : Nat) (result : Details) : SyncProxy :=
  { s with log := s.log ++ [(i, result)] }

def onSyncComplete (s : SyncProxy) (seqNum : Nat) (result : Details) : SyncProxy :=
  match s.callbacks.lookup seqNum with
  | none => s
  | some i =>
    if isFinished result then (s.hand i result).eraseCallback seqNum else s.hand i result

def deliver (s : SyncProxy) (r : Nat) (result : Details) : SyncProxy :=
  match s.requests[r]? with
  | none => s
  | some request =>
    if request.finished then s
    else
      { s with
        requests := s.requests.set r { request with finished := isFinished result }
      }.onSyncComplete request.seqNum result

def remoteDied (s : SyncProxy) : SyncProxy :=
  { s with callbacks := [], deaths := s.deaths ++ [⟨deathDetails, s.callbacks, s.callbacks⟩] }

def notify (s : SyncProxy) (k : Nat) : SyncProxy :=
  match s.deaths[k]? with
  | some ⟨result, pending, (_, i) :: left⟩ =>
    { s with
      deaths := s.deaths.set k ⟨if s.consumes i then [] else result, pending, left⟩
    }.hand i result
  | some ⟨_, _, []⟩ | none => s

def step (s : SyncProxy) : SyncStep → Unit × SyncProxy
  | .sync consumes => ((), { s with calls := s.calls ++ [⟨consumes, .taking⟩] })
  | .next i accepts => ((), s.next i accepts)
  | .deliver r result => ((), s.deliver r result)
  | .remoteDied => ((), s.remoteDied)
  | .notify k => ((), s.notify k)

/-- What the callbacks may rely on. -/
structure Notifies (t : Transition SyncProxy SyncStep Unit) : Prop where
  failed : ∀ i, t.post.phase i = some (.returned false) → i ∉ t.post.log.map (·.1)
  finished : t.post.log.Pairwise fun e e' => isFinished e.2 → e'.1 ≠ e.1
  taken : t.call = .remoteDied → ∃ d ∈ t.post.deaths, d.pending = t.pre.callbacks
  handed : ∀ d ∈ t.post.deaths, ∀ e ∈ d.pending,
    e ∈ d.left ∨ (e.2, deathDetails) ∈ t.post.log

/-- A call takes out its own callback after a failed request, a report reaches the callback of its
request or none, and only the last of the callbacks of a dead service moves the map out. -/
def Undisturbed (s : SyncProxy) : SyncStep → Prop
  | .next i _ => ∀ seqNum ∈ (s.phase i).bind SyncPhase.erasing?, (seqNum, i) ∈ s.callbacks
  | .deliver r _ => ∀ request ∈ s.requests[r]?, request.finished = false →
      ∀ i ∈ s.callbacks.lookup request.seqNum, i = request.call
  | .notify k => ∀ d ∈ s.deaths[k]?, ∀ e ∈ d.left.head?, d.left.tail ≠ [] → s.consumes e.2 = false
  | .sync _ | .remoteDied => True

instance (s : SyncProxy) (c : SyncStep) : Decidable (s.Undisturbed c) :=
  match c with
  | .next i _ => inferInstanceAs (Decidable (∀ seqNum ∈ (s.phase i).bind SyncPhase.erasing?, _))
  | .deliver r _ => inferInstanceAs (Decidable (∀ request ∈ s.requests[r]?, _))
  | .notify k => inferInstanceAs (Decidable (∀ d ∈ s.deaths[k]?, _))
  | .sync _ | .remoteDied => .isTrue trivial

/-! ## What holds for each callback -/

def waiting (s : SyncProxy) : List Nat :=
  s.callbacks.map (·.2) ++ s.deaths.flatMap fun d => d.left.map (·.2)

structure Inv (s : SyncProxy) : Prop where
  registered : ∀ i, i ∈ s.waiting ∨ i ∈ s.log.map (·.1) →
    ∃ ph, s.phase i = some ph ∧ ph.isRegistered
  unsent : ∀ m i ph n, (m, i) ∈ s.callbacks → s.phase i = some ph → ph.unsent? = some n →
    m = n ∧ i ∉ s.log.map (·.1)
  finished : ∀ e ∈ s.log, isFinished e.2 → e.1 ∉ s.waiting
  nodup : s.waiting.Nodup
  keys : (s.callbacks.map (·.1)).Nodup
  accepted : ∀ r ∈ s.requests, ∃ ph, s.phase r.call = some ph ∧ ph.isAccepted
  ordered : s.log.Pairwise fun e e' => isFinished e.2 → e'.1 ≠ e.1

structure Dead (s : SyncProxy) : Prop where
  intact : ∀ d ∈ s.deaths, d.left ≠ [] → d.result = deathDetails
  handed : ∀ d ∈ s.deaths, ∀ e ∈ d.pending, e ∈ d.left ∨ (e.2, deathDetails) ∈ s.log

variable {s s' : SyncProxy} {i j n : Nat} {ph ph₀ : SyncPhase} {result : Details}

theorem inv_initial : initial.Inv where
  registered _ h := by simp [initial, waiting] at h
  unsent _ _ _ _ h := nomatch h
  finished _ h := nomatch h
  nodup := .nil
  keys := .nil
  accepted _ h := nomatch h
  ordered := .nil

@[simp] theorem phase_setPhase_self (hi : s.phase i = some ph₀) :
    (s.setPhase i ph).phase i = some ph := by
  obtain ⟨call, hcall, -⟩ := Option.map_eq_some_iff.mp hi
  simp [setPhase, phase, hcall]

@[simp] theorem phase_setPhase_of_ne (hj : j ≠ i) : (s.setPhase i ph).phase j = s.phase j := by
  simp [setPhase, phase, hj.symm]

section
variable (h : s.Inv)
include h

theorem Inv.of_unregistered (hi : s.phase i = some ph)
    (hph : ph.isRegistered = false) : i ∉ s.waiting ∧ i ∉ s.log.map (·.1) := by
  refine not_or.mp fun hmem => ?_
  obtain ⟨ph', hi', hph'⟩ := h.registered i hmem
  cases hi.symm.trans hi'
  exact nomatch hph.symm.trans hph'

theorem Inv.setPhase (hi : s.phase i = some ph₀)
    (hreg : ph.isRegistered ∨ i ∉ s.waiting ∧ i ∉ s.log.map (·.1))
    (hunsent : ∀ n, ph.unsent? = some n → ph₀.unsent? = some n ∨ i ∉ s.waiting)
    (hacc : ph₀.isAccepted → ph.isAccepted) : (s.setPhase i ph).Inv where
  registered j hj := by
    by_cases hji : j = i
    · subst hji
      refine ⟨ph, phase_setPhase_self hi, hreg.resolve_right fun hnone => ?_⟩
      exact hj.elim hnone.1 hnone.2
    · rw [phase_setPhase_of_ne hji]
      exact h.registered j hj
  unsent m j ph' n hmem hj hn := by
    by_cases hji : j = i
    · subst hji
      cases (phase_setPhase_self hi).symm.trans hj
      rcases hunsent n hn with hn | hnone
      · exact h.unsent m j ph₀ n hmem hi hn
      · exact absurd (mem_append_left _ (mem_map_of_mem hmem)) hnone
    · rw [phase_setPhase_of_ne hji] at hj
      exact h.unsent m j ph' n hmem hj hn
  finished := h.finished
  nodup := h.nodup
  keys := h.keys
  accepted r hr := by
    obtain ⟨ph', hj, hph'⟩ := h.accepted r hr
    by_cases hji : r.call = i
    · subst hji
      cases hi.symm.trans hj
      exact ⟨ph, phase_setPhase_self hi, hacc hph'⟩
    · exact ⟨ph', (phase_setPhase_of_ne hji).trans hj, hph'⟩
  ordered := h.ordered

theorem Inv.sublist (hcalls : s'.calls = s.calls) (hlog : s'.log = s.log)
    (hrequests : s'.requests = s.requests) (hcallbacks : s'.callbacks.Sublist s.callbacks)
    (hwaiting : s'.waiting.Sublist s.waiting) : s'.Inv := by
  have hphase (j : Nat) : s'.phase j = s.phase j := by rw [phase, hcalls, phase]
  constructor
  · intro j hj
    rw [hphase]
    exact h.registered j (hj.imp (fun hj => hwaiting.subset hj) fun hj => hlog ▸ hj)
  · intro m j ph n hmem hj hn
    rw [hlog]
    exact h.unsent m j ph n (hcallbacks.subset hmem) (hphase j ▸ hj) hn
  · intro e he hfin hmem
    exact h.finished e (hlog ▸ he) hfin (hwaiting.subset hmem)
  · exact h.nodup.sublist hwaiting
  · exact h.keys.sublist (hcallbacks.map _)
  · intro r hr
    rw [hphase]
    exact h.accepted r (hrequests ▸ hr)
  · rw [hlog]
    exact h.ordered

theorem Inv.eraseCallback (n : Nat) : (s.eraseCallback n).Inv :=
  h.sublist rfl rfl rfl filter_sublist
    ((filter_sublist.map _).append (List.Sublist.refl _))

theorem Inv.not_mem_waiting_erase (hmem : (n, i) ∈ s.callbacks) :
    i ∉ (s.eraseCallback n).waiting := by
  obtain ⟨hcallbacks, -, hdisjoint⟩ := nodup_append'.mp h.nodup
  have hi : i ∈ s.callbacks.map (·.2) := mem_map_of_mem hmem
  intro hwaiting
  rcases mem_append.mp hwaiting with hmem' | hdeath
  · obtain ⟨⟨m, _⟩, hfilter, rfl⟩ := mem_map.mp hmem'
    obtain ⟨hm, hne⟩ := mem_filter.mp hfilter
    cases inj_on_of_nodup_map hcallbacks hm hmem rfl
    simp at hne
  · exact hdisjoint hi hdeath

theorem Inv.insertCallback (hi : s.phase i = some (.sending n))
    (hnone : i ∉ s.waiting ∧ i ∉ s.log.map (·.1)) (hkey : s.callbacks.lookup n = none) :
    (s.insertCallback n i).Inv := by
  have hperm : (s.insertCallback n i).callbacks.Perm ((n, i) :: s.callbacks) :=
    perm_orderedInsert _ _ _
  have hwaiting : (s.insertCallback n i).waiting.Perm (i :: s.waiting) :=
    (hperm.map (·.2)).append_right _
  constructor
  · intro j hj
    by_cases hji : j = i
    · exact ⟨_, hji ▸ hi, rfl⟩
    · refine h.registered j (hj.imp_left fun hmem => ?_)
      exact (mem_cons.mp (hwaiting.mem_iff.mp hmem)).resolve_left hji
  · intro m j ph n' hmem hj hn
    rcases mem_cons.mp (hperm.mem_iff.mp hmem) with heq | hmem
    · cases heq
      cases hi.symm.trans hj
      exact ⟨Option.some.inj hn, hnone.2⟩
    · exact h.unsent m j ph n' hmem hj hn
  · intro e he hfin hmem
    rcases mem_cons.mp (hwaiting.mem_iff.mp hmem) with rfl | hmem
    · exact hnone.2 (mem_map_of_mem he)
    · exact h.finished e he hfin hmem
  · exact hwaiting.nodup_iff.mpr (nodup_cons.mpr ⟨hnone.1, h.nodup⟩)
  · refine (hperm.map (·.1)).nodup_iff.mpr (nodup_cons.mpr ⟨?_, h.keys⟩)
    exact lookup_eq_none_iff_keys.mp hkey
  · exact h.accepted
  · exact h.ordered

theorem Inv.hand (hreg : ∃ ph, s.phase i = some ph ∧ ph.isRegistered)
    (hsent : ∀ m ph, (m, i) ∈ s.callbacks → s.phase i = some ph → ph.unsent? = none)
    (hfin : isFinished result → i ∉ s.waiting)
    (hbefore : ∀ e ∈ s.log, isFinished e.2 → i ≠ e.1) : (s.hand i result).Inv := by
  have hlog (j : Nat) : j ∈ (s.hand i result).log.map (·.1) ↔ j ∈ s.log.map (·.1) ∨ j = i := by
    simp [SyncProxy.hand]
  constructor
  · intro j hj
    rw [hlog, ← or_assoc] at hj
    rcases hj with hj | rfl
    · exact h.registered j hj
    · exact hreg
  · intro m j ph n hmem hj hn
    obtain ⟨hm, hnone⟩ := h.unsent m j ph n hmem hj hn
    refine ⟨hm, fun hj' => ?_⟩
    rcases (hlog j).mp hj' with hj' | rfl
    · exact hnone hj'
    · exact nomatch (hsent m ph hmem hj).symm.trans hn
  · intro e he he'
    rcases mem_append.mp he with he | he
    · exact h.finished e he he'
    · cases mem_singleton.mp he
      exact hfin he'
  · exact h.nodup
  · exact h.keys
  · exact h.accepted
  · refine pairwise_append.mpr ⟨h.ordered, pairwise_singleton _ _, ?_⟩
    intro e he e' he'
    cases mem_singleton.mp he'
    exact hbefore e he

theorem Inv.ne_of_mem_waiting (hi : i ∈ s.waiting) :
    ∀ e ∈ s.log, isFinished e.2 → i ≠ e.1 := by
  rintro e he hfin rfl
  exact h.finished e he hfin hi

end

/-! ## The steps -/

section
variable (h : s.Inv)
include h

theorem Inv.sync (consumes : Bool) :
    Inv { s with calls := s.calls ++ [⟨consumes, .taking⟩] } := by
  have hphase {j : Nat} {ph : SyncPhase} (hj : s.phase j = some ph) :
      phase { s with calls := s.calls ++ [⟨consumes, .taking⟩] } j = some ph := by
    obtain ⟨call, hcall, hph⟩ := Option.map_eq_some_iff.mp hj
    have hlt := (List.getElem?_eq_some_iff.mp hcall).1
    rw [phase, getElem?_append_left hlt, hcall, Option.map_some, hph]
  constructor
  · intro j hj
    obtain ⟨ph, hph, hreg⟩ := h.registered j hj
    exact ⟨ph, hphase hph, hreg⟩
  · intro m j ph n hmem hj hn
    obtain ⟨ph', hph', -⟩ := h.registered j
      (.inl (mem_append_left _ (mem_map_of_mem hmem)))
    cases (hphase hph').symm.trans hj
    exact h.unsent m j ph n hmem hph' hn
  · exact h.finished
  · exact h.nodup
  · exact h.keys
  · intro r hr
    obtain ⟨ph, hph, hacc⟩ := h.accepted r hr
    exact ⟨ph, hphase hph, hacc⟩
  · exact h.ordered

theorem Inv.addRequest (hi : s.phase i = some .replying) :
    Inv { s with requests := s.requests ++ [SyncRequest.mk n i false] } where
  registered := h.registered
  unsent := h.unsent
  finished := h.finished
  nodup := h.nodup
  keys := h.keys
  accepted r hr := by
    rcases mem_append.mp hr with hr | hr
    · exact h.accepted r hr
    · cases mem_singleton.mp hr
      exact ⟨_, hi, rfl⟩
  ordered := h.ordered

theorem Inv.setSeqNum (n : Nat) : Inv { s with seqNum := n } :=
  h.sublist rfl rfl rfl (List.Sublist.refl _) (List.Sublist.refl _)

theorem Inv.next (hguard : s.Undisturbed (.next i accepts)) : (s.next i accepts).Inv := by
  -- from a phase without a registered callback to another
  have hunregistered {ph₀ : SyncPhase} (ph : SyncPhase) (hi : s.phase i = some ph₀)
      (hph₀ : ph₀.isRegistered = false) (hacc : ph₀.isAccepted = false) :
      (s.setPhase i ph).Inv := by
    have hnone := h.of_unregistered hi hph₀
    exact h.setPhase hi (.inr hnone) (fun _ _ => .inr hnone.1)
      fun hacc' => nomatch hacc.symm.trans hacc'
  unfold SyncProxy.next
  cases hi : s.phase i with
  | none => exact h
  | some ph =>
    cases ph with
    | taking => exact (hunregistered _ hi rfl rfl).setSeqNum _
    | retaking => exact (hunregistered _ hi rfl rfl).setSeqNum _
    | inserting n =>
      dsimp only
      split
      · exact hunregistered _ hi rfl rfl
      next hkey =>
        have hnone := h.of_unregistered hi rfl
        exact (hunregistered (.sending n) hi rfl rfl).insertCallback
          (phase_setPhase_self hi) hnone (Option.not_isSome_iff_eq_none.mp hkey)
    | sending n =>
      cases accepts with
      | false =>
        exact h.setPhase hi (.inl rfl) (fun _ hn => .inl hn) fun hacc => nomatch hacc
      | true =>
        have hnext : (s.setPhase i .replying).Inv :=
          h.setPhase hi (.inl rfl) (fun _ hn => nomatch hn) fun _ => rfl
        exact hnext.addRequest (phase_setPhase_self hi)
    | erasing n =>
      have hmem : (n, i) ∈ s.callbacks := hguard n (by rw [hi]; rfl)
      have hlog := (h.unsent n i _ n hmem hi rfl).2
      exact (h.eraseCallback n).setPhase hi (.inr ⟨h.not_mem_waiting_erase hmem, hlog⟩)
        (fun _ hn => nomatch hn) fun hacc => nomatch hacc
    | replying => exact h.setPhase hi (.inl rfl) (fun _ hn => nomatch hn) fun _ => rfl
    | returned ok => exact h

theorem Inv.setRequest (finished : Bool) (hr : s.requests[r]? = some request) :
    Inv { s with requests := s.requests.set r { request with finished := finished } } where
  registered := h.registered
  unsent := h.unsent
  finished := h.finished
  nodup := h.nodup
  keys := h.keys
  accepted r' hr' := by
    rcases mem_or_eq_of_mem_set hr' with hr' | rfl
    · exact h.accepted r' hr'
    · exact h.accepted request (mem_of_getElem? hr)
  ordered := h.ordered

theorem Inv.onSyncComplete (hlookup : ∀ i ∈ s.callbacks.lookup n, i = j)
    (hj : ∃ ph, s.phase j = some ph ∧ ph.isAccepted) :
    (s.onSyncComplete n result).Inv := by
  unfold SyncProxy.onSyncComplete
  split
  · exact h
  next i hi =>
    obtain rfl : i = j := hlookup i hi
    obtain ⟨ph, hph, hacc⟩ := hj
    have hmem : (n, i) ∈ s.callbacks := mem_of_lookup hi
    have hwaiting : i ∈ s.waiting := mem_append_left _ (mem_map_of_mem hmem)
    have hreg := h.registered i (.inl hwaiting)
    have hsent (m : Nat) (ph' : SyncPhase) (_ : (m, i) ∈ s.callbacks)
        (hph' : s.phase i = some ph') : ph'.unsent? = none := by
      cases hph.symm.trans hph'
      cases ph with
      | sending | erasing => exact nomatch hacc
      | _ => rfl
    split
    · refine (h.eraseCallback n).hand hreg (fun m ph' hm => ?_) (fun _ => ?_)
        (h.ne_of_mem_waiting hwaiting)
      · exact hsent m ph' (mem_filter.mp hm).1
      · exact h.not_mem_waiting_erase hmem
    next hfin =>
      exact h.hand hreg hsent (fun hfin' => absurd hfin' hfin) (h.ne_of_mem_waiting hwaiting)

theorem Inv.deliver (hguard : s.Undisturbed (.deliver r result)) : (s.deliver r result).Inv := by
  unfold SyncProxy.deliver
  split
  · exact h
  next request hr =>
    split
    · exact h
    next hfinished =>
      have hlookup := hguard request hr (Bool.eq_false_of_not_eq_true hfinished)
      exact (h.setRequest _ hr).onSyncComplete hlookup
        (h.accepted request (mem_of_getElem? hr))

theorem Inv.remoteDied : s.remoteDied.Inv := by
  have hwaiting : s.remoteDied.waiting.Perm s.waiting := by
    simpa [waiting, SyncProxy.remoteDied] using perm_append_comm
  exact {
    registered := fun i hi => h.registered i (hi.imp_left hwaiting.mem_iff.mp)
    unsent := fun _ _ _ _ hmem => nomatch hmem
    finished := fun e he hfin hmem => h.finished e he hfin (hwaiting.mem_iff.mp hmem)
    nodup := hwaiting.nodup_iff.mpr h.nodup
    keys := .nil
    accepted := h.accepted
    ordered := h.ordered }

theorem Inv.notify (k : Nat) : (s.notify k).Inv := by
  unfold SyncProxy.notify
  split
  next result pending m i left hk =>
    obtain ⟨hlt, hget⟩ := List.getElem?_eq_some_iff.mp hk
    generalize hd : RemoteDeath.mk (if s.consumes i then [] else result) pending left = d
    have hleft : d.left = left := by rw [← hd]
    obtain ⟨l₁, l₂, hdeaths, -, hset⟩ := @exists_of_set _ _ d _ hlt
    -- the callback is one of the waiting ones, and the others stay
    obtain ⟨before, after, hbefore, hafter⟩ : ∃ before after, s.waiting = before ++ i :: after ∧
        waiting { s with deaths := l₁ ++ d :: l₂ } = before ++ after := by
      refine ⟨s.callbacks.map (·.2) ++ l₁.flatMap (·.left.map (·.2)),
        left.map (·.2) ++ l₂.flatMap (·.left.map (·.2)), ?_, ?_⟩
      · rw [waiting, hdeaths, hget]
        simp
      · simp [waiting, hleft]
    rw [hset]
    have hnodup := nodup_middle.mp (hbefore ▸ h.nodup)
    have hi : i ∈ s.waiting := by simp [hbefore]
    have hnone := (nodup_cons.mp hnodup).1
    rw [← hafter] at hnone
    refine Inv.hand ?_ (h.registered i (.inl hi)) (fun m' _ hm' => ?_) (fun _ => hnone)
      (h.ne_of_mem_waiting hi)
    · refine h.sublist rfl rfl rfl (List.Sublist.refl _) ?_
      rw [hafter, hbefore]
      exact (List.Sublist.refl _).append (sublist_cons_self _ _)
    · exact absurd (mem_append_left _ (mem_map_of_mem hm')) hnone
  all_goals exact h

theorem Inv.step (hguard : s.Undisturbed c) : (s.step c).2.Inv := by
  cases c with
  | sync consumes => exact h.sync consumes
  | next i accepts => exact h.next hguard
  | deliver r result => exact h.deliver hguard
  | remoteDied => exact h.remoteDied
  | notify k => exact h.notify k

end

/-! ## The map of a dead service -/

theorem Dead.mono (h : s.Dead) (hdeaths : s'.deaths = s.deaths) (hlog : s.log ⊆ s'.log) :
    s'.Dead where
  intact d hd := h.intact d (hdeaths ▸ hd)
  handed d hd e he := (h.handed d (hdeaths ▸ hd) e he).imp_right fun hmem => hlog hmem

theorem deaths_next (i : Nat) (accepts : Bool) :
    (s.next i accepts).deaths = s.deaths ∧ (s.next i accepts).log = s.log := by
  unfold SyncProxy.next
  split
  all_goals try split
  all_goals exact ⟨rfl, rfl⟩

theorem deaths_deliver (r : Nat) (result : Details) :
    (s.deliver r result).deaths = s.deaths ∧ s.log ⊆ (s.deliver r result).log := by
  unfold SyncProxy.deliver SyncProxy.onSyncComplete
  split
  · exact ⟨rfl, List.Subset.refl _⟩
  · split
    · exact ⟨rfl, List.Subset.refl _⟩
    · split
      · exact ⟨rfl, List.Subset.refl _⟩
      · split <;> exact ⟨rfl, subset_append_left _ _⟩

theorem Dead.remoteDied (h : s.Dead) : s.remoteDied.Dead where
  intact d hd hleft := by
    rcases mem_append.mp hd with hd | hd
    · exact h.intact d hd hleft
    · cases mem_singleton.mp hd
      rfl
  handed d hd e he := by
    rcases mem_append.mp hd with hd | hd
    · exact h.handed d hd e he
    · cases mem_singleton.mp hd
      exact .inl he

theorem Dead.notify (h : s.Dead) (hguard : s.Undisturbed (.notify k)) : (s.notify k).Dead := by
  unfold SyncProxy.notify
  split
  next result pending m i left hk =>
    have hmem := mem_of_getElem? hk
    have hresult : result = deathDetails := h.intact _ hmem (cons_ne_nil _ _)
    have hconsumes : left ≠ [] → s.consumes i = false := hguard _ hk (m, i) rfl
    constructor
    · intro d hd hleft
      rcases mem_or_eq_of_mem_set hd with hd | rfl
      · exact h.intact d hd hleft
      · simp [hconsumes hleft, hresult]
    · intro d hd e he
      rcases mem_or_eq_of_mem_set hd with hd | rfl
      · exact (h.handed d hd e he).imp_right fun hlog => mem_append_left _ hlog
      · rcases h.handed _ hmem e he with hleft | hlog
        · rcases mem_cons.mp hleft with rfl | hleft
          · exact .inr (mem_append_right _ (by simp [hresult]))
          · exact .inl hleft
        · exact .inr (mem_append_left _ hlog)
  all_goals exact h

theorem Dead.step (h : s.Dead) (hguard : s.Undisturbed c) : (s.step c).2.Dead := by
  cases c with
  | sync consumes => exact h.mono rfl (List.Subset.refl _)
  | next i accepts =>
    obtain ⟨hdeaths, hlog⟩ := deaths_next (s := s) i accepts
    exact h.mono hdeaths fun e he => hlog ▸ he
  | deliver r result =>
    obtain ⟨hdeaths, hlog⟩ := deaths_deliver (s := s) r result
    exact h.mono hdeaths hlog
  | remoteDied => exact h.remoteDied
  | notify k => exact h.notify hguard

/-! ## Every run -/

theorem Inv.notifies (h : s.Inv) (hdead : s.Dead) (hguard : s.Undisturbed c) :
    Notifies (transition SyncProxy.step s c) where
  failed i hi hmem := by
    obtain ⟨ph, hph, hreg⟩ := (h.step hguard).registered i (.inr hmem)
    cases hi.symm.trans hph
    exact nomatch hreg
  finished := (h.step hguard).ordered
  taken hcall := by
    obtain rfl : c = .remoteDied := hcall
    exact ⟨_, mem_append_right _ (mem_singleton_self _), rfl⟩
  handed := (hdead.step hguard).handed

theorem notifies_of_undisturbed (steps : List SyncStep)
    (h : ∀ t ∈ trace step initial steps, t.pre.Undisturbed t.call) :
    ∀ t ∈ trace step initial steps, Notifies t := by
  refine trace_forall (I := fun s => s.Inv ∧ s.Dead) (G := fun s c => s.Undisturbed c)
    (fun s c hs hguard => ?_) ⟨inv_initial, fun _ h => (nomatch h), fun _ h => (nomatch h)⟩ h
  exact ⟨⟨hs.1.step hguard, hs.2.step hguard⟩, hs.1.notifies hs.2 hguard⟩

theorem notifies_of_undisturbed_death :
    let steps : List SyncStep := [.sync true, .sync true, .next 0 true, .next 1 true, .next 0 true,
      .next 1 true, .next 0 true, .next 1 true, .deliver 0 deathDetails, .remoteDied, .notify 0]
    (final step initial steps).log = [(0, deathDetails), (1, deathDetails)] ∧
      ∀ t ∈ trace step initial steps, Notifies t :=
  ⟨by decide, notifies_of_undisturbed _ (by decide)⟩

theorem death_misses_callbacks :
    (∃ t ∈ trace step initial [.sync true, .sync false, .next 0 true, .next 1 true, .next 0 true,
        .next 1 true, .next 0 true, .next 1 true, .remoteDied, .notify 0, .notify 0],
      t.post.log = [(0, deathDetails), (1, [])] ∧ ¬ Notifies t) ∧
    ∃ t ∈ trace step initial [.sync false, .next 0 false, .next 0 false, .remoteDied, .notify 0,
        .next 0 false, .next 0 false],
      t.post.phase 0 = some (.returned false) ∧ t.post.log = [(0, deathDetails)] ∧
        ¬ Notifies t := by
  constructor
  · refine ⟨_, mem_of_getElem? (i := 10) rfl, by decide, fun h => ?_⟩
    have hmissed := h.handed _ (mem_singleton_self _) (2, 1) (by decide)
    revert hmissed
    decide
  · refine ⟨_, mem_of_getElem? (i := 6) rfl, by decide, by decide, fun h => ?_⟩
    exact h.failed 0 (by decide) (by decide)

end SyncProxy

end RelationalStore
