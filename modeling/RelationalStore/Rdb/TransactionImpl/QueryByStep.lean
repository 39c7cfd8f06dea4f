import RelationalStore.Theory.Run

/-! # Result sets of a transaction object

Threads that share a transaction object meet only under its mutex, but create result sets outside.
-/

namespace RelationalStore

open List

inductive TransPhase where
  | idle
  | queryFetched
  | queryCreated (i : Nat)
  | queryAdded (i : Nat)
  | dataFetched
  | dataExecuting
  | stepping
  deriving DecidableEq

def TransPhase.hasStatement : TransPhase → Bool
  | .dataExecuting | .stepping => true
  | _ => false

structure SharedTrans where
  store : Bool
  connection : Bool
  useCount : Nat
  resultSets : List Nat
  sets : List Bool
  threads : List TransPhase
  returned : List Nat
  ended : Bool
  deriving DecidableEq

inductive SharedTransStep where
  | queryByStep (p : Nat)
  | dataOperation (p : Nat)
  | next (p : Nat) (again : Bool)
  | commit
  | rollback
  | close
  | stepResultSet (p i : Nat)
  | closeResultSet (i : Nat)

namespace SharedTrans

def initial (n : Nat) : SharedTrans := ⟨true, true, 1, [], [], List.replicate n .idle, [], false⟩

def isConnAlive (s : SharedTrans) : Bool := s.useCount ≠ 0

def setPhase (s : SharedTrans) (p : Nat) (ph : TransPhase) : SharedTrans :=
  { s with threads := s.threads.set p ph }

def getStore (s : SharedTrans) (p : Nat) (ph : TransPhase) : SharedTrans :=
  if s.threads[p]? = some .idle ∧ s.store then s.setPhase p ph else s

def addResultSet (s : SharedTrans) (i : Nat) : SharedTrans :=
  { s with resultSets := s.resultSets ++ [i] }

def advance (s : SharedTrans) (p : Nat) (again : Bool) : SharedTrans :=
  match s.threads[p]? with
  | none | some .idle => s
  | some .queryFetched =>
    { s with
      sets := s.sets ++ [s.isConnAlive]
      useCount := s.useCount + s.isConnAlive.toNat }.setPhase p (.queryCreated s.sets.length)
  | some (.queryCreated i) => (s.addResultSet i).setPhase p (.queryAdded i)
  | some (.queryAdded i) => { s with returned := s.returned ++ [i] }.setPhase p .idle
  | some .dataFetched =>
    if s.isConnAlive then { s with useCount := s.useCount + 1 }.setPhase p .dataExecuting
    else s.setPhase p .idle
  | some .dataExecuting =>
    { s with useCount := s.useCount - 1 }.setPhase p (if again then .dataFetched else .idle)
  | some .stepping => { s with useCount := s.useCount - 1 }.setPhase p .idle

def closeSet (s : SharedTrans) (i : Nat) : SharedTrans :=
  if s.sets[i]? = some true then
    { s with sets := s.sets.set i false, useCount := s.useCount - 1 }
  else s

def closeInner (s : SharedTrans) : SharedTrans :=
  s.resultSets.foldl closeSet
    { s with
      store := false
      connection := false
      useCount := s.useCount - s.connection.toNat
      ended := true }

def endTrans (s : SharedTrans) : SharedTrans :=
  if s.connection then s.closeInner else { s with ended := true }

def step (s : SharedTrans) : SharedTransStep → Unit × SharedTrans
  | .queryByStep p => ((), s.getStore p .queryFetched)
  | .dataOperation p => ((), s.getStore p .dataFetched)
  | .next p again => ((), s.advance p again)
  | .commit | .rollback => ((), s.endTrans)
  | .close => ((), s.closeInner)
  | .stepResultSet p i =>
    ((), if s.threads[p]? = some .idle ∧ i ∈ s.returned ∧ s.sets[i]? = some true then
        { s with useCount := s.useCount + 1 }.setPhase p .stepping
      else s)
  | .closeResultSet i => ((), s.closeSet i)

def IsOpen (s : SharedTrans) (i : Nat) : Prop := s.sets[i]? = some true
  deriving Decidable

/-- Once a call of `Commit`, `Rollback` or `Close` has returned, nothing is left of the
transaction. -/
structure Closes (t : Transition SharedTrans SharedTransStep Unit) : Prop where
  returned : t.post.ended → ∀ i ∈ t.post.returned, ¬ t.post.IsOpen i
  refused : t.pre.ended →
    ∀ p, t.call = .queryByStep p ∨ t.call = .dataOperation p → t.post = t.pre
  released : t.post.useCount = 0 ↔ t.post.connection = false ∧ (∀ i, ¬ t.post.IsOpen i) ∧
    ∀ ph ∈ t.post.threads, ph.hasStatement = false

def holdsUnlisted (s : SharedTrans) : TransPhase → Bool
  | .queryCreated i => decide (s.IsOpen i)
  | _ => false

/-- The object is not closed while somebody has an open result set that is not in the list, and no
result set is created after that while somebody still has a statement. -/
def ClosesListed (s : SharedTrans) : SharedTransStep → Prop
  | .commit | .rollback | .close => ∀ ph ∈ s.threads, s.holdsUnlisted ph = false
  | .next p _ => s.ended → s.threads[p]? = some .queryFetched →
    ∀ ph ∈ s.threads, ph.hasStatement = false
  | _ => True

instance (s : SharedTrans) (c : SharedTransStep) : Decidable (s.ClosesListed c) :=
  match c with
  | .commit | .rollback | .close => inferInstanceAs (Decidable (∀ ph ∈ _, _))
  | .next .. => inferInstanceAs (Decidable (_ → _ → _))
  | .queryByStep _ | .dataOperation _ | .stepResultSet .. | .closeResultSet _ => .isTrue trivial

/-! ## What every step keeps -/

/-- The holders of the connection are counted. -/
def Counted (s : SharedTrans) : Prop :=
  s.useCount = s.connection.toNat + s.sets.countP id + s.threads.countP TransPhase.hasStatement

structure Inv (s : SharedTrans) : Prop where
  store : s.store = s.connection
  ended : s.ended = !s.connection
  counted : s.Counted
  listed : ∀ i, s.IsOpen i → i ∈ s.resultSets ∨ .queryCreated i ∈ s.threads
  closed : s.connection = false → ∀ i, ¬ s.IsOpen i

theorem inv_initial (n : Nat) : (initial n).Inv where
  store := rfl
  ended := rfl
  counted := by simp [Counted, initial, countP_replicate, TransPhase.hasStatement]
  listed _ h := nomatch h
  closed h := nomatch h

variable {s : SharedTrans} {p i : Nat} {ph old : TransPhase}

section
variable {α : Type _} {l : List α} {a b : α}

theorem mem_set_of_getElem?_ne (h : a ∈ l) (hne : l[p]? ≠ some a) : a ∈ l.set p b := by
  obtain ⟨q, hq⟩ := getElem?_of_mem h
  have hpq : p ≠ q := fun heq => hne (heq ▸ hq)
  exact mem_of_getElem? ((getElem?_set_ne hpq).trans hq)

theorem countP_set_add (f : α → Bool) (h : l[i]? = some a) :
    (l.set i b).countP f + (f a).toNat = l.countP f + (f b).toNat := by
  obtain ⟨hlt, rfl⟩ := List.getElem?_eq_some_iff.mp h
  have hpos (hf : f l[i]) : 0 < l.countP f := countP_pos_iff.mpr ⟨_, getElem_mem hlt, hf⟩
  rw [countP_set hlt]
  cases hf : f l[i] with
  | true =>
    have := hpos hf
    cases f b <;> simp <;> omega
  | false => cases f b <;> simp

end

theorem countP_eq_zero_iff :
    s.sets.countP id + s.threads.countP TransPhase.hasStatement = 0 ↔
      (∀ i, ¬ s.IsOpen i) ∧ ∀ ph ∈ s.threads, ph.hasStatement = false := by
  have hsets : s.sets.countP id = 0 ↔ ∀ i, ¬ s.IsOpen i := by
    rw [countP_eq_zero]
    constructor
    · exact fun h i hi => h true (mem_of_getElem? hi) rfl
    · intro h b hb hopen
      obtain ⟨i, hi⟩ := getElem?_of_mem hb
      obtain rfl : b := hopen
      exact h i hi
  rw [Nat.add_eq_zero_iff, hsets, countP_eq_zero]
  simp only [Bool.not_eq_true]

theorem Inv.useCount_eq_zero_iff (h : s.Inv) :
    s.useCount = 0 ↔ s.connection = false ∧ (∀ i, ¬ s.IsOpen i) ∧
      ∀ ph ∈ s.threads, ph.hasStatement = false := by
  rw [h.counted, Nat.add_assoc, Nat.add_eq_zero_iff, countP_eq_zero_iff, Bool.toNat_eq_zero]

theorem Inv.setPhase (h : s.Inv) (hp : s.threads[p]? = some old) {useCount : Nat}
    (hcount : useCount + old.hasStatement.toNat = s.useCount + ph.hasStatement.toNat)
    (hold : ∀ i, old ≠ .queryCreated i) : ({ s with useCount }.setPhase p ph).Inv where
  store := h.store
  ended := h.ended
  counted := by
    have hthreads := countP_set_add (b := ph) TransPhase.hasStatement hp
    have huses := h.counted
    simp only [Counted, SharedTrans.setPhase] at huses ⊢
    omega
  listed i hi := (h.listed i hi).imp_right fun hmem => mem_set_of_getElem?_ne hmem fun heq =>
    hold i (Option.some.inj (hp.symm.trans heq))
  closed := h.closed

/-! Result sets that are closed. -/

structure ClosesSets (s s' : SharedTrans) (l : List Nat) : Prop where
  store : s'.store = s.store
  connection : s'.connection = s.connection
  ended : s'.ended = s.ended
  resultSets : s'.resultSets = s.resultSets
  threads : s'.threads = s.threads
  isOpen : ∀ i, s'.IsOpen i ↔ s.IsOpen i ∧ i ∉ l
  counted : s.Counted → s'.Counted

theorem closesSets_closeSet : ClosesSets s (s.closeSet i) [i] := by
  unfold closeSet
  split
  next hi =>
    refine ⟨rfl, rfl, rfl, rfl, rfl, fun j => ?_, fun h => ?_⟩
    · by_cases hij : i = j
      · subst hij
        simp [IsOpen, getElem?_set_self (List.getElem?_eq_some_iff.mp hi).1]
      · simp [IsOpen, getElem?_set_ne hij, Ne.symm hij]
    · have hsets := countP_set_add (b := false) id hi
      simp only [Counted, id, Bool.toNat_true, Bool.toNat_false] at h hsets ⊢
      omega
  next hi =>
    refine ⟨rfl, rfl, rfl, rfl, rfl, fun j => ?_, id⟩
    exact ⟨fun hj => ⟨hj, fun hmem => hi (mem_singleton.mp hmem ▸ hj)⟩, And.left⟩

theorem closesSets_foldl (l : List Nat) : ClosesSets s (l.foldl closeSet s) l := by
  induction l generalizing s with
  | nil => exact ⟨rfl, rfl, rfl, rfl, rfl, fun i => by simp, id⟩
  | cons i l ih =>
    have hone : ClosesSets s (s.closeSet i) [i] := closesSets_closeSet
    have hrest : ClosesSets (s.closeSet i) (l.foldl closeSet (s.closeSet i)) l := ih
    refine ⟨hrest.store.trans hone.store, hrest.connection.trans hone.connection,
      hrest.ended.trans hone.ended, hrest.resultSets.trans hone.resultSets,
      hrest.threads.trans hone.threads, fun j => ?_, fun h => hrest.counted (hone.counted h)⟩
    rw [foldl_cons, hrest.isOpen, hone.isOpen, mem_singleton, mem_cons, not_or, and_assoc]

theorem Inv.closeSet (h : s.Inv) : (s.closeSet i).Inv := by
  have hclose : ClosesSets s (s.closeSet i) [i] := closesSets_closeSet
  refine ⟨?_, ?_, hclose.counted h.counted, fun j hj => ?_, fun hconn j hj => ?_⟩
  · rw [hclose.store, hclose.connection, h.store]
  · rw [hclose.ended, hclose.connection, h.ended]
  · rw [hclose.resultSets, hclose.threads]
    exact h.listed j ((hclose.isOpen j).mp hj).1
  · exact h.closed (hclose.connection.symm.trans hconn) j ((hclose.isOpen j).mp hj).1

theorem Inv.closeInner (h : s.Inv) (hguard : ∀ ph ∈ s.threads, s.holdsUnlisted ph = false) :
    s.closeInner.Inv := by
  have hclose := closesSets_foldl s.resultSets (s := { s with
    store := false, connection := false, useCount := s.useCount - s.connection.toNat
    ended := true })
  have hclosed (i : Nat) : ¬ s.closeInner.IsOpen i := by
    intro hi
    obtain ⟨hopen, hmem⟩ := (hclose.isOpen i).mp hi
    have hthread : .queryCreated i ∈ s.threads := (h.listed i hopen).resolve_left hmem
    exact of_decide_eq_false (hguard _ hthread) hopen
  have huses := h.counted
  refine ⟨hclose.store.trans hclose.connection.symm, ?_, hclose.counted ?_,
    fun i hi => absurd hi (hclosed i), fun _ => hclosed⟩
  · exact hclose.ended.trans (by rw [SharedTrans.closeInner, hclose.connection]; rfl)
  · simp only [Counted, Bool.toNat_false] at huses ⊢
    omega

theorem Inv.endTrans (h : s.Inv) (hguard : ∀ ph ∈ s.threads, s.holdsUnlisted ph = false) :
    s.endTrans.Inv := by
  unfold SharedTrans.endTrans
  split
  · exact h.closeInner hguard
  next hconn =>
    have hconn : s.connection = false := eq_false_of_ne_true hconn
    exact ⟨h.store, by rw [hconn]; rfl, h.counted, h.listed, h.closed⟩

/-! Threads that go on. -/

section
variable (h : s.Inv)
include h

theorem Inv.getStore (hph : ph.hasStatement = false) : (s.getStore p ph).Inv := by
  unfold SharedTrans.getStore
  split
  next hp => exact h.setPhase hp.1 (by rw [hph]; rfl) nofun
  · exact h

theorem Inv.queryFetched (hp : s.threads[p]? = some .queryFetched)
    (hguard : s.ended → ∀ ph ∈ s.threads, ph.hasStatement = false) :
    ({ s with
      sets := s.sets ++ [s.isConnAlive]
      useCount := s.useCount + s.isConnAlive.toNat }.setPhase p
        (.queryCreated s.sets.length)).Inv := by
  have hopen (i : Nat) : (s.sets ++ [s.isConnAlive])[i]? = some true →
      s.IsOpen i ∨ i = s.sets.length ∧ s.isConnAlive := by
    intro hi
    rw [getElem?_append] at hi
    split at hi
    · exact .inl hi
    · have hmem := mem_of_getElem? hi
      have hlt := (List.getElem?_eq_some_iff.mp hi).1
      rw [length_singleton] at hlt
      exact .inr ⟨by omega, (mem_singleton.mp hmem).symm⟩
  refine ⟨h.store, h.ended, ?_, fun i hi => ?_, fun (hconn : s.connection = false) i hi => ?_⟩
  · have hthreads := countP_set_add (b := .queryCreated s.sets.length) TransPhase.hasStatement hp
    have huses := h.counted
    have hset : [s.isConnAlive].countP id = s.isConnAlive.toNat := by
      cases s.isConnAlive <;> rfl
    simp only [Counted, SharedTrans.setPhase, countP_append, hset, TransPhase.hasStatement,
      Bool.toNat_false] at huses hthreads ⊢
    omega
  · rcases hopen i hi with hi | ⟨rfl, -⟩
    · refine (h.listed i hi).imp_right fun hmem => mem_set_of_getElem?_ne hmem ?_
      simp [hp]
    · have hlt := (List.getElem?_eq_some_iff.mp hp).1
      exact .inr (mem_set hlt _)
  · rcases hopen i hi with hi | ⟨-, halive⟩
    · exact h.closed hconn i hi
    · have hended : s.ended := by rw [h.ended, hconn]; rfl
      have hdead : s.useCount = 0 :=
        h.useCount_eq_zero_iff.mpr ⟨hconn, h.closed hconn, hguard hended⟩
      simp [isConnAlive, hdead] at halive

theorem Inv.queryCreated (hp : s.threads[p]? = some (.queryCreated i)) :
    ((s.addResultSet i).setPhase p (.queryAdded i)).Inv where
  store := h.store
  ended := h.ended
  counted := by
    have hthreads := countP_set_add (b := .queryAdded i) TransPhase.hasStatement hp
    have huses := h.counted
    simp only [Counted, SharedTrans.setPhase, addResultSet, TransPhase.hasStatement] at *
    omega
  listed j hj := by
    by_cases hij : j = i
    · exact .inl (mem_append_right _ (mem_singleton.mpr hij))
    · refine (h.listed j hj).imp (mem_append_left _) fun hmem =>
        mem_set_of_getElem?_ne hmem ?_
      intro heq
      cases hp.symm.trans heq
      exact hij rfl
  closed := h.closed

theorem Inv.queryAdded : { s with returned := s.returned ++ [i] }.Inv :=
  ⟨h.store, h.ended, h.counted, h.listed, h.closed⟩

theorem Inv.useCount_pos (hp : s.threads[p]? = some old)
    (hold : old.hasStatement) : s.useCount - 1 + 1 = s.useCount := by
  refine Nat.sub_add_cancel (Nat.pos_of_ne_zero fun hzero => ?_)
  have hnone := (h.useCount_eq_zero_iff.mp hzero).2.2 old (mem_of_getElem? hp)
  exact nomatch hold.symm.trans hnone

theorem Inv.next (hguard : s.ClosesListed (.next p again)) : (s.advance p again).Inv := by
  unfold SharedTrans.advance
  split
  next => exact h
  next => exact h
  next hp => exact h.queryFetched hp fun hended => hguard hended hp
  next hp => exact h.queryCreated hp
  next i hp => exact h.queryAdded.setPhase hp rfl nofun
  next hp =>
    split
    · exact h.setPhase hp rfl nofun
    · exact h.setPhase hp rfl nofun
  next hp => exact h.setPhase hp (by cases again <;> exact h.useCount_pos hp rfl) nofun
  next hp => exact h.setPhase hp (h.useCount_pos hp rfl) nofun

theorem Inv.stepResultSet : (s.step (.stepResultSet p i)).2.Inv := by
  simp only [step]
  split
  next hp => exact h.setPhase hp.1 rfl nofun
  · exact h

theorem inv_step (c : SharedTransStep) (hguard : s.ClosesListed c) :
    (s.step c).2.Inv := by
  cases c with
  | queryByStep p => exact h.getStore rfl
  | dataOperation p => exact h.getStore rfl
  | next p again => exact h.next hguard
  | commit => exact h.endTrans hguard
  | rollback => exact h.endTrans hguard
  | close => exact h.closeInner hguard
  | stepResultSet p i => exact h.stepResultSet
  | closeResultSet i => exact h.closeSet

theorem closes_of_inv (h' : (s.step c).2.Inv) : Closes (transition step s c) where
  returned hended i _ := by
    have hconn : (s.step c).2.connection = false := by simpa using h'.ended.symm.trans hended
    exact h'.closed hconn i
  refused hended p hcall := by
    have hstore : s.store = false := by
      simpa [h.store] using h.ended.symm.trans hended
    have hsame (ph : TransPhase) : s.getStore p ph = s := by simp [getStore, hstore]
    have hc : c = .queryByStep p ∨ c = .dataOperation p := hcall
    rcases hc with rfl | rfl
    · exact hsame .queryFetched
    · exact hsame .dataFetched
  released := h'.useCount_eq_zero_iff

end

end SharedTrans

theorem closes_of_closesListed (n : Nat) (steps : List SharedTransStep)
    (h : ∀ t ∈ trace SharedTrans.step (.initial n) steps, t.pre.ClosesListed t.call) :
    ∀ t ∈ trace SharedTrans.step (.initial n) steps, SharedTrans.Closes t :=
  trace_forall (G := fun s (c : SharedTransStep) => SharedTrans.ClosesListed s c)
    (fun _ c hinv hc =>
      have hnext := SharedTrans.inv_step hinv c hc
      ⟨hnext, SharedTrans.closes_of_inv hinv hnext⟩)
    (SharedTrans.inv_initial n) h

theorem closes_of_closesListed_late :
    let run := [SharedTransStep.queryByStep 0, .dataOperation 1, .next 0 true, .next 1 true,
      .next 0 true, .next 0 true, .queryByStep 2, .stepResultSet 0 0, .next 1 false, .commit,
      .next 0 true, .next 2 true, .next 2 true, .next 2 true, .queryByStep 0]
    (∀ t ∈ trace SharedTrans.step (.initial 3) run, t.pre.ClosesListed t.call) ∧
      (∀ t ∈ trace SharedTrans.step (.initial 3) run, SharedTrans.Closes t) ∧
      final SharedTrans.step (.initial 3) run = ⟨false, false, 0, [0, 1], [false, false],
        List.replicate 3 .idle, [0, 1], true⟩ :=
  ⟨by decide, closes_of_closesListed 3 _ (by decide), by decide⟩

theorem returned_open_after_close :
    final SharedTrans.step (.initial 1)
        [.queryByStep 0, .next 0 true, .close, .next 0 true, .next 0 true] =
      ⟨false, false, 1, [0], [true], [.idle], [0], true⟩ ∧
    final SharedTrans.step (.initial 2) [.queryByStep 0, .dataOperation 1, .next 1 true, .commit,
        .next 0 true, .next 0 true, .next 0 true, .next 1 false] =
      ⟨false, false, 1, [0], [true], [.idle, .idle], [0], true⟩ := by
  decide

end RelationalStore
