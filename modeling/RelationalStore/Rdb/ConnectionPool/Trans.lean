import RelationalStore.Rdb.ConnectionPool.Consistency
import RelationalStore.Rdb.TransactionImpl

/-! # Counting the transaction connections

`CreateTransConn` tests the count before it takes a node, which may wait, and counts it afterwards.
-/

namespace RelationalStore.ConnPool

open List

structure TransUse where
  trans : Lending
  transEnable : Bool
  transCount : Int
  checked : Nat
  taken : List ConnNode
  counted : List ConnNode
  uncounted : Nat
  disabling : Nat
  failed : Nat
  disabled : Bool

inductive TransStep where
  | check
  | acquire (first : Bool) (opened : Except RdbError Unit)
  | giveUp
  | count (node : ConnNode)
  | releaseNode (node : ConnNode) (recyclable : Bool)
  | uncount
  | disableTrans
  | acquireAll (free : Bool)
  | wake (g : Gathering) (free : Bool)
  | timeout (g : Gathering) (free : Bool)
  | reenable
  | enableTrans
  | clearUnusedTrans (unused : ConnNode → Bool)

namespace TransUse

def initial : TransUse :=
  { trans := ⟨(Container.fresh MIN_TRANS_ID).initMembers true MAX_TRANS false, [], []⟩
    transEnable := true, transCount := 0, checked := 0, taken := [], counted := []
    uncounted := 0, disabling := 0, failed := 0, disabled := false }

def concludeAll (s : TransUse) (trans : Lending) : GatherResult → TransUse
  | .waiting _ => { s with trans }
  | .failed => { s with trans, failed := s.failed + 1 }
  | .acquired nodes =>
    { s with
      trans, counted := nodes ++ s.counted, transCount := s.transCount + nodes.length
      disabled := true }

def step (before : ConnNode → ConnNode → Bool) (s : TransUse) :
    TransStep → Option ConnNode × TransUse
  | .check =>
    (none, if s.transEnable ∧ s.transCount < MAX_TRANS then { s with checked := s.checked + 1 }
      else s)
  | .acquire first opened =>
    if s.checked = 0 then (none, s)
    else
      let trans := (s.trans.step before (.acquire first opened)).2
      match (s.trans.box.acquire first opened).1 with
      | .ok (some n) => (some n, { s with trans, checked := s.checked - 1, taken := n :: s.taken })
      | _ => (none, { s with trans })
  | .giveUp => (none, { s with checked := s.checked - 1 })
  | .count n =>
    (none, if n ∈ s.taken then
        { s with
          taken := s.taken.erase n, counted := n :: s.counted, transCount := s.transCount + 1 }
      else s)
  | .releaseNode n recyclable =>
    (none, if n ∈ s.counted then
        { s with
          trans := (s.trans.step before (.releaseTrans n recyclable)).2
          counted := s.counted.erase n, uncounted := s.uncounted + 1 }
      else s)
  | .uncount =>
    (none, if s.uncounted = 0 then s
      else { s with uncounted := s.uncounted - 1, transCount := s.transCount - 1 })
  | .disableTrans => (none, { s with transEnable := false, disabling := s.disabling + 1 })
  | .acquireAll free =>
    (none, if s.disabling = 0 then s
      else
        { s with disabling := s.disabling - 1 }.concludeAll
          (s.trans.step before (.acquireAll free)).2 (s.trans.box.acquireAll before free).1)
  | .wake g free =>
    (none, if g ∈ s.trans.gathering then
        s.concludeAll (s.trans.step before (.wake g free)).2 (s.trans.box.wake before g free).1
      else s)
  | .timeout g free =>
    (none, if g ∈ s.trans.gathering then
        s.concludeAll (s.trans.step before (.timeout g free)).2
          (s.trans.box.timeout before g free).1
      else s)
  | .reenable =>
    (none, if s.failed = 0 then s else { s with transEnable := true, failed := s.failed - 1 })
  | .enableTrans => (none, { s with transEnable := true, disabled := false })
  | .clearUnusedTrans unused =>
    (none, { s with trans := (s.trans.step before (.clearUnusedTrans unused)).2 })

def pending (s : TransUse) : Nat := s.disabling + s.trans.gathering.length + s.failed

end TransUse

/-- At most `MAX_TRANS` connections are lent, and none is handed out while the backup has
transactions disabled. -/
def TransLimited (t : Transition TransUse TransStep (Option ConnNode)) : Prop :=
  t.post.trans.lent.length ≤ MAX_TRANS ∧ (t.pre.disabled → t.ret = none)

/-- A `CreateTransConn` passes its test only with room for all that have passed it and have no node
yet. Transactions are disabled only when no such call is left, and neither disabled nor enabled
while that is under way. -/
def TransStep.Undisturbed (s : TransUse) : TransStep → Prop
  | .check =>
    s.transEnable → s.transCount < MAX_TRANS → s.trans.lent.length + s.checked < MAX_TRANS
  | .disableTrans => s.checked = 0 ∧ s.pending = 0 ∧ s.disabled = false
  | .enableTrans => s.pending = 0
  | _ => True

instance (s : TransUse) (c : TransStep) : Decidable (c.Undisturbed s) :=
  match c with
  | .check => inferInstanceAs (Decidable (_ → _ → _ < _))
  | .disableTrans => inferInstanceAs (Decidable (_ ∧ _ ∧ _))
  | .enableTrans => inferInstanceAs (Decidable (_ = _))
  | .acquire .. | .giveUp | .count _ | .releaseNode .. | .uncount | .acquireAll _ | .wake ..
  | .timeout .. | .reenable | .clearUnusedTrans _ => .isTrue trivial

/-! ## What the operations of the container keep -/

namespace Container
variable {c c' : Container} {before : ConnNode → ConnNode → Bool} {g g' : Gathering} {free : Bool}

theorem acquire_frame (first : Bool) (opened : Except RdbError Unit) :
    (c.acquire first opened).2.epoch = c.epoch ∧
      ((c.acquire first opened).2.total = c.total ∨
        ¬ 0 < c.count ∧ (c.acquire first opened).2.total = c.total + 1) := by
  have htake : ∀ d : Container, (acquire.take d).2.epoch = d.epoch ∧
      (acquire.take d).2.total = d.total := by
    intro d
    unfold acquire.take
    split <;> exact ⟨rfl, rfl⟩
  unfold acquire
  split
  · exact ⟨rfl, .inl rfl⟩
  split
  · exact ⟨(htake c).1, .inl (htake c).2⟩
  rename_i hcount
  split
  · exact ⟨rfl, .inl rfl⟩
  split
  next hex =>
    obtain ⟨_, _, rfl⟩ := extendNode_ok hex
    exact ⟨(htake _).1, .inr ⟨hcount, (htake _).2⟩⟩
  next hex =>
    obtain ⟨rfl, _⟩ := extendNode_error hex
    exact ⟨rfl, .inl rfl⟩

structure Pauses (c : Container) (r : GatherResult × Container) : Prop where
  total : r.2.total = c.total
  epoch : r.2.epoch = c.epoch
  checking : ∀ g, r.1 = .waiting g → g.checking → g.count = r.2.total

theorem checkAll_pauses : Pauses c (c.checkAll g free) := by
  unfold checkAll
  split
  · exact ⟨rfl, rfl, fun _ h => nomatch h⟩
  next heq =>
    split
    · exact ⟨rfl, rfl, fun _ h => nomatch h⟩
    · refine ⟨rfl, rfl, ?_⟩
      rintro g' ⟨⟩ _
      exact not_not.mp heq

theorem gatherLoop_pauses (hg : g.checking = false) : Pauses c (c.gatherLoop before g free) := by
  simp only [gatherLoop]
  split
  · refine ⟨rfl, rfl, ?_⟩
    rintro g' ⟨⟩ hc
    exact absurd (hg.symm.trans hc) Bool.false_ne_true
  · exact ⟨checkAll_pauses.total, checkAll_pauses.epoch, checkAll_pauses.checking⟩

theorem acquireAll_pauses : Pauses c (c.acquireAll before free) := by
  simp only [acquireAll]
  split
  · split
    · exact gatherLoop_pauses rfl
    · refine ⟨rfl, rfl, ?_⟩
      rintro g' ⟨⟩ hc
      cases hc
  · exact checkAll_pauses

theorem wake_pauses (hg : g.checking → g.count = c.total) :
    Pauses c (c.wake before g free) := by
  unfold wake
  split
  · refine ⟨rfl, rfl, fun g' h hc => ?_⟩
    cases free with
    | true => cases h
    | false =>
      cases h
      exact hg hc
  next hc =>
    split
    · exact gatherLoop_pauses (Bool.not_eq_true _ ▸ hc)
    · refine ⟨rfl, rfl, ?_⟩
      rintro g' ⟨⟩ hc'
      exact absurd hc' hc

theorem timeout_pauses : Pauses c (c.timeout before g free) := by
  unfold timeout
  split
  · exact ⟨rfl, rfl, fun _ h => nomatch h⟩
  next hc =>
    split
    · exact gatherLoop_pauses (Bool.not_eq_true _ ▸ hc)
    · exact checkAll_pauses

end Container

namespace TransUse
variable {s : TransUse} {before : ConnNode → ConnNode → Bool}

structure Inv (s : TransUse) : Prop where
  trans : s.trans.Inv MIN_TRANS_ID
  epoch : s.trans.box.epoch = 0
  lent : s.trans.lent.Perm (s.taken ++ s.counted)
  count : s.transCount = s.counted.length + s.uncounted
  room : s.trans.lent.length + s.checked ≤ MAX_TRANS
  total : s.trans.box.total ≤ MAX_TRANS
  single : s.pending + s.disabled.toNat ≤ 1
  quiet : s.pending + s.disabled.toNat = 1 → s.transEnable = false ∧ s.checked = 0
  checking : ∀ g ∈ s.trans.gathering, g.checking → g.count = s.trans.box.total

theorem inv_initial : initial.Inv where
  trans := (Lending.inv_initial MIN_TRANS_ID).initMembers true MAX_TRANS false
  epoch := rfl
  lent := .rfl
  count := rfl
  room := Nat.zero_le _
  total := by decide
  single := Nat.zero_le _
  quiet := fun h => nomatch h
  checking := fun _ h => nomatch h

section
variable {l : Lending} (hinv : l.Inv MIN_TRANS_ID) (hepoch : l.box.epoch = 0)
include hinv hepoch

theorem epoch_eq (hn : n ∈ l.box.nodes ++ l.out) : n.epoch = l.box.epoch := by
  have := hinv.roster.epoch_le n hn
  rw [hepoch] at this ⊢
  exact Nat.le_zero.mp this

theorem total_eq :
    l.box.total = l.box.nodes.length + (l.gathering.flatMap (·.nodes)).length + l.lent.length := by
  have htotal := hinv.consistent.total_eq
  have hall : l.out.countP (fun n => n.epoch = l.box.epoch) = l.out.length :=
    countP_eq_length.mpr fun n hn => by
      simpa using epoch_eq hinv hepoch (mem_append_right _ hn)
  rw [hall, Lending.out, length_append] at htotal
  omega

theorem lent_le (htotal : l.box.total ≤ MAX_TRANS) : l.lent.length ≤ MAX_TRANS := by
  have := total_eq hinv hepoch
  omega

end

theorem Inv.all_in_hand (h : s.Inv) (hg : g ∈ s.trans.gathering) (hc : g.checking) :
    s.trans.box.nodes = [] ∧ s.trans.lent = [] := by
  have htotal := total_eq h.trans h.epoch
  have hcount := h.checking g hg hc
  have hlen := h.trans.gathered g hg
  have hsplit := ((perm_cons_erase hg).flatMap_right (·.nodes)).length_eq
  rw [flatMap_cons, length_append] at hsplit
  constructor <;> refine length_eq_zero_iff.mp ?_ <;> omega

theorem Inv.setTrans (h : s.Inv) {trans : Lending} (hinv : trans.Inv MIN_TRANS_ID)
    (hepoch : trans.box.epoch = s.trans.box.epoch) (hlent : trans.lent = s.trans.lent)
    (htotal : trans.box.total ≤ MAX_TRANS) (hgathering : trans.gathering = s.trans.gathering)
    (hchecking : ∀ g ∈ s.trans.gathering, g.checking → g.count = trans.box.total) :
    { s with trans }.Inv where
  trans := hinv
  epoch := hepoch.trans h.epoch
  lent := hlent ▸ h.lent
  count := h.count
  room := hlent ▸ h.room
  total := htotal
  single := by
    simp only [pending, hgathering]
    exact h.single
  quiet := by
    simp only [pending, hgathering]
    exact h.quiet
  checking := hgathering ▸ hchecking

theorem Inv.idle_of_checked (h : s.Inv) (hchecked : s.checked ≠ 0) :
    s.pending + s.disabled.toNat = 0 ∧ s.trans.gathering = [] ∧ s.disabled = false := by
  have hidle : s.pending + s.disabled.toNat = 0 := by
    have := h.single
    have := fun hp => (h.quiet hp).2
    omega
  refine ⟨hidle, length_eq_zero_iff.mp (by simp only [pending] at hidle; omega), ?_⟩
  cases hd : s.disabled with
  | false => rfl
  | true => simp [hd] at hidle

theorem Inv.total_acquire_le (h : s.Inv) (hchecked : s.checked ≠ 0) (first : Bool)
    (opened : Except RdbError Unit) :
    (s.trans.box.acquire first opened).2.total ≤ MAX_TRANS := by
  obtain ⟨_, hgathering, _⟩ := h.idle_of_checked hchecked
  have hold := h.total
  have hroom := h.room
  rcases (s.trans.box.acquire_frame first opened).2 with htotal | ⟨hzero, htotal⟩
  · omega
  · have hall := total_eq h.trans h.epoch
    simp only [hgathering, h.trans.nodes_eq_nil hzero, flatMap_nil, length_nil] at hall
    omega

theorem Inv.acquire (h : s.Inv) (first : Bool) (opened : Except RdbError Unit) :
    (step before s (.acquire first opened)).2.Inv ∧
      (s.disabled → (step before s (.acquire first opened)).1 = none) := by
  by_cases hchecked : s.checked = 0
  · simp only [step, if_pos hchecked]
    exact ⟨h, fun _ => trivial⟩
  obtain ⟨hidle, hgathering, hdisabled⟩ := h.idle_of_checked hchecked
  have hroom := h.room
  have hinv := h.trans.acquire before first opened
  have hepoch := (s.trans.box.acquire_frame first opened).1
  have hle := h.total_acquire_le hchecked first opened
  simp only [step, if_neg hchecked]
  cases hres : s.trans.box.acquire first opened with
  | mk result box =>
    rw [hres] at hepoch hle
    have hnone : ∀ g ∈ s.trans.gathering, g.checking → g.count = box.total := by
      rw [hgathering]
      exact fun _ hg => absurd hg not_mem_nil
    simp only [Lending.step, hres] at hinv ⊢
    rcases result with e | _ | n
    · exact ⟨h.setTrans hinv hepoch rfl hle rfl hnone, fun _ => rfl⟩
    · exact ⟨h.setTrans hinv hepoch rfl hle rfl hnone, fun _ => rfl⟩
    · refine ⟨⟨hinv, hepoch.trans h.epoch, h.lent.cons n, h.count, ?_, hle, h.single,
        fun hp => ?_, hnone⟩, fun hd => absurd (hdisabled.symm.trans hd) Bool.false_ne_true⟩
      · change s.trans.lent.length + 1 + (s.checked - 1) ≤ MAX_TRANS
        omega
      · have hp' : s.pending + s.disabled.toNat = 1 := hp
        omega

theorem Inv.count_step (h : s.Inv) (n : ConnNode) : (step before s (.count n)).2.Inv := by
  simp only [step]
  split
  next hn =>
    have hcount := h.count
    refine ⟨h.trans, h.epoch, ?_, ?_, h.room, h.total, h.single, h.quiet, h.checking⟩
    · refine h.lent.trans (perm_iff_count.mpr fun a => ?_)
      have := (perm_cons_erase hn).count_eq a
      simp only [count_append, count_cons] at this ⊢
      omega
    · simp only [length_cons]
      omega
  · exact h

theorem Inv.releaseNode (h : s.Inv) (n : ConnNode) (recyclable : Bool) :
    (step before s (.releaseNode n recyclable)).2.Inv := by
  simp only [step]
  split
  next hn =>
    have hlent : n ∈ s.trans.lent := h.lent.mem_iff.mpr (mem_append_right _ hn)
    have hepoch := epoch_eq h.trans h.epoch (mem_append_right _ (mem_append_right _ hlent))
    have hinv := h.trans.releaseTrans (.inr hepoch) recyclable
    have hlen := length_erase_of_mem hn
    have hpos := length_pos_of_mem hn
    have hcount := h.count
    have hback : s.trans.giveBack n (s.trans.box.releaseTrans n recyclable) =
        { s.trans with
          box := s.trans.box.releaseTrans n recyclable, lent := s.trans.lent.erase n } :=
        if_pos hlent
    have hframe : (s.trans.box.releaseTrans n recyclable).epoch = s.trans.box.epoch ∧
        (s.trans.box.releaseTrans n recyclable).total ≤ s.trans.box.total := by
      unfold Container.releaseTrans
      split
      · exact ⟨rfl, Int.le_refl _⟩
      · split
        · exact ⟨rfl, Int.le_refl _⟩
        · exact ⟨rfl, Int.sub_le_self _ Int.one_nonneg⟩
    simp only [Lending.step]
    rw [hback] at hinv ⊢
    refine ⟨hinv, hframe.1.trans h.epoch, ?_, ?_, ?_, Int.le_trans hframe.2 h.total, h.single,
      h.quiet, fun g hg hc => ?_⟩
    · refine perm_iff_count.mpr fun a => ?_
      have h₁ := (perm_cons_erase hlent).count_eq a
      have h₂ := (perm_cons_erase hn).count_eq a
      have h₃ := h.lent.count_eq a
      simp only [count_append, count_cons] at h₁ h₂ h₃ ⊢
      omega
    · simp only
      omega
    · exact Nat.le_trans (Nat.add_le_add_right (length_erase_le) _) h.room
    · -- the second loop has all nodes, so that none is lent
      exact absurd (h.all_in_hand hg hc).2 (ne_nil_of_mem hlent)
  · exact h

theorem concludeAll_inv (hp : s.trans.box.Pauses r)
    (hinv : (Lending.gathered ⟨s.trans.box, s.trans.lent, []⟩ r).Inv MIN_TRANS_ID)
    (hepoch : s.trans.box.epoch = 0) (hlent : s.trans.lent.Perm (s.taken ++ s.counted))
    (hcount : s.transCount = s.counted.length + s.uncounted)
    (htotal : s.trans.box.total ≤ MAX_TRANS) (hquiet : s.transEnable = false ∧ s.checked = 0)
    (halone : s.disabling = 0 ∧ s.failed = 0 ∧ s.disabled = false) :
    (s.concludeAll (Lending.gathered ⟨s.trans.box, s.trans.lent, []⟩ r) r.1).Inv := by
  obtain ⟨result, box⟩ := r
  obtain ⟨hdisabling, hfailed, hdisabled⟩ := halone
  have hepoch' : box.epoch = 0 := hp.epoch.trans hepoch
  have htotal' : box.total ≤ MAX_TRANS := by
    rw [show box.total = s.trans.box.total from hp.total]
    exact htotal
  cases result with
  | waiting g =>
    refine ⟨hinv, hepoch', hlent, hcount, ?_, htotal', ?_, fun _ => hquiet, ?_⟩
    · have := lent_le hinv hepoch' htotal'
      simpa [concludeAll, hquiet.2] using this
    · simp [pending, concludeAll, Lending.gathered, hdisabling, hfailed, hdisabled]
    · intro g' hg' hc
      obtain rfl := mem_singleton.mp hg'
      exact hp.checking g' rfl hc
  | failed =>
    refine ⟨hinv, hepoch', hlent, hcount, ?_, htotal', ?_, fun _ => hquiet,
      fun _ hg => absurd hg not_mem_nil⟩
    · have := lent_le hinv hepoch' htotal'
      simpa [concludeAll, hquiet.2] using this
    · simp [pending, concludeAll, Lending.gathered, hdisabling, hfailed, hdisabled]
  | acquired nodes =>
    refine ⟨hinv, hepoch', ?_, ?_, ?_, htotal', ?_, fun _ => hquiet,
      fun _ hg => absurd hg not_mem_nil⟩
    · refine (hlent.append_left nodes).trans ?_
      simpa only [concludeAll, append_assoc] using (perm_append_comm).append_right s.counted
    · simp only [concludeAll, length_append]
      omega
    · have := lent_le hinv hepoch' htotal'
      simpa [concludeAll, hquiet.2] using this
    · simp [pending, concludeAll, Lending.gathered, hdisabling, hfailed]

section
variable (h : s.Inv)
include h

theorem Inv.of_pending (hpos : 0 < s.pending) :
    s.pending = 1 ∧ s.disabled = false ∧ s.transEnable = false ∧ s.checked = 0 := by
  have hsingle := h.single
  have hone : s.pending = 1 := by omega
  refine ⟨hone, ?_, h.quiet (by omega)⟩
  cases hd : s.disabled with
  | false => rfl
  | true =>
    rw [hd, hone] at hsingle
    exact absurd hsingle (by decide)

theorem Inv.acquireAll (free : Bool) : (step before s (.acquireAll free)).2.Inv := by
  simp only [step]
  split
  · exact h
  next hpos =>
    obtain ⟨hone, hdisabled, hquiet⟩ := h.of_pending (by simp only [pending]; omega)
    simp only [pending] at hone
    have hgathering : s.trans.gathering = [] := length_eq_zero_iff.mp (by omega)
    have hinv := h.trans.acquireAll before free
    have hstate : s.trans = ⟨s.trans.box, s.trans.lent, []⟩ := by rw [← hgathering]
    simp only [Lending.step]
    rw [hstate] at hinv ⊢
    exact concludeAll_inv (s := { s with disabling := s.disabling - 1 })
      Container.acquireAll_pauses hinv h.epoch h.lent h.count h.total hquiet
      ⟨by simp only; omega, by simp only; omega, hdisabled⟩

theorem Inv.resumeAll (hg : g ∈ s.trans.gathering) (hp : s.trans.box.Pauses r)
    (hinv : (s.trans.resume g r).Inv MIN_TRANS_ID) :
    (s.concludeAll (s.trans.resume g r) r.1).Inv := by
  have hlen := length_pos_of_mem hg
  obtain ⟨hone, hdisabled, hquiet⟩ := h.of_pending (by simp only [pending]; omega)
  simp only [pending] at hone
  have hrest : s.trans.gathering.erase g = [] :=
    length_eq_zero_iff.mp (by rw [length_erase_of_mem hg]; omega)
  simp only [Lending.resume, if_pos hg, hrest] at hinv ⊢
  exact concludeAll_inv hp hinv h.epoch h.lent h.count h.total hquiet
    ⟨by omega, by omega, hdisabled⟩

theorem Inv.wake (g : Gathering) (free : Bool) :
    (step before s (.wake g free)).2.Inv := by
  simp only [step]
  split
  next hg => exact h.resumeAll hg (Container.wake_pauses (h.checking g hg)) (h.trans.wake g free)
  · exact h

theorem Inv.timeout (g : Gathering) (free : Bool) :
    (step before s (.timeout g free)).2.Inv := by
  simp only [step]
  split
  next hg =>
    exact h.resumeAll hg Container.timeout_pauses
      (h.trans.timeout free fun _ hc => (h.all_in_hand hg hc).1)
  · exact h

theorem Inv.clearUnusedTrans (unused : ConnNode → Bool) :
    (step before s (.clearUnusedTrans unused)).2.Inv := by
  have htotal : (s.trans.step before (.clearUnusedTrans unused)).2.box.total =
      s.trans.box.total - s.trans.box.nodes.countP unused := rfl
  refine h.setTrans (h.trans.clearUnusedTrans unused) rfl rfl ?_ rfl fun g hg hc => ?_
  · have := h.total
    rw [htotal]
    omega
  · rw [htotal, (h.all_in_hand hg hc).1, h.checking g hg hc]
    simp

theorem Inv.check (hguard : TransStep.check.Undisturbed s) :
    (step before s .check).2.Inv := by
  simp only [step]
  split
  next hpass =>
    refine ⟨h.trans, h.epoch, h.lent, h.count, hguard hpass.1 hpass.2, h.total, h.single,
      fun hp => ?_, h.checking⟩
    exact nomatch hpass.1.symm.trans (h.quiet hp).1
  · exact h

theorem Inv.giveUp : (step before s .giveUp).2.Inv := by
  have hroom := h.room
  refine ⟨h.trans, h.epoch, h.lent, h.count, ?_, h.total, h.single, fun hp => ?_, h.checking⟩
  · simp only [step]
    omega
  · obtain ⟨henable, hchecked⟩ := h.quiet hp
    exact ⟨henable, by simp only [step]; omega⟩

theorem Inv.uncount : (step before s .uncount).2.Inv := by
  simp only [step]
  split
  · exact h
  next hpos =>
    have hcount := h.count
    refine ⟨h.trans, h.epoch, h.lent, ?_, h.room, h.total, h.single, h.quiet, h.checking⟩
    simp only
    omega

theorem Inv.disableTrans (hguard : TransStep.disableTrans.Undisturbed s) :
    (step before s .disableTrans).2.Inv := by
  obtain ⟨hchecked, hpending, hdisabled⟩ := hguard
  refine ⟨h.trans, h.epoch, h.lent, h.count, h.room, h.total, ?_, fun _ => ⟨rfl, hchecked⟩,
    h.checking⟩
  simp only [pending] at hpending
  simp only [step, pending, hdisabled, Bool.toNat_false]
  omega

theorem Inv.reenable : (step before s .reenable).2.Inv := by
  simp only [step]
  split
  · exact h
  · obtain ⟨hone, hdisabled, _⟩ := h.of_pending (by simp only [pending]; omega)
    simp only [pending] at hone
    refine ⟨h.trans, h.epoch, h.lent, h.count, h.room, h.total, ?_, fun hp => ?_, h.checking⟩
    · simp only [pending, hdisabled, Bool.toNat_false]
      omega
    · simp only [pending, hdisabled, Bool.toNat_false] at hp
      omega

theorem Inv.enableTrans (hguard : TransStep.enableTrans.Undisturbed s) :
    (step before s .enableTrans).2.Inv := by
  have hpending : s.pending = 0 := hguard
  refine ⟨h.trans, h.epoch, h.lent, h.count, h.room, h.total, ?_, fun hp => ?_, h.checking⟩
  · show s.pending + 0 ≤ 1
    omega
  · exact nomatch hpending.symm.trans hp

theorem Inv.step (hguard : c.Undisturbed s) :
    (step before s c).2.Inv ∧ TransLimited (transition (step before) s c) := by
  have hlimited : (TransUse.step before s c).2.Inv →
      (s.disabled → (TransUse.step before s c).1 = none) →
      (TransUse.step before s c).2.Inv ∧ TransLimited (transition (TransUse.step before) s c) :=
    fun hinv hnone => ⟨hinv, lent_le hinv.trans hinv.epoch hinv.total, hnone⟩
  cases c with
  | check => exact hlimited (h.check hguard) fun _ => rfl
  | acquire first opened => exact hlimited (h.acquire first opened).1 (h.acquire first opened).2
  | giveUp => exact hlimited h.giveUp fun _ => rfl
  | count n => exact hlimited (h.count_step n) fun _ => rfl
  | releaseNode n recyclable => exact hlimited (h.releaseNode n recyclable) fun _ => rfl
  | uncount => exact hlimited h.uncount fun _ => rfl
  | disableTrans => exact hlimited (h.disableTrans hguard) fun _ => rfl
  | acquireAll free => exact hlimited (h.acquireAll free) fun _ => rfl
  | wake g free => exact hlimited (h.wake g free) fun _ => rfl
  | timeout g free => exact hlimited (h.timeout g free) fun _ => rfl
  | reenable => exact hlimited h.reenable fun _ => rfl
  | enableTrans => exact hlimited (h.enableTrans hguard) fun _ => rfl
  | clearUnusedTrans unused => exact hlimited (h.clearUnusedTrans unused) fun _ => rfl

end

theorem transLimited_of_undisturbed (before : ConnNode → ConnNode → Bool)
    (calls : List TransStep)
    (hguard : ∀ t ∈ trace (TransUse.step before) initial calls, t.call.Undisturbed t.pre) :
    ∀ t ∈ trace (TransUse.step before) initial calls, TransLimited t :=
  trace_forall (G := fun s c => c.Undisturbed s) (fun _ _ h hg => h.step hg) inv_initial hguard

theorem transLimited_of_undisturbed_backup :
    let n₀ : ConnNode := ⟨10000, true, 0, 0⟩
    let n₁ : ConnNode := ⟨10001, true, 1, 0⟩
    let run := trace (TransUse.step fun _ _ => false) initial
      [.check, .acquire true (.ok ()), .count n₀, .check, .acquire true (.ok ()), .count n₁,
        .releaseNode n₀ true, .uncount, .disableTrans, .acquireAll true, .check,
        .releaseNode n₁ true, .wake ⟨[n₀], 1, false⟩ true, .uncount, .check, .enableTrans]
    (∀ t ∈ run, t.call.Undisturbed t.pre) ∧ (∀ t ∈ run, TransLimited t) ∧
      run.any (·.pre.disabled) :=
  ⟨by decide, transLimited_of_undisturbed _ _ (by decide), by decide⟩

theorem connections_beyond_limit :
    let opened : Except RdbError Unit := .ok ()
    let five := final (TransUse.step fun _ _ => false) initial
      (List.replicate 5 .check ++ List.replicate 5 (.acquire true opened))
    let backup := final (TransUse.step fun _ _ => false) initial
      [.check, .disableTrans, .acquireAll true]
    five.trans.lent.length = 5 ∧ MAX_TRANS < five.trans.lent.length ∧
      backup.disabled ∧
      (backup.step (fun _ _ => false) (.acquire true opened)).1 = some ⟨10000, true, 0, 0⟩ := by
  decide

end TransUse

end RelationalStore.ConnPool
