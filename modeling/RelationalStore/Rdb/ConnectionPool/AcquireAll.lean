import RelationalStore.Rdb.ConnectionPool.Consistency
import RelationalStore.Rdb.TransactionImpl

/-! # Taking all connections of a pool

It takes the writer, then drains the readers and the transaction connections, and may fail. -/

namespace RelationalStore.ConnPool

open List

structure Wait where
  returned : List (ConnNode × Option Bool)
  free : Bool

def Container.takeBack (c : Container) (n : ConnNode) : Option Bool → Container
  | none => c.release n
  | some recyclable => c.releaseTrans n recyclable

namespace Lending
variable (before : ConnNode → ConnNode → Bool)

def concluded (s : Lending) : GatherResult × Container → Option (List ConnNode) × Lending
  | (.acquired nodes, box) => (some nodes, { s with box, lent := nodes ++ s.lent })
  | (.failed, box) => (none, { s with box })
  -- still waiting when the time is up
  | (.waiting g, box) => (none, { s with box := box.putBack g })

def waitAll (free : Bool) : List (ConnNode × Option Bool) → Lending → Gathering →
    Option (List ConnNode) × Lending
  | [], s, g => s.concluded (s.box.timeout before g free)
  | (n, how) :: returned, s, g =>
    let s' := s.giveBack n (s.box.takeBack n how)
    match s'.box.wake before g free with
    | (.waiting g', box) => waitAll free returned { s' with box } g'
    | (.acquired nodes, box) => s'.concluded (.acquired nodes, box)
    | (.failed, box) => s'.concluded (.failed, box)

def acquireAll (s : Lending) (w : Wait) : Option (List ConnNode) × Lending :=
  match s.box.acquireAll before w.free with
  | (.waiting g, box) => waitAll before w.free w.returned { s with box } g
  | (.acquired nodes, box) => s.concluded (.acquired nodes, box)
  | (.failed, box) => s.concluded (.failed, box)

def acquireContainer (s : Lending) (w : Wait) : Option (List ConnNode) × Lending :=
  match { s with box.disable := true }.acquireAll before w with
  | (none, s') => (none, { s' with box.disable := false })
  | (some nodes, s') => (some nodes, s')

end Lending

structure LendingPool where
  writers : Lending
  readers : Lending
  trans : Lending
  maxReader : Int

structure AcquireAllOutcome where
  writers : Wait
  readers : Wait
  trans : Wait
  lateAfterWriters : Bool
  lateAfterReaders : Bool

namespace LendingPool
variable (before : ConnNode → ConnNode → Bool)

variable (p : LendingPool)

def releaseNode (n : ConnNode) : LendingPool :=
  if n.isWriter then { p with writers := p.writers.giveBack n (p.writers.box.release n) }
  else { p with readers := p.readers.giveBack n (p.readers.box.release n) }

def releaseNodes (nodes : List ConnNode) : LendingPool :=
  nodes.foldl releaseNode p

def forget (nodes : List ConnNode) : LendingPool :=
  { p with writers.lent := p.writers.lent.diff nodes }

def dropTrans (n : ConnNode) : LendingPool :=
  let p := { p with trans.lent := p.trans.lent.erase n }
  if n.isWriter then { p with writers.box := p.writers.box.release n }
  else { p with readers.box := p.readers.box.release n }

def acquireAll (p : LendingPool) (o : AcquireAllOutcome) :
    Option (Option ConnNode × List ConnNode) × LendingPool :=
  match p.writers.acquireAll before o.writers with
  | (none, writers) => (none, { p with writers })
  | (some ws, writers) =>
    let writer := ws.head?
    let p := { p with writers }.forget ws.tail
    if o.lateAfterWriters then (none, p.releaseNodes writer.toList)
    else if p.maxReader = 0 then (some (writer, []), p)
    else
      match p.readers.acquireContainer before o.readers with
      | (none, readers) => (none, { p with readers }.releaseNodes writer.toList)
      | (some rs, readers) =>
        let p := { p with readers }
        if o.lateAfterReaders then (none, (p.releaseNodes rs).releaseNodes writer.toList)
        else
          match p.trans.acquireContainer before o.trans with
          | (none, trans) => (none, ({ p with trans }.releaseNodes rs).releaseNodes writer.toList)
          | (some ts, trans) =>
            -- `trans_` stays drained and disabled, and `total_` still counts its nodes
            (some (writer, rs), ts.foldl dropTrans { p with trans })

end LendingPool

/-! ## The waits of a container -/

namespace Lending
variable {start : Nat} {s : Lending} {before : ConnNode → ConnNode → Bool} {g : Gathering}
  {free : Bool} {n : ConnNode} {how : Option Bool}

/-- The counters of the container agree with its lists, and no `AcquireAll` is waiting. -/
structure Regular (start : Nat) (s : Lending) : Prop where
  inv : s.Inv start
  gathering : s.gathering = []
  created : s.box.created < MAX_RIGHT

structure Concluded (start : Nat) (s : Lending) (idle : List ConnNode)
    (returned : List (ConnNode × Option Bool)) (free : Bool)
    (r : Option (List ConnNode) × Lending) : Prop where
  inv : Inv start r.2
  gathering : r.2.gathering = []
  disable : r.2.box.disable = s.box.disable
  max : r.2.box.max = s.box.max
  created : r.2.box.created = s.box.created
  epoch : r.2.box.epoch = s.box.epoch
  idle_of_failed : r.1 = none → ∀ n ∈ idle, n ∈ r.2.box.nodes
  missing_of_failed : r.1 = none → free →
    ∃ n ∈ s.lent, n.epoch = s.box.epoch ∧ n ∉ returned.map Prod.fst
  of_acquired : ∀ nodes, r.1 = some nodes →
    free ∧ (∀ n ∈ idle, n ∈ nodes) ∧ (∀ n ∈ nodes, n ∈ idle ∨ n ∈ s.lent) ∧
      (∀ n ∈ nodes, n ∈ r.2.lent ∧ n.epoch = s.box.epoch) ∧ nodes.Nodup ∧
      r.2.box.nodes = [] ∧ r.2.box.total = nodes.length ∧
      ∀ n ∈ s.lent, n.epoch = s.box.epoch → n ∈ returned.map Prod.fst

variable {box : Container} {lent : List ConnNode}

theorem Inv.total_eq_add (h : Inv start ⟨box, lent, [g]⟩) (hnil : box.nodes = []) :
    box.total = g.count + (lent.countP fun n => n.epoch = box.epoch : Nat) := by
  have htotal := h.consistent.total_eq
  have hg := h.gathered g mem_cons_self
  have hcur : g.nodes.countP (fun n => n.epoch = box.epoch) = g.nodes.length :=
    countP_eq_length.mpr fun n hn => by
      simpa using h.gathered_current g mem_cons_self n hn
  simp only [hnil, out, flatMap_cons, flatMap_nil, append_nil, countP_append,
    hcur, length_nil] at htotal
  omega

theorem Inv.total_eq_count_iff (h : Inv start ⟨box, lent, [g]⟩) (hnil : box.nodes = []) :
    g.count = box.total ↔ ∀ n ∈ lent, n.epoch ≠ box.epoch := by
  have htotal := h.total_eq_add hnil
  have hzero : g.count = box.total ↔ lent.countP (fun n => n.epoch = box.epoch) = 0 := by omega
  rw [hzero, countP_eq_zero]
  simp only [decide_eq_true_eq, ne_eq]

theorem Inv.nodup_out (h : Inv start s) : s.out.Nodup :=
  (List.Nodup.of_map _ h.roster.serials).sublist (sublist_append_right _ _)

theorem concluded_acquired
    (h : Inv start ⟨box, lent, [g]⟩) (hnil : box.nodes = []) (hcount : g.count = box.total)
    (returned : List (ConnNode × Option Bool)) :
    Concluded start ⟨box, lent, []⟩ g.nodes returned true
      (concluded ⟨box, lent, []⟩ (.acquired g.nodes, box)) where
  inv := by
    refine h.move h.counted (fun _ hg => nomatch hg) h.idle_current (fun _ hg => nomatch hg) rfl ?_
    refine perm_iff_count.mpr fun a => ?_
    simp [out, concluded, count_append]
  gathering := rfl
  disable := rfl
  max := rfl
  created := rfl
  epoch := rfl
  idle_of_failed := fun h => nomatch h
  missing_of_failed := fun h => nomatch h
  of_acquired := by
    rintro nodes ⟨⟩
    have hnodup := h.nodup_out
    simp only [out, flatMap_cons, flatMap_nil, append_nil] at hnodup
    refine ⟨rfl, fun _ hn => hn, fun _ hn => .inl hn, fun n hn => ⟨mem_append_left _ hn,
      h.gathered_current g mem_cons_self n hn⟩, (nodup_append.mp hnodup).1, hnil,
      hcount ▸ h.gathered g mem_cons_self, fun n hn he => ?_⟩
    exact absurd he ((h.total_eq_count_iff hnil).mp hcount n hn)

theorem concluded_failed (h : Inv start ⟨box, lent, [g]⟩) (hnil : box.nodes = [])
    (hcount : free → g.count ≠ box.total) :
    Concluded start ⟨box, lent, []⟩ g.nodes [] free
      (concluded ⟨box, lent, []⟩ (.failed, box.putBack g)) where
  inv := by
    refine h.move (h.gathered g mem_cons_self) (fun _ hg => nomatch hg)
      (h.gathered_current g mem_cons_self) (fun _ hg => nomatch hg) rfl (.of_eq ?_)
    simp [out, concluded, Container.putBack, hnil]
  gathering := rfl
  disable := rfl
  max := rfl
  created := rfl
  epoch := rfl
  idle_of_failed := fun _ _ hn => hn
  missing_of_failed := fun _ hfree => by
    have hlent := mt (h.total_eq_count_iff hnil).mpr (hcount hfree)
    simp only [not_forall, not_not] at hlent
    obtain ⟨n, hn, he⟩ := hlent
    exact ⟨n, hn, he, not_mem_nil⟩
  of_acquired := fun _ h => nomatch h

theorem Inv.takeBack (h : Inv start s) (n : ConnNode) (how : Option Bool)
    (hbound : s.box.created < MAX_RIGHT) :
    Inv start (s.giveBack n (s.box.takeBack n how)) := by
  cases how with
  | none => exact h.release (.inl hbound)
  | some recyclable => exact h.releaseTrans (.inl hbound) recyclable

theorem takeBack_frame (c : Container) (n : ConnNode) (how : Option Bool) :
    (c.takeBack n how).disable = c.disable ∧ (c.takeBack n how).max = c.max ∧
      (c.takeBack n how).created = c.created ∧ (c.takeBack n how).epoch = c.epoch := by
  cases how <;> simp only [Container.takeBack, Container.release, Container.releaseTrans] <;>
    repeat' split
  all_goals exact ⟨rfl, rfl, rfl, rfl⟩

theorem giveBack_eq (box box' : Container) (lent : List ConnNode) (gathering : List Gathering) :
    giveBack ⟨box, lent, gathering⟩ n box' =
      ⟨if n ∈ lent then box' else box, lent.erase n, gathering⟩ := by
  unfold giveBack
  split
  · rfl
  next hn => exact congrArg (Lending.mk box · gathering) (erase_of_not_mem hn).symm

theorem mem_takeBack {c : Container} (h : m ∈ (c.takeBack n how).nodes) : m ∈ c.nodes ∨ m = n := by
  cases how <;> simp only [Container.takeBack, Container.release, Container.releaseTrans] at h
  · split at h
    · exact .inl h
    · split at h
      · exact .inl h
      · exact (mem_cons.mp h).symm
  · split at h
    · exact .inl h
    · split at h
      · exact (mem_append.mp h).imp id mem_singleton.mp
      · exact .inl h

theorem Inv.setChecking
    (h : Inv start ⟨box, lent, [g]⟩) : Inv start ⟨box, lent, [{ g with checking := true }]⟩ := by
  refine ⟨h.counted, ?_, h.idle_current, ?_, h.roster⟩
  · exact forall_mem_singleton.mpr (h.gathered g mem_cons_self)
  · exact forall_mem_singleton.mpr (h.gathered_current g mem_cons_self)

theorem takeBack_of_out {c : Container} (h : n.id < c.left ∨ c.right ≤ n.id) :
    c.takeBack n how = c := by
  cases how <;> exact if_pos h

variable {returned : List (ConnNode × Option Bool)} {idle : List ConnNode}
  {r : Option (List ConnNode) × Lending}

theorem Concluded.cons (h : Concluded start ⟨box, lent.erase n, []⟩ idle' returned free r)
    (hnodup : lent.Nodup) (hdisable : box.disable = box₀.disable) (hmax : box.max = box₀.max)
    (hcreated : box.created = box₀.created) (hepoch : box.epoch = box₀.epoch)
    (hidle : ∀ m ∈ idle, m ∈ idle') (hidle' : ∀ m ∈ idle', m ∈ idle ∨ m ∈ lent) :
    Concluded start ⟨box₀, lent, []⟩ idle ((n, how) :: returned) free r where
  inv := h.inv
  gathering := h.gathering
  disable := h.disable.trans hdisable
  max := h.max.trans hmax
  created := h.created.trans hcreated
  epoch := h.epoch.trans hepoch
  idle_of_failed hr m hm := h.idle_of_failed hr m (hidle m hm)
  missing_of_failed hr hfree := by
    obtain ⟨m, hm, he, hback⟩ := h.missing_of_failed hr hfree
    obtain ⟨hne, hmem⟩ := (List.Nodup.mem_erase_iff hnodup).mp hm
    refine ⟨m, hmem, he.trans hepoch, fun hback' => ?_⟩
    rcases mem_cons.mp hback' with rfl | hback'
    · exact hne rfl
    · exact hback hback'
  of_acquired nodes hr := by
    obtain ⟨hfree, hin, hfrom, hlent, hnd, hnil, htotal, hall⟩ := h.of_acquired nodes hr
    refine ⟨hfree, fun m hm => hin m (hidle m hm), fun m hm => ?_,
      fun m hm => ⟨(hlent m hm).1, (hlent m hm).2.trans hepoch⟩, hnd, hnil, htotal,
      fun m hm he => ?_⟩
    · rcases hfrom m hm with hm | hm
      · exact hidle' m hm
      · exact .inr (mem_of_mem_erase hm)
    · by_cases hmn : m = n
      · exact hmn ▸ mem_cons_self
      · exact mem_cons_of_mem _
          (hall m ((mem_erase_of_ne hmn).mpr hm) (he.trans hepoch.symm))

theorem checkAll_concluded (h : Inv start ⟨box, lent, [g]⟩) (hnil : box.nodes = []) (free : Bool) :
    Concluded start ⟨box, lent, []⟩ g.nodes [] free
      (concluded ⟨box, lent, []⟩ (box.checkAll g free)) := by
  unfold Container.checkAll
  split
  next hne => exact concluded_failed h hnil fun _ => hne
  next heq =>
    cases free with
    | true => exact concluded_acquired h hnil (not_not.mp heq) []
    | false => exact concluded_failed h hnil fun hfree => nomatch hfree

theorem gatherLoop_cases
    (before : ConnNode → ConnNode → Bool) (h : Inv start ⟨box, lent, [g]⟩) (free : Bool) :
    box.gatherLoop before g free = (.waiting (box.gather before g).1, (box.gather before g).2) ∨
    ((box.gather before g).1.count = (box.gather before g).2.total ∧ free ∧
      box.gatherLoop before g free =
        (.acquired (box.gather before g).1.nodes, (box.gather before g).2)) ∨
    ((box.gather before g).1.count = (box.gather before g).2.total ∧ free = false ∧
      box.gatherLoop before g free =
        (.waiting { (box.gather before g).1 with checking := true }, (box.gather before g).2)) := by
  have htotal := (h.gather before).total_eq_add rfl
  by_cases hlt : (box.gather before g).1.count < (box.gather before g).2.total
  · exact .inl (if_pos hlt)
  · have heq : (box.gather before g).1.count = (box.gather before g).2.total := by omega
    have hcheck : box.gatherLoop before g free =
        (box.gather before g).2.checkAll (box.gather before g).1 free := if_neg hlt
    rw [hcheck, Container.checkAll, if_neg (not_not.mpr heq)]
    cases free with
    | true => exact .inr (.inl ⟨heq, rfl, rfl⟩)
    | false => exact .inr (.inr ⟨heq, rfl, rfl⟩)

section
variable {box box' : Container} {lent : List ConnNode}
  (hbox : (if n ∈ lent then box.takeBack n how else box) = box')
include hbox

theorem returned_frame : box'.disable = box.disable ∧ box'.max = box.max ∧
    box'.created = box.created ∧ box'.epoch = box.epoch := by
  rw [← hbox]
  split
  · exact takeBack_frame box n how
  · exact ⟨rfl, rfl, rfl, rfl⟩

theorem returned_eq_of_counted (h : Inv start ⟨box, lent, [g]⟩) (hnil : box.nodes = [])
    (hcount : g.count = box.total) (hbound : box.created < MAX_RIGHT) : box' = box := by
  rw [← hbox]
  split
  next hn =>
    have hstale := (h.total_eq_count_iff hnil).mp hcount n hn
    exact takeBack_of_out (h.roster.stale_out hbound
      (mem_append_right _ (mem_append_right _ hn)) hstale)
  · rfl

theorem mem_returned_gather (hnil : box.nodes = []) {m : ConnNode}
    (hm : m ∈ (box'.gather before g).1.nodes) : m ∈ g.nodes ∨ m ∈ lent := by
  have hperm := Container.mergeNodes_perm before g.nodes box'.nodes
  rcases mem_append.mp (hperm.mem_iff.mp hm) with hm | hm
  · exact .inl hm
  · rw [← hbox] at hm
    split at hm
    next hn =>
      rcases mem_takeBack hm with hm | rfl
      · exact absurd (hnil ▸ hm) not_mem_nil
      · exact .inr hn
    · exact absurd (hnil ▸ hm) not_mem_nil

end

theorem waitAll_concluded (returned : List (ConnNode × Option Bool))
    (h : Inv start ⟨box, lent, [g]⟩) (hnil : box.nodes = [])
    (hcheck : g.checking → free = false ∧ g.count = box.total)
    (hbound : box.created < MAX_RIGHT) :
    Concluded start ⟨box, lent, []⟩ g.nodes returned free
      (waitAll before free returned ⟨box, lent, []⟩ g) := by
  induction returned generalizing box lent g with
  | nil =>
    simp only [waitAll, Container.timeout]
    split
    next hc => exact concluded_failed h hnil fun hfree => nomatch (hcheck hc).1.symm.trans hfree
    · have hcount : ¬ 0 < box.count := by
        rw [h.counted]
        simp [hnil]
      rw [if_neg hcount]
      exact checkAll_concluded h hnil free
  | cons nh returned ih =>
    obtain ⟨n, how⟩ := nh
    have hs := h.takeBack n how hbound
    have hnodup : lent.Nodup := h.nodup_out.sublist (sublist_append_right _ _)
    rw [giveBack_eq] at hs
    simp only [waitAll, giveBack_eq]
    generalize hbox : (if n ∈ lent then box.takeBack n how else box) = box' at hs ⊢
    obtain ⟨hdisable, hmax, hcreated, hepoch⟩ := returned_frame hbox
    have hbound' : box'.created < MAX_RIGHT := hcreated ▸ hbound
    by_cases hc : g.checking
    · obtain ⟨hfree, hcount⟩ := hcheck hc
      have hsame : box' = box := returned_eq_of_counted hbox h hnil hcount hbound
      subst hfree hsame
      simp only [Container.wake, if_pos hc, Bool.false_eq_true, if_false]
      exact (ih hs hnil hcheck hbound).cons hnodup rfl rfl rfl rfl (fun _ hm => hm)
        fun _ hm => .inl hm
    simp only [Container.wake, if_neg hc]
    by_cases hcount : 0 < box'.count
    · -- the node is taken from the idle list
      have hg := hs.gather before
      have hkeep : ∀ m ∈ g.nodes, m ∈ (box'.gather before g).1.nodes := fun m hm =>
        (Container.mergeNodes_perm before g.nodes box'.nodes).mem_iff.mpr
          (mem_append_left _ hm)
      have hfrom : ∀ m ∈ (box'.gather before g).1.nodes, m ∈ g.nodes ∨ m ∈ lent := fun _ hm =>
        mem_returned_gather hbox hnil hm
      simp only [if_pos hcount]
      rcases gatherLoop_cases before hs free with hw | ⟨heq, rfl, hw⟩ | ⟨heq, rfl, hw⟩
      · rw [hw]
        exact (ih hg rfl (fun hc' => absurd hc' hc) hbound').cons hnodup hdisable hmax hcreated
          hepoch hkeep hfrom
      · rw [hw]
        exact (concluded_acquired hg rfl heq returned).cons hnodup hdisable hmax hcreated hepoch
          hkeep hfrom
      · rw [hw]
        exact (ih hg.setChecking rfl (fun _ => ⟨rfl, heq⟩) hbound').cons hnodup hdisable hmax
          hcreated hepoch hkeep hfrom
    · simp only [if_neg hcount]
      exact (ih hs (hs.nodes_eq_nil hcount) (fun hc' => absurd hc' hc) hbound').cons hnodup
        hdisable hmax hcreated hepoch (fun _ hm => hm) fun _ hm => .inl hm

theorem Concluded.of_gather
    (h : Concluded start ⟨{ box with nodes := [], count := 0 }, lent, []⟩ idle returned free r) :
    Concluded start ⟨box, lent, []⟩ idle returned free r :=
  ⟨h.inv, h.gathering, h.disable, h.max, h.created, h.epoch, h.idle_of_failed,
    h.missing_of_failed, h.of_acquired⟩

theorem Regular.disable (h : s.Regular start) :
    Regular start { s with box.disable := true } :=
  ⟨h.inv.flags rfl rfl rfl, h.gathering, h.created⟩

theorem Regular.acquireAll (h : s.Regular start) (before : ConnNode → ConnNode → Bool) (w : Wait) :
    Concluded start s s.box.nodes w.returned w.free (s.acquireAll before w) := by
  obtain ⟨h, hgathering, hbound⟩ := h
  obtain ⟨box, lent, gathering⟩ := s
  obtain rfl : gathering = [] := hgathering
  have hstart : Inv start ⟨box, lent, [⟨[], 0, false⟩]⟩ :=
    ⟨h.counted, forall_mem_singleton.mpr rfl, h.idle_current,
      forall_mem_singleton.mpr fun _ hn => (nomatch hn), h.roster⟩
  have hgather : Container.gather before box ⟨[], 0, false⟩ =
      (⟨box.nodes, box.count, false⟩, { box with nodes := [], count := 0 }) := by
    simp only [Container.gather, Container.mergeNodes, Int.zero_add]
  have hall := hstart.gather before
  rw [hgather] at hall
  simp only [Lending.acquireAll, Container.acquireAll]
  by_cases htotal : 0 < box.total
  · simp only [if_pos htotal]
    by_cases hcount : 0 < box.count
    · simp only [if_pos hcount]
      rcases gatherLoop_cases before hstart w.free with
        hw | ⟨heq, hfree, hw⟩ | ⟨heq, hfree, hw⟩
      · rw [hw, hgather]
        exact (waitAll_concluded w.returned hall rfl (fun hc => absurd hc Bool.false_ne_true)
          hbound).of_gather
      · rw [hw, hfree, hgather]
        rw [hgather] at heq
        exact (concluded_acquired hall rfl heq w.returned).of_gather
      · rw [hw, hgather]
        rw [hgather] at heq
        exact (waitAll_concluded w.returned hall.setChecking rfl (fun _ => ⟨hfree, heq⟩)
          hbound).of_gather
    · simp only [if_neg hcount]
      have hnil := h.nodes_eq_nil hcount
      rw [hnil]
      exact waitAll_concluded w.returned hstart hnil (fun hc => absurd hc Bool.false_ne_true) hbound
  · -- the container has no nodes at all
    have hcons := h.consistent.total_eq
    dsimp only at hcons
    have hnil : box.nodes = [] := length_eq_zero_iff.mp (by omega)
    have hzero : (0 : Int) = box.total := by omega
    simp only [if_neg htotal, Container.checkAll, if_neg (not_not.mpr hzero), hnil]
    cases hfree : w.free with
    | true => exact concluded_acquired hstart hnil hzero w.returned
    | false =>
      exact waitAll_concluded w.returned hstart.setChecking hnil (fun _ => ⟨rfl, hzero⟩) hbound

def AllBack (s : Lending) (w : Wait) : Prop :=
  w.free ∧ ∀ n ∈ s.lent, n.epoch = s.box.epoch → n ∈ w.returned.map Prod.fst
  deriving Decidable

variable {w : Wait}

theorem Concluded.isSome_iff
    (h : Concluded start s idle w.returned w.free r) : r.1.isSome ↔ s.AllBack w := by
  cases hr : r.1 with
  | none =>
    refine iff_of_false (by simp) fun hback => ?_
    obtain ⟨n, hn, he, hmissing⟩ := h.missing_of_failed hr hback.1
    exact hmissing (hback.2 n hn he)
  | some nodes =>
    obtain ⟨hfree, _, _, _, _, _, _, hall⟩ := h.of_acquired nodes hr
    exact iff_of_true rfl ⟨hfree, hall⟩

/-- The container is as before the call, except for the nodes that were lent. -/
structure Restored (s s' : Lending) : Prop where
  disable : s'.box.disable = s.box.disable
  idle : ∀ n ∈ s.box.nodes, n ∈ s'.box.nodes
  total : s'.box.total = s'.box.nodes.length + (s'.out.countP fun n => n.epoch = s'.box.epoch : Nat)

theorem Inv.restored_self (h : Inv start s) : Restored s s :=
  ⟨rfl, fun _ hn => hn, h.consistent.total_eq⟩

def releaseAll (s : Lending) (nodes : List ConnNode) : Lending :=
  nodes.foldl (fun s n => s.giveBack n (s.box.release n)) s

variable {nodes : List ConnNode}

theorem releaseAll_spec (h : Inv start s)
    (hbound : s.box.created < MAX_RIGHT) (hnodup : nodes.Nodup)
    (hlent : ∀ n ∈ nodes, n ∈ s.lent ∧ n.epoch = s.box.epoch)
    (hroom : s.box.nodes.length + nodes.length ≤ s.box.max) :
    Inv start (s.releaseAll nodes) ∧ (s.releaseAll nodes).box.disable = s.box.disable ∧
      ∀ n, n ∈ s.box.nodes ∨ n ∈ nodes → n ∈ (s.releaseAll nodes).box.nodes := by
  induction nodes generalizing s with
  | nil => exact ⟨h, rfl, fun _ hn => hn.elim id fun hn => (nomatch hn)⟩
  | cons n nodes ih =>
    obtain ⟨hn, hepoch⟩ := hlent n mem_cons_self
    obtain ⟨hfresh, hnodup⟩ := nodup_cons.mp hnodup
    have hinv := h.release (n := n) (.inl hbound)
    obtain ⟨hleft, hright⟩ :=
      h.roster.current n (mem_append_right _ (mem_append_right _ hn)) hepoch
    have hin : ¬(n.id < s.box.left ∨ s.box.right ≤ n.id) := by omega
    have hcount : s.box.count ≠ s.box.max := by
      have := h.counted
      simp only [length_cons] at hroom
      omega
    have hpush : s.giveBack n (s.box.release n) =
        { s with box := { s.box with nodes := n :: s.box.nodes, count := s.box.count + 1 }
                 lent := s.lent.erase n } := by
      simp only [giveBack, if_pos hn, Container.release, if_neg hin, if_neg hcount]
    rw [hpush] at hinv
    have hlent' : ∀ m ∈ nodes, m ∈ s.lent.erase n ∧ m.epoch = s.box.epoch := fun m hm => by
      obtain ⟨hm', he⟩ := hlent m (mem_cons_of_mem _ hm)
      have hne : m ≠ n := fun hmn => hfresh (hmn ▸ hm)
      exact ⟨(mem_erase_of_ne hne).mpr hm', he⟩
    have hroom' : (n :: s.box.nodes).length + nodes.length ≤ s.box.max := by
      simp only [length_cons] at hroom ⊢
      omega
    obtain ⟨hinv', hdisable, hidle⟩ := ih hinv hbound hnodup hlent' hroom'
    simp only [releaseAll, foldl_cons, hpush]
    refine ⟨hinv', hdisable, fun m hm => hidle m ?_⟩
    rcases hm with hm | hm
    · exact .inl (mem_cons_of_mem _ hm)
    · rcases mem_cons.mp hm with rfl | hm
      · exact .inl mem_cons_self
      · exact .inr hm

variable {s' : Lending}

theorem Concluded.length_le (h : Concluded start s s.box.nodes returned free (some nodes, s'))
    (hs : s.Regular start) : nodes.length ≤ s.box.total := by
  obtain ⟨_, _, hfrom, hlent, hnodup, _⟩ := h.of_acquired nodes rfl
  have hsub : nodes ⊆ s.box.nodes ++ s.lent.filter fun n => n.epoch = s.box.epoch := by
    intro n hn
    rcases hfrom n hn with hidle | hout
    · exact mem_append_left _ hidle
    · exact mem_append_right _ (mem_filter.mpr ⟨hout, by simpa using (hlent n hn).2⟩)
  have hle := (subperm_of_subset hnodup hsub).length_le
  rw [length_append, ← countP_eq_length_filter] at hle
  have htotal := hs.inv.consistent.total_eq
  simp only [out, hs.gathering, flatMap_nil, nil_append] at htotal
  omega

theorem Concluded.releaseAll (h : Concluded start s s.box.nodes returned free (some nodes, s'))
    (hbound : s.box.created < MAX_RIGHT) (hroom : nodes.length ≤ s.box.max) :
    Inv start (s'.releaseAll nodes) ∧ (s'.releaseAll nodes).box.disable = s.box.disable ∧
      ∀ n ∈ s.box.nodes, n ∈ (s'.releaseAll nodes).box.nodes := by
  obtain ⟨_, hin, _, hlent, hnodup, hnil, htotal, _⟩ := h.of_acquired nodes rfl
  have hroom' : s'.box.nodes.length + nodes.length ≤ s'.box.max := by
    have hmax := h.max
    dsimp only at hmax hnil
    rw [hnil, hmax]
    simpa using hroom
  obtain ⟨hinv, hdisable, hidle⟩ := releaseAll_spec h.inv (h.created ▸ hbound) hnodup
    (fun n hn => ⟨(hlent n hn).1, (hlent n hn).2.trans h.epoch.symm⟩) hroom'
  exact ⟨hinv, hdisable.trans h.disable, fun n hn => hidle n (.inr (hin n hn))⟩

theorem Regular.restored_iff_of_failed (h : s.Regular start)
    (hres : s.acquireContainer before w = (none, s')) :
    ¬ s.AllBack w ∧ (s.Restored s' ↔ s.box.disable = false) := by
  have hc := h.disable.acquireAll before w
  unfold acquireContainer at hres
  split at hres
  next t ht =>
    cases hres
    rw [ht] at hc
    refine ⟨fun hback => (nomatch hc.isSome_iff.mpr hback), fun hr => hr.disable.symm,
      fun hflag => ?_⟩
    exact ⟨hflag.symm, hc.idle_of_failed rfl, hc.inv.consistent.total_eq⟩
  · cases hres

theorem Regular.restored_iff_of_acquired (h : s.Regular start) (hroom : s.box.total ≤ s.box.max)
    (hres : s.acquireContainer before w = (some nodes, s')) :
    s.AllBack w ∧ (s.Restored (s'.releaseAll nodes) ↔ s.box.disable) ∧
      ∀ n ∈ nodes, n ∈ s.box.nodes ++ s.lent := by
  have hc := h.disable.acquireAll before w
  unfold acquireContainer at hres
  split at hres
  · cases hres
  next ns t ht =>
    cases hres
    rw [ht] at hc
    obtain ⟨hinv, hdisable, hidle⟩ :=
      hc.releaseAll h.created (Int.le_trans (hc.length_le h.disable) hroom)
    refine ⟨hc.isSome_iff.mp rfl, ⟨fun hr => ?_, fun hflag => ?_⟩, fun n hn => ?_⟩
    · exact hr.disable.symm.trans hdisable
    · exact ⟨hdisable.trans hflag.symm, hidle, hinv.consistent.total_eq⟩
    · exact mem_append.mpr ((hc.of_acquired _ rfl).2.2.1 n hn)

end Lending

/-! ## The pool -/

theorem Lending.regular_final {start : Nat} {before : ConnNode → ConnNode → Bool}
    {calls : List ContainerStep} (hsafe : ∀ t ∈ trace (Lending.step before) (.initial start) calls,
      t.call.Safe t.pre ∧ t.post.box.created < MAX_RIGHT)
    (hgathering : (final (Lending.step before) (.initial start) calls).gathering = [])
    (hcreated : (final (Lending.step before) (.initial start) calls).box.created < MAX_RIGHT) :
    (final (Lending.step before) (.initial start) calls).Regular start := by
  refine ⟨final_inv (G := fun s c => c.Safe s ∧ (Lending.step before s c).2.box.created < MAX_RIGHT)
    (fun _ _ hi hg => hi.step hg.1 hg.2) (Lending.inv_initial _) fun t ht => ?_, hgathering,
    hcreated⟩
  exact ⟨(hsafe t ht).1, post_of_mem_trace ht ▸ (hsafe t ht).2⟩

namespace LendingPool
variable {p p' : LendingPool} {before : ConnNode → ConnNode → Bool} {o : AcquireAllOutcome}

/-- A pool with readers whose counters agree with its lists, so that `total_` of each container is
its idle plus its lent nodes. The writer is one, and no more readers have been opened than the
container keeps. -/
structure Regular (p : LendingPool) : Prop where
  writers : p.writers.Regular 0
  readers : p.readers.Regular 0
  trans : p.trans.Regular MIN_TRANS_ID
  hasReaders : p.maxReader ≠ 0
  writers_total : p.writers.box.total ≤ 1 ∧ p.writers.box.total ≤ p.writers.box.max
  readers_total : p.readers.box.total ≤ p.readers.box.max
  writers_kind : ∀ n ∈ p.writers.box.nodes ++ p.writers.lent, n.isWriter
  readers_kind : ∀ n ∈ p.readers.box.nodes ++ p.readers.lent, n.isWriter = false

/-- The pool is as before the call. -/
def Restored (p p' : LendingPool) : Prop :=
  p.writers.Restored p'.writers ∧ p.readers.Restored p'.readers ∧ p.trans.Restored p'.trans

/-- The flags that the call sets on its way out are those it found: a container it could not drain
is enabled, one it could drain before a later failure stays disabled. -/
def FlagsFit (p : LendingPool) (o : AcquireAllOutcome) : Prop :=
  p.writers.AllBack o.writers → o.lateAfterWriters = false →
    if p.readers.AllBack o.readers then
      p.readers.box.disable ∧ (o.lateAfterReaders = false → p.trans.box.disable = false)
    else p.readers.box.disable = false

theorem releaseNodes_of_kind (isWriter : Bool) (h : ∀ n ∈ nodes, n.isWriter = isWriter) :
    p.releaseNodes nodes = if isWriter then { p with writers := p.writers.releaseAll nodes }
      else { p with readers := p.readers.releaseAll nodes } := by
  induction nodes generalizing p with
  | nil => cases isWriter <;> rfl
  | cons n nodes ih =>
    have hn := h n mem_cons_self
    have hnodes := ih (p := p.releaseNode n) fun m hm => h m (mem_cons_of_mem _ hm)
    rw [releaseNodes, foldl_cons, ← releaseNodes, hnodes, releaseNode, hn]
    cases isWriter <;> rfl

theorem Regular.writer_acquired {writers : Lending} (hp : p.Regular)
    (hres : p.writers.acquireAll before w = (some ws, writers)) :
    p.writers.AllBack w ∧ (ws.tail = [] ∧ ws.head?.toList = ws) ∧
      (∀ n ∈ ws, n.isWriter) ∧ p.writers.Restored (writers.releaseAll ws) := by
  have hw := hp.writers.acquireAll before w
  rw [hres] at hw
  have hlen := hw.length_le hp.writers
  have hone : ws.tail = [] ∧ ws.head?.toList = ws := by
    have hle : ws.length ≤ 1 := by
      have := hp.writers_total.1
      omega
    match ws, hle with
    | [], _ => exact ⟨rfl, rfl⟩
    | [_], _ => exact ⟨rfl, rfl⟩
  have hkind : ∀ n ∈ ws, n.isWriter := fun n hn =>
    hp.writers_kind n (mem_append.mpr ((hw.of_acquired ws rfl).2.2.1 n hn))
  obtain ⟨hinv, hdisable, hidle⟩ :=
    hw.releaseAll hp.writers.created (Int.le_trans hlen hp.writers_total.2)
  exact ⟨hw.isSome_iff.mp rfl, hone, hkind, hdisable, hidle, hinv.consistent.total_eq⟩

def oneTransaction : LendingPool :=
  let opens : Nat → Except RdbError Unit := fun _ => .ok ()
  let reached (start : Nat) (calls : List ContainerStep) :=
    final (Lending.step fun _ _ => false) (.initial start) calls
  { writers := reached 0 [.initializeNodes true 1 true false opens]
    readers := reached 0 [.initializeNodes false 1 false false opens]
    trans := reached MIN_TRANS_ID [.initMembers true MAX_TRANS false, .acquire true (.ok ())]
    maxReader := 1 }

theorem oneTransaction_regular : oneTransaction.Regular where
  writers := Lending.regular_final (by decide) rfl (by decide)
  readers := Lending.regular_final (by decide) rfl (by decide)
  trans := Lending.regular_final (by decide) rfl (by decide)
  hasReaders := by decide
  writers_total := by decide
  readers_total := by decide
  writers_kind := by decide
  readers_kind := by decide

example :
    let w : Wait := ⟨[(⟨MIN_TRANS_ID, true, 0, 0⟩, some true)], true⟩
    let r := oneTransaction.acquireAll (fun _ _ => false) ⟨⟨[], true⟩, ⟨[], true⟩, w, false, false⟩
    r.1.isSome ∧ r.2.trans.box.total = 1 ∧ r.2.trans.box.nodes = [] ∧ r.2.trans.lent = [] := by
  decide

end LendingPool

end RelationalStore.ConnPool
