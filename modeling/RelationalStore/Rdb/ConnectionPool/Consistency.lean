import Mathlib.Data.List.Nodup
import RelationalStore.Rdb.ConnectionPool.Container

/-! # The counters of a container agree with its lists

The invariant follows every node that is idle, gathered by `AcquireAll` or lent out. -/

namespace RelationalStore.ConnPool

open List

def Numbered (start epoch left right created : Nat) (l : List ConnNode) : Prop :=
  (right = start + created ∧ start ≤ left ∧ (∀ n ∈ l, start ≤ n.id) ∧
      ∀ n ∈ l, n.epoch ≠ epoch → n.id < left) ∨
    ∃ k, k ≤ created ∧ MAX_RIGHT < start + k ∧ right + k = created ∧
      ∀ n ∈ l, n.epoch ≠ epoch → n.id < left ∨ start ≤ n.id

structure Roster (start : Nat) (total : Int) (epoch left right created : Nat)
    (l : List ConnNode) : Prop where
  total_eq : total = (l.countP fun n => n.epoch = epoch : Nat)
  serials : (l.map ConnNode.serial).Nodup
  serial_lt : ∀ n ∈ l, n.serial < created
  epoch_le : ∀ n ∈ l, n.epoch ≤ epoch
  window : left ≤ right
  current : ∀ n ∈ l, n.epoch = epoch → left ≤ n.id ∧ n.id < right
  id_inj : ∀ m ∈ l, ∀ n ∈ l, m.epoch = epoch → n.epoch = epoch → m.id = n.id → m = n
  numbered : Numbered start epoch left right created l

section
variable {start : Nat} {total : Int} {epoch left right created : Nat} {l l' : List ConnNode}
  {n : ConnNode}

theorem Numbered.mono (h : Numbered start epoch left right created l) (hs : ∀ n ∈ l', n ∈ l) :
    Numbered start epoch left right created l' := by
  rcases h with ⟨hr, hl, hid, hold⟩ | ⟨k, hk, hmax, hr, hold⟩
  · exact .inl ⟨hr, hl, fun n hn => hid n (hs n hn), fun n hn => hold n (hs n hn)⟩
  · exact .inr ⟨k, hk, hmax, hr, fun n hn => hold n (hs n hn)⟩

namespace Roster

theorem sublist (h : Roster start total epoch left right created l) (hs : l'.Sublist l) :
    Roster start (l'.countP fun n => n.epoch = epoch : Nat) epoch left right created l' where
  total_eq := rfl
  serials := h.serials.sublist (hs.map _)
  serial_lt n hn := h.serial_lt n (hs.subset hn)
  epoch_le n hn := h.epoch_le n (hs.subset hn)
  window := h.window
  current n hn := h.current n (hs.subset hn)
  id_inj m hm n hn := h.id_inj m (hs.subset hm) n (hs.subset hn)
  numbered := h.numbered.mono fun _ hn => hs.subset hn

theorem perm (h : Roster start total epoch left right created l) (hp : l.Perm l') :
    Roster start total epoch left right created l' where
  total_eq := by rw [h.total_eq, hp.countP_eq]
  serials := (hp.map _).nodup_iff.mp h.serials
  serial_lt n hn := h.serial_lt n (hp.mem_iff.mpr hn)
  epoch_le n hn := h.epoch_le n (hp.mem_iff.mpr hn)
  window := h.window
  current n hn := h.current n (hp.mem_iff.mpr hn)
  id_inj m hm n hn := h.id_inj m (hp.mem_iff.mpr hm) n (hp.mem_iff.mpr hn)
  numbered := h.numbered.mono fun _ hn => hp.mem_iff.mpr hn

theorem drop (h : Roster start total epoch left right created (n :: l)) (hn : n.epoch = epoch) :
    Roster start (total - 1) epoch left right created l := by
  have hl := h.sublist (sublist_cons_self n l)
  have ht : total - 1 = (l.countP fun n => n.epoch = epoch : Nat) := by
    have := h.total_eq
    simp only [countP_cons, hn, decide_true, if_true] at this
    omega
  exact ht ▸ hl

theorem forget (h : Roster start total epoch left right created (n :: l)) (hn : n.epoch ≠ epoch) :
    Roster start total epoch left right created l := by
  have hl := h.sublist (sublist_cons_self n l)
  have ht : total = (l.countP fun n => n.epoch = epoch : Nat) := by
    have := h.total_eq
    simpa [countP_cons, hn] using this
  exact ht ▸ hl

section
variable (h : Roster start total epoch left right created l)
include h

theorem stale_out (hbound : created < MAX_RIGHT) (hn : n ∈ l) (hne : n.epoch ≠ epoch) :
    n.id < left ∨ right ≤ n.id := by
  rcases h.numbered with ⟨_, _, _, hold⟩ | ⟨k, _, hmax, hr, hold⟩
  · exact .inl (hold n hn hne)
  · rcases hold n hn hne with hlt | hge
    · exact .inl hlt
    · exact .inr (by omega)

theorem extend (isWriter : Bool) :
    Roster start (total + 1) epoch left (right + 1) (created + 1)
      (⟨right, isWriter, created, epoch⟩ :: l) where
  total_eq := by
    have := h.total_eq
    simp only [countP_cons, decide_true, if_true]
    omega
  serials := by
    simp only [map_cons, nodup_cons, mem_map, not_exists, not_and]
    exact ⟨fun n hn he => Nat.lt_irrefl _ (he ▸ h.serial_lt n hn), h.serials⟩
  serial_lt n hn := by
    rcases mem_cons.mp hn with rfl | hn
    · exact Nat.lt_succ_self _
    · exact Nat.lt_succ_of_lt (h.serial_lt n hn)
  epoch_le n hn := by
    rcases mem_cons.mp hn with rfl | hn
    · exact Nat.le_refl _
    · exact h.epoch_le n hn
  window := Nat.le_succ_of_le h.window
  current n hn he := by
    rcases mem_cons.mp hn with rfl | hn
    · exact ⟨h.window, Nat.lt_succ_self _⟩
    · exact ⟨(h.current n hn he).1, Nat.lt_succ_of_lt (h.current n hn he).2⟩
  id_inj m hm n hn hm' hn' hid := by
    rcases mem_cons.mp hm with rfl | hm <;> rcases mem_cons.mp hn with rfl | hn
    · rfl
    · exact absurd hid.symm (Nat.ne_of_lt (h.current n hn hn').2)
    · exact absurd hid (Nat.ne_of_lt (h.current m hm hm').2)
    · exact h.id_inj m hm n hn hm' hn' hid
  numbered := by
    have hwin := h.window
    rcases h.numbered with ⟨hr, hl, hid, hold⟩ | ⟨k, hk, hmax, hr, hold⟩
    · refine .inl ⟨by omega, hl, fun n hn => ?_, fun n hn hne => ?_⟩ <;>
        rcases mem_cons.mp hn with rfl | hn
      · exact Nat.le_trans hl hwin
      · exact hid n hn
      · exact absurd rfl hne
      · exact hold n hn hne
    · refine .inr ⟨k, by omega, hmax, by omega, fun n hn hne => ?_⟩
      rcases mem_cons.mp hn with rfl | hn
      · exact absurd rfl hne
      · exact hold n hn hne

theorem clear (hbound : created < MAX_RIGHT) (hs : l'.Sublist l) :
    Roster start 0 (epoch + 1) (if MAX_RIGHT < right then 0 else right)
      (if MAX_RIGHT < right then 0 else right) created l' := by
  have hold : ∀ n ∈ l', n.epoch ≠ epoch + 1 := fun n hn he => by
    have := h.epoch_le n (hs.subset hn)
    omega
  have hlt : ∀ n ∈ l, n.id < right ∨ n.epoch ≠ epoch := fun n hn =>
    (Decidable.em (n.epoch = epoch)).imp (fun he => (h.current n hn he).2) id
  refine ⟨?_, (h.sublist hs).serials, (h.sublist hs).serial_lt,
    fun n hn => Nat.le_succ_of_le (h.epoch_le n (hs.subset hn)), Nat.le_refl _,
    fun n hn he => absurd he (hold n hn), fun m hm n hn he => absurd he (hold m hm), ?_⟩
  · rw [countP_eq_zero.mpr]
    · rfl
    · exact fun n hn => by simpa using hold n hn
  · have hwin := h.window
    rcases h.numbered with ⟨hr, hl, hid, hstale⟩ | ⟨k, hk, hmax, hr, hstale⟩
    · by_cases hwrap : MAX_RIGHT < right
      · -- the one reset: everything made so far has an id from `start` on
        simp only [if_pos hwrap]
        exact .inr ⟨created, Nat.le_refl _, by omega, Nat.zero_add _,
          fun n hn _ => .inr (hid n (hs.subset hn))⟩
      · simp only [if_neg hwrap]
        refine .inl ⟨hr, by omega, fun n hn => hid n (hs.subset hn), fun n hn _ => ?_⟩
        rcases hlt n (hs.subset hn) with h' | hne
        · exact h'
        · exact Nat.lt_of_lt_of_le (hstale n (hs.subset hn) hne) hwin
    · rw [if_neg (by omega)]
      refine .inr ⟨k, hk, hmax, hr, fun n hn _ => ?_⟩
      rcases hlt n (hs.subset hn) with h' | hne
      · exact .inl h'
      · exact (hstale n (hs.subset hn) hne).imp (Nat.lt_of_lt_of_le · hwin) id

end

end Roster

end

/-! ## The invariant -/

def Container.numbers (c : Container) : Int × Nat × Nat × Nat × Nat :=
  (c.total, c.epoch, c.left, c.right, c.created)

namespace Lending
variable {start : Nat} {s s' : Lending} {before : ConnNode → ConnNode → Bool}

/-- The counters of a container agree with its lists and with the nodes that are out. -/
structure Consistent (s : Lending) : Prop where
  count_eq : s.box.count = s.box.nodes.length
  ids_nodup : (s.box.nodes.map ConnNode.id).Nodup
  ids_window : ∀ n ∈ s.box.nodes, s.box.left ≤ n.id ∧ n.id < s.box.right
  total_eq : s.box.total =
    s.box.nodes.length + (s.out.countP fun n => n.epoch = s.box.epoch : Nat)
  idle_not_out : ∀ n ∈ s.box.nodes, n ∉ s.out

structure Inv (start : Nat) (s : Lending) : Prop where
  counted : s.box.count = s.box.nodes.length
  gathered : ∀ g ∈ s.gathering, g.count = g.nodes.length
  idle_current : ∀ n ∈ s.box.nodes, n.epoch = s.box.epoch
  gathered_current : ∀ g ∈ s.gathering, ∀ n ∈ g.nodes, n.epoch = s.box.epoch
  roster : Roster start s.box.total s.box.epoch s.box.left s.box.right s.box.created
    (s.box.nodes ++ s.out)

theorem inv_initial (start : Nat) : Inv start (initial start) where
  counted := rfl
  gathered := fun _ h => nomatch h
  idle_current := fun _ h => nomatch h
  gathered_current := fun _ h => nomatch h
  roster :=
    { total_eq := rfl
      serials := nodup_nil
      serial_lt := fun _ h => nomatch h
      epoch_le := fun _ h => nomatch h
      window := Nat.le_refl _
      current := fun _ h => nomatch h
      id_inj := fun _ h => nomatch h
      numbered := .inl ⟨rfl, Nat.le_refl _, fun _ h => (nomatch h), fun _ h => (nomatch h)⟩ }

section
variable (h : Inv start s)
include h

theorem Inv.consistent : Consistent s where
  count_eq := h.counted
  ids_nodup := by
    have hnodup : s.box.nodes.Nodup :=
      (List.Nodup.of_map _ h.roster.serials).sublist (sublist_append_left _ _)
    refine List.Nodup.map_on ?_ hnodup
    intro m hm n hn hid
    exact h.roster.id_inj m (mem_append_left _ hm) n (mem_append_left _ hn)
      (h.idle_current m hm) (h.idle_current n hn) hid
  ids_window := fun n hn =>
    h.roster.current n (mem_append_left _ hn) (h.idle_current n hn)
  total_eq := by
    have hidle : s.box.nodes.countP (fun n => n.epoch = s.box.epoch) = s.box.nodes.length :=
      countP_eq_length.mpr fun n hn => by simpa using h.idle_current n hn
    rw [h.roster.total_eq, countP_append, hidle]
    exact Int.natCast_add _ _
  idle_not_out := fun n hn hout =>
    disjoint_of_nodup_append (List.Nodup.of_map _ h.roster.serials) hn hout

theorem Inv.nodes_ne_nil (hcount : 0 < s.box.count) : s.box.nodes ≠ [] := by
  rw [h.counted] at hcount
  exact length_pos_iff.mp (Int.natCast_pos.mp hcount)

theorem Inv.move (hcount : s'.box.count = s'.box.nodes.length)
    (hgathered : ∀ g ∈ s'.gathering, g.count = g.nodes.length)
    (hidle : ∀ n ∈ s'.box.nodes, n.epoch = s.box.epoch)
    (hcurrent : ∀ g ∈ s'.gathering, ∀ n ∈ g.nodes, n.epoch = s.box.epoch)
    (hnumbers : s'.box.numbers = s.box.numbers)
    (hperm : (s.box.nodes ++ s.out).Perm (s'.box.nodes ++ s'.out)) : Inv start s' := by
  simp only [Container.numbers, Prod.mk.injEq] at hnumbers
  obtain ⟨htotal, hepoch, hleft, hright, hcreated⟩ := hnumbers
  refine ⟨hcount, hgathered, hepoch ▸ hidle, hepoch ▸ hcurrent, ?_⟩
  rw [htotal, hepoch, hleft, hright, hcreated]
  exact h.roster.perm hperm

theorem Inv.flags {box : Container} (hnodes : box.nodes = s.box.nodes)
    (hcount : box.count = s.box.count) (hnumbers : box.numbers = s.box.numbers) :
    Inv start { s with box } := by
  refine h.move ?_ h.gathered ?_ h.gathered_current hnumbers (.of_eq ?_)
  · rw [hnodes, hcount]
    exact h.counted
  · rw [hnodes]
    exact h.idle_current
  · rw [hnodes]
    rfl

theorem Inv.extend (isWriter : Bool) :
    Inv start { s with box := { s.box with
      right := s.box.right + 1, nodes := s.box.nodes ++ [s.box.nextNode isWriter]
      count := s.box.count + 1, total := s.box.total + 1, created := s.box.created + 1 } } where
  counted := by
    have := h.counted
    simp only [length_append, length_singleton]
    omega
  gathered := h.gathered
  idle_current n hn := by
    rcases mem_append.mp hn with hn | hn
    · exact h.idle_current n hn
    · rw [mem_singleton.mp hn]
      rfl
  gathered_current := h.gathered_current
  roster := by
    refine (h.roster.extend isWriter).perm ?_
    rw [append_assoc]
    exact perm_middle.symm

theorem Inv.popBack (hne : s.box.nodes ≠ []) :
    Inv start (s.lend s.box.popBack.1 s.box.popBack.2) := by
  have hperm := s.box.popBack_perm hne
  refine h.move ?_ h.gathered ?_ h.gathered_current rfl ?_
  · have := h.counted
    have hpos := length_pos_iff.mpr hne
    simp only [lend, Container.popBack, length_dropLast]
    omega
  · exact fun n hn => h.idle_current n (hperm.subset (mem_append_left _ hn))
  · refine perm_iff_count.mpr fun a => ?_
    have := hperm.count_eq a
    simp only [out, lend, count_append] at this ⊢
    omega

theorem Inv.initMembers (isWriter : Bool) (max : Int) (disable : Bool) :
    Inv start { s with box := s.box.initMembers isWriter max disable } :=
  h.flags rfl rfl rfl

theorem Inv.extendNodes (hcreator : s.box.creator = some isWriter)
    (hsafe : ∀ i < k, (opens i).isOk = false → s.box.nodes = [] ∧ (opens 0).isOk = false) :
    Inv start { s with box := (Container.extendNodes k opens s.box).2 } := by
  induction k generalizing s opens with
  | zero => exact h
  | succ k ih =>
    simp only [Container.extendNodes]
    split
    next u box hex =>
      obtain ⟨_, hopen, rfl⟩ := Container.extendNode_ok hex
      refine ih (h.extend _) hcreator fun i hi hfail => ?_
      -- the first node could be made, so that no later open may fail
      have hfail₀ := (hsafe (i + 1) (Nat.succ_lt_succ hi) hfail).2
      rw [hopen] at hfail₀
      cases hfail₀
    next e box hex =>
      obtain ⟨rfl, hnone | hopen⟩ := Container.extendNode_error hex
      · rw [hcreator] at hnone
        cases hnone
      · have hnil := (hsafe 0 k.succ_pos (by rw [hopen]; rfl)).1
        exact h.flags hnil.symm rfl rfl

theorem Inv.initializeNodes {max : Int}
    (hsafe : ∀ i < max.toNat, (opens i).isOk = false → s.box.nodes = [] ∧ (opens 0).isOk = false) :
    Inv start (step before s (.initializeNodes isWriter max disable acquire opens)).2 := by
  have hloop := (h.initMembers isWriter max disable).extendNodes rfl hsafe
  cases hfill : Container.extendNodes max.toNat opens (s.box.initMembers isWriter max disable) with
  | mk result box =>
    rw [hfill] at hloop
    cases result with
    | error e =>
      simp only [step, Container.initializeNodes, hfill]
      exact hloop
    | ok u =>
      simp only [step, Container.initializeNodes, hfill]
      by_cases hacq : acquire ∧ 0 < box.count
      · simp only [if_pos hacq]
        exact hloop.popBack (hloop.nodes_ne_nil hacq.2)
      · simp only [if_neg hacq]
        exact hloop

theorem Inv.acquire (before : ConnNode → ConnNode → Bool) (first : Bool)
    (opened : Except RdbError Unit) :
    Inv start (step before s (.acquire first opened)).2 := by
  simp only [step, Container.acquire]
  by_cases hfirst : first ∧ s.box.max = 0
  · simp only [if_pos hfirst]
    exact h
  simp only [if_neg hfirst]
  by_cases hcount : 0 < s.box.count
  · have hne := h.nodes_ne_nil hcount
    simp only [if_pos hcount, Container.take_of_ne_nil hne]
    exact h.popBack hne
  simp only [if_neg hcount]
  by_cases hdisable : s.box.disable
  · simp only [if_pos hdisable]
    exact h
  simp only [if_neg hdisable]
  cases hex : s.box.extendNode opened with
  | mk result box =>
    cases result with
    | error e =>
      obtain ⟨rfl, _⟩ := Container.extendNode_error hex
      exact h
    | ok u =>
      obtain ⟨isWriter, _, hbox⟩ := Container.extendNode_ok hex
      have hne : box.nodes ≠ [] := by simp [hbox]
      have hext : Inv start { s with box } := hbox ▸ h.extend isWriter
      simp only [Container.take_of_ne_nil hne]
      exact hext.popBack hne

theorem Inv.acquireById {id : Int} :
    Inv start (step before s (.acquireById id)).2 := by
  simp only [step, Container.acquireById]
  split
  · exact h
  · split
    · exact h
    next hcount _ n hn =>
      have hmem := Container.nodeAfter_mem hn
      refine h.move ?_ h.gathered (fun m hm => h.idle_current m (mem_of_mem_erase hm))
        h.gathered_current rfl ?_
      · have := h.counted
        have hpos := length_pos_of_mem hmem
        simp only [lend, length_erase_of_mem hmem]
        omega
      · refine perm_iff_count.mpr fun a => ?_
        have := (perm_cons_erase hmem).count_eq a
        simp only [out, lend, count_append, Option.toList_some, count_cons] at this ⊢
        simp only [count_nil] 
        omega

end

/-! An `AcquireAll` that runs holds its nodes like one that waits: `g` stands at the head of the
list below. -/

section
variable {box : Container} {lent : List ConnNode} {g : Gathering} {rest : List Gathering}

section
variable (h : Inv start ⟨box, lent, g :: rest⟩)
include h

theorem Inv.checkAll (hnil : box.nodes = []) (free : Bool) :
    Inv start (Lending.gathered ⟨box, lent, rest⟩ (box.checkAll g free)) := by
  have hg := h.gathered g mem_cons_self
  have hcur := h.gathered_current g mem_cons_self
  have hrest := fun g' hg' => h.gathered g' (mem_cons_of_mem g hg')
  have hrest' := fun g' hg' => h.gathered_current g' (mem_cons_of_mem g hg')
  unfold Container.checkAll
  split
  · refine h.move hg hrest hcur hrest' rfl (.of_eq ?_)
    simp [out, Lending.gathered, Container.putBack, hnil]
  split
  · refine h.move h.counted hrest h.idle_current hrest' rfl ?_
    refine perm_iff_count.mpr fun a => ?_
    simp only [out, Lending.gathered, flatMap_cons, count_append]
    omega
  · refine h.move h.counted ?_ h.idle_current ?_ rfl (.of_eq rfl)
    · exact forall_mem_cons.mpr ⟨hg, hrest⟩
    · exact forall_mem_cons.mpr ⟨hcur, hrest'⟩

theorem Inv.gather (before : ConnNode → ConnNode → Bool) :
    Inv start ⟨(box.gather before g).2, lent, (box.gather before g).1 :: rest⟩ := by
  have hperm := Container.mergeNodes_perm before g.nodes box.nodes
  refine h.move rfl ?_ (fun _ hn => nomatch hn) ?_ rfl ?_
  · refine forall_mem_cons.mpr ⟨?_, fun g' hg' => h.gathered g' (mem_cons_of_mem g hg')⟩
    have := h.gathered g mem_cons_self
    have := h.counted
    simp only [Container.gather, hperm.length_eq, length_append] at *
    omega
  · refine forall_mem_cons.mpr
      ⟨fun n hn => ?_, fun g' hg' => h.gathered_current g' (mem_cons_of_mem g hg')⟩
    rcases mem_append.mp (hperm.subset hn) with hn | hn
    · exact h.gathered_current g mem_cons_self n hn
    · exact h.idle_current n hn
  · refine perm_iff_count.mpr fun a => ?_
    have := hperm.count_eq a
    simp only [out, Container.gather, flatMap_cons, count_append, count_nil] at *
    omega

theorem Inv.gatherLoop (free : Bool) :
    Inv start (Lending.gathered ⟨box, lent, rest⟩ (box.gatherLoop before g free)) := by
  have hgather := h.gather before
  simp only [Container.gatherLoop]
  split
  · exact hgather
  · exact hgather.checkAll rfl free

end

end

section
variable (h : Inv start s)
include h

theorem Inv.resume {g : Gathering} {result : GatherResult × Container}
    (hgo : g ∈ s.gathering → Inv start ⟨s.box, s.lent, g :: s.gathering.erase g⟩ →
      Inv start (Lending.gathered ⟨s.box, s.lent, s.gathering.erase g⟩ result)) :
    Inv start (s.resume g result) := by
  unfold Lending.resume
  split
  next hmem =>
    have hperm := perm_cons_erase hmem
    refine hgo hmem (h.move h.counted (fun g' hg' => h.gathered g' (hperm.mem_iff.mpr hg'))
      h.idle_current (fun g' hg' => h.gathered_current g' (hperm.mem_iff.mpr hg')) rfl ?_)
    exact ((hperm.flatMap_right _).append_right _).append_left _
  · exact h

theorem Inv.acquireAll (before : ConnNode → ConnNode → Bool) (free : Bool) :
    Inv start (s.gathered (s.box.acquireAll before free)) := by
  -- the call starts with an empty local list
  have hstart : Inv start ⟨s.box, s.lent, ⟨[], 0, false⟩ :: s.gathering⟩ :=
    ⟨h.counted, forall_mem_cons.mpr ⟨rfl, h.gathered⟩, h.idle_current,
      forall_mem_cons.mpr ⟨fun _ hn => (nomatch hn), h.gathered_current⟩, h.roster⟩
  simp only [Container.acquireAll]
  split
  · split
    · exact hstart.gatherLoop free
    · exact hstart
  next htotal =>
    refine hstart.checkAll ?_ free
    -- the container is empty, as `total_` bounds the idle nodes
    have hcons := h.consistent.total_eq
    exact length_eq_zero_iff.mp (by omega)

theorem Inv.nodes_eq_nil (hcount : ¬ 0 < s.box.count) : s.box.nodes = [] := by
  have := h.counted
  exact length_eq_zero_iff.mp (by omega)

theorem Inv.wake (g : Gathering) (free : Bool) :
    Inv start (s.resume g (s.box.wake before g free)) := by
  refine h.resume fun _ hg => ?_
  unfold Container.wake
  split
  · cases free with
    | false => exact hg
    | true =>
      refine hg.move hg.counted (fun g' hg' => hg.gathered g' (mem_cons_of_mem g hg'))
        hg.idle_current (fun g' hg' => hg.gathered_current g' (mem_cons_of_mem g hg')) rfl ?_
      refine perm_iff_count.mpr fun a => ?_
      simp only [out, Lending.gathered, flatMap_cons, count_append, if_true]
      omega
  · split
    · exact hg.gatherLoop free
    · exact hg

theorem Inv.timeout (free : Bool) (hsafe : g ∈ s.gathering → g.checking → s.box.nodes = []) :
    Inv start (s.resume g (s.box.timeout before g free)) := by
  refine h.resume fun hmem hg => ?_
  unfold Container.timeout
  split
  next hcheck =>
    have hnil := hsafe hmem hcheck
    refine hg.move (hg.gathered g mem_cons_self)
      (fun g' hg' => hg.gathered g' (mem_cons_of_mem g hg'))
      (hg.gathered_current g mem_cons_self)
      (fun g' hg' => hg.gathered_current g' (mem_cons_of_mem g hg')) rfl (.of_eq ?_)
    simp [out, Lending.gathered, Container.putBack, hnil]
  · split
    · exact hg.gatherLoop free
    next hcount => exact hg.checkAll (h.nodes_eq_nil hcount) free

theorem Inv.giveBack {n : ConnNode} {box : Container}
    (hbound : s.box.created < MAX_RIGHT ∨ n.epoch = s.box.epoch)
    (hstale : n.id < s.box.left ∨ s.box.right ≤ n.id → box = s.box)
    (hcurrent : s.box.left ≤ n.id → n.id < s.box.right → n.epoch = s.box.epoch →
      Inv start ⟨s.box, n :: s.lent.erase n, s.gathering⟩ →
      Inv start ⟨box, s.lent.erase n, s.gathering⟩) :
    Inv start (s.giveBack n box) := by
  unfold Lending.giveBack
  split
  next hmem =>
    have hn : n ∈ s.box.nodes ++ s.out :=
      mem_append_right _ (mem_append_right _ hmem)
    have hperm : (s.box.nodes ++ s.out).Perm
        (n :: (s.box.nodes ++ Lending.out ⟨s.box, s.lent.erase n, s.gathering⟩)) := by
      refine perm_iff_count.mpr fun a => ?_
      have := (perm_cons_erase hmem).count_eq a
      simp only [out, count_append, count_cons] at this ⊢
      omega
    by_cases hepoch : n.epoch = s.box.epoch
    · obtain ⟨hleft, hright⟩ := h.roster.current n hn hepoch
      refine hcurrent hleft hright hepoch (h.move h.counted h.gathered h.idle_current
        h.gathered_current rfl (hperm.trans (perm_iff_count.mpr fun a => ?_)))
      simp only [out, count_append, count_cons]
      omega
    · rw [hstale (h.roster.stale_out (hbound.resolve_right hepoch) hn hepoch)]
      exact ⟨h.counted, h.gathered, h.idle_current, h.gathered_current,
        (h.roster.perm hperm).forget hepoch⟩
  · exact h

end

section
variable {box : Container} {n : ConnNode} {lent : List ConnNode} {gathering : List Gathering}

section
variable (h : Inv start ⟨box, n :: lent, gathering⟩)
include h

theorem Inv.putIdle (hepoch : n.epoch = box.epoch) (hperm : nodes.Perm (n :: box.nodes)) :
    Inv start ⟨{ box with nodes, count := box.count + 1 }, lent, gathering⟩ := by
  refine h.move ?_ h.gathered (fun m hm => ?_) h.gathered_current rfl ?_
  · have := h.counted
    simp only [hperm.length_eq, length_cons] at this ⊢
    omega
  · rcases mem_cons.mp (hperm.subset hm) with rfl | hm
    · exact hepoch
    · exact h.idle_current m hm
  · refine perm_iff_count.mpr fun a => ?_
    have := hperm.count_eq a
    simp only [out, count_append, count_cons] at this ⊢
    omega

theorem Inv.dropLent (hepoch : n.epoch = box.epoch) :
    Inv start ⟨{ box with total := box.total - 1 }, lent, gathering⟩ := by
  refine ⟨h.counted, h.gathered, h.idle_current, h.gathered_current, ?_⟩
  refine (h.roster.perm (perm_iff_count.mpr fun a => ?_)).drop hepoch
  simp only [out, count_append, count_cons]
  omega

theorem Inv.count_lt_total (hepoch : n.epoch = box.epoch) : box.count < box.total := by
  have htotal := h.consistent.total_eq
  have hcount := h.counted
  simp only [out, countP_append, countP_cons, hepoch, decide_true, if_true] at htotal
  simp only at hcount
  omega

end

end

theorem created_release (n : ConnNode) :
    (s.giveBack n (s.box.release n)).box.created = s.box.created := by
  simp only [Lending.giveBack, Container.release]
  repeat' split
  all_goals rfl

theorem created_releaseTrans (n : ConnNode) (recyclable : Bool) :
    (s.giveBack n (s.box.releaseTrans n recyclable)).box.created = s.box.created := by
  simp only [Lending.giveBack, Container.releaseTrans]
  repeat' split
  all_goals rfl

theorem Inv.release (h : Inv start s) (hbound : s.box.created < MAX_RIGHT ∨ n.epoch = s.box.epoch) :
    Inv start (s.giveBack n (s.box.release n)) := by
  refine h.giveBack hbound (fun hout => if_pos hout) fun hleft hright hepoch hn => ?_
  have hin : ¬(n.id < s.box.left ∨ s.box.right ≤ n.id) := by omega
  simp only [Container.release, if_neg hin]
  split
  · rw [if_pos (hn.count_lt_total hepoch)]
    exact hn.dropLent hepoch
  · exact hn.putIdle hepoch .rfl

theorem Inv.releaseTrans (h : Inv start s)
    (hbound : s.box.created < MAX_RIGHT ∨ n.epoch = s.box.epoch) (recyclable : Bool) :
    Inv start (s.giveBack n (s.box.releaseTrans n recyclable)) := by
  refine h.giveBack hbound (fun hout => if_pos hout) fun hleft hright hepoch hn => ?_
  have hin : ¬(n.id < s.box.left ∨ s.box.right ≤ n.id) := by omega
  simp only [Container.releaseTrans, if_neg hin]
  split
  · have hperm : (s.box.nodes ++ [n]).Perm ([n] ++ s.box.nodes) := perm_append_comm
    exact hn.putIdle hepoch hperm
  · exact hn.dropLent hepoch

theorem Inv.clearUnusedTrans (h : Inv start s) (unused : ConnNode → Bool) :
    Inv start { s with box := s.box.clearUnusedTrans unused } := by
  have hsub : (s.box.nodes.filter fun n => !unused n).Sublist s.box.nodes := filter_sublist
  have hlen : s.box.nodes.length =
      (s.box.nodes.filter fun n => !unused n).length + s.box.nodes.countP unused := by
    rw [length_eq_countP_add_countP unused, ← countP_eq_length_filter, Nat.add_comm]
    simp
  have hidle : ∀ n ∈ s.box.nodes.filter fun n => !unused n, n.epoch = s.box.epoch :=
    fun n hn => h.idle_current n (hsub.subset hn)
  refine ⟨?_, h.gathered, hidle, h.gathered_current, ?_⟩
  · have := h.counted
    simp only [Container.clearUnusedTrans]
    omega
  · have hroster := h.roster.sublist (hsub.append_right s.out)
    have hall : (s.box.nodes.filter fun n => !unused n).countP (fun n => n.epoch = s.box.epoch) =
        (s.box.nodes.filter fun n => !unused n).length :=
      countP_eq_length.mpr fun n hn => by simpa using hidle n hn
    have htotal : (s.box.clearUnusedTrans unused).total =
        (((s.box.nodes.filter fun n => !unused n) ++ s.out).countP
          fun n => n.epoch = s.box.epoch : Nat) := by
      have := h.consistent.total_eq
      rw [countP_append, hall]
      simp only [Container.clearUnusedTrans]
      omega
    rw [htotal]
    exact hroster

theorem Inv.clear (h : Inv start s) (hbound : s.box.created < MAX_RIGHT)
    (hsafe : ∀ g ∈ s.gathering, g.nodes = []) : Inv start { s with box := s.box.clear } where
  counted := rfl
  gathered := h.gathered
  idle_current := fun _ hn => nomatch hn
  gathered_current g hg _ hn := nomatch (hsafe g hg) ▸ hn
  roster := h.roster.clear hbound (sublist_append_right _ _)

end Lending

def ContainerStep.Safe (s : Lending) : ContainerStep → Prop
  | .initializeNodes _ max _ _ opens =>
    ∀ i < max.toNat, (opens i).isOk = false → s.box.nodes = [] ∧ (opens 0).isOk = false
  | .clear => ∀ g ∈ s.gathering, g.nodes = []
  | .timeout g _ => g ∈ s.gathering → g.checking → s.box.nodes = []
  | _ => True

instance (s : Lending) (c : ContainerStep) : Decidable (c.Safe s) :=
  match c with
  | .initializeNodes _ max _ _ opens =>
    inferInstanceAs (Decidable (∀ i < max.toNat, (opens i).isOk = false → _ ∧ _))
  | .clear => inferInstanceAs (Decidable (∀ g ∈ s.gathering, g.nodes = []))
  | .timeout g _ => inferInstanceAs (Decidable (g ∈ s.gathering → g.checking → s.box.nodes = []))
  | .initMembers .. | .acquire .. | .acquireById _ | .acquireAll _ | .wake .. | .release _
  | .releaseTrans .. | .clearUnusedTrans _ | .disable | .enable => .isTrue trivial

namespace Lending
variable {start : Nat} {s : Lending} {before : ConnNode → ConnNode → Bool}

theorem Inv.step (h : Inv start s) (hsafe : c.Safe s)
    (hbound : (step before s c).2.box.created < MAX_RIGHT) : Inv start (step before s c).2 := by
  cases c with
  | initializeNodes => exact h.initializeNodes hsafe
  | initMembers => exact h.initMembers _ _ _
  | acquire first opened => exact h.acquire before first opened
  | acquireById => exact h.acquireById
  | acquireAll free => exact h.acquireAll before free
  | wake g free => exact h.wake g free
  | timeout g free => exact h.timeout free hsafe
  | release n => exact h.release (.inl (created_release n ▸ hbound))
  | releaseTrans n recyclable =>
    exact h.releaseTrans (.inl (created_releaseTrans n recyclable ▸ hbound)) recyclable
  | clearUnusedTrans unused => exact h.clearUnusedTrans unused
  | disable => exact h.flags rfl rfl rfl
  | enable => exact h.flags rfl rfl rfl
  | clear => exact h.clear hbound hsafe

theorem consistent_of_safe_run (start : Nat) (before : ConnNode → ConnNode → Bool)
    (calls : List ContainerStep)
    (hcreated : ∀ t ∈ trace (step before) (initial start) calls, t.post.box.created < MAX_RIGHT)
    (hsafe : ∀ t ∈ trace (step before) (initial start) calls, t.call.Safe t.pre) :
    ∀ t ∈ trace (step before) (initial start) calls, Consistent t.post := by
  refine trace_forall (I := Inv start)
    (G := fun s c => c.Safe s ∧ (step before s c).2.box.created < MAX_RIGHT)
    (fun s c h hg => ?_) (inv_initial start) fun t ht => ⟨hsafe t ht, ?_⟩
  · have hnext := h.step hg.1 hg.2
    exact ⟨hnext, hnext.consistent⟩
  · exact post_of_mem_trace ht ▸ hcreated t ht

theorem consistent_of_safe_run_readers :
    let opens : Nat → Except RdbError Unit := fun _ => .ok ()
    let r₀ : ConnNode := ⟨0, false, 0, 0⟩
    let r₁ : ConnNode := ⟨1, false, 1, 0⟩
    let calls : List ContainerStep := [.initializeNodes false 2 false false opens,
      .acquire true (.ok ()), .acquireAll true, .release r₁, .wake ⟨[r₀], 1, false⟩ true,
      .acquireAll true, .timeout ⟨[], 0, false⟩ true, .release r₀, .clear]
    let run := trace (step fun _ _ => true) (initial 0) calls
    (∀ t ∈ run, t.post.box.created < MAX_RIGHT) ∧ (∀ t ∈ run, t.call.Safe t.pre) ∧
      ∀ t ∈ run, Consistent t.post :=
  ⟨by decide, by decide, consistent_of_safe_run 0 _ _ (by decide) (by decide)⟩

theorem clear_during_acquireAll_inconsistent :
    let opens : Nat → Except RdbError Unit := fun _ => .ok ()
    let r₀ : ConnNode := ⟨0, false, 0, 0⟩
    let s := final (step fun _ _ => true) (initial 0)
      [.initializeNodes false 2 false false opens, .acquire true (.ok ()), .acquireAll true, .clear,
        .initializeNodes false 2 false false opens, .timeout ⟨[r₀], 1, false⟩ true]
    s.box.nodes.length = 3 ∧ s.box.count = 3 ∧ s.box.total = 2 ∧ r₀ ∈ s.box.nodes ∧
      s.box.left = 2 ∧ ¬ Consistent s := by
  refine ⟨by decide, by decide, by decide, by decide, by decide, fun h => ?_⟩
  exact absurd (h.ids_window ⟨0, false, 0, 0⟩ (by decide)).1 (by decide)

end Lending

end RelationalStore.ConnPool
