import RelationalStore.Rdb.Errno
import RelationalStore.Theory.Run

/-! # The containers of the connection pool

A container keeps its idle nodes in a list, next to counters that are updated by hand. -/

namespace RelationalStore.ConnPool

open List

structure ConnNode where
  id : Nat
  isWriter : Bool
  serial : Nat
  epoch : Nat
  deriving DecidableEq, Repr

structure Container where
  disable : Bool
  max : Int
  total : Int
  count : Int
  left : Nat
  right : Nat
  nodes : List ConnNode
  creator : Option Bool
  created : Nat
  epoch : Nat
  deriving DecidableEq, Repr

def MAX_RIGHT : Nat := 0x4FFFFFFF

structure Gathering where
  nodes : List ConnNode
  count : Int
  checking : Bool
  deriving DecidableEq, Repr

inductive GatherResult where
  | waiting (g : Gathering)
  | failed
  | acquired (nodes : List ConnNode)

namespace Container

def fresh (start : Nat) : Container :=
  { disable := true, max := 0, total := 0, count := 0, left := start, right := start
    nodes := [], creator := none, created := 0, epoch := 0 }

variable (c : Container)

def nextNode (isWriter : Bool) : ConnNode := ⟨c.right, isWriter, c.created, c.epoch⟩

def extendNode (opened : Except RdbError Unit) : Except RdbError Unit × Container :=
  match c.creator, opened with
  | none, _ => (.error .error, c)
  | some _, .error e => (.error e, c)
  | some isWriter, .ok _ =>
    (.ok (), { c with
      right := c.right + 1, nodes := c.nodes ++ [c.nextNode isWriter]
      count := c.count + 1, total := c.total + 1, created := c.created + 1 })

def extendNodes : Nat → (Nat → Except RdbError Unit) → Container →
    Except RdbError Unit × Container
  | 0, _, c => (.ok (), c)
  | n + 1, opens, c =>
    match c.extendNode (opens 0) with
    | (.ok _, c') => extendNodes n (fun i => opens (i + 1)) c'
    | (.error e, c') => (.error e, { c' with nodes := [] })

def initMembers (isWriter : Bool) (max : Int) (disable : Bool) : Container :=
  { c with disable, max, creator := some isWriter }

def popBack : Option ConnNode × Container :=
  (c.nodes.getLast?, { c with nodes := c.nodes.dropLast, count := c.count - 1 })

def initializeNodes (isWriter : Bool) (max : Int) (disable acquire : Bool)
    (opens : Nat → Except RdbError Unit) : Except RdbError (Option ConnNode) × Container :=
  match extendNodes max.toNat opens (c.initMembers isWriter max disable) with
  | (.error e, c') => (.error e, c')
  | (.ok _, c') =>
    if acquire ∧ 0 < c'.count then (.ok c'.popBack.1, c'.popBack.2) else (.ok none, c')

def acquire (first : Bool) (opened : Except RdbError Unit) :
    Except RdbError (Option ConnNode) × Container :=
  if first ∧ c.max = 0 then (.error .error, c)
  else if 0 < c.count then take c
  else if c.disable then (.ok none, c)
  else
    match c.extendNode opened with
    | (.ok _, c') => take c'
    | (.error e, c') => (.error e, c')
where
  take (c : Container) : Except RdbError (Option ConnNode) × Container :=
    if c.nodes.isEmpty then (.error .error, { c with count := 0 })
    else (.ok c.popBack.1, c.popBack.2)

def nodeAfter (id : Int) : List ConnNode → Option ConnNode
  | [] => none
  | n :: ns =>
    match nodeAfter id ns with
    | none => if (n.id : Int) ≤ id then none else some n
    | some m => if (n.id : Int) ≤ id then some m else if m.id < n.id then some m else some n

def acquireById (id : Int) : Option ConnNode × Container :=
  if c.count = 0 then (none, c)
  else
    match nodeAfter id c.nodes with
    | none => (none, c)
    | some n => (some n, { c with count := c.count - 1, nodes := c.nodes.erase n })

def release (node : ConnNode) : Container :=
  if node.id < c.left ∨ c.right ≤ node.id then c
  else if c.count = c.max then
    { c with total := if c.count < c.total then c.total - 1 else c.count }
  else { c with nodes := node :: c.nodes, count := c.count + 1 }

def releaseTrans (node : ConnNode) (recyclable : Bool) : Container :=
  if node.id < c.left ∨ c.right ≤ node.id then c
  else if recyclable then { c with nodes := c.nodes ++ [node], count := c.count + 1 }
  else { c with total := c.total - 1 }

def clearUnusedTrans (unused : ConnNode → Bool) : Container :=
  { c with
    nodes := c.nodes.filter fun n => !unused n
    total := c.total - c.nodes.countP unused
    count := c.count - c.nodes.countP unused }

def clear : Container :=
  let right := if MAX_RIGHT < c.right then 0 else c.right
  { c with
    nodes := [], disable := true, total := 0, count := 0, right, left := right
    creator := none, epoch := c.epoch + 1 }

section
variable (before : ConnNode → ConnNode → Bool)

def mergeNodes : List ConnNode → List ConnNode → List ConnNode
  | [], r => r
  | n :: l, r => r.takeWhile (before · n) ++ n :: mergeNodes l (r.dropWhile (before · n))

def gather (c : Container) (g : Gathering) : Gathering × Container :=
  ({ g with nodes := mergeNodes before g.nodes c.nodes, count := g.count + c.count },
    { c with nodes := [], count := 0 })

def putBack (c : Container) (g : Gathering) : Container :=
  { c with nodes := g.nodes, count := g.count }

def checkAll (c : Container) (g : Gathering) (free : Bool) : GatherResult × Container :=
  if g.count ≠ c.total then (.failed, c.putBack g)
  else if free then (.acquired g.nodes, c)
  else (.waiting { g with checking := true }, c)

def gatherLoop (c : Container) (g : Gathering) (free : Bool) : GatherResult × Container :=
  let (g', c') := c.gather before g
  if g'.count < c'.total then (.waiting g', c') else c'.checkAll g' free

def acquireAll (c : Container) (free : Bool) : GatherResult × Container :=
  let g : Gathering := ⟨[], 0, false⟩
  if g.count < c.total then
    if 0 < c.count then c.gatherLoop before g free else (.waiting g, c)
  else c.checkAll g free

def wake (c : Container) (g : Gathering) (free : Bool) : GatherResult × Container :=
  if g.checking then (if free then .acquired g.nodes else .waiting g, c)
  else if 0 < c.count then c.gatherLoop before g free
  else (.waiting g, c)

def timeout (c : Container) (g : Gathering) (free : Bool) : GatherResult × Container :=
  if g.checking then (.failed, c.putBack g)
  else if 0 < c.count then c.gatherLoop before g free
  else c.checkAll g free

end

end Container

/-! ## Spec lemmas of the container -/

namespace Container
variable {c c' : Container} {n : ConnNode} {g : Gathering}

theorem extendNode_ok (h : c.extendNode opened = (.ok u, c')) :
    ∃ isWriter, opened = .ok u ∧ c' = { c with
      right := c.right + 1, nodes := c.nodes ++ [c.nextNode isWriter]
      count := c.count + 1, total := c.total + 1, created := c.created + 1 } := by
  unfold extendNode at h
  split at h
  · cases h
  · cases h
  · exact ⟨_, rfl, (congrArg Prod.snd h).symm⟩

variable {e : RdbError}

theorem extendNode_error (h : c.extendNode opened = (.error e, c')) :
    c' = c ∧ (c.creator = none ∨ opened = .error e) := by
  unfold extendNode at h
  split at h
  next hnone => exact ⟨(congrArg Prod.snd h).symm, .inl hnone⟩
  · cases h
    exact ⟨rfl, .inr rfl⟩
  · cases h

theorem popBack_perm (h : c.nodes ≠ []) :
    (c.popBack.2.nodes ++ c.popBack.1.toList).Perm c.nodes := by
  simp only [popBack, getLast?_eq_getLast_of_ne_nil h, Option.toList_some,
    dropLast_append_getLast h]
  exact .rfl

variable {opens : Nat → Except RdbError Unit} {k : Nat}

theorem extendNodes_ok (h : extendNodes k opens c = (.ok u, c')) :
    c'.total = c.total + k ∧ c'.count = c.count + k ∧ c'.nodes.length = c.nodes.length + k := by
  induction k generalizing c opens with
  | zero =>
    cases h
    simp
  | succ k ih =>
    rw [extendNodes] at h
    split at h
    next hex =>
      obtain ⟨_, _, rfl⟩ := extendNode_ok hex
      obtain ⟨htotal, hcount, hlen⟩ := ih h
      simp only [length_append, length_singleton] at htotal hcount hlen
      refine ⟨?_, ?_, ?_⟩ <;> omega
    · cases h

variable {isWriter : Bool}

theorem extendNodes_error (hcreator : c.creator = some isWriter)
    (h : extendNodes k opens c = (.error e, c')) :
    ∃ j < k, (∀ i < j, opens i = .ok ()) ∧ opens j = .error e ∧
      c'.total = c.total + j ∧ c'.count = c.count + j ∧ c'.nodes = [] := by
  induction k generalizing c opens with
  | zero => cases h
  | succ k ih =>
    rw [extendNodes] at h
    split at h
    next hex =>
      obtain ⟨_, hopen, rfl⟩ := extendNode_ok hex
      obtain ⟨j, hj, hbefore, hfail, htotal, hcount, hnil⟩ := ih (by exact hcreator) h
      refine ⟨j + 1, Nat.succ_lt_succ hj, fun i hi => ?_, hfail, ?_, ?_, hnil⟩
      · cases i with
        | zero => exact hopen
        | succ i => exact hbefore i (Nat.lt_of_succ_lt_succ hi)
      · simp only at htotal
        omega
      · simp only at hcount
        omega
    next hex =>
      cases h
      obtain ⟨rfl, hnone | hopen⟩ := extendNode_error hex
      · rw [hcreator] at hnone
        cases hnone
      · exact ⟨0, k.succ_pos, fun i hi => absurd hi i.not_lt_zero, hopen, by simp, by simp, rfl⟩

theorem extendNodes_of_error (hcreator : c.creator = some isWriter) (hj : j < k)
    (hbefore : ∀ i < j, opens i = .ok ()) (hfail : opens j = .error e) :
    (extendNodes k opens c).1 = .error e := by
  induction k generalizing c opens j with
  | zero => exact absurd hj j.not_lt_zero
  | succ k ih =>
    cases j with
    | zero => simp only [extendNodes, extendNode, hcreator, hfail]
    | succ j =>
      simp only [extendNodes, extendNode, hcreator, hbefore 0 j.succ_pos]
      exact ih rfl (Nat.lt_of_succ_lt_succ hj) (fun i hi => hbefore _ (Nat.succ_lt_succ hi)) hfail

variable {max : Int}

theorem initializeNodes_ok {disable acquire : Bool}
    (h : c.initializeNodes isWriter max disable acquire opens = (.ok node, c')) :
    c'.total = c.total + max.toNat ∧
      (0 < max → (c'.count = c'.nodes.length ↔ c.count = c.nodes.length)) ∧
      (acquire = false → c'.nodes.length = c.nodes.length + max.toNat) := by
  unfold initializeNodes at h
  split at h
  · cases h
  rename_i u filled hfill
  obtain ⟨htotal, hcount, hlen⟩ := extendNodes_ok hfill
  simp only [initMembers] at htotal hcount hlen
  split at h
  next hacq =>
    cases h
    refine ⟨htotal, fun hmax => ?_, fun hno => absurd hacq.1 (by simp [hno])⟩
    simp only [popBack, length_dropLast]
    omega
  · cases h
    exact ⟨htotal, fun _ => by omega, fun _ => hlen⟩

theorem initializeNodes_error {disable acquire : Bool}
    (h : c.initializeNodes isWriter max disable acquire opens = (.error e, c')) :
    ∃ j < max.toNat, (∀ i < j, opens i = .ok ()) ∧ opens j = .error e ∧
      c'.total = c.total + j ∧ c'.count = c.count + j ∧ c'.nodes = [] := by
  unfold initializeNodes at h
  split at h
  next hfill =>
    cases h
    exact extendNodes_error (c := c.initMembers isWriter max disable) rfl hfill
  · split at h <;> cases h

theorem initializeNodes_of_error (c : Container) (isWriter disable acquire : Bool)
    (hj : j < max.toNat) (hbefore : ∀ i < j, opens i = .ok ()) (hfail : opens j = .error e) :
    (c.initializeNodes isWriter max disable acquire opens).1 = .error e := by
  have hfill := extendNodes_of_error (c := c.initMembers isWriter max disable) rfl hj hbefore hfail
  unfold initializeNodes
  split
  next heq =>
    rw [heq] at hfill
    exact congrArg Except.error (Except.error.inj hfill)
  next heq =>
    rw [heq] at hfill
    cases hfill

theorem mergeNodes_perm (before : ConnNode → ConnNode → Bool) (l r : List ConnNode) :
    (mergeNodes before l r).Perm (l ++ r) := by
  induction l generalizing r with
  | nil => exact .rfl
  | cons n l ih =>
    refine perm_middle.trans (List.Perm.cons n ?_)
    refine ((ih _).append_left _).trans ?_
    rw [← append_assoc]
    refine (perm_append_comm.append_right _).trans ?_
    rw [append_assoc, takeWhile_append_dropWhile]
    exact .rfl

theorem take_of_ne_nil (h : c.nodes ≠ []) :
    acquire.take c = (.ok c.popBack.1, c.popBack.2) := by
  unfold acquire.take
  rw [if_neg]
  simpa using h

theorem nodeAfter_mem {id : Int} (h : nodeAfter id l = some n) : n ∈ l := by
  induction l generalizing n with
  | nil => cases h
  | cons m ms ih =>
    simp only [nodeAfter] at h
    split at h
    · split at h
      · cases h
      · cases h
        exact mem_cons_self
    next m' hm' =>
      split at h
      · cases h
        exact mem_cons_of_mem _ (ih hm')
      · split at h <;> cases h
        · exact mem_cons_of_mem _ (ih hm')
        · exact mem_cons_self

end Container

structure Lending where
  box : Container
  lent : List ConnNode
  gathering : List Gathering
  deriving DecidableEq, Repr

inductive ContainerStep where
  | initializeNodes (isWriter : Bool) (max : Int) (disable acquire : Bool)
      (opens : Nat → Except RdbError Unit)
  | initMembers (isWriter : Bool) (max : Int) (disable : Bool)
  | acquire (first : Bool) (opened : Except RdbError Unit)
  | acquireById (id : Int)
  | acquireAll (free : Bool)
  | wake (g : Gathering) (free : Bool)
  | timeout (g : Gathering) (free : Bool)
  | release (node : ConnNode)
  | releaseTrans (node : ConnNode) (recyclable : Bool)
  | clearUnusedTrans (unused : ConnNode → Bool)
  | disable
  | enable
  | clear

namespace Lending

variable (s : Lending)

def lend (node : Option ConnNode) (box : Container) : Lending :=
  { s with box, lent := node.toList ++ s.lent }

def gathered : GatherResult × Container → Lending
  | (.waiting g, box) => { s with box, gathering := g :: s.gathering }
  | (.failed, box) => { s with box }
  | (.acquired nodes, box) => { s with box, lent := nodes ++ s.lent }

def resume (g : Gathering) (result : GatherResult × Container) : Lending :=
  if g ∈ s.gathering then { s with gathering := s.gathering.erase g }.gathered result else s

def giveBack (node : ConnNode) (box : Container) : Lending :=
  if node ∈ s.lent then { s with box, lent := s.lent.erase node } else s

def step (before : ConnNode → ConnNode → Bool) (s : Lending) : ContainerStep → Unit × Lending
  | .initializeNodes isWriter max disable acquire opens =>
    match s.box.initializeNodes isWriter max disable acquire opens with
    | (.ok node, box) => ((), s.lend node box)
    | (.error _, box) => ((), { s with box })
  | .initMembers isWriter max disable =>
    ((), { s with box := s.box.initMembers isWriter max disable })
  | .acquire first opened =>
    match s.box.acquire first opened with
    | (.ok node, box) => ((), s.lend node box)
    | (.error _, box) => ((), { s with box })
  | .acquireById id => ((), s.lend (s.box.acquireById id).1 (s.box.acquireById id).2)
  | .acquireAll free => ((), s.gathered (s.box.acquireAll before free))
  | .wake g free => ((), s.resume g (s.box.wake before g free))
  | .timeout g free => ((), s.resume g (s.box.timeout before g free))
  | .release node => ((), s.giveBack node (s.box.release node))
  | .releaseTrans node recyclable =>
    ((), s.giveBack node (s.box.releaseTrans node recyclable))
  | .clearUnusedTrans unused => ((), { s with box := s.box.clearUnusedTrans unused })
  | .disable => ((), { s with box.disable := true })
  | .enable => ((), { s with box.disable := false })
  | .clear => ((), { s with box := s.box.clear })

def initial (start : Nat) : Lending := ⟨.fresh start, [], []⟩

def out : List ConnNode := s.gathering.flatMap (·.nodes) ++ s.lent

end Lending

end RelationalStore.ConnPool
