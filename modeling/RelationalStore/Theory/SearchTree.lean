import RelationalStore.Theory.Comparison

/-! Sets kept in a search tree.

An ordered set of the standard library compares a new element with the nodes on its way down. -/

namespace RelationalStore

open List

inductive SearchTree (α : Type _) where
  | leaf
  | node (left : SearchTree α) (a : α) (right : SearchTree α)

namespace SearchTree
variable {α : Type _}

def inorder : SearchTree α → List α
  | leaf => []
  | node left a right => left.inorder ++ a :: right.inorder

def find (toLeft toRight : α → Bool) : SearchTree α → Option α
  | leaf => none
  | node left a right =>
    if toLeft a then left.find toLeft toRight
    else if toRight a then right.find toLeft toRight
    else some a

def put (toLeft toRight : α → Bool) (b : α) : SearchTree α → SearchTree α
  | leaf => node leaf b leaf
  | node left a right =>
    if toLeft a then node (left.put toLeft toRight b) a right
    else if toRight a then node left a (right.put toLeft toRight b)
    else node left a right

def ofList : List α → SearchTree α
  | [] => leaf
  | a :: as => node leaf a (ofList as)

variable {toLeft toRight : α → Bool} {a b : α} {t : SearchTree α}

@[simp] theorem inorder_ofList (as : List α) : (ofList as).inorder = as := by
  induction as with
  | nil => rfl
  | cons a as ih => simp [ofList, inorder, ih]

theorem of_find_eq_some (h : t.find toLeft toRight = some a) :
    a ∈ t.inorder ∧ toLeft a = false ∧ toRight a = false := by
  induction t with
  | leaf => exact nomatch h
  | node left b right ihLeft ihRight =>
    unfold find at h
    split at h
    · have hleft := ihLeft h
      exact ⟨mem_append_left _ hleft.1, hleft.2⟩
    · split at h
      · have hright := ihRight h
        exact ⟨mem_append_right _ (mem_cons_of_mem _ hright.1), hright.2⟩
      next hb hb' =>
        cases h
        exact ⟨mem_append_right _ mem_cons_self, eq_false_of_ne_true hb,
          eq_false_of_ne_true hb'⟩

theorem mem_inorder_put (h : t.find toLeft toRight = none) :
    a ∈ (t.put toLeft toRight b).inorder ↔ a = b ∨ a ∈ t.inorder := by
  induction t with
  | leaf => simp [put, inorder]
  | node left c right ihLeft ihRight =>
    unfold find at h
    unfold put
    split at h
    next hc => simp [hc, inorder, ihLeft h, or_assoc]
    · split at h
      next hc hc' =>
        simp only [hc, hc', inorder, mem_append, mem_cons, ihRight h, if_true, if_false,
          Bool.false_eq_true]
        grind
      · exact nomatch h

end SearchTree

structure Balance (α : Type _) where
  run : SearchTree α → SearchTree α
  inorder_run : ∀ t, (run t).inorder = t.inorder

namespace Balance
variable {α : Type _}

def none : Balance α := ⟨id, fun _ => rfl⟩

theorem takeWhile_append_cons [DecidableEq α] {as : List α} (h : a ∈ as) :
    as.takeWhile (· ≠ a) ++ a :: (as.dropWhile (· ≠ a)).tail = as := by
  induction as with
  | nil => exact nomatch h
  | cons b as ih =>
    by_cases hb : b = a
    · simp [hb]
    · have hmem : a ∈ as := (mem_cons.mp h).resolve_left (Ne.symm hb)
      simpa [hb] using ih hmem

def rootAt [DecidableEq α] (a : α) : Balance α where
  run t :=
    if a ∈ t.inorder then
      .node (.ofList (t.inorder.takeWhile (· ≠ a))) a (.ofList (t.inorder.dropWhile (· ≠ a)).tail)
    else t
  inorder_run t := by
    split
    next hmem =>
      rw [SearchTree.inorder, SearchTree.inorder_ofList, SearchTree.inorder_ofList,
        takeWhile_append_cons hmem]
    · rfl

end Balance

structure NodeSet (α : Type _) where
  heap : List α
  tree : SearchTree Nat

namespace NodeSet
variable {α : Type _}

def empty : NodeSet α := ⟨[], .leaf⟩

section
variable (balance : Balance Nat) (lt : α → α → Bool) (s : NodeSet α) (a : α)

def isBefore (i : Nat) : Bool := s.heap[i]?.any (lt a ·)

def isAfter (i : Nat) : Bool := s.heap[i]?.any (lt · a)

def insert : Nat × NodeSet α :=
  match s.tree.find (s.isBefore lt a) (s.isAfter lt a) with
  | some i => (i, s)
  | none =>
    (s.heap.length, ⟨s.heap ++ [a],
      balance.run (s.tree.put (s.isBefore lt a) (s.isAfter lt a) s.heap.length)⟩)

def insertAll : NodeSet α → List α → List Nat × NodeSet α
  | s, [] => ([], s)
  | s, a :: as =>
    ((insert balance lt s a).1 :: (insertAll (insert balance lt s a).2 as).1,
      (insertAll (insert balance lt s a).2 as).2)

end

def Valid (s : NodeSet α) : Prop := ∀ i ∈ s.tree.inorder, i < s.heap.length

variable {balance : Balance Nat} {lt : α → α → Bool} {s : NodeSet α} {a : α}

theorem valid_empty : (empty : NodeSet α).Valid := fun _ h => nomatch h

theorem insert_cases (balance : Balance Nat) (lt : α → α → Bool) (a : α) (hs : s.Valid) :
    (s.tree.find (s.isBefore lt a) (s.isAfter lt a) = none ∧
      (insert balance lt s a).1 = s.heap.length ∧
      (insert balance lt s a).2.heap = s.heap ++ [a] ∧
      (insert balance lt s a).2.tree =
        balance.run (s.tree.put (s.isBefore lt a) (s.isAfter lt a) s.heap.length)) ∨
    (insert balance lt s a).2 = s ∧
      ∃ b, s.heap[(insert balance lt s a).1]? = some b ∧ Alike lt a b := by
  unfold insert
  cases hfind : s.tree.find (s.isBefore lt a) (s.isAfter lt a) with
  | none => exact .inl ⟨rfl, rfl, rfl, rfl⟩
  | some i =>
    obtain ⟨hmem, hbefore, hafter⟩ := SearchTree.of_find_eq_some hfind
    obtain ⟨b, hb⟩ : ∃ b, s.heap[i]? = some b := ⟨_, List.getElem?_eq_getElem (hs i hmem)⟩
    rw [isBefore, hb] at hbefore
    rw [isAfter, hb] at hafter
    exact .inr ⟨rfl, b, hb, hbefore, hafter⟩

theorem Valid.insert (hs : s.Valid) : (insert balance lt s a).2.Valid := by
  rcases insert_cases balance lt a hs with
    ⟨hfind, -, hheap, htree⟩ | ⟨heq, -⟩
  · intro i hi
    rw [htree, balance.inorder_run, SearchTree.mem_inorder_put hfind] at hi
    rw [hheap, length_append, length_singleton]
    rcases hi with rfl | hi
    · exact Nat.lt_succ_self _
    · exact Nat.lt_succ_of_lt (hs i hi)
  · rwa [heq]

theorem insert_address (hs : s.Valid) :
    (insert balance lt s a).1 < (insert balance lt s a).2.heap.length := by
  rcases insert_cases balance lt a hs with
    ⟨-, haddress, hheap, -⟩ | ⟨heq, b, hb, -⟩
  · rw [haddress, hheap, length_append, length_singleton]
    exact Nat.lt_succ_self _
  · rw [heq]
    exact (List.getElem?_eq_some_iff.mp hb).1

theorem heap_insert : s.heap <+: (insert balance lt s a).2.heap := by
  unfold insert
  split
  · exact prefix_rfl
  · exact prefix_append _ _

theorem heap_insertAll (as : List α) : s.heap <+: (insertAll balance lt s as).2.heap := by
  induction as generalizing s with
  | nil => exact prefix_rfl
  | cons a as ih => exact heap_insert.trans ih

variable {as : List α} {b : α}

theorem mem_heap_insertAll (h : b ∈ (insertAll balance lt s as).2.heap) : b ∈ s.heap ∨ b ∈ as := by
  induction as generalizing s with
  | nil => exact .inl h
  | cons a as ih =>
    rcases ih h with hb | hb
    · unfold insert at hb
      split at hb
      · exact .inl hb
      · exact (mem_append.mp hb).imp_right fun ha => by simp_all
    · exact .inr (mem_cons_of_mem _ hb)

theorem Valid.insertAll (hs : s.Valid) (as : List α) : (insertAll balance lt s as).2.Valid := by
  induction as generalizing s with
  | nil => exact hs
  | cons a as ih => exact ih hs.insert

theorem insertAll_append (as bs : List α) :
    insertAll balance lt s (as ++ bs) =
      ((insertAll balance lt s as).1 ++ (insertAll balance lt (insertAll balance lt s as).2 bs).1,
        (insertAll balance lt (insertAll balance lt s as).2 bs).2) := by
  induction as generalizing s with
  | nil => rfl
  | cons a as ih => simp only [cons_append, insertAll, ih]

theorem length_insertAll (as : List α) : (insertAll balance lt s as).1.length = as.length := by
  induction as generalizing s with
  | nil => rfl
  | cons a as ih => exact congrArg (· + 1) ih

/-! ## Finding again what was inserted -/

/-- Behind every address is the element that was inserted. -/
def Faithful (balance : Balance Nat) (lt : α → α → Bool) (s : NodeSet α) (as : List α) : Prop :=
  (insertAll balance lt s as).1.map ((insertAll balance lt s as).2.heap[·]?) = as.map some

theorem faithful_cons (hs : s.Valid) :
    Faithful balance lt s (a :: as) ↔
      (insert balance lt s a).2.heap[(insert balance lt s a).1]? = some a ∧
        Faithful balance lt (insert balance lt s a).2 as := by
  obtain ⟨rest, hrest⟩ : (insert balance lt s a).2.heap <+:
      (insertAll balance lt (insert balance lt s a).2 as).2.heap := heap_insertAll as
  have hkeep :
      (insertAll balance lt (insert balance lt s a).2 as).2.heap[(insert balance lt s a).1]? =
        (insert balance lt s a).2.heap[(insert balance lt s a).1]? :=
    hrest ▸ getElem?_append_left (insert_address hs)
  simp only [Faithful, insertAll, map_cons, List.cons.injEq]
  rw [hkeep]

theorem Faithful.append_right (hs : s.Valid) (h : Faithful balance lt s (as ++ bs)) :
    Faithful balance lt (insertAll balance lt s as).2 bs := by
  induction as generalizing s with
  | nil => exact h
  | cons a as ih => exact ih hs.insert ((faithful_cons hs).mp h).2

theorem faithful_of_distinct {all : List α} (hs : s.Valid) (hheap : ∀ b ∈ s.heap, b ∈ all)
    (has : ∀ a ∈ as, a ∈ all) (hdistinct : ∀ a ∈ all, ∀ b ∈ all, Alike lt a b → a = b) :
    Faithful balance lt s as := by
  induction as generalizing s with
  | nil => rfl
  | cons a as ih =>
    have ha : a ∈ all := has a mem_cons_self
    have htail : ∀ b ∈ as, b ∈ all := fun b hb => has b (mem_cons_of_mem _ hb)
    rw [faithful_cons hs]
    rcases insert_cases balance lt a hs with
      ⟨-, haddress, hnew, -⟩ | ⟨heq, b, hb, halike⟩
    · refine ⟨by rw [haddress, hnew]; simp, ih hs.insert ?_ htail⟩
      rw [hnew]
      intro b hb
      rcases mem_append.mp hb with hb | hb
      · exact hheap b hb
      · exact mem_singleton.mp hb ▸ ha
    · rw [heq]
      exact ⟨hdistinct a ha b (hheap b (mem_of_getElem? hb)) halike ▸ hb, ih hs hheap htail⟩

theorem insertAll_congr
    (hrun : ∀ t : SearchTree Nat, (∀ i ∈ t.inorder, i < n) → balance'.run t = balance.run t)
    (hs : s.Valid) (hn : (insertAll balance lt s as).2.heap.length ≤ n) :
    insertAll balance' lt s as = insertAll balance lt s as := by
  induction as generalizing s with
  | nil => rfl
  | cons a as ih =>
    have hlength : (insert balance lt s a).2.heap.length ≤ n :=
      Nat.le_trans (heap_insertAll as).length_le hn
    have hinsert : insert balance' lt s a = insert balance lt s a := by
      have hvalid : (insert balance lt s a).2.Valid := hs.insert
      unfold insert at hlength hvalid ⊢
      split
      · rfl
      next hfind =>
        rw [hfind] at hlength hvalid
        rw [hrun _ fun i hi => Nat.lt_of_lt_of_le (hvalid i (by rwa [balance.inorder_run])) hlength]
    simp only [insertAll, hinsert]
    rw [ih hs.insert hn]

def Rooted (s : NodeSet α) (i : Nat) (a : α) : Prop :=
  s.heap[i]? = some a ∧ ∃ left right, s.tree = .node left i right

theorem Rooted.insert (hs : s.Valid) (h : s.Rooted i b) :
    (insert (.rootAt i) lt s a).2.Rooted i b := by
  obtain ⟨hb, left, right, htree⟩ := h
  rcases insert_cases (.rootAt i) lt a hs with
    ⟨hfind, -, hheap, hrun⟩ | ⟨heq, -⟩
  · refine ⟨hheap ▸ getElem?_append_left (List.getElem?_eq_some_iff.mp hb).1 ▸ hb, ?_⟩
    have hmem : i ∈ (s.tree.put (s.isBefore lt a) (s.isAfter lt a) s.heap.length).inorder := by
      rw [SearchTree.mem_inorder_put hfind, htree]
      exact .inr (mem_append_right _ mem_cons_self)
    exact ⟨_, _, hrun.trans (if_pos hmem)⟩
  · rw [heq]
    exact ⟨hb, left, right, htree⟩

theorem Rooted.eq_of_faithful (hs : s.Valid) (h : s.Rooted i b)
    (hfaithful : Faithful (.rootAt i) lt s as) (ha : a ∈ as) (halike : Alike lt a b) : a = b := by
  induction as generalizing s with
  | nil => exact nomatch ha
  | cons c as ih =>
    obtain ⟨hhead, htail⟩ := (faithful_cons hs).mp hfaithful
    rcases mem_cons.mp ha with rfl | ha
    · obtain ⟨hb, left, right, htree⟩ := h
      have hfound : NodeSet.insert (.rootAt i) lt s a = (i, s) := by
        unfold NodeSet.insert
        simp [htree, SearchTree.find, isBefore, isAfter, hb, halike.1, halike.2]
      rw [hfound] at hhead
      exact Option.some.inj (hhead.symm.trans hb)
    · exact ih hs.insert (h.insert hs) htail ha

theorem eq_of_faithful_append {before after : List α} (hfresh : c ∉ before)
    (h : ∀ balance, Faithful balance lt empty (before ++ c :: after)) (hd : d ∈ after)
    (halike : Alike lt d c) : d = c := by
  let s := (insertAll .none lt empty before).2
  let i := s.heap.length
  have hs : s.Valid := valid_empty.insertAll before
  have hsame : insertAll (.rootAt i) lt empty before = insertAll .none lt empty before :=
    insertAll_congr (fun t ht => if_neg fun hi => Nat.lt_irrefl i (ht i hi)) valid_empty
      (Nat.le_refl i)
  have hrest : Faithful (.rootAt i) lt s (c :: after) := by
    have hright := (h (.rootAt i)).append_right valid_empty
    rwa [hsame] at hright
  obtain ⟨hc, hafter⟩ := (faithful_cons hs).mp hrest
  refine Rooted.eq_of_faithful hs.insert (i := i) ?_ hafter hd halike
  rcases insert_cases (.rootAt i) lt c hs with
    ⟨hfind, -, hheap, hrun⟩ | ⟨heq, b, hb, -⟩
  · have hmem : i ∈ (s.tree.put (s.isBefore lt c) (s.isAfter lt c) s.heap.length).inorder :=
      (SearchTree.mem_inorder_put hfind).mpr (.inl rfl)
    exact ⟨by rw [hheap]; simp [i], _, _, hrun.trans (if_pos hmem)⟩
  · rw [heq, hb] at hc
    have hmem : c ∈ s.heap := Option.some.inj hc ▸ mem_of_getElem? hb
    exact absurd ((mem_heap_insertAll hmem).resolve_left fun hnil => nomatch hnil) hfresh

theorem faithful_iff (as : List α) :
    (∀ balance, Faithful balance lt empty as) ↔ ∀ a ∈ as, ∀ b ∈ as, Alike lt a b → a = b := by
  classical
  constructor
  · intro h a ha b hb halike
    by_contra hne
    -- the first of the two becomes a node, which is then made the root
    obtain ⟨c, hfind⟩ := Option.isSome_iff_exists.mp
      (find?_isSome (p := fun c => decide (c = a ∨ c = b)).mpr ⟨a, ha, by simp⟩)
    obtain ⟨hc, before, after, rfl, hbefore⟩ := find?_eq_some_iff_append.mp hfind
    obtain ⟨d, hd, hdc, halike⟩ : ∃ d ∈ after, d ≠ c ∧ Alike lt d c := by
      have hnot : ∀ x ∈ before, x ≠ a ∧ x ≠ b := fun x hx => by simpa using hbefore x hx
      rcases of_decide_eq_true hc with rfl | rfl
      · have hmem := (mem_append.mp hb).resolve_left fun hx => (hnot b hx).2 rfl
        exact ⟨b, (mem_cons.mp hmem).resolve_left (Ne.symm hne), Ne.symm hne,
          alike_comm.mp halike⟩
      · have hmem := (mem_append.mp ha).resolve_left fun hx => (hnot a hx).1 rfl
        exact ⟨a, (mem_cons.mp hmem).resolve_left hne, hne, halike⟩
    have hfresh : c ∉ before := fun hx => by simpa [of_decide_eq_true hc] using hbefore c hx
    exact hdc (eq_of_faithful_append hfresh h hd halike)
  · exact fun h balance => faithful_of_distinct valid_empty (fun _ h => nomatch h) (fun _ h => h) h

end NodeSet

end RelationalStore
