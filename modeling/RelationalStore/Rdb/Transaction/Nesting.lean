import RelationalStore.Rdb.Transaction.Basic

/-! # The stack implements nested transactions

A store whose statements are all executed keeps the contents of the ideal `Nesting`. -/

namespace RelationalStore

open BaseTransaction

variable {D : Type} {s : Store D} {n : Nesting D}

def Nesting.call (n : Nesting D) : TxnCall D → Nesting D
  | .beginTransaction _ => n.begin
  | .commit _ => n.commit
  | .rollBack _ => n.rollback
  | .write f => n.write f

/-- The statements of the call are executed. `RollBack` without an open level has none. -/
def Store.Executes (s : Store D) (c : TxnCall D) : Prop :=
  match c with
  | .rollBack _ => s.stack ≠ [] → (s.call c).1 = .ok ()
  | _ => (s.call c).1 = .ok ()

instance (s : Store D) : (c : TxnCall D) → Decidable (s.Executes c)
  | .rollBack o => inferInstanceAs (Decidable (_ → (s.rollBack o).1 = .ok ()))
  | .beginTransaction o => inferInstanceAs (Decidable ((s.beginTransaction o).1 = .ok ()))
  | .commit o => inferInstanceAs (Decidable ((s.commit o).1 = .ok ()))
  | .write _ => .isTrue rfl

def nestingStep (s : Store D × Nesting D) (c : TxnCall D) :
    Except RdbError Unit × Store D × Nesting D :=
  ((s.1.call c).1, (s.1.call c).2, s.2.call c)

def levelName (d : Nat) : String := (ofSize d).transStr

structure Tracks (s : Store D) (n : Nesting D) : Prop where
  usable : s.checkUsable = .ok ()
  stack : s.stack = stackOf n.levels.length
  depth : n.levels.length ≤ 2 ^ 32
  agrees : Agrees levelName s.db n

namespace Tracks

section
variable (h : Tracks s n)
include h

theorem stack_length : s.stack.length = n.levels.length := by
  rw [h.stack, length_stackOf]

theorem levelName_ne (hpos : 1 ≤ n.levels.length) :
    ∀ i, 1 ≤ i → i < n.levels.length - 1 →
      levelName (n.levels.length - 1) ≠ levelName i := by
  intro i _ hi
  have := h.depth
  exact transStr_ne hi (by omega)

theorem beginTransaction (hok : (s.beginTransaction o).1 = .ok ()) :
    Tracks (s.beginTransaction o).2 n.begin := by
  rcases s.beginTransaction_cases (o := o) h.usable with ⟨err, herr⟩ | ⟨db, hrun, heq⟩
  · rw [herr] at hok
    exact nomatch hok
  rw [heq]
  rw [h.stack_length] at hrun ⊢
  have hstack : ofSize n.levels.length :: s.stack =
        stackOf n.begin.levels.length := by
    rw [h.stack]
    rfl
  cases hl : n.levels with
  | nil =>
    obtain ⟨db', hexec, hagrees⟩ := h.agrees.begin hl
    rw [hl, List.length_nil, getTransactionStr,
      if_pos id_ofSize_zero] at hrun
    obtain rfl := Option.some.inj (hrun.symm.trans hexec)
    have hlen : n.begin.levels.length = 1 := by rw [Nesting.begin, hl]; rfl
    exact ⟨h.usable, hl ▸ hstack, by omega, hagrees⟩
  | cons log outer =>
    have hne : n.levels ≠ [] := by rw [hl]; exact List.cons_ne_nil log outer
    have hpos : 0 < n.levels.length := List.length_pos_iff.mpr hne
    obtain ⟨db', hexec, hagrees⟩ := h.agrees.savepoint hne
    by_cases hfull : n.levels.length = 2 ^ 32
    · -- the id is `0` again: the connection refuses a second `BEGIN`
      obtain ⟨savepoints, htxn, _⟩ := h.agrees.opened hne
      rw [hfull, getTransactionStr, if_pos (by decide), TransSql.run, Db.exec,
        htxn] at hrun
      cases hrun
    have hlt : n.levels.length < 2 ^ 32 := Nat.lt_of_le_of_ne h.depth hfull
    have hid : (ofSize n.levels.length).id ≠ 0 := by
      rw [Ne, id_eq_zero hlt]
      omega
    rw [getTransactionStr, if_neg hid] at hrun
    obtain rfl := Option.some.inj (hrun.symm.trans hexec)
    exact ⟨h.usable, hl ▸ hstack, hlt, hagrees⟩

theorem commit (hok : (s.commit o).1 = .ok ()) :
    Tracks (s.commit o).2 n.commit := by
  match hl : n.levels with
  | [] =>
    have hstack : s.stack = [] := by rw [h.stack, hl]; rfl
    rw [s.commit_nil h.usable hstack, Nesting.commit, hl]
    exact h
  | [log] =>
    have hstack : s.stack = stackOf (0 + 1) := by rw [h.stack, hl]; rfl
    obtain ⟨db', hexec, hagrees⟩ := h.agrees.commit_outer (by rw [hl]; rfl)
    rcases s.commit_outer (o := o) h.usable hstack id_ofSize_zero with
      ⟨err, herr⟩ | ⟨db, hrun, heq⟩
    · rw [herr] at hok
      cases hok
    obtain rfl := Option.some.inj (hrun.symm.trans hexec)
    have hlevels : n.commit.levels = [] := by rw [Nesting.commit, hl]
    rw [heq]
    exact ⟨h.usable, by rw [hlevels]; rfl, by rw [hlevels]; exact Nat.zero_le _, hagrees⟩
  | log :: parent :: outer =>
    have hlen : n.levels.length = outer.length + 1 + 1 := by rw [hl]; rfl
    have hdepth := h.depth
    have hid : (ofSize (outer.length + 1)).id ≠ 0 := by
      rw [Ne, id_eq_zero (by omega)]
      omega
    have hlevels : n.commit.levels.length = outer.length + 1 := by rw [Nesting.commit, hl]; rfl
    rw [s.commit_inner h.usable (h.stack.trans (by rw [hlen])) hid]
    refine ⟨h.usable, by rw [hlevels], by omega, ?_⟩
    exact h.agrees.commit_inner (by omega) (h.levelName_ne (by omega))

theorem run_getRollbackStr (hlen : n.levels.length = d + 1) :
    ∃ db, (ofSize d).getRollbackStr.run s.db = some db ∧
      Agrees levelName db n.rollback := by
  have hdepth := h.depth
  have hid := id_eq_zero (d := d) (by omega)
  by_cases hd : d = 0
  · rw [getRollbackStr, if_pos (hid.mpr hd)]
    exact h.agrees.rollback_outer (by omega)
  · rw [getRollbackStr, if_neg (mt hid.mp hd)]
    have hinner := h.agrees.rollback_inner (by omega) (h.levelName_ne (by omega))
    rwa [hlen, Nat.add_sub_cancel] at hinner

theorem rollBack_done (hne : s.stack ≠ []) : (s.rollBack .done).1 = .ok () := by
  obtain ⟨d, hlen⟩ : ∃ d, n.levels.length = d + 1 := by
    refine Nat.exists_eq_succ_of_ne_zero fun hzero => hne ?_
    rw [h.stack, hzero, stackOf]
  obtain ⟨db, hrun, _⟩ := h.run_getRollbackStr hlen
  rcases s.rollBack_cases (o := .done) h.usable (h.stack.trans (by rw [hlen])) with
    ⟨err, _, hdone⟩ | ⟨db', _, _, heq⟩
  · cases (hdone rfl).symm.trans hrun
  · rw [heq]

theorem rollBack (hok : s.stack ≠ [] → (s.rollBack o).1 = .ok ()) :
    Tracks (s.rollBack o).2 n.rollback := by
  cases hl : n.levels with
  | nil =>
    have hstack : s.stack = [] := by rw [h.stack, hl]; rfl
    have hsame : n.rollback = n := by rw [Nesting.rollback, hl, List.tail_nil, ← hl]
    rw [s.rollBack_nil h.usable hstack, hsame]
    exact h
  | cons log outer =>
    have hlen : n.levels.length = outer.length + 1 := by rw [hl]; rfl
    have hstack : s.stack = stackOf (outer.length + 1) := by rw [h.stack, hlen]
    have hlevels : n.rollback.levels.length = outer.length := by
      rw [Nesting.length_rollback, hlen, Nat.add_sub_cancel]
    have hdepth := h.depth
    obtain ⟨db', hexec, hagrees⟩ := h.run_getRollbackStr hlen
    rcases s.rollBack_cases (o := o) h.usable hstack with ⟨err, herr, _⟩ | ⟨db, _, hrun, heq⟩
    · have := hok (by rw [hstack]; exact List.cons_ne_nil _ _)
      rw [herr] at this
      cases this
    obtain rfl := Option.some.inj (hrun.symm.trans hexec)
    rw [heq]
    exact ⟨h.usable, by rw [hlevels], by omega, hagrees⟩

theorem call (hc : s.Executes c) : Tracks (s.call c).2 (n.call c) := by
  cases c with
  | beginTransaction o => exact h.beginTransaction hc
  | commit o => exact h.commit hc
  | rollBack o => exact h.rollBack hc
  | write f =>
    have hlen := n.length_write f
    exact ⟨h.usable, hlen.symm ▸ h.stack, hlen.symm ▸ h.depth, h.agrees.write f⟩

end

theorem opened (d : D) : Tracks (.opened d) ⟨d, []⟩ :=
  ⟨rfl, rfl, Nat.zero_le _, rfl, fun _ => rfl, fun h => absurd rfl h⟩

end Tracks

theorem contents_eq_nesting (d : D) (calls : List (TxnCall D))
    (hexec : ∀ t ∈ trace nestingStep (Store.opened d, ⟨d, []⟩) calls, t.pre.1.Executes t.call) :
    ∀ t ∈ trace nestingStep (Store.opened d, ⟨d, []⟩) calls,
      t.post.1.db.committed = t.post.2.committed ∧ t.post.1.db.view = t.post.2.view := by
  refine trace_forall (I := fun s => Tracks s.1 s.2) (G := fun s c => s.1.Executes c) ?_ ?_ hexec
  · rintro ⟨s, n⟩ c h hc
    have hnext := h.call hc
    exact ⟨hnext, hnext.agrees.committed, hnext.agrees.view_eq⟩
  · exact Tracks.opened d

theorem contents_eq_nesting_reentered :
    let calls : List (TxnCall Nat) :=
      [.beginTransaction .done, .write (· + 1), .beginTransaction .done, .write (· * 3),
        .commit .done, .beginTransaction .done, .write (· + 100), .rollBack .done, .commit .done]
    (∀ t ∈ trace nestingStep (Store.opened 5, ⟨5, []⟩) calls, t.pre.1.Executes t.call) ∧
      ∀ t ∈ trace nestingStep (Store.opened 5, ⟨5, []⟩) calls,
        t.post.1.db.committed = t.post.2.committed ∧ t.post.1.db.view = t.post.2.view :=
  ⟨by decide, contents_eq_nesting 5 _ (by decide)⟩

end RelationalStore
