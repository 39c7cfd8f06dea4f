import RelationalStore.Rdb.Transaction.Nesting

/-! # The flag, the stack and the connection

That a transaction is open is kept in the flag, in the stack and in the connection. -/

namespace RelationalStore

variable {D : Type} {s : Store D} {c : TxnCall D}

def Store.InStep (s : Store D) : Prop :=
  (s.isInTransaction ↔ s.stack ≠ []) ∧ (s.stack ≠ [] ↔ s.db.txn.isSome)
  deriving Decidable

/-- After the call the three records agree, a failure leaves the stack, and a `Commit` that succeeds
leaves no transaction open without a level. -/
def CallInStep (t : Transition (Store D) (TxnCall D) (Except RdbError Unit)) : Prop :=
  t.post.InStep ∧ (t.ret ≠ .ok () → t.post.stack = t.pre.stack) ∧
    match t.call with
    | .commit _ => t.ret = .ok () → ¬ (t.post.db.txn.isSome ∧ t.post.stack = [])
    | _ => True

/-- The statement of a `RollBack` with an open level is acquired and executed. -/
def Store.RollsBack (s : Store D) : TxnCall D → Prop
  | .rollBack o => s.stack ≠ [] → o = .done
  | _ => True

structure Store.AtDepth (s : Store D) (d : Nat) : Prop where
  tracks : ∃ n, Tracks s n ∧ n.levels.length = d
  flag : s.inTransaction = decide (d ≠ 0)

theorem Store.isInTransaction_eq (hs : s.checkUsable = .ok ()) :
    s.isInTransaction = s.inTransaction := by
  unfold checkUsable at hs
  split at hs
  · exact nomatch hs
  · split at hs
    · exact nomatch hs
    · simp_all [isInTransaction]

namespace Store.AtDepth
variable {d : Nat}

section
variable (h : s.AtDepth d)
include h

theorem usable : s.checkUsable = .ok () := by
  obtain ⟨n, hn, _⟩ := h.tracks
  exact hn.usable

theorem stack : s.stack = stackOf d := by
  obtain ⟨n, hn, rfl⟩ := h.tracks
  exact hn.stack

theorem depth : d ≤ 2 ^ 32 := by
  obtain ⟨n, hn, rfl⟩ := h.tracks
  exact hn.depth

theorem txn : s.db.txn.isSome = decide (d ≠ 0) := by
  obtain ⟨n, hn, rfl⟩ := h.tracks
  cases hl : n.levels with
  | nil => rw [hn.agrees.closed hl]; rfl
  | cons log outer =>
    obtain ⟨savepoints, htxn, _⟩ := hn.agrees.opened (by rw [hl]; nofun)
    rw [htxn]
    rfl

theorem inStep : s.InStep := by
  rw [InStep, isInTransaction_eq h.usable, h.flag, h.txn, h.stack]
  simp [stackOf_eq_nil]

theorem beginTransaction : ∃ d', (s.beginTransaction o).2.AtDepth d' ∧
    ((s.beginTransaction o).1 ≠ .ok () → (s.beginTransaction o).2 = s) := by
  obtain ⟨n, hn, rfl⟩ := h.tracks
  rcases s.beginTransaction_cases (o := o) h.usable with ⟨err, herr⟩ | ⟨db, _, heq⟩
  · rw [herr]
    exact ⟨_, h, fun _ => rfl⟩
  · have hnext := hn.beginTransaction (o := o) (by rw [heq])
    rw [heq] at hnext ⊢
    exact ⟨_, ⟨⟨n.begin, hnext, n.length_begin⟩, rfl⟩, fun hne => absurd rfl hne⟩

theorem commit :
    ∃ d' ≤ d, (s.commit o).2.AtDepth d' ∧ ((s.commit o).1 ≠ .ok () → (s.commit o).2 = s) := by
  obtain ⟨n, hn, hlen⟩ := h.tracks
  cases d with
  | zero =>
    rw [s.commit_nil h.usable h.stack]
    exact ⟨0, Nat.le_refl 0, h, fun _ => rfl⟩
  | succ d =>
    have hdepth := h.depth
    have hid := BaseTransaction.id_eq_zero (d := d) (by omega)
    have hnext := hn.commit (o := o)
    have hlevels : n.commit.levels.length = d := by rw [n.length_commit, hlen, Nat.add_sub_cancel]
    by_cases hd : d = 0
    · subst hd
      rcases s.commit_outer (o := o) h.usable h.stack (hid.mpr rfl) with
        ⟨err, herr⟩ | ⟨db, _, heq⟩
      · rw [herr]
        exact ⟨1, Nat.le_refl 1, h, fun _ => rfl⟩
      · rw [heq] at hnext ⊢
        exact ⟨0, Nat.zero_le _, ⟨⟨n.commit, hnext rfl, hlevels⟩, rfl⟩, fun hne => absurd rfl hne⟩
    · rw [s.commit_inner h.usable h.stack (mt hid.mp hd)] at hnext ⊢
      refine ⟨d, Nat.le_succ d, ⟨⟨n.commit, hnext rfl, hlevels⟩, ?_⟩, fun hne => absurd rfl hne⟩
      rw [h.flag]
      simp [hd]

theorem rollBack (hdone : s.stack ≠ [] → o = .done) :
    (∃ d' ≤ d, (s.rollBack o).2.AtDepth d') ∧ (s.stack ≠ [] → (s.rollBack o).1 = .ok ()) := by
  obtain ⟨n, hn, hlen⟩ := h.tracks
  cases d with
  | zero =>
    rw [s.rollBack_nil h.usable h.stack]
    exact ⟨⟨0, Nat.le_refl 0, h⟩, fun hne => absurd h.stack hne⟩
  | succ d =>
    have hne : s.stack ≠ [] := by rw [h.stack]; nofun
    obtain rfl := hdone hne
    have hok := hn.rollBack_done hne
    have hnext := hn.rollBack fun _ => hok
    have hlevels : n.rollback.levels.length = d := by
      rw [n.length_rollback, hlen, Nat.add_sub_cancel]
    refine ⟨⟨d, Nat.le_succ d, ⟨n.rollback, hnext, hlevels⟩, ?_⟩, fun _ => hok⟩
    rcases s.rollBack_cases (o := .done) h.usable h.stack with ⟨err, herr, _⟩ | ⟨db, _, _, heq⟩
    · rw [herr] at hok
      exact nomatch hok
    · rw [heq]
      by_cases hd : d = 0 <;> simp [hd, h.flag]

theorem write : Store.AtDepth { s with db := s.db.write f } d := by
  obtain ⟨n, hn, rfl⟩ := h.tracks
  exact ⟨⟨n.write f, hn.call (c := .write f) rfl, n.length_write f⟩, h.flag⟩

end

theorem opened (d : D) : (Store.opened d).AtDepth 0 :=
  ⟨⟨⟨d, []⟩, Tracks.opened d, rfl⟩, rfl⟩

end Store.AtDepth

theorem Store.AtDepth.callInStep (h : (s.call c).2.AtDepth d)
    (hfail : (s.call c).1 ≠ .ok () → (s.call c).2.stack = s.stack) :
    CallInStep (transition Store.call s c) := by
  refine ⟨h.inStep, hfail, ?_⟩
  cases c with
  | commit o =>
    rintro _ ⟨htxn, hstack⟩
    exact h.inStep.2.mpr htxn hstack
  | _ => trivial

theorem Store.AtDepth.call (h : s.AtDepth d) (hc : s.RollsBack c) :
    (∃ d', (s.call c).2.AtDepth d') ∧ CallInStep (transition Store.call s c) := by
  cases c with
  | beginTransaction o =>
    obtain ⟨d', hd', hfail⟩ := h.beginTransaction (o := o)
    exact ⟨⟨d', hd'⟩,
      callInStep (c := .beginTransaction o) hd' fun hne => congrArg Store.stack (hfail hne)⟩
  | commit o =>
    obtain ⟨d', _, hd', hfail⟩ := h.commit (o := o)
    exact ⟨⟨d', hd'⟩, callInStep (c := .commit o) hd' fun hne => congrArg Store.stack (hfail hne)⟩
  | rollBack o =>
    obtain ⟨⟨d', _, hd'⟩, hok⟩ := h.rollBack hc
    refine ⟨⟨d', hd'⟩, callInStep (c := .rollBack o) hd' fun hne => ?_⟩
    by_cases hstack : s.stack = []
    · rw [Store.call, s.rollBack_nil h.usable hstack]
    · exact absurd (hok hstack) hne
  | write f => exact ⟨⟨d, h.write⟩, callInStep (c := .write f) h.write fun _ => rfl⟩

theorem Store.AtDepth.rollsBack_of_callInStep (h : s.AtDepth d)
    (hstep : CallInStep (transition Store.call s c)) : s.RollsBack c := by
  cases c with
  | rollBack o =>
    intro hne
    obtain ⟨d, rfl⟩ : ∃ d', d = d' + 1 := by
      refine Nat.exists_eq_succ_of_ne_zero fun hd => hne ?_
      rw [h.stack, hd, stackOf]
    rcases s.rollBack_cases (o := o) h.usable h.stack with ⟨err, herr, _⟩ | ⟨db, hdone, _⟩
    · have hret : (s.rollBack o).1 ≠ .ok () := by simp [herr]
      have hstack : (s.rollBack o).2.stack = s.stack := hstep.2.1 hret
      rw [herr, h.stack] at hstack
      have := congrArg List.length hstack
      simp at this
    · exact hdone
  | _ => trivial

theorem inStep_iff_rollsBack (d : D) (calls : List (TxnCall D)) :
    (∀ t ∈ trace Store.call (Store.opened d) calls, CallInStep t) ↔
      ∀ t ∈ trace Store.call (Store.opened d) calls, t.pre.RollsBack t.call := by
  refine trace_forall_iff (I := fun s => ∃ n, s.AtDepth n) (G := Store.RollsBack) ?_ ?_ ?_
  · rintro s c ⟨n, h⟩ hc
    exact (h.call hc).1
  · rintro s c ⟨n, h⟩
    exact ⟨h.rollsBack_of_callInStep, fun hc => (h.call hc).2⟩
  · exact ⟨0, Store.AtDepth.opened d⟩

theorem not_inStep_of_busy_rollBack :
    let calls : List (TxnCall Nat) :=
      [.beginTransaction .done, .write (· + 1), .rollBack (.failed .sqliteBusy), .commit .done]
    (¬ ∀ t ∈ trace Store.call (Store.opened 0) calls, CallInStep t) ∧
      let s := final Store.call (Store.opened 0) calls
      s.isInTransaction ∧ s.stack = [] ∧ s.db.txn.isSome := by
  refine ⟨fun h => ?_, rfl, rfl, rfl⟩
  have hbusy := h _ (.tail _ (.tail _ (.head _)))
  exact nomatch hbusy.2.1 nofun

end RelationalStore
