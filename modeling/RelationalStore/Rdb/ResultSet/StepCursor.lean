import RelationalStore.Rdb.ResultSet.Step

/-! # The step result set as a list cursor

It behaves as the cursor over its rows as long as it is not moved on past the end. -/

namespace RelationalStore

open StepResultSet

namespace StepResultSet

def Exposes (q : Query) (s : StepResultSet) : Prop :=
  ∀ column x, s.get column = .ok x →
    0 ≤ s.rowPos ∧ 0 ≤ column ∧ q.value s.rowPos.toNat column.toNat = some x

/-- `Get` returns every column of the row at the reported position. -/
def Reads (q : Query) (s : StepResultSet) : Prop :=
  ∀ i < q.decls.length, ∃ x, q.value s.rowPos.toNat i = some x ∧ s.get i = .ok x

end StepResultSet

/-- The call does what the cursor over the rows of `q` does. -/
def Behaves (q : Query) (t : Transition StepResultSet CursorCall (Except RdbError CursorAnswer)) :
    Prop :=
  t.post.Exposes q ∧
    match t.call with
    | .nav c =>
      Moves q.rows.length t.pre.rowPos (c.target q.rows.length t.pre.rowPos) t.ret.isOk
          t.post.rowPos ∧
        (t.ret.isOk → t.post.Reads q)
    | .get _ => t.post = t.pre
    | .isStarted => t.ret = .ok (.bool (t.pre.rowPos ≠ -1)) ∧ t.post = t.pre
    | .isEnded =>
      t.ret = .ok (.bool (q.rows.length = 0 ∨ t.pre.rowPos = q.rows.length)) ∧
        t.post.rowPos = t.pre.rowPos
    | .isAtFirstRow => t.ret = .ok (.bool (t.pre.rowPos = 0)) ∧ t.post = t.pre
    | .isAtLastRow =>
      t.ret = .ok (.bool (t.pre.rowPos = q.rows.length - 1)) ∧ t.post.rowPos = t.pre.rowPos

namespace StepResultSet

def SafeTarget (s : StepResultSet) (n : Nat) (position : Int) : Prop :=
  s.isSupportCountRow = false → s.rowPos = n → ¬ (n ≤ position ∧ position ≤ 2 * n)

def SafeNav (s : StepResultSet) (n : Nat) : Nav → Prop
  | .goToRow position => s.SafeTarget n position.toInt
  | .goTo offset =>
    (s.rowPos + offset.toInt < 2 ^ 31 ∨ n = 0 ∨ s.rowPos = n) ∧
      s.SafeTarget n (toInt32 (s.rowPos + offset.toInt))
  | .goToFirstRow => s.SafeTarget n 0
  | .goToNextRow => s.rowPos = n → s.stmt.next = n
  | .goToLastRow | .goToPreviousRow => True

def Safe (q : Query) (s : StepResultSet) : CursorCall → Prop
  | .nav c =>
    s.SafeNav q.rows.length c ∧
      (0 ≤ c.target q.rows.length s.rowPos → c.target q.rows.length s.rowPos < q.rows.length →
        q.RowReadable (c.target q.rows.length s.rowPos).toNat)
  | _ => True

/-! ### The invariant -/

variable {s : StepResultSet} {q : Query}

/-- The result set is on row `p`. -/
structure OnRow (q : Query) (s : StepResultSet) (p : Nat) : Prop where
  lt : p < q.rows.length
  pos : s.rowPos = p
  next : s.stmt.next = p + 1
  row : s.stmt.OnRow p

inductive Place (q : Query) (s : StepResultSet) : Prop
  | before (pos : s.rowPos = -1) (next : s.stmt.next = 0)
  | on (p : Nat) (h : s.OnRow q p)
  | past (pos : s.rowPos = q.rows.length) (count : s.rowCount = q.rows.length)
      (next : s.stmt.next ≤ q.rows.length)
      (restarted : s.isSupportCountRow = false → s.stmt.next = 0)

structure Coherent (q : Query) (s : StepResultSet) : Prop where
  ready : s.Ready
  query : s.stmt.query = q
  count : s.rowCount = q.rows.length ∨ (s.rowCount = -1 ∧ s.isSupportCountRow = false)
  place : s.Place q

structure Lands (q : Query) (s : StepResultSet) (target : Int)
    (res : Except RdbError Unit × StepResultSet) : Prop where
  coherent : res.2.Coherent q
  reached : 0 ≤ target → target < q.rows.length → res.1 = .ok () ∧ res.2.rowPos = target
  refused : ¬ (0 ≤ target ∧ target < q.rows.length) → res.1 = .error .rowOutRange ∧
    (s.rowPos < target → q.rows.length = 0 ∨ res.2.rowPos = q.rows.length) ∧
    (res.2.rowPos = s.rowPos ∨ res.2.rowPos = q.rows.length)

theorem Coherent.counted_iff (h : s.Coherent q) : s.counted ↔ s.rowCount = q.rows.length := by
  unfold counted invalidCount
  rcases h.count with hc | ⟨hc, hs⟩
  · exact ⟨fun _ => hc, fun _ => .inr (by omega)⟩
  · rw [hc, hs]
    constructor
    · rintro (h | h)
      · exact nomatch h
      · exact absurd rfl h
    · intro h
      omega

theorem Coherent.absGetRowCount_eq (h : s.Coherent q) (hcount : s.rowCount = q.rows.length) :
    s.absGetRowCount = .ok (q.rows.length : Int) := by
  unfold absGetRowCount
  rw [h.ready.noErr]
  exact (if_pos (by unfold invalidCount; omega)).trans (congrArg Except.ok hcount)

theorem Coherent.next_le (h : s.Coherent q) : s.stmt.next ≤ q.rows.length := by
  rcases h.place with ⟨_, hnext⟩ | ⟨p, hon⟩ | ⟨_, _, hnext, _⟩
  · omega
  · have := hon.lt
    have := hon.next
    omega
  · exact hnext

theorem Coherent.rowPos_bounds (h : s.Coherent q) :
    -1 ≤ s.rowPos ∧ s.rowPos ≤ q.rows.length := by
  rcases h.place with ⟨hpos, _⟩ | ⟨p, hon⟩ | ⟨hpos, _⟩
  · omega
  · have := hon.pos
    have := hon.lt
    omega
  · omega

def Synced (s : StepResultSet) : Prop := (s.stmt.next : Int) = s.rowPos + 1

theorem OnRow.synced (h : s.OnRow q p) : s.Synced := by
  rw [Synced, h.next, h.pos]
  omega

theorem Coherent.synced_or_past (h : s.Coherent q) :
    (s.Synced ∧ s.rowPos < q.rows.length) ∨
      (s.rowPos = q.rows.length ∧ s.rowCount = q.rows.length ∧
        (s.isSupportCountRow = false → s.stmt.next = 0)) := by
  rcases h.place with ⟨hpos, hnext⟩ | ⟨p, hon⟩ | ⟨hpos, hcount, _, hrestart⟩
  · exact .inl ⟨by rw [Synced, hpos, hnext]; rfl, by omega⟩
  · have := hon.pos
    have := hon.lt
    exact .inl ⟨hon.synced, by omega⟩
  · exact .inr ⟨hpos, hcount, hrestart⟩

theorem Coherent.advance (h : s.Coherent q) (hsync : s.Synced)
    (hk : s.stmt.next + (k + 1) ≤ q.rows.length) :
    (s.advance (k + 1)).Coherent q ∧ (s.advance (k + 1)).OnRow q (s.stmt.next + k) := by
  have hon : (s.advance (k + 1)).OnRow q (s.stmt.next + k) := by
    refine ⟨by omega, ?_, by rw [advance_next, Nat.add_assoc], rfl⟩
    rw [advance_rowPos]
    unfold Synced at hsync
    omega
  exact ⟨⟨h.ready.advance, advance_query.trans h.query, by simpa using h.count, .on _ hon⟩, hon⟩

theorem Ready.ended (h : s.Ready) : s.ended.Ready := by
  unfold StepResultSet.ended
  split <;> exact ⟨h.opened, h.noErr, h.faults⟩

theorem ended_query : s.ended.stmt.query = s.stmt.query := by
  unfold ended
  split <;> rfl

theorem ended_next : s.ended.stmt.next = 0 := by
  unfold ended
  split <;> rfl

theorem counted_advance : (s.advance k).counted ↔ s.counted := by
  unfold counted
  rw [advance_isSupportCountRow, advance_rowCount]

theorem Coherent.ended_counted (h : s.Coherent q) (hcount : s.rowCount = q.rows.length) :
    (s.advance k).ended.rowCount = q.rows.length ∧ (s.advance k).ended.rowPos =
      if q.rows.length = 0 then s.rowPos + k else q.rows.length := by
  have hend : (s.advance k).ended = _ := if_pos (counted_advance.mpr (h.counted_iff.mpr hcount))
  rw [hend]
  refine ⟨advance_rowCount.trans hcount, ?_⟩
  dsimp only
  rw [advance_rowCount, advance_rowPos, hcount]
  split <;> split <;> omega

theorem ended_uncounted (hc : ¬ s.counted) :
    (s.advance k).ended.rowCount = s.rowPos + k + 1 ∧
      (s.advance k).ended.rowPos = s.rowPos + k + 1 := by
  have hend : (s.advance k).ended = _ := if_neg (mt counted_advance.mp hc)
  rw [hend]
  exact ⟨by rw [advance_rowPos], by rw [advance_rowPos]⟩

theorem Coherent.past_ended (h : s.Coherent q)
    (hcount : (s.advance k).ended.rowCount = q.rows.length)
    (hpos : (s.advance k).ended.rowPos = q.rows.length) : (s.advance k).ended.Coherent q :=
  ⟨h.ready.advance.ended, (ended_query.trans advance_query).trans h.query, .inl hcount,
    .past hpos hcount (ended_next.symm ▸ Nat.zero_le _) fun _ => ended_next⟩

theorem Coherent.ended (h : s.Coherent q) (hsync : s.Synced) :
    let s' := (s.advance (q.rows.length - s.stmt.next)).ended
    s'.Coherent q ∧ (q.rows.length = 0 ∨ s'.rowPos = q.rows.length) ∧
      (s'.rowPos = s.rowPos ∨ s'.rowPos = q.rows.length) := by
  intro s'
  have hle := h.next_le
  unfold Synced at hsync
  by_cases hc : s.counted
  · obtain ⟨hcount, hpos⟩ := h.ended_counted (k := q.rows.length - s.stmt.next)
      (h.counted_iff.mp hc)
    by_cases hn : q.rows.length = 0
    · rw [if_pos hn] at hpos
      have hsame : s'.rowPos = s.rowPos := hpos.trans (by omega)
      have hbefore : s'.rowPos = -1 := hsame.trans (by omega)
      exact ⟨⟨h.ready.advance.ended, (ended_query.trans advance_query).trans h.query, .inl hcount,
        .before hbefore ended_next⟩, .inl hn, .inl hsame⟩
    · rw [if_neg hn] at hpos
      exact ⟨h.past_ended hcount hpos, .inr hpos, .inr hpos⟩
  · obtain ⟨hcount, hpos⟩ := ended_uncounted (k := q.rows.length - s.stmt.next) hc
    have hn : s.rowPos + (q.rows.length - s.stmt.next : Nat) + 1 = q.rows.length := by omega
    rw [hn] at hcount hpos
    exact ⟨h.past_ended hcount hpos, .inr hpos, .inr hpos⟩

theorem Coherent.ended_again (h : s.Coherent q) (hpos : s.rowPos = q.rows.length)
    (hcount : s.rowCount = q.rows.length) (hnext : s.stmt.next = 0) :
    let s' := (s.advance (q.rows.length - s.stmt.next)).ended
    s'.Coherent q ∧ s'.rowPos = q.rows.length := by
  intro s'
  obtain ⟨hcount', hpos'⟩ := h.ended_counted (k := q.rows.length - s.stmt.next) hcount
  have hn : s'.rowPos = q.rows.length := by
    rw [hpos', hpos]
    split <;> omega
  exact ⟨h.past_ended hcount' hn, hn⟩

/-! ### Navigation -/

theorem reset_eq (h : s.Ready) :
    s.reset = { s with rowPos := -1, stmt := s.stmt.reset } := by
  unfold reset
  exact if_neg (by rw [h.opened]; nofun)

theorem Coherent.reset (h : s.Coherent q) : s.reset.Coherent q := by
  rw [reset_eq h.ready]
  exact ⟨⟨h.ready.opened, h.ready.noErr, h.ready.faults⟩, h.query, h.count, .before rfl rfl⟩

theorem Coherent.goForward (h : s.Coherent q) (hsync : s.Synced) (target : Int)
    (hge : s.rowPos ≤ target) (hpos : 0 ≤ target) :
    Lands q s target (goForward (target - s.rowPos).toNat s) := by
  have hq := h.query
  have hle := h.next_le
  have hs := hsync
  unfold Synced at hs
  obtain ⟨k, hk⟩ : ∃ k : Nat, target = s.rowPos + k := ⟨(target - s.rowPos).toNat, by omega⟩
  have hdist : (target - s.rowPos).toNat = k := by omega
  rw [hdist]
  by_cases hlt : target < q.rows.length
  · rw [goForward_ok h.ready (by rw [hq]; omega)]
    have hcoh : (s.advance k).Coherent q := by
      cases k with
      | zero => exact h
      | succ k => exact (h.advance hsync (by omega)).1
    exact ⟨hcoh, fun _ _ => ⟨rfl, by rw [advance_rowPos, hk]⟩, fun hn => absurd ⟨hpos, hlt⟩ hn⟩
  · rw [goForward_end h.ready (by rw [hq]; omega) (by rw [hq]; omega), hq]
    obtain ⟨hcoh, hend, hstill⟩ := h.ended hsync
    exact ⟨hcoh, fun _ hlt' => absurd hlt' hlt, fun _ => ⟨rfl, fun _ => hend, hstill⟩⟩

theorem Coherent.goForward_again (h : s.Coherent q) (hpos : s.rowPos = q.rows.length)
    (hcount : s.rowCount = q.rows.length) (hnext : s.stmt.next = 0)
    (target : Int) (hgt : 2 * q.rows.length < target) :
    Lands q s target (StepResultSet.goForward (target - s.rowPos).toNat s) := by
  have hq := h.query
  rw [goForward_end h.ready (by rw [hq]; omega) (by rw [hq]; omega), hq]
  obtain ⟨hcoh, hend⟩ := h.ended_again hpos hcount hnext
  exact ⟨hcoh, fun _ _ => by omega, fun _ => ⟨rfl, fun _ => .inr hend, .inr hend⟩⟩

theorem goToRow_eq (h : s.Ready) : s.goToRow position =
    if s.isSupportCountRow ∧ position ≥ s.rowCount then
      (.error .rowOutRange, { s with rowPos := if s.rowCount ≠ 0 then s.rowCount else s.rowPos })
    else if position < 0 then (.error .rowOutRange, s)
    else
      let s := if position < s.rowPos then s.reset else s
      goForward (position - s.rowPos).toNat s := by
  unfold goToRow
  rw [if_neg (by rw [h.opened]; nofun)]
  split
  next herr =>
    rw [h.noErr] at herr
    exact nomatch herr
  · rfl

theorem Coherent.goToRow_neg (h : s.Coherent q) (hneg : position < 0) :
    s.goToRow position = (.error .rowOutRange, s) := by
  rw [goToRow_eq h.ready, if_neg, if_pos hneg]
  rintro ⟨hs, hge⟩
  rcases h.count with hc | ⟨_, hs'⟩
  · omega
  · exact nomatch hs.symm.trans hs'

theorem Coherent.goToRow_counted (h : s.Coherent q) (hs : s.isSupportCountRow)
    (hge : position ≥ s.rowCount) : Lands q s position (s.goToRow position) := by
  have hcount : s.rowCount = q.rows.length :=
    h.count.resolve_right fun h' => nomatch hs.symm.trans h'.2
  rw [goToRow_eq h.ready, if_pos ⟨hs, hge⟩]
  by_cases hn : q.rows.length = 0
  · rw [if_neg (by omega)]
    exact ⟨h, fun _ _ => by omega, fun _ => ⟨rfl, fun _ => .inl hn, .inl rfl⟩⟩
  · rw [if_pos (by omega)]
    refine ⟨⟨⟨h.ready.opened, h.ready.noErr, h.ready.faults⟩, h.query, .inl hcount,
      .past hcount hcount h.next_le fun hs' => ?_⟩, fun _ _ => by omega,
      fun _ => ⟨rfl, fun _ => .inr hcount, .inr hcount⟩⟩
    exact nomatch hs.symm.trans hs'

theorem Coherent.goForward_reset (h : s.Coherent q) (hpos : 0 ≤ position)
    (hback : position < s.rowPos) :
    Lands q s position (StepResultSet.goForward (position - s.reset.rowPos).toNat s.reset) := by
  have hpos' : s.reset.rowPos = -1 := by rw [reset_eq h.ready]
  have hsync : s.reset.Synced := by
    rw [reset_eq h.ready]
    rfl
  obtain ⟨hcoh, hreached, _⟩ := h.reset.goForward hsync position (by omega) hpos
  have hlt : position < q.rows.length := hback.trans_le h.rowPos_bounds.2
  exact ⟨hcoh, hreached, fun hn => absurd ⟨hpos, hlt⟩ hn⟩

theorem Coherent.goToRow (h : s.Coherent q) (hsafe : s.SafeTarget q.rows.length position) :
    Lands q s position (s.goToRow position) := by
  by_cases hc : s.isSupportCountRow ∧ position ≥ s.rowCount
  · exact h.goToRow_counted hc.1 hc.2
  by_cases hneg : position < 0
  · rw [h.goToRow_neg hneg]
    have hb := h.rowPos_bounds
    exact ⟨h, fun h0 _ => by omega, fun _ => ⟨rfl, fun _ => by omega, .inl rfl⟩⟩
  rw [goToRow_eq h.ready, if_neg hc, if_neg hneg]
  by_cases hback : position < s.rowPos
  · simp only [hback, if_true]
    exact h.goForward_reset (by omega) hback
  simp only [hback, if_false]
  rcases h.synced_or_past with ⟨hsync, _⟩ | ⟨hpos, hcount, hrestart⟩
  · exact h.goForward hsync position (by omega) (by omega)
  · -- past the end only a result that was not counted in advance steps again
    have hs : s.isSupportCountRow = false := by
      cases hs : s.isSupportCountRow with
      | false => rfl
      | true => exact absurd ⟨hs, by omega⟩ hc
    have hfar : 2 * (q.rows.length : Int) < position := by
      have := hsafe hs hpos
      omega
    exact h.goForward_again hpos hcount (hrestart hs) position hfar

theorem goForward_one : goForward 1 s = s.goToNextRow := by
  rw [goForward]
  split <;> rename_i heq <;> rw [heq]
  rfl

theorem Coherent.goToNextRow (h : s.Coherent q)
    (hsafe : s.rowPos = q.rows.length → s.stmt.next = q.rows.length) :
    Lands q s (s.rowPos + 1) s.goToNextRow := by
  have hone : (s.rowPos + 1 - s.rowPos).toNat = 1 := by omega
  have hb := h.rowPos_bounds
  rcases h.synced_or_past with ⟨hsync, _⟩ | ⟨hpos, hcount, _⟩
  · have := h.goForward hsync (s.rowPos + 1) (by omega) (by omega)
    rwa [hone, goForward_one] at this
  · rw [goToNextRow_done h.ready (by rw [h.query, hsafe hpos])]
    obtain ⟨hcount', hpos'⟩ := h.ended_counted (k := 0) hcount
    have hn : (s.advance 0).ended.rowPos = q.rows.length := by
      rw [hpos', hpos]
      split <;> omega
    exact ⟨h.past_ended hcount' hn, fun _ _ => by omega, fun _ => ⟨rfl, fun _ => .inr hn, .inr hn⟩⟩

theorem Coherent.getRowCount (h : s.Coherent q) : s.getRowCount.1 = .ok (q.rows.length : Int) ∧
    s.getRowCount.2.Coherent q ∧ s.getRowCount.2.rowPos = s.rowPos := by
  have hq := h.query
  unfold StepResultSet.getRowCount
  by_cases hc : s.counted
  · rw [if_pos hc]
    exact ⟨h.absGetRowCount_eq (h.counted_iff.mp hc), h, rfl⟩
  obtain ⟨hsync, hlt⟩ : s.Synced ∧ s.rowPos < q.rows.length :=
    h.synced_or_past.resolve_right fun hpast => hc (h.counted_iff.mpr hpast.2.1)
  have hle := h.next_le
  rw [if_neg hc, countRows_end h.ready (Nat.lt_succ_self _) (by rw [hq]; exact hle), hq]
  obtain ⟨hcoh, _⟩ := h.ended hsync
  obtain ⟨hcount, hpos⟩ := ended_uncounted (k := q.rows.length - s.stmt.next) hc
  have hn : s.rowPos + (q.rows.length - s.stmt.next : Nat) + 1 = q.rows.length := by
    unfold Synced at hsync
    omega
  rw [hn] at hcount hpos
  generalize (s.advance (q.rows.length - s.stmt.next)).ended = s' at hcoh hcount hpos
  have hs' : { s' with rowCount := s'.rowPos } = s' :=
    congrArg (fun c => { s' with rowCount := c }) (hpos.trans hcount.symm)
  dsimp only
  rw [hs']
  refine ⟨congrArg Except.ok hpos, ?_⟩
  split
  · -- the result set goes back to the row it was on
    rename_i hne
    have hge : 0 ≤ s.rowPos := by
      unfold Synced at hsync
      unfold initPos at hne
      omega
    obtain ⟨hback, hreached, _⟩ : Lands q s' s.rowPos (s'.goToRow s.rowPos) :=
      hcoh.goToRow fun _ _ => by omega
    exact ⟨hback, (hreached hge hlt).2⟩
  next hinit =>
    refine ⟨hcoh.reset, ?_⟩
    rw [reset_eq hcoh.ready, not_not.mp hinit]

theorem Coherent.goToLastRow (h : s.Coherent q) :
    Lands q s (q.rows.length - 1) s.goToLastRow := by
  obtain ⟨hret, hcoh, hpos⟩ := h.getRowCount
  unfold StepResultSet.goToLastRow
  generalize s.getRowCount = res at hret hcoh hpos
  obtain ⟨ret, s'⟩ := res
  subst hret
  dsimp only at hcoh hpos ⊢
  split
  next hn => exact ⟨hcoh, fun _ _ => by omega, fun _ => ⟨rfl, fun _ => .inl (by omega), .inl hpos⟩⟩
  · obtain ⟨hcoh', hreached, hrefused⟩ : Lands q s' (q.rows.length - 1) _ :=
      hcoh.goToRow fun _ _ => by omega
    rw [hpos] at hrefused
    exact ⟨hcoh', hreached, hrefused⟩

theorem Coherent.nav (h : s.Coherent q) (hsafe : s.SafeNav q.rows.length c) :
    Lands q s (c.target q.rows.length s.rowPos) (s.nav c) := by
  cases c with
  | goToRow position => exact h.goToRow hsafe
  | goToFirstRow => exact h.goToRow hsafe
  | goToLastRow => exact h.goToLastRow
  | goToNextRow => exact h.goToNextRow hsafe
  | goToPreviousRow => exact h.goToRow fun _ hpos => by rw [Nav.target]; omega
  | goTo offset =>
    obtain ⟨hover, hsafe⟩ := hsafe
    have hb := h.rowPos_bounds
    have hn := q.rows_lt
    have hlo := offset.le_toInt
    have hhi := offset.toInt_lt
    rw [Nav.target, StepResultSet.nav]
    by_cases hlow : s.rowPos + offset.toInt < -2 ^ 31
    · -- the sum wraps around to the largest `int`
      have hw : toInt32 (s.rowPos + offset.toInt) = 2 ^ 31 - 1 := by
        rw [toInt32, Int.bmod_def]
        omega
      rw [hw] at hsafe ⊢
      obtain ⟨hcoh, _, hrefused⟩ := h.goToRow hsafe
      obtain ⟨hret, _, hstill⟩ := hrefused (by omega)
      exact ⟨hcoh, fun _ _ => by omega, fun _ => ⟨hret, fun _ => by omega, hstill⟩⟩
    by_cases hhigh : s.rowPos + offset.toInt < 2 ^ 31
    · rw [toInt32_of_lt (by omega) hhigh] at hsafe ⊢
      exact h.goToRow hsafe
    · -- the sum wraps around to a negative position
      have hw : toInt32 (s.rowPos + offset.toInt) < 0 := by
        rw [toInt32, Int.bmod_def]
        omega
      rw [h.goToRow_neg hw]
      exact ⟨h, fun _ _ => by omega, fun _ =>
        ⟨rfl, fun _ => hover.resolve_left hhigh, .inl rfl⟩⟩

/-! ### Moves past the end -/

theorem Coherent.goToRow_again (h : s.Coherent q) (hs : s.isSupportCountRow = false)
    (hpos : s.rowPos = q.rows.length) {position : Int} (hge : q.rows.length ≤ position)
    (hle : position ≤ 2 * q.rows.length) : (s.goToRow position).1 = .ok () := by
  have hnext : s.stmt.next = 0 := by
    obtain ⟨_, _, hrestart⟩ := h.synced_or_past.resolve_left fun hsync => by omega
    exact hrestart hs
  rw [goToRow_eq h.ready, if_neg (by rw [hs]; exact fun h' => nomatch h'.1), if_neg (by omega)]
  simp only [show ¬ position < s.rowPos by omega, if_false]
  rw [goForward_ok h.ready (by rw [h.query]; omega)]

theorem Coherent.goToNextRow_again (h : s.Coherent q) (hnext : s.stmt.next ≠ q.rows.length) :
    s.goToNextRow.1 = .ok () := by
  have hle := h.next_le
  have hrow := List.getElem?_eq_getElem (l := s.stmt.query.rows) (i := s.stmt.next)
    (by rw [h.query]; omega)
  rw [goToNextRow_row h.ready hrow]

theorem Lands.moves (h : Lands q s target res) :
    Moves q.rows.length s.rowPos target res.1.isOk res.2.rowPos := by
  by_cases hin : 0 ≤ target ∧ target < q.rows.length
  · obtain ⟨hret, hpos⟩ := h.reached hin.1 hin.2
    rw [hret]
    exact ⟨⟨fun _ => hin, fun _ => rfl⟩, fun _ => hpos, nofun⟩
  · obtain ⟨hret, hpast, _⟩ := h.refused hin
    rw [hret]
    exact ⟨⟨nofun, fun h => absurd h hin⟩, nofun, fun _ => hpast⟩

theorem Coherent.safeNav (h : s.Coherent q)
    (hm : Moves q.rows.length s.rowPos (c.target q.rows.length s.rowPos) (s.nav c).1.isOk
      (s.nav c).2.rowPos) : s.SafeNav q.rows.length c := by
  have hn := q.rows_lt
  have hsafe : ∀ position, s.nav c = s.goToRow position →
      (0 ≤ c.target q.rows.length s.rowPos → c.target q.rows.length s.rowPos < q.rows.length →
        position = c.target q.rows.length s.rowPos) → s.SafeTarget q.rows.length position := by
    rintro position hnav heq hs hpos ⟨hge, hle⟩
    rw [hnav, h.goToRow_again hs hpos hge hle] at hm
    obtain ⟨h0, hlt⟩ := hm.ok_iff.mp rfl
    have := heq h0 hlt
    omega
  cases c with
  | goToRow position => exact hsafe position.toInt rfl fun _ _ => rfl
  | goToFirstRow => exact hsafe 0 rfl fun _ _ => rfl
  | goToLastRow | goToPreviousRow => trivial
  | goToNextRow =>
    intro hpos
    by_contra hnext
    have hret : (s.nav .goToNextRow).1 = .ok () := h.goToNextRow_again hnext
    rw [hret] at hm
    have := (hm.ok_iff.mp rfl).2
    rw [Nav.target] at this
    omega
  | goTo offset =>
    rw [Nav.target] at hm hsafe
    refine ⟨?_, hsafe _ rfl fun _ _ => toInt32_of_lt (by omega) (by omega)⟩
    by_contra hover
    have hb := h.rowPos_bounds
    have hhi := offset.toInt_lt
    have hw : toInt32 (s.rowPos + offset.toInt) < 0 := by
      rw [toInt32, Int.bmod_def]
      omega
    have hstay : s.nav (.goTo offset) = (.error .rowOutRange, s) := h.goToRow_neg hw
    rw [hstay] at hm
    have := hm.past rfl (by omega)
    exact hover (.inr this)

/-! ### Reading -/

theorem Coherent.get_eq (h : s.Coherent q) (hon : s.OnRow q p) :
    s.get column = s.stmt.getColumn column := by
  have hlt := hon.lt
  have hpos := hon.pos
  unfold get
  rw [if_neg (by rw [h.ready.opened]; nofun), if_neg]
  rintro (hinit | ⟨hc, hended⟩)
  · unfold initPos at hinit
    omega
  · have habs := h.absGetRowCount_eq (h.counted_iff.mp hc)
    simp only [endedCounted, habs, decide_eq_true_eq] at hended
    omega

theorem Coherent.reads_iff (h : s.Coherent q) (hon : s.OnRow q p) :
    s.Reads q ↔ q.RowReadable p := by
  have hq := h.query
  subst hq
  rw [← s.stmt.getColumn_iff hon.row hon.lt]
  unfold Reads
  rw [hon.pos, Int.toNat_natCast]
  simp only [h.get_eq hon]

structure Inv (q : Query) (s : StepResultSet) : Prop where
  coherent : s.Coherent q
  readable : ∀ p : Nat, s.rowPos = p → p < q.rows.length → q.RowReadable p

theorem Coherent.onRow (h : s.Coherent q) (hpos : s.rowPos = (p : Nat)) (hp : p < q.rows.length) :
    s.OnRow q p := by
  rcases h.place with ⟨hpos', _⟩ | ⟨p', hon⟩ | ⟨hpos', _⟩
  · omega
  · have := hon.pos
    obtain rfl : p = p' := by omega
    exact hon
  · omega

theorem Inv.exposes (h : s.Inv q) : s.Exposes q := by
  intro column x hget
  have hget' := hget
  unfold get at hget'
  rw [if_neg (by rw [h.coherent.ready.opened]; nofun)] at hget'
  split at hget'
  · exact nomatch hget'
  rename_i hopen
  rcases h.coherent.place with ⟨hpos, _⟩ | ⟨p, hon⟩ | ⟨hpos, hcount, _⟩
  · exact absurd (.inl hpos) hopen
  · have hreads := (h.coherent.reads_iff hon).mpr (h.readable p hon.pos hon.lt)
    unfold Stmt.getColumn at hget'
    split at hget'
    · exact nomatch hget'
    rename_i hin
    rw [h.coherent.query] at hin
    obtain ⟨x', hvalue, hgetx⟩ := hreads column.toNat (by omega)
    rw [Int.toNat_of_nonneg (by omega), hget] at hgetx
    cases hgetx
    exact ⟨by rw [hon.pos]; omega, by omega, hvalue⟩
  · refine absurd (.inr ⟨h.coherent.counted_iff.mpr hcount, ?_⟩) hopen
    simp only [endedCounted, h.coherent.absGetRowCount_eq hcount, decide_eq_true_eq]
    exact .inr hpos

theorem Lands.inv (h : Lands q s target res) (hs : s.Inv q)
    (hread : 0 ≤ target → target < q.rows.length → q.RowReadable target.toNat) :
    res.2.Inv q := by
  refine ⟨h.coherent, fun p hpos hp => ?_⟩
  by_cases hin : 0 ≤ target ∧ target < q.rows.length
  · have htarget := (h.reached hin.1 hin.2).2
    obtain rfl : p = target.toNat := by omega
    exact hread hin.1 hin.2
  · rcases (h.refused hin).2.2 with hsame | hend
    · exact hs.readable p (hsame.symm.trans hpos) hp
    · omega

theorem Inv.nav_iff (h : s.Inv q) :
    Behaves q (transition call s (.nav c)) ↔ s.Safe q (.nav c) := by
  have hok : ((s.nav c).1.map fun _ => CursorAnswer.done).isOk = (s.nav c).1.isOk := by
    cases (s.nav c).1 <;> rfl
  constructor
  · rintro ⟨_, hmoves, hreads⟩
    simp only [transition, call, hok] at hmoves hreads
    have hsafe := h.coherent.safeNav hmoves
    refine ⟨hsafe, fun h0 hlt => ?_⟩
    have hlands := h.coherent.nav hsafe
    obtain ⟨hret, hpos⟩ := hlands.reached h0 hlt
    have hon := hlands.coherent.onRow (p := (c.target q.rows.length s.rowPos).toNat) (by omega)
      (by omega)
    exact (hlands.coherent.reads_iff hon).mp (hreads (by rw [hret]; rfl))
  · rintro ⟨hsafe, hread⟩
    have hlands := h.coherent.nav hsafe
    have hinv := hlands.inv h hread
    refine ⟨hinv.exposes, ?_⟩
    simp only [transition, call, hok]
    refine ⟨hlands.moves, fun hisOk => ?_⟩
    obtain ⟨h0, hlt⟩ := hlands.moves.ok_iff.mp hisOk
    have hpos := hlands.moves.reached hisOk
    have hon := hlands.coherent.onRow (p := (c.target q.rows.length s.rowPos).toNat) (by omega)
      (by omega)
    exact (hlands.coherent.reads_iff hon).mpr (hread h0 hlt)

theorem Inv.getRowCount (h : s.Inv q) : s.getRowCount.2.Inv q := by
  obtain ⟨_, hcoh, hpos⟩ := h.coherent.getRowCount
  exact ⟨hcoh, fun p hp => h.readable p (hpos.symm.trans hp)⟩

theorem Coherent.isEnded_eq (h : s.Coherent q) : s.isEnded =
    (.ok (decide (q.rows.length = 0 ∨ s.rowPos = q.rows.length)), s.getRowCount.2) := by
  obtain ⟨hret, _, hpos⟩ := h.getRowCount
  unfold isEnded
  generalize s.getRowCount = res at hret hpos
  obtain ⟨ret, s'⟩ := res
  subst hret
  simp only at hpos
  simp only [hpos, Int.natCast_eq_zero]

theorem Coherent.isAtLastRow_eq (h : s.Coherent q) : s.isAtLastRow =
    (.ok (decide (s.rowPos = q.rows.length - 1)), s.getRowCount.2) := by
  obtain ⟨hret, _, hpos⟩ := h.getRowCount
  unfold isAtLastRow
  generalize s.getRowCount = res at hret hpos
  obtain ⟨ret, s'⟩ := res
  subst hret
  simp only at hpos
  simp only [hpos]

theorem Inv.call (h : s.Inv q) (hsafe : s.Safe q c) : (s.call c).2.Inv q := by
  cases c with
  | nav c => exact (h.coherent.nav hsafe.1).inv h hsafe.2
  | get column | isStarted | isAtFirstRow => exact h
  | isEnded =>
    rw [StepResultSet.call, h.coherent.isEnded_eq]
    exact h.getRowCount
  | isAtLastRow =>
    rw [StepResultSet.call, h.coherent.isAtLastRow_eq]
    exact h.getRowCount

theorem Inv.behaves_iff (h : s.Inv q) :
    Behaves q (transition StepResultSet.call s c) ↔ s.Safe q c := by
  cases c with
  | nav c => exact h.nav_iff
  | get column => exact ⟨fun _ => trivial, fun _ => ⟨h.exposes, rfl⟩⟩
  | isStarted | isAtFirstRow => exact ⟨fun _ => trivial, fun _ => ⟨h.exposes, rfl, rfl⟩⟩
  | isEnded =>
    refine ⟨fun _ => trivial, fun _ => ?_⟩
    simp only [Behaves, transition, StepResultSet.call, h.coherent.isEnded_eq]
    exact ⟨h.getRowCount.exposes, rfl, h.coherent.getRowCount.2.2⟩
  | isAtLastRow =>
    refine ⟨fun _ => trivial, fun _ => ?_⟩
    simp only [Behaves, transition, StepResultSet.call, h.coherent.isAtLastRow_eq]
    exact ⟨h.getRowCount.exposes, rfl, h.coherent.getRowCount.2.2⟩

theorem create_inv (q : Query) (preCount isGotoNextRowReturnLastError : Bool) :
    (create ⟨q, 0, none, []⟩ preCount isGotoNextRowReturnLastError).Inv q := by
  cases preCount with
  | true =>
    rw [create, if_pos rfl, Stmt.count_faultless rfl rfl]
    exact ⟨⟨⟨rfl, rfl, rfl⟩, rfl, .inl rfl, .before rfl rfl⟩, nofun⟩
  | false => exact ⟨⟨⟨rfl, rfl, rfl⟩, rfl, .inr ⟨rfl, rfl⟩, .before rfl rfl⟩, nofun⟩

end StepResultSet

theorem behaves_iff_safe (q : Query) (preCount isGotoNextRowReturnLastError : Bool)
    (calls : List CursorCall) :
    (∀ t ∈ trace call
        (.create ⟨q, 0, none, []⟩ preCount isGotoNextRowReturnLastError) calls, Behaves q t) ↔
      ∀ t ∈ trace call
        (.create ⟨q, 0, none, []⟩ preCount isGotoNextRowReturnLastError) calls,
        t.pre.Safe q t.call :=
  trace_forall_iff (I := Inv q) (fun _ _ h hsafe => h.call hsafe)
    (fun _ _ h => h.behaves_iff) (create_inv q _ _)

theorem not_behaves_past_end :
    (let q : Query :=
      ⟨[some "INTEGER"], [[.integer 1], [.integer 2]], by decide, by decide, by decide⟩
    let calls : List CursorCall := [.nav .goToFirstRow, .nav (.goToRow 5), .nav .goToNextRow]
    let s := create ⟨q, 0, none, []⟩ true false
    (¬ ∀ t ∈ trace call s calls, Behaves q t) ∧
      (final call s calls).rowPos = 3 ∧
      (final call s calls).get 0 = .ok (.integer 2) ∧
      let calls : List CursorCall := [.nav (.goToRow 2), .nav (.goToRow 2)]
      let s := create ⟨q, 0, none, []⟩ false false
      ¬ ∀ t ∈ trace call s calls, Behaves q t) ∧
    let q : Query := ⟨[none], [[.blob [1]]], by decide, by decide, by decide⟩
    ¬ ∀ t ∈ trace call (.create ⟨q, 0, none, []⟩ true false) [.nav .goToFirstRow],
      Behaves q t := by
  refine ⟨⟨fun h => ?_, by decide, by decide, fun h => ?_⟩, fun h => ?_⟩
  · have hnext := (h _ (.tail _ (.tail _ (.head _)))).2.1
    exact absurd (hnext.ok_iff.mp rfl) (by decide)
  · have hsecond := (h _ (.tail _ (.head _))).2.1
    exact absurd (hsecond.ok_iff.mp rfl) (by decide)
  · obtain ⟨x, _, hx⟩ := (h _ (.head _)).2.2 rfl 0 (by decide)
    exact nomatch hx

end RelationalStore
