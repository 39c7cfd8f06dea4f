import RelationalStore.Theory.Run

/-! # Cloud synchronisation

`DoCloudSync` schedules a task only when no change was pending: the others rely on that task. -/

namespace RelationalStore

open List

structure CloudTables where
  tables : List String
  changes : List String
  scheduling : Nat
  scheduled : Nat
  deriving DecidableEq

inductive CloudStep where
  | addTables (tables : List String)
  | rmvTables (tables : List String)
  | change (table : String)
  | schedule (hasPool : Bool)
  | execute

namespace CloudTables

def initial : CloudTables := ⟨[], [], 0, 0⟩

def addTables (c : CloudTables) (tables : List String) : CloudTables :=
  { c with tables := tables.foldl (fun ts t => ts.insert t) c.tables }

def rmvTables (c : CloudTables) (tables : List String) : CloudTables :=
  { c with tables := tables.foldl (fun ts t => ts.filter (· ≠ t)) c.tables }

def change (c : CloudTables) (table : String) : Bool × CloudTables :=
  if c.tables = [] ∨ (table ≠ "" ∧ table ∉ c.tables) then (false, c)
  else
    let changes := if table ≠ "" then c.changes.insert table else c.changes ∪ c.tables
    (decide (c.changes = []), { c with changes })

def steal (c : CloudTables) : List String × CloudTables := (c.changes, { c with changes := [] })

def step (c : CloudTables) : CloudStep → List String × CloudTables
  | .addTables tables => ([], c.addTables tables)
  | .rmvTables tables => ([], c.rmvTables tables)
  | .change table =>
    let (needSync, c) := c.change table
    ([], if needSync then { c with scheduling := c.scheduling + 1 } else c)
  | .schedule hasPool =>
    if c.scheduling = 0 then ([], c)
    else if hasPool then
      ([], { c with scheduling := c.scheduling - 1, scheduled := c.scheduled + 1 })
    else ([], { c with scheduling := c.scheduling - 1 })
  | .execute =>
    if c.scheduled = 0 then ([], c)
    else
      let (tables, c) := c.steal
      (tables, { c with scheduled := c.scheduled - 1 })

def recorded (c : CloudTables) (table : String) : List String :=
  if table = "" then c.tables else c.tables.filter (· = table)

/-- No change gets lost in the step. -/
structure NothingLost (t : Transition CloudTables CloudStep (List String)) : Prop where
  covered : t.post.changes ≠ [] → 0 < t.post.scheduling + t.post.scheduled
  stolen : ∀ x ∈ t.ret, x ∈ t.pre.tables
  kept : ∀ x ∈ t.pre.changes, x ∈ t.post.changes ∨ x ∈ t.ret
  changed : ∀ table, t.call = .change table → ∀ x ∈ t.pre.recorded table, x ∈ t.post.changes

/-- An executor is there when a task is to be scheduled, and no table is removed while it has
changes. -/
def Undisturbed (c : CloudTables) : CloudStep → Prop
  | .schedule hasPool => hasPool ∨ c.scheduling = 0
  | .rmvTables tables => ∀ x ∈ c.changes, x ∉ tables
  | _ => True

instance (c : CloudTables) (s : CloudStep) : Decidable (c.Undisturbed s) :=
  match s with
  | .schedule _ => inferInstanceAs (Decidable (_ ∨ _))
  | .rmvTables _ => inferInstanceAs (Decidable (∀ x ∈ _, _))
  | .addTables _ | .change _ | .execute => .isTrue trivial

structure Inv (c : CloudTables) : Prop where
  covered : c.changes ≠ [] → 0 < c.scheduling + c.scheduled
  configured : ∀ x ∈ c.changes, x ∈ c.tables

theorem inv_initial : initial.Inv where
  covered h := absurd rfl h
  configured _ h := nomatch h

variable {c : CloudTables}

theorem mem_addTables {tables : List String} (h : x ∈ c.tables) : x ∈ (c.addTables tables).tables :=
  List.foldlRecOn (motive := fun ts => x ∈ ts) _ _ h fun _ hx _ _ => mem_insert_of_mem hx

theorem mem_rmvTables {tables : List String} (h : x ∈ c.tables) (hx : x ∉ tables) :
    x ∈ (c.rmvTables tables).tables := by
  refine List.foldlRecOn (motive := fun ts => x ∈ ts) _ _ h fun ts hmem t ht => ?_
  have hne : x ≠ t := fun heq => hx (heq ▸ ht)
  exact mem_filter.mpr ⟨hmem, decide_eq_true hne⟩

theorem change_cases (c : CloudTables) (table : String) :
    (c.change table = (false, c) ∧ c.recorded table = []) ∨
      ∃ changes, c.change table = (decide (c.changes = []), { c with changes }) ∧ changes ≠ [] ∧
        ∀ x, x ∈ changes ↔ x ∈ c.changes ∨ x ∈ c.recorded table := by
  unfold change recorded
  by_cases hrefused : c.tables = [] ∨ (table ≠ "" ∧ table ∉ c.tables)
  · rw [if_pos hrefused]
    refine .inl ⟨rfl, ?_⟩
    rcases hrefused with hnil | ⟨hne, hmem⟩
    · simp [hnil]
    · rw [if_neg hne]
      exact filter_eq_nil_iff.mpr fun x hx heq => hmem (of_decide_eq_true heq ▸ hx)
  · rw [if_neg hrefused]
    obtain ⟨hne, hmem⟩ := not_or.mp hrefused
    by_cases hempty : table = ""
    · refine .inr ⟨c.changes ∪ c.tables, by simp [hempty], fun hnil => ?_,
        fun x => by simp [hempty]⟩
      obtain ⟨t, ht⟩ := exists_mem_of_ne_nil _ hne
      exact ne_nil_of_mem (mem_union_iff.mpr (.inr ht)) hnil
    · have htable : table ∈ c.tables := not_not.mp fun h => hmem ⟨hempty, h⟩
      refine .inr ⟨c.changes.insert table, by simp [hempty], ?_, fun x => ?_⟩
      · exact ne_nil_of_mem mem_insert_self
      · simp only [hempty, if_false, mem_insert_iff, mem_filter, decide_eq_true_eq]
        constructor
        · rintro (rfl | hx)
          · exact .inr ⟨htable, rfl⟩
          · exact .inl hx
        · rintro (hx | ⟨-, rfl⟩)
          · exact .inr hx
          · exact .inl rfl

theorem Inv.change (h : c.Inv) (table : String) :
    (c.step (.change table)).2.Inv ∧ NothingLost (transition step c (.change table)) := by
  rcases change_cases c table with ⟨hchange, hrecorded⟩ | ⟨changes, hchange, hne, hmem⟩
  · have hstep : c.step (.change table) = ([], c) := by simp [step, hchange]
    have hcall (t : String) (heq : CloudStep.change table = .change t) :
        ∀ x ∈ c.recorded t, x ∈ c.changes := by
      cases heq
      exact fun x hx => by simp [hrecorded] at hx
    simp only [transition, hstep]
    exact ⟨h, h.covered, fun _ hx => (nomatch hx), fun x hx => .inl hx, hcall⟩
  · have hcovered : 0 < (if decide (c.changes = []) then c.scheduling + 1 else c.scheduling) +
        c.scheduled := by
      by_cases hnil : c.changes = []
      · rw [if_pos (decide_eq_true hnil)]
        omega
      · simpa [hnil] using h.covered hnil
    have hconfigured : ∀ x ∈ changes, x ∈ c.tables := by
      intro x hx
      rcases (hmem x).mp hx with hx | hx
      · exact h.configured x hx
      · unfold recorded at hx
        split at hx
        · exact hx
        · exact (mem_filter.mp hx).1
    have hstep : c.step (.change table) = ([], { c with
        changes
        scheduling := if decide (c.changes = []) then c.scheduling + 1 else c.scheduling }) := by
      simp only [step, hchange]
      split <;> rfl
    simp only [transition, hstep]
    refine ⟨⟨fun _ => hcovered, hconfigured⟩, fun _ => hcovered, fun _ hx => (nomatch hx),
      fun x hx => .inl ((hmem x).mpr (.inl hx)), fun t heq x hx => ?_⟩
    cases heq
    exact (hmem x).mpr (.inr hx)

theorem Inv.step (h : c.Inv) (s : CloudStep) (hs : c.Undisturbed s) :
    (c.step s).2.Inv ∧ NothingLost (transition CloudTables.step c s) := by
  cases s with
  | addTables tables =>
    exact ⟨⟨h.covered, fun x hx => mem_addTables (h.configured x hx)⟩, h.covered,
      fun _ hx => (nomatch hx), fun x hx => .inl hx, fun _ heq => (nomatch heq)⟩
  | rmvTables tables =>
    exact ⟨⟨h.covered, fun x hx => mem_rmvTables (h.configured x hx) (hs x hx)⟩, h.covered,
      fun _ hx => (nomatch hx), fun x hx => .inl hx, fun _ heq => (nomatch heq)⟩
  | change table => exact h.change table
  | schedule hasPool =>
    by_cases hzero : c.scheduling = 0
    · have hstep : c.step (.schedule hasPool) = ([], c) := if_pos hzero
      simp only [transition, hstep]
      exact ⟨h, h.covered, fun _ hx => (nomatch hx), fun x hx => .inl hx,
        fun _ heq => (nomatch heq)⟩
    · obtain rfl : hasPool := hs.resolve_right hzero
      have hstep : c.step (.schedule true) = ([], { c with
          scheduling := c.scheduling - 1, scheduled := c.scheduled + 1 }) := if_neg hzero
      have hcovered : 0 < c.scheduling - 1 + (c.scheduled + 1) := by omega
      simp only [transition, hstep]
      exact ⟨⟨fun _ => hcovered, h.configured⟩, fun _ => hcovered, fun _ hx => (nomatch hx),
        fun x hx => .inl hx, fun _ heq => (nomatch heq)⟩
  | execute =>
    by_cases hzero : c.scheduled = 0
    · have hstep : c.step .execute = ([], c) := if_pos hzero
      simp only [transition, hstep]
      exact ⟨h, h.covered, fun _ hx => (nomatch hx), fun x hx => .inl hx,
        fun _ heq => (nomatch heq)⟩
    · have hstep : c.step .execute = (c.changes, { c with
          changes := [], scheduled := c.scheduled - 1 }) := if_neg hzero
      simp only [transition, hstep]
      exact ⟨⟨fun hne => absurd rfl hne, fun _ hx => (nomatch hx)⟩, fun hne => absurd rfl hne,
        h.configured, fun x hx => .inr hx, fun _ heq => (nomatch heq)⟩

end CloudTables

theorem nothingLost_of_undisturbed (steps : List CloudStep)
    (h : ∀ t ∈ trace CloudTables.step .initial steps, t.pre.Undisturbed t.call) :
    ∀ t ∈ trace CloudTables.step .initial steps, CloudTables.NothingLost t :=
  trace_forall (G := fun s (c : CloudStep) => CloudTables.Undisturbed s c)
    (fun _ s hinv hs => hinv.step s hs) CloudTables.inv_initial h

theorem nothingLost_of_undisturbed_twice :
    let run := trace CloudTables.step .initial [.addTables ["t", "u"], .change "t", .schedule true,
      .change "u", .execute, .rmvTables ["t"], .change ""]
    (∀ t ∈ run, t.pre.Undisturbed t.call) ∧ (∀ t ∈ run, CloudTables.NothingLost t) ∧
      run.any (·.ret = ["u", "t"]) :=
  ⟨by decide, nothingLost_of_undisturbed _ (by decide), by decide⟩

theorem change_without_executor :
    let silenced := final CloudTables.step .initial
      [.addTables ["t"], .change "t", .schedule false, .change "t", .schedule true]
    let removed := final CloudTables.step .initial
      [.addTables ["t"], .change "t", .schedule true, .rmvTables ["t"]]
    silenced = ⟨["t"], ["t"], 0, 0⟩ ∧ removed.tables = [] ∧ (removed.step .execute).1 = ["t"] := by
  decide

end RelationalStore
