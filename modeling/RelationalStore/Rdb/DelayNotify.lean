import RelationalStore.Theory.AssocList
import RelationalStore.Theory.Run

/-! # Delayed notifications

The changed tables are reported early, as a copy, and after a delay, when they are taken out and put
back if the task fails. -/

namespace RelationalStore

open List

structure ChangeProperties where
  isP2pSyncDataChange : Bool
  isKnowledgeDataChange : Bool
  deriving DecidableEq

inductive ChangeFlag where
  | p2pSync
  | knowledge
  deriving DecidableEq

variable (v : ChangeProperties)

def ChangeProperties.has : ChangeFlag → Bool
  | .p2pSync => v.isP2pSyncDataChange
  | .knowledge => v.isKnowledgeDataChange

def ChangeProperties.Within (w : ChangeProperties) : Prop :=
  ∀ flag, v.has flag → w.has flag

instance (w : ChangeProperties) : Decidable (v.Within w) :=
  decidable_of_iff ((v.has .p2pSync → w.has .p2pSync) ∧
    (v.has .knowledge → w.has .knowledge))
    ⟨fun h flag => by cases flag; exacts [h.1, h.2], fun h => ⟨h _, h _⟩⟩

abbrev TableData := List (String × ChangeProperties)

def TableData.carries (d : TableData) (table : String) (flag : ChangeFlag) : Bool :=
  (d.lookup table).any (·.has flag)

structure ChangedData where
  tableData : TableData
  nodup : (tableData.map (·.1)).Nodup

structure NotifyCall where
  tableData : TableData
  isFull : Bool
  deriving DecidableEq

structure DelayNotify where
  tableData : TableData
  isFull : Bool
  tableChanged : Bool
  isInitialized : Bool
  hasPool : Bool
  isTimed : Bool
  early : List NotifyCall
  timed : List NotifyCall
  deriving DecidableEq

namespace DelayNotify

def initial : DelayNotify := ⟨[], false, false, false, false, false, [], []⟩

variable (n : DelayNotify)

def mergeTable (entry : String × ChangeProperties) : DelayNotify :=
  if !entry.2.isP2pSyncDataChange && !entry.2.isKnowledgeDataChange then n
  else
    match n.tableData.lookup entry.1 with
    | some _ => n
    | none => { n with tableData := assign n.tableData entry.1 entry.2, tableChanged := true }

def updateNotify (changedData : ChangedData) (isFull : Bool) : DelayNotify :=
  let merged := changedData.tableData.foldl mergeTable n
  { merged with isFull := merged.isFull || isFull }

def startTimer (isDue : Bool) : DelayNotify :=
  if !n.hasPool then n
  else if n.tableData = [] then { n with isTimed := true }
  else
    let needExecTask := !n.isInitialized || isDue || n.tableChanged
    { n with
      isTimed := true
      isInitialized := true
      tableChanged := false
      early := if needExecTask then n.early ++ [⟨n.tableData, n.isFull⟩] else n.early }

def stopTimer : DelayNotify := { n with isTimed := false }

def executeTask : DelayNotify :=
  { n with
    tableData := []
    isFull := false
    isTimed := false
    timed := if n.tableData ≠ [] ∨ n.isFull then n.timed ++ [⟨n.tableData, n.isFull⟩]
      else n.timed }

def earlyReturns (i : Nat) : DelayNotify := { n with early := n.early.eraseIdx i }

def taskReturns (i : Nat) (succeeds : Bool) : DelayNotify :=
  match n.timed[i]? with
  | none => n
  | some c =>
    { n with
      timed := n.timed.eraseIdx i
      tableData := if succeeds then n.tableData else assignAll n.tableData c.tableData }

end DelayNotify

inductive NotifyStep where
  | setExecutorPool
  | updateNotify (changedData : ChangedData) (isFull : Bool)
  | startTimer (isDue : Bool)
  | stopTimer
  | executeTask
  | earlyReturns (i : Nat) (succeeds : Bool)
  | taskReturns (i : Nat) (succeeds : Bool)

structure NotifyRun where
  notify : DelayNotify
  owed : String → ChangeFlag → Bool
  owedFull : Bool

namespace NotifyRun

def initial : NotifyRun := ⟨.initial, fun _ _ => false, false⟩

variable (r : NotifyRun)

def told (c : NotifyCall) : NotifyRun :=
  { r with
    owed := fun table flag => r.owed table flag && !c.tableData.carries table flag
    owedFull := r.owedFull && !c.isFull }

def returned (calls : List NotifyCall) (i : Nat) (succeeds : Bool) : NotifyRun :=
  match calls[i]? with
  | none => r
  | some c => if succeeds then r.told c else r

def step : NotifyStep → Unit × NotifyRun
  | .setExecutorPool => ((), { r with notify := { r.notify with hasPool := true } })
  | .updateNotify changedData isFull =>
    ((), {
      notify := r.notify.updateNotify changedData isFull
      owed := fun table flag => r.owed table flag || changedData.tableData.carries table flag
      owedFull := r.owedFull || isFull })
  | .startTimer isDue => ((), { r with notify := r.notify.startTimer isDue })
  | .stopTimer => ((), { r with notify := r.notify.stopTimer })
  | .executeTask => ((), { r with notify := r.notify.executeTask })
  | .earlyReturns i succeeds =>
    ((), { r.returned r.notify.early i succeeds with notify := r.notify.earlyReturns i })
  | .taskReturns i succeeds =>
    ((), { r.returned r.notify.timed i succeeds with notify := r.notify.taskReturns i succeeds })

/-- Whatever is owed is pending, or it is what a call of `ExecuteTask` tells at the moment. -/
structure NothingLost (r : NotifyRun) : Prop where
  tables : ∀ table flag, r.owed table flag →
    r.notify.tableData.carries table flag ∨
      ∃ c ∈ r.notify.timed, c.tableData.carries table flag
  full : r.owedFull → r.notify.isFull ∨ ∃ c ∈ r.notify.timed, c.isFull

/-- A pending table gets no flag that it does not have; and a task that fails was not told to do all
and has every flag that came to its tables in the meantime. -/
def KeepsFlags (n : DelayNotify) : NotifyStep → Prop
  | .updateNotify changedData _ =>
    ∀ entry ∈ changedData.tableData, ∀ v ∈ n.tableData.lookup entry.1, entry.2.Within v
  | .taskReturns i false => ∀ c ∈ n.timed[i]?, (c.isFull → n.isFull) ∧
      ∀ entry ∈ c.tableData, ∀ v ∈ n.tableData.lookup entry.1, v.Within entry.2
  | _ => True

instance (n : DelayNotify) (s : NotifyStep) : Decidable (KeepsFlags n s) :=
  match s with
  | .updateNotify .. => inferInstanceAs (Decidable (∀ entry ∈ _, ∀ v ∈ _, _))
  | .taskReturns _ false =>
    inferInstanceAs (Decidable (∀ c ∈ _, _ ∧ ∀ entry ∈ _, ∀ v ∈ _, _))
  | .taskReturns _ true | .setExecutorPool | .startTimer _ | .stopTimer | .executeTask
  | .earlyReturns .. => .isTrue trivial

end NotifyRun

/-! ## What one step does -/

theorem TableData.carries_iff {d : TableData} :
    d.carries table flag ↔ ∃ v, d.lookup table = some v ∧ v.has flag := by
  unfold TableData.carries
  cases d.lookup table <;> simp

theorem TableData.carries_assignAll {d new : TableData} (hnodup : (new.map (·.1)).Nodup)
    (hflags : ∀ entry ∈ new, ∀ v ∈ d.lookup entry.1, v.Within entry.2)
    (h : d.carries table flag ∨ new.carries table flag) :
    TableData.carries (assignAll d new) table flag := by
  rw [carries_iff, carries_iff] at h
  rw [carries_iff, lookup_assignAll hnodup]
  cases hlookup : new.lookup table with
  | none => exact h.resolve_right fun ⟨v, hv, _⟩ => nomatch hv.symm.trans hlookup
  | some v =>
    refine ⟨v, rfl, ?_⟩
    rcases h with ⟨w, hw, hflag⟩ | ⟨w, hw, hflag⟩
    · exact hflags (table, v) (mem_of_lookup hlookup) w hw flag hflag
    · exact Option.some.inj (hw.symm.trans hlookup) ▸ hflag

namespace DelayNotify
variable {n : DelayNotify}

structure Merged (n n' : DelayNotify) (entry : String × ChangeProperties) : Prop where
  timed : n'.timed = n.timed
  isFull : n'.isFull = n.isFull
  keys : (n.tableData.map (·.1)).Nodup → (n'.tableData.map (·.1)).Nodup
  added : ∀ flag, entry.2.has flag → n'.tableData.carries entry.1 flag
  other : ∀ table, table ≠ entry.1 → n'.tableData.lookup table = n.tableData.lookup table
  kept : ∀ table flag, n.tableData.carries table flag →
    n'.tableData.carries table flag

theorem merged_mergeTable {entry : String × ChangeProperties}
    (h : ∀ v ∈ n.tableData.lookup entry.1, entry.2.Within v) :
    n.Merged (n.mergeTable entry) entry := by
  unfold mergeTable
  split
  next hnone =>
    refine ⟨rfl, rfl, id, fun flag hflag => ?_, fun _ _ => rfl, fun _ _ h => h⟩
    simp only [Bool.and_eq_true, Bool.not_eq_eq_eq_not, Bool.not_true] at hnone
    cases flag with
    | p2pSync => simp [ChangeProperties.has, hnone.1] at hflag
    | knowledge => simp [ChangeProperties.has, hnone.2] at hflag
  · cases hlookup : n.tableData.lookup entry.1 with
    | some v =>
      exact ⟨rfl, rfl, id, fun flag hflag => TableData.carries_iff.mpr
        ⟨v, hlookup, h v hlookup flag hflag⟩, fun _ _ => rfl, fun _ _ h => h⟩
    | none =>
      refine ⟨rfl, rfl, keys_assign, fun flag hflag => TableData.carries_iff.mpr
        ⟨entry.2, lookup_assign_self, hflag⟩, fun _ hne => lookup_assign_of_ne hne,
        fun table flag hcarries => ?_⟩
      obtain ⟨v, hv, hflag⟩ := TableData.carries_iff.mp hcarries
      have hne : table ≠ entry.1 := by
        rintro rfl
        exact nomatch hv.symm.trans hlookup
      exact TableData.carries_iff.mpr ⟨v, (lookup_assign_of_ne hne).trans hv, hflag⟩

theorem foldl_mergeTable {entries : List (String × ChangeProperties)}
    (hnodup : (entries.map (·.1)).Nodup)
    (h : ∀ entry ∈ entries, ∀ v ∈ n.tableData.lookup entry.1, entry.2.Within v) :
    (entries.foldl mergeTable n).timed = n.timed ∧
      (entries.foldl mergeTable n).isFull = n.isFull ∧
      ((n.tableData.map (·.1)).Nodup → ((entries.foldl mergeTable n).tableData.map (·.1)).Nodup) ∧
      (∀ entry ∈ entries, ∀ flag, entry.2.has flag →
        (entries.foldl mergeTable n).tableData.carries entry.1 flag) ∧
      ∀ table flag, n.tableData.carries table flag →
        (entries.foldl mergeTable n).tableData.carries table flag := by
  induction entries generalizing n with
  | nil => exact ⟨rfl, rfl, id, fun _ h => (nomatch h), fun _ _ h => h⟩
  | cons entry entries ih =>
    obtain ⟨hfresh, hnodup⟩ := nodup_cons.mp hnodup
    have hmerged := merged_mergeTable (h entry mem_cons_self)
    have hrest : ∀ e ∈ entries, ∀ v ∈ (n.mergeTable entry).tableData.lookup e.1,
        e.2.Within v := by
      intro e he v hv
      have hne : e.1 ≠ entry.1 := fun heq => hfresh (mem_map.mpr ⟨e, he, heq⟩)
      rw [hmerged.other _ hne] at hv
      exact h e (mem_cons_of_mem _ he) v hv
    obtain ⟨htimed, hfull, hkeys, hadded, hkept⟩ := ih hnodup hrest
    refine ⟨htimed.trans hmerged.timed, hfull.trans hmerged.isFull,
      fun hn => hkeys (hmerged.keys hn), fun e he flag hflag => ?_,
      fun table flag hc => hkept table flag (hmerged.kept table flag hc)⟩
    rcases mem_cons.mp he with rfl | he
    · exact hkept _ _ (hmerged.added flag hflag)
    · exact hadded e he flag hflag

end DelayNotify

namespace NotifyRun
variable {r : NotifyRun}

structure Inv (r : NotifyRun) : Prop where
  nothingLost : r.NothingLost
  keys : (r.notify.tableData.map (·.1)).Nodup
  timedKeys : ∀ c ∈ r.notify.timed, (c.tableData.map (·.1)).Nodup

theorem inv_initial : initial.Inv where
  nothingLost := ⟨fun _ _ h => (nomatch h), fun h => nomatch h⟩
  keys := .nil
  timedKeys _ h := nomatch h

theorem Inv.mono {r' : NotifyRun} (h : r.Inv) (hdata : r'.notify.tableData = r.notify.tableData)
    (hfull : r'.notify.isFull = r.notify.isFull) (htimed : r'.notify.timed = r.notify.timed)
    (howed : ∀ table flag, r'.owed table flag → r.owed table flag)
    (howedFull : r'.owedFull → r.owedFull) : r'.Inv := by
  refine ⟨⟨fun table flag ht => ?_, fun ht => ?_⟩, hdata ▸ h.keys, htimed ▸ h.timedKeys⟩
  · rw [hdata, htimed]
    exact h.nothingLost.tables table flag (howed table flag ht)
  · rw [hfull, htimed]
    exact h.nothingLost.full (howedFull ht)

theorem Inv.updateNotify (h : r.Inv) {changedData : ChangedData} (isFull : Bool)
    (hs : KeepsFlags r.notify (.updateNotify changedData isFull)) :
    (r.step (.updateNotify changedData isFull)).2.Inv := by
  obtain ⟨htimed, hfull, hkeys, hadded, hkept⟩ :=
    DelayNotify.foldl_mergeTable (n := r.notify) changedData.nodup hs
  refine ⟨⟨fun table flag ht => ?_, fun ht => ?_⟩, hkeys h.keys, fun c hc => ?_⟩
  · change _ ∨ ∃ c ∈ (changedData.tableData.foldl DelayNotify.mergeTable r.notify).timed, _
    rw [htimed]
    rcases Bool.or_eq_true_iff.mp ht with ht | ht
    · exact (h.nothingLost.tables table flag ht).imp_left (hkept table flag)
    · obtain ⟨v, hv, hflag⟩ := TableData.carries_iff.mp ht
      exact .inl (hadded (table, v) (mem_of_lookup hv) flag hflag)
  · change (_ || _) ∨ ∃ c ∈ (changedData.tableData.foldl DelayNotify.mergeTable
      r.notify).timed, _
    rw [htimed, hfull]
    rcases Bool.or_eq_true_iff.mp ht with ht | ht
    · exact (h.nothingLost.full ht).imp_left fun hf => by rw [hf, Bool.true_or]
    · exact .inl (by rw [ht, Bool.or_true])
  · exact h.timedKeys c (htimed ▸ hc)

theorem owed_of_returned (calls : List NotifyCall) (i : Nat) (succeeds : Bool) :
    (∀ table flag, (r.returned calls i succeeds).owed table flag →
      r.owed table flag) ∧
      ((r.returned calls i succeeds).owedFull → r.owedFull) := by
  unfold returned
  split
  · exact ⟨fun _ _ h => h, id⟩
  · split
    · exact ⟨fun _ _ h => (Bool.and_eq_true_iff.mp h).1, fun h => (Bool.and_eq_true_iff.mp h).1⟩
    · exact ⟨fun _ _ h => h, id⟩

theorem Inv.executeTask (h : r.Inv) : (r.step .executeTask).2.Inv := by
  have hmem {P : NotifyCall → Prop} (hP : P ⟨r.notify.tableData, r.notify.isFull⟩)
      (hpending : r.notify.tableData ≠ [] ∨ r.notify.isFull) :
      ∃ c ∈ r.notify.executeTask.timed, P c := by
    simp only [DelayNotify.executeTask, if_pos hpending]
    exact ⟨_, mem_append_right _ (mem_singleton.mpr rfl), hP⟩
  have hold (c : NotifyCall) (hc : c ∈ r.notify.timed) : c ∈ r.notify.executeTask.timed := by
    simp only [DelayNotify.executeTask]
    split
    · exact mem_append_left _ hc
    · exact hc
  refine ⟨⟨fun table flag ht => .inr ?_, fun ht => .inr ?_⟩, .nil, fun c hc => ?_⟩
  · rcases h.nothingLost.tables table flag ht with hdata | ⟨c, hc, hcarries⟩
    · refine hmem (P := fun c => c.tableData.carries table flag) hdata
        (.inl fun hnil => ?_)
      rw [hnil] at hdata
      exact nomatch hdata
    · exact ⟨c, hold c hc, hcarries⟩
  · rcases h.nothingLost.full ht with hfull | ⟨c, hc, hfull⟩
    · exact hmem (P := fun c => c.isFull) hfull (.inr hfull)
    · exact ⟨c, hold c hc, hfull⟩
  · change c ∈ (if _ then _ else _) at hc
    split at hc
    · rcases mem_append.mp hc with hc | hc
      · exact h.timedKeys c hc
      · exact mem_singleton.mp hc ▸ h.keys
    · exact h.timedKeys c hc

variable {i : Nat} {c : NotifyCall}

theorem exists_mem_eraseIdx {P : NotifyCall → Prop} {calls : List NotifyCall}
    (hcall : calls[i]? = some c) (h : ∃ c' ∈ calls, P c') :
    P c ∨ ∃ c' ∈ calls.eraseIdx i, P c' := by
  obtain ⟨c', hmem, hP⟩ := h
  obtain ⟨j, hj⟩ := getElem?_of_mem hmem
  by_cases hij : j = i
  · subst hij
    exact .inl (Option.some.inj (hj.symm.trans hcall) ▸ hP)
  · exact .inr ⟨c', mem_eraseIdx_iff_getElem?.mpr ⟨j, hij, hj⟩, hP⟩

theorem NothingLost.taskSucceeds (h : r.NothingLost) (hcall : r.notify.timed[i]? = some c) :
    (NotifyRun.mk { r.notify with timed := r.notify.timed.eraseIdx i } (r.told c).owed
      (r.told c).owedFull).NothingLost := by
  constructor
  · intro table flag howed
    obtain ⟨howe, htold⟩ := Bool.and_eq_true_iff.mp howed
    refine (h.tables table flag howe).imp_right fun hcalls => ?_
    refine (exists_mem_eraseIdx hcall hcalls).resolve_left fun hcarries => ?_
    rw [hcarries] at htold
    exact nomatch htold
  · intro howed
    obtain ⟨howe, htold⟩ := Bool.and_eq_true_iff.mp howed
    refine (h.full howe).imp_right fun hcalls => ?_
    refine (exists_mem_eraseIdx hcall hcalls).resolve_left fun hfull => ?_
    rw [hfull] at htold
    exact nomatch htold

theorem Inv.taskFails (h : r.Inv)
    (hcall : r.notify.timed[i]? = some c) (hs : KeepsFlags r.notify (.taskReturns i false)) :
    (NotifyRun.mk { r.notify with
      timed := r.notify.timed.eraseIdx i
      tableData := assignAll r.notify.tableData c.tableData } r.owed r.owedFull).NothingLost := by
  obtain ⟨hfull, hflags⟩ := hs c hcall
  have hback {table : String} {flag : ChangeFlag}
      (hcarries : r.notify.tableData.carries table flag ∨
        c.tableData.carries table flag) :
      TableData.carries (assignAll r.notify.tableData c.tableData) table flag :=
    TableData.carries_assignAll (h.timedKeys c (mem_of_getElem? hcall)) hflags hcarries
  constructor
  · intro table flag howed
    rcases h.nothingLost.tables table flag howed with hdata | hcalls
    · exact .inl (hback (.inl hdata))
    · exact (exists_mem_eraseIdx hcall hcalls).imp_left fun hcarries => hback (.inr hcarries)
  · intro howed
    rcases h.nothingLost.full howed with hpending | hcalls
    · exact .inl hpending
    · exact (exists_mem_eraseIdx hcall hcalls).imp_left hfull

theorem Inv.taskReturns (h : r.Inv) (i : Nat) (succeeds : Bool)
    (hs : KeepsFlags r.notify (.taskReturns i succeeds)) :
    (r.step (.taskReturns i succeeds)).2.Inv := by
  cases hcall : r.notify.timed[i]? with
  | none =>
    have hstep : (r.step (.taskReturns i succeeds)).2 = r := by
      simp [step, returned, DelayNotify.taskReturns, hcall]
    rwa [hstep]
  | some c =>
    have htimed : ∀ c' ∈ r.notify.timed.eraseIdx i, (c'.tableData.map (·.1)).Nodup := fun c' hc' =>
      h.timedKeys c' (mem_of_mem_eraseIdx hc')
    cases succeeds with
    | true =>
      have hstep : (r.step (.taskReturns i true)).2 = NotifyRun.mk
          { r.notify with timed := r.notify.timed.eraseIdx i } (r.told c).owed
            (r.told c).owedFull := by
        simp [step, returned, DelayNotify.taskReturns, hcall]
      rw [hstep]
      exact ⟨h.nothingLost.taskSucceeds hcall, h.keys, htimed⟩
    | false =>
      have hstep : (r.step (.taskReturns i false)).2 = NotifyRun.mk { r.notify with
          timed := r.notify.timed.eraseIdx i
          tableData := assignAll r.notify.tableData c.tableData } r.owed r.owedFull := by
        simp [step, returned, DelayNotify.taskReturns, hcall]
      rw [hstep]
      exact ⟨h.taskFails hcall hs, keys_assignAll h.keys, htimed⟩

theorem Inv.step (h : r.Inv) (s : NotifyStep) (hs : KeepsFlags r.notify s) : (r.step s).2.Inv := by
  cases s with
  | setExecutorPool | stopTimer => exact h.mono rfl rfl rfl (fun _ _ ht => ht) id
  | updateNotify changedData isFull => exact h.updateNotify isFull hs
  | startTimer isDue =>
    have hsame : (r.notify.startTimer isDue).tableData = r.notify.tableData ∧
        (r.notify.startTimer isDue).isFull = r.notify.isFull ∧
        (r.notify.startTimer isDue).timed = r.notify.timed := by
      unfold DelayNotify.startTimer
      split
      · exact ⟨rfl, rfl, rfl⟩
      · split <;> exact ⟨rfl, rfl, rfl⟩
    exact h.mono hsame.1 hsame.2.1 hsame.2.2 (fun _ _ ht => ht) id
  | executeTask => exact h.executeTask
  | earlyReturns i succeeds =>
    obtain ⟨howed, howedFull⟩ := owed_of_returned (r := r) r.notify.early i succeeds
    exact h.mono rfl rfl rfl howed howedFull
  | taskReturns i succeeds => exact h.taskReturns i succeeds hs

end NotifyRun

theorem nothingLost_of_keepsFlags (steps : List NotifyStep)
    (h : ∀ t ∈ trace NotifyRun.step .initial steps, NotifyRun.KeepsFlags t.pre.notify t.call) :
    ∀ t ∈ trace NotifyRun.step .initial steps, t.post.NothingLost :=
  trace_forall (I := NotifyRun.Inv) (G := fun r (s : NotifyStep) => NotifyRun.KeepsFlags r.notify s)
    (fun _ s hinv hs => ⟨hinv.step s hs, (hinv.step s hs).nothingLost⟩) NotifyRun.inv_initial h

def changeOf (isP2pSync isKnowledge : Bool) : ChangedData :=
  ⟨[("t", ⟨isP2pSync, isKnowledge⟩)], pairwise_singleton _ _⟩

theorem nothingLost_of_keepsFlags_retry :
    let run := trace NotifyRun.step .initial [.setExecutorPool,
      .updateNotify (changeOf true true) false, .startTimer false, .earlyReturns 0 false,
      .executeTask, .updateNotify (changeOf true false) true, .taskReturns 0 false,
      .startTimer false, .executeTask, .taskReturns 0 true]
    (∀ t ∈ run, NotifyRun.KeepsFlags t.pre.notify t.call) ∧ (∀ t ∈ run, t.post.NothingLost) ∧
      run.map (·.post.owed "t" .knowledge) =
        [false, true, true, true, true, true, true, true, true, false] :=
  ⟨by decide, nothingLost_of_keepsFlags _ (by decide), by decide⟩

theorem notification_lost :
    let merged := final NotifyRun.step .initial
      [.updateNotify (changeOf true false) false, .updateNotify (changeOf false true) false]
    let failed := final NotifyRun.step .initial [.setExecutorPool,
      .updateNotify (changeOf true false) true, .startTimer false, .executeTask,
      .updateNotify (changeOf false true) false, .taskReturns 0 false]
    (merged.owed "t" .knowledge ∧ merged.notify.timed = [] ∧
      merged.notify.tableData.carries "t" .knowledge = false) ∧
      (failed.owed "t" .knowledge ∧ failed.owedFull ∧ failed.notify.timed = [] ∧
        failed.notify.tableData.carries "t" .knowledge = false ∧ failed.notify.isFull = false) := by
  decide

end RelationalStore
