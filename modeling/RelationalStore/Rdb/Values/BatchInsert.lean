import RelationalStore.Rdb.Values.GenerateSqls

/-! # Batch insert

Each execution is committed on its own, and the first that fails ends the call. -/

namespace RelationalStore.Values

open List ValuesBuckets

structure BatchEnv where
  isReadOnly : Bool
  hasPool : Bool
  hasConn : Bool
  maxVariable : Nat
  prepares : Nat → Bool
  executes : Nat → Nat → Except RdbError Unit

abbrev Row := List ValueObject

def deref (heap : List ValueObject) : Option Nat → ValueObject
  | none => .null
  | some ref => heap.getD ref .null

def insertedRows (heap : List ValueObject) (fieldSize : Nat) (args : List (Option Nat)) :
    List Row :=
  (allChunks fieldSize args).map fun row => row.map (deref heap)

def failureCode (e : RdbError) : Option RdbError :=
  if e = .sqliteLocked ∨ e = .sqliteBusy then some e else none

section
variable (env : BatchEnv) (heap : List ValueObject) (fieldSize : Nat)

def executeArgs (i : Nat) : Nat → List (List (Option Nat)) → List Row →
    Except (Option RdbError) Unit × List Row
  | _, [], rows => (.ok (), rows)
  | j, args :: bindArgs, rows =>
    match env.executes i j with
    | .error e => (.error (failureCode e), rows)
    | .ok () => executeArgs i (j + 1) bindArgs (rows ++ insertedRows heap fieldSize args)

def executeSqls : Nat → BatchSqls (Option Nat) → List Row →
    Except (Option RdbError) Unit × List Row
  | _, [], rows => (.ok (), rows)
  | i, (_, bindArgs) :: sqls, rows =>
    if env.prepares i then
      match executeArgs env heap fieldSize i 0 bindArgs rows with
      | (.error code, rows) => (.error code, rows)
      | (.ok (), rows) => executeSqls (i + 1) sqls rows
    else (.error none, rows)

end

def batchInsert (env : BatchEnv) (table : String) (b : ValuesBuckets) (rows : List Row) :
    (Option RdbError × Int) × List Row :=
  if env.isReadOnly then ((some .notSupport, -1), rows)
  else if b.rowSize = 0 then ((none, 0), rows)
  else if ¬ env.hasPool then ((some .alreadyClosed, -1), rows)
  else if ¬ env.hasConn then ((some .databaseBusy, -1), rows)
  else
    let generated := b.generateSqls table env.maxVariable .none
    if generated.1 = [] then ((some .invalidArgs, -1), rows)
    else
      match executeSqls env generated.2.values.heap b.fields.length 0 generated.1 rows with
      | (.error code, rows) => ((code, -1), rows)
      | (.ok (), rows) => ((none, b.rowSize), rows)

/-! ## What is meant -/

def ValuesBuckets.rowsToInsert (b : ValuesBuckets) (table : String) (limit : Nat) : List Row :=
  b.matrix.map fun row => row.map (deref (b.generateSqls table limit .none).2.values.heap)

def ReportsTable (env : BatchEnv) (table : String) (b : ValuesBuckets) (rows : List Row) : Prop :=
  let result := batchInsert env table b rows
  (result.1 = (none, (b.rowSize : Int)) →
    result.2 = rows ++ b.rowsToInsert table env.maxVariable) ∧
  (result.1.2 = -1 → result.2 = rows)

def chunkCounts (rowSize fieldSize limit : Nat) : List Nat :=
  let maxRows := limit / fieldSize
  (if rowSize / maxRows ≠ 0 then [rowSize / maxRows] else []) ++
    if rowSize % maxRows ≠ 0 then [1] else []

def chunkOutcomes (env : BatchEnv) (counts : List Nat) : List Bool :=
  counts.zipIdx.flatMap fun p => (List.range p.1).map fun j =>
    env.prepares p.2 && (env.executes p.2 j).isOk

def BatchEnv.Runs (env : BatchEnv) (b : ValuesBuckets) : Prop :=
  env.isReadOnly = false ∧ b.rowSize ≠ 0 ∧ env.hasPool = true ∧ env.hasConn = true ∧
    b.fields ≠ [] ∧ b.fields.length ≤ env.maxVariable

def BatchEnv.AllOrNone (env : BatchEnv) (b : ValuesBuckets) : Prop :=
  let outcomes := chunkOutcomes env (chunkCounts b.rowSize b.fields.length env.maxVariable)
  outcomes.head? = some true → ∀ outcome ∈ outcomes, outcome = true

/-! ## The chunks one after the other -/

def runChunks : List (Bool × List Row) → List Row → Bool × List Row
  | [], rows => (true, rows)
  | (true, inserted) :: chunks, rows => runChunks chunks (rows ++ inserted)
  | (false, _) :: _, rows => (false, rows)

variable {env : BatchEnv} {heap : List ValueObject} {fieldSize : Nat}

theorem runChunks_append (cs ds : List (Bool × List Row)) (rows : List Row) :
    runChunks (cs ++ ds) rows =
      if (runChunks cs rows).1 then runChunks ds (runChunks cs rows).2
      else (false, (runChunks cs rows).2) := by
  induction cs generalizing rows with
  | nil => rfl
  | cons c cs ih =>
    obtain ⟨outcome, inserted⟩ := c
    cases outcome with
    | true => exact ih _
    | false => rfl

theorem prefix_runChunks (cs : List (Bool × List Row)) (rows : List Row) :
    rows <+: (runChunks cs rows).2 := by
  induction cs generalizing rows with
  | nil => exact prefix_rfl
  | cons c cs ih =>
    obtain ⟨outcome, inserted⟩ := c
    cases outcome with
    | true => exact (prefix_append _ _).trans (ih _)
    | false => exact prefix_rfl

variable {cs : List (Bool × List Row)}

theorem runChunks_all (rows : List Row) (h : ∀ outcome ∈ cs.map (·.1), outcome = true) :
    runChunks cs rows = (true, rows ++ cs.flatMap (·.2)) := by
  induction cs generalizing rows with
  | nil => simp [runChunks]
  | cons c cs ih =>
    obtain ⟨outcome, inserted⟩ := c
    obtain rfl : outcome = true := h _ mem_cons_self
    rw [runChunks, ih _ fun o ho => h o (mem_cons_of_mem _ ho), flatMap_cons,
      append_assoc]

theorem runChunks_fst (rows : List Row) :
    (runChunks cs rows).1 = true ↔ ∀ outcome ∈ cs.map (·.1), outcome = true := by
  induction cs generalizing rows with
  | nil => exact iff_of_true rfl fun _ h => nomatch h
  | cons c cs ih =>
    obtain ⟨outcome, inserted⟩ := c
    rw [map_cons, forall_mem_cons]
    cases outcome with
    | true => exact (ih _).trans (and_iff_right rfl).symm
    | false => exact iff_of_false (fun h => nomatch h) fun h => nomatch h.1

theorem runChunks_snd (rows : List Row) (hne : ∀ c ∈ cs, c.2 ≠ []) :
    (runChunks cs rows).2 = rows ↔ (cs.map (·.1)).head? ≠ some true := by
  cases cs with
  | nil => exact iff_of_true rfl fun h => nomatch h
  | cons c cs =>
    obtain ⟨outcome, inserted⟩ := c
    cases outcome with
    | false => exact iff_of_true rfl fun h => nomatch h
    | true =>
      refine iff_of_false (fun heq => hne _ mem_cons_self ?_) fun h => h rfl
      change inserted = []
      have hlength := (prefix_runChunks cs (rows ++ inserted)).length_le
      rw [show (runChunks cs (rows ++ inserted)).2 = rows from heq, length_append] at hlength
      exact length_eq_zero_iff.mp (by omega)

def chunksOf (env : BatchEnv) (heap : List ValueObject) (fieldSize i : Nat)
    (sqls : BatchSqls (Option Nat)) : List (Bool × List Row) :=
  (sqls.zipIdx i).flatMap fun p => p.1.2.zipIdx.map fun q =>
    (env.prepares p.2 && (env.executes p.2 q.2).isOk, insertedRows heap fieldSize q.1)

theorem executeArgs_eq (heap : List ValueObject) (fieldSize : Nat)
    (hprepares : env.prepares i = true) (bindArgs : List (List (Option Nat))) (j : Nat)
    (rows : List Row) :
    ((executeArgs env heap fieldSize i j bindArgs rows).1.isOk,
        (executeArgs env heap fieldSize i j bindArgs rows).2) =
      runChunks ((bindArgs.zipIdx j).map fun q =>
        (env.prepares i && (env.executes i q.2).isOk, insertedRows heap fieldSize q.1)) rows := by
  induction bindArgs generalizing j rows with
  | nil => rfl
  | cons args bindArgs ih =>
    rw [zipIdx_cons, map_cons]
    unfold executeArgs
    cases hexecutes : env.executes i j with
    | error e => simp [hprepares, runChunks, Except.isOk, Except.toBool]
    | ok u =>
      have hchunk : (env.prepares i && Except.isOk (.ok u : Except RdbError Unit)) = true := by
        rw [hprepares]
        rfl
      rw [hchunk]
      exact ih (j + 1) _

theorem executeSqls_eq (env : BatchEnv) (heap : List ValueObject) (fieldSize : Nat)
    (hne : ∀ s ∈ sqls, s.2 ≠ []) (i : Nat) (rows : List Row) :
    ((executeSqls env heap fieldSize i sqls rows).1.isOk,
        (executeSqls env heap fieldSize i sqls rows).2) =
      runChunks (chunksOf env heap fieldSize i sqls) rows := by
  induction sqls generalizing i rows with
  | nil => rfl
  | cons s sqls ih =>
    obtain ⟨text, bindArgs⟩ := s
    have hcons : chunksOf env heap fieldSize i ((text, bindArgs) :: sqls) =
        (bindArgs.zipIdx.map fun q =>
          (env.prepares i && (env.executes i q.2).isOk, insertedRows heap fieldSize q.1)) ++
        chunksOf env heap fieldSize (i + 1) sqls := by
      rw [chunksOf, zipIdx_cons, flatMap_cons]
      rfl
    rw [hcons]
    unfold executeSqls
    cases hprepares : env.prepares i with
    | false =>
      obtain ⟨args, rest, rfl⟩ := exists_cons_of_ne_nil (hne _ mem_cons_self)
      simp [runChunks, Except.isOk, Except.toBool]
    | true =>
      have hargs := executeArgs_eq heap fieldSize hprepares bindArgs 0 rows
      rw [hprepares] at hargs
      rw [runChunks_append, ← hargs, if_pos rfl]
      cases hrun : executeArgs env heap fieldSize i 0 bindArgs rows with
      | mk result after =>
        cases result with
        | error code => rfl
        | ok u => exact ih (fun s hs => hne s (mem_cons_of_mem _ hs)) (i + 1) after

theorem map_fst_chunksOf (sqls : BatchSqls (Option Nat)) :
    (chunksOf env heap fieldSize 0 sqls).map (·.1) = chunkOutcomes env (sqls.map (·.2.length)) := by
  suffices h : ∀ i, (chunksOf env heap fieldSize i sqls).map (·.1) =
      ((sqls.map (·.2.length)).zipIdx i).flatMap fun p => (List.range p.1).map fun j =>
        env.prepares p.2 && (env.executes p.2 j).isOk from h 0
  induction sqls with
  | nil => exact fun _ => rfl
  | cons s sqls ih =>
    intro i
    rw [chunksOf, zipIdx_cons, flatMap_cons, map_append, ← chunksOf, ih (i + 1),
      map_cons, zipIdx_cons, flatMap_cons, map_map, range_eq_range',
      ← zipIdx_map_snd, map_map]
    rfl

theorem flatMap_snd_chunksOf (sqls : BatchSqls (Option Nat)) (i : Nat) :
    (chunksOf env heap fieldSize i sqls).flatMap (·.2) =
      (sqls.flatMap (·.2)).flatMap (insertedRows heap fieldSize) := by
  induction sqls generalizing i with
  | nil => rfl
  | cons s sqls ih =>
    rw [chunksOf, zipIdx_cons, flatMap_cons, flatMap_append, ← chunksOf, ih,
      flatMap_cons, flatMap_append, flatMap_map]
    congr 1
    conv_rhs => rw [← zipIdx_map_fst 0 s.2, flatMap_map]

theorem length_makeExecuteSqls {args : List α} (hargs : args.length = r * f) (hf : 0 < f)
    (hlimit : f ≤ limit) :
    (makeExecuteSqls sql args f limit).map (·.2.length) = chunkCounts r f limit := by
  have hm : 0 < limit / f := Nat.div_pos hlimit hf
  have hr : args.length / f = r := by rw [hargs, Nat.mul_div_cancel r hf]
  unfold makeExecuteSqls
  rw [if_neg hf.ne', hr]
  dsimp only
  rw [if_neg hm.ne', map_append, chunkCounts]
  congr 1
  · split
    · rw [map_singleton, length_chunks]
    · rfl
  · split <;> rfl

section
variable {b : ValuesBuckets} {table : String} {rows : List Row}

theorem insertedRows_ne_nil (hf : 0 < fieldSize) (hk : 0 < k) (h : args.length = k * fieldSize) :
    insertedRows heap fieldSize args ≠ [] := by
  refine ne_nil_of_length_pos ?_
  rw [insertedRows, length_map, allChunks, length_chunks, h, Nat.mul_div_cancel _ hf]
  exact hk

variable {limit : Nat}

theorem chunksOf_generateSqls (env : BatchEnv) (table : String) (h : b.Inv)
    (hfields : b.fields ≠ []) (hlimit : b.fields.length ≤ limit) :
    let sqls := (b.generateSqls table limit .none).1
    let heap := (b.generateSqls table limit .none).2.values.heap
    let cs := chunksOf env heap b.fields.length 0 sqls
    sqls.map (·.2.length) = chunkCounts b.rowSize b.fields.length limit ∧
      (∀ s ∈ sqls, s.2 ≠ []) ∧ (∀ c ∈ cs, c.2 ≠ []) ∧
      cs.map (·.1) = chunkOutcomes env (chunkCounts b.rowSize b.fields.length limit) ∧
      cs.flatMap (·.2) = b.rowsToInsert table limit := by
  intro sqls heap cs
  have hf : 0 < b.fields.length := length_pos_iff.mpr hfields
  have hinserts := h.inserts table .none hfields hlimit
  have hcounts : sqls.map (·.2.length) = chunkCounts b.rowSize b.fields.length limit :=
    length_makeExecuteSqls length_fillAll_args hf hlimit
  refine ⟨hcounts, fun s hs => ?_, fun c hc => ?_, ?_, ?_⟩
  · have hmem : s.2.length ∈ chunkCounts b.rowSize b.fields.length limit :=
      hcounts ▸ mem_map_of_mem hs
    refine ne_nil_of_length_pos (Nat.pos_of_ne_zero fun hzero => ?_)
    rw [hzero, chunkCounts] at hmem
    grind
  · obtain ⟨p, hp, hc⟩ := mem_flatMap.mp hc
    obtain ⟨q, hq, rfl⟩ := mem_map.mp hc
    obtain ⟨k, hk, -, -, hvectors⟩ := hinserts.statement p.1 (fst_mem_of_mem_zipIdx hp)
    exact insertedRows_ne_nil hf hk (hvectors q.1 (fst_mem_of_mem_zipIdx hq)).1
  · rw [map_fst_chunksOf, hcounts]
  · rw [flatMap_snd_chunksOf, rowsToInsert, ← hinserts.rows, map_flatMap]
    rfl

theorem generateSqls_eq_nil (h : b.fields = [] ∨ limit < b.fields.length) :
    (b.generateSqls table limit .none).1 = [] := by
  unfold generateSqls makeExecuteSqls
  rcases h with h | h
  · simp [h]
  · simp [Nat.div_eq_of_lt h]

theorem chunkCounts_ne_nil (hr : r ≠ 0) : chunkCounts r f limit ≠ [] := by
  intro h
  have hdiv := Nat.div_add_mod r (limit / f)
  unfold chunkCounts at h
  simp only [append_eq_nil_iff] at h
  grind

theorem reportsTable_of_not_runs (h : ¬ env.Runs b) : ReportsTable env table b rows := by
  unfold BatchEnv.Runs at h
  unfold ReportsTable batchInsert
  by_cases hro : env.isReadOnly
  · simp [hro]
  by_cases hr : b.rowSize = 0
  · simp [hro, hr, rowsToInsert, matrix]
  by_cases hpool : env.hasPool
  · by_cases hconn : env.hasConn
    · have hfields : b.fields = [] ∨ env.maxVariable < b.fields.length := by
        by_contra hcon
        rw [not_or] at hcon
        exact h ⟨by simpa using hro, hr, hpool, hconn, hcon.1, by omega⟩
      have hnil : (b.generateSqls table env.maxVariable .none).1 = [] := generateSqls_eq_nil hfields
      simp [hro, hr, hpool, hconn, hnil]
    · simp [hro, hr, hpool, hconn]
  · simp [hro, hr, hpool]

theorem batchInsert_of_runs (h : env.Runs b)
    (hne : (b.generateSqls table env.maxVariable .none).1 ≠ []) :
    batchInsert env table b rows =
      match executeSqls env (b.generateSqls table env.maxVariable .none).2.values.heap
        b.fields.length 0 (b.generateSqls table env.maxVariable .none).1 rows with
      | (.error code, rows) => ((code, -1), rows)
      | (.ok (), rows) => ((none, (b.rowSize : Int)), rows) := by
  obtain ⟨hro, hr, hpool, hconn, -, -⟩ := h
  simp [batchInsert, hro, hr, hpool, hconn, hne]

theorem reportsTable_of_runs (hinv : b.Inv) (h : env.Runs b) :
    ReportsTable env table b rows ↔ env.AllOrNone b := by
  have ⟨_, hr, _, _, hfields, hlimit⟩ := h
  obtain ⟨hcounts, hvectors, hrows, houtcomes, hall⟩ :=
    chunksOf_generateSqls env table hinv hfields hlimit
  have hne : (b.generateSqls table env.maxVariable .none).1 ≠ [] := fun hnil =>
    chunkCounts_ne_nil hr (by rw [← hcounts, hnil, map_nil])
  have hrun := executeSqls_eq env (b.generateSqls table env.maxVariable .none).2.values.heap
    b.fields.length hvectors 0 rows
  unfold ReportsTable BatchEnv.AllOrNone
  rw [batchInsert_of_runs h hne, ← houtcomes]
  cases hresult : executeSqls env (b.generateSqls table env.maxVariable .none).2.values.heap
    b.fields.length 0 (b.generateSqls table env.maxVariable .none).1 rows with
  | mk result after =>
    rw [hresult] at hrun
    cases result with
    | ok u =>
      have hdone := (runChunks_fst rows).mp (congrArg Prod.fst hrun).symm
      rw [runChunks_all rows hdone, hall] at hrun
      refine iff_of_true ⟨fun _ => congrArg Prod.snd hrun, fun hcount => ?_⟩ fun _ => hdone
      change (b.rowSize : Int) = -1 at hcount
      omega
    | error code =>
      have hfailed := (runChunks_fst rows).not.mp (by rw [← hrun]; exact Bool.false_ne_true)
      have hafter : after = rows ↔ _ :=
        (congrArg Prod.snd hrun) ▸ runChunks_snd rows hrows
      have hcode : ¬ (code, (-1 : Int)) = (none, (b.rowSize : Int)) := by
        rw [Prod.mk.injEq]
        omega
      constructor
      · exact fun hreports hhead => absurd hhead (hafter.mp (hreports.2 rfl))
      · exact fun hnone => ⟨fun heq => absurd heq hcode, fun _ => hafter.mpr fun hhead =>
          hfailed (hnone hhead)⟩

end

theorem reportsTable_iff_allOrNone (balance : Balance Nat) (calls : List BucketsCall)
    (env : BatchEnv) (table : String) (rows : List Row) :
    let b := calls.foldl (call balance) .initial
    ReportsTable env table b rows ↔ (env.Runs b → env.AllOrNone b) := by
  intro b
  by_cases h : env.Runs b
  · rw [reportsTable_of_runs (inv_foldl calls) h, forall_prop_of_true h]
  · exact iff_of_true (reportsTable_of_not_runs h) fun hruns => absurd hruns h

def refusedSecond : BatchEnv where
  isReadOnly := false
  hasPool := true
  hasConn := true
  maxVariable := 1
  prepares _ := true
  executes _ j := if j = 0 then .ok () else .error .sqliteConstraint

theorem batchInsert_refusedSecond :
    let b := [BucketsCall.put ⟨[("x", .int 1)], pairwise_singleton _ _⟩,
      .put ⟨[("x", .int 2)], pairwise_singleton _ _⟩].foldl (call .none) .initial
    batchInsert refusedSecond "t" b [] = ((none, -1), [[.int 1]]) := by
  decide

end RelationalStore.Values
