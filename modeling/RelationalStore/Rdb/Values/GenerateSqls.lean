import RelationalStore.Rdb.Values.ValuesBuckets
import RelationalStore.Theory.Chunks

/-! # The statements of a batch insert

A matrix of references is filled column by column and cut into argument vectors of whole rows. -/

namespace RelationalStore.Values

open List

inductive ConflictResolution where
  | none
  | rollback
  | abort
  | fail
  | ignore
  | replace
  deriving DecidableEq

def onConflictClause : ConflictResolution → String
  | .none => ""
  | .rollback => " OR ROLLBACK"
  | .abort => " OR ABORT"
  | .fail => " OR FAIL"
  | .ignore => " OR IGNORE"
  | .replace => " OR REPLACE"

variable (text : String)

def popBack : String := String.ofList text.toList.dropLast

variable (sql : String)

def appendEach (texts : List String) : String :=
  texts.foldl (fun sql text => sql ++ text ++ ",") sql

def getSqlArgs (size : Nat) : String :=
  String.ofList <| (List.range (size - 1)).foldl (fun args i => args.set (2 * (i + 1) - 1) ',')
    (List.replicate (2 * size - 1) '?')

section
variable {α : Type _}

abbrev BatchSqls (α : Type _) := List (String × List (List α))

def appendAgsSql (sql : String) (fieldSize rowNumber : Nat) : String :=
  popBack (appendEach sql (List.replicate rowNumber ("(" ++ getSqlArgs fieldSize ++ ")")))

def makeExecuteSqls (sql : String) (args : List α) (fieldSize limit : Nat) : BatchSqls α :=
  if fieldSize = 0 then []
  else
    let rowNumbers := args.length / fieldSize
    let maxRowNumbersOneTimes := limit / fieldSize
    if maxRowNumbersOneTimes = 0 then []
    else
      let executeTimes := rowNumbers / maxRowNumbersOneTimes
      let remainingRows := rowNumbers % maxRowNumbersOneTimes
      let maxVariableNumbers := maxRowNumbersOneTimes * fieldSize
      (if executeTimes ≠ 0 then
        [(appendAgsSql sql fieldSize maxRowNumbersOneTimes,
          chunks maxVariableNumbers executeTimes args)]
      else []) ++
      if remainingRows ≠ 0 then
        [(appendAgsSql sql fieldSize remainingRows,
          [args.drop (executeTimes * maxVariableNumbers)])]
      else []

end

def ValueObject.updateAssetStatus (status : Nat) : ValueObject → ValueObject
  | .asset a => .asset { a with status }
  | .assets as => .assets (as.map fun a => { a with status })
  | v => v

namespace ValuesBuckets

structure Filling where
  heap : List ValueObject
  args : List (Option Nat)

variable (b : ValuesBuckets)

def fillCell (field : String) (columnIndex : Nat) (s : Filling) (row : Nat) :
    Filling :=
  match b.get row field with
  | .error _ => s
  | .ok ref =>
    { heap := s.heap.modify ref (·.updateAssetStatus AssetValue.statusInsert)
      args := s.args.set (columnIndex + row * b.fields.length) (some ref) }

def fillColumn (s : Filling) (column : String × Nat) : Filling :=
  (List.range b.rowSize).foldl (b.fillCell column.1 column.2) s

def fillAll : Filling :=
  b.fields.zipIdx.foldl b.fillColumn
    ⟨b.values.heap, List.replicate (b.fields.length * b.rowSize) none⟩

def generateSqls (table : String) (limit : Nat)
    (resolution : ConflictResolution) : BatchSqls (Option Nat) × ValuesBuckets :=
  let head := "INSERT" ++ onConflictClause resolution ++ " INTO " ++ table ++ " ("
  let sql := popBack (appendEach head b.fields) ++ ") VALUES "
  (makeExecuteSqls sql b.fillAll.args b.fields.length limit,
    { b with values := { b.values with heap := b.fillAll.heap } })

end ValuesBuckets

/-! ## What is meant -/

def commaJoin : List String → String
  | [] => ""
  | [text] => text
  | text :: texts => text ++ "," ++ commaJoin texts

def insertText (resolution : ConflictResolution) (table : String) (fields : List String)
    (rowNumber : Nat) : String :=
  "INSERT" ++ onConflictClause resolution ++ " INTO " ++ table ++ " (" ++ commaJoin fields ++
    ") VALUES " ++ commaJoin (List.replicate rowNumber
      ("(" ++ commaJoin (List.replicate fields.length "?") ++ ")"))

namespace ValuesBuckets

def matrix (b : ValuesBuckets) : List (List (Option Nat)) :=
  (List.range b.rowSize).map fun row => b.fields.map fun field => (b.get row field).toOption

end ValuesBuckets

inductive BucketsCall where
  | put (bucket : ValuesBucket)
  | clear
  | generateSqls (table : String) (limit : Nat) (resolution : ConflictResolution)

namespace ValuesBuckets

def call (balance : Balance Nat) (b : ValuesBuckets) : BucketsCall → ValuesBuckets
  | .put bucket => b.put balance bucket
  | .clear => b.clear
  | .generateSqls table limit resolution => (b.generateSqls table limit resolution).2

/-- The statements insert every row of the buckets once, as it is. -/
structure Inserts (b : ValuesBuckets) (table : String) (limit : Nat)
    (resolution : ConflictResolution) : Prop where
  fields : b.fields.Nodup ∧ ∀ bucket ∈ b.buckets, ∀ p ∈ bucket, p.1 ∈ b.fields
  args : ((b.generateSqls table limit resolution).1.flatMap (·.2)).flatten = b.matrix.flatten
  values : ∀ row field ref, b.get row field = .ok ref →
    ∃ v, b.values.heap[ref]? = some v ∧
      (b.generateSqls table limit resolution).2.values.heap[ref]? =
        some (v.updateAssetStatus AssetValue.statusInsert)
  statement : ∀ s ∈ (b.generateSqls table limit resolution).1, ∃ rowNumber, 0 < rowNumber ∧
    rowNumber * b.fields.length ≤ limit ∧ s.1 = insertText resolution table b.fields rowNumber ∧
    ∀ args ∈ s.2, args.length = rowNumber * b.fields.length ∧
      s.1.toList.count '?' =
        args.length + (table.toList.count '?' + (b.fields.map (·.toList.count '?')).sum)
  rows : ((b.generateSqls table limit resolution).1.flatMap (·.2)).flatMap
    (allChunks b.fields.length) = b.matrix

end ValuesBuckets

/-! ## The texts -/

theorem popBack_append_comma : popBack (text ++ ",") = text := by
  rw [popBack, String.toList_append]
  exact (congrArg String.ofList dropLast_concat).trans String.ofList_toList

theorem commaJoin_cons_cons (text' : String) (texts : List String) :
    commaJoin (text :: text' :: texts) = text ++ "," ++ commaJoin (text' :: texts) := rfl

variable {texts : List String}

theorem appendEach_eq (h : texts ≠ []) :
    appendEach sql texts = sql ++ commaJoin texts ++ "," := by
  induction texts generalizing sql with
  | nil => exact absurd rfl h
  | cons text texts ih =>
    cases texts with
    | nil => rfl
    | cons text' texts =>
      rw [appendEach, foldl_cons, ← appendEach, ih _ (cons_ne_nil _ _),
        commaJoin_cons_cons]
      simp only [String.append_assoc]

theorem popBack_appendEach (h : texts ≠ []) :
    popBack (appendEach sql texts) = sql ++ commaJoin texts := by
  rw [appendEach_eq sql h, popBack_append_comma]

theorem commaJoin_concat (h : texts ≠ []) :
    commaJoin (texts ++ [text]) = commaJoin texts ++ "," ++ text := by
  induction texts with
  | nil => exact absurd rfl h
  | cons text' texts ih =>
    cases texts with
    | nil => rfl
    | cons text'' texts =>
      rw [cons_append, cons_append, commaJoin_cons_cons, ← cons_append,
        ih (cons_ne_nil _ _), commaJoin_cons_cons]
      simp only [String.append_assoc]

theorem foldl_set_append {as bs : List Char} {is : List Nat}
    (h : ∀ i ∈ is, 2 * (i + 1) - 1 < as.length) :
    is.foldl (fun args i => args.set (2 * (i + 1) - 1) ',') (as ++ bs) =
      is.foldl (fun args i => args.set (2 * (i + 1) - 1) ',') as ++ bs := by
  induction is generalizing as with
  | nil => rfl
  | cons i is ih =>
    have hi := h i mem_cons_self
    rw [foldl_cons, foldl_cons, set_append_left _ _ hi]
    refine ih fun j hj => ?_
    rw [length_set]
    exact h j (mem_cons_of_mem _ hj)

theorem length_foldl_set (as : List Char) (is : List Nat) :
    (is.foldl (fun args i => args.set (2 * (i + 1) - 1) ',') as).length = as.length := by
  induction is generalizing as with
  | nil => rfl
  | cons i is ih => rw [foldl_cons, ih, length_set]

theorem getSqlArgs_succ (n : Nat) : getSqlArgs (n + 2) = getSqlArgs (n + 1) ++ "," ++ "?" := by
  have hsplit : List.replicate (2 * (n + 2) - 1) '?' =
      List.replicate (2 * (n + 1) - 1) '?' ++ ['?', '?'] := by
    rw [show 2 * (n + 2) - 1 = 2 * (n + 1) - 1 + 2 by omega, replicate_add]
    rfl
  have hbound : ∀ i ∈ List.range n,
      2 * (i + 1) - 1 < (List.replicate (2 * (n + 1) - 1) '?').length := by
    intro i hi
    rw [length_replicate]
    have := mem_range.mp hi
    omega
  apply String.toList_inj.mp
  simp only [getSqlArgs, String.toList_append, String.toList_ofList, Nat.add_one_sub_one]
  rw [range_succ, foldl_append, hsplit, foldl_set_append hbound, foldl_cons,
    foldl_nil, set_append_right _ _ (by rw [length_foldl_set, length_replicate]),
    length_foldl_set, length_replicate]
  simp

theorem getSqlArgs_eq (n : Nat) :
    getSqlArgs (n + 1) = commaJoin (List.replicate (n + 1) "?") := by
  induction n with
  | zero => rfl
  | succ n ih =>
    have hne : List.replicate (n + 1) "?" ≠ [] := cons_ne_nil _ _
    rw [getSqlArgs_succ, ih, replicate_succ' (n := n + 1), commaJoin_concat _ hne]

theorem appendAgsSql_eq {sql : String} {fieldSize rowNumber : Nat} (hfield : 0 < fieldSize)
    (hrow : 0 < rowNumber) :
    appendAgsSql sql fieldSize rowNumber = sql ++ commaJoin (List.replicate rowNumber
      ("(" ++ commaJoin (List.replicate fieldSize "?") ++ ")")) := by
  obtain ⟨n, rfl⟩ := Nat.exists_eq_add_of_lt hfield
  obtain ⟨m, rfl⟩ := Nat.exists_eq_add_of_lt hrow
  rw [Nat.zero_add, appendAgsSql, getSqlArgs_eq, popBack_appendEach]
  rw [Nat.zero_add, replicate_succ]
  exact cons_ne_nil _ _

theorem count_commaJoin (texts : List String) :
    (commaJoin texts).toList.count '?' = (texts.map (·.toList.count '?')).sum := by
  induction texts with
  | nil => rfl
  | cons text texts ih =>
    cases texts with
    | nil => rw [commaJoin, map_singleton, sum_singleton]
    | cons text' texts =>
      rw [commaJoin_cons_cons, String.toList_append, String.toList_append, count_append,
        count_append, ih, map_cons (a := text), sum_cons]
      rfl

theorem count_insertText (resolution : ConflictResolution) (table : String) (fields : List String)
    (rowNumber : Nat) :
    (insertText resolution table fields rowNumber).toList.count '?' =
      rowNumber * fields.length +
        (table.toList.count '?' + (fields.map (·.toList.count '?')).sum) := by
  have hclause : (onConflictClause resolution).toList.count '?' = 0 := by
    cases resolution <;> rfl
  simp only [insertText, String.toList_append, count_append, count_commaJoin,
    map_replicate, sum_replicate_nat, hclause]
  simp
  omega

/-! ## The matrix -/

theorem foldl_establishes {P : σ → Prop} {Q : ι → σ → Prop} {E : α → ι → Prop} (as : List α)
    (hstep : ∀ s, P s → ∀ a ∈ as, P (f s a) ∧ (∀ i, E a i → Q i (f s a)) ∧ ∀ i, Q i s → Q i (f s a))
    (hs : P s) :
    P (as.foldl f s) ∧ (∀ a ∈ as, ∀ i, E a i → Q i (as.foldl f s)) ∧
      ∀ i, Q i s → Q i (as.foldl f s) := by
  induction as generalizing s with
  | nil => exact ⟨hs, fun _ h => (nomatch h), fun _ h => h⟩
  | cons a as ih =>
    obtain ⟨hP, hE, hkeep⟩ := hstep s hs a mem_cons_self
    obtain ⟨ihP, ihE, ihkeep⟩ := ih (fun s hs a ha => hstep s hs a (mem_cons_of_mem _ ha)) hP
    refine ⟨ihP, fun a' ha' i hi => ?_, fun i hi => ihkeep i (hkeep i hi)⟩
    rcases mem_cons.mp ha' with rfl | ha'
    · exact ihkeep i (hE i hi)
    · exact ihE a' ha' i hi

namespace ValuesBuckets
variable {b : ValuesBuckets}

theorem length_of_mem_matrix {row : List (Option Nat)} (h : row ∈ b.matrix) :
    row.length = b.fields.length := by
  obtain ⟨i, -, rfl⟩ := mem_map.mp h
  exact length_map _

theorem length_matrix : b.matrix.length = b.rowSize := by
  rw [matrix, length_map, length_range]

variable {row column : Nat} {field : String}

theorem getElem?_matrix (hrow : row < b.rowSize) (hfield : b.fields[column]? = some field) :
    b.matrix.flatten[column + row * b.fields.length]? = some (b.get row field).toOption := by
  rw [getElem?_flatten (fun _ h => length_of_mem_matrix h) (List.getElem?_eq_some_iff.mp hfield).1,
    matrix, getElem?_map, getElem?_range hrow]
  simp [hfield]

def Partial (b : ValuesBuckets) (s : Filling) : Prop :=
  s.args.length = b.matrix.flatten.length ∧
    ∀ i < b.matrix.flatten.length, s.args[i]? = some none ∨ s.args[i]? = b.matrix.flatten[i]?

/-- The argument is as in the matrix. -/
def Agrees (b : ValuesBuckets) (i : Nat) (s : Filling) : Prop := s.args[i]? = b.matrix.flatten[i]?

variable {s : Filling}

theorem Partial.fillCell (h : b.Partial s)
    (hrow : row < b.rowSize) (hfield : b.fields[column]? = some field) :
    b.Partial (b.fillCell field column s row) ∧
      b.Agrees (column + row * b.fields.length) (b.fillCell field column s row) ∧
      ∀ i, b.Agrees i s → b.Agrees i (b.fillCell field column s row) := by
  have hentry := getElem?_matrix hrow hfield
  have hlt := (List.getElem?_eq_some_iff.mp hentry).1
  unfold ValuesBuckets.fillCell
  cases hget : b.get row field with
  | error e =>
    rw [hget] at hentry
    refine ⟨h, ?_, fun i hi => hi⟩
    rcases h.2 _ hlt with hnull | hsame
    · exact hnull.trans hentry.symm
    · exact hsame
  | ok ref =>
    rw [hget] at hentry
    have hset (i : Nat) : (s.args.set (column + row * b.fields.length) (some ref))[i]? =
        if column + row * b.fields.length = i then b.matrix.flatten[i]? else s.args[i]? := by
      rw [getElem?_set]
      split
      next hi =>
        subst hi
        rw [if_pos (h.1 ▸ hlt), hentry]
        rfl
      · rfl
    refine ⟨⟨by rw [length_set]; exact h.1, fun i hi => ?_⟩, ?_, fun i hi => ?_⟩
    · rw [hset]
      split
      · exact .inr rfl
      · exact h.2 i hi
    · exact (hset _).trans (if_pos rfl)
    · refine (hset i).trans ?_
      split
      · rfl
      · exact hi

theorem Partial.fillColumn {column : String × Nat} (h : b.Partial s)
    (hfield : b.fields[column.2]? = some column.1) :
    b.Partial (b.fillColumn s column) ∧
      (∀ i, (∃ row < b.rowSize, i = column.2 + row * b.fields.length) →
        b.Agrees i (b.fillColumn s column)) ∧
      ∀ i, b.Agrees i s → b.Agrees i (b.fillColumn s column) := by
  have hfold := foldl_establishes (P := b.Partial) (Q := b.Agrees)
    (E := fun row i => i = column.2 + row * b.fields.length)
    (f := b.fillCell column.1 column.2) (List.range b.rowSize) (fun s hs row hrow => by
      obtain ⟨hfilled, hagrees, hkeep⟩ := hs.fillCell (mem_range.mp hrow) hfield
      exact ⟨hfilled, fun i hi => hi ▸ hagrees, hkeep⟩) h
  exact ⟨hfold.1, fun i ⟨row, hrow, hi⟩ => hfold.2.1 row (mem_range.mpr hrow) i hi, hfold.2.2⟩

theorem fillAll_args : b.fillAll.args = b.matrix.flatten := by
  have hlength : b.matrix.flatten.length = b.rowSize * b.fields.length := by
    rw [length_flatten fun _ h => length_of_mem_matrix h, length_matrix]
  have hstart : b.Partial
      ⟨b.values.heap, List.replicate (b.fields.length * b.rowSize) none⟩ := by
    rw [Partial, hlength, Nat.mul_comm]
    refine ⟨length_replicate, fun i hi => .inl ?_⟩
    rw [getElem?_replicate, if_pos hi]
  have hfold := foldl_establishes (P := b.Partial) (Q := b.Agrees)
    (E := fun column i => ∃ row < b.rowSize, i = column.2 + row * b.fields.length)
    (f := b.fillColumn) b.fields.zipIdx
    (fun s hs column hcolumn => hs.fillColumn (mem_zipIdx_iff_getElem?.mp hcolumn)) hstart
  apply ext_getElem?
  intro i
  by_cases hi : i < b.rowSize * b.fields.length
  · have hpos : 0 < b.fields.length := Nat.pos_of_ne_zero fun hzero => by simp [hzero] at hi
    have hcolumn : i % b.fields.length < b.fields.length := Nat.mod_lt i hpos
    refine hfold.2.1 (b.fields[i % b.fields.length], i % b.fields.length)
      (mem_zipIdx_iff_getElem?.mpr (List.getElem?_eq_getElem hcolumn)) i
      ⟨i / b.fields.length, (Nat.div_lt_iff_lt_mul hpos).mpr hi, ?_⟩
    rw [Nat.mul_comm]
    exact (Nat.mod_add_div i _).symm
  · have hnone : b.matrix.flatten[i]? = none := getElem?_eq_none (by omega)
    have hargs : b.fillAll.args.length = b.matrix.flatten.length := hfold.1.1
    rw [hnone]
    exact getElem?_eq_none (by omega)

theorem length_fillAll_args : b.fillAll.args.length = b.rowSize * b.fields.length := by
  rw [fillAll_args, length_flatten fun _ h => length_of_mem_matrix h, length_matrix]

/-! ## The values -/

theorem updateAssetStatus_idem (status : Nat) (v : ValueObject) :
    (v.updateAssetStatus status).updateAssetStatus status = v.updateAssetStatus status := by
  cases v <;> simp [ValueObject.updateAssetStatus]

def Marked (b : ValuesBuckets) (i : Nat) (s : Filling) : Prop :=
  s.heap[i]? = (b.values.heap[i]?).map (·.updateAssetStatus AssetValue.statusInsert)

theorem marked_fillCell (h : ∀ i, s.heap[i]? = b.values.heap[i]? ∨ b.Marked i s) :
    (∀ i, (b.fillCell field column s row).heap[i]? = b.values.heap[i]? ∨
      b.Marked i (b.fillCell field column s row)) ∧
      (∀ i, b.get row field = .ok i → b.Marked i (b.fillCell field column s row)) ∧
      ∀ i, b.Marked i s → b.Marked i (b.fillCell field column s row) := by
  unfold fillCell
  cases hget : b.get row field with
  | error e => exact ⟨h, fun i hi => (nomatch hi), fun i hi => hi⟩
  | ok ref =>
    have hmark (i : Nat) (hi : s.heap[i]? = b.values.heap[i]? ∨ b.Marked i s) :
        (s.heap[i]?).map (·.updateAssetStatus AssetValue.statusInsert) =
          (b.values.heap[i]?).map (·.updateAssetStatus AssetValue.statusInsert) := by
      rcases hi with hi | hi
      · rw [hi]
      · rw [hi, Option.map_map]
        exact congrArg (Option.map · _) (funext (updateAssetStatus_idem _))
    have hmodify (i : Nat) : (s.heap.modify ref
        (·.updateAssetStatus AssetValue.statusInsert))[i]? =
        if ref = i then (b.values.heap[i]?).map (·.updateAssetStatus AssetValue.statusInsert)
        else s.heap[i]? := by
      rw [getElem?_modify]
      split
      · rw [← hmark i (h i)]
        rfl
      · simp
    refine ⟨fun i => ?_, fun i hi => ?_, fun i hi => ?_⟩
    · rw [Marked, hmodify]
      split
      · exact .inr rfl
      · exact h i
    · cases hi
      exact (hmodify ref).trans (if_pos rfl)
    · refine (hmodify i).trans ?_
      split
      · rfl
      · exact hi

theorem marked_fillAll {ref : Nat} (hrow : row < b.rowSize)
    (hfield : field ∈ b.fields) (hget : b.get row field = .ok ref) : b.Marked ref b.fillAll := by
  let P : Filling → Prop := fun s => ∀ i, s.heap[i]? = b.values.heap[i]? ∨ b.Marked i s
  have hcolumns := foldl_establishes (P := P) (Q := b.Marked) (f := b.fillColumn)
    (E := fun column i => ∃ row < b.rowSize, b.get row column.1 = .ok i) b.fields.zipIdx
    (fun s hs column _ => by
      have hrows := foldl_establishes (P := P) (Q := b.Marked)
        (f := b.fillCell column.1 column.2) (E := fun row i => b.get row column.1 = .ok i)
        (List.range b.rowSize) (fun s hs row _ => marked_fillCell hs) hs
      exact ⟨hrows.1, fun i ⟨row, hrow, hi⟩ => hrows.2.1 row (mem_range.mpr hrow) i hi,
        hrows.2.2⟩)
    (s := ⟨b.values.heap, List.replicate (b.fields.length * b.rowSize) none⟩) fun i => .inl rfl
  obtain ⟨column, hcolumn⟩ := getElem?_of_mem hfield
  exact hcolumns.2.1 (field, column) (mem_zipIdx_iff_getElem?.mpr hcolumn) ref
    ⟨row, hrow, hget⟩

end ValuesBuckets

/-! ## The executions -/

section
variable {α : Type _} {sql : String} {args : List α} {r f limit : Nat}

section
variable (hargs : args.length = r * f)
include hargs

theorem makeExecuteSqls_eq (hf : 0 < f) (hlimit : f ≤ limit) :
    makeExecuteSqls sql args f limit =
      (if r / (limit / f) ≠ 0 then [(appendAgsSql sql f (limit / f),
        chunks (limit / f * f) (r / (limit / f)) args)] else []) ++
      if r % (limit / f) ≠ 0 then [(appendAgsSql sql f (r % (limit / f)),
        [args.drop (r / (limit / f) * (limit / f * f))])] else [] := by
  have hr : args.length / f = r := by rw [hargs, Nat.mul_div_cancel r hf]
  unfold makeExecuteSqls
  rw [if_neg hf.ne', hr]
  exact if_neg (Nat.div_pos hlimit hf).ne'

theorem length_eq_chunks_add (m : Nat) :
    args.length = r / m * (m * f) + r % m * f := by
  rw [hargs, ← Nat.mul_assoc, ← Nat.add_mul, Nat.mul_comm (r / _), Nat.div_add_mod]

theorem flatten_makeExecuteSqls (hf : 0 < f) (hlimit : f ≤ limit) :
    ((makeExecuteSqls sql args f limit).flatMap (·.2)).flatten = args := by
  have hlength := length_eq_chunks_add hargs (limit / f)
  rw [makeExecuteSqls_eq hargs hf hlimit]
  generalize r / (limit / f) = times at hlength ⊢
  generalize r % (limit / f) = rest at hlength ⊢
  have hfull : ((if times ≠ 0 then [(appendAgsSql sql f (limit / f),
      chunks (limit / f * f) times args)] else []).flatMap (·.2)).flatten =
      args.take (times * (limit / f * f)) := by
    split
    · rw [flatMap_singleton, flatten_chunks]
    next hzero => simp [not_not.mp hzero]
  have hlast : ((if rest ≠ 0 then [(appendAgsSql sql f rest,
      [args.drop (times * (limit / f * f))])] else []).flatMap (·.2)).flatten =
      args.drop (times * (limit / f * f)) := by
    split
    · simp
    next hzero =>
      rw [not_not.mp hzero, Nat.zero_mul, Nat.add_zero] at hlength
      rw [drop_eq_nil_of_le hlength.le]
      rfl
  rw [flatMap_append, flatten_append, hfull, hlast, take_append_drop]

theorem of_mem_makeExecuteSqls (hf : 0 < f) (hlimit : f ≤ limit)
    {s : String × List (List α)} (hs : s ∈ makeExecuteSqls sql args f limit) :
    ∃ k, 0 < k ∧ k * f ≤ limit ∧ s.1 = appendAgsSql sql f k ∧ ∀ a ∈ s.2, a.length = k * f := by
  have hlength := length_eq_chunks_add hargs (limit / f)
  have hm : 0 < limit / f := Nat.div_pos hlimit hf
  have hmax : limit / f * f ≤ limit := Nat.div_mul_le_self limit f
  rw [makeExecuteSqls_eq hargs hf hlimit] at hs
  rcases mem_append.mp hs with hs | hs
  · split at hs
    · obtain rfl := mem_singleton.mp hs
      exact ⟨limit / f, hm, hmax, rfl, fun a ha => length_of_mem_chunks (by omega) ha⟩
    · exact nomatch hs
  · split at hs
    next hne =>
      obtain rfl := mem_singleton.mp hs
      refine ⟨r % (limit / f), Nat.pos_of_ne_zero hne, ?_, rfl, fun a ha => ?_⟩
      · exact Nat.le_trans (Nat.mul_le_mul_right f (Nat.mod_lt _ hm).le) hmax
      · obtain rfl := mem_singleton.mp ha
        rw [length_drop]
        omega
    · exact nomatch hs

end

end

/-! ## The buckets that calls lead to -/

theorem mem_insertField : x ∈ insertField field fields ↔ x = field ∨ x ∈ fields := by
  induction fields with
  | nil => simp [insertField]
  | cons g fields ih =>
    unfold insertField
    split
    · simp
    · split
      · simp only [mem_cons, ih]
        exact or_left_comm
      next hlt hgt =>
        obtain rfl : field = g := le_antisymm (not_lt.mp hgt) (not_lt.mp hlt)
        simp

theorem sorted_insertField (h : fields.Pairwise (· < ·)) :
    (insertField field fields).Pairwise (· < ·) := by
  induction fields with
  | nil => exact pairwise_singleton _ _
  | cons g fields ih =>
    obtain ⟨hg, hfields⟩ := pairwise_cons.mp h
    unfold insertField
    split
    next hlt =>
      refine pairwise_cons.mpr ⟨fun x hx => ?_, h⟩
      rcases mem_cons.mp hx with rfl | hx
      · exact hlt
      · exact hlt.trans (hg x hx)
    · split
      next hgt =>
        refine pairwise_cons.mpr ⟨fun x hx => ?_, ih hfields⟩
        rcases mem_insertField.mp hx with rfl | hx
        · exact hgt
        · exact hg x hx
      · exact h

namespace ValuesBuckets
variable {balance : Balance Nat} {b : ValuesBuckets}

def Covers (b : ValuesBuckets) (row : BucketType) : Prop :=
  ∀ p ∈ row, p.1 ∈ b.fields ∧ p.2 < b.values.heap.length

structure Inv (b : ValuesBuckets) : Prop where
  valid : b.values.Valid
  sorted : b.fields.Pairwise (· < ·)
  covers : ∀ bucket ∈ b.buckets, b.Covers bucket

theorem inv_initial : initial.Inv where
  valid := NodeSet.valid_empty
  sorted := .nil
  covers _ h := nomatch h

def Grows (b b' : ValuesBuckets) : Prop :=
  (∀ field ∈ b.fields, field ∈ b'.fields) ∧ b.values.heap.length ≤ b'.values.heap.length

theorem Covers.mono (h : b.Covers row) (hgrows : b.Grows b') : b'.Covers row := fun p hp =>
  ⟨hgrows.1 _ (h p hp).1, Nat.lt_of_lt_of_le (h p hp).2 hgrows.2⟩

theorem Inv.insert (balance : Balance Nat) (h : b.Inv) (field : String) (value : ValueObject) :
    let inserted := b.values.insert balance ValueObject.less value
    let b' : ValuesBuckets :=
      { b with fields := insertField field b.fields, values := inserted.2 }
    b'.Inv ∧ b.Grows b' ∧ field ∈ b'.fields ∧ inserted.1 < b'.values.heap.length := by
  intro inserted b'
  have hgrows : b.Grows b' :=
    ⟨fun f hf => mem_insertField.mpr (.inr hf), NodeSet.heap_insert.length_le⟩
  have hinv : b'.Inv :=
    ⟨h.valid.insert, sorted_insertField h.sorted, fun bucket hb => (h.covers bucket hb).mono hgrows⟩
  exact ⟨hinv, hgrows, mem_insertField.mpr (.inl rfl), NodeSet.insert_address h.valid⟩

theorem Inv.putLoop (balance : Balance Nat) (items : List (String × ValueObject)) (h : b.Inv)
    (hrow : b.Covers row) :
    (putLoop balance b row items).1.Inv ∧
      (putLoop balance b row items).1.Covers (putLoop balance b row items).2 := by
  induction items generalizing b row with
  | nil => exact ⟨h, hrow⟩
  | cons item items ih =>
    obtain ⟨field, value⟩ := item
    obtain ⟨hinv, hgrows, hfield, href⟩ := h.insert balance field value
    refine ih hinv fun p hp => ?_
    unfold BucketType.insert at hp
    split at hp
    · exact (hrow.mono hgrows) p hp
    · rcases mem_append.mp hp with hp | hp
      · exact (hrow.mono hgrows) p hp
      · obtain rfl := mem_singleton.mp hp
        exact ⟨hfield, href⟩

theorem Inv.put (h : b.Inv) (bucket : ValuesBucket) : (b.put balance bucket).Inv := by
  have hnil : b.Covers [] := fun _ h => nomatch h
  obtain ⟨hinv, hcovers⟩ := h.putLoop balance bucket.values hnil
  refine ⟨hinv.valid, hinv.sorted, fun row hrow => ?_⟩
  rcases mem_append.mp hrow with hrow | hrow
  · exact hinv.covers row hrow
  · exact mem_singleton.mp hrow ▸ hcovers

theorem length_heap_fillAll : b.fillAll.heap.length = b.values.heap.length := by
  let P : Filling → Prop := fun s => s.heap.length = b.values.heap.length
  have hcell (field : String) (column : Nat) (s : Filling) (hs : P s) (row : Nat) :
      P (b.fillCell field column s row) := by
    unfold fillCell
    split
    · exact hs
    · exact (length_modify _ _ _).trans hs
  exact List.foldlRecOn (motive := P) _ _ rfl fun s hs column _ =>
    List.foldlRecOn (motive := P) _ _ hs fun s hs row _ => hcell column.1 column.2 s hs row

theorem Inv.generateSqls (h : b.Inv) (table : String) (limit : Nat)
    (resolution : ConflictResolution) : (b.generateSqls table limit resolution).2.Inv where
  valid i hi := length_heap_fillAll (b := b) ▸ h.valid i hi
  sorted := h.sorted
  covers bucket hb p hp := by
    obtain ⟨hfield, href⟩ := h.covers bucket hb p hp
    exact ⟨hfield, length_heap_fillAll (b := b) ▸ href⟩

theorem Inv.call (h : b.Inv) : ∀ c : BucketsCall, (b.call balance c).Inv
  | .put bucket => h.put bucket
  | .clear => inv_initial
  | .generateSqls table limit resolution => h.generateSqls table limit resolution

theorem inv_foldl (calls : List BucketsCall) : (calls.foldl (call balance) initial).Inv :=
  List.foldlRecOn (motive := Inv) _ _ inv_initial fun _ h c _ => h.call c

theorem get_eq_ok {row ref : Nat} {field : String} (h : b.get row field = .ok ref) :
    ∃ bucket, b.buckets[row]? = some bucket ∧ (field, ref) ∈ bucket := by
  unfold get at h
  split at h
  · exact nomatch h
  next bucket hbucket =>
    split at h
    · exact nomatch h
    next ref' href =>
      cases h
      exact ⟨_, hbucket, mem_of_lookup href⟩

theorem Inv.inserts (h : b.Inv) (table : String) {limit : Nat} (resolution : ConflictResolution)
    (hfields : b.fields ≠ []) (hlimit : b.fields.length ≤ limit) :
    b.Inserts table limit resolution := by
  have hf : 0 < b.fields.length := length_pos_iff.mpr hfields
  have hmatrix : ((b.generateSqls table limit resolution).1.flatMap (·.2)).flatten =
      b.matrix.flatten := (flatten_makeExecuteSqls length_fillAll_args hf hlimit).trans fillAll_args
  refine ⟨⟨h.sorted.imp fun hlt => hlt.ne, fun bucket hb p hp => (h.covers bucket hb p hp).1⟩,
    hmatrix, fun row field ref hget => ?_, fun s hs => ?_, ?_⟩
  · obtain ⟨bucket, hbucket, hmem⟩ := get_eq_ok hget
    obtain ⟨hfield, href⟩ := h.covers bucket (mem_of_getElem? hbucket) _ hmem
    have hrow : row < b.rowSize := (List.getElem?_eq_some_iff.mp hbucket).1
    have hmarked : b.fillAll.heap[ref]? = _ := marked_fillAll hrow hfield hget
    rw [List.getElem?_eq_getElem href] at hmarked
    exact ⟨_, List.getElem?_eq_getElem href, hmarked⟩
  · obtain ⟨k, hk, hmax, htext, hvectors⟩ := of_mem_makeExecuteSqls length_fillAll_args hf hlimit hs
    have htext' : s.1 = insertText resolution table b.fields k := by
      rw [htext, appendAgsSql_eq hf hk, popBack_appendEach _ hfields]
      simp only [insertText, String.append_assoc]
    refine ⟨k, hk, hmax, htext', fun args ha => ⟨hvectors args ha, ?_⟩⟩
    rw [htext', count_insertText, hvectors args ha]
  · have hwhole : ∀ args ∈ (b.generateSqls table limit resolution).1.flatMap (·.2),
        ∃ k, args.length = k * b.fields.length := by
      intro args ha
      obtain ⟨s, hs, ha⟩ := mem_flatMap.mp ha
      obtain ⟨k, -, -, -, hvectors⟩ := of_mem_makeExecuteSqls length_fillAll_args hf hlimit hs
      exact ⟨k, hvectors args ha⟩
    rw [flatMap_allChunks hf hwhole, hmatrix,
      allChunks_flatten hf fun _ h => length_of_mem_matrix h]

end ValuesBuckets

theorem generateSqls_inserts (balance : Balance Nat) (calls : List BucketsCall) (table : String)
    (limit : Nat) (resolution : ConflictResolution)
    (hfields : (calls.foldl (ValuesBuckets.call balance) .initial).fields ≠ [])
    (hlimit : (calls.foldl (ValuesBuckets.call balance) .initial).fields.length ≤ limit) :
    (calls.foldl (ValuesBuckets.call balance) .initial).Inserts table limit resolution :=
  (ValuesBuckets.inv_foldl calls).inserts table resolution hfields hlimit

theorem generateSqls_inserts_three :
    let b := [BucketsCall.put ⟨[("x", .int 1)], pairwise_singleton _ _⟩,
      .put ⟨[("x", .int 1), ("y", .null)], by decide⟩,
      .put ⟨[("y", .bool true)], pairwise_singleton _ _⟩].foldl
        (ValuesBuckets.call .none) .initial
    b.Inserts "t" 5 .replace ∧ b.fields = ["x", "y"] ∧
      b.matrix = [[some 0, none], [some 0, some 1], [none, some 2]] :=
  ⟨generateSqls_inserts .none _ "t" 5 .replace (by decide) (by decide), by decide, by decide⟩

theorem generateSqls_placeholder_in_name :
    let b := [BucketsCall.put
      ⟨[("x", .asset (assetOfVersion 1))], pairwise_singleton _ _⟩].foldl
      (ValuesBuckets.call .none) .initial
    (b.generateSqls "t?" 5 .none).1 = [("INSERT INTO t? (x) VALUES (?)", [[some 0]])] ∧
      "INSERT INTO t? (x) VALUES (?)".toList.count '?' = 2 ∧
      b.values.heap = [.asset (assetOfVersion 1)] ∧
      (b.generateSqls "t?" 5 .none).2.values.heap =
        [.asset { assetOfVersion 1 with status := AssetValue.statusInsert }] := by
  decide

end RelationalStore.Values
