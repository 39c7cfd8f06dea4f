import Mathlib.Data.List.ModifyLast
import RelationalStore.Rdb.ResultSet.Statement

/-! # Handing rows to a writer

`OnGo` copies rows to a writer, which may be full at any cell, and returns the last row it copied.
-/

namespace RelationalStore

open List

structure BridgedSet where
  columnCount : Nat
  rows : List (List ValueObject)
  width : ∀ row ∈ rows, row.length = columnCount

structure BridgeWriter where
  rows : List (List (Nat × ValueObject))
  deriving DecidableEq

structure BridgeAnswers where
  goToRow : Bool
  goToNextRow : Nat → Bool
  allocRow : Nat → Bool
  write : Nat → Nat → Bool
  getString : ValueObject → List UInt8

namespace BridgeWriter

def allocRow (w : BridgeWriter) : BridgeWriter := ⟨w.rows ++ [[]]⟩

def freeLastRow (w : BridgeWriter) : BridgeWriter := ⟨w.rows.dropLast⟩

def write (w : BridgeWriter) (column : Nat) (value : ValueObject) : BridgeWriter :=
  ⟨w.rows.modifyLast (· ++ [(column, value)])⟩

end BridgeWriter

def BridgeAnswers.cell (o : BridgeAnswers) : ValueObject → Option ValueObject
  | .integer value => some (.integer value)
  | .float bits => some (.float bits)
  | .null => some .null
  | .bytes .blob data => if data = [] then none else some (.bytes .blob data)
  | .string text => some (.string text)
  | .bytes type data => some (.string (o.getString (.bytes type data)))

namespace BridgedSet

def writeColumn (o : BridgeAnswers) (row : Nat) :
    Nat → List ValueObject → BridgeWriter → Bool × BridgeWriter
  | _, [], w => (true, w)
  | i, value :: values, w =>
    match o.cell value with
    | none => writeColumn o row (i + 1) values w
    | some cell =>
      if o.write row i then writeColumn o row (i + 1) values (w.write i cell) else (false, w)

def writeBlock (s : BridgedSet) (o : BridgeAnswers) (target : Int) :
    Nat → Nat → Nat → BridgeWriter → Int × BridgeWriter
  | 0, _, _, w => (target, w)
  | n + 1, row, position, w =>
    if o.allocRow row = false then ((row : Int) - 1, w)
    else
      match writeColumn o row 0 (s.rows[position]?.getD []) w.allocRow with
      | (false, w) => ((row : Int) - 1, w.freeLastRow)
      | (true, w) =>
        if o.goToNextRow row then s.writeBlock o target n (row + 1) (position + 1) w
        else (target, w)

def onGo (s : BridgedSet) (o : BridgeAnswers) (start target : Int) (w : BridgeWriter) :
    Int × BridgeWriter :=
  if start < 0 ∨ target < 0 ∨ target ≥ s.rows.length then (-1, w)
  else if s.columnCount = 0 then (-1, w)
  else if o.goToRow = false then (-1, w)
  else s.writeBlock o target (target + 1 - start).toNat start.toNat start.toNat w

/-! ## What should be written -/

def cells (row : List ValueObject) : List (Nat × ValueObject) :=
  row.zipIdx.map fun p => (p.2, p.1)

def rowsTo (s : BridgedSet) (start : Nat) (last : Int) : List (List ValueObject) :=
  (s.rows.drop start).take (last + 1 - start).toNat

/-- The rows from `start` to the one that is returned were appended. -/
def Delivers (s : BridgedSet) (start : Nat) (w : BridgeWriter) (res : Int × BridgeWriter) : Prop :=
  res.2.rows = w.rows ++ (s.rowsTo start res.1).map cells

/-- A value that is written as it is. -/
def Plain : ValueObject → Prop
  | .bytes type data => type = .blob ∧ data ≠ []
  | .null | .integer _ | .float _ | .string _ => True

def HasRoom (o : BridgeAnswers) (row i : Nat) (values : List ValueObject) : Prop :=
  ∀ p ∈ values.zipIdx i, (o.cell p.1).isSome → o.write row p.2

def Takes (o : BridgeAnswers) (row : Nat) (values : List ValueObject) : Prop :=
  o.allocRow row ∧ HasRoom o row 0 values

/-- Of the `n` rows from `row` on, those that the writer takes are plain, and the result set moves
on from each but the last. -/
def Smooth (s : BridgedSet) (o : BridgeAnswers) : Nat → Nat → Prop
  | 0, _ => True
  | n + 1, row =>
    Takes o row (s.rows[row]?.getD []) →
      (∀ value ∈ s.rows[row]?.getD [], Plain value) ∧
        (n ≠ 0 → o.goToNextRow row ∧ s.Smooth o n (row + 1))

/-! ## One row -/

variable {o : BridgeAnswers} {s : BridgedSet}

def writtenCells (o : BridgeAnswers) (i : Nat) (values : List ValueObject) :
    List (Nat × ValueObject) :=
  (values.zipIdx i).filterMap fun p => (o.cell p.1).map (p.2, ·)

@[simp] theorem writtenCells_nil (i : Nat) : writtenCells o i [] = [] := rfl

@[simp] theorem writtenCells_cons (i : Nat) (value : ValueObject) (values : List ValueObject) :
    writtenCells o i (value :: values) =
      (o.cell value).toList.map (i, ·) ++ writtenCells o (i + 1) values := by
  cases hcell : o.cell value <;> simp [writtenCells, hcell]

@[simp] theorem hasRoom_cons (row i : Nat) (value : ValueObject) (values : List ValueObject) :
    HasRoom o row i (value :: values) ↔
      ((o.cell value).isSome → o.write row i) ∧ HasRoom o row (i + 1) values := by
  simp only [HasRoom, zipIdx_cons, forall_mem_cons]

theorem write_last (rows : List (List (Nat × ValueObject))) (row : List (Nat × ValueObject))
    (i : Nat) (cell : ValueObject) :
    BridgeWriter.write ⟨rows ++ [row]⟩ i cell = ⟨rows ++ [row ++ [(i, cell)]]⟩ := by
  rw [BridgeWriter.write, modifyLast_concat]

section
variable {row i : Nat} {values : List ValueObject} (rows : List (List (Nat × ValueObject)))
  (last : List (Nat × ValueObject))

theorem writeColumn_of_hasRoom (h : HasRoom o row i values) :
    writeColumn o row i values ⟨rows ++ [last]⟩ =
      (true, ⟨rows ++ [last ++ writtenCells o i values]⟩) := by
  induction values generalizing i last with
  | nil => rw [writeColumn, writtenCells_nil, append_nil]
  | cons value values ih =>
    obtain ⟨hwrite, hroom⟩ := (hasRoom_cons ..).mp h
    rw [writeColumn, writtenCells_cons]
    cases hcell : o.cell value with
    | none => exact ih last hroom
    | some cell =>
      rw [hcell] at hwrite
      dsimp only
      rw [if_pos (hwrite rfl), write_last, ih _ hroom, append_assoc]
      rfl

theorem writeColumn_of_not_hasRoom (h : ¬ HasRoom o row i values) :
    ∃ last', writeColumn o row i values ⟨rows ++ [last]⟩ = (false, ⟨rows ++ [last']⟩) := by
  induction values generalizing i last with
  | nil => exact absurd (fun _ hp => nomatch hp) h
  | cons value values ih =>
    rw [hasRoom_cons] at h
    rw [writeColumn]
    cases hcell : o.cell value with
    | none =>
      refine ih last fun hroom => h ⟨?_, hroom⟩
      rw [hcell]
      exact nofun
    | some cell =>
      dsimp only
      cases hwrite : o.write row i with
      | false => exact ⟨last, rfl⟩
      | true =>
        rw [if_pos rfl, write_last]
        exact ih _ fun hroom => h ⟨fun _ => hwrite, hroom⟩

end

theorem cell_eq_self_iff (value : ValueObject) : o.cell value = some value ↔ Plain value := by
  cases value with
  | bytes type data => cases type <;> simp [BridgeAnswers.cell, Plain]
  | null | integer | float | string => simp [BridgeAnswers.cell, Plain]

theorem writtenCells_eq_iff (i : Nat) (values : List ValueObject) :
    writtenCells o i values = (values.zipIdx i).map (fun p => (p.2, p.1)) ↔
      ∀ value ∈ values, Plain value := by
  induction values generalizing i with
  | nil => simp [writtenCells]
  | cons value values ih =>
    rw [forall_mem_cons, ← ih (i + 1), ← cell_eq_self_iff (o := o), writtenCells_cons,
      zipIdx_cons, map_cons]
    cases hcell : o.cell value with
    | some cell => simp
    | none =>
      -- a cell is missing, so there are fewer cells than columns
      have hlength : (writtenCells o (i + 1) values).length ≤ values.length :=
        (length_filterMap_le ..).trans (length_zipIdx ..).le
      refine iff_of_false (fun heq => ?_) fun hand => nomatch hand.1
      have hlengths := congrArg List.length heq
      simp only [Option.toList_none, map_nil, nil_append, length_cons,
        length_map, length_zipIdx] at hlengths
      omega

/-! ## The loop over the rows -/

abbrev values (s : BridgedSet) (row : Nat) : List ValueObject := s.rows[row]?.getD []

section
variable (target : Int) (n row : Nat) (w : BridgeWriter)

theorem writeBlock_of_takes (h : Takes o row (s.values row)) :
    s.writeBlock o target (n + 1) row row w =
      if o.goToNextRow row then
        s.writeBlock o target n (row + 1) (row + 1) ⟨w.rows ++ [writtenCells o 0 (s.values row)]⟩
      else (target, ⟨w.rows ++ [writtenCells o 0 (s.values row)]⟩) := by
  rw [writeBlock, h.1, if_neg nofun, BridgeWriter.allocRow,
    writeColumn_of_hasRoom w.rows [] h.2]
  rfl

theorem writeBlock_of_not_takes (h : ¬ Takes o row (s.values row)) :
    s.writeBlock o target (n + 1) row row w = ((row : Int) - 1, w) := by
  rw [writeBlock]
  cases halloc : o.allocRow row with
  | false => rfl
  | true =>
    obtain ⟨last, hcolumn⟩ :=
      writeColumn_of_not_hasRoom w.rows [] fun hroom => h ⟨halloc, hroom⟩
    rw [if_neg nofun, BridgeWriter.allocRow, hcolumn]
    simp [BridgeWriter.freeLastRow]

end

theorem writeBlock_appends {target : Int} (n row : Nat) (w : BridgeWriter)
    (h : (row : Int) + n = target + 1) :
    (row : Int) - 1 ≤ (s.writeBlock o target n row row w).1 ∧
      ∃ more, (s.writeBlock o target n row row w).2.rows = w.rows ++ more := by
  induction n generalizing row w with
  | zero => exact ⟨by rw [writeBlock]; omega, [], (append_nil _).symm⟩
  | succ n ih =>
    by_cases htakes : Takes o row (s.values row)
    · rw [writeBlock_of_takes _ _ _ _ htakes]
      split
      · obtain ⟨hle, more, hmore⟩ :=
          ih (row + 1) ⟨w.rows ++ [writtenCells o 0 (s.values row)]⟩ (by push_cast; omega)
        refine ⟨by omega, writtenCells o 0 (s.values row) :: more, ?_⟩
        rw [hmore, append_assoc]
        rfl
      · exact ⟨by dsimp only; omega, _, rfl⟩
    · rw [writeBlock_of_not_takes _ _ _ _ htakes]
      exact ⟨le_rfl, [], (append_nil _).symm⟩

theorem rowsTo_of_lt {row : Nat} {last : Int} (h : last < row) : s.rowsTo row last = [] := by
  rw [rowsTo, Int.toNat_of_nonpos (by omega), take_zero]

theorem rowsTo_cons {row : Nat} {last : Int} (hrow : row < s.rows.length) (h : row ≤ last) :
    s.rowsTo row last = s.values row :: s.rowsTo (row + 1) last := by
  obtain ⟨k, hk⟩ : ∃ k : Nat, (last + 1 - row).toNat = k + 1 := ⟨(last - row).toNat, by omega⟩
  have hk' : (last + 1 - (row + 1 : Nat)).toNat = k := by omega
  rw [rowsTo, rowsTo, hk, hk', drop_eq_getElem_cons hrow, take_succ_cons, values,
    getElem?_eq_getElem hrow]
  rfl

theorem delivers_cons_iff {row : Nat} {w : BridgeWriter} {written : List (Nat × ValueObject)}
    {res : Int × BridgeWriter} (hrow : row < s.rows.length) (hle : row ≤ res.1)
    (happends : ∃ more, res.2.rows = w.rows ++ [written] ++ more) :
    s.Delivers row w res ↔
      written = cells (s.values row) ∧ s.Delivers (row + 1) ⟨w.rows ++ [written]⟩ res := by
  obtain ⟨more, hmore⟩ := happends
  rw [Delivers, Delivers, hmore, rowsTo_cons hrow hle, append_assoc, map_cons,
    append_assoc]
  simp

theorem writeBlock_delivers_iff {target : Int} (n row : Nat) (w : BridgeWriter)
    (h : (row : Int) + n = target + 1) (htarget : target < s.rows.length) :
    s.Delivers row w (s.writeBlock o target n row row w) ↔ s.Smooth o n row := by
  induction n generalizing row w with
  | zero =>
    refine iff_of_true ?_ trivial
    rw [Delivers, writeBlock, rowsTo_of_lt (by omega)]
    simp
  | succ n ih =>
    by_cases htakes : Takes o row (s.values row)
    · have hplain := writtenCells_eq_iff (o := o) 0 (s.values row)
      have hrow : row < s.rows.length := by omega
      rw [writeBlock_of_takes _ _ _ _ htakes, Smooth, imp_iff_right htakes, ← hplain]
      cases hmove : o.goToNextRow row with
      | true =>
        have hnext : ((row + 1 : Nat) : Int) + n = target + 1 := by push_cast; omega
        obtain ⟨hle, happends⟩ := writeBlock_appends (s := s) (o := o) n (row + 1)
          ⟨w.rows ++ [writtenCells o 0 (s.values row)]⟩ hnext
        rw [if_pos rfl, delivers_cons_iff hrow (by omega) happends, ih _ _ hnext]
        cases n with
        | zero => simp [cells, Smooth]
        | succ n => simp [cells]
      | false =>
        rw [if_neg nofun, delivers_cons_iff hrow (by dsimp only; omega)
          ⟨[], (append_nil _).symm⟩, Delivers]
        cases n with
        | zero => simp [cells, rowsTo_of_lt (s := s) (by omega : target < (row + 1 : Nat))]
        | succ n =>
          -- the next row is missing
          have hmissing : s.rowsTo (row + 1) target ≠ [] := by
            rw [rowsTo_cons (by omega) (by push_cast; omega)]
            exact nofun
          simp [hmissing]
    · refine iff_of_true ?_ fun h => absurd h htakes
      rw [writeBlock_of_not_takes _ _ _ _ htakes, Delivers, rowsTo_of_lt (by omega)]
      simp

theorem onGo_delivers_iff (s : BridgedSet) (o : BridgeAnswers) (start target : Fin s.rows.length)
    (w : BridgeWriter) :
    s.Delivers start w (s.onGo o start target w) ↔
      (s.columnCount ≠ 0 → o.goToRow → s.Smooth o (target + 1 - start) start) := by
  have hrefused : s.Delivers start w (-1, w) := by
    rw [Delivers, rowsTo_of_lt (by omega)]
    simp
  have hstart := start.isLt
  have htarget := target.isLt
  rw [onGo, if_neg (by omega)]
  split
  next hzero => exact iff_of_true hrefused fun hne => absurd hzero hne
  next hcolumns =>
    split
    next hmove => exact iff_of_true hrefused fun _ h => nomatch hmove.symm.trans h
    next hmove =>
      rw [imp_iff_right hcolumns, imp_iff_right (by simpa using hmove)]
      have hcount : ((target : Int) + 1 - start).toNat = (target + 1 - start : Nat) := by omega
      rw [hcount, Int.toNat_natCast]
      by_cases hle : (start : Nat) ≤ target + 1
      · exact writeBlock_delivers_iff _ _ w (by omega) (by omega)
      · rw [Nat.sub_eq_zero_of_le (by omega)]
        refine iff_of_true ?_ trivial
        rw [Delivers, writeBlock, rowsTo_of_lt (by omega)]
        simp

theorem onGo_claims_unwritten_row :
    ¬ BridgedSet.Delivers ⟨1, [[.integer 1], [.integer 2]], by decide⟩ 0 ⟨[]⟩
      (onGo ⟨1, [[.integer 1], [.integer 2]], by decide⟩
        ⟨true, fun _ => false, fun _ => true, fun _ _ => true, fun _ => []⟩ 0 1 ⟨[]⟩) := by
  unfold Delivers
  decide

end BridgedSet

end RelationalStore
