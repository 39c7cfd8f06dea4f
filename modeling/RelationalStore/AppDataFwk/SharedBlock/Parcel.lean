import RelationalStore.AppDataFwk.SharedBlock.Basic

/-! # Blocks received in a parcel

A received block holds what the sender wrote; the reading methods follow its offsets. -/

namespace RelationalStore.SharedBlock

open List

def readMessageParcel (size : Nat) (content : Mem) : Option SharedBlock :=
  if size < 2 ^ 31 ∧ 536 ≤ size then
    some (clear { mData := content, mSize := size, mReadOnly := true }).2
  else none

inductive Access where
  | bytes (offset size : Nat)
  | null (size : Nat)
  deriving DecidableEq

/-- The read stays in the mapping. A read of no bytes through a null pointer does nothing. -/
def Access.Inside (b : SharedBlock) : Access → Prop
  | bytes offset size => offset + size ≤ b.mSize
  | null size => size = 0

instance (b : SharedBlock) : (a : Access) → Decidable (a.Inside b)
  | .bytes .. => inferInstanceAs (Decidable (_ ≤ _))
  | .null _ => inferInstanceAs (Decidable (_ = _))

def accessesOfGetCellUnit (b : SharedBlock) (row column : Nat) : List Access :=
  .bytes 4 8 ::
    if row ≥ b.rowNums ∨ column ≥ b.columnNums then []
    else
      [.bytes (24 + 4 * (row / 128)) 4, .bytes (b.groupOffset (row / 128)) 512,
        .bytes (b.rowOffset row) (12 * b.columnNums), .bytes (b.cellAddr row column) 12]

def accessesOfGetRawData (b : SharedBlock) (cell : Nat) : List Access :=
  match b.offsetToPtr (b.cellOffset cell) (b.cellSize cell) with
  | none => []
  | some value => [.bytes value (b.cellSize cell)]

def accessesOfGetString (b : SharedBlock) (cell : Nat) : List Access :=
  b.accessesOfGetRawData cell ++
    match b.offsetToPtr (b.cellOffset cell) (b.cellSize cell) with
    | none => []
    | some value =>
      if b.cellSize cell < 1 then []
      else [.bytes value (b.mData.strlen value (b.mSize - value) + 1)]

def accessesOfGetBlob (b : SharedBlock) (cell : Nat) : List Access :=
  match b.offsetToPtr (b.cellOffset cell) (b.cellSize cell) with
  | none => [.null (b.cellSize cell)]
  | some value => [.bytes value (b.cellSize cell)]

def accesses (b : SharedBlock) (row column : Nat) : List Access :=
  b.accessesOfGetCellUnit row column ++
    match b.getCellUnit row column with
    | none => []
    | some cell =>
      b.accessesOfGetString cell ++ b.accessesOfGetBlob cell ++ b.accessesOfGetRawData cell

/-- The offsets from the header to the directory of `row` stay in the mapping. -/
def ChainInside (b : SharedBlock) (row : Nat) : Prop :=
  28 + 4 * (row / 128) ≤ b.mSize ∧ b.groupOffset (row / 128) + 512 ≤ b.mSize ∧
    b.rowOffset row + 12 * b.columnNums ≤ b.mSize

def PayloadInside (b : SharedBlock) (cell : Nat) : Prop :=
  b.cellSize cell = 0 ∨
    (b.cellOffset cell + b.cellSize cell ≤ b.mSize ∧
      b.mData.strlen (b.cellOffset cell) (b.mSize - b.cellOffset cell) <
        b.mSize - b.cellOffset cell)

variable {b : SharedBlock}

theorem offsetToPtr_eq_some (h : offset + size ≤ b.mSize) (hlt : b.mSize < 2 ^ 31) :
    b.offsetToPtr offset size = some offset :=
  if_neg (by rw [Nat.mod_eq_of_lt (by omega)]; omega)

theorem cellOffset_lt : b.cellOffset cell < 2 ^ 32 := by
  have := Mem.word_lt (m := b.mData) (a := cell + 4) (w := 4)
  unfold cellOffset
  omega

theorem getCellUnit_inside_iff (hsize : 536 ≤ b.mSize) :
    (∀ a ∈ b.accessesOfGetCellUnit row column, a.Inside b) ↔
      (row < b.rowNums → column < b.columnNums → b.ChainInside row) := by
  have hcounts : Access.Inside b (.bytes 4 8) := by
    rw [Access.Inside]
    omega
  unfold accessesOfGetCellUnit
  split
  next hout =>
    simp only [mem_singleton, forall_eq, hcounts, true_iff]
    intro hr hc
    omega
  next hin =>
    obtain ⟨hr, hc⟩ : row < b.rowNums ∧ column < b.columnNums := by omega
    simp only [forall_mem_cons, Access.Inside, hr, hc, ChainInside, cellAddr,
      not_mem_nil, false_imp_iff, implies_true, and_true, forall_const]
    omega

theorem payload_inside_iff (hlt : b.mSize < 2 ^ 31) :
    (∀ a ∈ b.accessesOfGetString cell ++ b.accessesOfGetBlob cell ++ b.accessesOfGetRawData cell,
      a.Inside b) ↔ b.PayloadInside cell := by
  unfold accessesOfGetString accessesOfGetBlob accessesOfGetRawData PayloadInside
  cases hptr : b.offsetToPtr (b.cellOffset cell) (b.cellSize cell) with
  | none =>
    -- only `GetBlob` reads, through the null pointer
    simp only [append_nil, nil_append, mem_singleton, forall_eq, Access.Inside]
    refine ⟨.inl, fun h => h.resolve_right fun ⟨hfits, _⟩ => ?_⟩
    exact nomatch hptr.symm.trans (offsetToPtr_eq_some hfits hlt)
  | some value =>
    obtain ⟨hle, rfl⟩ : (b.cellOffset cell + b.cellSize cell) % 2 ^ 32 ≤ b.mSize ∧
        b.cellOffset cell = value := by
      unfold offsetToPtr at hptr
      split at hptr
      · exact nomatch hptr
      · exact ⟨by omega, Option.some.inj hptr⟩
    by_cases hempty : b.cellSize cell = 0
    · have hoffset : b.cellOffset cell ≤ b.mSize := by
        rwa [hempty, Nat.add_zero, Nat.mod_eq_of_lt cellOffset_lt] at hle
      simp [hempty, Access.Inside, hoffset]
    · have hpos : ¬ b.cellSize cell < 1 := by omega
      simp only [hpos, if_false, forall_mem_append, forall_mem_singleton, Access.Inside,
        hempty, false_or]
      omega

theorem accesses_inside_iff (size : Nat) (content : Mem) (row column : Nat)
    (hb : readMessageParcel size content = some b) :
    (∀ a ∈ b.accesses row column, a.Inside b) ↔
      (row < b.rowNums → column < b.columnNums →
        b.ChainInside row ∧ b.PayloadInside (b.cellAddr row column)) := by
  obtain ⟨hlt, hge⟩ : b.mSize < 2 ^ 31 ∧ 536 ≤ b.mSize := by
    unfold readMessageParcel at hb
    split at hb
    · obtain rfl := Option.some.inj hb
      assumption
    · exact nomatch hb
  rw [accesses, forall_mem_append, getCellUnit_inside_iff hge]
  by_cases hin : row < b.rowNums ∧ column < b.columnNums
  · have hcell : b.getCellUnit row column = some (b.cellAddr row column) := if_neg (by omega)
    simp only [hcell, payload_inside_iff hlt, hin.1, hin.2, forall_const]
  · have hcell : b.getCellUnit row column = none := if_pos (by omega)
    simp only [hcell, not_mem_nil, false_imp_iff, implies_true, and_true]
    constructor <;> intro _ hr hc <;> exact absurd ⟨hr, hc⟩ hin

def oneCell (groupOffset rowOffset offset size : Nat) : Mem :=
  ((((((Mem.setWord (fun _ => 0) 4 4 1).setWord 8 4 1).setWord 24 4 groupOffset).setWord 536 4
    rowOffset).setWord 1048 4 CellUnitType.blob.code).setWord 1052 4 offset).setWord 1056 4 size

theorem accesses_inside_iff_cell :
    ∃ b, readMessageParcel 4096 (oneCell 536 1048 1060 8) = some b ∧
      ∀ a ∈ b.accesses 0 0, a.Inside b :=
  ⟨_, rfl, (accesses_inside_iff 4096 _ 0 0 rfl).mpr fun _ _ => by
    refine ⟨⟨?_, ?_, ?_⟩, .inr ⟨?_, ?_⟩⟩ <;> decide⟩

theorem not_accesses_inside :
    (∃ b, readMessageParcel 4096 (oneCell 536 1048 (2 ^ 32 - 96) 200) = some b ∧
      b.getCellUnit 0 0 = some 1048 ∧ b.getRawData 1048 = some (2 ^ 32 - 96) ∧
      ¬ ∀ a ∈ b.accesses 0 0, a.Inside b) ∧
    ∃ b, readMessageParcel 4096 (oneCell 0x7fffffff 1048 0 0) = some b ∧
      ¬ ∀ a ∈ b.accessesOfGetCellUnit 0 0, a.Inside b := by
  refine ⟨⟨_, rfl, ?_, ?_, ?_⟩, _, rfl, ?_⟩ <;> decide

end RelationalStore.SharedBlock
