import RelationalStore.AppDataFwk.SharedBlock.Put
import RelationalStore.AppDataFwk.SharedBlock.Rows
import RelationalStore.Theory.Run

/-! # Sequences of calls

The writing interface as one step function, and the layout along its runs. -/

namespace RelationalStore.SharedBlock

inductive Op where
  | clear
  | setColumnNum (numColumns : Nat)
  | allocRow
  | freeLastRow
  | putBlob (row column : Nat) (value : Buffer) (size : Nat)
  | putString (row column : Nat) (value : Buffer) (sizeIncludingNull : Nat)
  | putLong (row column : Nat) (value : Int64)
  | putDouble (row column : Nat) (value : UInt64)
  | putAsset (row column : Nat) (value : Buffer) (size : Nat)
  | putAssets (row column : Nat) (value : Buffer) (size : Nat)
  | putFloats (row column : Nat) (value : Buffer) (size : Nat)
  | putBigInt (row column : Nat) (value : Buffer) (size : Nat)
  | putNull (row column : Nat)

namespace Op

def apply (memcpyS : Nat → Bool) (b : SharedBlock) : Op → BlockStatus × SharedBlock
  | clear => b.clear
  | setColumnNum n => b.setColumnNum n
  | allocRow => b.allocRow
  | freeLastRow => b.freeLastRow
  | putBlob row column value size => b.putBlob memcpyS row column value size
  | putString row column value size => b.putString memcpyS row column value size
  | putLong row column value => b.putLong row column value
  | putDouble row column value => b.putDouble row column value
  | putAsset row column value size => b.putAsset memcpyS row column value size
  | putAssets row column value size => b.putAssets memcpyS row column value size
  | putFloats row column value size => b.putFloats memcpyS row column value size
  | putBigInt row column value size => b.putBigInt memcpyS row column value size
  | putNull row column => b.putNull row column

end Op

def DirectorySafe (b : SharedBlock) : Prop :=
  ∀ c < b.columnNums, ¬ IsPayload (b.cellType (b.freshRow + 12 * c))

instance (b : SharedBlock) : Decidable b.DirectorySafe := inferInstanceAs (Decidable (∀ _ < _, _))

/-- The calls that keep the layout of a block. -/
def Op.Safe (b : SharedBlock) : Op → Prop
  | allocRow => b.DirectorySafe
  | putBlob _ _ _ size | putString _ _ _ size | putAsset _ _ _ size | putAssets _ _ _ size
  | putFloats _ _ _ size | putBigInt _ _ _ size => b.PayloadSafe size
  | _ => True

instance (b : SharedBlock) : (op : Op) → Decidable (op.Safe b)
  | .allocRow => inferInstanceAs (Decidable b.DirectorySafe)
  | .putBlob _ _ _ size | .putString _ _ _ size | .putAsset _ _ _ size | .putAssets _ _ _ size
  | .putFloats _ _ _ size | .putBigInt _ _ _ size =>
    inferInstanceAs (Decidable (b.PayloadSafe size))
  | .clear | .setColumnNum _ | .freeLastRow | .putLong .. | .putDouble .. | .putNull .. =>
    .isTrue trivial

variable {b : SharedBlock} {W : Nat → Nat → Prop} {memcpyS : Nat → Bool}

theorem putBlobOrString_inv (hI : b.Inv allCells) (htype : IsPayload type.code)
    (hsafe : b.PayloadSafe size) :
    (b.putBlobOrString memcpyS row column value size type).2.Inv allCells := by
  cases value with
  | none => exact hI
  | some bytes => exact (putBlobOrString_spec memcpyS bytes hI htype hsafe).inv _ fun _ _ => .inl

theorem Op.apply_inv (memcpyS : Nat → Bool) (op : Op) (hI : b.Inv allCells) (hsafe : op.Safe b) :
    (op.apply memcpyS b).2.Inv allCells := by
  cases op with
  | clear =>
    rw [apply]
    cases hro : b.mReadOnly with
    | true => rwa [show b.clear = (.invalidOperation, b) from if_pos hro]
    | false => 
      have hsize : b.clear.2.mSize = b.mSize := clear_size
      exact (clear_cleared hro).inv (hsize ▸ hI.size_ge) (hsize ▸ hI.size_lt)
  | setColumnNum n => exact (setColumnNum_spec hI).1
  | allocRow => exact (allocRow_spec hI).inv _ (fun _ _ _ h => h) fun c hc _ => hsafe c hc
  | freeLastRow => exact (freeLastRow_spec hI).inv
  | putBlob row column value size => exact putBlobOrString_inv hI (by decide) hsafe
  | putString row column value size => exact putBlobOrString_inv hI (by decide) hsafe
  | putLong row column value =>
    exact (putBits_spec hI (.inl rfl) value.toUInt64.toNat_lt).inv _ fun _ _ => .inl
  | putDouble row column value =>
    exact (putBits_spec hI (.inr rfl) value.toNat_lt).inv _ fun _ _ => .inl
  | putAsset row column value size => exact putBlobOrString_inv hI (by decide) hsafe
  | putAssets row column value size => exact putBlobOrString_inv hI (by decide) hsafe
  | putFloats row column value size => exact putBlobOrString_inv hI (by decide) hsafe
  | putBigInt row column value size => exact putBlobOrString_inv hI (by decide) hsafe
  | putNull row column => exact (putNull_spec hI).inv _ fun _ _ => .inl

theorem create_inv (hsize : 1048 ≤ size) (hlt : size < 2 ^ 32) (h : create size = some b) :
    b.Inv W := by
  unfold create at h
  split at h
  next hcond =>
    obtain rfl := Option.some.inj h
    rw [Nat.mod_eq_of_lt hlt] at hcond
    exact (clear_cleared rfl).inv (clear_size.symm ▸ hsize) (clear_size.symm ▸ hcond.1)
  · exact nomatch h

theorem final_inv_of_safe (hI : b.Inv allCells)
    (hsafe : ∀ t ∈ trace (Op.apply memcpyS) b ops, t.call.Safe t.pre) :
    (final (Op.apply memcpyS) b ops).Inv allCells :=
  final_inv (I := (Inv · allCells)) (G := fun b op => op.Safe b)
    (fun _ op => op.apply_inv memcpyS) hI hsafe

theorem wellFormed_of_safe (memcpyS : Nat → Bool) (size : Nat) (ops : List Op)
    (hsize : 1048 ≤ size) (hlt : size < 2 ^ 32) (hb : create size = some b)
    (hsafe : ∀ t ∈ trace (Op.apply memcpyS) b ops, t.call.Safe t.pre) :
    b.WellFormed ∧ ∀ t ∈ trace (Op.apply memcpyS) b ops, t.post.WellFormed := by
  have hI : b.Inv allCells := create_inv hsize hlt hb
  refine ⟨hI.wellFormed, trace_forall (I := (Inv · allCells)) ?_ hI hsafe⟩
  intro b op hI hsafe
  have hI' := op.apply_inv memcpyS hI hsafe
  exact ⟨hI', hI'.wellFormed⟩

def secureMemcpy (size : Nat) : Bool := size ≤ 0x7fffffff

theorem copies_secureMemcpy : ∀ size < 2 ^ 31, secureMemcpy size :=
  fun _ h => decide_eq_true (Nat.le_of_lt_succ h)

theorem wellFormed_of_safe_row : ∃ b, create 4096 = some b ∧
    ∀ t ∈ trace (Op.apply secureMemcpy) b
      [.setColumnNum 2, .allocRow, .putBlob 0 0 (some fun _ => 7) 5, .putLong 0 1 9, .freeLastRow],
      t.post.WellFormed :=
  ⟨_, rfl, (wellFormed_of_safe secureMemcpy 4096 _ (by decide) (by decide) rfl (by decide)).2⟩

theorem not_wellFormed_of_wrap_or_stale : ∃ b, create 4096 = some b ∧
    ¬ (final (Op.apply secureMemcpy) b
      [.setColumnNum 1, .allocRow, .putBlob 0 0 (some fun _ => 0) (2 ^ 32 - 12),
        .allocRow]).WellFormed ∧
    ¬ (final (Op.apply secureMemcpy) b
      [.setColumnNum 1, .allocRow, .putBlob 0 0 (some fun _ => 0) 4, .clear, .setColumnNum 1,
        .allocRow, .allocRow]).WellFormed := by
  refine ⟨_, rfl, fun h => ?_, fun h => ?_⟩
  · refine h.disjoint (.dir 0) (.dir 1) ?_ ?_ nofun trivial 1048 ⟨⟨?_, ?_⟩, ?_, ?_⟩
    · show 0 < rowNums _
      decide
    · show 1 < rowNums _
      decide
    all_goals decide
  · refine h.disjoint (.dir 1) (.payload 0 0) ?_ ⟨?_, ?_, trivial, ?_⟩ nofun trivial 1060
      ⟨⟨?_, ?_⟩, ?_, ?_⟩
    · show 1 < rowNums _
      decide
    all_goals decide

end RelationalStore.SharedBlock
