import RelationalStore.Rdb.Values.ValueObject
import RelationalStore.Theory.OrderedMap

/-! # Reading the keys of modified rows back

The log table is queried by the hashes of the keys, and the cursor turns a hash into its key. -/

namespace RelationalStore

open List

abbrev HashKey := List (Fin 256)

inductive PRIKey where
  | monostate
  | string (value : List (Fin 256))
  | int64 (value : Int)
  | double (value : Values.Double)
  deriving DecidableEq

def PRIKey.isString : PRIKey → Bool
  | .string _ => true
  | _ => false

structure ModifyTime where
  rows : List HashKey := []
  hash : OrderedMap HashKey PRIKey := .empty
  maxOriginKeySize : Nat := 8

namespace ModifyTime

def maxSizeLoop : Nat → List (HashKey × PRIKey) → Nat
  | size, (_, .string val) :: entries =>
    maxSizeLoop (if size ≤ val.length then val.length + 1 else size) entries
  | size, _ => size

def ofResult (rows : List HashKey) (hash : OrderedMap HashKey PRIKey) : ModifyTime :=
  { rows, hash, maxOriginKeySize := maxSizeLoop 8 hash.entries }

def getOriginKey (m : ModifyTime) (hash : HashKey) : PRIKey := (m.hash.find hash).getD .monostate

def needConvert (m : ModifyTime) : Bool := !m.hash.entries.isEmpty

end ModifyTime

variable (hash : PRIKey → HashKey)

def keyMap (keys : List PRIKey) : OrderedMap HashKey PRIKey :=
  keys.foldl (fun m key => if hash key = [] then m else m.insertOrAssign (hash key) key) .empty

def getModifyTime (keys : List PRIKey) (logTable : List HashKey) :
    ModifyTime :=
  if keys = [] then {}
  else
    let hashKeys := (keys.map hash).filter (· ≠ [])
    let rows := logTable.filter (· ∈ hashKeys)
    if rows = [] then {} else .ofResult rows (keyMap hash keys)

/-! ## The cursor

The getters of `ModifyTimeCursor` for column 0 of the row with a given hash. What
`RelationalCursor` would answer is a parameter. -/

namespace ModifyTimeCursor
variable (m : ModifyTime) (row : HashKey)

def getSize (plain : Option Nat) : Option Nat :=
  if m.needConvert then some m.maxOriginKeySize else plain

def strcpyS (length : Int) (text : List (Fin 256)) : Option (List (Fin 256)) :=
  let chars := text.takeWhile (· ≠ 0)
  if chars.length < length then some chars else none

def getText (plain : Option (List (Fin 256))) (length : Int) : Option (List (Fin 256)) :=
  if length ≤ 0 then none
  else if m.needConvert then
    match m.getOriginKey row with
    | .string val => strcpyS length val
    | _ => none
  else plain

def getInt64 (plain : Option Int) : Option Int :=
  if m.needConvert then
    match m.getOriginKey row with
    | .int64 val => some val
    | _ => none
  else plain

def getReal (plain : Option Values.Double) : Option Values.Double :=
  if m.needConvert then
    match m.getOriginKey row with
    | .double val => some val
    | _ => none
  else plain

def toInt (size : Nat) : Int :=
  if size % 2 ^ 32 < 2 ^ 31 then (size % 2 ^ 32 : Nat) else (size % 2 ^ 32 : Nat) - 2 ^ 32

def ReadsBack : PRIKey → Prop
  | .monostate => True
  | .int64 val => ∀ plain, getInt64 m row plain = some val
  | .double val => ∀ plain, getReal m row plain = some val
  | .string val => 0 ∉ val → ∀ plainSize plain, ∃ size, getSize m plainSize = some size ∧
      getText m row plain (toInt size) = some val

end ModifyTimeCursor

def Leading (keys : List PRIKey) (val : List (Fin 256)) : Prop :=
  .string val ∈ keys ∧ ∀ key ∈ keys, hash key < hash (.string val) → key.isString

/-- The reported size covers a string: it is short, or not longer than a leading one. -/
def Covered (keys : List PRIKey) (val : List (Fin 256)) : Prop :=
  val.length < 8 ∨ ∃ longer, Leading hash keys longer ∧ val.length ≤ longer.length

namespace ModifyTime

theorem lt_maxSizeLoop_iff (entries : List (HashKey × PRIKey)) (n size : Nat) :
    n < maxSizeLoop size entries ↔
      n < size ∨ ∃ h val, (h, .string val) ∈ entries.takeWhile (·.2.isString) ∧ n ≤ val.length := by
  induction entries generalizing size with
  | nil => simp [maxSizeLoop]
  | cons p entries ih =>
    obtain ⟨h, key⟩ := p
    cases key with
    | string val =>
      rw [maxSizeLoop, ih, takeWhile_cons_of_pos rfl]
      have hsize : n < (if size ≤ val.length then val.length + 1 else size) ↔
          n < size ∨ n ≤ val.length := by
        split <;> omega
      simp only [hsize, mem_cons, Prod.mk.injEq, PRIKey.string.injEq, or_assoc]
      refine or_congr_right ⟨?_, ?_⟩
      · rintro (hle | ⟨h', val', hmem, hle⟩)
        · exact ⟨h, val, .inl ⟨rfl, rfl⟩, hle⟩
        · exact ⟨h', val', .inr hmem, hle⟩
      · rintro ⟨h', val', ⟨rfl, rfl⟩ | hmem, hle⟩
        · exact .inl hle
        · exact .inr ⟨h', val', hmem, hle⟩
    | monostate => simp [maxSizeLoop, PRIKey.isString]
    | int64 _ => simp [maxSizeLoop, PRIKey.isString]
    | double _ => simp [maxSizeLoop, PRIKey.isString]

end ModifyTime

theorem mem_takeWhile_isString {entries : List (HashKey × PRIKey)}
    (hsorted : entries.Pairwise (·.1 < ·.1)) :
    (h, .string val) ∈ entries.takeWhile (·.2.isString) ↔
      (h, .string val) ∈ entries ∧ ∀ p ∈ entries, p.1 < h → p.2.isString := by
  induction entries with
  | nil => simp
  | cons p entries ih =>
    obtain ⟨hhead, htail⟩ := pairwise_cons.mp hsorted
    by_cases hp : p.2.isString
    · rw [takeWhile_cons, if_pos hp, mem_cons, ih htail, mem_cons,
        forall_mem_cons]
      constructor
      · rintro (rfl | ⟨hmem, hbefore⟩)
        · refine ⟨.inl rfl, fun _ => hp, fun q hq hlt => absurd hlt (lt_asymm (hhead q hq))⟩
        · exact ⟨.inr hmem, fun _ => hp, hbefore⟩
      · rintro ⟨rfl | hmem, -, hbefore⟩
        · exact .inl rfl
        · exact .inr ⟨hmem, hbefore⟩
    · rw [takeWhile_cons, if_neg hp]
      refine iff_of_false not_mem_nil ?_
      rintro ⟨hmem, hbefore⟩
      rcases mem_cons.mp hmem with rfl | hmem
      · exact hp rfl
      · exact hp (hbefore p mem_cons_self (hhead _ hmem))

section
variable {hash : PRIKey → HashKey} {keys : List PRIKey} {logTable : List HashKey}

theorem find_keyMap_iff (hinj : ∀ k ∈ keys, ∀ k' ∈ keys, hash k = hash k' → k = k')
    (hne : ∀ k ∈ keys, hash k ≠ []) :
    (keyMap hash keys).find h = some key ↔ key ∈ keys ∧ hash key = h := by
  induction keys using List.reverseRecOn with
  | nil =>
    change none = some key ↔ _
    simp
  | append_singleton keys last ih =>
    have hlast : last ∈ keys ++ [last] := by simp
    have hfind : (keyMap hash (keys ++ [last])).find h =
        if h = hash last then some last else (keyMap hash keys).find h := by
      rw [keyMap, foldl_append, foldl_cons, foldl_nil, if_neg (hne last hlast)]
      exact (OrderedMap.find_insertOrAssign (keyMap hash keys)).trans (by congr)
    rw [hfind]
    split
    next heq =>
      subst heq
      rw [Option.some.injEq]
      constructor
      · rintro rfl
        exact ⟨hlast, rfl⟩
      · rintro ⟨hmem, hhash⟩
        exact (hinj key hmem last hlast hhash).symm
    next hne' =>
      rw [ih (fun k hk k' hk' => hinj k (mem_append_left _ hk) k' (mem_append_left _ hk'))
        fun k hk => hne k (mem_append_left _ hk)]
      refine and_congr_left fun hhash => ?_
      rw [mem_append, mem_singleton]
      refine ⟨.inl, fun hmem => hmem.resolve_right ?_⟩
      rintro rfl
      exact hne' hhash.symm

variable (hinj : ∀ k ∈ keys, ∀ k' ∈ keys, hash k = hash k' → k = k')
  (hne : ∀ k ∈ keys, hash k ≠ [])
include hinj hne

theorem lt_maxSize_iff (n : Nat) :
    n < ModifyTime.maxSizeLoop 8 (keyMap hash keys).entries ↔
      n < 8 ∨ ∃ longer, Leading hash keys longer ∧ n ≤ longer.length := by
  rw [ModifyTime.lt_maxSizeLoop_iff]
  refine or_congr_right ?_
  simp only [mem_takeWhile_isString (keyMap hash keys).sorted, Prod.forall,
    OrderedMap.mem_entries_iff, find_keyMap_iff hinj hne]
  constructor
  · rintro ⟨_, longer, ⟨⟨hmem, rfl⟩, hbefore⟩, hle⟩
    exact ⟨longer, ⟨hmem, fun key hkey => hbefore _ key ⟨hkey, rfl⟩⟩, hle⟩
  · rintro ⟨longer, ⟨hmem, hbefore⟩, hle⟩
    refine ⟨_, longer, ⟨⟨hmem, rfl⟩, ?_⟩, hle⟩
    rintro _ key ⟨hkey, rfl⟩
    exact hbefore key hkey

theorem maxSize_lt (h : ∀ longer, Leading hash keys longer → longer.length + 1 < 2 ^ 31) :
    ModifyTime.maxSizeLoop 8 (keyMap hash keys).entries < 2 ^ 31 := by
  by_contra hge
  rcases (lt_maxSize_iff hinj hne (2 ^ 31 - 1)).mp (by omega) with hlt | ⟨longer, hlead, hle⟩
  · omega
  · have hlt := h longer hlead
    omega

end

/-! ## Every row of the result -/

/-- The keys of all rows read back. -/
def KeysReadBack (keys : List PRIKey) (m : ModifyTime) : Prop :=
  ∀ key ∈ keys, hash key ∈ m.rows → ModifyTimeCursor.ReadsBack m (hash key) key

def StringRow (keys : List PRIKey) (m : ModifyTime)
    (val : List (Fin 256)) : Prop :=
  .string val ∈ keys ∧ hash (.string val) ∈ m.rows ∧ 0 ∉ val

theorem toInt_of_lt (h : size < 2 ^ 31) : ModifyTimeCursor.toInt size = size := by
  rw [ModifyTimeCursor.toInt, Nat.mod_eq_of_lt (h.trans (by decide)), if_pos h]

theorem getModifyTime_of_mem {logTable : List HashKey} {row : HashKey} {hash : PRIKey → HashKey}
    {keys : List PRIKey} (h : row ∈ (getModifyTime hash keys logTable).rows) :
    ∃ rows, getModifyTime hash keys logTable = .ofResult rows (keyMap hash keys) := by
  rw [getModifyTime] at h ⊢
  split_ifs at h ⊢
  · exact nomatch h
  · dsimp only at h ⊢
    split_ifs at h ⊢
    · exact nomatch h
    · exact ⟨_, rfl⟩

section
open ModifyTimeCursor
variable {m : ModifyTime} {row : HashKey} {key : PRIKey}

theorem needConvert_of_find (h : m.hash.find row = some key) : m.needConvert := by
  rw [ModifyTime.needConvert, Bool.not_eq_true', isEmpty_eq_false_iff]
  exact ne_nil_of_mem (OrderedMap.mem_entries_iff.mpr h)

theorem readsBack_iff_of_find (h : m.hash.find row = some key) :
    ReadsBack m row key ↔
      ∀ val, key = .string val → 0 ∉ val → val.length < toInt m.maxOriginKeySize := by
  have hconvert := needConvert_of_find h
  have horigin : m.getOriginKey row = key := by rw [ModifyTime.getOriginKey, h]; rfl
  cases key with
  | monostate => exact iff_of_true trivial fun _ h => nomatch h
  | int64 val => simp [ReadsBack, getInt64, hconvert, horigin]
  | double val => simp [ReadsBack, getReal, hconvert, horigin]
  | string val =>
    have htext : 0 ∉ val → ∀ plain length,
        (getText m row plain length = some val ↔ val.length < length) := by
      intro hnul plain length
      have hchars : val.takeWhile (· ≠ 0) = val :=
        takeWhile_eq_self_iff.mpr fun c hc => decide_eq_true fun h0 => hnul (h0 ▸ hc)
      rw [getText, hconvert, horigin, if_pos rfl]
      split_ifs with hlength
      · exact iff_of_false nofun (by omega)
      · simp only [strcpyS, hchars, ite_eq_left_iff, reduceCtorEq, imp_false, not_not]
    simp only [ReadsBack, getSize, hconvert, if_true, Option.some.injEq, exists_eq_left',
      PRIKey.string.injEq]
    constructor
    · rintro hread _ rfl hnul
      exact (htext hnul none _).mp (hread hnul none none)
    · intro hfits hnul _ plain
      exact (htext hnul plain _).mpr (hfits val rfl hnul)

end

theorem keysReadBack_iff (keys : List PRIKey) (logTable : List HashKey)
    (hinj : ∀ k ∈ keys, ∀ k' ∈ keys, hash k = hash k' → k = k') (hne : ∀ k ∈ keys, hash k ≠ []) :
    let m := getModifyTime hash keys logTable
    (KeysReadBack hash keys m ↔ ∀ val, StringRow hash keys m val →
      val.length < ModifyTimeCursor.toInt m.maxOriginKeySize) ∧
    ((∀ longer, Leading hash keys longer → longer.length + 1 < 2 ^ 31) →
      (KeysReadBack hash keys m ↔ ∀ val, StringRow hash keys m val → Covered hash keys val)) := by
  intro m
  have hfind : ∀ key ∈ keys, hash key ∈ m.rows → m.hash.find (hash key) = some key := by
    intro key hkey hrow
    obtain ⟨rows, hm⟩ := getModifyTime_of_mem hrow
    rw [show m = _ from hm]
    exact (find_keyMap_iff hinj hne).mpr ⟨hkey, rfl⟩
  have hiff : KeysReadBack hash keys m ↔ ∀ val, StringRow hash keys m val →
      val.length < ModifyTimeCursor.toInt m.maxOriginKeySize := by
    constructor
    · rintro h val ⟨hkey, hrow, hnul⟩
      exact (readsBack_iff_of_find (hfind _ hkey hrow)).mp (h _ hkey hrow) val rfl hnul
    · intro h key hkey hrow
      refine (readsBack_iff_of_find (hfind key hkey hrow)).mpr ?_
      rintro val rfl hnul
      exact h val ⟨hkey, hrow, hnul⟩
  refine ⟨hiff, fun hlead => hiff.trans ?_⟩
  refine forall_congr' fun val => imp_congr_right fun hval => ?_
  obtain ⟨rows, hm⟩ := getModifyTime_of_mem hval.2.1
  have hsize : m.maxOriginKeySize = ModifyTime.maxSizeLoop 8 (keyMap hash keys).entries :=
    congrArg ModifyTime.maxOriginKeySize hm
  rw [hsize, toInt_of_lt (maxSize_lt hinj hne hlead), Int.ofNat_lt, lt_maxSize_iff hinj hne,
    Covered]

def taggedHash : PRIKey → HashKey
  | .monostate => [0]
  | .int64 val => [1, Fin.ofNat 256 val.toNat]
  | .double val => [2, Fin.ofNat 256 val.magnitude]
  | .string val => 3 :: val

theorem keysReadBack_strings :
    KeysReadBack taggedHash [.string [97, 98], .string [97, 98, 99, 100, 101, 102, 103, 104, 105]]
      (getModifyTime taggedHash
        [.string [97, 98], .string [97, 98, 99, 100, 101, 102, 103, 104, 105]]
        [[3, 97, 98], [3, 97, 98, 99, 100, 101, 102, 103, 104, 105]]) := by
  refine (keysReadBack_iff _ _ _ (by decide +kernel) (by decide +kernel)).1.mpr ?_
  rintro val ⟨hval, -, -⟩
  rcases mem_cons.mp hval with h | h
  · cases h
    decide +kernel
  · cases mem_singleton.mp h
    decide +kernel

theorem keysReadBack_integer_first :
    ¬ KeysReadBack taggedHash [.int64 7, .string [97, 98, 99, 100, 101, 102, 103, 104, 105]]
      (getModifyTime taggedHash [.int64 7, .string [97, 98, 99, 100, 101, 102, 103, 104, 105]]
        [[1, 7], [3, 97, 98, 99, 100, 101, 102, 103, 104, 105]]) := by
  intro h
  obtain ⟨size, hsize, htext⟩ :=
    h (.string [97, 98, 99, 100, 101, 102, 103, 104, 105]) (by decide) (by decide +kernel)
      (by decide) none none
  cases (show size = 8 from by
    rw [show ModifyTimeCursor.getSize _ _ = some 8 from by decide +kernel] at hsize
    exact (Option.some.inj hsize).symm)
  exact absurd htext (by decide +kernel)

end RelationalStore
