import Mathlib.Data.List.Nodup
import Mathlib.Data.String.Basic
import RelationalStore.Theory.OrderedMap
import RelationalStore.Rdb.ResultSet.SharedCursor
import RelationalStore.Rdb.ResultSet.StepCursor

/-! # Rows and column names

A row goes to the caller by the names of its columns, of which the first of a name counts. -/

namespace RelationalStore

open List

/-! ## Row entities -/

structure RowEntity where
  values : OrderedMap String ValueObject
  indexs : List (Option String)

namespace RowEntity

def clear (size : Nat) : RowEntity := ⟨.empty, List.replicate size none⟩

variable (entity : RowEntity)

def put (name : String) (index : Int) (value : ValueObject) : RowEntity :=
  if index < 0 ∨ index ≥ entity.indexs.length then entity
  else ⟨entity.values.insert name value, entity.indexs.set index.toNat (some name)⟩

def getNamed (name : String) : ValueObject :=
  (entity.values.find name).getD .null

def get (index : Int) : Option ValueObject :=
  if index < 0 ∨ index ≥ entity.indexs.length then some .null
  else (entity.indexs.getD index.toNat none).bind entity.values.find

end RowEntity

/-! ## The result set -/

structure ResultSetClass (σ : Type _) where
  isClosed : σ → Bool
  lastErr : σ → Option RdbError
  rowPos : σ → Int
  getColumnNames : σ → Except RdbError (List String)
  get : σ → Int → Except RdbError ValueObject × σ
  goToRow : σ → Int → Except RdbError Unit × σ
  goToNextRow : σ → Except RdbError Unit × σ

def columnMapOf (names : List String) : OrderedMap String Nat :=
  names.zipIdx.foldl (fun m p => m.insert p.1 p.2) .empty

structure Columns where
  wholeColumnNames : List String
  columnMap : OrderedMap String Nat
  filled : columnMap = columnMapOf wholeColumnNames

def Columns.columnCount (columns : Columns) : Nat := columns.wholeColumnNames.length

structure AbsResultSet (σ : Type _) where
  derived : σ
  columns : Option Columns

namespace AbsResultSet
variable {σ : Type _} (cls : ResultSetClass σ)

variable (r : AbsResultSet σ)

def initColumnNames : Except RdbError Columns × AbsResultSet σ :=
  if cls.isClosed r.derived then (.error .alreadyClosed, r)
  else
    match cls.getColumnNames r.derived with
    | .error err => (.error err, r)
    | .ok names =>
      let columns : Columns := ⟨names, columnMapOf names, rfl⟩
      (.ok columns, { r with columns := some columns })

def knowColumns : Except RdbError Columns × AbsResultSet σ :=
  match r.columns with
  | none => r.initColumnNames cls
  | some columns => (.ok columns, r)

def resize (size : Nat) (names : List String) : List String :=
  names.take size ++ List.replicate (size - names.length) ""

def fillNames (columns : Columns) (columnNames : List String) : List String :=
  columns.columnMap.entries.foldl
    (fun l p => if p.2 ≥ columns.columnCount then l else l.set p.2 p.1)
    (resize columns.columnCount columnNames)

def getAllColumnNames (columnNames : List String) :
    Except RdbError (List String) × AbsResultSet σ :=
  match r.knowColumns cls with
  | (.error err, r) => (.error err, r)
  | (.ok columns, r) => (.ok (fillNames columns columnNames), r)

def getColumnName (columnIndex : Int) :
    Except RdbError String × AbsResultSet σ :=
  match r.knowColumns cls with
  | (.error err, r) => (.error err, r)
  | (.ok columns, r) =>
    if columns.columnCount ≤ columnIndex ∨ columnIndex < 0 then (.error .columnOutRange, r)
    else
      match columns.columnMap.entries.find? fun p => p.2 = columnIndex with
      | some p => (.ok p.1, r)
      | none => (.error .columnOutRange, r)

def rowLoop (entity : RowEntity) (s : σ) : List (String × Nat) → Except RdbError RowEntity × σ
  | [] => (.ok entity, s)
  | (name, index) :: entries =>
    match cls.get s index with
    | (.error err, s) => (.error err, s)
    | (.ok value, s) => rowLoop (entity.put name index value) s entries

def getRow : Except RdbError RowEntity × AbsResultSet σ :=
  match r.knowColumns cls with
  | (.error err, r) => (.error err, r)
  | (.ok columns, r) =>
    let res := rowLoop cls (.clear columns.columnCount) r.derived columns.columnMap.entries
    (res.1, { r with derived := res.2 })

end AbsResultSet

/-! ## The map of the names -/

section
variable {names : List String} {name name' : String} {i : Nat}

theorem mem_columnMapOf :
    (name, i) ∈ (columnMapOf names).entries ↔ names.zipIdx.lookup name = some i := by
  have hfind := OrderedMap.find_foldl_insert (k := name) names.zipIdx id (.empty : OrderedMap _ Nat)
  rw [Option.map_id] at hfind
  exact OrderedMap.mem_entries_iff.trans (hfind ▸ Iff.rfl)

theorem getElem?_of_mem_columnMapOf (h : (name, i) ∈ (columnMapOf names).entries) :
    names[i]? = some name :=
  mem_zipIdx_iff_getElem?.mp (mem_of_lookup (mem_columnMapOf.mp h))

theorem lt_of_mem_columnMapOf (h : p ∈ (columnMapOf names).entries) : p.2 < names.length :=
  (List.getElem?_eq_some_iff.mp (getElem?_of_mem_columnMapOf h)).1

theorem nodup_iff_mem_columnMapOf :
    names.Nodup ↔ ∀ i name, names[i]? = some name → (name, i) ∈ (columnMapOf names).entries := by
  constructor
  · intro hnodup i name hname
    have hkeys : (names.zipIdx.map (·.1)).Nodup := by rwa [zipIdx_map_fst]
    exact mem_columnMapOf.mpr
      ((lookup_eq_some_iff_mem hkeys).mpr (mem_zipIdx_iff_getElem?.mpr hname))
  · intro h
    refine nodup_iff_getElem?_ne_getElem?.mpr fun i j hij hj heq => ?_
    have hname : names[j]? = some names[j] := List.getElem?_eq_getElem hj
    have hi := mem_columnMapOf.mp (h i _ (heq.trans hname))
    have hj := mem_columnMapOf.mp (h j _ hname)
    exact absurd (Option.some.inj (hi.symm.trans hj)) (Nat.ne_of_lt hij)

theorem length_foldl_set (g : String → α) (entries : List (String × Nat)) (l : List α) :
    (entries.foldl (fun l p => l.set p.2 (g p.1)) l).length = l.length := by
  induction entries generalizing l with
  | nil => rfl
  | cons p entries ih => rw [foldl_cons, ih, length_set]

theorem getElem?_foldl_set (g : String → α) (name : String) {entries : List (String × Nat)}
    {l : List α} (hi : i < l.length) (hname : ∀ p ∈ entries, p.2 = i → p.1 = name) :
    (entries.foldl (fun l p => l.set p.2 (g p.1)) l)[i]? =
      if (name, i) ∈ entries then some (g name) else l[i]? := by
  induction entries generalizing l with
  | nil => rfl
  | cons p entries ih =>
    obtain ⟨hp, hrest⟩ := forall_mem_cons.mp hname
    rw [foldl_cons, ih (by rwa [length_set]) hrest]
    by_cases hmem : (name, i) ∈ entries
    · rw [if_pos hmem, if_pos (mem_cons_of_mem _ hmem)]
    rw [if_neg hmem]
    by_cases hpi : p.2 = i
    · have heq : (name, i) = p := Prod.ext (hp hpi).symm hpi.symm
      rw [if_pos (heq ▸ mem_cons_self), ← heq, getElem?_set_self hi]
    · have hne : (name, i) ∉ p :: entries :=
        fun h => (mem_cons.mp h).elim (fun heq => hpi (heq ▸ rfl)) hmem
      rw [if_neg hne, getElem?_set_ne hpi]

end

/-! ## The names -/

namespace AbsResultSet
variable {σ : Type _} {cls : ResultSetClass σ} {r : AbsResultSet σ} {names : List String}

/-- The names of the columns are these, whether they are known or will be fetched. -/
def HasNames (cls : ResultSetClass σ) (r : AbsResultSet σ) (names : List String) : Prop :=
  match r.columns with
  | none => cls.isClosed r.derived = false ∧ cls.getColumnNames r.derived = .ok names
  | some columns => columns.wholeColumnNames = names

theorem HasNames.knowColumns (h : r.HasNames cls names) : ∃ columns : Columns,
    columns.wholeColumnNames = names ∧
      r.knowColumns cls = (.ok columns, ⟨r.derived, some columns⟩) := by
  obtain ⟨s, columns⟩ := r
  cases columns with
  | none =>
    refine ⟨⟨names, columnMapOf names, rfl⟩, rfl, ?_⟩
    simp only [AbsResultSet.knowColumns, initColumnNames, h.1, h.2]
    rfl
  | some columns => exact ⟨columns, h, rfl⟩

theorem length_resize (size : Nat) (l : List String) : (resize size l).length = size := by
  rw [resize, length_append, length_take, length_replicate]
  omega

theorem fillNames_eq (columns : Columns) (l : List String) :
    fillNames columns l = columns.columnMap.entries.foldl (fun l p => l.set p.2 p.1)
      (resize columns.columnCount l) := by
  have hlt : ∀ p ∈ columns.columnMap.entries, p.2 < columns.columnCount := by
    rw [columns.filled]
    exact fun p hp => lt_of_mem_columnMapOf hp
  refine foldl_ext _ _ _ fun l p hp => ?_
  exact if_neg (Nat.not_le.mpr (hlt p hp))

theorem HasNames.getAllColumnNames (h : r.HasNames cls names) (hnodup : names.Nodup)
    (l : List String) : (r.getAllColumnNames cls l).1 = .ok names := by
  obtain ⟨columns, rfl, hknow⟩ := h.knowColumns
  rw [AbsResultSet.getAllColumnNames, hknow]
  refine congrArg Except.ok (ext_getElem? fun i => ?_)
  rw [fillNames_eq, columns.filled]
  cases hname : columns.wholeColumnNames[i]? with
  | none =>
    refine getElem?_eq_none (((length_foldl_set id _ _).trans (length_resize _ _)).trans_le ?_)
    exact List.getElem?_eq_none_iff.mp hname
  | some name =>
    have hi := (List.getElem?_eq_some_iff.mp hname).1
    refine (getElem?_foldl_set id name (by rwa [length_resize]) fun p hp hpi => ?_).trans
      (if_pos (nodup_iff_mem_columnMapOf.mp hnodup i name hname))
    exact Option.some.inj ((getElem?_of_mem_columnMapOf (hpi ▸ hp)).symm.trans hname)

theorem HasNames.getColumnName_iff (h : r.HasNames cls names) {i : Nat}
    (hname : names[i]? = some name) : (r.getColumnName cls i).1 = .ok name ↔
      (name, i) ∈ (columnMapOf names).entries := by
  obtain ⟨columns, rfl, hknow⟩ := h.knowColumns
  have hi := (List.getElem?_eq_some_iff.mp hname).1
  have hin : ¬ ((columns.columnCount : Int) ≤ i ∨ (i : Int) < 0) := by
    rw [Columns.columnCount]
    omega
  rw [AbsResultSet.getColumnName, hknow]
  dsimp only
  rw [if_neg hin, columns.filled]
  split
  next p hfind =>
    have hp := mem_of_find?_eq_some hfind
    have hpi : p.2 = i := by simpa using find?_some hfind
    obtain rfl : p.1 = name :=
      Option.some.inj ((getElem?_of_mem_columnMapOf (hpi ▸ hp)).symm.trans hname)
    exact ⟨fun _ => hpi ▸ hp, fun _ => rfl⟩
  next hnone =>
    refine ⟨nofun, fun hmem => ?_⟩
    exact absurd (decide_eq_true rfl) (find?_eq_none.mp hnone _ hmem)

end AbsResultSet

/-! ## The row -/

namespace RowEntity
variable {f : Nat → ValueObject} {entity : RowEntity} {entries : List (String × Nat)}
  {names : List String} {i : Nat} {name : String}

def putAll (f : Nat → ValueObject) (entity : RowEntity) (entries : List (String × Nat)) :
    RowEntity :=
  entries.foldl (fun entity p => entity.put p.1 p.2 (f p.2)) entity

theorem putAll_eq (h : ∀ p ∈ entries, p.2 < entity.indexs.length) : entity.putAll f entries =
    ⟨entries.foldl (fun m p => m.insert p.1 (f p.2)) entity.values,
      entries.foldl (fun l p => l.set p.2 (some p.1)) entity.indexs⟩ := by
  induction entries generalizing entity with
  | nil => rfl
  | cons p entries ih =>
    obtain ⟨hp, hrest⟩ := forall_mem_cons.mp h
    have hput : entity.put p.1 p.2 (f p.2) =
        ⟨entity.values.insert p.1 (f p.2), entity.indexs.set p.2 (some p.1)⟩ :=
      if_neg (by omega)
    rw [putAll, foldl_cons, ← putAll, hput]
    exact ih fun q hq => (length_set ..).symm ▸ hrest q hq

def ofNames (f : Nat → ValueObject) (names : List String) : RowEntity :=
  (clear names.length).putAll f (columnMapOf names).entries

theorem ofNames_eq : ofNames f names =
    ⟨(columnMapOf names).entries.foldl (fun m p => m.insert p.1 (f p.2)) .empty,
      (columnMapOf names).entries.foldl (fun l p => l.set p.2 (some p.1))
        (List.replicate names.length none)⟩ :=
  putAll_eq fun p hp => by
    rw [clear, length_replicate]
    exact lt_of_mem_columnMapOf hp

theorem find_ofNames (h : (name, i) ∈ (columnMapOf names).entries) :
    (ofNames f names).values.find name = some (f i) := by
  rw [ofNames_eq, OrderedMap.find_foldl_insert,
    show (columnMapOf names).entries.lookup name = some i from OrderedMap.mem_entries_iff.mp h]
  rfl

theorem getNamed_ofNames (h : (name, i) ∈ (columnMapOf names).entries) :
    (ofNames f names).getNamed name = f i := by
  rw [getNamed, find_ofNames h]
  rfl

theorem get_ofNames (hname : names[i]? = some name) : (ofNames f names).get i =
    if (name, i) ∈ (columnMapOf names).entries then some (f i) else none := by
  have hi := (List.getElem?_eq_some_iff.mp hname).1
  have hlen : (ofNames f names).indexs.length = names.length := by
    rw [ofNames_eq]
    exact (length_foldl_set some _ _).trans (length_replicate ..)
  have hindex : (ofNames f names).indexs[i]? =
      if (name, i) ∈ (columnMapOf names).entries then some (some name) else some none := by
    rw [ofNames_eq]
    refine (getElem?_foldl_set some _ (by rwa [length_replicate]) fun p hp hpi => ?_).trans
      (by rw [getElem?_replicate_of_lt hi])
    exact Option.some.inj ((getElem?_of_mem_columnMapOf (hpi ▸ hp)).symm.trans hname)
  rw [get, if_neg (by omega), Int.toNat_natCast, getD_eq_getElem?_getD, hindex]
  split
  next hmem => exact find_ofNames hmem
  · rfl

end RowEntity

namespace AbsResultSet
variable {σ : Type _} {cls : ResultSetClass σ} {r : AbsResultSet σ} {s : σ} {names : List String}

def valueAt (cls : ResultSetClass σ) (s : σ) (i : Nat) : ValueObject :=
  match (cls.get s i).1 with
  | .ok value => value
  | .error _ => .null

/-- `Get` leaves the state as it is. -/
def Still (cls : ResultSetClass σ) (s : σ) : Prop := ∀ i : Nat, (cls.get s i).2 = s

theorem rowLoop_ok_iff (hstill : Still cls s) : (rowLoop cls entity s entries).1 = .ok entity' ↔
      (∀ p ∈ entries, (cls.get s p.2).1 = .ok (valueAt cls s p.2)) ∧
        entity' = entity.putAll (valueAt cls s) entries := by
  induction entries generalizing entity with
  | nil => exact ⟨fun h => ⟨nofun, (Except.ok.inj h).symm⟩, fun h => congrArg Except.ok h.2.symm⟩
  | cons p entries ih =>
    have hsame := hstill p.2
    rw [rowLoop]
    generalize hget : cls.get s p.2 = res at hsame
    obtain ⟨ret, s'⟩ := res
    obtain rfl : s' = s := hsame
    cases ret with
    | error err =>
      refine ⟨nofun, fun h => ?_⟩
      have hp := h.1 p mem_cons_self
      rw [hget] at hp
      exact nomatch hp
    | ok value =>
      have hvalue : valueAt cls s' p.2 = value := by rw [valueAt, hget]
      dsimp only
      rw [ih, forall_mem_cons, hvalue, hget, RowEntity.putAll, RowEntity.putAll,
        foldl_cons, hvalue]
      exact ⟨fun h => ⟨⟨rfl, h.1⟩, h.2⟩, fun h => ⟨h.1.2, h.2⟩⟩

theorem HasNames.getRow_ok_iff (h : r.HasNames cls names) (hstill : Still cls r.derived) :
    (r.getRow cls).1 = .ok entity ↔
      (∀ p ∈ (columnMapOf names).entries,
        (cls.get r.derived p.2).1 = .ok (valueAt cls r.derived p.2)) ∧
        entity = .ofNames (valueAt cls r.derived) names := by
  obtain ⟨columns, rfl, hknow⟩ := h.knowColumns
  rw [getRow, hknow]
  dsimp only
  rw [columns.filled]
  exact rowLoop_ok_iff hstill

/-! ## The columns as a caller sees them -/

/-- The calls give these columns, each with its name and its value in the current row. -/
structure GivesColumns (cls : ResultSetClass σ) (r : AbsResultSet σ)
    (columns : List (String × ValueObject)) : Prop where
  row : ∃ entity, (r.getRow cls).1 = .ok entity ∧
    (∀ i p, columns[i]? = some p → entity.get (i : Nat) = some p.2) ∧
    ∀ name ∈ columns.map (·.1), (name, entity.getNamed name) ∈ columns
  names : ∀ columnNames, (r.getAllColumnNames cls columnNames).1 = .ok (columns.map (·.1))
  name : ∀ i p, columns[i]? = some p → (r.getColumnName cls (i : Nat)).1 = .ok p.1

section
variable {columns : List (String × ValueObject)} (hnames : r.HasNames cls (columns.map (·.1)))

theorem getElem?_map_fst {i : Nat} (h : columns[i]? = some p) :
    (columns.map (·.1))[i]? = some p.1 := by
  rw [getElem?_map, h]
  rfl

include hnames

theorem GivesColumns.nodup (h : GivesColumns cls r columns) : (columns.map (·.1)).Nodup := by
  refine nodup_iff_mem_columnMapOf.mpr fun i name hi => (hnames.getColumnName_iff hi).mp ?_
  rw [getElem?_map, Option.map_eq_some_iff] at hi
  obtain ⟨p, hp, rfl⟩ := hi
  exact h.name i p hp

theorem GivesColumns.get_eq (h : GivesColumns cls r columns) (hstill : Still cls r.derived)
    (hp : columns[i]? = some p) : (cls.get r.derived (i : Nat)).1 = .ok p.2 := by
  obtain ⟨entity, hrow, hget, _⟩ := h.row
  obtain ⟨hok, rfl⟩ := (hnames.getRow_ok_iff hstill).mp hrow
  have hi := getElem?_map_fst hp
  have hmem := nodup_iff_mem_columnMapOf.mp (h.nodup hnames) i p.1 hi
  have hvalue := hget i p hp
  rw [RowEntity.get_ofNames hi, if_pos hmem] at hvalue
  rw [hok _ hmem, Option.some.inj hvalue]

theorem givesColumns_of_nodup (hstill : Still cls r.derived) (hnodup : (columns.map (·.1)).Nodup)
    (hread : ∀ i p, columns[i]? = some p → (cls.get r.derived (i : Nat)).1 = .ok p.2) :
    GivesColumns cls r columns := by
  have hmem := nodup_iff_mem_columnMapOf.mp hnodup
  have hcolumn {i : Nat} {name : String} (hi : (columns.map (·.1))[i]? = some name) :
      columns[i]? = some (name, valueAt cls r.derived i) := by
    rw [getElem?_map, Option.map_eq_some_iff] at hi
    obtain ⟨p, hp, rfl⟩ := hi
    rw [valueAt, hread i p hp]
    exact hp
  have hok : ∀ p ∈ (columnMapOf (columns.map (·.1))).entries,
      (cls.get r.derived p.2).1 = .ok (valueAt cls r.derived p.2) :=
    fun p hp => hread p.2 _ (hcolumn (getElem?_of_mem_columnMapOf hp))
  refine ⟨⟨_, (hnames.getRow_ok_iff hstill).mpr ⟨hok, rfl⟩, fun i p hp => ?_, fun name hname => ?_⟩,
    fun columnNames => hnames.getAllColumnNames hnodup columnNames, fun i p hp => ?_⟩
  · rw [RowEntity.get_ofNames (getElem?_map_fst hp), if_pos (hmem i p.1 (getElem?_map_fst hp)),
      valueAt, hread i p hp]
  · obtain ⟨i, hi⟩ := mem_iff_getElem?.mp hname
    rw [RowEntity.getNamed_ofNames (hmem i name hi)]
    exact mem_of_getElem? (hcolumn hi)
  · exact (hnames.getColumnName_iff (getElem?_map_fst hp)).mpr (hmem i p.1 (getElem?_map_fst hp))

end

end AbsResultSet

/-! ## The native result sets -/

structure NamedQuery extends Query where
  names : List String
  names_length : names.length = decls.length
  names_ne : names ≠ []

def NamedQuery.columnsAt (q : NamedQuery) (p : Nat) : List (String × ValueObject) :=
  q.names.zip ((List.range q.decls.length).map fun i => (q.value p i).getD .null)

theorem NamedQuery.names_columnsAt (q : NamedQuery) (p : Nat) :
    (q.columnsAt p).map (·.1) = q.names := by
  refine map_fst_zip ?_
  rw [length_map, length_range, q.names_length]

theorem NamedQuery.getElem?_columnsAt {q : NamedQuery} (hp : p < q.rows.length) :
    (q.columnsAt p)[i]? = some c ↔ q.names[i]? = some c.1 ∧ q.value p i = some c.2 := by
  rw [columnsAt, getElem?_zip_eq_some]
  refine and_congr_right fun hi => ?_
  have hlt : i < q.decls.length := q.names_length ▸ (List.getElem?_eq_some_iff.mp hi).1
  obtain ⟨decl, cells, v, _, _, _, hvalue⟩ := q.cell hp hlt
  rw [getElem?_map, getElem?_range hlt, Option.map_some, hvalue]
  exact Iff.rfl

def StepResultSet.cls (names : List String) : ResultSetClass StepResultSet where
  isClosed := isClosed
  lastErr := lastErr
  rowPos := rowPos
  getColumnNames s :=
    match s.lastErr with
    | some err => .error err
    | none => if s.isClosed then .error .alreadyClosed else .ok names
  get s column := (s.get column, s)
  goToRow := goToRow
  goToNextRow := goToNextRow

def SqliteSharedResultSet.cls (memcpyS : Nat → Bool) (names : List String) :
    ResultSetClass SqliteSharedResultSet where
  isClosed := isClosed
  lastErr := lastErr
  rowPos := rowPos
  getColumnNames s := if s.isClosed then .error .alreadyClosed else .ok names
  get := get
  goToRow := goToRow memcpyS
  goToNextRow s := s.goToRow memcpyS (toInt32 (s.rowPos + 1))

open AbsResultSet

theorem SqliteSharedResultSet.get_snd (s : SqliteSharedResultSet) (col : Int) :
    (s.get col).2 = s.getBlock := by
  rw [get]
  split
  · rfl
  · rfl
  split
  · rfl
  split <;> rfl

namespace AbsResultSet

theorem gives_iff_nodup_and_reads {σ : Type _} (cls : ResultSetClass σ) (r : AbsResultSet σ)
    (columns : List (String × ValueObject)) (hnames : r.HasNames cls (columns.map (·.1)))
    (hstill : Still cls r.derived) : GivesColumns cls r columns ↔ (columns.map (·.1)).Nodup ∧
      ∀ i p, columns[i]? = some p → (cls.get r.derived (i : Nat)).1 = .ok p.2 :=
  ⟨fun h => ⟨h.nodup hnames, fun _ _ => h.get_eq hnames hstill⟩,
    fun h => givesColumns_of_nodup hnames hstill h.1 h.2⟩

theorem gives_iff_nodup_and_reads_table :
    let q : Query := ⟨[some "INTEGER", some "TEXT"], [[.integer 1, .text [65]]], by decide,
      by decide, by decide⟩
    let r : AbsResultSet StepResultSet :=
      ⟨((StepResultSet.create ⟨q, 0, none, []⟩ true false).goToRow 0).2, none⟩
    GivesColumns (StepResultSet.cls ["id", "name"]) r
      [("id", .integer 1), ("name", .string [65])] := by
  intro q r
  have hnames : r.HasNames (StepResultSet.cls ["id", "name"]) ["id", "name"] := ⟨rfl, rfl⟩
  refine (gives_iff_nodup_and_reads _ _ _ hnames fun _ => rfl).mpr ⟨by decide, fun i p hp => ?_⟩
  match i with
  | 0 => cases hp; rfl
  | 1 => cases hp; rfl

theorem not_gives_repeated :
    let q : Query := ⟨[some "INTEGER", some "INTEGER"], [[.integer 1, .integer 2]], by decide,
      by decide, by decide⟩
    let cls := StepResultSet.cls ["id", "id"]
    let r : AbsResultSet StepResultSet :=
      ⟨((StepResultSet.create ⟨q, 0, none, []⟩ true false).goToRow 0).2, none⟩
    ¬ GivesColumns cls r [("id", .integer 1), ("id", .integer 2)] ∧
      (r.getRow cls).1.map (fun entity => (entity.get 0, entity.get 1)) =
        .ok (some (.integer 1), none) ∧
      (r.getAllColumnNames cls []).1 = .ok ["id", ""] ∧
      (r.getColumnName cls 1).1 = .error .columnOutRange := by
  intro q cls r
  have hname : (r.getColumnName cls 1).1 = .error .columnOutRange := by decide +kernel
  refine ⟨fun h => ?_, by decide +kernel, by decide +kernel, hname⟩
  exact nomatch hname.symm.trans (h.name 1 _ rfl)

end AbsResultSet

end RelationalStore
