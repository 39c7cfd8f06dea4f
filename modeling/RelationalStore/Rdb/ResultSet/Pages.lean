import Mathlib.Data.List.SplitLengths
import RelationalStore.Rdb.ResultSet.AbsResultSet
import RelationalStore.Rdb.ResultSet.Refill

/-! # Pages of rows

`GetRowsData` reads rows from the cursor on, and the next call goes on from there. -/

namespace RelationalStore

open List Query

namespace AbsResultSet
variable {σ : Type _} (cls : ResultSetClass σ)

def rowDataLoop (index : Nat) (s : σ) : List String → Except RdbError (List ValueObject) × σ
  | [] => (.ok [], s)
  | _ :: names =>
    match cls.get s index with
    | (.error err, s) => (.error err, s)
    | (.ok value, s) =>
      let res := rowDataLoop (index + 1) s names
      (res.1.map (value :: ·), res.2)

def getRowData (r : AbsResultSet σ) : Except RdbError (List ValueObject) × AbsResultSet σ :=
  match cls.lastErr r.derived with
  | some err => (.error err, r)
  | none =>
    match r.knowColumns cls with
    | (.error err, r) => (.error err, r)
    | (.ok columns, r) =>
      let res := rowDataLoop cls 0 r.derived columns.wholeColumnNames
      (res.1, { r with derived := res.2 })

def pageLoop : Nat → AbsResultSet σ → Except RdbError (List (List ValueObject)) × AbsResultSet σ
  | 0, r => (.ok [], r)
  | count + 1, r =>
    match r.getRowData cls with
    | (.error .rowOutRange, r) => (.ok [], r)
    | (.error err, r) => (.error err, r)
    | (.ok rowData, r) =>
      match cls.goToNextRow r.derived with
      | (.error .rowOutRange, s) => (.ok [rowData], { r with derived := s })
      | (.error err, s) => (.error err, { r with derived := s })
      | (.ok (), s) =>
        let res := pageLoop count { r with derived := s }
        (res.1.map (rowData :: ·), res.2)

def getRowsData (r : AbsResultSet σ) (maxCount position : Int) :
    Except RdbError (List (List ValueObject)) × AbsResultSet σ :=
  match cls.lastErr r.derived with
  | some err => (.error err, r)
  | none =>
    if maxCount < 0 ∨ position < initPos then (.error .invalidArgs, r)
    else if maxCount = 0 then (.ok [], r)
    else if position ≠ initPos ∧ position ≠ cls.rowPos r.derived then
      match cls.goToRow r.derived position with
      | (.error err, s) => (.error err, { r with derived := s })
      | (.ok (), s) => pageLoop cls maxCount.toNat { r with derived := s }
    else if cls.rowPos r.derived = initPos then
      match cls.goToRow r.derived 0 with
      | (.error .rowOutRange, s) => (.ok [], { r with derived := s })
      | (.error err, s) => (.error err, { r with derived := s })
      | (.ok (), s) => pageLoop cls maxCount.toNat { r with derived := s }
    else pageLoop cls maxCount.toNat r

def nextPage (r : AbsResultSet σ) (size : Nat) :
    Except RdbError (List (List ValueObject)) × AbsResultSet σ :=
  r.getRowsData cls size initPos

def RowAt (r : AbsResultSet σ) (k : Nat) (row : List ValueObject) : Prop :=
  ∃ s entity, cls.goToRow r.derived k = (.ok (), s) ∧
    ({ r with derived := s }.getRow cls).1 = .ok entity ∧
    ∀ i x, row[i]? = some x → entity.get (i : Nat) = some x

def Paged (r : AbsResultSet σ) (n columnCount : Nat) (sizes : List Nat) : Prop :=
  ∃ pages : List (List (List ValueObject)),
    (trace (nextPage cls) r sizes).map (·.ret) = pages.map .ok ∧
    List.Forall₂ (fun page size => page.length ≤ size) pages sizes ∧
    pages.flatten.length = min sizes.sum n ∧
    ∀ k row, pages.flatten[k]? = some row → row.length = columnCount ∧ RowAt cls r k row

/-! ## Cursors that serve a list of rows -/

structure Serves (names : List String) (rows : List (List ValueObject)) (At : Int → σ → Prop) :
    Prop where
  opened : At p s → cls.isClosed s = false
  noErr : At p s → cls.lastErr s = none
  named : At p s → cls.getColumnNames s = .ok names
  pos : At p s → cls.rowPos s = p
  still : At (p : Nat) s → Still cls s
  width : ∀ row ∈ rows, row.length = names.length
  get : At (p : Nat) s → rows[p]? = some row → row[i]? = some x →
    (cls.get s (i : Nat)).1 = .ok x
  past : At rows.length s → (cls.get s 0).1 = .error .rowOutRange
  go : At (-1) s → (p : Nat) < rows.length → ∃ s', cls.goToRow s p = (.ok (), s') ∧ At p s'
  empty : At (-1) s → rows = [] →
    ∃ s', cls.goToRow s 0 = (.error .rowOutRange, s') ∧ (At (-1) s' ∨ At 0 s')
  next : At (p : Nat) s → p + 1 < rows.length →
    ∃ s', cls.goToNextRow s = (.ok (), s') ∧ At (p + 1 : Nat) s'
  last : At (p : Nat) s → p + 1 = rows.length →
    ∃ s', cls.goToNextRow s = (.error .rowOutRange, s') ∧ At rows.length s'

variable {cls} {names : List String} {rows : List (List ValueObject)} {At : Int → σ → Prop}
  {r : AbsResultSet σ} {s : σ}

structure Stands (cls : ResultSetClass σ) (names : List String) (At : Int → σ → Prop) (p : Int)
    (r : AbsResultSet σ) : Prop where
  pos : At p r.derived
  named : r.HasNames cls names

theorem rowDataLoop_still (hstill : Still cls s) (index : Nat) (names : List String) :
    (rowDataLoop cls index s names).2 = s := by
  induction names generalizing index with
  | nil => rfl
  | cons name names ih =>
    have hsame := hstill index
    rw [rowDataLoop]
    generalize cls.get s index = res at hsame
    obtain ⟨ret, s'⟩ := res
    obtain rfl : s' = s := hsame
    cases ret with
    | error err => rfl
    | ok value => exact ih (index + 1)

theorem rowDataLoop_ok (hstill : Still cls s)
    (hget : ∀ i x, row[i]? = some x → (cls.get s (index + i : Nat)).1 = .ok x)
    (hwidth : names.length = row.length) : (rowDataLoop cls index s names).1 = .ok row := by
  induction names generalizing index row with
  | nil =>
    obtain rfl := length_eq_zero_iff.mp hwidth.symm
    rfl
  | cons name names ih =>
    obtain ⟨x, row, rfl⟩ := exists_cons_of_length_pos (l := row) (hwidth ▸ Nat.succ_pos _)
    have hfirst : cls.get s index = (.ok x, s) := Prod.ext (hget 0 x rfl) (hstill index)
    rw [rowDataLoop, hfirst]
    have hrest : (rowDataLoop cls (index + 1) s names).1 = .ok row :=
      ih (fun i x hx => Nat.add_right_comm index 1 i ▸ hget (i + 1) x hx) (Nat.succ.inj hwidth)
    dsimp only
    rw [hrest]
    rfl

namespace Serves
variable (h : Serves cls names rows At)
include h

theorem stands (hr : Stands cls names At p r) (hs : At p' s) :
    Stands cls names At p' { r with derived := s } := by
  obtain ⟨s, columns⟩ := r
  cases columns with
  | none => exact ⟨hs, h.opened hs, h.named hs⟩
  | some columns => exact ⟨hs, hr.named⟩

theorem getRowData_eq {p : Nat} (hr : Stands cls names At p r) : ∃ r',
    r.getRowData cls = ((rowDataLoop cls 0 r.derived names).1, r') ∧ Stands cls names At p r' := by
  obtain ⟨columns, hwhole, hknow⟩ := hr.named.knowColumns
  refine ⟨⟨r.derived, some columns⟩, ?_, hr.pos, hwhole⟩
  rw [getRowData, h.noErr hr.pos, hknow]
  dsimp only
  rw [hwhole, rowDataLoop_still (h.still hr.pos)]

theorem getRowData {p : Nat} (hr : Stands cls names At p r) (hrow : rows[p]? = some row) :
    ∃ r', r.getRowData cls = (.ok row, r') ∧ Stands cls names At p r' := by
  obtain ⟨r', heq, hr'⟩ := h.getRowData_eq hr
  refine ⟨r', ?_, hr'⟩
  rw [heq, rowDataLoop_ok (h.still hr.pos) (fun i x hx => ?_)
    (h.width row (mem_of_getElem? hrow)).symm]
  rw [Nat.zero_add]
  exact h.get hr.pos hrow hx

theorem getRowData_past (hne : names ≠ []) (hr : Stands cls names At rows.length r) :
    ∃ r', r.getRowData cls = (.error .rowOutRange, r') ∧ Stands cls names At rows.length r' := by
  obtain ⟨r', heq, hr'⟩ := h.getRowData_eq hr
  refine ⟨r', ?_, hr'⟩
  obtain ⟨name, names, rfl⟩ := exists_cons_of_ne_nil hne
  have hfirst : cls.get r.derived (0 : Nat) = (.error .rowOutRange, r.derived) :=
    Prod.ext (h.past hr.pos) (h.still hr.pos 0)
  rw [heq, rowDataLoop, hfirst]

theorem pageLoop (hne : names ≠ []) {d : Nat} (hr : Stands cls names At d r) (hd : d ≤ rows.length)
    (count : Nat) : ∃ r', AbsResultSet.pageLoop cls count r = (.ok ((rows.drop d).take count), r') ∧
      Stands cls names At (min (d + count) rows.length : Nat) r' := by
  induction count generalizing d r with
  | zero => exact ⟨r, rfl, by rwa [Nat.add_zero, Nat.min_eq_left hd]⟩
  | succ count ih =>
    rw [AbsResultSet.pageLoop]
    rcases Nat.lt_or_eq_of_le hd with hlt | rfl
    · obtain ⟨r₁, hdata, hr₁⟩ := h.getRowData hr (List.getElem?_eq_getElem hlt)
      rw [hdata, drop_eq_getElem_cons hlt, take_succ_cons]
      rcases Nat.lt_or_eq_of_le hlt with hnext | hlast
      · obtain ⟨s, hgo, hs⟩ := h.next hr₁.pos hnext
        obtain ⟨r', hloop, hr'⟩ := ih (h.stands hr₁ hs) hlt
        refine ⟨r', ?_, by rwa [Nat.add_right_comm] at hr'⟩
        dsimp only
        rw [hgo]
        dsimp only
        rw [hloop]
        rfl
      · obtain ⟨s, hgo, hs⟩ := h.last hr₁.pos hlast
        refine ⟨_, ?_, by rw [Nat.min_eq_right (by omega)]; exact h.stands hr₁ hs⟩
        dsimp only
        rw [hgo, drop_eq_nil_of_le (Nat.le_of_eq hlast.symm), take_nil]
    · obtain ⟨r', hdata, hr'⟩ := h.getRowData_past hne hr
      refine ⟨r', ?_, by rwa [Nat.min_eq_right (Nat.le_add_right _ _)]⟩
      rw [hdata, drop_length, take_nil]

end Serves

def Delivered (cls : ResultSetClass σ) (names : List String) (n : Nat) (At : Int → σ → Prop)
    (d : Nat)
    (r : AbsResultSet σ) : Prop :=
  d = 0 ∧ Stands cls names At (-1) r ∨ d ≤ n ∧ Stands cls names At d r

namespace Serves
variable (h : Serves cls names rows At)
include h

theorem nextPage (hne : names ≠ []) {d : Nat} (hr : Delivered cls names rows.length At d r)
    (size : Nat) : ∃ r', nextPage cls r size = (.ok ((rows.drop d).take size), r') ∧
      Delivered cls names rows.length At (min (d + size) rows.length) r' := by
  have hnoErr : cls.lastErr r.derived = none := hr.elim (fun hr => h.noErr hr.2.pos)
    fun hr => h.noErr hr.2.pos
  rw [AbsResultSet.nextPage, getRowsData, hnoErr]
  dsimp only
  rw [if_neg (by rw [initPos]; omega)]
  split
  next hzero =>
    obtain rfl : size = 0 := Int.ofNat_eq_zero.mp hzero
    refine ⟨r, rfl, ?_⟩
    rcases hr with ⟨rfl, hr⟩ | ⟨hd, hr⟩
    · exact .inl ⟨Nat.zero_min _, hr⟩
    · rw [Nat.add_zero, Nat.min_eq_left hd]
      exact .inr ⟨hd, hr⟩
  rw [if_neg fun hpos => hpos.1 rfl, Int.toNat_natCast]
  have hpage {d : Nat} {r : AbsResultSet σ} (hd : d ≤ rows.length) (hr : Stands cls names At d r) :
      ∃ r', AbsResultSet.pageLoop cls size r = (.ok ((rows.drop d).take size), r') ∧
        Delivered cls names rows.length At (min (d + size) rows.length) r' := by
    obtain ⟨r', hloop, hr'⟩ := h.pageLoop hne hr hd size
    exact ⟨r', hloop, .inr ⟨Nat.min_le_right _ _, hr'⟩⟩
  rcases hr with ⟨rfl, hr⟩ | ⟨hd, hr⟩
  · rw [if_pos (h.pos hr.pos)]
    by_cases hrows : rows = []
    · obtain ⟨s, hgo, hs⟩ := h.empty hr.pos hrows
      refine ⟨{ r with derived := s }, ?_, ?_⟩
      · rw [hgo, hrows, drop_nil, take_nil]
      · rw [hrows, length_nil, Nat.min_zero]
        exact hs.imp (fun hs => ⟨rfl, h.stands hr hs⟩) fun hs => ⟨Nat.le_refl _, h.stands hr hs⟩
    · have hpos := length_pos_iff.mpr hrows
      obtain ⟨s, hgo, hs⟩ := h.go hr.pos hpos
      rw [show cls.goToRow r.derived 0 = (.ok (), s) from hgo]
      exact hpage (Nat.zero_le _) (h.stands hr hs)
  · rw [if_neg (by rw [h.pos hr.pos, initPos]; omega)]
    exact hpage hd hr

theorem trace_nextPage (hne : names ≠ []) (hr : Delivered cls names rows.length At d r)
    (sizes : List Nat) : (trace (AbsResultSet.nextPage cls) r sizes).map (·.ret) =
      (sizes.splitLengths (rows.drop d)).map .ok := by
  induction sizes generalizing d r with
  | nil => rfl
  | cons size sizes ih =>
    obtain ⟨r', hpage, hr'⟩ := h.nextPage hne hr size
    have hdrop : rows.drop (min (d + size) rows.length) = (rows.drop d).drop size := by
      rw [drop_drop]
      rcases Nat.le_total (d + size) rows.length with hle | hle
      · rw [Nat.min_eq_left hle]
      · rw [Nat.min_eq_right hle, drop_length, drop_eq_nil_of_le hle]
    rw [trace, map_cons, splitLengths_cons, map_cons, transition]
    dsimp only
    rw [hpage, ← hdrop]
    exact congrArg _ (ih hr')

end Serves

/-! ## Paging and `GetRow` -/

theorem flatten_splitLengths_eq (sizes : List Nat) (l : List α) :
    (sizes.splitLengths l).flatten = l.take sizes.sum := by
  induction sizes generalizing l with
  | nil => rfl
  | cons size sizes ih =>
    rw [splitLengths_cons, flatten_cons, ih, sum_cons, take_add]

theorem splitLengths_le (sizes : List Nat) (l : List α) :
    List.Forall₂ (fun page size => page.length ≤ size) (sizes.splitLengths l) sizes := by
  induction sizes generalizing l with
  | nil => exact .nil
  | cons size sizes ih =>
    rw [splitLengths_cons]
    exact .cons (length_take_le _ _) (ih _)

theorem Serves.rowAt (h : Serves cls names rows At) (hr : Stands cls names At (-1) r)
    (hnodup : names.Nodup) (hrow : rows[k]? = some row) : RowAt cls r k row := by
  obtain ⟨s, hgo, hs⟩ := h.go hr.pos (List.getElem?_eq_some_iff.mp hrow).1
  have hstands := h.stands hr hs
  have hwidth := h.width row (mem_of_getElem? hrow)
  have hmem := nodup_iff_mem_columnMapOf.mp hnodup
  have hvalue {i : Nat} {x : ValueObject} (hx : row[i]? = some x) : valueAt cls s i = x := by
    rw [valueAt, h.get hs hrow hx]
  refine ⟨s, _, hgo, (hstands.named.getRow_ok_iff (h.still hs)).mpr ⟨fun p hp => ?_, rfl⟩,
    fun i x hx => ?_⟩
  · have hx := List.getElem?_eq_getElem (l := row) (hwidth ▸ lt_of_mem_columnMapOf hp)
    rw [hvalue hx]
    exact h.get hs hrow hx
  · have hi := hwidth ▸ (List.getElem?_eq_some_iff.mp hx).1
    have hname := List.getElem?_eq_getElem hi
    rw [RowEntity.get_ofNames hname, if_pos (hmem i _ hname)]
    exact congrArg some (hvalue hx)

theorem Serves.paged (h : Serves cls names rows At) (hr : Stands cls names At (-1) r)
    (hne : names ≠ []) (hnodup : rows = [] ∨ names.Nodup) (sizes : List Nat) :
    Paged cls r rows.length names.length sizes := by
  refine ⟨sizes.splitLengths rows, h.trace_nextPage hne (.inl ⟨rfl, hr⟩) sizes, splitLengths_le _ _,
    ?_, fun k row hrow => ?_⟩
  · rw [flatten_splitLengths_eq, length_take]
  · rw [flatten_splitLengths_eq, getElem?_take] at hrow
    split at hrow
    · have hmem := mem_of_getElem? hrow
      have hnodup := hnodup.resolve_left (ne_nil_of_mem hmem)
      exact ⟨h.width row hmem, h.rowAt hr hnodup hrow⟩
    · exact nomatch hrow

theorem RowAt.nodup (h : RowAt cls r k row) (hwidth : row.length = names.length)
    (hs : ∀ s, cls.goToRow r.derived k = (.ok (), s) →
      HasNames cls { r with derived := s } names ∧ Still cls s) :
    names.Nodup ∧ ∃ s, cls.goToRow r.derived k = (.ok (), s) ∧
      ∀ i < names.length, ∃ x, (cls.get s (i : Nat)).1 = .ok x := by
  obtain ⟨s, entity, hgo, hrow, hget⟩ := h
  obtain ⟨hnames, hstill⟩ := hs s hgo
  obtain ⟨hok, rfl⟩ := (hnames.getRow_ok_iff hstill).mp hrow
  have hmem : ∀ i name, names[i]? = some name → (name, i) ∈ (columnMapOf names).entries := by
    intro i name hname
    have hi := (List.getElem?_eq_some_iff.mp hname).1
    have hvalue := hget i _ (List.getElem?_eq_getElem (hwidth.symm ▸ hi))
    rw [RowEntity.get_ofNames hname] at hvalue
    by_contra hnot
    rw [if_neg hnot] at hvalue
    exact nomatch hvalue
  refine ⟨nodup_iff_mem_columnMapOf.mpr hmem, s, hgo, fun i hi => ?_⟩
  exact ⟨_, hok _ (hmem i _ (List.getElem?_eq_getElem hi))⟩

theorem Paged.rowAt (h : Paged cls r n columnCount [n]) (hk : k < n) :
    ∃ row, row.length = columnCount ∧ RowAt cls r k row := by
  obtain ⟨pages, _, _, hlen, hrows⟩ := h
  rw [sum_singleton, Nat.min_self] at hlen
  exact ⟨_, hrows k _ (List.getElem?_eq_getElem (hlen.symm ▸ hk))⟩

theorem nodup_and_reads_of_paged (hpaged : ∀ sizes, Paged cls r n names.length sizes)
    (hs : ∀ k < n, ∀ s, cls.goToRow r.derived (k : Nat) = (.ok (), s) →
      HasNames cls { r with derived := s } names ∧ Still cls s) :
    n = 0 ∨ names.Nodup ∧ ∀ k < n, ∃ s, cls.goToRow r.derived (k : Nat) = (.ok (), s) ∧
      ∀ i < names.length, ∃ x, (cls.get s (i : Nat)).1 = .ok x := by
  have hreach : ∀ k < n, names.Nodup ∧ ∃ s, cls.goToRow r.derived (k : Nat) = (.ok (), s) ∧
      ∀ i < names.length, ∃ x, (cls.get s (i : Nat)).1 = .ok x := by
    intro k hk
    obtain ⟨row, hwidth, hrow⟩ := (hpaged [n]).rowAt hk
    exact hrow.nodup hwidth (hs k hk)
  rcases Nat.eq_zero_or_pos n with rfl | hpos
  · exact .inl rfl
  · exact .inr ⟨(hreach 0 hpos).1, fun k hk => (hreach k hk).2⟩

end AbsResultSet

open AbsResultSet

/-! ## Step result sets -/

def SqliteValue.Fetchable (decl : Option String) : SqliteValue → Prop
  | blob _ => decl ≠ none
  | _ => True

/-- `GetColumn` refuses no column of the row. -/
def Query.RowFetchable (q : Query) (p : Nat) : Prop :=
  ∀ cells ∈ q.rows[p]?, ∀ i : Nat, ∀ decl ∈ q.decls[i]?, ∀ v ∈ cells[i]?, v.Fetchable decl

theorem Stmt.columnOf_ok_iff : (∃ x, columnOf decl v = .ok x) ↔ v.Fetchable decl := by
  cases v with
  | blob bytes => cases decl <;> cases bytes <;> simp [columnOf, SqliteValue.Fetchable]
  | _ => simp [columnOf, SqliteValue.Fetchable]

def SqliteValue.fetched (decl : Option String) (v : SqliteValue) : ValueObject :=
  match Stmt.columnOf decl v with
  | .ok value => value
  | .error _ => .null

theorem SqliteValue.Fetchable.columnOf_eq (h : v.Fetchable decl) :
    Stmt.columnOf decl v = .ok (v.fetched decl) := by
  obtain ⟨x, hx⟩ := Stmt.columnOf_ok_iff.mpr h
  rw [fetched, hx]

def Query.rowsBy (q : Query) (value : Option String → SqliteValue → ValueObject) :
    List (List ValueObject) :=
  q.rows.map (List.zipWith value q.decls)

section
variable {q : Query} {value : Option String → SqliteValue → ValueObject} {row : List ValueObject}

theorem Query.length_rowsBy : (q.rowsBy value).length = q.rows.length := length_map ..

theorem Query.width_rowsBy (h : row ∈ q.rowsBy value) : row.length = q.decls.length := by
  obtain ⟨cells, hcells, rfl⟩ := mem_map.mp h
  rw [length_zipWith, q.width cells hcells, Nat.min_self]

theorem Query.cell_rowsBy {p i : Nat} (hrow : (q.rowsBy value)[p]? = some row)
    (hx : row[i]? = some x) :
    ∃ decl cells v, q.decls[i]? = some decl ∧ q.rows[p]? = some cells ∧ cells[i]? = some v ∧
      x = value decl v := by
  rw [rowsBy, getElem?_map, Option.map_eq_some_iff] at hrow
  obtain ⟨cells, hcells, rfl⟩ := hrow
  rw [getElem?_zipWith_eq_some] at hx
  obtain ⟨decl, v, hdecl, hv, hx⟩ := hx
  exact ⟨decl, cells, v, hdecl, hcells, hv, hx.symm⟩

end

namespace StepResultSet
variable {q : NamedQuery} {s : StepResultSet}

theorem Coherent.get_past {q : Query} (h : s.Coherent q) (hpos : s.rowPos = q.rows.length)
    (column : Int) : s.get column = .error .rowOutRange := by
  obtain ⟨_, hcount, _⟩ := h.synced_or_past.resolve_left fun hsync => by omega
  rw [get, if_neg (by rw [h.ready.opened]; nofun), if_pos]
  refine .inr ⟨h.counted_iff.mpr hcount, ?_⟩
  rw [endedCounted, h.absGetRowCount_eq hcount]
  exact decide_eq_true (.inr hpos)

theorem Coherent.get_cell {q : Query} (h : s.Coherent q) {p i : Nat} (hpos : s.rowPos = p)
    (hdecl : q.decls[i]? = some decl) (hcells : q.rows[p]? = some cells) (hv : cells[i]? = some v) :
    s.get i = Stmt.columnOf decl v := by
  have hp := (List.getElem?_eq_some_iff.mp hcells).1
  have hon := h.onRow hpos hp
  have hq := h.query
  subst hq
  obtain ⟨decl', v', hdecl', ⟨cells', hcells', hv'⟩, hget, _⟩ :=
    s.stmt.getColumn_eq hon.row hp (List.getElem?_eq_some_iff.mp hdecl).1
  cases hdecl.symm.trans hdecl'
  cases hcells.symm.trans hcells'
  cases hv.symm.trans hv'
  exact (h.get_eq hon).trans hget

def At (q : NamedQuery) (p : Int) (s : StepResultSet) : Prop :=
  s.Coherent q.toQuery ∧ s.rowPos = p

theorem At.hasNames (h : At q p s) : HasNames (cls q.names) ⟨s, none⟩ q.names := by
  refine ⟨h.1.ready.opened, ?_⟩
  change (match s.lastErr with | some err => _ | none => _) = _
  rw [h.1.ready.noErr]
  exact if_neg (by rw [h.1.ready.opened]; nofun)

theorem At.lands (h : At q (-1) s) (position : Nat) :
    Lands q.toQuery s position (s.goToRow position) := by
  refine h.1.goToRow fun _ hpos => ?_
  have hbefore := h.2
  omega

theorem serves (q : NamedQuery) (hfetch : ∀ p < q.rows.length, q.RowFetchable p) :
    Serves (cls q.names) q.names (q.rowsBy SqliteValue.fetched) (At q) where
  opened h := h.1.ready.opened
  noErr h := h.1.ready.noErr
  named h := h.hasNames.2
  pos h := h.2
  still _ _ := rfl
  width row hrow := (width_rowsBy hrow).trans q.names_length.symm
  get {p s row i x} h hrow hx := by
    obtain ⟨decl, cells, v, hdecl, hcells, hv, rfl⟩ := cell_rowsBy hrow hx
    have hp := (List.getElem?_eq_some_iff.mp hcells).1
    exact (h.1.get_cell h.2 hdecl hcells hv).trans
      (hfetch p hp cells hcells i decl hdecl v hv).columnOf_eq
  past {s} h := h.1.get_past (h.2.trans (by rw [length_rowsBy])) 0
  go {s p} h hp := by
    rw [length_rowsBy] at hp
    have hlands := h.lands p
    obtain ⟨hret, hpos⟩ := hlands.reached (by omega) (by omega)
    exact ⟨_, Prod.ext hret rfl, hlands.coherent, hpos⟩
  empty {s} h hrows := by
    have hn : q.rows.length = 0 := length_rowsBy.symm.trans (congrArg List.length hrows)
    have hlands := h.lands 0
    obtain ⟨hret, _, hpos⟩ := hlands.refused (by omega)
    refine ⟨_, Prod.ext hret rfl, hpos.imp (fun hpos => ⟨hlands.coherent, hpos.trans h.2⟩)
      fun hpos => ⟨hlands.coherent, hpos.trans (by rw [hn]; rfl)⟩⟩
  next {p s} h hp := by
    rw [length_rowsBy] at hp
    have hp' := h.2
    have hlands := h.1.goToNextRow fun hpos => by omega
    obtain ⟨hret, hpos⟩ := hlands.reached (by omega) (by omega)
    exact ⟨_, Prod.ext hret rfl, hlands.coherent, hpos.trans (by omega)⟩
  last {p s} h hp := by
    rw [length_rowsBy] at hp ⊢
    have hp' := h.2
    have hlands := h.1.goToNextRow fun hpos => by omega
    obtain ⟨hret, hpast, _⟩ := hlands.refused (by omega)
    exact ⟨_, Prod.ext hret rfl, hlands.coherent, (hpast (by omega)).resolve_left (by omega)⟩

theorem at_create (q : NamedQuery) (preCount isGotoNextRowReturnLastError : Bool) :
    At q (-1) (create ⟨q.toQuery, 0, none, []⟩ preCount isGotoNextRowReturnLastError) := by
  refine ⟨(create_inv q.toQuery _ _).coherent, ?_⟩
  cases preCount with
  | true =>
    rw [create, if_pos rfl, Stmt.count_faultless rfl rfl]
  | false => rfl

theorem paged_iff (q : NamedQuery) (preCount isGotoNextRowReturnLastError : Bool) :
    (∀ sizes, Paged (cls q.names)
      ⟨create ⟨q.toQuery, 0, none, []⟩ preCount isGotoNextRowReturnLastError, none⟩ q.rows.length
      q.names.length sizes) ↔
      q.rows = [] ∨ q.names.Nodup ∧ ∀ p < q.rows.length, q.RowFetchable p := by
  have hat := at_create q preCount isGotoNextRowReturnLastError
  generalize create ⟨q.toQuery, 0, none, []⟩ preCount isGotoNextRowReturnLastError = s at hat
  have hgo {k : Nat} (hk : k < q.rows.length) {s' : StepResultSet}
      (hgo : s.goToRow k = (.ok (), s')) : At q k s' := by
    have hlands := hat.lands k
    rw [hgo] at hlands
    exact ⟨hlands.coherent, (hlands.reached (by omega) (by omega)).2⟩
  constructor
  · intro hpaged
    refine (nodup_and_reads_of_paged hpaged fun k hk s' hs' =>
      ⟨(hgo hk hs').hasNames, fun _ => rfl⟩).imp length_eq_zero_iff.mp
      (And.imp_right fun hreads p hp cells hcells i decl hdecl v hv => ?_)
    obtain ⟨s', hs', hget⟩ := hreads p hp
    obtain ⟨x, hx⟩ := hget i (q.names_length.symm ▸ (List.getElem?_eq_some_iff.mp hdecl).1)
    have hat' := hgo hp hs'
    exact Stmt.columnOf_ok_iff.mp ⟨x, (hat'.1.get_cell hat'.2 hdecl hcells hv).symm.trans hx⟩
  · intro hcond sizes
    have hfetch : ∀ p < q.rows.length, q.RowFetchable p := hcond.elim
      (fun hrows p hp => by rw [hrows] at hp; exact absurd hp (Nat.not_lt_zero p)) And.right
    have hpaged := (serves q hfetch).paged ⟨hat, hat.hasNames⟩ q.names_ne
      (hcond.imp (fun hrows => by rw [rowsBy, hrows, map_nil]) And.left) sizes
    rwa [length_rowsBy] at hpaged

end StepResultSet

/-! ## Shared result sets -/

namespace SqliteSharedResultSet
variable {q : NamedQuery} {memcpyS : Nat → Bool} {s : SqliteSharedResultSet}

structure At (q : NamedQuery) (p : Int) (s : SqliteSharedResultSet) : Prop where
  inv : s.Inv q.toQuery
  granted : s.Granted
  pos : s.rowPos = p
  block : 0 ≤ p → s.sharedBlock ≠ none

theorem At.hasNames (h : At q p s) (memcpyS : Nat → Bool) :
    HasNames (cls memcpyS q.names) ⟨s, none⟩ q.names :=
  ⟨h.inv.opened, if_neg (by rw [h.inv.opened]; nofun)⟩

theorem At.still {p : Nat} (h : At q p s) : Still (cls memcpyS q.names) s := by
  intro i
  obtain ⟨b, hb⟩ := Option.ne_none_iff_exists'.mp (h.block (Int.natCast_nonneg p))
  exact (get_snd s i).trans (getBlock_of_some hb)

theorem At.onRow {p : Nat} (h : At q p s) (hp : p < q.rows.length) : s.OnRow q.toQuery p := by
  have hpos := h.pos
  rcases h.inv.place with hplace | hplace | ⟨p', hplace, hrow⟩
  · omega
  · omega
  · obtain rfl : p = p' := by omega
    exact hrow

theorem At.get_past (h : At q q.rows.length s) (col : Int) :
    (s.get col).1 = .error .rowOutRange := by
  obtain ⟨b, hb⟩ := Option.ne_none_iff_exists'.mp (h.block (Int.natCast_nonneg _))
  have hcheck : s.checkState col = .error .rowOutRange := by
    rw [checkState, if_neg (by rw [h.inv.opened]; nofun), if_neg (by rw [hb]; nofun), if_pos]
    exact .inr (by rw [h.pos, h.inv.count])
  rw [get, getBlock_of_some hb, hcheck]

theorem Inv.goToRow_empty {q : Query} (h : s.Inv q) (hrows : q.rows = []) :
    s.goToRow memcpyS 0 = (.error .rowOutRange, s) := by
  rw [SqliteSharedResultSet.goToRow, if_neg (by rw [h.opened]; nofun), h.toReady.getRowCount_eq,
    hrows]
  exact if_pos (.inl (Int.le_refl _))

/-- The rows are copied to a block, each alone if need be. -/
def Fit (memcpyS : Nat → Bool) (q : Query) : Prop :=
  q.decls.length ≤ SharedBlock.colMaxNum ∧
    ∀ row ∈ q.rows, FitsAlone memcpyS DEFAULT_BLOCK_SIZE row

theorem serves (q : NamedQuery) (hfit : q.rows = [] ∨ Fit memcpyS q.toQuery) :
    Serves (cls memcpyS q.names) q.names (q.rowsBy SqliteValue.shown) (At q) := by
  have hlands {s : SqliteSharedResultSet} {p : Int} (h : At q p s) (position : Int) :
      Lands q.toQuery s position (s.goToRow memcpyS position) := by
    refine h.inv.goToRow (hfit.elim (fun hrows hnonneg hlt => ?_) fun hfit => ?_)
    · rw [h.inv.count, hrows, length_nil] at hlt
      omega
    · exact h.granted.refillSucceeds h.inv.toReady hfit.1 hfit.2 position
  have hreach {s : SqliteSharedResultSet} {p : Int} (h : At q p s) {k : Nat}
      (hk : k < q.rows.length) : ∃ s', s.goToRow memcpyS k = (.ok (), s') ∧ At q k s' := by
    have hland := hlands h k
    have hret := hland.reached (by omega) (by omega) (h.granted.getBlock_ne h.inv.opened)
    obtain ⟨_, _, hpos, b, hb, _⟩ := hland.onRow hret
    exact ⟨_, Prod.ext hret rfl, hland.inv, h.granted.goToRow memcpyS k, hpos,
      fun _ hnone => nomatch hb.symm.trans hnone⟩
  have hrows := q.rows_lt
  have hnext {s : SqliteSharedResultSet} {p : Nat} (h : At q p s) (hp : p < q.rows.length) :
      toInt32 (s.rowPos + 1) = (p + 1 : Nat) := by
    rw [h.pos, toInt32_of_lt (by omega) (by omega)]
    rfl
  exact
    { opened := fun h => h.inv.opened
      noErr := fun h => h.inv.noErr
      named := fun h => (h.hasNames memcpyS).2
      pos := fun h => h.pos
      still := fun h => h.still
      width := fun row hrow => (width_rowsBy hrow).trans q.names_length.symm
      get := fun {p s row i x} h hrow hx => by
        obtain ⟨decl, cells, v, hdecl, hcells, hv, rfl⟩ := cell_rowsBy hrow hx
        have hp := (List.getElem?_eq_some_iff.mp hcells).1
        exact h.inv.toReady.get_eq (h.onRow hp) h.pos hp hdecl hcells hv
      past := fun {s} h => At.get_past (by rwa [length_rowsBy] at h) 0
      go := fun {s p} h hp => hreach h (length_rowsBy ▸ hp)
      empty := fun {s} h hrows => by
        exact ⟨s, h.inv.goToRow_empty (map_eq_nil_iff.mp hrows), .inl h⟩
      next := fun {p s} h hp => by
        rw [length_rowsBy] at hp
        obtain ⟨s', hgo, hs'⟩ := hreach h hp
        refine ⟨s', ?_, hs'⟩
        change s.goToRow memcpyS (toInt32 (s.rowPos + 1)) = _
        rw [hnext h (Nat.lt_of_succ_lt hp)]
        exact hgo
      last := fun {p s} h hp => by
        rw [length_rowsBy] at hp ⊢
        have hne : q.rows ≠ [] := ne_nil_of_length_pos (by omega)
        have hland := hlands h (q.rows.length : Nat)
        have hpast := hland.past (Int.le_refl _) hne
        refine ⟨{ s with rowPos := q.rows.length }, ?_, ?_⟩
        · change s.goToRow memcpyS (toInt32 (s.rowPos + 1)) = _
          rw [hnext h (by omega), hp]
          exact hpast
        · have hinv := hland.inv
          rw [hpast] at hinv
          exact ⟨hinv, ⟨h.granted.faults, h.granted.ashmem, h.granted.enough, h.granted.sized⟩, rfl,
            fun _ => h.block (Int.natCast_nonneg p)⟩ }

theorem at_create (q : NamedQuery) (isOnlyFillBlock : Bool) :
    let s := create ⟨q.toQuery, 0, none, []⟩ true isOnlyFillBlock
    At q (-1) s ∧ s.sharedBlock = none ∧ s.blockCapacity = 0 := by
  intro s
  have hs : s = ⟨⟨q.toQuery, 0, none, []⟩, none, false, true, initPos, q.rows.length,
      isOnlyFillBlock, 0, false, none⟩ := by
    change create _ _ _ = _
    rw [create, Stmt.count_faultless rfl rfl]
    rfl
  rw [hs]
  have hinv : Inv q.toQuery ⟨⟨q.toQuery, 0, none, []⟩, none, false, true, initPos, q.rows.length,
      isOnlyFillBlock, 0, false, none⟩ := ⟨⟨rfl, rfl, rfl, rfl, rfl, nofun⟩, .inl rfl⟩
  exact ⟨⟨hinv, ⟨rfl, rfl, rfl, nofun⟩, rfl, nofun⟩, rfl, rfl⟩

theorem paged_iff (memcpyS : Nat → Bool) (q : NamedQuery) (isOnlyFillBlock : Bool) :
    (∀ sizes, Paged (cls memcpyS q.names)
      ⟨create ⟨q.toQuery, 0, none, []⟩ true isOnlyFillBlock, none⟩ q.rows.length q.names.length
      sizes) ↔
      q.rows = [] ∨ q.names.Nodup ∧ Fit memcpyS q.toQuery := by
  obtain ⟨hat, hnone, hcapacity⟩ := at_create q isOnlyFillBlock
  generalize create ⟨q.toQuery, 0, none, []⟩ true isOnlyFillBlock = s at hat hnone hcapacity
  have hgo {k : Nat} (hk : k < q.rows.length) {s' : SqliteSharedResultSet}
      (hgo : s.goToRow memcpyS k = (.ok (), s')) : At q k s' := by
    have hret := congrArg Prod.fst hgo
    have hland := hat.inv.goToRow (refillSucceeds_of_goToRow hat.inv.opened hat.inv.noErr hret)
    have hgranted := hat.granted.goToRow memcpyS k
    rw [hgo] at hland hgranted
    obtain ⟨_, _, hpos, b, hb, _⟩ := hland.onRow rfl
    exact ⟨hland.inv, hgranted, hpos, fun _ hnone => nomatch hb.symm.trans hnone⟩
  constructor
  · intro hpaged
    refine (nodup_and_reads_of_paged hpaged fun k hk s' hs' =>
      ⟨(hgo hk hs').hasNames memcpyS, (hgo hk hs').still⟩).elim (fun hzero => ?_) fun hreads => ?_
    · exact .inl (length_eq_zero_iff.mp hzero)
    have hfits {k : Nat} {row : List SqliteValue} (hrow : q.rows[k]? = some row) :
        q.decls.length ≤ SharedBlock.colMaxNum ∧ FitsAlone memcpyS DEFAULT_BLOCK_SIZE row := by
      obtain ⟨s', hs', _⟩ := hreads.2 k (List.getElem?_eq_some_iff.mp hrow).1
      exact hat.granted.fitsAlone_of_goToRow hat.inv.toReady hnone hcapacity hat.pos hrow
        (congrArg Prod.fst hs')
    by_cases hrows : q.rows = []
    · exact .inl hrows
    · have hfirst := List.getElem?_eq_getElem (length_pos_iff.mpr hrows)
      refine .inr ⟨hreads.1, (hfits hfirst).1, fun row hrow => ?_⟩
      obtain ⟨k, hk⟩ := mem_iff_getElem?.mp hrow
      exact (hfits hk).2
  · intro hcond sizes
    have hpaged := (serves q (hcond.imp_right And.right)).paged ⟨hat, hat.hasNames memcpyS⟩
      q.names_ne
      (hcond.imp (fun hrows => by rw [rowsBy, hrows, map_nil]) And.left) sizes
    rwa [length_rowsBy] at hpaged

end SqliteSharedResultSet

theorem rows_paged_iff (memcpyS : Nat → Bool) (q : NamedQuery)
    (preCount isGotoNextRowReturnLastError isOnlyFillBlock : Bool) :
    ((∀ sizes, Paged (StepResultSet.cls q.names)
        ⟨.create ⟨q.toQuery, 0, none, []⟩ preCount isGotoNextRowReturnLastError, none⟩ q.rows.length
        q.names.length sizes) ↔
      q.rows = [] ∨ q.names.Nodup ∧ ∀ p < q.rows.length, q.RowFetchable p) ∧
    ((∀ sizes, Paged (SqliteSharedResultSet.cls memcpyS q.names)
        ⟨.create ⟨q.toQuery, 0, none, []⟩ true isOnlyFillBlock, none⟩ q.rows.length q.names.length
        sizes) ↔
      q.rows = [] ∨ q.names.Nodup ∧ SqliteSharedResultSet.Fit memcpyS q.toQuery) :=
  ⟨StepResultSet.paged_iff q _ _, SqliteSharedResultSet.paged_iff memcpyS q _⟩

theorem not_paged_repeated :
    (let q : NamedQuery := ⟨⟨[some "INTEGER", some "INTEGER"], [[.integer 1, .integer 2]],
      by decide, by decide, by decide⟩, ["id", "id"], rfl, by decide⟩
    let cls := StepResultSet.cls q.names
    let r : AbsResultSet StepResultSet := ⟨.create ⟨q.toQuery, 0, none, []⟩ true false, none⟩
    (¬ ∀ sizes, Paged cls r q.rows.length q.names.length sizes) ∧
      (r.nextPage cls 1).1 = .ok [[.integer 1, .integer 2]] ∧
      (AbsResultSet.getRow cls ⟨(r.derived.goToRow 0).2, none⟩).1.map (·.get 1) = .ok none) ∧
    let q : NamedQuery := ⟨⟨[none], [[.integer 1], [.blob [7]]], by decide, by decide, by decide⟩,
      ["v"], rfl, by decide⟩
    let cls := StepResultSet.cls q.names
    let r : AbsResultSet StepResultSet := ⟨.create ⟨q.toQuery, 0, none, []⟩ true false, none⟩
    (r.nextPage cls 2).1 = .error .error ∧ (r.nextPage cls 2).2.derived.rowPos = 1 ∧
      ((r.nextPage cls 2).2.nextPage cls 2).1 = .error .error := by
  refine ⟨⟨fun h => ?_, by decide +kernel, by decide +kernel⟩, by decide +kernel, by decide +kernel,
    by decide +kernel⟩
  rcases (StepResultSet.paged_iff _ true false).mp h with hrows | ⟨hnodup, _⟩
  · exact nomatch hrows
  · exact absurd hnodup (by decide)

end RelationalStore
