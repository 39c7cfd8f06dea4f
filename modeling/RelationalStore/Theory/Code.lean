import Mathlib.Data.Nat.Digits.Defs

/-! Self-delimiting codes.

A code turns values into lists of symbols so that a value can be read back from the front of a
longer list. -/

namespace RelationalStore

open List

structure Code (β α : Type _) where
  encode : α → List β
  decode : List β → Option (α × List β)
  decode_encode : ∀ a rest, decode (encode a ++ rest) = some (a, rest)
  decode_append : ∀ l a rest more, decode l = some (a, rest) →
    decode (l ++ more) = some (a, rest ++ more)

namespace Code
variable {β α γ : Type _}

variable (c : Code β α)

theorem decode_ne_of_truncated (h : text <+: c.encode a) (hne : text ≠ c.encode a) (b : α) :
    c.decode text ≠ some (b, []) := by
  intro hdecode
  obtain ⟨more, hmore⟩ := h
  have hwhole := c.decode_append text b [] more hdecode
  have hencode := c.decode_encode a []
  rw [hmore] at hwhole
  rw [append_nil, hwhole] at hencode
  obtain rfl : more = [] := congrArg Prod.snd (Option.some.inj hencode)
  exact hne (by rwa [append_nil] at hmore)

def strip [DecidableEq β] : List β → List β → Option (List β)
  | [], l => some l
  | _ :: _, [] => none
  | b :: front, b' :: l => if b = b' then strip front l else none

theorem strip_append [DecidableEq β] (front l : List β) : strip front (front ++ l) = some l := by
  induction front with
  | nil => rfl
  | cons b front ih => exact (if_pos rfl).trans ih

variable (more : List β)

theorem strip_append_of_eq_some [DecidableEq β] (h : strip front l = some rest) :
    strip front (l ++ more) = some (rest ++ more) := by
  induction front generalizing l with
  | nil => exact congrArg (fun l => some (l ++ more)) (Option.some.inj h)
  | cons b front ih =>
    cases l with
    | nil => exact nomatch h
    | cons b' l =>
      rw [strip] at h
      split at h
      next hb => exact (if_pos hb).trans (ih h)
      · exact nomatch h

def after [DecidableEq β] (front : List β) (c : Code β α) : Code β α where
  encode a := front ++ c.encode a
  decode l := (strip front l).bind c.decode
  decode_encode a rest := by
    rw [append_assoc, strip_append]
    exact c.decode_encode a rest
  decode_append l a rest more h := by
    obtain ⟨l', hstrip, hdecode⟩ := Option.bind_eq_some_iff.mp h
    rw [strip_append_of_eq_some more hstrip]
    exact c.decode_append l' a rest more hdecode

def seq (d : Code β γ) : Code β (α × γ) where
  encode p := c.encode p.1 ++ d.encode p.2
  decode l := (c.decode l).bind fun p => (d.decode p.2).map fun q => ((p.1, q.1), q.2)
  decode_encode p rest := by
    rw [append_assoc, c.decode_encode, Option.bind_some, d.decode_encode]
    rfl
  decode_append l a rest more h := by
    obtain ⟨p, hp, h⟩ := Option.bind_eq_some_iff.mp h
    obtain ⟨q, hq, h⟩ := Option.map_eq_some_iff.mp h
    obtain ⟨rfl, rfl⟩ := Prod.mk.inj h
    rw [c.decode_append l p.1 p.2 more hp, Option.bind_some, d.decode_append p.2 q.1 q.2 more hq]
    rfl

def via (toCode : γ → α) (ofCode : α → Option γ)
    (h : ∀ x, ofCode (toCode x) = some x) : Code β γ where
  encode x := c.encode (toCode x)
  decode l := (c.decode l).bind fun p => (ofCode p.1).map fun x => (x, p.2)
  decode_encode x rest := by
    rw [c.decode_encode, Option.bind_some, h]
    rfl
  decode_append l x rest more hdecode := by
    obtain ⟨p, hp, hdecode⟩ := Option.bind_eq_some_iff.mp hdecode
    obtain ⟨y, hy, heq⟩ := Option.map_eq_some_iff.mp hdecode
    obtain ⟨rfl, rfl⟩ := Prod.mk.inj heq
    rw [c.decode_append l p.1 p.2 more hp, Option.bind_some, hy]
    rfl

/-! ## Texts -/

def unescape [DecidableEq β] (close escape : β) : Bool → List β → Option (List β × List β)
  | _, [] => none
  | true, b :: l => (unescape close escape false l).map fun p => (b :: p.1, p.2)
  | false, b :: l =>
    if b = close then some ([], l)
    else if b = escape then unescape close escape true l
    else (unescape close escape false l).map fun p => (b :: p.1, p.2)

variable (close : β)

def escaped [DecidableEq β] (escape : β) (text : List β) : List β :=
  text.flatMap fun b => if b = close ∨ b = escape then [escape, b] else [b]

theorem unescape_escaped [DecidableEq β] {close escape : β} (hne : escape ≠ close)
    (text rest : List β) :
    unescape close escape false (escaped close escape text ++ close :: rest) =
      some (text, rest) := by
  induction text with
  | nil => simp [escaped, unescape]
  | cons b text ih =>
    rw [escaped, flatMap_cons, append_assoc, ← escaped]
    by_cases hb : b = close ∨ b = escape
    · simp [hb, unescape, hne, ih]
    · obtain ⟨hclose, hescape⟩ := not_or.mp hb
      simp [hclose, hescape, unescape, ih]

theorem unescape_append [DecidableEq β] {close escape : β}
    (h : unescape close escape flag l = some (text, rest)) :
    unescape close escape flag (l ++ more) = some (text, rest ++ more) := by
  have hmap {b : β} {l text : List β} (ih : ∀ text, unescape close escape false l =
        some (text, rest) → unescape close escape false (l ++ more) = some (text, rest ++ more))
      (h : (unescape close escape false l).map (fun p => (b :: p.1, p.2)) = some (text, rest)) :
      (unescape close escape false (l ++ more)).map (fun p => (b :: p.1, p.2)) =
        some (text, rest ++ more) := by
    obtain ⟨p, hp, heq⟩ := Option.map_eq_some_iff.mp h
    obtain ⟨rfl, rfl⟩ := Prod.mk.inj heq
    rw [ih p.1 hp, Option.map_some]
  induction l generalizing flag text with
  | nil => exact nomatch h
  | cons b l ih =>
    cases flag with
    | true => exact hmap (fun _ => ih) h
    | false =>
      rw [unescape] at h
      rw [cons_append, unescape]
      split
      next hclose =>
        rw [if_pos hclose] at h
        cases h
        rfl
      next hclose =>
        rw [if_neg hclose] at h
        split
        next hescape =>
          rw [if_pos hescape] at h
          exact ih h
        next hescape =>
          rw [if_neg hescape] at h
          exact hmap (fun _ => ih) h

def quoted [DecidableEq β] (escape : β) (hne : escape ≠ close) : Code β (List β) where
  encode text := escaped close escape text ++ [close]
  decode := unescape close escape false
  decode_encode text rest := by
    rw [append_assoc]
    exact unescape_escaped hne text rest
  decode_append _ _ _ more h := unescape_append more h

/-! ## Numbers -/

def readDigits [DecidableEq β] (close : β) (digit : Fin 10 → β) (n : Nat) :
    List β → Option (Nat × List β)
  | [] => none
  | b :: l =>
    if b = close then some (n, l)
    else
      match (List.finRange 10).find? (digit · = b) with
      | none => none
      | some d => readDigits close digit (10 * n + d) l

def decimalDigits (n : Nat) : List (Fin 10) :=
  if n = 0 then [0] else ((Nat.digits 10 n).map (Fin.ofNat 10)).reverse

theorem foldl_decimalDigits (n : Nat) :
    (decimalDigits n).foldl (fun m d => 10 * m + d.val) 0 = n := by
  unfold decimalDigits
  split
  next hzero => simp [hzero]
  · have hval : ((Nat.digits 10 n).map (Fin.ofNat 10)).map Fin.val = Nat.digits 10 n := by
      rw [map_map]
      refine (map_congr_left fun d hd => ?_).trans (map_id _)
      exact Nat.mod_eq_of_lt (Nat.digits_lt_base (by decide) hd)
    rw [foldl_reverse]
    calc
      _ = (((Nat.digits 10 n).map (Fin.ofNat 10)).map Fin.val).foldr (fun d m => d + 10 * m) 0 := by
        rw [foldr_map (l := (Nat.digits 10 n).map (Fin.ofNat 10)) (f := Fin.val)]
        simp only [Nat.add_comm]
      _ = Nat.ofDigits 10 (Nat.digits 10 n) := by rw [hval, Nat.ofDigits_eq_foldr]; rfl
      _ = n := Nat.ofDigits_digits 10 n

theorem readDigits_map [DecidableEq β] {close : β} {digit : Fin 10 → β}
    (hinj : Function.Injective digit) (hclose : ∀ d, digit d ≠ close) (n : Nat)
    (ds : List (Fin 10)) (rest : List β) :
    readDigits close digit n (ds.map digit ++ close :: rest) =
      some (ds.foldl (fun m d => 10 * m + d.val) n, rest) := by
  induction ds generalizing n with
  | nil => exact if_pos rfl
  | cons d ds ih =>
    have hfind : (List.finRange 10).find? (digit · = digit d) = some d := by
      have hsome : ((List.finRange 10).find? (digit · = digit d)).isSome :=
        find?_isSome.mpr ⟨d, mem_finRange d, decide_eq_true rfl⟩
      obtain ⟨d', hd'⟩ := Option.isSome_iff_exists.mp hsome
      have hdigit : digit d' = digit d := by simpa using find?_some hd'
      rw [hd', hinj hdigit]
    rw [map_cons, cons_append, readDigits, if_neg (hclose d), hfind]
    exact ih (10 * n + d)

theorem readDigits_append [DecidableEq β] {close : β}
    (h : readDigits close digit n l = some (m, rest)) :
    readDigits close digit n (l ++ more) = some (m, rest ++ more) := by
  induction l generalizing n with
  | nil => exact nomatch h
  | cons b l ih =>
    rw [readDigits] at h
    rw [cons_append, readDigits]
    split
    next hclose =>
      rw [if_pos hclose] at h
      cases h
      rfl
    next hclose =>
      rw [if_neg hclose] at h
      cases hfind : (List.finRange 10).find? (digit · = b) with
      | none => exact nomatch hfind ▸ h
      | some d =>
        rw [hfind] at h
        exact ih h

def decimal [DecidableEq β] (digit : Fin 10 → β) (hinj : Function.Injective digit)
    (hclose : ∀ d, digit d ≠ close) : Code β Nat where
  encode n := (decimalDigits n).map digit ++ [close]
  decode := readDigits close digit 0
  decode_encode n rest := by
    rw [append_assoc, singleton_append, readDigits_map hinj hclose, foldl_decimalDigits]
  decode_append _ _ _ more h := readDigits_append more h

end Code

/-! ## Elements of one width -/

section
variable {β α : Type _} {width : Nat} {decode : List β → α} {l l' : List β}

def readElements (width : Nat) (decode : List β → α) : Nat → List β → List α
  | 0, _ => []
  | n + 1, l => decode (l.take width) :: readElements width decode n (l.drop width)

theorem readElements_flatMap (hlength : ∀ a, (encode a).length = width)
    (hdecode : ∀ a, decode (encode a) = a) {as : List α} (hn : n ≤ as.length) :
    readElements width decode n (as.flatMap encode) = as.take n := by
  induction n generalizing as with
  | zero => rfl
  | succ n ih =>
    cases as with
    | nil => exact absurd hn (Nat.not_succ_le_zero n)
    | cons a as =>
      rw [flatMap_cons, readElements, take_left' (hlength a),
        drop_left' (hlength a), hdecode, ih (Nat.le_of_succ_le_succ hn), take_succ_cons]

theorem part_congr (h : l.take u = l'.take u) (hab : a + b ≤ u) :
    (l.drop a).take b = (l'.drop a).take b := by
  have hpart := congrArg (fun l => (l.drop a).take b) h
  simp only [drop_take, take_take] at hpart
  rwa [Nat.min_eq_left (by omega)] at hpart

theorem readElements_congr (h : l.take (n * width) = l'.take (n * width)) :
    readElements width decode n l = readElements width decode n l' := by
  induction n generalizing l l' with
  | zero => rfl
  | succ n ih =>
    rw [Nat.succ_mul, Nat.add_comm] at h
    rw [readElements, readElements]
    congr 1
    · have hhead := congrArg (List.take width) h
      rw [take_take, take_take, Nat.min_eq_left (Nat.le_add_right _ _)] at hhead
      rw [hhead]
    · apply ih
      have htail := congrArg (List.drop width) h
      rwa [drop_take, drop_take, Nat.add_sub_cancel_left] at htail

end

end RelationalStore
