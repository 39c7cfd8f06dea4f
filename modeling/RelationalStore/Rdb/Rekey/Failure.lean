import RelationalStore.Rdb.Rekey.Basic

/-! # What a failed change of the key leaves

After an error the store should still be usable with its old key. -/

namespace RelationalStore

open RekeyStore

variable {K : Type}

variable (s : RekeyStore K)

def RekeyStore.Opened : Prop :=
  s.isInit ∧
    if s.isEncrypt then ∃ key, s.key = some key ∧ s.file = some key else s.file = none

def RekeyStore.Usable (t : RekeyStore K) : Prop :=
  t.isEncrypt = s.isEncrypt ∧ t.key = s.key ∧ t.file = s.file ∧ t.isInit

/-- If the call returned an error, the store is still usable with its old key. -/
def RekeyStore.FailsSafe (res : Except RdbError Unit × RekeyStore K) : Prop :=
  ∀ err, res.1 = .error err → s.Usable res.2

namespace Reopen

def Opens (o : Reopen K) (key newKey file : Option K) : Prop :=
  file = key ∨ file = newKey ∨ o.isServiceKey

/-- The file is opened, and it is not given another key when it is. -/
def Keeps (o : Reopen K) (key newKey file : Option K) : Prop :=
  o.Opens key newKey file ∧ (file = key → newKey = none ∨ newKey = file ∨ o.resets = false)

end Reopen

namespace RekeyCall

variable (c : RekeyCall K)

/-- `Rekey` gets as far as closing the pool. -/
def Closes (s : RekeyStore K) : Prop :=
  c.isReadOnly = false ∧ c.isMemoryRdb = false ∧ c.isValid ∧ s.isEncrypt ∧
    c.isEqual ∧ s.isCustom = c.paramKey.isSome ∧ c.hasPool ∧ c.acquires

/-- Every step on the connection succeeds. -/
def Converts : Prop :=
  c.paramKey.or c.password ≠ none ∧ c.hmacAlgo = none ∧ c.sqliteRekey = none ∧ c.encryptAgo = none

def Loads (s : RekeyStore K) : Prop :=
  c.paramKey = none ∧ s.encryptStatus ∧ c.reopen.load.err = none

instance (s : RekeyStore K) : Decidable (c.Loads s) := by
  unfold Loads
  cases c.paramKey <;> cases c.reopen.load.err <;> simp <;> infer_instance

/-- One of the two openings finds the key that the file has now. -/
def Reopens (s : RekeyStore K) : Prop :=
  c.paramKey ≠ none ∨
    (c.Loads s ∧ c.reopen.Opens c.reopen.load.password (c.reopen.load.newPassword.or s.newKey)
      c.password) ∨
    c.reopenAgain.Opens s.key
      (if c.Loads s then c.reopen.load.newPassword.or s.newKey else s.newKey) c.password

end RekeyCall

namespace RekeyExCall

variable (c : RekeyExCall K)

/-- `RekeyEx` gets as far as closing the pool. -/
def Closes : Prop :=
  c.isVector = false ∧ c.isReadOnly = false ∧ c.isMemoryRdb = false ∧ c.isSingle ∧
    c.isValid ∧ c.hasPool

def Generates (s : RekeyStore K) : Prop :=
  c.toPlainText = false ∧ c.paramKey = none ∧ (s.isCustom ∨ s.isEncrypt = false)

def Refused (s : RekeyStore K) : Prop :=
  c.Generates s ∧ s.isPlainText = false ∧ c.load.err ≠ none

def Fails (s : RekeyStore K) : Prop :=
  c.Refused s ∨ (c.toPlainText = false ∧ c.paramKey.or c.password = none) ∨ c.memcpy = false ∨
    c.sqliteRekey ≠ none

def Regains (s : RekeyStore K) : Prop :=
  if s.isPlainText then s.key = none
  else
    s.isEncrypt ∧
      match c.load.password with
      | some key => c.reopen.Keeps (some key) (c.load.newPassword.or s.newKey) s.key
      | none => c.reopen.load.err = none ∧
          c.reopen.Keeps c.reopen.load.password
            (c.reopen.load.newPassword.or (c.load.newPassword.or s.newKey)) s.key

/-- Reopening after the error leaves the store as it was. -/
def Recovers (s : RekeyStore K) : Prop :=
  (c.Generates s → ¬c.Refused s → c.Regains s) ∧
    (¬c.Generates s ∨ c.Refused s → s.isEncrypt → c.reopen.Keeps s.key s.newKey s.key)

end RekeyExCall

namespace RekeyStore

theorem isEncrypt_iff {s : RekeyStore K} :
    s.isEncrypt ↔
      s.isPlainText = false ∧ (s.encryptStatus ∨ s.key.isSome) := by
  simp [isEncrypt]

theorem generateEncryptedKey_of_key {s : RekeyStore K} {key : K} (hkey : s.key = some key)
    (o : KeyLoad K) : s.generateEncryptedKey o = .ok s := by
  simp [generateEncryptedKey, hkey]

theorem generateEncryptedKey_of_plain {s : RekeyStore K} (henc : s.isEncrypt = false)
    (o : KeyLoad K) : s.generateEncryptedKey o = .ok s := by
  have hskip : (!s.encryptStatus || s.key.isSome || s.isPlainText) := by
    cases hp : s.isPlainText <;> simp_all [isEncrypt]
  simp [generateEncryptedKey, hskip]

theorem generateEncryptedKey_of_err {s : RekeyStore K} {o : KeyLoad K} {err : RdbError}
    (hkey : s.key = none) (hstatus : s.encryptStatus) (hplain : s.isPlainText = false)
    (herr : o.err = some err) : s.generateEncryptedKey o = .error err := by
  simp [generateEncryptedKey, hkey, hstatus, hplain, herr]

theorem generateEncryptedKey_of_no_key {s : RekeyStore K} {o : KeyLoad K} (hkey : s.key = none)
    (hstatus : s.encryptStatus) (hplain : s.isPlainText = false) (herr : o.err = none) :
    s.generateEncryptedKey o =
      .ok { s with key := o.password, newKey := o.newPassword.or s.newKey } := by
  simp [generateEncryptedKey, hkey, hstatus, hplain, herr]

theorem generateEncryptedKey_frame {s t : RekeyStore K} (h : s.generateEncryptedKey o = .ok t) :
    (s.isEncrypt → t.isEncrypt) ∧ t.file = s.file := by
  unfold generateEncryptedKey at h
  split at h
  next =>
    cases h
    exact ⟨id, rfl⟩
  next hread =>
    cases herr : o.err with
    | some err => simp [herr] at h
    | none =>
      simp only [herr] at h
      cases h
      refine ⟨fun henc => isEncrypt_iff.2 ⟨(isEncrypt_iff.1 henc).1, .inl ?_⟩, rfl⟩
      simp_all

theorem failsSafe_unchanged {s : RekeyStore K} {res : Except RdbError Unit × RekeyStore K}
    (hs : s.Opened) (hres : res.2 = s) : s.FailsSafe res := by
  intro err _
  rw [hres]
  exact ⟨rfl, rfl, rfl, hs.1⟩

variable [DecidableEq K]

theorem setEncrypt_eq_none_iff {s : RekeyStore K} {f : K} (henc : s.isEncrypt)
    (hfile : s.file = some f) (o : Reopen K) :
    s.setEncrypt o = none ↔ ¬o.Opens s.key s.newKey (some f) := by
  unfold setEncrypt Reopen.Opens
  rw [henc, hfile]
  grind

theorem setEncrypt_keeps_iff {s : RekeyStore K} {f : K} (henc : s.isEncrypt)
    (hfile : s.file = some f) (o : Reopen K) :
    (∃ t, s.setEncrypt o = some t ∧ t.key = some f ∧ t.file = some f) ↔
      o.Keeps s.key s.newKey (some f) := by
  unfold setEncrypt Reopen.Keeps Reopen.Opens
  simp only [henc, hfile, Bool.not_true, Bool.false_eq_true, if_false, Option.isSome_some,
    Bool.true_and]
  by_cases hkey : some f = s.key
  · rw [if_pos ⟨by rw [← hkey]; rfl, hkey⟩]
    cases hnew : s.newKey <;> cases hres : o.resets <;> simp [← hkey, hfile]
  · rw [if_neg (fun h => hkey h.2)]
    by_cases hnew : some f = s.newKey
    · simp [← hnew, hkey]
    · cases hservice : o.isServiceKey <;> simp [hnew, hkey]

theorem setEncrypt_of_encrypted_file {s : RekeyStore K} {f : K} (henc : s.isEncrypt = false)
    (hfile : s.file = some f) (o : Reopen K) : s.setEncrypt o = none := by
  simp [setEncrypt, henc, hfile]

theorem setEncrypt_isEncrypt {s t : RekeyStore K} (henc : s.isEncrypt)
    (h : s.setEncrypt o = some t) : t.isEncrypt := by
  have hplain := (isEncrypt_iff.1 henc).1
  simp only [setEncrypt, henc, Bool.not_true, Bool.false_eq_true, if_false] at h
  rw [isEncrypt_iff]
  split at h
  next hkey =>
    split at h <;> obtain rfl := Option.some.inj h
    next hnew => exact ⟨hplain, .inr (Bool.and_eq_true_iff.1 hnew).1⟩
    next => exact ⟨hplain, .inr hkey.1⟩
  next =>
    split at h
    next hnew =>
      obtain rfl := Option.some.inj h
      exact ⟨hplain, .inr hnew.1⟩
    next =>
      split at h
      next hfile =>
        obtain rfl := Option.some.inj h
        exact ⟨hplain, .inr (Bool.and_eq_true_iff.1 hfile).1⟩
      next => cases h

def OpenWith (key : K) (s : RekeyStore K) : Prop :=
  s.isEncrypt ∧ s.key = some key ∧ s.file = some key ∧ s.isInit

omit [DecidableEq K] in
theorem usable_iff_openWith {key : K} (s : RekeyStore K) {t : RekeyStore K}
    (henc : s.isEncrypt) (hkey : s.key = some key) (hfile : s.file = some key) :
    s.Usable t ↔ t.OpenWith key := by
  rw [Usable, OpenWith, henc, hkey, hfile]

section Init

variable {s t : RekeyStore K} {o : Reopen K} {f : K}

theorem init_of_plain (henc : s.isEncrypt = false) (hfile : s.file = none) :
    s.init o = (.ok (), { s with isInit := true }) := by
  simp [init, generateEncryptedKey_of_plain henc, setEncrypt, henc, hfile]

theorem init_of_err {err : RdbError} (hload : s.generateEncryptedKey o.load = .error err) :
    s.init o = (.error err, { s with isInit := false }) := by
  simp only [init, hload]

section
variable (hload : s.generateEncryptedKey o.load = .ok t)
include hload

theorem init_of_unopened (hset : t.setEncrypt o = none) :
    s.init o = (.error .sqliteCorrupt, { t with isInit := false }) := by
  simp only [init, hload, hset]

theorem init_of_opened {u : RekeyStore K}
    (hset : t.setEncrypt o = some u) : s.init o = (.ok (), { u with isInit := true }) := by
  simp only [init, hload, hset]

theorem init_eq_error_of_loaded
    (henc : t.isEncrypt) (hfile : t.file = some f) (h : ¬o.Opens t.key t.newKey (some f)) :
    s.init o = (.error .sqliteCorrupt, { t with isInit := false }) :=
  init_of_unopened hload ((setEncrypt_eq_none_iff henc hfile o).2 h)

theorem init_eq_ok_of_loaded
    (henc : t.isEncrypt) (hfile : t.file = some f) (h : o.Opens t.key t.newKey (some f)) :
    (s.init o).1 = .ok () := by
  cases hset : t.setEncrypt o with
  | none => exact absurd h ((setEncrypt_eq_none_iff henc hfile o).1 hset)
  | some u => rw [init_of_opened hload hset]

theorem init_openWith_iff_of_loaded (henc : t.isEncrypt) (hfile : t.file = some f) :
    (s.init o).2.OpenWith f ↔ o.Keeps t.key t.newKey (some f) := by
  rw [← setEncrypt_keeps_iff henc hfile]
  cases hset : t.setEncrypt o with
  | none => simp [init_of_unopened hload hset, OpenWith]
  | some u =>
    have hu := setEncrypt_isEncrypt henc hset
    rw [init_of_opened hload hset]
    simp only [OpenWith, isEncrypt] at hu ⊢
    simp [hu]

end

theorem isInit_of_init_eq_error (h : (s.init o).1 = .error err) : (s.init o).2.isInit = false := by
  cases hload : s.generateEncryptedKey o.load with
  | error e => rw [init_of_err hload]
  | ok t =>
    cases hset : t.setEncrypt o with
    | none => rw [init_of_unopened hload hset]
    | some u => simp [init_of_opened hload hset] at h

theorem isInit_of_init_plain_file (henc : s.isEncrypt) (hfile : s.file = none)
    (o : Reopen K) : (s.init o).2.isInit = false := by
  cases hload : s.generateEncryptedKey o.load with
  | error e => rw [init_of_err hload]
  | ok t =>
    obtain ⟨hstatus, ht⟩ := generateEncryptedKey_frame hload
    have hset : t.setEncrypt o = none := by
      simp only [setEncrypt, hstatus henc, ht, hfile]
      grind
    rw [init_of_unopened hload hset]

end Init

end RekeyStore

namespace RekeyCall

theorem connRekey_of_converts {c : RekeyCall K} (h : c.Converts) (s : RekeyStore K) :
    ∃ g, c.paramKey.or c.password = some g ∧
      c.connRekey s = (.ok (), { s with file := some g }) := by
  obtain ⟨hkey, hhmac, hrekey, hago⟩ := h
  obtain ⟨g, hg⟩ := Option.ne_none_iff_exists'.1 hkey
  exact ⟨g, hg, by simp only [connRekey, hg, hhmac, hrekey, hago]⟩

theorem connRekey_of_not_converts {c : RekeyCall K} (h : ¬c.Converts) (s : RekeyStore K) :
    ∃ err t, c.connRekey s = (.error err, t) ∧ t.isInit = s.isInit := by
  unfold connRekey
  cases hg : c.paramKey.or c.password with
  | none => exact ⟨_, _, rfl, rfl⟩
  | some g =>
    cases hhmac : c.hmacAlgo with
    | some err => exact ⟨_, _, rfl, rfl⟩
    | none =>
      cases hrekey : c.sqliteRekey with
      | some err => exact ⟨_, _, rfl, rfl⟩
      | none =>
        cases hago : c.encryptAgo with
        | some err => exact ⟨_, _, rfl, rfl⟩
        | none => exact absurd ⟨by simp [hg], hhmac, hrekey, hago⟩ h

variable [DecidableEq K] {c : RekeyCall K} {s : RekeyStore K} {g key : K}

def rekeyed (c : RekeyCall K) (s : RekeyStore K) (g : K) : RekeyStore K :=
  { s with isInit := false, file := some g, key := c.paramKey }

theorem poolRekey_failsSafe_iff_of_converts (hacq : c.acquires)
    (hconn : c.connRekey { s with isInit := false } =
      (.ok (), { s with isInit := false, file := some g })) :
    s.FailsSafe (c.poolRekey s) ↔
      ((c.rekeyed s g).init c.reopen).1 = .ok () ∨
        (({ ((c.rekeyed s g).init c.reopen).2 with key := s.key } : RekeyStore K).init
          c.reopenAgain).1 = .ok () := by
  rcases hfirst : (c.rekeyed s g).init c.reopen with ⟨_ | ⟨⟨⟩⟩, t⟩
  case ok =>
    have hpool : c.poolRekey s = (.ok (), t) := by
      rw [rekeyed] at hfirst
      simp only [poolRekey, hacq, hconn, hfirst, Bool.not_true, Bool.false_eq_true, if_false]
    simp [hpool, FailsSafe]
  case error err =>
    have hpool : c.poolRekey s = ({ t with key := s.key } : RekeyStore K).init c.reopenAgain := by
      rw [rekeyed] at hfirst
      simp only [poolRekey, hacq, hconn, hfirst, Bool.not_true, Bool.false_eq_true, if_false]
    rw [hpool]
    simp only [reduceCtorEq, false_or]
    cases hagain : (({ t with key := s.key } : RekeyStore K).init c.reopenAgain).1 with
    | ok u => simp [FailsSafe, hagain]
    | error err =>
      have hinit := isInit_of_init_eq_error hagain
      simp [FailsSafe, Usable, hagain, hinit]

theorem init_rekeyed_of_key (henc : s.isEncrypt) (hkey : c.paramKey = some g) :
    ((c.rekeyed s g).init c.reopen).1 = .ok () := by
  have hplain := (isEncrypt_iff.1 henc).1
  have hload := generateEncryptedKey_of_key (s := c.rekeyed s g) hkey c.reopen.load
  refine init_eq_ok_of_loaded hload ?_ rfl (.inl ?_)
  · exact isEncrypt_iff.2 ⟨hplain, .inr (by simp [rekeyed, hkey])⟩
  · exact hkey.symm

theorem init_rekeyed_of_no_key (henc : s.isEncrypt) (hkey : c.paramKey = none) :
    (c.Loads s ∧ c.reopen.Opens c.reopen.load.password (c.reopen.load.newPassword.or s.newKey)
        (some g) ∧ ((c.rekeyed s g).init c.reopen).1 = .ok ()) ∨
      ¬(c.Loads s ∧ c.reopen.Opens c.reopen.load.password (c.reopen.load.newPassword.or s.newKey)
        (some g)) ∧
      ∃ err k, (c.rekeyed s g).init c.reopen =
        (.error err, { c.rekeyed s g with
          key := k
          newKey := if c.Loads s then c.reopen.load.newPassword.or s.newKey else s.newKey }) := by
  have hplain := (isEncrypt_iff.1 henc).1
  cases hstatus : s.encryptStatus with
  | false =>
    have hload : ¬c.Loads s := fun h => by simp [h.2.1] at hstatus
    have hdec : (c.rekeyed s g).isEncrypt = false := by
      simp [rekeyed, isEncrypt, hstatus, hkey]
    have hset := setEncrypt_of_encrypted_file hdec rfl c.reopen
    refine .inr ⟨fun h => hload h.1, .sqliteCorrupt, none, ?_⟩
    rw [init_of_unopened (generateEncryptedKey_of_plain hdec _) hset,
      if_neg hload]
    simp [rekeyed, hkey]
  | true =>
    cases herr : c.reopen.load.err with
    | some err =>
      have hload : ¬c.Loads s := fun h => by simp [h.2.2] at herr
      refine .inr ⟨fun h => hload h.1, err, none, ?_⟩
      have hgen := generateEncryptedKey_of_err (s := c.rekeyed s g) hkey hstatus hplain
        herr
      rw [init_of_err hgen, if_neg hload]
      simp [rekeyed, hkey]
    | none =>
      have hload : c.Loads s := ⟨hkey, hstatus, herr⟩
      have hgen := generateEncryptedKey_of_no_key (s := c.rekeyed s g) hkey hstatus
        hplain herr
      have henc' : ({ c.rekeyed s g with
          key := c.reopen.load.password
          newKey := c.reopen.load.newPassword.or (c.rekeyed s g).newKey } :
          RekeyStore K).isEncrypt :=
        isEncrypt_iff.2 ⟨hplain, .inl hstatus⟩
      by_cases hopens : c.reopen.Opens c.reopen.load.password
          (c.reopen.load.newPassword.or s.newKey) (some g)
      · exact .inl ⟨hload, hopens, init_eq_ok_of_loaded hgen henc' rfl hopens⟩
      · refine .inr ⟨fun h => hopens h.2, .sqliteCorrupt, c.reopen.load.password, ?_⟩
        rw [init_eq_error_of_loaded hgen henc' rfl hopens, if_pos hload]
        rfl

theorem init_old_key_iff {u : RekeyStore K} (hplain : u.isPlainText = false)
    (hfile : u.file = some g) (hkey : s.key = some key) (o : Reopen K) :
    (({ u with key := s.key } : RekeyStore K).init o).1 = .ok () ↔
      o.Opens s.key u.newKey (some g) := by
  have hload := generateEncryptedKey_of_key (s := { u with key := s.key }) hkey o.load
  have henc : ({ u with key := s.key } : RekeyStore K).isEncrypt :=
    isEncrypt_iff.2 ⟨hplain, .inr (by simp [hkey])⟩
  constructor
  · intro hok
    refine Classical.byContradiction fun hopens => ?_
    rw [init_eq_error_of_loaded hload henc hfile hopens] at hok
    cases hok
  · exact init_eq_ok_of_loaded hload henc hfile

theorem poolRekey_failsSafe_iff (hs : s.Opened) (henc : s.isEncrypt)
    (hacq : c.acquires) : s.FailsSafe (c.poolRekey s) ↔ c.Converts ∧ c.Reopens s := by
  by_cases hconv : c.Converts
  · obtain ⟨g, hg, hconn⟩ := connRekey_of_converts hconv { s with isInit := false }
    have hplain := (isEncrypt_iff.1 henc).1
    obtain ⟨key, hold, -⟩ : ∃ key, s.key = some key ∧ s.file = some key := by
      simpa [henc] using hs.2
    rw [poolRekey_failsSafe_iff_of_converts hacq hconn]
    cases hkey : c.paramKey with
    | some k =>
      obtain rfl : k = g := by simpa [hkey] using hg
      exact ⟨fun _ => ⟨hconv, .inl (by simp [hkey])⟩,
        fun _ => .inl (init_rekeyed_of_key henc hkey)⟩
    | none =>
      have hpassword : c.password = some g := by simpa [hkey] using hg
      rcases init_rekeyed_of_no_key (g := g) henc hkey with
        ⟨hload, hopens, hok⟩ | ⟨hno, err, k, herr⟩
      · exact ⟨fun _ => ⟨hconv, .inr (.inl ⟨hload, hpassword ▸ hopens⟩)⟩, fun _ => .inl hok⟩
      · -- the first opening failed, so that the second one decides
        simp only [herr, init_old_key_iff (u := { c.rekeyed s g with
            key := k
            newKey := if c.Loads s then c.reopen.load.newPassword.or s.newKey else s.newKey })
          hplain rfl hold, Reopens, hkey, hpassword, hno, hconv, ne_eq, not_true_eq_false,
          reduceCtorEq, false_or, true_and]
  · obtain ⟨err, t, hconn, hinit⟩ := connRekey_of_not_converts hconv { s with isInit := false }
    have hpool : c.poolRekey s = (.error err, t) := by simp [poolRekey, hacq, hconn]
    simp only [hpool, hconv, false_and, iff_false]
    intro h
    have hpooled : t.isInit := (h err rfl).2.2.2
    simp [hinit] at hpooled

theorem rekey_failsSafe_iff (hs : s.Opened) :
    s.FailsSafe (c.rekey s) ↔ (c.Closes s → c.Converts ∧ c.Reopens s) := by
  by_cases hcloses : c.Closes s
  · have henc := hcloses.2.2.2.1
    have hacq := hcloses.2.2.2.2.2.2.2
    have hpool : c.rekey s = c.poolRekey s := by
      obtain ⟨hro, hmem, hvalid, henc, heq, hcustom, hpool, -⟩ := hcloses
      cases hkey : c.paramKey <;> simp_all [rekey]
    simp only [hpool, poolRekey_failsSafe_iff hs henc hacq, hcloses, forall_const]
  · have hstop : (c.rekey s).2 = s := by
      unfold rekey
      split
      · rfl
      split
      · rfl
      split
      · rfl
      split
      · rfl
      next hguard hvalid hsupport hpool =>
        have hbusy : c.acquires = false := by
          cases hacq : c.acquires with
          | false => rfl
          | true =>
            cases hkey : c.paramKey <;> simp_all [Closes]
        simp [poolRekey, hbusy]
    exact ⟨fun _ h => absurd h hcloses, fun _ => failsSafe_unchanged hs hstop⟩

end RekeyCall

namespace RekeyExCall

section Conn

variable {c : RekeyExCall K} {s : RekeyStore K}

theorem convert_spec (c : RekeyExCall K) (s : RekeyStore K) :
    (∃ err, c.convert s = (.error err, s)) ∧
        (c.paramKey.or c.password = none ∨ c.memcpy = false ∨ c.sqliteRekey ≠ none) ∨
      (c.convert s).1 = .ok () ∧
        ¬(c.paramKey.or c.password = none ∨ c.memcpy = false ∨ c.sqliteRekey ≠ none) := by
  unfold convert
  cases hkey : c.paramKey.or c.password <;> cases hmem : c.memcpy <;>
    cases hrekey : c.sqliteRekey <;> simp

theorem rekeyToPlainText_spec (c : RekeyExCall K) (s : RekeyStore K) :
    (∃ err, c.rekeyToPlainText s = (.error err, s)) ∧ (c.memcpy = false ∨ c.sqliteRekey ≠ none) ∨
      (c.rekeyToPlainText s).1 = .ok () ∧ ¬(c.memcpy = false ∨ c.sqliteRekey ≠ none) := by
  unfold rekeyToPlainText
  cases hmem : c.memcpy <;> cases hrekey : c.sqliteRekey <;> simp

def generated (c : RekeyExCall K) (s : RekeyStore K) : RekeyStore K :=
  { s with
    encryptStatus := true
    key := if s.isPlainText then none else c.load.password
    newKey := if s.isPlainText then s.newKey else c.load.newPassword.or s.newKey }

theorem prepareGenerateKey_of_not_generates (hplain : c.toPlainText = false)
    (hkey : c.paramKey = none) (h : ¬c.Generates s) : c.prepareGenerateKey s = (.ok (), s) := by
  have hskip : (!s.isCustom && s.isEncrypt) := by
    cases hcustom : s.isCustom <;> cases henc : s.isEncrypt <;>
      simp_all [Generates]
  simp [prepareGenerateKey, hskip]

theorem prepareGenerateKey_of_refused (h : c.Refused s) :
    ∃ err, c.prepareGenerateKey s = (.error err, { s with encryptStatus := s.isEncrypt }) := by
  obtain ⟨⟨-, hkey, hold⟩, hplain, herr⟩ := h
  obtain ⟨err, herr⟩ := Option.ne_none_iff_exists'.1 herr
  have hgen : (!s.isCustom && s.isEncrypt) = false := by
    rcases hold with h | h <;> simp [h]
  refine ⟨err, ?_⟩
  simp [prepareGenerateKey, hgen, generateEncryptedKey, hkey, hplain, herr]

theorem prepareGenerateKey_of_generates (h : c.Generates s) (hrefused : ¬c.Refused s) :
    c.prepareGenerateKey s = (.ok (), c.generated s) := by
  have hgen : (!s.isCustom && s.isEncrypt) = false := by
    rcases h.2.2 with h | h <;> simp [h]
  cases hplain : s.isPlainText with
  | true =>
    simp [prepareGenerateKey, hgen, generateEncryptedKey, generated, hplain, h.2.1]
  | false =>
    have herr : c.load.err = none := Classical.byContradiction fun herr =>
      hrefused ⟨h, hplain, herr⟩
    simp [prepareGenerateKey, hgen, generateEncryptedKey, generated, hplain, h.2.1, herr]

inductive Failed (c : RekeyExCall K) (s : RekeyStore K) : RekeyStore K → Prop where
  | refused : c.Refused s → Failed c s { s with encryptStatus := s.isEncrypt }
  | generated : c.Generates s → ¬c.Refused s → Failed c s (c.generated s)
  | unchanged : ¬c.Generates s → Failed c s s

theorem rekeyToEncrypt_of_not_refused (hplain : c.toPlainText = false) (h : ¬c.Refused s) :
    ∃ t, c.rekeyToEncrypt s = c.convert t ∧ Failed c s t := by
  by_cases hgen : c.Generates s
  · refine ⟨_, ?_, .generated hgen h⟩
    simp [rekeyToEncrypt, hgen.2.1, prepareGenerateKey_of_generates hgen h]
  · refine ⟨_, ?_, .unchanged hgen⟩
    cases hkey : c.paramKey with
    | none => simp [rekeyToEncrypt, hkey, prepareGenerateKey_of_not_generates hplain hkey hgen]
    | some key => simp [rekeyToEncrypt, hkey]

theorem connRekeyEx_spec (c : RekeyExCall K) (s : RekeyStore K) :
    (∃ err t, c.connRekeyEx s = (.error err, t) ∧ Failed c s t) ∧ c.Fails s ∨
      (c.connRekeyEx s).1 = .ok () ∧ ¬c.Fails s := by
  unfold connRekeyEx
  cases hplain : c.toPlainText with
  | true =>
    have hgen : ¬c.Generates s := fun h => by simp [h.1] at hplain
    have hfails : c.Fails s ↔ c.memcpy = false ∨ c.sqliteRekey ≠ none := by
      simp [Fails, Refused, hgen, hplain]
    rcases rekeyToPlainText_spec c s with ⟨⟨err, heq⟩, h⟩ | ⟨hok, h⟩
    · exact .inl ⟨⟨err, s, heq, .unchanged hgen⟩, hfails.2 h⟩
    · exact .inr ⟨hok, mt hfails.1 h⟩
  | false =>
    by_cases hrefused : c.Refused s
    · obtain ⟨err, heq⟩ := prepareGenerateKey_of_refused hrefused
      have hstop : c.rekeyToEncrypt s = (.error err, { s with encryptStatus := s.isEncrypt }) := by
        simp [rekeyToEncrypt, hrefused.1.2.1, heq]
      exact .inl ⟨⟨err, _, hstop, .refused hrefused⟩, .inl hrefused⟩
    · obtain ⟨t, heq, hfailed⟩ := rekeyToEncrypt_of_not_refused hplain hrefused
      have hfails : c.Fails s ↔
          c.paramKey.or c.password = none ∨ c.memcpy = false ∨ c.sqliteRekey ≠ none := by
        simp [Fails, hrefused, hplain]
      simp only [Bool.false_eq_true, if_false, heq]
      rcases convert_spec c t with ⟨⟨err, hconv⟩, h⟩ | ⟨hok, h⟩
      · exact .inl ⟨⟨err, t, hconv, hfailed⟩, hfails.2 h⟩
      · exact .inr ⟨hok, mt hfails.1 h⟩

end Conn

variable [DecidableEq K] {c : RekeyExCall K} {s t : RekeyStore K}

theorem rekeyEx_of_error {err : RdbError} (h : c.Closes)
    (hconn : c.connRekeyEx { s with isInit := false } = (.error err, t)) :
    c.rekeyEx s = (.error err, (t.init c.reopen).2) := by
  obtain ⟨hvector, hro, hmem, hsingle, hvalid, hpool⟩ := h
  simp [rekeyEx, hvector, hro, hmem, hsingle, hvalid, hpool, hconn]

theorem rekeyEx_of_ok (h : c.Closes)
    (hconn : (c.connRekeyEx { s with isInit := false }).1 = .ok ()) :
    (c.rekeyEx s).1 = .ok () := by
  obtain ⟨hvector, hro, hmem, hsingle, hvalid, hpool⟩ := h
  rcases hres : c.connRekeyEx { s with isInit := false } with ⟨_ | ⟨⟨⟩⟩, t⟩
  · simp [hres] at hconn
  · simp [rekeyEx, hvector, hro, hmem, hsingle, hvalid, hpool, hres]

theorem rekeyEx_of_not_closes (h : ¬c.Closes) : (c.rekeyEx s).2 = s := by
  unfold rekeyEx
  split
  · rfl
  split
  · rfl
  split
  · rfl
  next hguard hvalid hpool => exact absurd (by simp_all [Closes]) h

theorem usable_init_iff (hs : s.Opened) (henc : t.isEncrypt = s.isEncrypt) (hkey : t.key = s.key)
    (hnew : t.newKey = s.newKey) (hfile : t.file = s.file) (o : Reopen K) :
    s.Usable (t.init o).2 ↔ (s.isEncrypt → o.Keeps s.key s.newKey s.key) := by
  have hopen := hs.2
  cases hold : s.isEncrypt with
  | true =>
    obtain ⟨key, hk, hf⟩ : ∃ key, s.key = some key ∧ s.file = some key := by
      simpa [hold] using hopen
    have hload := generateEncryptedKey_of_key (hkey.trans hk) o.load
    rw [s.usable_iff_openWith hold hk hf,
      init_openWith_iff_of_loaded hload (henc.trans hold) (hfile.trans hf), hkey, hnew,
      hk]
    simp
  | false =>
    have hf : s.file = none := by simpa [hold] using hopen
    rw [init_of_plain (henc.trans hold) (hfile.trans hf)]
    simp only [Bool.false_eq_true, false_implies, iff_true]
    exact ⟨henc, hkey, hfile, rfl⟩

theorem usable_init_generated_iff_of_encrypt {key : K} (henc : s.isEncrypt)
    (hkey : s.key = some key) (hfile : s.file = some key) :
    s.Usable ((c.generated { s with isInit := false }).init c.reopen).2 ↔ c.Regains s := by
  have hplain := (isEncrypt_iff.1 henc).1
  rw [s.usable_iff_openWith henc hkey hfile]
  unfold Regains
  generalize hu : c.generated { s with isInit := false } = u
  have hstatus : u.encryptStatus := by rw [← hu]; rfl
  have huplain : u.isPlainText = false := by rw [← hu]; exact hplain
  have hufile : u.file = some key := by rw [← hu]; exact hfile
  have hukey : u.key = c.load.password := by simp [← hu, generated, hplain]
  have hunew : u.newKey = c.load.newPassword.or s.newKey := by simp [← hu, generated, hplain]
  cases hpassword : c.load.password with
  | some k =>
    have hload := generateEncryptedKey_of_key (hukey.trans hpassword) c.reopen.load
    have huenc := isEncrypt_iff.2 ⟨huplain, .inl hstatus⟩
    rw [init_openWith_iff_of_loaded hload huenc hufile]
    simp [hplain, henc, hukey, hpassword, hunew, hkey]
  | none =>
    have hukey := hukey.trans hpassword
    cases herr : c.reopen.load.err with
    | some err =>
      have hload := generateEncryptedKey_of_err hukey hstatus huplain herr
      simp [init_of_err hload, OpenWith, hplain]
    | none =>
      have hload := generateEncryptedKey_of_no_key hukey hstatus huplain herr
      rw [init_openWith_iff_of_loaded hload
        (isEncrypt_iff.2 ⟨huplain, .inl hstatus⟩) hufile]
      simp [hplain, henc, hunew, hkey]

theorem usable_init_generated_iff (hs : s.Opened) :
    s.Usable ((c.generated { s with isInit := false }).init c.reopen).2 ↔ c.Regains s := by
  have hopen := hs.2
  rcases Bool.eq_false_or_eq_true s.isEncrypt with henc | henc
  · obtain ⟨key, hkey, hfile⟩ : ∃ key, s.key = some key ∧ s.file = some key := by
      simpa [henc] using hopen
    exact usable_init_generated_iff_of_encrypt henc hkey hfile
  · have hfile : s.file = none := by simpa [henc] using hopen
    rcases Bool.eq_false_or_eq_true s.isPlainText with hplain | hplain
    · have hgen : (c.generated { s with isInit := false }).isEncrypt = false := by
        simp [isEncrypt, generated, hplain]
      rw [init_of_plain hgen hfile]
      simp [Usable, isEncrypt, generated, hplain, Regains, eq_comm]
    · -- the configuration now says that the plain file is encrypted
      have hgen : (c.generated { s with isInit := false }).isEncrypt := by
        simp [isEncrypt, generated, hplain]
      have hclosed := isInit_of_init_plain_file hgen hfile c.reopen
      refine ⟨fun h => absurd (hclosed.symm.trans h.2.2.2) (by simp), fun h => ?_⟩
      simp [Regains, henc, hplain] at h

theorem usable_init_iff_recovers (hs : s.Opened) (h : Failed c { s with isInit := false } t) :
    s.Usable (t.init c.reopen).2 ↔ c.Recovers s := by
  cases h with
  | refused hrefused =>
    have hrefused : c.Refused s := hrefused
    have henc : ({ s with isInit := false, encryptStatus := s.isEncrypt } :
        RekeyStore K).isEncrypt = s.isEncrypt := by
      cases hold : s.isEncrypt <;> simp_all [isEncrypt]
    refine (usable_init_iff hs henc rfl rfl rfl c.reopen).trans ?_
    simp [Recovers, hrefused, hrefused.1]
  | generated hgen hrefused =>
    have hgen : c.Generates s := hgen
    have hrefused : ¬c.Refused s := hrefused
    rw [usable_init_generated_iff hs]
    simp [Recovers, hgen, hrefused]
  | unchanged hgen =>
    have hgen : ¬c.Generates s := hgen
    refine (usable_init_iff (t := { s with isInit := false }) hs rfl rfl rfl rfl c.reopen).trans ?_
    simp [Recovers, hgen]

theorem rekeyEx_failsSafe_iff (hs : s.Opened) :
    s.FailsSafe (c.rekeyEx s) ↔ (c.Closes → c.Fails s → c.Recovers s) := by
  by_cases hcloses : c.Closes
  · rcases connRekeyEx_spec c { s with isInit := false } with
      ⟨⟨err, t, heq, hfailed⟩, hfails⟩ | ⟨hok, hfails⟩
    · have hfails : c.Fails s := hfails
      simp only [rekeyEx_of_error hcloses heq, hcloses, hfails, forall_const,
        ← usable_init_iff_recovers hs hfailed]
      exact ⟨fun h => h err rfl, fun h _ _ => h⟩
    · refine ⟨fun _ _ h => absurd h hfails, fun _ err herr => ?_⟩
      rw [rekeyEx_of_ok hcloses hok] at herr
      cases herr
  · exact ⟨fun _ h => absurd h hcloses,
      fun _ => failsSafe_unchanged hs (rekeyEx_of_not_closes hcloses)⟩

end RekeyExCall

namespace RekeyStore

theorem failsSafe_rekey_iff [DecidableEq K] (c : RekeyCall K) (d : RekeyExCall K)
    (s : RekeyStore K) (hs : s.Opened) :
    (s.FailsSafe (c.rekey s) ↔ (c.Closes s → c.Converts ∧ c.Reopens s)) ∧
      (s.FailsSafe (d.rekeyEx s) ↔ (d.Closes → d.Fails s → d.Recovers s)) :=
  ⟨RekeyCall.rekey_failsSafe_iff hs, RekeyExCall.rekeyEx_failsSafe_iff hs⟩

def generatedStore : RekeyStore Nat where
  encryptStatus := true
  isPlainText := false
  isCustom := false
  key := some 1
  newKey := none
  file := some 1
  isInit := true

def plainStore : RekeyStore Nat where
  encryptStatus := false
  isPlainText := false
  isCustom := false
  key := none
  newKey := none
  file := none
  isInit := true

end RekeyStore

def Reopen.smooth (key : Nat) : Reopen Nat where
  load := { err := none, password := some key, newPassword := none }
  resets := true
  isServiceKey := false

def RekeyCall.smooth : RekeyCall Nat where
  isReadOnly := false
  isMemoryRdb := false
  hasPool := true
  paramKey := none
  isValid := true
  isEqual := true
  acquires := true
  password := some 2
  hmacAlgo := none
  sqliteRekey := none
  encryptAgo := none
  reopen := .smooth 2
  reopenAgain := .smooth 2

def RekeyExCall.ioerr : RekeyExCall Nat where
  isVector := false
  isReadOnly := false
  isMemoryRdb := false
  isSingle := true
  hasPool := true
  paramKey := none
  toPlainText := false
  isValid := true
  load := { err := none, password := some 2, newPassword := none }
  password := some 2
  memcpy := true
  sqliteRekey := some .sqliteIoerr
  reopen := .smooth 2

namespace RekeyStore

theorem failsSafe_rekey_busy :
    generatedStore.FailsSafe ({ RekeyCall.smooth with acquires := false }.rekey generatedStore) ∧
      generatedStore.FailsSafe
        ({ RekeyExCall.ioerr with paramKey := some 3 }.rekeyEx generatedStore) := by
  have hs : generatedStore.Opened := ⟨rfl, 1, rfl, rfl⟩
  obtain ⟨hrekey, hrekeyEx⟩ := failsSafe_rekey_iff { RekeyCall.smooth with acquires := false }
    { RekeyExCall.ioerr with paramKey := some 3 } generatedStore hs
  refine ⟨hrekey.2 fun h => ?_, hrekeyEx.2 fun _ _ => ⟨fun h => ?_, fun _ _ => ?_⟩⟩
  · exact absurd h.2.2.2.2.2.2.2 (by decide)
  · exact absurd h.2.1 (by decide)
  · exact ⟨.inl rfl, fun _ => .inl rfl⟩

theorem not_failsSafe_of_sqlite_error :
    ({ RekeyCall.smooth with sqliteRekey := some .sqliteFull }.rekey generatedStore =
        (.error .sqliteFull, { generatedStore with isInit := false }) ∧
      ¬generatedStore.FailsSafe
        ({ RekeyCall.smooth with sqliteRekey := some .sqliteFull }.rekey generatedStore)) ∧
      RekeyExCall.ioerr.rekeyEx plainStore =
        (.error .sqliteIoerr,
          { plainStore with encryptStatus := true, key := some 2, isInit := false }) ∧
      ¬plainStore.FailsSafe (RekeyExCall.ioerr.rekeyEx plainStore) := by
  refine ⟨⟨rfl, fun h => ?_⟩, rfl, fun h => ?_⟩
  · exact absurd (h .sqliteFull rfl).2.2.2 (by decide)
  · exact absurd (h .sqliteIoerr rfl).1 (by decide)

end RekeyStore

end RelationalStore
