import RelationalStore.Theory.Run

/-! # The key files of an encrypted database

The key is kept in `.pub_key_v2`, the key of a pending change in `.pub_key_v2.new`. -/

namespace RelationalStore

inductive KeyFileType where
  | pubKeyFile
  | pubKeyFileNewKey
  deriving DecidableEq

inductive KeyPath where
  | pubKeyV2
  | pubKeyV2New
  | pubKey
  | pubKeyV1
  | pubKeyNew
  deriving DecidableEq

inductive KeyVersion where
  | v0
  | v1
  | v2
  deriving DecidableEq

def SecretKey := { key : List UInt8 // key ≠ [] }
  deriving DecidableEq

inductive KeyFile where
  | absent
  | empty
  | unreadable
  | packed (version : KeyVersion) (key : SecretKey)
  deriving DecidableEq

namespace KeyFile

def isEmpty : KeyFile → Bool
  | .absent | .empty => true
  | .unreadable | .packed _ _ => false

def load (f : KeyFile) (version : KeyVersion) : Option SecretKey :=
  match f with
  | .packed v key => if v = version then some key else none
  | .absent | .empty | .unreadable => none

@[simp] theorem load_packed (version : KeyVersion) (key : SecretKey) :
    (packed version key).load version = some key := if_pos rfl

theorem load_of_isEmpty {f : KeyFile} (h : f.isEmpty) (version : KeyVersion) :
    f.load version = none := by
  cases f with
  | absent | empty => rfl
  | unreadable | packed => exact nomatch h

end KeyFile

inductive Torn where
  | kept
  | emptied
  | cut

def Torn.leaves (t : Torn) (f : KeyFile) : KeyFile :=
  match t, f with
  | .kept, .absent => .empty
  | .kept, f => f
  | .emptied, _ => .empty
  | .cut, _ => .unreadable

theorem Torn.load_leaves {t : Torn} (h : (t.leaves f).load version = some key) :
    f.load version = some key := by
  cases t with
  | kept => cases f <;> exact h
  | emptied | cut => exact nomatch h

inductive DiskOutcome where
  | notOpened
  | torn (t : Torn)
  | written

structure SaveOutcome where
  random : List UInt8
  encrypts : Bool
  disk : DiskOutcome

inductive Deletion where
  | done
  | failed
  | crashed
  deriving DecidableEq

structure PasswordOutcome where
  reads : KeyVersion → Bool
  saves : KeyVersion → SaveOutcome
  firstDelete : Deletion
  secondDelete : Deletion

structure RestoreOutcome where
  deleteKey : Deletion
  deleteNewKey : Deletion
  save : SaveOutcome

def MAX_PASSWORD_SIZE : Nat := 128

abbrev KeyDir := KeyPath → KeyFile

def SaveOutcome.saved (o : SaveOutcome) (workKey : List UInt8) : Option SecretKey :=
  let key := if workKey = [] then o.random else workKey
  if h : key = [] then none
  else if o.encrypts = false then none
  else
    match o.disk with
    | .notOpened | .torn _ => none
    | .written => some ⟨key, h⟩

def KeyFileType.keyFile : KeyFileType → KeyPath
  | .pubKeyFile => .pubKeyV2
  | .pubKeyFileNewKey => .pubKeyV2New

def KeyFileType.oldKeyPaths : KeyFileType → List (KeyPath × KeyVersion)
  | .pubKeyFile => [(.pubKey, .v0), (.pubKeyV1, .v1)]
  | .pubKeyFileNewKey => [(.pubKeyNew, .v0), (.pubKeyNew, .v1)]

namespace KeyDir

variable (d : KeyDir)

def saveSecretKeyToFile (path : KeyPath) (workKey : List UInt8) (o : SaveOutcome) :
    Bool × KeyDir :=
  let key := if workKey = [] then o.random else workKey
  if h : key = [] then (false, d)
  else if o.encrypts = false then (false, d)
  else
    match o.disk with
    | .notOpened => (false, d)
    | .torn t => (false, Function.update d path (t.leaves (d path)))
    | .written => (true, Function.update d path (.packed .v2 ⟨key, h⟩))

def deleteFile (path : KeyPath) : Deletion → Bool × KeyDir
  | .done => (true, Function.update d path .absent)
  | .failed => (true, d)
  | .crashed => (false, d)

def deleteFiles (d : KeyDir) : List (KeyPath × Deletion) → Bool × KeyDir
  | [] => (true, d)
  | (path, .done) :: rest => deleteFiles (Function.update d path .absent) rest
  | (_, .failed) :: _ => (true, d)
  | (_, .crashed) :: _ => (false, d)

def upgradeFrom (keyPath : KeyPath) (old : List (KeyPath × Deletion)) (o : PasswordOutcome) :
    KeyDir → List (KeyPath × KeyVersion) → Bool × KeyDir
  | d, [] => (true, d)
  | d, (path, version) :: rest =>
    match if o.reads version then (d path).load version else none with
    | none => upgradeFrom keyPath old o d rest
    | some key =>
      match d.saveSecretKeyToFile keyPath key.1 (o.saves version) with
      | (true, d') => d'.deleteFiles old
      | (false, d') => upgradeFrom keyPath old o d' rest

def upgradeKey (type : KeyFileType) (o : PasswordOutcome) : Bool × KeyDir :=
  if type.oldKeyPaths.all fun old => (d old.1).isEmpty then (true, d)
  else
    upgradeFrom type.keyFile
      ((type.oldKeyPaths.map Prod.fst).zip [o.firstDelete, o.secondDelete]) o d type.oldKeyPaths

def loadSecretKeyFromFile (f : KeyFile) (reads : Bool) : List UInt8 :=
  match if reads then f.load .v2 else none with
  | none => []
  | some key => if key.1.length ≤ MAX_PASSWORD_SIZE then key.1 else []

def getRdbPassword (type : KeyFileType) (o : PasswordOutcome) :
    Option (List UInt8) × KeyDir :=
  match d.upgradeKey type o with
  | (false, d) => (none, d)
  | (true, d) =>
    if (d type.keyFile).isEmpty then
      match d.saveSecretKeyToFile type.keyFile [] (o.saves .v2) with
      | (false, d) => (some [], d)
      | (true, d) => (some (loadSecretKeyFromFile (d type.keyFile) (o.reads .v2)), d)
    else (some (loadSecretKeyFromFile (d type.keyFile) (o.reads .v2)), d)

def changeKeyFile (renames : Bool) : KeyDir :=
  if renames = false ∨ d .pubKeyV2New = .absent then d
  else Function.update (Function.update d .pubKeyV2 (d .pubKeyV2New)) .pubKeyV2New .absent

def restoreKeyFile (key : List UInt8) (o : RestoreOutcome) : KeyDir :=
  match d.deleteFile .pubKeyV2 o.deleteKey with
  | (false, d) => d
  | (true, d) =>
    match d.deleteFile .pubKeyV2New o.deleteNewKey with
    | (false, d) => d
    | (true, d) => (d.saveSecretKeyToFile .pubKeyV2 key o.save).2

def delKeyFile (type : KeyFileType) (o : Deletion) : KeyDir :=
  (d.deleteFile type.keyFile o).2

end KeyDir

inductive KeyStep where
  | getRdbPassword (type : KeyFileType) (o : PasswordOutcome)
  | changeKeyFile (renames : Bool)
  | restoreKeyFile (key : List UInt8) (o : RestoreOutcome)
  | delKeyFile (type : KeyFileType) (o : Deletion)

variable (d : KeyDir)

def KeyStep.installs : KeyStep → Option SecretKey
  | .changeKeyFile renames => if renames then (d .pubKeyV2New).load .v2 else none
  | .restoreKeyFile key o =>
    if o.deleteKey = .crashed ∨ o.deleteNewKey = .crashed then none else o.save.saved key
  | .getRdbPassword _ _ | .delKeyFile _ _ => none

def KeyStep.generates : KeyStep → Bool
  | .getRdbPassword .pubKeyFile o =>
    let (alive, d) := d.upgradeKey .pubKeyFile o
    alive && (d .pubKeyV2).isEmpty && ((o.saves .v2).saved []).isSome
  | _ => false

structure KeyRun where
  dir : KeyDir
  installed : Option SecretKey

namespace KeyRun

def call (d : KeyDir) : KeyStep → Option (List UInt8) × KeyDir
  | .getRdbPassword type o => d.getRdbPassword type o
  | .changeKeyFile renames => (none, d.changeKeyFile renames)
  | .restoreKeyFile key o => (none, d.restoreKeyFile key o)
  | .delKeyFile type o => (none, d.delKeyFile type o)

def step (r : KeyRun) (c : KeyStep) : Option (List UInt8) × KeyRun :=
  ((call r.dir c).1,
    ⟨(call r.dir c).2, (c.installs r.dir).or (if c.generates r.dir then none else r.installed)⟩)

end KeyRun

namespace KeyDir
variable {d d' : KeyDir} {path q : KeyPath} {type : KeyFileType}

def NoOldKey (d : KeyDir) : Prop := (d .pubKey).load .v0 = none ∧ (d .pubKeyV1).load .v1 = none

theorem saveSecretKeyToFile_cases (d : KeyDir) (path : KeyPath) (workKey : List UInt8)
    (o : SaveOutcome) :
    (∃ key, o.saved workKey = some key ∧
      d.saveSecretKeyToFile path workKey o = (true, Function.update d path (.packed .v2 key))) ∨
    (o.saved workKey = none ∧ ∃ f,
      d.saveSecretKeyToFile path workKey o = (false, Function.update d path f) ∧
        ∀ {version key}, f.load version = some key → (d path).load version = some key) := by
  unfold SaveOutcome.saved saveSecretKeyToFile
  dsimp only
  generalize (if workKey = [] then o.random else workKey) = key
  have hsame {b : Bool} : (b, d) = (b, Function.update d path (d path)) := by
    rw [Function.update_eq_self]
  by_cases hkey : key = []
  · simp only [dif_pos hkey]
    exact .inr ⟨trivial, _, hsame, id⟩
  by_cases henc : o.encrypts = false
  · simp only [dif_neg hkey, if_pos henc]
    exact .inr ⟨trivial, _, hsame, id⟩
  simp only [dif_neg hkey, if_neg henc]
  cases o.disk with
  | notOpened => exact .inr ⟨rfl, _, hsame, id⟩
  | torn t => exact .inr ⟨rfl, _, rfl, Torn.load_leaves⟩
  | written => exact .inl ⟨⟨key, hkey⟩, rfl, rfl⟩

theorem saveSecretKeyToFile_frame (workKey : List UInt8) (o : SaveOutcome) (hq : q ≠ path) :
    (d.saveSecretKeyToFile path workKey o).2 q = d q := by
  rcases d.saveSecretKeyToFile_cases path workKey o with ⟨key, _, h⟩ | ⟨_, f, h, _⟩ <;> rw [h] <;>
    exact Function.update_of_ne hq _ _

theorem deleteFiles_frame (hq : ∀ p ∈ old, q ≠ p.1) : (d.deleteFiles old).2 q = d q := by
  induction old generalizing d with
  | nil => rfl
  | cons p old ih =>
    obtain ⟨path, o⟩ := p
    cases o with
    | done =>
      rw [deleteFiles, ih fun p hp => hq p (List.mem_cons_of_mem _ hp)]
      exact Function.update_of_ne (hq _ List.mem_cons_self) _ _
    | failed | crashed => rfl

variable {o : PasswordOutcome}

theorem upgradeFrom_frame (hkey : q ≠ keyPath) (hq : ∀ p ∈ old, q ≠ p.1) :
    (upgradeFrom keyPath old o d rest).2 q = d q := by
  induction rest generalizing d with
  | nil => rfl
  | cons p rest ih =>
    obtain ⟨path, version⟩ := p
    unfold upgradeFrom
    split
    · exact ih
    next key _ =>
      have hsave := saveSecretKeyToFile_frame (d := d) key.1 (o.saves version) hkey
      split
      next heq =>
        rw [heq] at hsave
        rw [deleteFiles_frame hq, ← hsave]
      next heq =>
        rw [heq] at hsave
        rw [ih, ← hsave]

theorem upgradeKey_frame (hkey : q ≠ type.keyFile)
    (hq : ∀ p ∈ type.oldKeyPaths, q ≠ p.1) : (d.upgradeKey type o).2 q = d q := by
  unfold upgradeKey
  split
  · rfl
  · refine upgradeFrom_frame hkey fun p hp => ?_
    obtain ⟨old, hold, hpath⟩ := List.mem_map.mp (List.of_mem_zip hp).1
    exact hpath ▸ hq old hold

theorem getRdbPassword_frame (hkey : q ≠ type.keyFile)
    (hq : ∀ p ∈ type.oldKeyPaths, q ≠ p.1) : (d.getRdbPassword type o).2 q = d q := by
  have hup : (d.upgradeKey type o).2 q = d q := upgradeKey_frame hkey hq
  unfold getRdbPassword
  split
  next heq =>
    rw [heq] at hup
    exact hup
  next d' heq =>
    rw [heq] at hup
    have hsave := saveSecretKeyToFile_frame (d := d') [] (o.saves .v2) hkey
    split
    · split <;> rename_i heq <;> rw [heq] at hsave <;> exact hsave.trans hup
    · exact hup

def Stored (d : KeyDir) (path : KeyPath) (key : List UInt8) : Prop :=
  ∃ k : SecretKey, (d path).load .v2 = some k ∧ k.1 = key

instance (d : KeyDir) (path : KeyPath) (key : List UInt8) : Decidable (d.Stored path key) :=
  decidable_of_iff (((d path).load .v2).map Subtype.val = some key) Option.map_eq_some_iff

theorem stored_of_load (h : some (loadSecretKeyFromFile (d path) reads) = some bytes)
    (hne : bytes ≠ []) : d.Stored path bytes := by
  have hload := Option.some.inj h
  unfold loadSecretKeyFromFile at hload
  cases reads with
  | false => exact absurd hload.symm hne
  | true =>
    cases hk : (d path).load .v2 with
    | none =>
      simp only [hk, if_true] at hload
      exact absurd hload.symm hne
    | some k =>
      simp only [hk, if_true] at hload
      split at hload
      · exact ⟨k, hk, hload⟩
      · exact absurd hload.symm hne

theorem stored_of_getRdbPassword (h : (d.getRdbPassword type o).1 = some bytes) (hne : bytes ≠ []) :
    (d.getRdbPassword type o).2.Stored type.keyFile bytes := by
  unfold getRdbPassword at h ⊢
  obtain ⟨alive, d', hup⟩ : ∃ alive d', d.upgradeKey type o = (alive, d') := ⟨_, _, rfl⟩
  rw [hup] at h ⊢
  cases alive with
  | false => exact nomatch h
  | true =>
    dsimp only at h ⊢
    split at h
    next hempty =>
      rw [if_pos hempty]
      obtain ⟨saved, d'', hsave⟩ : ∃ saved d'',
        d'.saveSecretKeyToFile type.keyFile [] (o.saves .v2) = (saved, d'') := ⟨_, _, rfl⟩
      rw [hsave] at h ⊢
      cases saved with
      | false => exact absurd (Option.some.inj h).symm hne
      | true => exact stored_of_load h hne
    next hempty =>
      rw [if_neg hempty]
      exact stored_of_load h hne

theorem upgradeKey_of_noOldKey (h : d.NoOldKey) (o : PasswordOutcome) :
    d.upgradeKey .pubKeyFile o = (true, d) := by
  unfold upgradeKey
  split
  · rfl
  · simp [KeyFileType.oldKeyPaths, upgradeFrom, h.1, h.2]

theorem changeKeyFile_of_ne (h : d .pubKeyV2New ≠ .absent) :
    d.changeKeyFile true =
      Function.update (Function.update d .pubKeyV2 (d .pubKeyV2New)) .pubKeyV2New .absent := by
  simp [changeKeyFile, h]

theorem deleteFile_fst {o : Deletion} (h : o ≠ .crashed) :
    d.deleteFile path o = (true, (d.deleteFile path o).2) := by
  cases o with
  | done | failed => rfl
  | crashed => exact absurd rfl h

theorem restoreKeyFile_of_alive {o : RestoreOutcome} (hkey : o.deleteKey ≠ .crashed)
    (hnew : o.deleteNewKey ≠ .crashed) :
    d.restoreKeyFile key o =
      (((d.deleteFile .pubKeyV2 o.deleteKey).2.deleteFile .pubKeyV2New
        o.deleteNewKey).2.saveSecretKeyToFile .pubKeyV2 key o.save).2 := by
  unfold restoreKeyFile
  rw [deleteFile_fst hkey]
  dsimp only
  rw [deleteFile_fst hnew]

theorem deleteFile_frame {o : Deletion} (hq : q ≠ path) : (d.deleteFile path o).2 q = d q := by
  cases o with
  | done => exact Function.update_of_ne hq _ _
  | failed | crashed => rfl

theorem deleteFile_cases (d : KeyDir) (path : KeyPath) (o : Deletion) :
    ∃ b, d.deleteFile path o = (b, d) ∨
      d.deleteFile path o = (b, Function.update d path .absent) := by
  cases o with
  | done => exact ⟨true, .inr rfl⟩
  | failed => exact ⟨true, .inl rfl⟩
  | crashed => exact ⟨false, .inl rfl⟩

structure Holds (d : KeyDir) (key : SecretKey) : Prop where
  noOldKey : d.NoOldKey
  size : key.1.length ≤ MAX_PASSWORD_SIZE
  only : ∀ {k}, (d .pubKeyV2).load .v2 = some k → k = key

namespace Holds
variable {key : SecretKey}

theorem mono (h : d.Holds key) (hv0 : d' .pubKey = d .pubKey) (hv1 : d' .pubKeyV1 = d .pubKeyV1)
    (hload : ∀ {k}, (d' .pubKeyV2).load .v2 = some k → (d .pubKeyV2).load .v2 = some k) :
    d'.Holds key :=
  ⟨⟨hv0 ▸ h.noOldKey.1, hv1 ▸ h.noOldKey.2⟩, h.size, fun hk => h.only (hload hk)⟩

theorem absent (h : d.Holds key) (hv0 : path ≠ .pubKey) (hv1 : path ≠ .pubKeyV1) :
    Holds (Function.update d path .absent) key := by
  refine h.mono (Function.update_of_ne hv0.symm _ _) (Function.update_of_ne hv1.symm _ _) ?_
  intro k hk
  by_cases hpath : path = .pubKeyV2
  · subst hpath
    rw [Function.update_self] at hk
    exact nomatch hk
  · rwa [Function.update_of_ne (Ne.symm hpath)] at hk

theorem deleteFile (h : d.Holds key) (type : KeyFileType) (o : Deletion) :
    (d.deleteFile type.keyFile o).2.Holds key := by
  obtain ⟨b, heq | heq⟩ := d.deleteFile_cases type.keyFile o <;> rw [heq]
  · exact h
  · exact h.absent (by cases type <;> decide) (by cases type <;> decide)

theorem save_fails (h : d.Holds key) {o : SaveOutcome} (hsaved : o.saved workKey = none) :
    (d.saveSecretKeyToFile .pubKeyV2 workKey o).2.Holds key := by
  rcases d.saveSecretKeyToFile_cases .pubKeyV2 workKey o with ⟨k, hk, _⟩ | ⟨_, f, heq, hload⟩
  · exact nomatch hk.symm.trans hsaved
  · rw [heq]
    exact h.mono rfl rfl fun hk => hload hk

end Holds

theorem holds_of_packed (hold : d.NoOldKey) (hsize : key.1.length ≤ MAX_PASSWORD_SIZE)
    (hv0 : d' .pubKey = d .pubKey) (hv1 : d' .pubKeyV1 = d .pubKeyV1)
    (hkey : (d' .pubKeyV2).load .v2 = some key) : d'.Holds key :=
  ⟨⟨hv0 ▸ hold.1, hv1 ▸ hold.2⟩, hsize, fun hk => Option.some.inj (hk.symm.trans hkey)⟩

def FindsReadable (d : KeyDir) (o : PasswordOutcome) : Prop :=
  o.reads .v2 ∧ (((d.upgradeKey .pubKeyFile o).2 .pubKeyV2).load .v2).isSome

theorem Holds.getRdbPassword {key : SecretKey} (h : d.Holds key)
    (hfinds : d.FindsReadable o) : (d.getRdbPassword .pubKeyFile o).1 = some key.1 := by
  obtain ⟨hreads, hload⟩ := hfinds
  rw [upgradeKey_of_noOldKey h.noOldKey] at hload
  obtain ⟨k, hk⟩ := Option.isSome_iff_exists.mp hload
  have hempty : ¬(d .pubKeyV2).isEmpty := fun hempty =>
    nomatch (KeyFile.load_of_isEmpty hempty .v2).symm.trans hk
  dsimp only at hk
  unfold KeyDir.getRdbPassword
  simp only [upgradeKey_of_noOldKey h.noOldKey, loadSecretKeyFromFile, KeyFileType.keyFile, hreads,
    if_true]
  obtain rfl := h.only hk
  rw [if_neg hempty, hk]
  simp only [if_pos h.size]

variable {key : SecretKey}

theorem holds_of_installs {c : KeyStep} (h : c.installs d = some key) (hold : d.NoOldKey)
    (hsize : key.1.length ≤ MAX_PASSWORD_SIZE) : (KeyRun.call d c).2.Holds key := by
  cases c with
  | changeKeyFile renames =>
    cases renames with
    | false => exact nomatch h
    | true =>
      have hload : (d .pubKeyV2New).load .v2 = some key := h
      have hne : d .pubKeyV2New ≠ .absent := fun habsent => by simp [habsent, KeyFile.load] at hload
      dsimp only [KeyRun.call]
      rw [changeKeyFile_of_ne hne]
      exact holds_of_packed hold hsize rfl rfl hload
  | restoreKeyFile k o =>
    dsimp only [KeyStep.installs] at h
    split at h
    · exact nomatch h
    next hcrash =>
      rw [not_or] at hcrash
      dsimp only [KeyRun.call]
      rw [restoreKeyFile_of_alive hcrash.1 hcrash.2]
      rcases saveSecretKeyToFile_cases _ .pubKeyV2 k o.save with ⟨saved, hsaved, heq⟩ | ⟨hno, _⟩
      · rw [heq]
        obtain rfl := Option.some.inj (hsaved.symm.trans h)
        have hframe {q : KeyPath} (hq : q ≠ .pubKeyV2New ∧ q ≠ .pubKeyV2) :
            ((d.deleteFile .pubKeyV2 o.deleteKey).2.deleteFile .pubKeyV2New
              o.deleteNewKey).2 q = d q :=
          (deleteFile_frame hq.1).trans (deleteFile_frame hq.2)
        exact holds_of_packed hold hsize (hframe (by decide)) (hframe (by decide)) rfl
      · exact nomatch hno.symm.trans h
  | getRdbPassword | delKeyFile => exact nomatch h

theorem Holds.call {c : KeyStep} (h : d.Holds key) (hnone : c.installs d = none)
    (hgen : c.generates d = false) : (KeyRun.call d c).2.Holds key := by
  cases c with
  | changeKeyFile renames =>
    cases renames with
    | false => exact h
    | true =>
      have hload : (d .pubKeyV2New).load .v2 = none := hnone
      dsimp only [KeyRun.call]
      by_cases habsent : d .pubKeyV2New = .absent
      · simp only [changeKeyFile, habsent, or_true, if_true]
        exact h
      · rw [changeKeyFile_of_ne habsent]
        exact h.mono rfl rfl fun hk => nomatch hload.symm.trans hk
  | restoreKeyFile k o =>
    dsimp only [KeyStep.installs, KeyRun.call] at hnone ⊢
    by_cases hkey : o.deleteKey = .crashed
    · rw [restoreKeyFile, hkey]
      exact h
    by_cases hnew : o.deleteNewKey = .crashed
    · rw [restoreKeyFile, deleteFile_fst hkey, hnew]
      exact h.deleteFile .pubKeyFile o.deleteKey
    · rw [if_neg (not_or.mpr ⟨hkey, hnew⟩)] at hnone
      rw [restoreKeyFile_of_alive hkey hnew]
      exact ((h.deleteFile .pubKeyFile _).deleteFile .pubKeyFileNewKey _).save_fails hnone
  | delKeyFile type o => exact h.deleteFile type o
  | getRdbPassword type o =>
    cases type with
    | pubKeyFileNewKey =>
      have hframe {q : KeyPath} (hq : q ≠ .pubKeyV2New ∧ q ≠ .pubKeyNew) :
          (d.getRdbPassword .pubKeyFileNewKey o).2 q = d q :=
        getRdbPassword_frame hq.1 (by simp [KeyFileType.oldKeyPaths, hq.2])
      refine h.mono (hframe (by decide)) (hframe (by decide)) fun hk => ?_
      rwa [KeyRun.call, hframe (by decide)] at hk
    | pubKeyFile =>
      simp only [KeyStep.generates, upgradeKey_of_noOldKey h.noOldKey, Bool.true_and] at hgen
      simp only [KeyRun.call, KeyDir.getRdbPassword, upgradeKey_of_noOldKey h.noOldKey]
      split
      next hempty =>
        have hsaved : (o.saves .v2).saved [] = none := by
          rw [show (d .pubKeyV2).isEmpty from hempty] at hgen
          simpa using hgen
        have hholds : (d.saveSecretKeyToFile KeyFileType.pubKeyFile.keyFile []
            (o.saves .v2)).2.Holds key := h.save_fails hsaved
        split <;> rename_i heq <;> rw [heq] at hholds <;> exact hholds
      · exact h

end KeyDir

def KeyStep.InstallsAlone (c : KeyStep) : Prop :=
  ∀ key, c.installs d = some key → d.NoOldKey ∧ key.1.length ≤ MAX_PASSWORD_SIZE

namespace KeyRun

/-- A call of `GetRdbPassword` that finds the key file readable and returns gives the key that was
installed last. -/
def ReturnsInstalled (t : Transition KeyRun KeyStep (Option (List UInt8))) : Prop :=
  ∀ o key bytes, t.call = .getRdbPassword .pubKeyFile o → t.pre.installed = some key →
    t.pre.dir.FindsReadable o → t.ret = some bytes → bytes = key.1

def Inv (r : KeyRun) : Prop := ∀ key, r.installed = some key → r.dir.Holds key

theorem Inv.step {r : KeyRun} (h : r.Inv) (halone : c.InstallsAlone r.dir) : (r.step c).2.Inv := by
  intro key hkey
  cases hinst : c.installs r.dir with
  | some k =>
    have hnew : some k = some key := by simpa [KeyRun.step, hinst] using hkey
    obtain ⟨hold, hsize⟩ := halone k hinst
    exact Option.some.inj hnew ▸ KeyDir.holds_of_installs hinst hold hsize
  | none =>
    by_cases hgen : c.generates r.dir
    · simp [KeyRun.step, hinst, hgen] at hkey
    · have hold : r.installed = some key := by simpa [KeyRun.step, hinst, hgen] using hkey
      exact (h key hold).call hinst (Bool.not_eq_true _ ▸ hgen)

theorem Inv.returnsInstalled (h : r.Inv) (c : KeyStep) :
    ReturnsInstalled (transition KeyRun.step r c) := by
  rintro o key bytes rfl hinst hfinds hret
  have hpassword := (h key hinst).getRdbPassword hfinds
  exact Option.some.inj (hret.symm.trans hpassword)

theorem returnsInstalled_of_installsAlone (d : KeyDir) (calls : List KeyStep)
    (h : ∀ t ∈ trace step ⟨d, none⟩ calls, t.call.InstallsAlone t.pre.dir) :
    ∀ t ∈ trace step ⟨d, none⟩ calls, ReturnsInstalled t :=
  trace_forall (I := Inv) (G := fun r (c : KeyStep) => c.InstallsAlone r.dir)
    (fun _ c hinv halone => ⟨hinv.step halone, hinv.returnsInstalled c⟩)
    (fun _ hkey => nomatch hkey) h

def oldKey : SecretKey := ⟨[1], by decide⟩

def newKey : SecretKey := ⟨[2], by decide⟩

def passwordOutcome (firstDelete : Deletion) : PasswordOutcome where
  reads _ := true
  saves _ := ⟨newKey.1, true, .written⟩
  firstDelete := firstDelete
  secondDelete := .done

theorem getRdbPassword_after_failed_delete :
    let d : KeyDir := fun path => if path = .pubKey then .packed .v0 oldKey else .absent
    let r := final step ⟨d, none⟩
      [.getRdbPassword .pubKeyFile (passwordOutcome .failed),
        .getRdbPassword .pubKeyFileNewKey (passwordOutcome .done), .changeKeyFile true]
    let o := passwordOutcome .done
    r.installed = some newKey ∧ r.dir .pubKeyV2 = .packed .v2 newKey ∧ r.dir.FindsReadable o ∧
      (r.step (.getRdbPassword .pubKeyFile o)).1 = some oldKey.1 ∧
      (r.step (.getRdbPassword .pubKeyFile o)).2.dir .pubKeyV2 = .packed .v2 oldKey ∧
      ¬ ReturnsInstalled (transition step r (.getRdbPassword .pubKeyFile o)) := by
  intro d r o
  have hfinds : r.dir.FindsReadable o := ⟨rfl, rfl⟩
  refine ⟨rfl, rfl, hfinds, rfl, rfl, fun h => ?_⟩
  exact absurd (h o newKey oldKey.1 rfl rfl hfinds rfl) (by decide)

theorem returnsInstalled_of_installsAlone_change :
    let d : KeyDir := fun path => if path = .pubKeyV2New then .packed .v2 newKey else .absent
    let calls := [.changeKeyFile true, .getRdbPassword .pubKeyFile (passwordOutcome .done)]
    (trace step ⟨d, none⟩ calls).map (·.ret) = [none, some newKey.1] ∧
      ∀ t ∈ trace step ⟨d, none⟩ calls, ReturnsInstalled t := by
  intro d calls
  refine ⟨rfl, returnsInstalled_of_installsAlone d calls fun t ht => ?_⟩
  rcases List.mem_pair.mp ht with rfl | rfl
  · intro key hkey
    obtain rfl : newKey = key := Option.some.inj hkey
    exact ⟨⟨rfl, rfl⟩, by decide⟩
  · exact fun _ hkey => nomatch hkey

end KeyRun

end RelationalStore
