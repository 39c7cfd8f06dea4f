import RelationalStore.Rdb.Errno
import RelationalStore.Rdb.SecurityManager

/-! # Opening an encrypted database

The connections of a store are opened with the keys of one `RdbStoreConfig`. -/

namespace RelationalStore

structure EncryptStore where
  isEncrypt : Bool
  isPlainText : Bool
  isMemoryRdb : Bool
  encryptKey : List UInt8
  newEncryptKey : List UInt8
  dir : KeyDir
  real : List UInt8

structure GenerateOutcome where
  init : Except RdbError Unit
  password : PasswordOutcome
  newPassword : PasswordOutcome

structure EncryptOpen where
  isWriter : Bool
  wrongKey : RdbError
  rekeys : Bool
  serviceKeys : Option (List (List UInt8))

structure EncryptAnswer where
  errCode : Except RdbError Unit
  rekey : Option (List UInt8)

def KeyDir.isKeyFileExists (d : KeyDir) (type : KeyFileType) : Bool :=
  !(type.oldKeyPaths.map Prod.fst ++ [type.keyFile]).all fun path => (d path).isEmpty

namespace EncryptStore

variable (s : EncryptStore)

def generateEncryptedKey (o : GenerateOutcome) :
    Except RdbError Unit × EncryptStore :=
  if s.isEncrypt = false ∨ s.encryptKey ≠ [] ∨ s.isPlainText then (.ok (), s)
  else
    match o.init with
    | .error e => (.error e, s)
    | .ok _ =>
      let (password, dir) := s.dir.getRdbPassword .pubKeyFile o.password
      let s := { s with encryptKey := password.getD [], dir }
      if s.dir.isKeyFileExists .pubKeyFileNewKey then
        let (password, dir) := s.dir.getRdbPassword .pubKeyFileNewKey o.newPassword
        let newPassword := password.getD []
        (.ok (), { s with
          newEncryptKey := if newPassword = [] then s.newEncryptKey else newPassword, dir })
      else (.ok (), s)

def setEncryptKey (c : EncryptOpen) (key : List UInt8) : Except RdbError Unit :=
  if key = [] then .error .invalidSecretKey
  else if key = s.real then .ok ()
  else .error c.wrongKey

def changeEncryptKey : EncryptStore :=
  let s := { s with dir := s.dir.changeKeyFile true }
  if s.newEncryptKey = [] then s
  else { s with encryptKey := s.newEncryptKey, newEncryptKey := [] }

def restoreEncryptKey (key : List UInt8) : EncryptStore :=
  { s with
    dir := s.dir.restoreKeyFile key ⟨.done, .done, ⟨[], true, .written⟩⟩
    newEncryptKey := s.newEncryptKey.map fun _ => 0
    encryptKey := key }

def resetKey (c : EncryptOpen) : Option (List UInt8) × EncryptStore :=
  if c.isWriter = false then (none, s)
  else if c.rekeys = false then
    (some s.newEncryptKey, { s with dir := s.dir.delKeyFile .pubKeyFileNewKey .done })
  else (some s.newEncryptKey, changeEncryptKey { s with real := s.newEncryptKey })

def tryServiceKeys (s : EncryptStore) (c : EncryptOpen) :
    RdbError → List (List UInt8) → Except RdbError Unit × EncryptStore
  | e, [] => (.error e, s)
  | _, key :: keys =>
    match s.setEncryptKey c key with
    | .ok _ => (.ok (), s.restoreEncryptKey key)
    | .error e => s.tryServiceKeys c e keys

def setServiceKey (c : EncryptOpen) (e : RdbError) :
    Except RdbError Unit × EncryptStore :=
  match c.serviceKeys with
  | none => (.error e, s)
  | some keys => s.tryServiceKeys c e keys

def setEncrypt (c : EncryptOpen) : EncryptAnswer × EncryptStore :=
  if s.isPlainText ∨ (s.isEncrypt = false ∧ s.encryptKey = []) then (⟨.ok (), none⟩, s)
  else if s.isMemoryRdb then (⟨.error .notSupport, none⟩, s)
  else
    match s.setEncryptKey c s.encryptKey with
    | .ok _ =>
      if s.newEncryptKey = [] then (⟨.ok (), none⟩, s)
      else (⟨.ok (), (s.resetKey c).1⟩, (s.resetKey c).2)
    | .error e =>
      match if s.newEncryptKey = [] then .error e else s.setEncryptKey c s.newEncryptKey with
      | .ok _ => (⟨.ok (), none⟩, s.changeEncryptKey)
      | .error e => (⟨(s.setServiceKey c e).1, none⟩, (s.setServiceKey c e).2)

end EncryptStore

namespace KeyDir
variable {d : KeyDir} {key : List UInt8}

theorem Stored.changeKeyFile (h : d.Stored .pubKeyV2New key) :
    (d.changeKeyFile true).Stored .pubKeyV2 key := by
  obtain ⟨k, hload, hk⟩ := h
  have hne : d .pubKeyV2New ≠ .absent := fun habsent => by simp [habsent, KeyFile.load] at hload
  rw [changeKeyFile_of_ne hne]
  exact ⟨k, hload, hk⟩

theorem stored_restoreKeyFile (hkey : key ≠ []) :
    (d.restoreKeyFile key ⟨.done, .done, ⟨[], true, .written⟩⟩).Stored .pubKeyV2 key := by
  refine ⟨⟨key, hkey⟩, ?_, rfl⟩
  simp only [restoreKeyFile, deleteFile, saveSecretKeyToFile, if_neg hkey, dif_neg hkey]
  exact KeyFile.load_packed _ _

end KeyDir

structure EncryptStore.Loaded (s : EncryptStore) : Prop where
  isEncrypt : s.isEncrypt
  isPlainText : s.isPlainText = false
  encryptKey : s.encryptKey ≠ [] → s.dir.Stored .pubKeyV2 s.encryptKey
  newEncryptKey : s.newEncryptKey ≠ [] → s.dir.Stored .pubKeyV2New s.newEncryptKey

def EncryptOpen.KeepsInStep (s : EncryptStore) (c : EncryptOpen) : Prop :=
  (s.encryptKey = s.real → s.newEncryptKey ≠ [] → c.isWriter → c.rekeys) ∧
  (s.encryptKey ≠ s.real → s.newEncryptKey ≠ [] → s.newEncryptKey ≠ s.real →
    ∀ keys, c.serviceKeys = some keys → s.real ∉ keys)

namespace EncryptStore
variable {s : EncryptStore} {c : EncryptOpen}

theorem setEncryptKey_ok : s.setEncryptKey c key = .ok u ↔ key ≠ [] ∧ key = s.real := by
  unfold setEncryptKey
  by_cases hnil : key = []
  · simp [hnil]
  · by_cases hreal : key = s.real <;> simp [hnil, hreal]

variable (e : RdbError)

theorem tryServiceKeys_cases (keys : List (List UInt8)) :
    (s.real ≠ [] ∧ s.real ∈ keys ∧
      s.tryServiceKeys c e keys = (.ok (), s.restoreEncryptKey s.real)) ∨
    ∃ e', s.tryServiceKeys c e keys = (.error e', s) := by
  induction keys generalizing e with
  | nil => exact .inr ⟨e, rfl⟩
  | cons key keys ih =>
    unfold tryServiceKeys
    cases hkey : s.setEncryptKey c key with
    | ok u =>
      obtain ⟨hne, rfl⟩ := setEncryptKey_ok.mp hkey
      exact .inl ⟨hne, List.mem_cons_self, rfl⟩
    | error e' =>
      rcases ih e' with ⟨hne, hmem, heq⟩ | herr
      · exact .inl ⟨hne, List.mem_cons_of_mem _ hmem, heq⟩
      · exact .inr herr

theorem setServiceKey_cases :
    (s.real ≠ [] ∧ (∃ keys, c.serviceKeys = some keys ∧ s.real ∈ keys) ∧
      s.setServiceKey c e = (.ok (), s.restoreEncryptKey s.real)) ∨
    ∃ e', s.setServiceKey c e = (.error e', s) := by
  unfold setServiceKey
  cases hkeys : c.serviceKeys with
  | none => exact .inr ⟨e, rfl⟩
  | some keys =>
    rcases s.tryServiceKeys_cases (c := c) e keys with ⟨hne, hmem, heq⟩ | herr
    · exact .inl ⟨hne, ⟨keys, rfl, hmem⟩, heq⟩
    · exact .inr herr

inductive Exit (s : EncryptStore) (c : EncryptOpen) : EncryptAnswer × EncryptStore → Prop
  | failed (e : RdbError) : Exit s c (⟨.error e, none⟩, s)
  | key (hkey : s.encryptKey ≠ []) (hreal : s.encryptKey = s.real) : Exit s c (⟨.ok (), none⟩, s)
  | reset (hreal : s.encryptKey = s.real) (hnew : s.newEncryptKey ≠ [])
    (hwriter : c.isWriter)
      (hrekeys : c.rekeys) :
    Exit s c (⟨.ok (), some s.newEncryptKey⟩, changeEncryptKey { s with real := s.newEncryptKey })
  | resetFailed (hkey : s.encryptKey ≠ []) (hreal : s.encryptKey = s.real)
      (hnew : s.newEncryptKey ≠ []) (hwriter : c.isWriter) (hrekeys : c.rekeys = false) :
    Exit s c (⟨.ok (), some s.newEncryptKey⟩,
      { s with dir := s.dir.delKeyFile .pubKeyFileNewKey .done })
  | newKey (hnew : s.newEncryptKey ≠ []) (hreal : s.newEncryptKey = s.real) :
    Exit s c (⟨.ok (), none⟩, s.changeEncryptKey)
  | serviceKey (hne : s.real ≠ []) (hkey : s.encryptKey ≠ s.real)
      (hnew : s.newEncryptKey ≠ s.real)
      (hservice : ∃ keys, c.serviceKeys = some keys ∧ s.real ∈ keys) :
    Exit s c (⟨.ok (), none⟩, s.restoreEncryptKey s.real)

theorem resetKey_exit (hkey : s.encryptKey ≠ []) (hreal : s.encryptKey = s.real)
    (hnew : s.newEncryptKey ≠ []) : Exit s c (⟨.ok (), (s.resetKey c).1⟩, (s.resetKey c).2) := by
  unfold resetKey
  split
  · exact .key hkey hreal
  next hwriter =>
    rw [Bool.not_eq_false] at hwriter
    split
    next hrekeys => exact .resetFailed hkey hreal hnew hwriter hrekeys
    next hrekeys => exact .reset hreal hnew hwriter (Bool.not_eq_false _ ▸ hrekeys)

theorem setServiceKey_exit (hkey : s.encryptKey = [] ∨ s.encryptKey ≠ s.real)
    (hnew : s.newEncryptKey = [] ∨ s.newEncryptKey ≠ s.real) :
    Exit s c (⟨(s.setServiceKey c e).1, none⟩, (s.setServiceKey c e).2) := by
  rcases s.setServiceKey_cases (c := c) e with ⟨hne, hservice, heq⟩ | ⟨e', heq⟩ <;> rw [heq]
  · have hne' {key : List UInt8} (h : key = [] ∨ key ≠ s.real) : key ≠ s.real := by
      rcases h with rfl | h
      · exact hne.symm
      · exact h
    exact .serviceKey hne (hne' hkey) (hne' hnew) hservice
  · exact .failed e'

theorem setEncrypt_exit (hencrypt : s.isEncrypt) (hplain : s.isPlainText = false) :
    Exit s c (s.setEncrypt c) := by
  unfold setEncrypt
  rw [if_neg (by simp [hencrypt, hplain])]
  split
  · exact .failed _
  have hfails {key : List UInt8} {e : RdbError} (h : s.setEncryptKey c key = .error e) :
      key = [] ∨ key ≠ s.real := by
    by_contra hno
    rw [not_or, not_not] at hno
    exact nomatch h.symm.trans (setEncryptKey_ok (u := ()).mpr hno)
  cases hkey : s.setEncryptKey c s.encryptKey with
  | ok u =>
    obtain ⟨hne, hreal⟩ := setEncryptKey_ok.mp hkey
    dsimp only
    split
    · exact .key hne hreal
    next hnew => exact resetKey_exit hne hreal hnew
  | error e =>
    dsimp only
    by_cases hnil : s.newEncryptKey = []
    · simp only [if_pos hnil]
      exact setServiceKey_exit e (hfails hkey) (.inl hnil)
    · simp only [if_neg hnil]
      cases hnew : s.setEncryptKey c s.newEncryptKey with
      | ok u => exact .newKey hnil (setEncryptKey_ok.mp hnew).2
      | error e => exact setServiceKey_exit e (hfails hkey) (hfails hnew)

theorem Loaded.changeEncryptKey (h : s.Loaded) (hnew : s.newEncryptKey ≠ []) :
    s.changeEncryptKey.Loaded ∧ s.changeEncryptKey.dir.Stored .pubKeyV2 s.newEncryptKey ∧
      s.changeEncryptKey.real = s.real := by
  have hstored : (s.dir.changeKeyFile true).Stored .pubKeyV2 s.newEncryptKey :=
    (h.newEncryptKey hnew).changeKeyFile
  have heq : s.changeEncryptKey = { s with
      dir := s.dir.changeKeyFile true, encryptKey := s.newEncryptKey, newEncryptKey := [] } :=
    if_neg hnew
  rw [heq]
  exact ⟨⟨h.isEncrypt, h.isPlainText, fun _ => hstored, fun hno => absurd rfl hno⟩, hstored, rfl⟩

def RekeysStored (t : Transition EncryptStore EncryptOpen EncryptAnswer) : Prop :=
  ∀ key, t.ret.rekey = some key → t.pre.dir.Stored .pubKeyV2New key

def RealStored (t : Transition EncryptStore EncryptOpen EncryptAnswer) : Prop :=
  t.ret.errCode = .ok () →
    t.post.dir.Stored .pubKeyV2 t.post.real ∨ t.post.dir.Stored .pubKeyV2New t.post.real

theorem Loaded.setEncrypt (h : s.Loaded) (hkeeps : c.KeepsInStep s) :
    (s.setEncrypt c).2.Loaded ∧
      (∀ key, (s.setEncrypt c).1.rekey = some key → s.dir.Stored .pubKeyV2New key) ∧
      ((s.setEncrypt c).1.errCode = .ok () →
        (s.setEncrypt c).2.dir.Stored .pubKeyV2 (s.setEncrypt c).2.real) := by
  obtain ⟨r, hr⟩ : ∃ r, s.setEncrypt c = r := ⟨_, rfl⟩
  have hexit : Exit s c r := hr ▸ setEncrypt_exit h.isEncrypt h.isPlainText
  rw [hr]
  cases hexit with
  | failed e => exact ⟨h, fun _ hno => (nomatch hno), fun hno => (nomatch hno)⟩
  | key hkey hreal =>
    exact ⟨h, fun _ hno => (nomatch hno), fun _ => hreal ▸ h.encryptKey hkey⟩
  | reset hreal hnew hwriter hrekeys =>
    have hloaded : Loaded { s with real := s.newEncryptKey } :=
      ⟨h.isEncrypt, h.isPlainText, h.encryptKey, h.newEncryptKey⟩
    obtain ⟨hchanged, hstored, hkeep⟩ := hloaded.changeEncryptKey hnew
    refine ⟨hchanged, fun key hkey => ?_, fun _ => hkeep ▸ hstored⟩
    exact Option.some.inj hkey ▸ h.newEncryptKey hnew
  | resetFailed hkey hreal hnew hwriter hrekeys =>
    exact nomatch hrekeys.symm.trans (hkeeps.1 hreal hnew hwriter)
  | newKey hnew hreal =>
    obtain ⟨hchanged, hstored, hkeep⟩ := h.changeEncryptKey hnew
    exact ⟨hchanged, fun _ hno => (nomatch hno), fun _ => hkeep ▸ hreal ▸ hstored⟩
  | serviceKey hne hkey hnew hservice =>
    obtain ⟨keys, hkeys, hmem⟩ := hservice
    have hnil : s.newEncryptKey = [] := Decidable.byContradiction fun hpending =>
      hkeeps.2 hkey hpending hnew keys hkeys hmem
    have hstored := KeyDir.stored_restoreKeyFile (d := s.dir) hne
    refine ⟨⟨h.isEncrypt, h.isPlainText, fun _ => hstored, fun hno => ?_⟩,
      fun _ hno => (nomatch hno), fun _ => hstored⟩
    simp [restoreEncryptKey, hnil] at hno

theorem loaded_generateEncryptedKey (isMemoryRdb : Bool) (dir : KeyDir) (real : List UInt8)
    (o : GenerateOutcome) :
    (generateEncryptedKey ⟨true, false, isMemoryRdb, [], [], dir, real⟩ o).2.Loaded := by
  have hgetD {d : KeyDir} {type : KeyFileType} {out : PasswordOutcome}
      (hne : (d.getRdbPassword type out).1.getD [] ≠ []) :
      (d.getRdbPassword type out).2.Stored type.keyFile
        ((d.getRdbPassword type out).1.getD []) := by
    cases hpassword : (d.getRdbPassword type out).1 with
    | none => exact absurd (by rw [hpassword]; rfl) hne
    | some bytes => exact KeyDir.stored_of_getRdbPassword hpassword (by simpa [hpassword] using hne)
  unfold generateEncryptedKey
  rw [if_neg (by simp)]
  cases o.init with
  | error e => exact ⟨rfl, rfl, fun hno => absurd rfl hno, fun hno => absurd rfl hno⟩
  | ok u =>
    dsimp only
    split
    · -- the loading of the new key does not touch the key file
      refine ⟨rfl, rfl, fun hne => ?_, fun hne => ?_⟩
      · have hframe : ((dir.getRdbPassword .pubKeyFile o.password).2.getRdbPassword
            .pubKeyFileNewKey o.newPassword).2 .pubKeyV2 =
            (dir.getRdbPassword .pubKeyFile o.password).2 .pubKeyV2 :=
          KeyDir.getRdbPassword_frame (by decide) (by decide)
        obtain ⟨k, hload, hk⟩ := hgetD hne
        exact ⟨k, (congrArg (·.load .v2) hframe).trans hload, hk⟩
      · dsimp only at hne ⊢
        split at hne
        · exact absurd rfl hne
        next hnil =>
          rw [if_neg hnil]
          exact hgetD hnil
    · exact ⟨rfl, rfl, hgetD, fun hno => absurd rfl hno⟩

theorem rekeysStored_of_keepsInStep (isMemoryRdb : Bool) (dir : KeyDir) (real : List UInt8)
    (o : GenerateOutcome) (opens : List EncryptOpen) :
    let s := (generateEncryptedKey ⟨true, false, isMemoryRdb, [], [], dir, real⟩ o).2
    (∀ t ∈ trace setEncrypt s opens, t.call.KeepsInStep t.pre) →
      ∀ t ∈ trace setEncrypt s opens, RekeysStored t ∧ RealStored t := by
  intro s hkeeps
  refine trace_forall (I := Loaded) (G := fun s (c : EncryptOpen) => c.KeepsInStep s)
    (fun s c h hc => ?_) (loaded_generateEncryptedKey isMemoryRdb dir real o) hkeeps
  obtain ⟨hloaded, hrekey, hreal⟩ := h.setEncrypt hc
  exact ⟨hloaded, hrekey, fun hok => .inl (hreal hok)⟩

def pendingDir : KeyDir
  | .pubKeyV2 => .packed .v2 KeyRun.oldKey
  | .pubKeyV2New => .packed .v2 KeyRun.newKey
  | .pubKey | .pubKeyV1 | .pubKeyNew => .absent

def loads : GenerateOutcome where
  init := .ok ()
  password := ⟨fun _ => true, fun _ => ⟨[], true, .written⟩, .done, .done⟩
  newPassword := ⟨fun _ => true, fun _ => ⟨[], true, .written⟩, .done, .done⟩

theorem real_key_lost :
    let opened (real : List UInt8) : EncryptStore :=
      (generateEncryptedKey ⟨true, false, false, [], [], pendingDir, real⟩ loads).2
    let fails : EncryptOpen := ⟨true, .sqliteCorrupt, false, none⟩
    let asks : EncryptOpen := ⟨true, .sqliteCorrupt, true, some [[3]]⟩
    let resets : EncryptOpen := ⟨true, .sqliteCorrupt, true, none⟩
    let failed := (setEncrypt (opened [1]) fails).2
    let asked := (setEncrypt (opened [3]) asks).2
    (setEncrypt failed resets).1.rekey = some [2] ∧ failed.dir .pubKeyV2New = .absent ∧
      (setEncrypt failed resets).2.real = [2] ∧
      ¬ RekeysStored (transition setEncrypt failed resets) ∧
      ¬ RealStored (transition setEncrypt failed resets) ∧
      (setEncrypt asked resets).1.rekey = some [0] ∧
      (setEncrypt asked resets).2.real = [0] ∧
      ¬ RekeysStored (transition setEncrypt asked resets) ∧
      ¬ RealStored (transition setEncrypt asked resets) := by
  intro opened fails asks resets failed asked
  refine ⟨rfl, rfl, rfl, fun h => ?_, fun h => ?_, rfl, rfl, fun h => ?_, fun h => ?_⟩
  · exact absurd (h [2] rfl) (by decide)
  · exact absurd (h rfl) (by decide)
  · exact absurd (h [0] rfl) (by decide)
  · exact absurd (h rfl) (by decide)

theorem rekeysStored_of_keepsInStep_reset :
    let s := (generateEncryptedKey ⟨true, false, false, [], [], pendingDir, [1]⟩ loads).2
    let opens := [⟨true, .sqliteCorrupt, true, none⟩, ⟨false, .sqliteCorrupt, true, none⟩]
    (trace setEncrypt s opens).map (·.post.real) = [[2], [2]] ∧
      ∀ t ∈ trace setEncrypt s opens, RekeysStored t ∧ RealStored t := by
  intro s opens
  refine ⟨rfl, rekeysStored_of_keepsInStep false pendingDir [1] loads opens fun t ht => ?_⟩
  rcases List.mem_pair.mp ht with rfl | rfl
  · exact ⟨fun _ _ _ => rfl, fun hkey => absurd rfl hkey⟩
  · exact ⟨fun _ hnew => absurd rfl hnew, fun hkey => absurd rfl hkey⟩

end EncryptStore

end RelationalStore
