import RelationalStore.Theory.Find

/-! # The files of a database

The paths of the slave, of the key files and of the lock file are made from that of the database. -/

namespace RelationalStore

open List

namespace SqliteUtils

def dbSuffix : List Char := ".db".toList

def slaveSuffix : List Char := "_slave.db".toList

def corruptedSuffix : List Char := "_master_corrupted.db".toList

def removeSuffix (name : List Char) : List Char :=
  match rfindSub dbSuffix name with
  | none => name
  | some pos => if pos < name.length - dbSuffix.length then name else name.take pos

def replaceSuffix (suffix name : List Char) : List Char :=
  match rfindSub dbSuffix name with
  | none => name ++ suffix
  | some pos =>
    if pos < name.length - dbSuffix.length then name ++ suffix else name.take pos ++ suffix

def getSlavePath : List Char → List Char := replaceSuffix slaveSuffix

def getMasterBackupPath : List Char → List Char := replaceSuffix corruptedSuffix

variable {name path s : List Char}

theorem removeSuffix_append (s : List Char) : removeSuffix (s ++ dbSuffix) = s := by
  rw [removeSuffix, rfindSub_of_suffix (suffix_append s dbSuffix)]
  simp

theorem removeSuffix_of_not_suffix (h : ¬ dbSuffix <:+ name) : removeSuffix name = name := by
  unfold removeSuffix
  split
  · rfl
  next pos hpos =>
    refine if_pos (Nat.lt_of_not_le fun hle => h ?_)
    -- at the end there is room for the suffix only
    have hsub := drop_of_rfindSub hpos
    have hlen := hsub.length_le
    rw [length_drop] at hlen
    have heq := hsub.eq_of_length_le (by rw [length_drop]; omega)
    exact heq ▸ drop_suffix pos name

theorem replaceSuffix_eq (suffix name : List Char) :
    replaceSuffix suffix name = removeSuffix name ++ suffix := by
  unfold replaceSuffix removeSuffix
  split
  · rfl
  · split <;> rfl

theorem getSlavePath_eq (name : List Char) : getSlavePath name = removeSuffix name ++ slaveSuffix :=
  replaceSuffix_eq _ _

theorem getMasterBackupPath_eq (name : List Char) :
    getMasterBackupPath name = removeSuffix name ++ corruptedSuffix :=
  replaceSuffix_eq _ _

theorem removeSuffix_subset (name : List Char) : removeSuffix name ⊆ name := by
  unfold removeSuffix
  split
  · exact List.Subset.refl name
  · split
    · exact List.Subset.refl name
    · exact take_subset _ _

end SqliteUtils

open SqliteUtils

/-! ## The file of the replica backup -/

def getSlaveName (path : List Char) : List Char :=
  match findSub dbSuffix path with
  | none => path ++ slaveSuffix
  | some pos => path.take pos ++ slaveSuffix

section
variable {path : List Char}

theorem length_removeSuffix (path : List Char) :
    path.length ≤ (removeSuffix path).length + dbSuffix.length := by
  by_cases h : dbSuffix <:+ path
  · obtain ⟨s, rfl⟩ := h
    rw [removeSuffix_append, length_append]
  · rw [removeSuffix_of_not_suffix h]
    exact Nat.le_add_right _ _

theorem dbSuffix_infix_dropLast_iff :
    dbSuffix <:+: path.dropLast ↔
      ∃ pos ∈ findSub dbSuffix path, pos + dbSuffix.length < path.length := by
  constructor
  · rintro ⟨u, v, huv⟩
    have hne : path ≠ [] := by
      rintro rfl
      simp [dbSuffix] at huv
    have hpath := dropLast_append_getLast hne
    have hlen : u.length + dbSuffix.length < path.length := by
      rw [← hpath, ← huv]
      simp only [length_append, length_singleton]
      omega
    have hdrop : dbSuffix <+: path.drop u.length := by
      rw [← hpath, ← huv]
      simp
    obtain ⟨pos, hle, hpos⟩ := findSub_le hdrop
    exact ⟨pos, hpos, by omega⟩
  · rintro ⟨pos, hpos, hlt⟩
    obtain ⟨v, hv⟩ := drop_of_findSub hpos
    have hpath : path = path.take pos ++ (dbSuffix ++ v) := by rw [hv, take_append_drop]
    have hvne : v ≠ [] := by
      rintro rfl
      have hlen := congrArg List.length hv
      simp only [append_nil, length_drop] at hlen
      omega
    refine ⟨path.take pos, v.dropLast, ?_⟩
    conv_rhs => rw [hpath]
    rw [append_assoc, dropLast_append_of_ne_nil (by simp [hvne]),
      dropLast_append_of_ne_nil hvne]

theorem getSlaveName_eq_getSlavePath_iff (path : List Char) :
    getSlaveName path = getSlavePath path ↔ ¬ dbSuffix <:+: path.dropLast := by
  rw [dbSuffix_infix_dropLast_iff, getSlavePath_eq, getSlaveName]
  split
  next hnone =>
    have hsuffix : ¬ dbSuffix <:+ path := fun h => findSub_eq_none_iff.mp hnone h.isInfix
    simp [removeSuffix_of_not_suffix hsuffix, hnone]
  next pos hpos =>
    have hsub := drop_of_findSub hpos
    have hlen := hsub.length_le
    rw [length_drop] at hlen
    have hthree : dbSuffix.length = 3 := by decide
    rw [append_left_inj]
    constructor
    · rintro heq ⟨pos', hpos', hlt⟩
      cases hpos.symm.trans hpos'
      have hle := length_removeSuffix path
      rw [← heq, length_take] at hle
      omega
    · intro h
      have hend : path.length ≤ pos + dbSuffix.length := by
        by_contra hlt
        exact h ⟨pos, hpos, by omega⟩
      -- the occurrence is the end of the path
      have heq := hsub.eq_of_length_le (by rw [length_drop]; omega)
      conv_rhs => rw [← take_append_drop pos path, ← heq]
      exact (removeSuffix_append _).symm

theorem getSlaveName_ne_getSlavePath :
    getSlaveName "/data/a.db.d/b.db".toList = "/data/a_slave.db".toList ∧
      getSlavePath "/data/a.db.d/b.db".toList = "/data/a.db.d/b_slave.db".toList ∧
      getSlaveName "/data/a.db.d/b.db".toList ≠ getSlavePath "/data/a.db.d/b.db".toList := by
  decide

end

/-! ## The files of two databases -/

namespace StringUtils

def extractFilePath (fileFullName : List Char) : List Char :=
  fileFullName.take (((rfindSub ['/'] fileFullName).map (· + 1)).getD 0)

def extractFileName (fileFullName : List Char) : List Char :=
  fileFullName.drop (((rfindSub ['/'] fileFullName).map (· + 1)).getD 0)

end StringUtils

open StringUtils

def keySuffixes : List (List Char) :=
  [".pub_key_v2", ".pub_key_v2.new", ".pub_key", ".pub_key_v1", ".pub_key.new"].map String.toList

def keyFiles (dbPath : List Char) : List (List Char) :=
  keySuffixes.map fun suffix =>
    extractFilePath dbPath ++ "key/".toList ++ removeSuffix (extractFileName dbPath) ++ suffix

def keyLock (dbPath : List Char) : List Char :=
  extractFilePath dbPath ++ "lock/".toList ++ removeSuffix (extractFileName dbPath) ++
    ".key_lock".toList

def fileSuffixes : List (List Char) :=
  ["", "-shm", "-wal", "-dwr", "-journal", "-slaveFailure", "-syncInterrupt", ".corruptedflg",
    "-compare", "-walcompress", "-journalcompress", "-shmcompress", "-lockcompress"].map
      String.toList

def binlogFolderSuffix : List Char := "_binlog".toList

def getBinlogFolderPath (dbPath : List Char) : List Char := dbPath ++ binlogFolderSuffix

def deletePath (path : List Char) : List (List Char) := fileSuffixes.map (path ++ ·)

/-- `SqliteConnection::Delete` of a configuration removes the file. -/
def Deletes (path file : List Char) : Prop :=
  file = getBinlogFolderPath path ∨ getBinlogFolderPath path ++ ['/'] <+: file ∨
    file ∈ deletePath (getSlavePath path) ∨ file ∈ deletePath path
  deriving Decidable

def files (path : List Char) : List (List Char) :=
  [path, getSlavePath path, getMasterBackupPath path] ++ keyFiles path ++ [keyLock path]

/-- Work on the database may touch the file. -/
def Touches (path file : List Char) : Prop := file ∈ files path ∨ Deletes path file

structure DbPath where
  dir : List Char
  name : List Char
  slash : ∀ c ∈ dir.getLast?, c = '/'
  flat : '/' ∉ name

def DbPath.path (p : DbPath) : List Char := p.dir ++ p.name

def derived (name : List Char) : List (List Char) :=
  getMasterBackupPath name :: getBinlogFolderPath name ::
    (deletePath (getSlavePath name) ++ deletePath name)

/-- The names have no stem in common, and none is made from the other. -/
def Separate (m n : List Char) : Prop :=
  removeSuffix m ≠ removeSuffix n ∧ m ∉ derived n ∧ n ∉ derived m
  deriving Decidable

section
variable {m n r dir : List Char}

/-! ### A directory in front -/

section
variable (hdir : ∀ c ∈ dir.getLast?, c = '/')
include hdir

theorem dbSuffix_suffix_append :
    dbSuffix <:+ dir ++ n ↔ dbSuffix <:+ n := by
  refine ⟨fun h => ?_, fun h => h.trans (suffix_append dir n)⟩
  rcases suffix_or_suffix_of_suffix h (suffix_append dir n) with hn | ⟨w, hw⟩
  · exact hn
  · -- what stands in front of the name would be the end of the directory
    rw [← hw, suffix_append_self_iff] at h
    obtain ⟨u, rfl⟩ := h
    cases hlast : w.getLast? with
    | none =>
      cases getLast?_eq_none_iff.mp hlast
      exact hw ▸ suffix_refl n
    | some c =>
      have hmem : c ∈ dbSuffix := hw ▸ mem_append_left n (mem_of_getLast? hlast)
      have hc : c = '/' := hdir c (by simp [hlast])
      exact absurd (hc ▸ hmem) (by decide)

theorem removeSuffix_dir (n : List Char) :
    removeSuffix (dir ++ n) = dir ++ removeSuffix n := by
  by_cases h : dbSuffix <:+ n
  · obtain ⟨s, rfl⟩ := h
    rw [← append_assoc, removeSuffix_append, removeSuffix_append]
  · rw [removeSuffix_of_not_suffix h,
      removeSuffix_of_not_suffix ((dbSuffix_suffix_append hdir).not.mpr h)]

theorem rfind_slash (hn : '/' ∉ n) :
    ((rfindSub ['/'] (dir ++ n)).map (· + 1)).getD 0 = dir.length := by
  rw [rfindSub_append_of_not_mem hn]
  rcases eq_nil_or_concat' dir with rfl | ⟨d, c, rfl⟩
  · rfl
  · obtain rfl : c = '/' := hdir c (by simp)
    rw [rfindSub_of_suffix (suffix_append d ['/'])]
    simp

theorem extractFilePath_dir (hn : '/' ∉ n) :
    extractFilePath (dir ++ n) = dir := by
  rw [extractFilePath, rfind_slash hdir hn, take_left]

theorem extractFileName_dir (hn : '/' ∉ n) :
    extractFileName (dir ++ n) = n := by
  rw [extractFileName, rfind_slash hdir hn, drop_left]

end

theorem extractFilePath_name (hn : '/' ∉ n) : extractFilePath n = [] :=
  @extractFilePath_dir n [] (fun _ h => nomatch h) hn

theorem extractFileName_name (hn : '/' ∉ n) : extractFileName n = n :=
  @extractFileName_dir n [] (fun _ h => nomatch h) hn

theorem files_dir (hdir : ∀ c ∈ dir.getLast?, c = '/') (hn : '/' ∉ n) :
    files (dir ++ n) = (files n).map (dir ++ ·) := by
  simp [files, keyFiles, keyLock, getSlavePath_eq, getMasterBackupPath_eq, removeSuffix_dir hdir,
    extractFilePath_dir hdir hn, extractFileName_dir hdir hn, extractFilePath_name hn,
    extractFileName_name hn]

theorem deletePath_dir (dir n : List Char) :
    deletePath (dir ++ n) = (deletePath n).map (dir ++ ·) := by
  simp [deletePath]

theorem touches_dir (hdir : ∀ c ∈ dir.getLast?, c = '/') (hn : '/' ∉ n) :
    Touches (dir ++ n) (dir ++ r) ↔ Touches n r := by
  have hslave : getSlavePath (dir ++ n) = dir ++ getSlavePath n := by
    rw [getSlavePath_eq, getSlavePath_eq, removeSuffix_dir hdir, append_assoc]
  simp [Touches, Deletes, files_dir hdir hn, hslave, deletePath_dir, getBinlogFolderPath,
    prefix_append_right_inj]

theorem forall_touches_dir (hdir : ∀ c ∈ dir.getLast?, c = '/') (hm : '/' ∉ m) (hn : '/' ∉ n) :
    (∀ file, Touches (dir ++ m) file → file ∉ files (dir ++ n)) ↔ ∀ r ∈ files n, ¬ Touches m r := by
  rw [files_dir hdir hn]
  constructor
  · intro h r hr htouch
    exact h (dir ++ r) ((touches_dir hdir hm).mpr htouch) (mem_map_of_mem hr)
  · rintro h file htouch hmem
    obtain ⟨r, hr, rfl⟩ := mem_map.mp hmem
    exact h r hr ((touches_dir hdir hm).mp htouch)

/-! ### Names -/

section
variable (hn : '/' ∉ n)
include hn

theorem slash_notMem_removeSuffix : '/' ∉ removeSuffix n :=
  fun h => hn (removeSuffix_subset n h)

theorem keyFiles_name :
    keyFiles n = keySuffixes.map fun suffix => "key/".toList ++ (removeSuffix n ++ suffix) := by
  simp [keyFiles, extractFilePath_name hn, extractFileName_name hn]

theorem keyLock_name :
    keyLock n = "lock/".toList ++ (removeSuffix n ++ ".key_lock".toList) := by
  simp [keyLock, extractFilePath_name hn, extractFileName_name hn]

theorem slash_mem_keyFiles (hr : r ∈ keyFiles n) : '/' ∈ r := by
  rw [keyFiles_name hn] at hr
  obtain ⟨suffix, -, rfl⟩ := mem_map.mp hr
  exact mem_append_left _ (by decide)

theorem slash_mem_keyLock : '/' ∈ keyLock n := by
  rw [keyLock_name hn]
  exact mem_append_left _ (by decide)

theorem slash_notMem_derived : ∀ r ∈ derived n, '/' ∉ r := by
  have hstem := slash_notMem_removeSuffix hn
  have hsuffix : ∀ suffix ∈ fileSuffixes, '/' ∉ suffix := by decide
  have hends : '/' ∉ slaveSuffix ∧ '/' ∉ corruptedSuffix ∧ '/' ∉ binlogFolderSuffix := by decide
  intro r hr
  simp only [derived, mem_cons, mem_append, deletePath, mem_map] at hr
  rcases hr with rfl | rfl | ⟨suffix, hmem, rfl⟩ | ⟨suffix, hmem, rfl⟩
  · simp [getMasterBackupPath_eq, hstem, hends.2.1]
  · simp [getBinlogFolderPath, hn, hends.2.2]
  · simp [getSlavePath_eq, hstem, hends.1, hsuffix suffix hmem]
  · simp [hn, hsuffix suffix hmem]

theorem touches_iff_of_flat (hr : '/' ∉ r) : Touches n r ↔ r ∈ derived n := by
  have hkey : r ∉ keyFiles n := fun h => hr (slash_mem_keyFiles hn h)
  have hlock : r ≠ keyLock n := fun h => hr (h ▸ slash_mem_keyLock hn)
  have hfolder : ¬ getBinlogFolderPath n ++ ['/'] <+: r := fun h => hr (h.subset (by simp))
  have hnil : [] ∈ fileSuffixes := by decide
  have hown : n ∈ deletePath n := mem_map.mpr ⟨[], hnil, append_nil n⟩
  have hslave : getSlavePath n ∈ deletePath (getSlavePath n) :=
    mem_map.mpr ⟨[], hnil, append_nil _⟩
  simp only [Touches, Deletes, files, derived, mem_append, mem_cons, hkey, hlock, hfolder,
    not_mem_nil, or_false, false_or]
  constructor
  · rintro ((rfl | rfl | rfl) | rfl | hdel)
    · exact .inr (.inr (.inr hown))
    · exact .inr (.inr (.inl hslave))
    · exact .inl rfl
    · exact .inr (.inl rfl)
    · exact .inr (.inr hdel)
  · rintro (rfl | rfl | hdel)
    · exact .inl (.inr (.inr rfl))
    · exact .inr (.inl rfl)
    · exact .inr (.inr hdel)

theorem touches_of_slash (hr : '/' ∈ r) (h : Touches n r) :
    r ∈ keyFiles n ∨ r = keyLock n ∨ getBinlogFolderPath n ++ ['/'] <+: r := by
  have hflat := slash_notMem_derived hn
  have hderived : r ∉ derived n := fun hmem => hflat r hmem hr
  simp only [derived, mem_cons, mem_append, not_or] at hderived
  have hslave : r ≠ getSlavePath n := by
    rintro rfl
    have hstem := slash_notMem_removeSuffix hn
    rw [getSlavePath_eq, mem_append, or_iff_right hstem] at hr
    exact absurd hr (by decide)
  have hown : r ≠ n := fun heq => hn (heq ▸ hr)
  simpa [Touches, Deletes, files, hderived, hslave, hown, or_assoc] using h

end

theorem not_touches_keys (hm : '/' ∉ m) (hn : '/' ∉ n) (hstem : removeSuffix m ≠ removeSuffix n)
    (hr : r ∈ keyFiles n ∨ r = keyLock n) : ¬ Touches m r := by
  have hkeys : ∀ s ∈ keySuffixes, ∀ s' ∈ keySuffixes,
      s = s' ∨ ¬ s <:+ s' ∧ ¬ s' <:+ s := by decide
  -- the folder of the binlog is none of the two directories
  have hfolder (d x : List Char) (hd : '/' ∉ d) (hlen : d.length < binlogFolderSuffix.length) :
      ¬ getBinlogFolderPath m ++ ['/'] <+: d ++ '/' :: x := by
    rintro ⟨t, ht⟩
    have hflat : '/' ∉ getBinlogFolderPath m := slash_notMem_derived hm _ (by simp [derived])
    rw [append_assoc, singleton_append] at ht
    have hle := congrArg List.length (eq_of_append_cons_eq hflat hd ht)
    rw [getBinlogFolderPath, length_append] at hle
    omega
  intro htouch
  rcases hr with hr | rfl
  · rcases touches_of_slash hm (slash_mem_keyFiles hn hr) htouch with hkey | hlock | hbin
    · rw [keyFiles_name hn] at hr
      rw [keyFiles_name hm] at hkey
      obtain ⟨s, hs, rfl⟩ := mem_map.mp hr
      obtain ⟨s', hs', heq⟩ := mem_map.mp hkey
      have heq := append_cancel_left heq
      rcases hkeys s' hs' s hs with rfl | hne
      · exact hstem (append_cancel_right heq)
      · exact append_ne_append_of_suffix hne heq
    · rw [keyFiles_name hn] at hr
      obtain ⟨s, -, rfl⟩ := mem_map.mp hr
      simp [keyLock_name hm] at hlock
    · rw [keyFiles_name hn] at hr
      obtain ⟨s, -, rfl⟩ := mem_map.mp hr
      exact hfolder "key".toList _ (by decide) (by decide) hbin
  · rcases touches_of_slash hm (slash_mem_keyLock hn) htouch with hkey | hlock | hbin
    · rw [keyFiles_name hm] at hkey
      obtain ⟨s, -, heq⟩ := mem_map.mp hkey
      simp [keyLock_name hn] at heq
    · rw [keyLock_name hn, keyLock_name hm] at hlock
      exact hstem (append_cancel_right (append_cancel_left hlock)).symm
    · rw [keyLock_name hn] at hbin
      exact hfolder "lock".toList _ (by decide) (by decide) hbin

theorem eq_of_mem_derived (he : e ∈ [slaveSuffix, corruptedSuffix])
    (h : removeSuffix n ++ e ∈ derived m) :
    removeSuffix m = removeSuffix n ∨ m = removeSuffix n ++ e := by
  have hends : ∀ e ∈ [slaveSuffix, corruptedSuffix], ∀ e' ∈ [slaveSuffix, corruptedSuffix],
      e = e' ∨ ¬ e <:+ e' ∧ ¬ e' <:+ e := by decide
  have hbin : ∀ e ∈ [slaveSuffix, corruptedSuffix],
      ¬ e <:+ binlogFolderSuffix ∧ ¬ binlogFolderSuffix <:+ e := by decide
  have hfiles : ∀ e ∈ [slaveSuffix, corruptedSuffix], ∀ s ∈ fileSuffixes,
      s = [] ∨ ¬ s <:+ e ∧ ¬ e <:+ s := by decide
  have hstem {e' : List Char} (he' : e' ∈ [slaveSuffix, corruptedSuffix])
      (heq : removeSuffix n ++ e = removeSuffix m ++ e') : removeSuffix m = removeSuffix n := by
    rcases hends e he e' he' with rfl | hne
    · exact (append_cancel_right heq).symm
    · exact absurd heq (append_ne_append_of_suffix hne)
  simp only [derived, mem_cons, mem_append, deletePath, mem_map] at h
  rcases h with heq | heq | ⟨s, hs, heq⟩ | ⟨s, hs, heq⟩
  · rw [getMasterBackupPath_eq] at heq
    exact .inl (hstem (by simp) heq)
  · exact absurd heq (append_ne_append_of_suffix (hbin e he))
  · rcases hfiles e he s hs with rfl | hne
    · rw [append_nil, getSlavePath_eq] at heq
      exact .inl (hstem (by simp) heq.symm)
    · exact absurd heq (append_ne_append_of_suffix hne)
  · rcases hfiles e he s hs with rfl | hne
    · exact .inr (by simpa using heq)
    · exact absurd heq (append_ne_append_of_suffix hne)

theorem mem_files_iff :
    r ∈ files n ↔ r = n ∨ r = getSlavePath n ∨ r = getMasterBackupPath n ∨
      r ∈ keyFiles n ∨ r = keyLock n := by
  simp [files]

theorem forall_not_touches_iff (hm : '/' ∉ m) (hn : '/' ∉ n) :
    (∀ r ∈ files n, ¬ Touches m r) ↔
      removeSuffix m ≠ removeSuffix n ∧ n ∉ derived m ∧
        m ≠ getSlavePath n ∧ m ≠ getMasterBackupPath n := by
  have hown : Touches m m := .inl (mem_files_iff.mpr (.inl rfl))
  constructor
  · intro h
    refine ⟨fun heq => ?_, fun hmem => ?_, fun heq => ?_, fun heq => ?_⟩
    · refine h (getSlavePath n) (mem_files_iff.mpr (by simp)) (.inl (mem_files_iff.mpr ?_))
      simp [getSlavePath_eq, heq]
    · exact h n (mem_files_iff.mpr (.inl rfl)) ((touches_iff_of_flat hm hn).mpr hmem)
    · exact h m (mem_files_iff.mpr (.inr (.inl heq))) hown
    · exact h m (mem_files_iff.mpr (.inr (.inr (.inl heq)))) hown
  · rintro ⟨hstem, hderived, hslave, hbackup⟩ r hr htouch
    have hflat := slash_notMem_derived hn
    rcases mem_files_iff.mp hr with rfl | rfl | rfl | hkey
    · exact hderived ((touches_iff_of_flat hm hn).mp htouch)
    · have hmem := (touches_iff_of_flat hm ?_).mp htouch
      · rw [getSlavePath_eq] at hmem hslave
        exact (eq_of_mem_derived (by simp) hmem).elim hstem hslave
      · exact hflat _ (by simp [derived, deletePath, fileSuffixes])
    · have hmem := (touches_iff_of_flat hm (hflat _ (by simp [derived]))).mp htouch
      rw [getMasterBackupPath_eq] at hmem hbackup
      exact (eq_of_mem_derived (by simp) hmem).elim hstem hbackup
    · exact not_touches_keys hm hn hstem hkey htouch

theorem untouched_iff_separate (a b : DbPath) (hdir : a.dir = b.dir) :
    ((∀ file, Touches a.path file → file ∉ files b.path) ∧
        ∀ file, Touches b.path file → file ∉ files a.path) ↔
      Separate a.name b.name := by
  have hsuffix (n : List Char) : getSlavePath n ∈ derived n := by
    simp [derived, deletePath, fileSuffixes]
  have hbackup (n : List Char) : getMasterBackupPath n ∈ derived n := by simp [derived]
  rw [DbPath.path, DbPath.path, ← hdir, forall_touches_dir a.slash a.flat b.flat,
    forall_touches_dir a.slash b.flat a.flat, forall_not_touches_iff a.flat b.flat,
    forall_not_touches_iff b.flat a.flat, Separate]
  constructor
  · rintro ⟨⟨hstem, hb, -⟩, -, ha, -⟩
    exact ⟨hstem, ha, hb⟩
  · rintro ⟨hstem, ha, hb⟩
    refine ⟨⟨hstem, hb, ?_, ?_⟩, hstem.symm, ha, ?_, ?_⟩
    · exact fun heq => ha (heq ▸ hsuffix b.name)
    · exact fun heq => ha (heq ▸ hbackup b.name)
    · exact fun heq => hb (heq ▸ hsuffix a.name)
    · exact fun heq => hb (heq ▸ hbackup a.name)

theorem untouched_iff_separate_names :
    let a : DbPath := ⟨"/data/".toList, "a.db".toList, by simp, by decide⟩
    let b : DbPath := ⟨"/data/".toList, "b.db".toList, by simp, by decide⟩
    (∀ file, Touches a.path file → file ∉ files b.path) ∧
      ∀ file, Touches b.path file → file ∉ files a.path := by
  intro a b
  exact (untouched_iff_separate a b rfl).mpr (by decide)

theorem delete_touches_others :
    let a : DbPath := ⟨"/data/".toList, "a".toList, by simp, by decide⟩
    let b : DbPath := ⟨"/data/".toList, "a.db".toList, by simp, by decide⟩
    let c : DbPath := ⟨"/data/".toList, "a_slave.db".toList, by simp, by decide⟩
    (∃ file ∈ files b.path, Deletes a.path file) ∧
      (∃ file ∈ files b.path, file ∈ keyFiles a.path) ∧
      ∃ file ∈ files c.path, Deletes b.path file := by
  decide

end

end RelationalStore
