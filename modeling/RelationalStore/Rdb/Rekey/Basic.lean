import RelationalStore.Rdb.Errno

/-! # Changing the key

`Rekey` changes the key on an open connection, `RekeyEx` closes the pool and converts the file. -/

namespace RelationalStore

structure RekeyStore (K : Type) where
  encryptStatus : Bool
  isPlainText : Bool
  isCustom : Bool
  key : Option K
  newKey : Option K
  file : Option K
  isInit : Bool
  deriving DecidableEq, Repr

structure KeyLoad (K : Type) where
  err : Option RdbError
  password : Option K
  newPassword : Option K
  deriving DecidableEq, Repr

structure Reopen (K : Type) where
  load : KeyLoad K
  resets : Bool
  isServiceKey : Bool
  deriving DecidableEq, Repr

structure RekeyCall (K : Type) where
  isReadOnly : Bool
  isMemoryRdb : Bool
  hasPool : Bool
  paramKey : Option K
  isValid : Bool
  isEqual : Bool
  acquires : Bool
  password : Option K
  hmacAlgo : Option RdbError
  sqliteRekey : Option RdbError
  encryptAgo : Option RdbError
  reopen : Reopen K
  reopenAgain : Reopen K
  deriving DecidableEq, Repr

structure RekeyExCall (K : Type) where
  isVector : Bool
  isReadOnly : Bool
  isMemoryRdb : Bool
  isSingle : Bool
  hasPool : Bool
  paramKey : Option K
  toPlainText : Bool
  isValid : Bool
  load : KeyLoad K
  password : Option K
  memcpy : Bool
  sqliteRekey : Option RdbError
  reopen : Reopen K
  deriving DecidableEq, Repr

variable {K : Type}

namespace RekeyStore

variable (s : RekeyStore K)

def isEncrypt : Bool := !s.isPlainText && (s.encryptStatus || s.key.isSome)

def generateEncryptedKey (o : KeyLoad K) : Except RdbError (RekeyStore K) :=
  if !s.encryptStatus || s.key.isSome || s.isPlainText then .ok s
  else
    match o.err with
    | some err => .error err
    | none => .ok { s with key := o.password, newKey := o.newPassword.or s.newKey }

def setEncrypt [DecidableEq K] (o : Reopen K) : Option (RekeyStore K) :=
  if !s.isEncrypt then (if s.file = none then some s else none)
  else if s.key.isSome ∧ s.file = s.key then
    -- a pending new key is put into use
    if s.newKey.isSome && o.resets then
      some { s with file := s.newKey, key := s.newKey, newKey := none }
    else some s
  else if s.newKey.isSome ∧ s.file = s.newKey then some { s with key := s.newKey, newKey := none }
  -- `SetServiceKey`; it also overwrites the pending key, which this opening does not read again
  else if s.file.isSome && o.isServiceKey then some { s with key := s.file }
  else none

def init [DecidableEq K] (o : Reopen K) : Except RdbError Unit × RekeyStore K :=
  match s.generateEncryptedKey o.load with
  | .error err => (.error err, { s with isInit := false })
  | .ok s =>
    match s.setEncrypt o with
    | none => (.error .sqliteCorrupt, { s with isInit := false })
    | some s => (.ok (), { s with isInit := true })

end RekeyStore

namespace RekeyCall

variable (c : RekeyCall K)

def connRekey (s : RekeyStore K) : Except RdbError Unit × RekeyStore K :=
  match c.paramKey.or c.password with
  | none => (.error .error, s)
  | some key =>
    match c.hmacAlgo with
    | some err => (.error err, s)
    | none =>
      match c.sqliteRekey with
      | some err => (.error err, s)
      | none =>
        let s := { s with file := some key }
        match c.encryptAgo with
        | some err => (.error err, s)
        | none => (.ok (), s)

def poolRekey [DecidableEq K] (s : RekeyStore K) :
    Except RdbError Unit × RekeyStore K :=
  if !c.acquires then (.error .databaseBusy, s)
  else
    let key := s.key
    match c.connRekey { s with isInit := false } with
    | (.error err, s) => (.error err, s)
    | (.ok (), s) =>
      match { s with key := c.paramKey }.init c.reopen with
      | (.ok (), s) => (.ok (), s)
      | (.error _, s) => { s with key }.init c.reopenAgain

def rekey [DecidableEq K] (s : RekeyStore K) :
    Except RdbError Unit × RekeyStore K :=
  if c.isReadOnly || c.isMemoryRdb then (.error .notSupport, s)
  else if !c.isValid then (.error .invalidArgsNew, s)
  else if !s.isEncrypt || !c.isEqual || s.isCustom == c.paramKey.isNone then (.error .notSupport, s)
  else if !c.hasPool then (.error .alreadyClosed, s)
  else c.poolRekey s

end RekeyCall

namespace RekeyExCall

variable (c : RekeyExCall K)

def rekeyToPlainText (s : RekeyStore K) :
    Except RdbError Unit × RekeyStore K :=
  if !c.memcpy then (.error .error, s)
  else
    match c.sqliteRekey with
    | some err => (.error err, s)
    | none => (.ok (), { s with file := none, encryptStatus := false })

def prepareGenerateKey (s : RekeyStore K) :
    Except RdbError Unit × RekeyStore K :=
  if !s.isCustom && s.isEncrypt then (.ok (), s)
  else
    match { s with key := c.paramKey, encryptStatus := true }.generateEncryptedKey c.load with
    | .error err => (.error err, { s with encryptStatus := s.isEncrypt })
    | .ok s => (.ok (), s)

def convert (s : RekeyStore K) : Except RdbError Unit × RekeyStore K :=
  match c.paramKey.or c.password with
  | none => (.error .error, s)
  | some key =>
    if !c.memcpy then (.error .error, s)
    else
      match c.sqliteRekey with
      | some err => (.error err, s)
      | none => (.ok (), { s with file := some key, key := some key })

def rekeyToEncrypt (s : RekeyStore K) :
    Except RdbError Unit × RekeyStore K :=
  match if c.paramKey.isNone then c.prepareGenerateKey s else (.ok (), s) with
  | (.error err, s) => (.error err, s)
  | (.ok (), s) => c.convert s

def connRekeyEx (s : RekeyStore K) : Except RdbError Unit × RekeyStore K :=
  if c.toPlainText then c.rekeyToPlainText s else c.rekeyToEncrypt s

def setCryptoParam (s : RekeyStore K) : RekeyStore K :=
  let key := if c.toPlainText then none else c.paramKey
  { s with isPlainText := c.toPlainText, key, isCustom := key.isSome }

def rekeyEx [DecidableEq K] (s : RekeyStore K) :
    Except RdbError Unit × RekeyStore K :=
  if c.isVector || c.isReadOnly || c.isMemoryRdb || !c.isSingle then (.error .notSupport, s)
  else if !c.isValid then (.error .invalidArgsNew, s)
  else if !c.hasPool then (.error .alreadyClosed, s)
  else
    -- what comes of reopening the pool is not looked at
    match c.connRekeyEx { s with isInit := false } with
    | (.error err, s) => (.error err, (s.init c.reopen).2)
    | (.ok (), s) => (.ok (), ((c.setCryptoParam s).init c.reopen).2)

end RekeyExCall

end RelationalStore
