import Mathlib.Data.List.Basic

/-! # Statements in the log

The words of a statement are masked before it is logged, by the class of the word. -/

namespace RelationalStore.SqliteUtils

open List

def SQL_KEYWORD : List String :=
  ["ABORT", "ABS", "ACTION", "ADD", "AFTER", "ALIAS", "ALL", "ALTER", "ALWAYS", "AMBIGUOUS",
    "ANALYZE", "AND", "AS", "ASC", "ATTACH", "AUTOINCREMENT", "AVG", "BEFORE", "BEGIN",
    "BETWEEN", "BIG", "BIGINT", "BLOB", "BOOLEAN", "BY", "CASCADE", "CASE", "CAST", "CEIL",
    "CEILING", "CHARACTER", "CHECK", "CLOB", "COALESCE", "COLLATE", "COLUMN", "COMMIT",
    "CONCAT", "CONFLICT", "CONSTRAINT", "COUNT", "CREATE", "CROSS", "CURRENT", "CURRENT_DATE",
    "CURRENT_TIME", "CURRENT_TIMESTAMP", "DATABASE", "DATE", "DATETIME", "DECIMAL", "DEFAULT",
    "DEFERRABLE", "DEFERRED", "DELETE", "DESC", "DETACH", "DIGIT", "DISTINCT", "DO", "DOUBLE",
    "DROP", "E", "EACH", "ELSE", "END", "ESCAPE", "EXCEPT", "EXCLUDE", "EXCLUSIVE", "EXISTS",
    "EXP", "EXPLAIN", "EXPR", "FAIL", "FALSE", "FILENAME", "FILTER", "FIRST", "FLOAT", "FLOOR",
    "FOLLOWING", "FOR", "FOREIGN", "FROM", "FULL", "GENERATED", "GLOB", "GROUP", "GROUPS",
    "GROUP_CONCAT", "HAVING", "HEXDIGIT", "IF", "IFNULL", "IGNORE", "IMMEDIATE", "IN", "INDEX",
    "INDEXED", "INITIALLY", "INNER", "INSERT", "INSTEAD", "INSTR", "INT", "INT2", "INT8",
    "INTEGER", "INTERSECT", "INTO", "IS", "ISNULL", "JOIN", "JULIANDAY", "KEY", "LAST", "LEFT",
    "LENGTH", "LIKE", "LIMIT", "LN", "LOG", "LOWER", "LTRIM", "MATCH", "MATERIALIZED", "MAX",
    "MEDIUMINT", "MIN", "NAME", "NATIVE", "NATURAL", "NCHAR", "NEWLINE", "NO", "NOT", "NOTHING",
    "NOTNULL", "NULL", "NULLIF", "NULLS", "NUMERIC", "NVARCHAR", "OF", "OFFSET", "ON", "OR",
    "ORDER", "OTHERS", "OUTER", "OVER", "PARTITION", "PLAN", "POWER", "PRAGMA", "PRECEDING",
    "PRECISION", "PRIMARY", "QUERY", "RAISE", "RANDOM", "RANGE", "REAL", "RECURSIVE",
    "REFERENCES", "REGEXP", "REINDEX", "RELEASE", "RENAME", "REPLACE", "RESTRICT", "RETURNING",
    "RIGHT", "ROLLBACK", "ROUND", "ROW", "ROWID", "ROWS", "RTRIM", "SAVEPOINT", "SELECT", "SET",
    "SMALLINT", "SQRT", "STORED", "STRFTIME", "STRICT", "SUBSTR", "SUM", "TABLE", "TEMP",
    "TEMPORARY", "TEXT", "THEN", "TIES", "TIME", "TINYINT", "TO", "TOTAL", "TRANSACTION",
    "TRIGGER", "TRIM", "TRUE", "TYPEOF", "UNBOUNDED", "UNION", "UNIQUE", "UNSIGNED", "UPDATE",
    "UPPER", "USING", "VACUUM", "VALUES", "VARCHAR", "VARYING", "VIEW", "VIRTUAL", "WHEN",
    "WHERE", "WINDOW", "WITH", "WITHOUT"]

def WHILE_KEYWORDS : List String :=
  ["ABORTS", "ACQLOCK", "ALREADY", "AT", "BUSYLINE", "CHANGED", "CURLOCK", "DBREF", "DEL",
    "DUPLICATE", "ENABLE", "ERRNO", "ERROR", "FAILED", "FD", "FILE", "FILELOCK", "FRAMES",
    "F_RDLCK", "F_WRLCK", "GO", "HANDLELOCKS", "HAS", "IDX", "INCOMPLETE", "INPUT", "LEN",
    "LINE", "LITERAL", "LOCKCNT", "LOCKS", "MISUSE", "MONITOR", "NEAR", "NONE", "PID",
    "PROCESSLOCK", "QUOTED", "READ", "RECOVERED", "SCHEMA", "SHARED_FIRST", "SQLITE",
    "STATEMENT", "STRING", "SUCH", "SYNTAX", "TID", "TRX", "TYPE", "WAL", "WAL_DMS", "WARNING",
    "WRITE", "WRONG"]

def HEAD_SIZE : Nat := 3
def END_SIZE : Nat := 3
def MIN_SIZE : Nat := HEAD_SIZE + END_SIZE + 3
def CONTINUOUS_DIGITS_MINI_SIZE : Nat := 6
def MAX_PRINTABLE_BYTE : Nat := 0x7F
def REPLACE_CHAIN : List Char := ['*', '*', '*']

def isKeyword (word : List Char) : Bool :=
  let upper := String.ofList (word.map Char.toUpper)
  SQL_KEYWORD.contains upper || WHILE_KEYWORDS.contains upper

def getAnonymousName (fileName : List Char) : List Char :=
  if fileName = [] then []
  else if fileName.length ≤ HEAD_SIZE then fileName.take 1 ++ ['*', '*']
  else if fileName.length < MIN_SIZE then fileName.take HEAD_SIZE ++ REPLACE_CHAIN
  else fileName.take HEAD_SIZE ++ REPLACE_CHAIN ++ fileName.drop (fileName.length - END_SIZE)

def anonymousDigits (digits : List Char) (fullyAnonymize : Bool) : List Char :=
  if digits.length < CONTINUOUS_DIGITS_MINI_SIZE then
    if fullyAnonymize then REPLACE_CHAIN else digits
  else if digits.length = CONTINUOUS_DIGITS_MINI_SIZE then
    REPLACE_CHAIN ++ digits.drop (digits.length - 3)
  else REPLACE_CHAIN ++ digits.drop (digits.length - 4)

def isMasked (byte : Char) : Bool := MAX_PRINTABLE_BYTE < byte.toNat

def byteAnonymousLoop : Bool → List Char → List Char
  | _, [] => []
  | maskCurrent, byte :: input =>
    if isMasked byte then
      if maskCurrent then byteAnonymousLoop true input
      else REPLACE_CHAIN ++ byteAnonymousLoop true input
    else byte :: byteAnonymousLoop false input

def byteAnonymous (input : List Char) : List Char := byteAnonymousLoop false input

def isWordChar (c : Char) : Bool := c.isAlphanum || c = '_'

def isHexDigit (c : Char) : Bool :=
  c.isDigit || ('a' ≤ c && c ≤ 'f') || ('A' ≤ c && c ≤ 'F')

def splitWords : List Char → List Char × List (List Char × List Char)
  | [] => ([], [])
  | c :: text =>
    match isWordChar c, splitWords text with
    | false, (separator, words) => (c :: separator, words)
    | true, ([], (word, separator) :: words) => ([], (c :: word, separator) :: words)
    | true, (separator, words) => ([], ([c], separator) :: words)

def sqlAnonymousLoop : Bool → List (List Char × List Char) → List Char
  | _, [] => []
  | fullyAnonymizeFollowingDigits, (word, separator) :: words =>
    if isKeyword word then word ++ byteAnonymous separator ++ sqlAnonymousLoop false words
    else if word.all isHexDigit then
      anonymousDigits word fullyAnonymizeFollowingDigits ++ byteAnonymous separator ++
        sqlAnonymousLoop true words
    else getAnonymousName word ++ byteAnonymous separator ++ sqlAnonymousLoop false words

def sqlAnonymous (sql : List Char) : List Char :=
  byteAnonymous (splitWords sql).1 ++ sqlAnonymousLoop false (splitWords sql).2

/-! ## Words and separators -/

structure IsSplit (text : List Char) (split : List Char × List (List Char × List Char)) :
    Prop where
  join : split.1 ++ split.2.flatMap (fun p => p.1 ++ p.2) = text
  first : ∀ c ∈ split.1, isWordChar c = false
  words : ∀ p ∈ split.2, p.1 ≠ [] ∧ (∀ c ∈ p.1, isWordChar c) ∧ ∀ c ∈ p.2, isWordChar c = false
  maximal : split.2.IsChain fun p _ => p.2 ≠ []

theorem isSplit_splitWords (text : List Char) : IsSplit text (splitWords text) := by
  induction text with
  | nil => exact ⟨rfl, nofun, nofun, .nil⟩
  | cons c text ih =>
    obtain ⟨hjoin, hfirst, hwords, hmaximal⟩ := ih
    rw [splitWords]
    split
    next separator words hc hsplit =>
      rw [hsplit] at hjoin hfirst hwords hmaximal
      exact ⟨congrArg (c :: ·) hjoin, forall_mem_cons.mpr ⟨hc, hfirst⟩, hwords, hmaximal⟩
    next word separator words hc hsplit =>
      rw [hsplit] at hjoin hwords hmaximal
      obtain ⟨⟨-, hword, hseparator⟩, hrest⟩ := forall_mem_cons.mp hwords
      refine ⟨congrArg (c :: ·) hjoin, nofun, forall_mem_cons.mpr ⟨?_, hrest⟩, ?_⟩
      · exact ⟨cons_ne_nil c word, forall_mem_cons.mpr ⟨hc, hword⟩, hseparator⟩
      · cases words with
        | nil => exact .singleton _
        | cons p words =>
          obtain ⟨hne, hchain⟩ := isChain_cons_cons.mp hmaximal
          exact isChain_cons_cons.mpr ⟨hne, hchain⟩
    next separator words hjoined hc hsplit =>
      rw [hsplit] at hjoin hfirst hwords hmaximal
      refine ⟨congrArg (c :: ·) hjoin, nofun, forall_mem_cons.mpr ⟨?_, hwords⟩, ?_⟩
      · exact ⟨cons_ne_nil c [], forall_mem_cons.mpr ⟨hc, nofun⟩, hfirst⟩
      · cases words with
        | nil => exact .singleton _
        | cons p words =>
          refine isChain_cons_cons.mpr ⟨fun hnil => ?_, hmaximal⟩
          exact hjoined p.1 p.2 words hnil rfl

/-! ## What a text shows -/

def replaceRuns : List Char → List Char
  | [] => []
  | byte :: input =>
    if isMasked byte then
      if input.head?.any isMasked then replaceRuns input else REPLACE_CHAIN ++ replaceRuns input
    else byte :: replaceRuns input

inductive WordClass where
  | keyword
  | hexadecimal
  | other
  deriving DecidableEq

def wordClass (word : List Char) : WordClass :=
  if isKeyword word then .keyword
  else if word.all isHexDigit then .hexadecimal
  else .other

def lastChars (n : Nat) (word : List Char) : List Char := word.drop (word.length - n)

structure NamesAgree (w w' : List Char) : Prop where
  short : w.length ≤ 3 ↔ w'.length ≤ 3
  long : 9 ≤ w.length ↔ 9 ≤ w'.length
  first : w.length ≤ 3 → w.take 1 = w'.take 1
  head : 4 ≤ w.length → w.take 3 = w'.take 3
  last : 9 ≤ w.length → lastChars 3 w = lastChars 3 w'

structure DigitsAgree (afterDigits : Bool) (w w' : List Char) : Prop where
  short : w.length < 6 ↔ w'.length < 6
  long : 6 < w.length ↔ 6 < w'.length
  equal : w.length < 6 → afterDigits = false → w = w'
  six : w.length = 6 → lastChars 3 w = lastChars 3 w'
  last : 6 < w.length → lastChars 4 w = lastChars 4 w'

def WordAgrees (afterDigits : Bool) (w w' : List Char) : Prop :=
  wordClass w = wordClass w' ∧
    match wordClass w with
    | .keyword => w = w'
    | .hexadecimal => DigitsAgree afterDigits w w'
    | .other => NamesAgree w w'

inductive WordsAgree : Bool → List (List Char × List Char) → List (List Char × List Char) → Prop
  | nil (afterDigits : Bool) : WordsAgree afterDigits [] []
  | cons {afterDigits : Bool} {w w' s s' : List Char}
    {words words' : List (List Char × List Char)} : WordAgrees afterDigits w w' →
    replaceRuns s = replaceRuns s' → WordsAgree (wordClass w = .hexadecimal) words words' →
    WordsAgree afterDigits ((w, s) :: words) ((w', s') :: words')

def TextsAgree (text text' : List Char) : Prop :=
  replaceRuns (splitWords text).1 = replaceRuns (splitWords text').1 ∧
    WordsAgree false (splitWords text).2 (splitWords text').2

theorem byteAnonymousLoop_true (hbyte : isMasked byte) (input : List Char) :
    byteAnonymousLoop false input = replaceRuns input ∧
      REPLACE_CHAIN ++ byteAnonymousLoop true input = replaceRuns (byte :: input) := by
  induction input generalizing byte with
  | nil => exact ⟨rfl, by rw [replaceRuns, if_pos hbyte]; rfl⟩
  | cons next input ih =>
    have hrun : replaceRuns (byte :: next :: input) =
        if isMasked next then replaceRuns (next :: input)
        else REPLACE_CHAIN ++ replaceRuns (next :: input) := by
      rw [replaceRuns, if_pos hbyte]
      rfl
    rw [hrun, byteAnonymousLoop, byteAnonymousLoop]
    by_cases hnext : isMasked next
    · have hih := (ih hnext).2
      simp only [hnext, if_true, Bool.false_eq_true, if_false]
      exact ⟨hih, hih⟩
    · have hplain : next :: byteAnonymousLoop false input = replaceRuns (next :: input) := by
        rw [replaceRuns, if_neg hnext, (ih hbyte).1]
      simp only [hnext, Bool.false_eq_true, if_false]
      exact ⟨hplain, congrArg (REPLACE_CHAIN ++ ·) hplain⟩

theorem byteAnonymous_eq (input : List Char) : byteAnonymous input = replaceRuns input :=
  have hmasked : isMasked (Char.ofNat 0x80) := by decide
  (byteAnonymousLoop_true hmasked input).1

theorem NamesAgree.anonymous (h : NamesAgree w w') (hne : w ≠ []) (hne' : w' ≠ []) :
    getAnonymousName w = getAnonymousName w' := by
  obtain ⟨hshort, hlong, hfirst, hhead, hlast⟩ := h
  rw [getAnonymousName, getAnonymousName, if_neg hne, if_neg hne']
  change (if w.length ≤ 3 then _ else if w.length < 9 then _ else _) =
    if w'.length ≤ 3 then _ else if w'.length < 9 then _ else _
  by_cases h3 : w.length ≤ 3
  · rw [if_pos h3, if_pos (hshort.mp h3), hfirst h3]
  · rw [if_neg h3, if_neg (mt hshort.mpr h3)]
    have hsame : w.take HEAD_SIZE = w'.take HEAD_SIZE := hhead (by omega)
    by_cases h9 : 9 ≤ w.length
    · have htail : w.drop (w.length - END_SIZE) = w'.drop (w'.length - END_SIZE) := hlast h9
      rw [if_neg (by omega), if_neg (by have := hlong.mp h9; omega), hsame, htail]
    · rw [if_pos (by omega), if_pos (by have := mt hlong.mpr h9; omega), hsame]

theorem DigitsAgree.anonymous (h : DigitsAgree afterDigits w w') :
    anonymousDigits w afterDigits = anonymousDigits w' afterDigits := by
  obtain ⟨hshort, hlong, hequal, hsix, hlast⟩ := h
  rw [anonymousDigits, anonymousDigits]
  change (if w.length < 6 then _ else if w.length = 6 then _ else _) =
    if w'.length < 6 then _ else if w'.length = 6 then _ else _
  rcases Nat.lt_trichotomy w.length 6 with h6 | h6 | h6
  · rw [if_pos h6, if_pos (hshort.mp h6)]
    cases afterDigits with
    | true => rfl
    | false => exact hequal h6 rfl
  · have h6' : w'.length = 6 := by omega
    have htail : w.drop (w.length - 3) = w'.drop (w'.length - 3) := hsix h6
    rw [if_neg (Nat.not_lt_of_ge (Nat.le_of_eq h6.symm)),
      if_neg (Nat.not_lt_of_ge (Nat.le_of_eq h6'.symm)), if_pos h6, if_pos h6', htail]
  · have h6' := hlong.mp h6
    have htail : w.drop (w.length - 4) = w'.drop (w'.length - 4) := hlast h6
    rw [if_neg (Nat.lt_asymm h6), if_neg (Nat.lt_asymm h6'), if_neg (Nat.ne_of_gt h6),
      if_neg (Nat.ne_of_gt h6'), htail]

theorem WordsAgree.loop (h : WordsAgree afterDigits words words') (hne : ∀ p ∈ words, p.1 ≠ [])
    (hne' : ∀ p ∈ words', p.1 ≠ []) :
    sqlAnonymousLoop afterDigits words = sqlAnonymousLoop afterDigits words' := by
  induction h with
  | nil afterDigits => rfl
  | @cons afterDigits w w' s s' words words' hword hseparator _ ih =>
    obtain ⟨hw, hwords⟩ := forall_mem_cons.mp hne
    obtain ⟨hw', hwords'⟩ := forall_mem_cons.mp hne'
    obtain ⟨hclass, hagrees⟩ := hword
    have hrest := ih hwords hwords'
    have hloop : ∀ {v : List Char} {rest : List (List Char × List Char)},
        sqlAnonymousLoop afterDigits ((v, s) :: rest) =
          (match wordClass v with
            | .keyword => v
            | .hexadecimal => anonymousDigits v afterDigits
            | .other => getAnonymousName v) ++ replaceRuns s ++
            sqlAnonymousLoop (wordClass v = .hexadecimal) rest := by
      intro v rest
      rw [sqlAnonymousLoop, byteAnonymous_eq, wordClass]
      split_ifs <;> rfl
    have hloop' : sqlAnonymousLoop afterDigits ((w', s') :: words') =
        sqlAnonymousLoop afterDigits ((w', s) :: words') := by
      simp only [sqlAnonymousLoop, byteAnonymous_eq, hseparator]
    rw [hloop', hloop, hloop, ← hclass, hrest]
    congr 2
    cases hw_class : wordClass w with
    | keyword => rw [hw_class] at hagrees; exact hagrees
    | hexadecimal => rw [hw_class] at hagrees; exact hagrees.anonymous
    | other => rw [hw_class] at hagrees; exact hagrees.anonymous hw hw'

/-- Texts that agree in what may be shown are logged alike. -/
theorem sqlAnonymous_eq (text text' : List Char) (h : TextsAgree text text') :
    sqlAnonymous text = sqlAnonymous text' := by
  have hne : ∀ text, ∀ p ∈ (splitWords text).2, p.1 ≠ [] :=
    fun text p hp => ((isSplit_splitWords text).words p hp).1
  rw [sqlAnonymous, sqlAnonymous, byteAnonymous_eq, byteAnonymous_eq, h.1,
    h.2.loop (hne text) (hne text')]

example : sqlAnonymous "123edf4 30005 SELECT id".toList = "***edf4 *** SELECT i**".toList := by
  decide +kernel

theorem sqlAnonymous_phone :
    sqlAnonymous "'13800001234', 77".toList = sqlAnonymous "'6661234', 8".toList := by
  refine sqlAnonymous_eq _ _ ⟨by decide +kernel, ?_⟩
  refine .cons ⟨by decide +kernel, ?_⟩ (by decide +kernel)
    (.cons ⟨by decide +kernel, ?_⟩ (by decide +kernel) (.nil _))
  · exact ⟨by decide, by decide, by decide, by decide, by decide⟩
  · exact ⟨by decide, by decide, by decide, by decide, by decide⟩

end RelationalStore.SqliteUtils
