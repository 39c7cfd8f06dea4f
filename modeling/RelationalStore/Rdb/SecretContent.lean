import Mathlib.Data.List.Basic

/-! # The key file

A version, a nonce and the encrypted key, and the first bytes of an HMAC of all that. -/

namespace RelationalStore

open List

structure RdbSecretContent where
  version : UInt8
  nonce : List UInt8
  encrypt : List UInt8
  deriving DecidableEq

namespace RdbSecretContent

def NONCE_VALUE_SIZE : Nat := 12
def CURRENT_VERSION : UInt8 := 2
def HMAC_SIZE : Nat := 8

def initial : RdbSecretContent := ⟨CURRENT_VERSION, [], []⟩

def payload (c : RdbSecretContent) : List UInt8 := c.version :: (c.nonce ++ c.encrypt)

def Packable (c : RdbSecretContent) : Prop := c.nonce.length = NONCE_VALUE_SIZE ∧ c.encrypt ≠ []

end RdbSecretContent

open RdbSecretContent

structure Unpacked where
  res : Bool
  content : RdbSecretContent
  reported : Bool
  deriving DecidableEq

namespace RdbSecurityManager

section
variable (hmac : List UInt8 → List UInt8)

def generateHMAC (data : List UInt8) : List UInt8 :=
  (hmac data).take HMAC_SIZE ++ List.replicate (HMAC_SIZE - (hmac data).length) 0

def pack (secretContent : RdbSecretContent) : List UInt8 :=
  secretContent.payload ++ generateHMAC hmac secretContent.payload

def unpack (content : List UInt8) : Unpacked :=
  if content.length ≤ HMAC_SIZE then ⟨false, .initial, false⟩
  else
    let dataLength := content.length - HMAC_SIZE
    let originalData := content.take dataLength
    let storedHMAC := content.drop dataLength
    -- a mismatch does not end the call
    let reported := decide (generateHMAC hmac originalData ≠ storedHMAC)
    if originalData.length ≤ 1 + NONCE_VALUE_SIZE then ⟨false, .initial, reported⟩
    else
      ⟨true, ⟨originalData.getD 0 0, (originalData.drop 1).take NONCE_VALUE_SIZE,
        originalData.drop (1 + NONCE_VALUE_SIZE)⟩, reported⟩

/-- The last bytes are the HMAC of the bytes before them. -/
def HmacMatches (content : List UInt8) : Prop :=
  generateHMAC hmac (content.take (content.length - HMAC_SIZE)) =
    content.drop (content.length - HMAC_SIZE)

structure Authenticates (content : List UInt8) : Prop where
  res_iff : (unpack hmac content).res ↔ ∃ c, Packable c ∧ content = pack hmac c
  content_eq : ∀ c, Packable c → content = pack hmac c → (unpack hmac content).content = c
  rejects : ¬ HmacMatches hmac content → (unpack hmac content).res = false

end

variable {hmac : List UInt8 → List UInt8} {content : List UInt8} {c : RdbSecretContent}

@[simp] theorem length_generateHMAC (data : List UInt8) :
    (generateHMAC hmac data).length = HMAC_SIZE := by
  simp only [generateHMAC, length_append, length_take, length_replicate]
  omega

theorem length_pack_of_packable (h : Packable c) : 21 < (pack hmac c).length := by
  have hpos : 0 < c.encrypt.length := length_pos_iff.mpr h.2
  simp only [pack, payload, length_append, length_cons, length_generateHMAC, h.1,
    NONCE_VALUE_SIZE, HMAC_SIZE]
  omega

theorem unpack_res_iff (hmac : List UInt8 → List UInt8) (content : List UInt8) :
    (unpack hmac content).res ↔ 21 < content.length := by
  unfold unpack
  simp only [HMAC_SIZE, NONCE_VALUE_SIZE, length_take]
  split
  · simp; omega
  · split <;> simp <;> omega

theorem payload_cut (h : 1 + NONCE_VALUE_SIZE < data.length) :
    payload ⟨data.getD 0 0, (data.drop 1).take NONCE_VALUE_SIZE,
      data.drop (1 + NONCE_VALUE_SIZE)⟩ = data := by
  cases data with
  | nil => exact absurd h (Nat.not_lt_zero _)
  | cons version rest =>
    have hrest : (version :: rest).drop (1 + NONCE_VALUE_SIZE) = rest.drop NONCE_VALUE_SIZE := by
      rw [Nat.add_comm, drop_succ_cons]
    simp [payload, hrest]

theorem cut_payload (h : Packable c) :
    (⟨c.payload.getD 0 0, (c.payload.drop 1).take NONCE_VALUE_SIZE,
      c.payload.drop (1 + NONCE_VALUE_SIZE)⟩ : RdbSecretContent) = c := by
  obtain ⟨version, nonce, encrypt⟩ := c
  have hnonce : nonce.length = NONCE_VALUE_SIZE := h.1
  have hdrop : (payload ⟨version, nonce, encrypt⟩).drop (1 + NONCE_VALUE_SIZE) = encrypt := by
    rw [payload, Nat.add_comm, drop_succ_cons, ← hnonce, drop_left]
  have htake : ((payload ⟨version, nonce, encrypt⟩).drop 1).take NONCE_VALUE_SIZE = nonce := by
    rw [payload, drop_one, tail_cons, ← hnonce, take_left]
  rw [hdrop, htake]
  rfl

theorem unpack_of_length (h : 21 < content.length) :
    (unpack hmac content).content.payload = content.take (content.length - HMAC_SIZE) := by
  have hdata : 1 + NONCE_VALUE_SIZE < (content.take (content.length - HMAC_SIZE)).length := by
    simp only [length_take, HMAC_SIZE, NONCE_VALUE_SIZE]
    omega
  rw [unpack, if_neg (by simp only [HMAC_SIZE]; omega)]
  dsimp only
  rw [if_neg (Nat.not_le.mpr hdata)]
  exact payload_cut hdata

theorem unpack_pack (h : Packable c) : unpack hmac (pack hmac c) = ⟨true, c, false⟩ := by
  have hlength : (pack hmac c).length - HMAC_SIZE = c.payload.length := by
    rw [pack, length_append, length_generateHMAC, Nat.add_sub_cancel]
  have hsize : 21 < (pack hmac c).length := length_pack_of_packable h
  rw [unpack, if_neg (by simp only [HMAC_SIZE]; omega)]
  dsimp only
  have htake : (pack hmac c).take ((pack hmac c).length - HMAC_SIZE) = c.payload := by
    rw [hlength, pack, take_left]
  have hdrop : (pack hmac c).drop ((pack hmac c).length - HMAC_SIZE) =
      generateHMAC hmac c.payload := by
    rw [hlength, pack, drop_left]
  have hdata : ¬ c.payload.length ≤ 1 + NONCE_VALUE_SIZE := by
    simp only [HMAC_SIZE] at hlength
    simp only [NONCE_VALUE_SIZE]
    omega
  rw [htake, hdrop, if_neg hdata, cut_payload h]
  simp

theorem pack_unpack (hlength : 21 < content.length) (h : HmacMatches hmac content) :
    Packable (unpack hmac content).content ∧ content = pack hmac (unpack hmac content).content := by
  have hpayload : (unpack hmac content).content.payload =
      content.take (content.length - HMAC_SIZE) := unpack_of_length hlength
  constructor
  · rw [unpack, if_neg (by simp only [HMAC_SIZE]; omega)]
    dsimp only
    rw [if_neg (by simp only [length_take, HMAC_SIZE, NONCE_VALUE_SIZE]; omega)]
    constructor
    · simp only [length_take, length_drop, HMAC_SIZE, NONCE_VALUE_SIZE]
      omega
    · refine ne_nil_of_length_pos ?_
      simp only [length_take, length_drop, HMAC_SIZE, NONCE_VALUE_SIZE]
      omega
  · rw [pack, hpayload, h, take_append_drop]

theorem authenticates_iff (hmac : List UInt8 → List UInt8) (content : List UInt8) :
    Authenticates hmac content ↔ content.length ≤ 21 ∨ HmacMatches hmac content := by
  constructor
  · intro h
    by_contra hnot
    obtain ⟨hlength, hmatch⟩ := not_or.mp hnot
    have hres := (unpack_res_iff hmac content).mpr (Nat.not_le.mp hlength)
    exact Bool.false_ne_true ((h.rejects hmatch).symm.trans hres)
  · intro h
    refine ⟨?_, ?_, ?_⟩
    · rw [unpack_res_iff]
      constructor
      · intro hlength
        have hmatch := h.resolve_left (Nat.not_le.mpr hlength)
        exact ⟨_, pack_unpack hlength hmatch⟩
      · rintro ⟨c, hc, rfl⟩
        exact length_pack_of_packable hc
    · rintro c hc rfl
      rw [unpack_pack hc]
    · intro hmatch
      have hlength := h.resolve_right hmatch
      rw [Bool.eq_false_iff, ne_eq, unpack_res_iff]
      exact Nat.not_lt.mpr hlength

def zerosDigest : List UInt8 :=
  [122, 213, 221, 126, 248, 81, 209, 223, 88, 254, 14, 68, 232, 5, 207, 240, 118, 35,
    183, 171, 244, 121, 197, 1, 141, 9, 83, 65, 125, 141, 163, 26]

theorem unpack_accepts_zeros :
    let content := List.replicate 22 0
    unpack (fun _ => zerosDigest) content = ⟨true, ⟨0, List.replicate 12 0, [0]⟩, true⟩ ∧
      ¬ Authenticates (fun _ => zerosDigest) content := by
  refine ⟨by decide, ?_⟩
  rw [authenticates_iff]
  unfold HmacMatches
  decide

end RdbSecurityManager

end RelationalStore
