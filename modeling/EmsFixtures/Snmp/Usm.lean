import EmsFixtures.Lib.Window
import EmsFixtures.Snmp.Response

/-!
# USM primitives

`usm.rs` over the ciphers and the MAC of its libraries (`Crypto`), of which only lengths are known.  Every slice in it
is in range except `build_iv`'s first eight octets of the privacy parameters, which come from the packet.
-/

namespace EmsFixtures.Snmp

open Panics

/-- HMAC-SHA-256 and AES-128 in CFB mode. -/
structure Crypto where
  hmacSha256 : Bytes → Bytes → Bytes
  length_hmacSha256 : ∀ key message, (hmacSha256 key message).length = 32
  cfbDecrypt : Bytes → Bytes → Bytes → Bytes
  cfbEncrypt : Bytes → Bytes → Bytes → Bytes

def privKeyLen : Nat := 16

def authTruncLen : Nat := 24

def toBeBytes (n : UInt32) : Bytes := [(n >>> 24).toUInt8, (n >>> 16).toUInt8, (n >>> 8).toUInt8, n.toUInt8]

/-- The truncated HMAC of a message; an HMAC takes a key of any length. -/
def hmacSign (crypto : Crypto) (authKey message : Bytes) : Except Panic Bytes :=
  sliceTo (crypto.hmacSha256 authKey message) authTruncLen

/-- IV = engineBoots(4B BE) || engineTime(4B BE) || priv_params(8B salt). -/
def buildIv (engineBoots engineTime : UInt32) (privParams : Bytes) : Except Panic Bytes := do
  let salt ← sliceTo privParams 8
  pure (toBeBytes engineBoots ++ toBeBytes engineTime ++ salt)

/-- `new_from_slices`: key and IV of AES-128, 16 octets each. -/
def newFromSlices (key iv : Bytes) : Option (Bytes × Bytes) :=
  if key.length = 16 ∧ iv.length = 16 then some (key, iv) else none

def aesCfbDecrypt (crypto : Crypto) (ciphertext privKey : Bytes) (engineBoots engineTime : UInt32)
    (privParams : Bytes) : Except Panic Bytes := do
  let iv ← buildIv engineBoots engineTime privParams
  let key ← sliceTo privKey privKeyLen
  let (key, iv) ← expect "AES-128 key/iv length" (newFromSlices key iv)
  pure (crypto.cfbDecrypt key iv ciphertext)

abbrev Salt := { bytes : Bytes // bytes.length = 8 }

/-- Ciphertext and the salt, here the random octets drawn for it. -/
def aesCfbEncrypt (crypto : Crypto) (plaintext privKey : Bytes) (engineBoots engineTime : UInt32) (privParams : Salt) :
    Except Panic (Bytes × Bytes) := do
  let iv ← buildIv engineBoots engineTime privParams.1
  let key ← sliceTo privKey privKeyLen
  let (key, iv) ← expect "AES-128 key/iv length" (newFromSlices key iv)
  pure (crypto.cfbEncrypt key iv plaintext, privParams.1)

/-! ### What returns -/

def authTag (crypto : Crypto) (authKey message : Bytes) : Bytes :=
  (crypto.hmacSha256 authKey message).take authTruncLen

@[simp] theorem length_authTag (crypto : Crypto) (authKey message : Bytes) :
    (authTag crypto authKey message).length = authTruncLen := by
  rw [authTag, List.length_take, crypto.length_hmacSha256]
  rfl

theorem hmacSign_eq (crypto : Crypto) (authKey message : Bytes) :
    hmacSign crypto authKey message = .ok (authTag crypto authKey message) :=
  sliceTo_eq_ok_iff.2 ⟨by rw [crypto.length_hmacSha256]; decide, rfl⟩

theorem buildIv_eq_ok_iff {engineBoots engineTime : UInt32} {privParams iv : Bytes} :
    buildIv engineBoots engineTime privParams = .ok iv ↔
      8 ≤ privParams.length ∧ iv = toBeBytes engineBoots ++ toBeBytes engineTime ++ privParams.take 8 := by
  unfold buildIv
  rw [bind_eq_ok_iff]
  constructor
  · intro h
    obtain ⟨salt, hs, h⟩ := h
    obtain ⟨hle, rfl⟩ := sliceTo_eq_ok_iff.1 hs
    cases h
    exact ⟨hle, rfl⟩
  · intro h
    obtain ⟨hle, rfl⟩ := h
    exact ⟨_, sliceTo_eq_ok_iff.2 ⟨hle, rfl⟩, rfl⟩

private theorem newFromSlices_eq {privKey iv privParams : Bytes} {engineBoots engineTime : UInt32}
    (hkey : privKey.length = privKeyLen) (hiv : buildIv engineBoots engineTime privParams = .ok iv) :
    newFromSlices privKey iv = some (privKey, iv) := by
  obtain ⟨hle, rfl⟩ := buildIv_eq_ok_iff.1 hiv
  refine if_pos ⟨hkey, ?_⟩
  simp only [toBeBytes, List.length_append, List.length_cons, List.length_nil, List.length_take]
  omega

private theorem sliceTo_self {privKey : Bytes} (hkey : privKey.length = privKeyLen) :
    sliceTo privKey privKeyLen = .ok privKey :=
  sliceTo_eq_ok_iff.2 ⟨hkey.ge, by rw [← hkey, List.take_length]⟩

/-- Decryption panics exactly on privacy parameters of fewer than 8 octets. -/
theorem returns_aesCfbDecrypt_iff {crypto : Crypto} {ciphertext privKey privParams : Bytes}
    {engineBoots engineTime : UInt32} (hkey : privKey.length = privKeyLen) :
    Returns (aesCfbDecrypt crypto ciphertext privKey engineBoots engineTime privParams) ↔ 8 ≤ privParams.length := by
  unfold aesCfbDecrypt
  rw [returns_bind_iff]
  constructor
  · intro h
    obtain ⟨iv, hiv, -⟩ := h
    exact (buildIv_eq_ok_iff.1 hiv).1
  · intro hle
    have hiv : buildIv engineBoots engineTime privParams = .ok _ := buildIv_eq_ok_iff.2 ⟨hle, rfl⟩
    exact ⟨_, hiv, returns_bind_iff.2 ⟨privKey, sliceTo_self hkey,
      returns_bind_iff.2 ⟨_, expect_eq_ok_iff.2 (newFromSlices_eq hkey hiv), returns_pure _⟩⟩⟩

theorem returns_aesCfbEncrypt (crypto : Crypto) (plaintext : Bytes) {privKey : Bytes} (engineBoots engineTime : UInt32)
    (hkey : privKey.length = privKeyLen) (privParams : Salt) :
    Returns (aesCfbEncrypt crypto plaintext privKey engineBoots engineTime privParams) := by
  have hiv : buildIv engineBoots engineTime privParams.1 = .ok _ := buildIv_eq_ok_iff.2 ⟨privParams.2.ge, rfl⟩
  exact returns_bind_iff.2 ⟨_, hiv, returns_bind_iff.2 ⟨privKey, sliceTo_self hkey,
    returns_bind_iff.2 ⟨_, expect_eq_ok_iff.2 (newFromSlices_eq hkey hiv), returns_pure _⟩⟩⟩

/-! ### There and back -/

/-- The IV of a message that carries its salt. -/
def ivOf (engineBoots engineTime : UInt32) (salt : Salt) : Bytes := toBeBytes engineBoots ++ toBeBytes engineTime ++ salt.1

private theorem buildIv_salt (engineBoots engineTime : UInt32) (salt : Salt) :
    buildIv engineBoots engineTime salt.1 = .ok (ivOf engineBoots engineTime salt) := by
  refine buildIv_eq_ok_iff.2 ⟨salt.2.ge, ?_⟩
  rw [List.take_of_length_le salt.2.le, ivOf]

theorem aesCfbEncrypt_eq (crypto : Crypto) (plaintext : Bytes) {privKey : Bytes} (engineBoots engineTime : UInt32)
    (hkey : privKey.length = privKeyLen) (salt : Salt) :
    aesCfbEncrypt crypto plaintext privKey engineBoots engineTime salt =
      .ok (crypto.cfbEncrypt privKey (ivOf engineBoots engineTime salt) plaintext, salt.1) := by
  have hiv := buildIv_salt engineBoots engineTime salt
  exact bind_eq_ok_iff.2 ⟨_, hiv, bind_eq_ok_iff.2 ⟨privKey, sliceTo_self hkey,
    bind_eq_ok_iff.2 ⟨_, expect_eq_ok_iff.2 (newFromSlices_eq hkey hiv), rfl⟩⟩⟩

theorem aesCfbDecrypt_eq (crypto : Crypto) (ciphertext : Bytes) {privKey : Bytes} (engineBoots engineTime : UInt32)
    (hkey : privKey.length = privKeyLen) (salt : Salt) :
    aesCfbDecrypt crypto ciphertext privKey engineBoots engineTime salt.1 =
      .ok (crypto.cfbDecrypt privKey (ivOf engineBoots engineTime salt) ciphertext) := by
  have hiv := buildIv_salt engineBoots engineTime salt
  exact bind_eq_ok_iff.2 ⟨_, hiv, bind_eq_ok_iff.2 ⟨privKey, sliceTo_self hkey,
    bind_eq_ok_iff.2 ⟨_, expect_eq_ok_iff.2 (newFromSlices_eq hkey hiv), rfl⟩⟩⟩

end EmsFixtures.Snmp
