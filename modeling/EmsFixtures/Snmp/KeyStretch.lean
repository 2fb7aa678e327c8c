import EmsFixtures.Lib.Cyclic
import EmsFixtures.Snmp.V3

/-!
# Localized keys

`derive_localized_key` of `usm.rs` and `register_user` of `v3.rs`.  The password is repeated to 1 MiB through a buffer
of 64 octets; the cursor is kept from one buffer to the next, so the hash is fed the password around and around
(`Stretched`), whatever its length.  An empty password panics at its first octet.
-/

namespace EmsFixtures.Snmp

open Panics Cyclic

/-! ### `derive_localized_key` -/

/-- `Sha256`: what it has been fed. -/
structure Hasher where
  fed : Bytes

namespace Hasher

def new : Hasher := ⟨[]⟩

def update (h : Hasher) (data : Bytes) : Hasher := ⟨h.fed ++ data⟩

def finalize (sha256 : Bytes → Bytes) (h : Hasher) : Bytes := sha256 h.fed

end Hasher

/-- What the loop over the buffers changes. -/
structure Stretch where
  hasher : Hasher
  passwordIndex : Nat
  buf : Bytes

/-- One pass over the buffer: each octet becomes the password's at the cursor. -/
def refill (password : Bytes) : Bytes → Nat → Except Panic (Bytes × Nat)
  | [], passwordIndex => pure ([], passwordIndex)
  | _ :: buf, passwordIndex => do
    let byte ← indexAt password passwordIndex
    let (buf, passwordIndex) ← refill password buf ((passwordIndex + 1) % password.length)
    pure (byte :: buf, passwordIndex)

def feedBuffer (password : Bytes) (s : Stretch) : Except Panic Stretch := do
  let (buf, passwordIndex) ← refill password s.buf s.passwordIndex
  pure { hasher := s.hasher.update buf, passwordIndex, buf }

def feedBuffers (password : Bytes) : Nat → Stretch → Except Panic Stretch
  | 0, s => pure s
  | n + 1, s => do
    let s ← feedBuffer password s
    feedBuffers password n s

/-- The hasher that has been fed the stretched password. -/
def stretchPassword (password : Bytes) : Except Panic Hasher := do
  let s ← feedBuffers password 16384 { hasher := .new, passwordIndex := 0, buf := List.replicate 64 0 }
  pure s.hasher

/-- Hash 1MB of stretched password, then localize against the engine id with `H(key || engineID || key)`. -/
def deriveLocalizedKey (sha256 : Bytes → Bytes) (password engineId : Bytes) : Except Panic Bytes := do
  let hasher ← stretchPassword password
  let key := hasher.finalize sha256
  pure ((((Hasher.new.update key).update engineId).update key).finalize sha256)

/-- Register a user, deriving both keys from the passphrases. -/
def AgentState.registerUser (sha256 : Bytes → Bytes) (s : AgentState) (securityName : String)
    (authPass privPass : Bytes) : Except Panic AgentState := do
  let authKey ← deriveLocalizedKey sha256 authPass s.engineId
  let privKey ← deriveLocalizedKey sha256 privPass s.engineId
  if h : privKeyLen ≤ privKey.length then
    let user : UsmUser :=
      { authKey, privKey := privKey.take privKeyLen, length_privKey := List.length_take_of_le h }
    pure { s with users := s.users.insert securityName user }
  else .error .sliceRange

/-! ### One buffer -/

variable {password : Bytes}

theorem refill_reads (h : password ≠ []) (buf : Bytes) {cursor : Nat} (hc : cursor < password.length) :
    ∃ out, refill password buf cursor = .ok (out, (cursor + buf.length) % password.length) ∧
      out.length = buf.length ∧ Reads password cursor out := by
  induction buf generalizing cursor with
  | nil => exact ⟨[], by rw [refill, List.length_nil, Nat.add_zero, Nat.mod_eq_of_lt hc]; rfl, rfl, reads_nil cursor⟩
  | cons b buf ih =>
    have hpos : 0 < password.length := List.length_pos_of_ne_nil h
    have hbyte : password[cursor]? = some password[cursor] := List.getElem?_eq_getElem hc
    obtain ⟨out, hout, hlen, hreads⟩ := ih (Nat.mod_lt (cursor + 1) hpos)
    have hcursor : ((cursor + 1) % password.length + buf.length) % password.length =
        (cursor + (b :: buf).length) % password.length := by
      rw [Nat.mod_add_mod, List.length_cons, Nat.add_assoc, Nat.add_comm 1]
    rw [hcursor] at hout
    refine ⟨password[cursor] :: out, ?_, by rw [List.length_cons, hlen, List.length_cons], ?_⟩
    · rw [refill, indexAt_eq_ok_iff.2 hbyte]
      exact bind_eq_ok_iff.2 ⟨_, rfl, bind_eq_ok_iff.2 ⟨_, hout, rfl⟩⟩
    · have hfirst : Reads password cursor [password[cursor]] :=
        reads_singleton (by rw [Nat.mod_eq_of_lt hc, hbyte])
      exact reads_append hfirst (reads_mod.1 hreads)

/-! ### The whole stream -/

/-- After `n` buffers: the password around and around, and the cursor where the next octet is. -/
structure Stretched (password : Bytes) (n : Nat) (s : Stretch) : Prop where
  length_fed : s.hasher.fed.length = 64 * n
  fed : Reads password 0 s.hasher.fed
  cursor : s.passwordIndex = 64 * n % password.length
  buf : s.buf.length = 64

theorem Stretched.feedBuffer (h : password ≠ []) {n : Nat} {s : Stretch} (hs : Stretched password n s) :
    ∃ t, Snmp.feedBuffer password s = .ok t ∧ Stretched password (n + 1) t := by
  have hcursor : s.passwordIndex < password.length := by
    rw [hs.cursor]
    exact Nat.mod_lt _ (List.length_pos_of_ne_nil h)
  obtain ⟨out, hout, hlen, hreads⟩ := refill_reads h s.buf hcursor
  rw [hs.buf] at hlen
  refine ⟨_, bind_eq_ok_iff.2 ⟨_, hout, rfl⟩, ?_, ?_, ?_, hlen⟩
  · show (s.hasher.fed ++ out).length = _
    rw [List.length_append, hs.length_fed, hlen]
    omega
  · rw [hs.cursor] at hreads
    apply reads_append hs.fed
    rw [Nat.zero_add, hs.length_fed]
    exact reads_mod.1 hreads
  · show (s.passwordIndex + s.buf.length) % password.length = _
    rw [hs.cursor, hs.buf, Nat.mod_add_mod]
    rfl

theorem Stretched.feedBuffers (h : password ≠ []) (k : Nat) {n : Nat} {s : Stretch} (hs : Stretched password n s) :
    ∃ t, Snmp.feedBuffers password k s = .ok t ∧ Stretched password (n + k) t := by
  induction k generalizing n s with
  | zero => exact ⟨s, rfl, hs⟩
  | succ k ih =>
    obtain ⟨u, hu, hu'⟩ := hs.feedBuffer h
    obtain ⟨t, ht, ht'⟩ := ih hu'
    have hcount : n + 1 + k = n + (k + 1) := by omega
    rw [hcount] at ht'
    exact ⟨t, bind_eq_ok_iff.2 ⟨u, hu, ht⟩, ht'⟩

theorem stretchPassword_stretched (h : password ≠ []) :
    ∃ s : Stretch, stretchPassword password = .ok s.hasher ∧ Stretched password 16384 s := by
  have hstart : Stretched password 0 { hasher := .new, passwordIndex := 0, buf := List.replicate 64 0 } :=
    ⟨rfl, reads_nil 0, (Nat.zero_mod _).symm, List.length_replicate⟩
  obtain ⟨s, hs, hstretched⟩ := hstart.feedBuffers h 16384
  exact ⟨s, bind_eq_ok_iff.2 ⟨s, hs, rfl⟩, hstretched⟩

theorem deriveLocalizedKey_of_stretch {sha256 : Bytes → Bytes} {engineId : Bytes} {hasher : Hasher}
    (h : stretchPassword password = .ok hasher) : deriveLocalizedKey sha256 password engineId =
      .ok (sha256 (sha256 hasher.fed ++ engineId ++ sha256 hasher.fed)) :=
  bind_eq_ok_iff.2 ⟨hasher, h, rfl⟩

/-- The stream fed to the first hash is the password repeated to 1048576 octets, no index into the password is out of
bounds, and the key is the hash of the stream localized to the engine. -/
theorem derive_localized_key_stretches (sha256 : Bytes → Bytes) (password engineId : Bytes) (h : password ≠ []) :
    ∃ stream : Bytes, stretchPassword password = .ok ⟨stream⟩ ∧ stream.length = 1048576 ∧
      (∀ i < 1048576, stream[i]? = password[i % password.length]?) ∧
      deriveLocalizedKey sha256 password engineId = .ok (sha256 (sha256 stream ++ engineId ++ sha256 stream)) := by
  obtain ⟨s, hs, hstretched⟩ := stretchPassword_stretched h
  have hlength : s.hasher.fed.length = 1048576 := hstretched.length_fed
  refine ⟨s.hasher.fed, hs, hlength, fun i hi => ?_, deriveLocalizedKey_of_stretch hs⟩
  rw [← hlength] at hi
  have hread := hstretched.fed i hi
  rwa [Nat.zero_add] at hread

/-- Ten octets, which do not divide a buffer: the last octet of the stream is the sixth. -/
theorem derive_localized_key_stretches_ten : ∃ stream : Bytes,
    stretchPassword [0x6D, 0x61, 0x70, 0x6C, 0x65, 0x73, 0x79, 0x72, 0x75, 0x70] = .ok ⟨stream⟩ ∧
      stream.length = 1048576 ∧ stream[64]? = some 0x65 ∧ stream[1048575]? = some 0x73 := by
  obtain ⟨stream, hstream, hlength, hread, -⟩ := derive_localized_key_stretches id
    [0x6D, 0x61, 0x70, 0x6C, 0x65, 0x73, 0x79, 0x72, 0x75, 0x70] [] (List.cons_ne_nil _ _)
  exact ⟨stream, hstream, hlength, hread 64 (by norm_num), hread 1048575 (by norm_num)⟩

/-! ### What returns -/

theorem not_returns_stretchPassword_nil : ¬ Returns (stretchPassword []) := by
  have hfirst : ∀ s : Stretch, s.buf ≠ [] → feedBuffer [] s = .error .index := by
    intro s hs
    obtain ⟨b, buf, hbuf⟩ := List.exists_cons_of_ne_nil hs
    unfold feedBuffer
    rw [hbuf]
    rfl
  intro h
  obtain ⟨s, hs, -⟩ := returns_bind_iff.1 h
  have hloop : feedBuffers [] (16383 + 1) { hasher := .new, passwordIndex := 0, buf := List.replicate 64 0 } = .ok s :=
    hs
  obtain ⟨u, hu, -⟩ := bind_eq_ok_iff.1 hloop
  rw [hfirst _ (List.cons_ne_nil _ _)] at hu
  cases hu

theorem returns_deriveLocalizedKey_iff {sha256 : Bytes → Bytes} {engineId : Bytes} :
    Returns (deriveLocalizedKey sha256 password engineId) ↔ password ≠ [] := by
  constructor
  · rintro h rfl
    obtain ⟨hasher, hasher_eq, -⟩ := returns_bind_iff.1 h
    exact not_returns_stretchPassword_nil ⟨hasher, hasher_eq⟩
  · intro h
    obtain ⟨s, hs, -⟩ := stretchPassword_stretched h
    exact ⟨_, deriveLocalizedKey_of_stretch hs⟩

/-- The agent registers its user unless a passphrase is empty. -/
theorem returns_registerUser_iff {sha256 : Bytes → Bytes} (hlen : ∀ bytes, (sha256 bytes).length = 32)
    {s : AgentState} {securityName : String} {authPass privPass : Bytes} :
    Returns (s.registerUser sha256 securityName authPass privPass) ↔ authPass ≠ [] ∧ privPass ≠ [] := by
  unfold AgentState.registerUser
  constructor
  · intro h
    obtain ⟨authKey, hauth, h⟩ := returns_bind_iff.1 h
    obtain ⟨privKey, hpriv, -⟩ := returns_bind_iff.1 h
    exact ⟨returns_deriveLocalizedKey_iff.1 ⟨_, hauth⟩, returns_deriveLocalizedKey_iff.1 ⟨_, hpriv⟩⟩
  · intro h
    obtain ⟨authKey, hauth⟩ := returns_deriveLocalizedKey_iff.2 h.1
    obtain ⟨t, ht, -⟩ := stretchPassword_stretched h.2
    refine returns_bind_iff.2 ⟨authKey, hauth, returns_bind_iff.2 ⟨_, deriveLocalizedKey_of_stretch ht, ?_⟩⟩
    rw [dif_pos (by rw [hlen]; decide)]
    exact returns_pure _

/-! ### Passphrases that stretch alike -/

/-- Two passphrases derive the same keys, whatever the hash and the engine, iff both repeat one word. -/
theorem same_keys_iff {p q : Bytes} (hp : p ≠ []) (hq : q ≠ [])
    (hlen : p.length + q.length ≤ 1048576 + p.length.gcd q.length) :
    (∀ sha256 engineId, deriveLocalizedKey sha256 p engineId = deriveLocalizedKey sha256 q engineId) ↔
      ∃ (word : Bytes) (m n : ℕ), p = (List.replicate m word).flatten ∧ q = (List.replicate n word).flatten := by
  obtain ⟨s, hs, hstretched⟩ := stretchPassword_stretched hp
  obtain ⟨t, ht, htretched⟩ := stretchPassword_stretched hq
  have hlength : s.hasher.fed.length = 1048576 := hstretched.length_fed
  have hlength' : t.hasher.fed.length = 1048576 := htretched.length_fed
  rw [← reads_iff_repeated hp hq hstretched.fed (by omega)]
  simp only [deriveLocalizedKey_of_stretch hs, deriveLocalizedKey_of_stretch ht]
  constructor
  · intro h
    -- the identity is a hash that tells the streams apart
    have hid := Except.ok.inj (h id [])
    have hfed : s.hasher.fed = t.hasher.fed := by
      simp only [id_eq, List.append_nil] at hid
      exact List.append_inj_left hid (hlength.trans hlength'.symm)
    rw [hfed]
    exact htretched.fed
  · intro h sha256 engineId
    rw [eq_of_reads h htretched.fed (hlength.trans hlength'.symm)]

/-- `maple` and `maplemaple`. -/
theorem same_keys_iff_maple :
    deriveLocalizedKey (fun bytes => bytes.take 32) [0x6D, 0x61, 0x70, 0x6C, 0x65] [0x80, 0x00, 0x86, 0x9F, 5] =
      deriveLocalizedKey (fun bytes => bytes.take 32) [0x6D, 0x61, 0x70, 0x6C, 0x65, 0x6D, 0x61, 0x70, 0x6C, 0x65]
        [0x80, 0x00, 0x86, 0x9F, 5] :=
  (same_keys_iff (List.cons_ne_nil _ _) (List.cons_ne_nil _ _) (by decide)).2
    ⟨[0x6D, 0x61, 0x70, 0x6C, 0x65], 1, 2, rfl, rfl⟩ _ _

end EmsFixtures.Snmp
