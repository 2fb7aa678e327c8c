import EmsFixtures.Snmp.AuthGate

/-!
# Where the received tag is looked for

`verify_hmac` zeroes the first `04 18 <tag>` of the datagram, which is not always the field the tag was decoded from: a
client may write the field's length in a longer form, and the octets may stand earlier in what it sends.  It checks the
right octets iff neither happens, or the tag is zero already (`verify_hmac_iff`).
-/

namespace EmsFixtures.Snmp

open Ber Panics

/-- A datagram around the content of its `authentication_parameters`, whose length octets are `octets`. -/
def tagged (pre octets tag post : Bytes) : Bytes := pre ++ 0x04 :: octets ++ tag ++ post

/-- The tag is accepted iff it is the HMAC of the datagram with the field zeroed, whatever the MAC and the key. -/
def ChecksField (usmParams : USMSecurityParameters) (pre octets post : Bytes) : Prop :=
  ∀ crypto authKey,
    verifyHmac crypto (tagged pre octets usmParams.authenticationParameters post) usmParams authKey = .ok true ↔
      hmacSign crypto authKey (tagged pre octets zeroAuth post) = .ok usmParams.authenticationParameters

/-- The length is in the short form, and no `04 18 <tag>` starts before the field. -/
def FieldFirst (pre octets tag post : Bytes) : Prop :=
  octets = [0x18] ∧
    ∀ before after, tagged pre octets tag post = before ++ authNeedle tag ++ after → pre.length ≤ before.length

variable {usmParams : USMSecurityParameters} {raw : Bytes}

/-! ### What is checked -/

theorem verifyHmac_of_missing (crypto : Crypto) (authKey : Bytes)
    (h : findWindow (authNeedle usmParams.authenticationParameters) raw = none) :
    verifyHmac crypto raw usmParams authKey = .ok false := by
  unfold verifyHmac
  dsimp only
  rw [h]
  split <;> rfl

theorem verifyHmac_of_found (crypto : Crypto) (authKey : Bytes) {before after : Bytes}
    (hlen : usmParams.authenticationParameters.length = authTruncLen)
    (hraw : raw = before ++ authNeedle usmParams.authenticationParameters ++ after)
    (h : findWindow (authNeedle usmParams.authenticationParameters) raw = some before.length) :
    verifyHmac crypto raw usmParams authKey = .ok true ↔
      hmacSign crypto authKey (before ++ authNeedle zeroAuth ++ after) = .ok usmParams.authenticationParameters := by
  have hcopy : copyFromSlice raw (before.length + 2) authTruncLen zeroAuth =
      .ok (before ++ authNeedle zeroAuth ++ after) := by
    have := copyFromSlice_append (before ++ [0x04, UInt8.ofNat authTruncLen]) usmParams.authenticationParameters
      zeroAuth after (length_zeroAuth.trans hlen.symm)
    rw [List.length_append, hlen] at this
    rw [hraw]
    simpa [authNeedle] using this
  unfold verifyHmac
  dsimp only
  rw [if_neg (not_not.2 hlen), h]
  dsimp only
  rw [hcopy, hmacSign_eq, bind_eq_ok_iff]
  simp only [Except.ok.injEq, exists_eq_left']
  rw [hmacSign_eq, bind_eq_ok_iff]
  simp [pure, Except.pure]

/-! ### A MAC that tells two messages apart -/

/-- The MAC that has the tag for one message, and another for every other. -/
def tellTale (message : Bytes) (tag : Bytes) (hlen : tag.length = authTruncLen) : Crypto where
  hmacSha256 _ m := (if m = message then tag else tag.map (· + 1)) ++ List.replicate 8 0
  length_hmacSha256 _ m := by
    split <;> simp [hlen, authTruncLen]
  cfbDecrypt _ _ ciphertext := ciphertext
  cfbEncrypt _ _ plaintext := plaintext

theorem hmacSign_tellTale_iff {message tag authKey m : Bytes} (hlen : tag.length = authTruncLen) :
    hmacSign (tellTale message tag hlen) authKey m = .ok tag ↔ m = message := by
  have hne : tag.map (· + 1) ≠ tag := by
    obtain ⟨b, tag, rfl⟩ := List.exists_cons_of_length_eq_add_one hlen
    intro h
    have hb : b + 1 = b := (List.cons_eq_cons.1 h).1
    simp at hb
  have htag : authTag (tellTale message tag hlen) authKey m = if m = message then tag else tag.map (· + 1) := by
    have hlen' : (if m = message then tag else tag.map (· + 1)).length = authTruncLen := by
      split <;> simp [hlen]
    rw [authTag, tellTale, ← hlen', List.take_left]
  rw [hmacSign_eq, htag]
  split
  · rename_i h
    simp [h]
  · rename_i h
    simp [h, hne]

/-- The check is right iff the first window is found and zeroing it is zeroing the field. -/
theorem checksField_of_found {pre octets post before after : Bytes}
    (hlen : usmParams.authenticationParameters.length = authTruncLen)
    (hraw : tagged pre octets usmParams.authenticationParameters post =
      before ++ authNeedle usmParams.authenticationParameters ++ after)
    (h : findWindow (authNeedle usmParams.authenticationParameters)
      (tagged pre octets usmParams.authenticationParameters post) = some before.length) :
    ChecksField usmParams pre octets post ↔
      before ++ authNeedle zeroAuth ++ after = tagged pre octets zeroAuth post := by
  unfold ChecksField
  simp only [verifyHmac_of_found _ _ hlen hraw h]
  constructor
  · intro hall
    have hsame := hall (tellTale (tagged pre octets zeroAuth post) usmParams.authenticationParameters hlen) []
    rw [hmacSign_tellTale_iff, hmacSign_tellTale_iff] at hsame
    exact hsame.2 rfl
  · intro hsame crypto authKey
    rw [hsame]

theorem not_checksField_of_missing {pre octets post : Bytes}
    (hlen : usmParams.authenticationParameters.length = authTruncLen)
    (h : findWindow (authNeedle usmParams.authenticationParameters)
      (tagged pre octets usmParams.authenticationParameters post) = none) :
    ¬ ChecksField usmParams pre octets post := by
  intro hall
  have hsame := hall (tellTale (tagged pre octets zeroAuth post) usmParams.authenticationParameters hlen) []
  rw [hmacSign_tellTale_iff, verifyHmac_of_missing _ _ h] at hsame
  cases hsame.2 rfl

theorem authNeedle_ne_nil (tag : Bytes) : authNeedle tag ≠ [] := List.cons_ne_nil _ _

/-- The zeroed window is the zeroed field iff it is the field, or the tag is zero. -/
theorem zeroed_eq_iff {pre octets tag post before after : Bytes} (hlen : tag.length = authTruncLen)
    (hraw : tagged pre octets tag post = before ++ authNeedle tag ++ after) :
    before ++ authNeedle zeroAuth ++ after = tagged pre octets zeroAuth post ↔
      (before ++ [0x04, 0x18]).length = (pre ++ 0x04 :: octets).length ∨ tag = zeroAuth := by
  have hzero : zeroAuth = List.replicate tag.length 0 := by rw [hlen, zeroAuth]
  have hneedle : ∀ t : Bytes, before ++ authNeedle t ++ after = before ++ [0x04, 0x18] ++ t ++ after := by
    intro t
    simp [authNeedle, authTruncLen]
  rw [hneedle] at hraw ⊢
  rw [hzero]
  exact blank_eq_iff hraw

/-- `verify_hmac` checks the field the tag came from iff the first `04 18 <tag>` of the datagram is that field, or the
tag is zero and such octets stand somewhere. -/
theorem verify_hmac_iff {pre octets post : Bytes} (hoctets : LegalLength authTruncLen octets)
    (hlen : usmParams.authenticationParameters.length = authTruncLen) :
    ChecksField usmParams pre octets post ↔
      FieldFirst pre octets usmParams.authenticationParameters post ∨
        (usmParams.authenticationParameters = zeroAuth ∧ authNeedle usmParams.authenticationParameters <:+:
          tagged pre octets usmParams.authenticationParameters post) := by
  have hpre : tagged pre [0x18] usmParams.authenticationParameters post =
      pre ++ authNeedle usmParams.authenticationParameters ++ post := by
    simp [tagged, authNeedle, authTruncLen]
  have hne := authNeedle_ne_nil usmParams.authenticationParameters
  cases hfound : findWindow (authNeedle usmParams.authenticationParameters)
      (tagged pre octets usmParams.authenticationParameters post) with
  | none =>
    have hnone := ne_of_findWindow_eq_none hne hfound
    refine iff_of_false (not_checksField_of_missing hlen hfound) ?_
    rintro (⟨rfl, -⟩ | ⟨-, before, after, hraw⟩)
    · exact hnone pre post hpre
    · exact hnone before after hraw.symm
  | some q =>
    obtain ⟨before, after, hraw, rfl⟩ := findWindow_eq_append hfound
    rw [checksField_of_found hlen hraw hfound, zeroed_eq_iff hlen hraw]
    constructor
    · rintro (hplace | hzero)
      · left
        have hsplit : before ++ [0x04, 0x18] = pre ++ 0x04 :: octets := by
          have h : before ++ [0x04, 0x18] ++ (usmParams.authenticationParameters ++ after) =
              pre ++ 0x04 :: octets ++ (usmParams.authenticationParameters ++ post) := by
            simpa [tagged, authNeedle, authTruncLen] using hraw.symm
          exact List.append_inj_left h hplace
        -- a longer form would show its own octets in front of the window's content
        obtain ⟨hshort, rfl⟩ := hoctets.eq_short (by decide) hsplit
        exact ⟨hshort, fun before' after' hraw' => findWindow_min hne hraw' hfound⟩
      · exact Or.inr ⟨hzero, before, after, hraw.symm⟩
    · rintro (⟨rfl, hmin⟩ | ⟨hzero, -⟩)
      · left
        have := le_antisymm (findWindow_min hne hpre hfound) (hmin before after hraw)
        simp [this]
      · exact Or.inr hzero

theorem verify_hmac_iff_signed : ChecksField signedUsm
    (beforeAuth signedRequest signedUsm (mockScopedBytes currentRequest)) [0x18]
    (afterAuth signedUsm (mockScopedBytes currentRequest)) := by
  refine (verify_hmac_iff (.short (by decide)) (by decide)).2 (Or.inl ⟨rfl, fun before after hraw => ?_⟩)
  have hfound : findWindow (authNeedle signedUsm.authenticationParameters)
      (tagged (beforeAuth signedRequest signedUsm (mockScopedBytes currentRequest)) [0x18]
        signedUsm.authenticationParameters (afterAuth signedUsm (mockScopedBytes currentRequest))) =
      some (beforeAuth signedRequest signedUsm (mockScopedBytes currentRequest)).length := by
    decide +kernel
  exact findWindow_min (authNeedle_ne_nil _) hraw hfound

/-! ### A length of two octets -/

/-- The HMAC of the request below with its tag zeroed. -/
def longFormDigest : Digest :=
  ⟨[0xFD, 0xCE, 0x8D, 0xDF, 0xA3, 0x49, 0x74, 0xAB, 0x03, 0x8D, 0x48, 0xC7, 0x21, 0xAB, 0x0E, 0xC9, 0x1A, 0x13,
    0x1E, 0x68, 0xFA, 0x23, 0xBD, 0x50, 0xFB, 0xC4, 0x0E, 0xE5, 0x81, 0xF3, 0x3E, 0x1D], rfl⟩

def longFormUsm : USMSecurityParameters := gatewayUsm (longFormDigest.1.take authTruncLen) []

/-- What a client sends before the `authentication_parameters` if it writes their length as `81 18`. -/
def longFormPre : Bytes :=
  [0x30, 0x81, 0x87] ++ integer 3 ++ headerBytes signedRequest.globalData ++ [0x04, 0x3D, 0x30, 0x3B] ++
    usmContentBefore longFormUsm

def longFormPost : Bytes := afterAuth longFormUsm (mockScopedBytes currentRequest)

def longFormCrypto : Crypto := mockCrypto [(tagged longFormPre [0x81, 0x18] zeroAuth longFormPost, longFormDigest)]

/-- A request signed over its own octets is refused. -/
theorem long_form_refused : LegalLength authTruncLen [0x81, 0x18] ∧
    hmacSign longFormCrypto gatewayUser.authKey (tagged longFormPre [0x81, 0x18] zeroAuth longFormPost) =
      .ok longFormUsm.authenticationParameters ∧
    verifyHmac longFormCrypto (tagged longFormPre [0x81, 0x18] longFormUsm.authenticationParameters longFormPost)
      longFormUsm gatewayUser.authKey = .ok false ∧
    ¬ ChecksField longFormUsm longFormPre [0x81, 0x18] longFormPost := by
  have hsign : hmacSign longFormCrypto gatewayUser.authKey (tagged longFormPre [0x81, 0x18] zeroAuth longFormPost) =
      .ok longFormUsm.authenticationParameters := by
    decide +kernel
  have hverify : verifyHmac longFormCrypto
      (tagged longFormPre [0x81, 0x18] longFormUsm.authenticationParameters longFormPost) longFormUsm
      gatewayUser.authKey = .ok false := by
    decide +kernel
  refine ⟨.long [0x18] (by decide) (by decide) rfl, hsign, hverify, fun h => ?_⟩
  have htrue := (h longFormCrypto gatewayUser.authKey).2 hsign
  rw [hverify] at htrue
  cases htrue

end EmsFixtures.Snmp
