import Redskilled.Foundation.Utf8

/-!
# Encrypted payloads

A payload travels as two texts, the nonce and the cipher in the URL's spelling of base 64.
The boxes and the base 64 of bytes are those of their packages and are arguments here. The
spelling is the code's own: before it is read, `-` and `_` become `+` and `/` and the padding
is filled up, so that one run of bytes has several spellings.
-/
namespace Redskilled.Link
open Foundation

abbrev Bytes := List ℕ

structure LinkPrimitives where
  toByteArray : Text → Except Text Bytes
  fromByteArray : Bytes → Text
  secretbox : Bytes → Bytes → Bytes → Bytes
  secretboxOpen : Bytes → Bytes → Bytes → Except Text (Option Bytes)
  hash : Bytes → Bytes

/-- `nacl.secretbox.keyLength`. -/
def keyLength : ℕ := 32

structure EncryptedLinkPayload where
  nonce : Text
  payload : Text

def toUrlChar (c : Char) : Char := if c = '+' then '-' else if c = '/' then '_' else c

def fromUrlChar (c : Char) : Char := if c = '-' then '+' else if c = '_' then '/' else c

/-- `t.padEnd(n, "=")`. -/
def padEnd (t : Text) (n : ℕ) : Text :=
  t ++ List.replicate (n - (t.flatMap Text.utf16).length) '='

/-- The text that the decoder of the package is given. -/
def normalized (value : Text) : Text :=
  let replaced := value.map fromUrlChar
  padEnd replaced (((replaced.flatMap Text.utf16).length + 3) / 4 * 4)

section
variable (P : LinkPrimitives)

def base64Url (value : Bytes) : Text :=
  ((P.fromByteArray value).map toUrlChar).rdropWhile (· == '=')

def fromBase64Url (value : Text) : Except Text Bytes := P.toByteArray (normalized value)

def requireKey (secret : Text) : Except Text Bytes := do
  let key ← fromBase64Url P secret
  if key.length = keyLength then .ok key else .error "invalid redskilled-link secret".toList

def deriveDeviceSecret (inviteSecret deviceId : Text) : Except Text Text := do
  let seed ← fromBase64Url P inviteSecret
  .ok (base64Url P ((P.hash (seed ++ Utf8.encode deviceId)).take keyLength))

/-- The nonce is drawn at random. -/
def encryptLinkPayload (nonce : Bytes) (frame secret : Text) : Except Text EncryptedLinkPayload := do
  let key ← requireKey P secret
  .ok ⟨base64Url P nonce, base64Url P (P.secretbox (Utf8.encode frame) nonce key)⟩

/-- The frame in a payload. -/
def decryptLinkPayload (payload : EncryptedLinkPayload) (secret : Text) : Except Text Text := do
  let cipher ← fromBase64Url P payload.payload
  let nonce ← fromBase64Url P payload.nonce
  let key ← requireKey P secret
  match ← P.secretboxOpen cipher nonce key with
  | some plain => .ok (Utf8.decode plain)
  | none => .error "redskilled-link authentication failed".toList

/-- A box: the key, the nonce and the cipher that are given to the package. -/
structure Sealing where
  key : Bytes
  nonce : Bytes
  cipher : Bytes
  deriving DecidableEq

def sealing (payload : EncryptedLinkPayload) (secret : Text) : Option Sealing :=
  match fromBase64Url P payload.payload, fromBase64Url P payload.nonce, requireKey P secret with
  | .ok cipher, .ok nonce, .ok key => some ⟨key, nonce, cipher⟩
  | _, _, _ => none

end

/-- Only what was sealed with a key opens with it. -/
def Unforgeable (P : LinkPrimitives) (Sealed : Sealing → Prop) : Prop :=
  ∀ cipher nonce key plain, P.secretboxOpen cipher nonce key = .ok (some plain) →
    Sealed ⟨key, nonce, cipher⟩

/-- A nonce is used for one box of a key. -/
def FreshNonces (Sealed : Sealing → Prop) : Prop :=
  ∀ a b, Sealed a → Sealed b → a.key = b.key → a.nonce = b.nonce → a = b

section
variable {P : LinkPrimitives} {Sealed : Sealing → Prop} {payload : EncryptedLinkPayload}
  {secret : Text}

lemma sealed_of_decrypts (h : Unforgeable P Sealed) {frame : Text}
    (hdecr : decryptLinkPayload P payload secret = .ok frame) :
    ∃ s, sealing P payload secret = some s ∧ Sealed s := by
  rw [decryptLinkPayload] at hdecr
  cases hciph : fromBase64Url P payload.payload with
  | error e =>
    rw [hciph] at hdecr
    cases hdecr
  | ok cipher =>
    cases hnonce : fromBase64Url P payload.nonce with
    | error e =>
      rw [hciph, hnonce] at hdecr
      cases hdecr
    | ok nonce =>
      cases hkey : requireKey P secret with
      | error e =>
        rw [hciph, hnonce, hkey] at hdecr
        cases hdecr
      | ok key =>
        rw [hciph, hnonce, hkey] at hdecr
        refine ⟨⟨key, nonce, cipher⟩, by simp [sealing, hciph, hnonce, hkey], ?_⟩
        change (P.secretboxOpen cipher nonce key >>= _) = _ at hdecr
        cases hopen : P.secretboxOpen cipher nonce key with
        | error e =>
          rw [hopen] at hdecr
          cases hdecr
        | ok plain =>
          cases plain with
          | none =>
            rw [hopen] at hdecr
            cases hdecr
          | some plain => exact h cipher nonce key plain hopen

lemma sealing_eq_some {s : Sealing} (h : sealing P payload secret = some s) :
    fromBase64Url P payload.payload = .ok s.cipher ∧ fromBase64Url P payload.nonce = .ok s.nonce ∧
      requireKey P secret = .ok s.key := by
  rw [sealing] at h
  split at h
  · next cipher nonce key hciph hnonce hkey =>
    cases h
    exact ⟨hciph, hnonce, hkey⟩
  · cases h

end

end Redskilled.Link
