import CertGuard.Lib.IdealSeal
import CertGuard.Model.Channel

/-!
# Keys and what they seal

Envelope encryption: secrets are sealed under a data key, and the data key is
kept only wrapped under a key-encryption key. Cryptography is ideal: keys derived
in different ways or from different material are different keys, and a text opens
only under the key that sealed it.

## Main definitions

* `Key` — a 256-bit key, by where it comes from
* `Cipher`, `Wrapped` — a sealed secret and a wrapped data key
* `loadOrCreateKey` — the operator's key file

## Main results

* `loadOrCreateKey_again` — once it answered, it answers the same
-/

namespace CertGuard

/-- Salts are random bytes; a salt is named by its draw. -/
abbrev Salt := Nat

/-- A 256-bit key, by where it comes from. -/
inductive Key
  /-- The zero value of a key. -/
  | zero
  /-- `KeyFromString`: SHA-256 of operator material. -/
  | fromString (material : List Char)
  /-- `KeyFromPassphrase`: Argon2id of a passphrase typed on the server. -/
  | fromPassphrase (passphrase : String) (salt : Option Salt)
  /-- A random key drawn in a browser. -/
  | drawn (n : Nat)
  /-- `deriveKEK`: PBKDF2 of a passphrase typed in a browser. -/
  | derived (passphrase salt : String) (iters : Nat)
  /-- `kekFromPRF`: what a security key derives for a salt. -/
  | fromPRF (credentialId prfSalt : String)
  deriving DecidableEq, Repr

/-- A secret as stored: base64 of what `Box.Seal` made, or any other text. -/
abbrev Cipher := Sealed Key String

/-- A data key as stored: base64 of what `WrapKey` made, or any other text. -/
abbrev Wrapped := Sealed Key Key

/-- `Box.Seal` with a data key. -/
def boxSeal (dek : Key) (plaintext : String) : Cipher := .under dek plaintext

/-- `Box.Open` with a data key. -/
def boxOpen (dek : Key) (encoded : Cipher) : Option String := encoded.openWith dek

def wrapKey (dek kek : Key) : Wrapped := .under kek dek

def unwrapKey (wrapped : Wrapped) (kek : Key) : Option Key := wrapped.openWith kek

@[simp] theorem boxOpen_boxSeal (dek : Key) (s : String) : boxOpen dek (boxSeal dek s) = some s :=
  Sealed.openWith_under_self

theorem wrapKey_ne_empty {dek kek : Key} : wrapKey dek kek ≠ Sealed.empty := by
  simp [wrapKey, Sealed.empty]

@[simp] theorem unwrapKey_wrapKey (dek kek : Key) : unwrapKey (wrapKey dek kek) kek = some dek :=
  Sealed.openWith_under_self

theorem unwrapKey_eq_some_iff {w : Wrapped} {kek dek : Key} :
    unwrapKey w kek = some dek ↔ w = wrapKey dek kek :=
  Sealed.openWith_eq_some_iff

/-! ### The key file -/

/-- One lower-case hexadecimal digit. -/
def hexDigit (n : Nat) : Char := Nat.digitChar (n % 16)

/-- `hex.EncodeToString`. -/
def hexEncode (bs : List UInt8) : List Char :=
  bs.flatMap fun b => [hexDigit (b.toNat / 16), hexDigit b.toNat]

/-- The 32 random bytes a new key is made of. -/
abbrev FreshKey := { bs : List UInt8 // bs.length = 32 }

/-- The content of the key file; `none` when there is no such file. -/
abbrev KeyFile := Option (List Char)

/-- `LoadOrCreateKey`: the material in the file, or new material written to it when
the file is missing or blank. No material comes back when the write fails. -/
def loadOrCreateKey (file : KeyFile) (fresh : FreshKey) (written : Bool) :
    Option (List Char) × KeyFile :=
  match file with
  | some content =>
    if trimSpace content ≠ [] then (some (trimSpace content), file) else create
  | none => create
where
  /-- The part that makes new material. -/
  create : Option (List Char) × KeyFile :=
    if written then (some (hexEncode fresh), some (hexEncode fresh)) else (none, file)

theorem isSpace_hexDigit (n : Nat) : isSpace (hexDigit n) = false := by
  have h : ∀ d, d < 16 → isSpace (Nat.digitChar d) = false := by decide
  exact h _ (Nat.mod_lt _ (by decide))

theorem isSpace_of_mem_hexEncode {bs : List UInt8} {c : Char} (h : c ∈ hexEncode bs) :
    isSpace c = false := by
  obtain ⟨b, -, hc⟩ := List.mem_flatMap.mp h
  rcases List.mem_pair.mp hc with rfl | rfl <;> exact isSpace_hexDigit _

/-- A text without blanks is not trimmed. -/
theorem trimSpace_eq_self {s : List Char} (h : ∀ c ∈ s, isSpace c = false) : trimSpace s = s := by
  have hdrop : s.dropWhile isSpace = s := by
    cases s with
    | nil => rfl
    | cons c s => simp [h c]
  rw [trimSpace, hdrop, List.rdropWhile_eq_self_iff]
  intro hs
  simp [h _ (List.getLast_mem hs)]

theorem trimSpace_hexEncode (bs : List UInt8) : trimSpace (hexEncode bs) = hexEncode bs :=
  trimSpace_eq_self fun _ h => isSpace_of_mem_hexEncode h

theorem hexEncode_fresh_ne_nil (fresh : FreshKey) : hexEncode fresh ≠ [] := by
  obtain ⟨bs, hbs⟩ := fresh
  cases bs with
  | nil => simp at hbs
  | cons b bs => simp [hexEncode]

/-- Material that came out of the key file is not blank. -/
theorem loadOrCreateKey_ne_nil {file : KeyFile} {fresh : FreshKey} {written : Bool}
    {material : List Char} (h : (loadOrCreateKey file fresh written).1 = some material) :
    material ≠ [] := by
  have hcreate : (loadOrCreateKey.create file fresh written).1 = some material → material ≠ [] := by
    intro h
    unfold loadOrCreateKey.create at h
    split_ifs at h
    obtain rfl := Option.some.inj h
    exact hexEncode_fresh_ne_nil fresh
  cases file with
  | none => exact hcreate h
  | some content =>
    rw [loadOrCreateKey] at h
    split_ifs at h with hc
    · obtain rfl := Option.some.inj h
      exact hc
    · exact hcreate h

/-- The file as it is left answers the same material from then on. -/
theorem loadOrCreateKey_again {file : KeyFile} {fresh fresh' : FreshKey} {written written' : Bool}
    {material : List Char} (h : (loadOrCreateKey file fresh written).1 = some material) :
    loadOrCreateKey (loadOrCreateKey file fresh written).2 fresh' written' =
      (some material, (loadOrCreateKey file fresh written).2) := by
  -- what was written is found the next time, and is not empty
  have hcreate : (loadOrCreateKey.create file fresh written).1 = some material →
      loadOrCreateKey (loadOrCreateKey.create file fresh written).2 fresh' written' =
        (some material, (loadOrCreateKey.create file fresh written).2) := by
    intro h
    unfold loadOrCreateKey.create at h ⊢
    split_ifs at h ⊢
    obtain rfl := Option.some.inj h
    simp [loadOrCreateKey, trimSpace_hexEncode, hexEncode_fresh_ne_nil]
  cases file with
  | none => exact hcreate h
  | some content =>
    by_cases hc : trimSpace content ≠ []
    · simp only [loadOrCreateKey, if_pos hc] at h ⊢
      rw [h]
    · simp only [loadOrCreateKey, if_neg hc] at h ⊢
      exact hcreate h

end CertGuard
