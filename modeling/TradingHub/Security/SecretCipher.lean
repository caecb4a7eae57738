import TradingHub.Core.World
import TradingHub.Library.PyString

set_option autoImplicit false

/-! # Secrets at rest

`app/security/crypto.py` without its password hasher, and the `encryption_keys` of
`app/config/settings.py`: secrets are encrypted under the first key of a ring and read back with
whichever key of the ring fits, so that keys can be replaced while secrets are stored.

Fernet is a package. It is a parameter, and `Fernet.Lawful` is what it documents. -/

namespace TradingHub

open Library

/-! ## Fernet -/

/-- The scheme of the cryptography package. A token depends on its key, on the time and random bytes
    of the call, which are the second argument, and on the text. -/
structure Fernet where
  isKey : String → Bool
  encrypt : String → String → String → String
  decrypt : String → String → Option String

/-- A key reads its own tokens; a key that reads a token at all gives the text that was encrypted. -/
structure Fernet.Lawful (f : Fernet) : Prop where
  decrypt_encrypt : ∀ key nonce text, f.decrypt key (f.encrypt key nonce text) = some text
  authentic : ∀ key key' nonce text text',
    f.decrypt key (f.encrypt key' nonce text) = some text' → text' = text
  encrypt_ne_empty : ∀ key nonce text, f.encrypt key nonce text ≠ ""

/-- `MultiFernet.decrypt`: the keys are tried in turn. -/
def Fernet.decryptAny (f : Fernet) (keys : List String) (token : String) : Option String :=
  keys.findSome? fun key => f.decrypt key token

/-! ## The cipher -/

namespace SecretCipher

/-- `encrypt` and `decrypt` with the keys of a ring. -/
def ofKeys (f : Fernet) (nonce : String) (keys : List String) : SecretCipher where
  encrypt text := f.encrypt (keys.headD "") nonce text
  decrypt token :=
    match f.decryptAny keys token with
    | none => .error (.encryption "Failed to decrypt secret (bad key or corrupt data).")
    | some text => .ok text

/-- `SecretCipher(keys)`. -/
def new (f : Fernet) (nonce : String) (keys : List String) : Except AppError SecretCipher :=
  if keys = [] then .error (.encryption "SecretCipher requires at least one key.")
  else if keys.all f.isKey then .ok (ofKeys f nonce keys)
  else .error (.encryption "Invalid encryption key material.")

/-- A ring of keys is accepted. -/
theorem new_of_keys {f : Fernet} {keys : List String} (hne : keys ≠ [])
    (hkeys : keys.all f.isKey = true) (nonce : String) :
    new f nonce keys = .ok (ofKeys f nonce keys) := by
  unfold new
  rw [if_neg hne, if_pos hkeys]

/-- `rotate`: encrypt the text of a token under the first key. -/
def rotate (f : Fernet) (nonce : String) (keys : List String) (token : String) :
    Except AppError String :=
  match f.decryptAny keys token with
  | none => .error (.encryption "Failed to rotate secret.")
  | some text => .ok (f.encrypt (keys.headD "") nonce text)

end SecretCipher

/-- `encryption_keys`: the keys of `MASTER_ENCRYPTION_KEY`, the active one first. -/
def encryptionKeys (masterEncryptionKey : String) : List String :=
  ((PyString.split ',' masterEncryptionKey).filter fun key => PyString.strip key ≠ "").map
    PyString.strip

/-- `get_secret_cipher`; `generated` is the key `generate_master_key` makes. -/
def getSecretCipher (f : Fernet) (nonce generated masterEncryptionKey : String)
    (isProduction : Bool) : Except AppError SecretCipher :=
  match encryptionKeys masterEncryptionKey with
  | [] =>
    if isProduction then .error (.encryption "MASTER_ENCRYPTION_KEY is required in production.")
    else SecretCipher.new f nonce [generated]
  | key :: keys => SecretCipher.new f nonce (key :: keys)

/-- A key put in front of the setting is put in front of the ring. -/
theorem encryptionKeys_prepend {key : String} (hcomma : ',' ∉ key.toList)
    (hstrip : PyString.strip key = key) (hne : key ≠ "") (configured : String) :
    encryptionKeys (key ++ String.singleton ',' ++ configured) = key :: encryptionKeys configured := by
  unfold encryptionKeys
  rw [PyString.split_append, PyString.split_of_notMem hcomma, List.singleton_append,
    List.filter_cons_of_pos (by simpa [hstrip] using hne), List.map_cons, hstrip]

/-- The process works with the ring of the setting, and encrypts with the key in front. -/
theorem getSecretCipher_prepend {f : Fernet} {key configured : String} (hcomma : ',' ∉ key.toList)
    (hstrip : PyString.strip key = key) (hne : key ≠ "") (hkey : f.isKey key = true)
    (hkeys : (encryptionKeys configured).all f.isKey = true) (nonce generated : String)
    (isProduction : Bool) :
    getSecretCipher f nonce generated (key ++ String.singleton ',' ++ configured) isProduction
      = .ok (SecretCipher.ofKeys f nonce (key :: encryptionKeys configured)) := by
  have hall : (key :: encryptionKeys configured).all f.isKey = true := by
    rw [List.all_cons, hkey, hkeys]
    rfl
  unfold getSecretCipher
  rw [encryptionKeys_prepend hcomma hstrip hne]
  exact SecretCipher.new_of_keys (List.cons_ne_nil _ _) hall nonce

/-! ## Sealed tokens -/

/-- The token is of `text`, under a key of the ring. -/
def Fernet.Seals (f : Fernet) (keys : List String) (token text : String) : Prop :=
  ∃ key ∈ keys, ∃ nonce, token = f.encrypt key nonce text

namespace Fernet.Lawful

variable {f : Fernet} {keys : List String} {token text : String}

/-- A sealed token is read back whatever other keys are on the ring, and in whatever order. -/
theorem decryptAny_sealed (hf : f.Lawful) (h : f.Seals keys token text) :
    f.decryptAny keys token = some text := by
  obtain ⟨key, hkey, nonce, rfl⟩ := h
  cases hany : f.decryptAny keys (f.encrypt key nonce text) with
  | none =>
    have hnone := List.findSome?_eq_none_iff.1 hany key hkey
    rw [hf.decrypt_encrypt] at hnone
    exact absurd hnone (by simp)
  | some text' =>
    obtain ⟨key', -, hread⟩ := List.exists_of_findSome?_eq_some hany
    rw [hf.authentic _ _ _ _ _ hread]

/-- No ring reads another text out of a token. -/
theorem decryptAny_encrypt (hf : f.Lawful) (ring : List String) (key nonce text : String) :
    f.decryptAny ring (f.encrypt key nonce text) = none ∨
      f.decryptAny ring (f.encrypt key nonce text) = some text := by
  cases hany : f.decryptAny ring (f.encrypt key nonce text) with
  | none => exact Or.inl rfl
  | some text' =>
    obtain ⟨key', -, hread⟩ := List.exists_of_findSome?_eq_some hany
    exact Or.inr (congrArg some (hf.authentic _ _ _ _ _ hread))

theorem seals_ne_empty (hf : f.Lawful) (h : f.Seals keys token text) : token ≠ "" := by
  obtain ⟨key, -, nonce, rfl⟩ := h
  exact hf.encrypt_ne_empty _ _ _

end Fernet.Lawful

/-- The active key of a ring that is not empty. -/
theorem headD_mem {keys : List String} (h : keys ≠ []) : keys.headD "" ∈ keys := by
  obtain ⟨key, rest, rfl⟩ := List.exists_cons_of_ne_nil h
  exact List.mem_cons_self

theorem Fernet.Seals.ring_ne_nil {f : Fernet} {keys : List String} {token text : String}
    (h : f.Seals keys token text) : keys ≠ [] := by
  obtain ⟨key, hkey, -⟩ := h
  exact List.ne_nil_of_mem hkey

/-- `rotate` encrypts the text of a token again, under the active key. -/
theorem SecretCipher.rotate_sealed {f : Fernet} (hf : f.Lawful) {keys : List String}
    {token text : String} (h : f.Seals keys token text) (nonce : String) :
    SecretCipher.rotate f nonce keys token = .ok (f.encrypt (keys.headD "") nonce text) := by
  rw [rotate, hf.decryptAny_sealed h]

/-! ## A sample scheme -/

/-- A key, each character marked, and a mark that ends it. -/
def sampleLabel (key : List Char) : List Char :=
  key.flatMap (fun c => ['+', c]) ++ ['-']

/-- What follows the label of the key. -/
def stripLabel : List Char → List Char → Option (List Char)
  | [], '-' :: rest => some rest
  | c :: key, '+' :: c' :: rest => if c = c' then stripLabel key rest else none
  | _, _ => none

theorem stripLabel_label (key rest : List Char) :
    stripLabel key (sampleLabel key ++ rest) = some rest := by
  induction key with
  | nil => rfl
  | cons c key ih =>
    show stripLabel (c :: key) ('+' :: c :: (sampleLabel key ++ rest)) = some rest
    rw [stripLabel, if_pos rfl, ih]

theorem stripLabel_other (key key' rest rest' : List Char)
    (h : stripLabel key (sampleLabel key' ++ rest) = some rest') : rest' = rest := by
  induction key generalizing key' with
  | nil =>
    cases key' with
    | nil => exact (Option.some.inj h).symm
    | cons c key' => exact absurd h (by simp [sampleLabel, stripLabel])
  | cons c key ih =>
    cases key' with
    | nil => exact absurd h (by simp [sampleLabel, stripLabel])
    | cons c' key' =>
      have hstep : stripLabel (c :: key) ('+' :: c' :: (sampleLabel key' ++ rest)) = some rest' := h
      rw [stripLabel] at hstep
      split at hstep
      · exact ih key' hstep
      · exact absurd hstep (by simp)

/-- Tokens that carry their key in clear. -/
def Fernet.sample : Fernet where
  isKey key := key ≠ ""
  encrypt key _ text := String.ofList (sampleLabel key.toList ++ text.toList)
  decrypt key token := (stripLabel key.toList token.toList).map String.ofList

theorem Fernet.sample_lawful : Fernet.sample.Lawful where
  decrypt_encrypt key nonce text := by simp [Fernet.sample, stripLabel_label]
  authentic key key' nonce text text' h := by
    obtain ⟨rest, hrest, rfl⟩ := Option.map_eq_some_iff.1 h
    rw [Fernet.sample, String.toList_ofList] at hrest
    rw [stripLabel_other _ _ _ _ hrest, String.ofList_toList]
  encrypt_ne_empty key nonce text h := by
    have hlist := congrArg String.toList h
    simp [Fernet.sample, sampleLabel] at hlist

end TradingHub
