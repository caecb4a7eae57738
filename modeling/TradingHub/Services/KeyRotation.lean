import TradingHub.Library.Run
import TradingHub.Security.SecretCipher
import TradingHub.Services.Operations

set_option autoImplicit false

/-! # Replacing the encryption key

The documented procedure: prepend a new key, keep the old ones until every stored token has been
encrypted again, then drop them. It may be interrupted at any point, the tokens may be encrypted
again in any order and more than once, and keys may be added in between: what an account's secrets
decrypt to never changes. -/

namespace TradingHub

open Library AccountService

/-- The keys of the server and the stored accounts. -/
structure Vault where
  keys : List String
  accounts : List ExchangeAccount

/-- Encrypt a stored token again; one that cannot be read is left as it is. -/
def resealToken (f : Fernet) (nonce : String → String) (keys : List String)
    (token : Option String) : Option String :=
  token.map fun t =>
    match SecretCipher.rotate f (nonce t) keys t with
    | .ok t' => t'
    | .error _ => t

def ExchangeAccount.reseal (f : Fernet) (nonce : String → String) (keys : List String)
    (a : ExchangeAccount) : ExchangeAccount :=
  { a with
    apiKeyEnc := resealToken f nonce keys a.apiKeyEnc
    apiSecretEnc := resealToken f nonce keys a.apiSecretEnc
    passphraseEnc := resealToken f nonce keys a.passphraseEnc }

/-- A step of the procedure; `reencrypt` takes any of the accounts. -/
inductive RotationStep
  | addKey (key : String)
  | reencrypt (nonce : String → String) (which : ExchangeAccount → Bool)
  | dropKey (key : String)

namespace Vault

def apply (f : Fernet) (v : Vault) : RotationStep → Vault
  | .addKey key => { v with keys := key :: v.keys }
  | .reencrypt nonce which =>
    { v with accounts := v.accounts.map fun a => if which a then a.reseal f nonce v.keys else a }
  | .dropKey key => { v with keys := v.keys.filter (· ≠ key) }

/-- A key is dropped when it reads none of the stored tokens. -/
def Admits (f : Fernet) (v : Vault) : RotationStep → Prop
  | .dropKey key => ∀ a ∈ v.accounts, ∀ token,
      token = a.apiKeyEnc ∨ token = a.apiSecretEnc ∨ token = a.passphraseEnc →
        ∀ t, token = some t → f.decrypt key t = none
  | _ => True

end Vault

/-- An environment with the cipher of a ring. -/
def Env.withKeys (env : Env) (f : Fernet) (nonce : String) (keys : List String) : Env :=
  { env with cipher := SecretCipher.ofKeys f nonce keys }

/-! ## Stored secrets -/

/-- Two stored values of one secret: there is none, or both are tokens of it. -/
inductive SameSecret (f : Fernet) (keys keys' : List String) : Option String → Option String → Prop
  | missing : SameSecret f keys keys' none none
  | sealed {token token' text : String} : f.Seals keys token text → f.Seals keys' token' text →
      SameSecret f keys keys' (some token) (some token')

/-- Two rows of one account. -/
structure SameSecrets (f : Fernet) (keys keys' : List String) (a a' : ExchangeAccount) : Prop where
  mode : a'.isPaper = a.isPaper
  apiKey : SameSecret f keys keys' a.apiKeyEnc a'.apiKeyEnc
  apiSecret : SameSecret f keys keys' a.apiSecretEnc a'.apiSecretEnc
  passphrase : SameSecret f keys keys' a.passphraseEnc a'.passphraseEnc

section

variable {f : Fernet} {keys keys' keys'' : List String} {t t' : Option String}
  {a a' : ExchangeAccount}

theorem Fernet.Seals.mono {token text : String} (h : f.Seals keys token text)
    (hsub : ∀ key ∈ keys, key ∈ keys') : f.Seals keys' token text := by
  obtain ⟨key, hkey, htoken⟩ := h
  exact ⟨key, hsub key hkey, htoken⟩

namespace SameSecret

theorem mono (h : SameSecret f keys keys' t t') (hsub : ∀ key ∈ keys', key ∈ keys'') :
    SameSecret f keys keys'' t t' := by
  cases h with
  | missing => exact missing
  | sealed hold hnew => exact sealed hold (hnew.mono hsub)

theorem isBlank_eq (hf : f.Lawful) (h : SameSecret f keys keys' t t') : isBlank t' = isBlank t := by
  cases h with
  | missing => rfl
  | sealed hold hnew => simp [isBlank, hf.seals_ne_empty hold, hf.seals_ne_empty hnew]

/-- A secret that is there reads the same. -/
theorem decrypt_eq (hf : f.Lawful) (nonce nonce' : String) (h : SameSecret f keys keys' t t')
    (hblank : isBlank t = false) :
    (SecretCipher.ofKeys f nonce' keys').decrypt (t'.getD "")
      = (SecretCipher.ofKeys f nonce keys).decrypt (t.getD "") := by
  cases h with
  | missing => exact absurd hblank (by decide)
  | sealed hold hnew =>
    simp only [SecretCipher.ofKeys, Option.getD_some, hf.decryptAny_sealed hold,
      hf.decryptAny_sealed hnew]

/-- Encrypting again keeps the secret. -/
theorem reseal (hf : f.Lawful) (nonce : String → String) (h : SameSecret f keys keys' t t') :
    SameSecret f keys keys' t (resealToken f nonce keys' t') := by
  cases h with
  | missing => exact missing
  | sealed hold hnew =>
    refine sealed hold ?_
    simp only [SecretCipher.rotate_sealed hf hnew]
    exact ⟨_, headD_mem hnew.ring_ne_nil, _, rfl⟩

/-- What is encrypted again is under the active key. -/
theorem resealed (hf : f.Lawful) (nonce : String → String) {key token : String} {rest : List String}
    (h : SameSecret f keys (key :: rest) t t')
    (htoken : resealToken f nonce (key :: rest) t' = some token) :
    ∃ n text, token = f.encrypt key n text := by
  cases h with
  | missing => exact absurd htoken (by simp [resealToken])
  | sealed hold hnew =>
    simp only [resealToken, Option.map_some, SecretCipher.rotate_sealed hf hnew] at htoken
    exact ⟨_, _, (Option.some.inj htoken).symm⟩

/-- A key that does not read the token is not needed for it. -/
theorem drop (hf : f.Lawful) {key : String} (h : SameSecret f keys keys' t t')
    (hunread : ∀ token, t' = some token → f.decrypt key token = none) :
    SameSecret f keys (keys'.filter (· ≠ key)) t t' := by
  cases h with
  | missing => exact missing
  | sealed hold hnew =>
    obtain ⟨key', hkey', nonce, rfl⟩ := hnew
    refine sealed hold ⟨key', List.mem_filter.2 ⟨hkey', decide_eq_true fun heq => ?_⟩, nonce, rfl⟩
    have hnone := hunread _ rfl
    rw [heq, hf.decrypt_encrypt] at hnone
    exact absurd hnone (by simp)

end SameSecret

namespace SameSecrets

theorem mono (h : SameSecrets f keys keys' a a') (hsub : ∀ key ∈ keys', key ∈ keys'') :
    SameSecrets f keys keys'' a a' :=
  ⟨h.mode, h.apiKey.mono hsub, h.apiSecret.mono hsub, h.passphrase.mono hsub⟩

theorem reseal (hf : f.Lawful) (nonce : String → String) (h : SameSecrets f keys keys' a a') :
    SameSecrets f keys keys' a (a'.reseal f nonce keys') :=
  ⟨h.mode, h.apiKey.reseal hf nonce, h.apiSecret.reseal hf nonce, h.passphrase.reseal hf nonce⟩

/-- What the account's credentials decrypt to. -/
theorem credentials (hf : f.Lawful) (env : Env) (nonce nonce' : String)
    (h : SameSecrets f keys keys' a a') :
    decryptCredentials (env.withKeys f nonce' keys') a'
      = decryptCredentials (env.withKeys f nonce keys) a := by
  unfold decryptCredentials Env.withKeys
  rw [h.mode, h.apiKey.isBlank_eq hf, h.apiSecret.isBlank_eq hf, h.passphrase.isBlank_eq hf]
  split
  · rfl
  · next hthere =>
    simp only [Bool.or_eq_true, not_or, Bool.not_eq_true] at hthere
    simp only
    rw [h.apiKey.decrypt_eq hf nonce nonce' hthere.1.2,
      h.apiSecret.decrypt_eq hf nonce nonce' hthere.2]
    cases hblank : isBlank a.passphraseEnc with
    | true => rfl
    | false => rw [h.passphrase.decrypt_eq hf nonce nonce' hblank]

end SameSecrets

end

/-! ## Runs of the procedure -/

namespace Vault

/-- Every stored token is under a key of the ring. -/
def Sealed (f : Fernet) (v : Vault) : Prop :=
  ∀ a ∈ v.accounts, SameSecrets f v.keys v.keys a a

variable {f : Fernet} {v₀ v : Vault}

/-- The step: the secrets stay what they were in `v₀`. -/
theorem apply_same (hf : f.Lawful) {step : RotationStep} (hguard : v.Admits f step)
    (h : List.Forall₂ (SameSecrets f v₀.keys v.keys) v₀.accounts v.accounts) :
    List.Forall₂ (SameSecrets f v₀.keys (v.apply f step).keys) v₀.accounts
      (v.apply f step).accounts := by
  cases step with
  | addKey key => exact h.imp fun _ _ hsame => hsame.mono fun _ hmem => List.mem_cons_of_mem _ hmem
  | reencrypt nonce which =>
    refine List.forall₂_map_right_iff.2 (h.imp fun a a' hsame => ?_)
    show SameSecrets f v₀.keys v.keys a _
    split
    · exact hsame.reseal hf nonce
    · exact hsame
  | dropKey key =>
    refine forall₂_imp_of_mem h fun a _ a' ha' hsame => ⟨hsame.mode, ?_, ?_, ?_⟩
    · exact hsame.apiKey.drop hf (hguard a' ha' _ (Or.inl rfl))
    · exact hsame.apiSecret.drop hf (hguard a' ha' _ (Or.inr (Or.inl rfl)))
    · exact hsame.passphrase.drop hf (hguard a' ha' _ (Or.inr (Or.inr rfl)))

/-- The run: whatever steps are taken, every account decrypts to what it did. -/
theorem run_credentials (hf : f.Lawful) (hsealed : v.Sealed f) (steps : List RotationStep)
    (hguard : Guarded (Vault.apply f) (Vault.Admits f) v steps) (env : Env) (nonce : String) :
    let v' := steps.foldl (Vault.apply f) v
    v'.accounts.map (decryptCredentials (env.withKeys f nonce v'.keys))
      = v.accounts.map (decryptCredentials (env.withKeys f nonce v.keys)) := by
  intro v'
  have hsame : List.Forall₂ (SameSecrets f v.keys v'.keys) v.accounts v'.accounts :=
    run_invariant (I := fun v' => List.Forall₂ (SameSecrets f v.keys v'.keys) v.accounts v'.accounts)
      (fun _ _ h hstep => apply_same hf hstep h) steps v
      (List.forall₂_same.2 hsealed) hguard
  exact map_eq_of_forall₂ hsame fun a a' h => h.credentials hf env nonce nonce

/-! ## The procedure -/

/-- Prepend the new key, encrypt everything again, drop the old keys. -/
def procedure (v : Vault) (newKey : String) (nonce : String → String) : List RotationStep :=
  .addKey newKey :: .reencrypt nonce (fun _ => true) :: v.keys.map .dropKey

/-- No old key reads a token under the new one. -/
def Foreign (f : Fernet) (keys : List String) (newKey : String) : Prop :=
  ∀ key ∈ keys, ∀ nonce text, f.decrypt key (f.encrypt newKey nonce text) = none

/-- Dropping keys that read none of the tokens. -/
theorem drop_all (keys : List String) (v : Vault)
    (hunread : ∀ key ∈ keys, v.Admits f (.dropKey key)) :
    Guarded (Vault.apply f) (Vault.Admits f) v (keys.map .dropKey) ∧
      (keys.map RotationStep.dropKey).foldl (Vault.apply f) v
        = ⟨v.keys.filter (· ∉ keys), v.accounts⟩ := by
  induction keys generalizing v with
  | nil => exact ⟨trivial, by simp⟩
  | cons key keys ih =>
    rw [List.forall_mem_cons] at hunread
    obtain ⟨hguard, hrun⟩ := ih (v.apply f (.dropKey key)) hunread.2
    refine ⟨⟨hunread.1, hguard⟩, hrun.trans ?_⟩
    show Vault.mk ((v.keys.filter (· ≠ key)).filter (· ∉ keys)) v.accounts = _
    rw [List.filter_filter]
    refine congrArg (Vault.mk · v.accounts) (List.filter_congr fun k _ => ?_)
    simp [Bool.and_comm]

theorem procedure_run (hf : f.Lawful) (hsealed : v.Sealed f) {newKey : String}
    (hforeign : Foreign f v.keys newKey) (nonce : String → String) :
    Guarded (Vault.apply f) (Vault.Admits f) v (v.procedure newKey nonce) ∧
      ((v.procedure newKey nonce).foldl (Vault.apply f) v).keys = [newKey] := by
  let v₁ : Vault := (v.apply f (.addKey newKey)).apply f (.reencrypt nonce fun _ => true)
  have hunread : ∀ key ∈ v.keys, v₁.Admits f (.dropKey key) := by
    intro key hkey a' ha' token htoken t ht
    obtain ⟨a, ha, rfl⟩ := List.mem_map.1 ha'
    rw [if_pos rfl] at htoken
    have hsame : SameSecrets f v.keys (newKey :: v.keys) a a :=
      (hsealed a ha).mono fun _ hmem => List.mem_cons_of_mem _ hmem
    have hunder : ∃ n text, t = f.encrypt newKey n text := by
      rcases htoken with rfl | rfl | rfl
      · exact hsame.apiKey.resealed hf nonce ht
      · exact hsame.apiSecret.resealed hf nonce ht
      · exact hsame.passphrase.resealed hf nonce ht
    obtain ⟨n, text, rfl⟩ := hunder
    exact hforeign key hkey n text
  obtain ⟨hguard, hrun⟩ := drop_all v.keys v₁ hunread
  refine ⟨⟨trivial, trivial, hguard⟩, (congrArg Vault.keys hrun).trans ?_⟩
  have hnew : newKey ∉ v.keys := by
    intro hmem
    have hnone := hforeign newKey hmem "" ""
    rw [hf.decrypt_encrypt] at hnone
    exact absurd hnone (by simp)
  show (newKey :: v.keys).filter (· ∉ v.keys) = [newKey]
  rw [List.filter_cons_of_pos (by simpa using hnew)]
  exact congrArg _ (List.filter_eq_nil_iff.2 fun key hkey => by simpa using hkey)

end Vault

/-- Replacing keys never loses or changes a secret: whatever keys are added, whatever accounts are
    encrypted again, in any order and interrupted anywhere, and whatever keys are dropped that read no
    stored token, every account decrypts to the credentials it did. The documented procedure is such
    a run, and it ends with the new key alone. -/
theorem key_rotation_keeps_secrets {f : Fernet} (hf : f.Lawful) {v : Vault} (hsealed : v.Sealed f) :
    (∀ steps, Guarded (Vault.apply f) (Vault.Admits f) v steps → ∀ (env : Env) (nonce : String),
      let v' := steps.foldl (Vault.apply f) v
      v'.accounts.map (decryptCredentials (env.withKeys f nonce v'.keys))
        = v.accounts.map (decryptCredentials (env.withKeys f nonce v.keys))) ∧
      ∀ newKey, Vault.Foreign f v.keys newKey → ∀ nonce,
        Guarded (Vault.apply f) (Vault.Admits f) v (v.procedure newKey nonce) ∧
          ((v.procedure newKey nonce).foldl (Vault.apply f) v).keys = [newKey] :=
  ⟨fun steps hguard env nonce => Vault.run_credentials hf hsealed steps hguard env nonce,
    fun _ hforeign nonce => Vault.procedure_run hf hsealed hforeign nonce⟩

/-- An account whose secrets are under the keys of a ring of two. -/
def Vault.sample : Vault where
  keys := ["new", "old"]
  accounts :=
    [{ id := "a", userId := "u", exchangeId := "okx", label := "main", marketType := "spot"
       isPaper := false
       apiKeyEnc := some (Fernet.sample.encrypt "old" "" "key")
       apiSecretEnc := some (Fernet.sample.encrypt "new" "" "secret")
       passphraseEnc := none }]

/-- Both keys are replaced by a third. -/
theorem key_rotation_sample :
    let v := Vault.sample
    let v' := (v.procedure "next" id).foldl (Vault.apply .sample) v
    v'.keys = ["next"] ∧
      v'.accounts.map (decryptCredentials ((Env.quiet 100 "1").withKeys .sample "" v'.keys))
        = [.ok (some { apiKey := "key", apiSecret := "secret" })] := by
  intro v v'
  have hsealed : v.Sealed .sample := by
    intro a ha
    rw [List.mem_singleton.1 ha]
    have hkey : Fernet.sample.Seals v.keys (Fernet.sample.encrypt "old" "" "key") "key" :=
      ⟨"old", by decide, "", rfl⟩
    have hsecret : Fernet.sample.Seals v.keys (Fernet.sample.encrypt "new" "" "secret") "secret" :=
      ⟨"new", by decide, "", rfl⟩
    exact ⟨rfl, .sealed hkey hkey, .sealed hsecret hsecret, .missing⟩
  have hforeign : Vault.Foreign .sample v.keys "next" := by
    intro key hkey nonce text
    rcases List.mem_cons.1 hkey with rfl | hkey
    · simp [Fernet.sample, sampleLabel, stripLabel]
    · rw [List.mem_singleton.1 hkey]
      simp [Fernet.sample, sampleLabel, stripLabel]
  obtain ⟨hruns, hprocedure⟩ := key_rotation_keeps_secrets Fernet.sample_lawful hsealed
  obtain ⟨hguard, hkeys⟩ := hprocedure "next" hforeign id
  exact ⟨hkeys, (hruns _ hguard (Env.quiet 100 "1") "").trans (by decide +kernel)⟩

end TradingHub
