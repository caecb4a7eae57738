import TradingHub.Services.Sessions

set_option autoImplicit false

/-! # Tokens of a session that was dropped

A refresh token that is older than the last session drop is refused, whatever the store holds. What
it does to the sessions opened since then depends on the store: `refresh` asks the store first and
drops the sessions again if the token is held revoked, and compares the generations only after. -/

namespace TradingHub

open Library

/-! ## Presenting a token -/

/-- The token is presented to `refresh` at a moment. -/
def AuthServer.present (env : AuthEnv) (t : TokenClaims) (s : AuthServer) (p : ℚ × Draws) :
    AuthServer :=
  s.after env ⟨p.1, p.2, .refresh t⟩

/-- The presentation is refused. -/
def AuthServer.Refuses (env : AuthEnv) (t : TokenClaims) (s : AuthServer) (p : ℚ × Draws) : Prop :=
  ∃ failure, (s.served env ⟨p.1, p.2, .refresh t⟩).reply = .error failure

/-- `refresh` would exchange the token. -/
def AuthServer.Usable (env : AuthEnv) (s : AuthServer) (t : TokenClaims) (p : ℚ × Draws) : Prop :=
  ∃ pair, (s.served env ⟨p.1, p.2, .refresh t⟩).reply = .ok (.pair pair)

/-- The token presented has expired, or the store does not hold it revoked. -/
def NotHeldRevoked (t : TokenClaims) (s : AuthServer) (p : ℚ × Draws) : Prop :=
  TokenService.decode t .refresh (s.atMoment p.1).now = .ok t →
    ((s.atMoment p.1).tokenStore.isRevoked t.jti (s.atMoment p.1).now).1 = false

instance (t : TokenClaims) (s : AuthServer) (p : ℚ × Draws) : Decidable (NotHeldRevoked t s p) :=
  inferInstanceAs (Decidable (_ → _))

/-- The token `t'` was issued to the user of `t`, after a session drop that came after `t`: the
    requests served since `t` was issued are `later`, the last one first. -/
def IssuedAfterDrop (later : List Served) (t t' : TokenClaims) : Prop :=
  ∃ rest e mid, later = rest ++ e :: mid ∧ e.issued = some t' ∧ t'.subject = t.subject ∧
    ∃ e' ∈ mid, e'.drops t.subject = true

/-- A token that `refresh` refuses leaves the answers of the store as they are. -/
theorem Effect.refused_store {env : AuthEnv} {draws : Draws} {s : AuthServer} {token : TokenClaims}
    {failure : AuthFailure} {users : Dict String UserRecord} {tokenStore : TokenStore}
    (h : Effect env draws s (.refresh token) (.error failure) users tokenStore) (jti : String)
    {t : ℚ} (ht : s.now ≤ t) :
    (tokenStore.isRevoked jti t).1 = (s.tokenStore.isRevoked jti t).1 := by
  cases h with
  | raised failure hrequest => rfl
  | invalid hdecode => rfl
  | inactive hinactive => rfl
  | reused hdecode hget hactive hrevoked => exact TokenStore.isRevoked_lookup _ _ _ ht
  | outdated hdecode hget hactive hrevoked hgeneration =>
    exact TokenStore.isRevoked_lookup _ _ _ ht

section Presentation

variable {env : AuthEnv} {s : AuthServer} {t t' : TokenClaims} {user : UserRecord}
  {p q : ℚ × Draws}

theorem usable_iff (hclean : s.committed = s.db) :
    s.Usable env t p ↔ (s.atMoment p.1).Accepts t := by
  have hcases := (AuthServer.outcome env hclean ⟨p.1, p.2, .refresh t⟩).effect.refresh_cases
  constructor
  · rintro ⟨pair, hreply⟩
    rcases hcases with ⟨haccepts, -⟩ | ⟨-, failure, hfailure⟩
    · exact haccepts
    · exact absurd (hreply.symm.trans hfailure) (by simp)
  · intro haccepts
    rcases hcases with ⟨-, hpair⟩ | ⟨hnot, -⟩
    · exact hpair
    · exact absurd haccepts hnot

/-- An outdated token is refused. -/
theorem refuses_of_outdated (hclean : s.committed = s.db)
    (hget : s.db.users.get? t.subject = some user) (hold : t.generation < user.tokenGeneration) :
    s.Refuses env t p := by
  have hcases := (AuthServer.outcome env hclean ⟨p.1, p.2, .refresh t⟩).effect.refresh_cases
  rcases hcases with ⟨haccepts, -⟩ | ⟨-, hfailure⟩
  · obtain ⟨user', hget', -, hle⟩ := haccepts.current
    obtain rfl := Option.some.inj (hget.symm.trans hget')
    exact absurd hold (not_lt.2 hle)
  · exact hfailure

/-- The state after an outdated token was presented. -/
structure Presented (env : AuthEnv) (t : TokenClaims) (s : AuthServer) (p : ℚ × Draws)
    (user user' : UserRecord) : Prop where
  clean : (s.present env t p).committed = (s.present env t p).db
  clock : (s.present env t p).now = max s.now p.1
  answers : ∀ jti m, max s.now p.1 ≤ m →
    ((s.present env t p).tokenStore.isRevoked jti m).1 = (s.tokenStore.isRevoked jti m).1
  row : (s.present env t p).db.users.get? t.subject = some user'
  grown : user'.isActive = user.isActive ∧ user.tokenGeneration ≤ user'.tokenGeneration
  /-- The sessions of an active user stay exactly if the store did not hold the token. -/
  kept : user.isActive = true →
    (user'.tokenGeneration = user.tokenGeneration ↔ NotHeldRevoked t s p)

theorem presented (hclean : s.committed = s.db) (hget : s.db.users.get? t.subject = some user)
    (hold : t.generation < user.tokenGeneration) : ∃ user', Presented env t s p user user' := by
  have houtcome := AuthServer.outcome env hclean ⟨p.1, p.2, .refresh t⟩
  obtain ⟨user', hget', hactive, hgeneration⟩ := houtcome.effect.row hget
  obtain ⟨failure, hfailure⟩ : s.Refuses env t p := refuses_of_outdated hclean hget hold
  have heffect := houtcome.effect
  rw [show (AuthService.serve env p.2 (.refresh t) (s.atMoment p.1)).1 = .error failure from
    hfailure] at heffect
  refine ⟨user', houtcome.clean, houtcome.clock, fun jti m hm => heffect.refused_store jti hm,
    hget', ⟨hactive, ?_⟩, fun hyes => ?_⟩
  · rw [hgeneration]
    split
    · simp
    · simp
  · have hdrops := houtcome.effect.drops_iff hget hyes
    have hheld : NotHeldRevoked t s p ↔ ¬ (Served.mk (s.atMoment p.1) p.2 (.refresh t)
        (AuthService.serve env p.2 (.refresh t) (s.atMoment p.1)).1).drops t.subject = true := by
      rw [hdrops]
      constructor
      · rintro hnot ⟨token, hpresented, -, hrevoked⟩
        obtain ⟨hrequest, hdecode⟩ := Served.presented_eq_some hpresented
        obtain rfl := AuthRequest.refresh.inj hrequest
        exact absurd (hrevoked.symm.trans (hnot hdecode)) (by simp)
      · intro hnone hdecode
        by_contra hrevoked
        exact hnone ⟨t, by simp [Served.presented, hdecode], rfl, by simpa using hrevoked⟩
    rw [hheld, hgeneration]
    split
    · next hyes => simp [hyes]
    · next hno => simp [hno]

/-- After an outdated token was presented, a token of the user is usable exactly if it was before
    and the store did not hold the outdated token. -/
theorem usable_present_iff (hclean : s.committed = s.db)
    (hget : s.db.users.get? t.subject = some user) (hold : t.generation < user.tokenGeneration)
    (hsubject : t'.subject = t.subject) (hle : t'.generation ≤ user.tokenGeneration)
    (hq : (s.present env t p).now ≤ q.1) :
    (s.present env t p).Usable env t' q ↔ s.Usable env t' q ∧ NotHeldRevoked t s p := by
  obtain ⟨user', h⟩ : ∃ user', Presented env t s p user user' := presented hclean hget hold
  rw [usable_iff h.clean, usable_iff hclean]
  have hmax : max s.now p.1 ≤ q.1 := h.clock ▸ hq
  have hnow' : ((s.present env t p).atMoment q.1).now = q.1 := max_eq_right hq
  have hnow : (s.atMoment q.1).now = q.1 := max_eq_right ((le_max_left _ _).trans hmax)
  have hget₀ : s.db.users.get? t'.subject = some user := hsubject ▸ hget
  have hget₁ : (s.present env t p).db.users.get? t'.subject = some user' := hsubject ▸ h.row
  constructor
  · rintro ⟨hvalid, hkept, row, hrow, hyes, hrowle⟩
    obtain rfl := Option.some.inj (hget₁.symm.trans hrow)
    rw [hnow'] at hvalid hkept
    have hactive : user.isActive = true := h.grown.1.symm.trans hyes
    have hsame : user'.tokenGeneration = user.tokenGeneration :=
      le_antisymm (hrowle.trans hle) h.grown.2
    refine ⟨⟨by rw [hnow]; exact hvalid, ?_, user, hget₀, hactive, hsame ▸ hrowle⟩,
      (h.kept hactive).1 hsame⟩
    rw [hnow]
    exact (h.answers _ _ hmax).symm.trans hkept
  · rintro ⟨⟨hvalid, hkept, row, hrow, hyes, hrowle⟩, hnot⟩
    obtain rfl := Option.some.inj (hget₀.symm.trans hrow)
    rw [hnow] at hvalid hkept
    have hsame : user'.tokenGeneration = user.tokenGeneration := (h.kept hyes).2 hnot
    refine ⟨by rw [hnow']; exact hvalid, ?_, user', hget₁, h.grown.1.trans hyes, hsame ▸ hrowle⟩
    rw [hnow']
    exact (h.answers _ _ hmax).trans hkept

/-- The clock runs on through the presentations. -/
theorem clock_le_presents :
    ∀ (ps : List (ℚ × Draws)) {s : AuthServer} {user : UserRecord}, s.committed = s.db →
      s.db.users.get? t.subject = some user → t.generation < user.tokenGeneration →
      s.now ≤ (ps.foldl (AuthServer.present env t) s).now := by
  intro ps
  induction ps with
  | nil => intro s user _ _ _; exact le_rfl
  | cons p ps ih =>
    intro s user hclean hget hold
    obtain ⟨user', h⟩ : ∃ user', Presented env t s p user user' := presented hclean hget hold
    calc s.now ≤ (s.present env t p).now := h.clock ▸ le_max_left _ _
      _ ≤ _ := ih h.clean h.row (hold.trans_le h.grown.2)

/-- The same of any number of presentations. -/
theorem usable_presents_iff (hsubject : t'.subject = t.subject) :
    ∀ (ps : List (ℚ × Draws)) {s : AuthServer} {user : UserRecord}, s.committed = s.db →
      s.db.users.get? t.subject = some user → t.generation < user.tokenGeneration →
      t'.generation ≤ user.tokenGeneration → (ps.foldl (AuthServer.present env t) s).now ≤ q.1 →
      ((ps.foldl (AuthServer.present env t) s).Usable env t' q ↔
        s.Usable env t' q ∧ Guarded (AuthServer.present env t) (NotHeldRevoked t) s ps) := by
  intro ps
  induction ps with
  | nil =>
    intro s user _ _ _ _ _
    simp [Guarded]
  | cons p ps ih =>
    intro s user hclean hget hold hle hq
    obtain ⟨user', h⟩ : ∃ user', Presented env t s p user user' := presented hclean hget hold
    have hq' : (s.present env t p).now ≤ q.1 :=
      (clock_le_presents ps h.clean h.row (hold.trans_le h.grown.2)).trans hq
    have hps := ih h.clean h.row (hold.trans_le h.grown.2) (hle.trans h.grown.2) hq
    have hp := usable_present_iff hclean hget hold hsubject hle hq'
    rw [List.foldl_cons, hps, hp, and_assoc]
    rfl

/-- Every presentation of an outdated token is refused. -/
theorem refuses_presents :
    ∀ (ps : List (ℚ × Draws)) {s : AuthServer} {user : UserRecord}, s.committed = s.db →
      s.db.users.get? t.subject = some user → t.generation < user.tokenGeneration →
      Guarded (AuthServer.present env t) (AuthServer.Refuses env t) s ps := by
  intro ps
  induction ps with
  | nil => intro s user _ _ _; trivial
  | cons p ps ih =>
    intro s user hclean hget hold
    obtain ⟨user', h⟩ : ∃ user', Presented env t s p user user' := presented hclean hget hold
    exact ⟨refuses_of_outdated hclean hget hold, ih h.clean h.row (hold.trans_le h.grown.2)⟩

end Presentation

/-! ## An outdated token and the sessions opened since -/

/-- The tokens issued after the drop are as usable as before, from the last presentation on. -/
def LeavesSessions (env : AuthEnv) (t : TokenClaims) (later : List Served) (s : AuthServer)
    (ps : List (ℚ × Draws)) : Prop :=
  ∀ t', IssuedAfterDrop later t t' → ∀ q : ℚ × Draws,
    (ps.foldl (AuthServer.present env t) s).now ≤ q.1 →
    ((ps.foldl (AuthServer.present env t) s).Usable env t' q ↔ s.Usable env t' q)

/-- No token issued after the drop is usable any more, from the last presentation on. -/
def NoSessionLeft (env : AuthEnv) (t : TokenClaims) (later : List Served) (s : AuthServer)
    (ps : List (ℚ × Draws)) : Prop :=
  ∀ t', IssuedAfterDrop later t t' → ∀ q : ℚ × Draws,
    (ps.foldl (AuthServer.present env t) s).now ≤ q.1 → ¬ s.Usable env t' q

/-- The history `h` is that of a run of requests in which `t` was issued, and the user is at a later
    generation. However often `t` is presented it is refused; the sessions opened since the drop are
    left alone exactly if the store never held `t` revoked at a presentation, or none was left. -/
theorem stale_token_harmless_iff (env : AuthEnv) (server : AuthServer)
    (hclean : server.committed = server.db) (inputs : List AuthInput) (h : AuthHistory)
    (hrun : h = inputs.foldl (AuthHistory.step env) ⟨server, []⟩)
    (later earlier : List Served) (e : Served) (hpast : h.past = later ++ e :: earlier)
    (t : TokenClaims) (_ : e.issued = some t) (user : UserRecord)
    (hget : h.server.db.users.get? t.subject = some user)
    (hold : t.generation < user.tokenGeneration) (ps : List (ℚ × Draws)) :
    Guarded (AuthServer.present env t) (AuthServer.Refuses env t) h.server ps ∧
      (LeavesSessions env t later h.server ps ↔
        Guarded (AuthServer.present env t) (NotHeldRevoked t) h.server ps ∨
          NoSessionLeft env t later h.server ps) := by
  have hchronicle := chronicle_of_inputs hclean hrun
  have husable : ∀ t', IssuedAfterDrop later t t' → ∀ q : ℚ × Draws,
      (ps.foldl (AuthServer.present env t) h.server).now ≤ q.1 →
      ((ps.foldl (AuthServer.present env t) h.server).Usable env t' q ↔ h.server.Usable env t' q ∧
        Guarded (AuthServer.present env t) (NotHeldRevoked t) h.server ps) := by
    rintro t' ⟨rest, e', mid, rfl, hissued', hsubject, -⟩ q hq
    have hpast' : h.past = rest ++ e' :: (mid ++ e :: earlier) := by simp [hpast]
    have hle : t'.generation ≤ user.tokenGeneration := by
      rw [hpast'] at hchronicle
      have hgeneration := hchronicle.generation hissued' (hsubject ▸ hget)
      omega
    exact usable_presents_iff hsubject ps hchronicle.clean hget hold hle hq
  refine ⟨refuses_presents ps hchronicle.clean hget hold, ?_, ?_⟩
  · intro hleaves
    by_cases hguarded : Guarded (AuthServer.present env t) (NotHeldRevoked t) h.server ps
    · exact .inl hguarded
    · refine .inr fun t' ht' q hq hbefore => hguarded ?_
      exact ((husable t' ht' q hq).1 ((hleaves t' ht' q hq).2 hbefore)).2
  · rintro (hguarded | hnone) t' ht' q hq
    · rw [husable t' ht' q hq, and_iff_left hguarded]
    · rw [husable t' ht' q hq]
      exact iff_of_false (fun hafter => hnone t' ht' q hq hafter.1) (hnone t' ht' q hq)

/-- The sample requests, and a login after the drop. -/
def reopenedHistory : AuthHistory :=
  (reuseHistory 4).step .sample ⟨5, { refreshJti := "r4" }, .login "a@x.io" "pw" none none⟩

/-- What was served since the token `r2` was issued. -/
def reopenedLater : List Served := reopenedHistory.past.take 3

/-- The row of the sample user after the drop. -/
def droppedRow : UserRecord :=
  { email := "a@x.io", passwordHash := "pw", role := "trader", tokenGeneration := 1 }

/-- The token `r2`, that was never exchanged, harms no session. -/
theorem unused_token_harmless :
    LeavesSessions .sample (sampleToken "r2" 2) reopenedLater reopenedHistory.server
      [(6, {}), (7, {})] := by
  have hiff := stale_token_harmless_iff .sample .sample rfl
    (reuseInputs ++ [⟨5, { refreshJti := "r4" }, .login "a@x.io" "pw" none none⟩]) reopenedHistory
    rfl reopenedLater (reopenedHistory.past.drop 4)
    ((reuseHistory 1).server.served .sample
      ⟨2, { refreshJti := "r2" }, .login "a@x.io" "pw" none none⟩)
    rfl (sampleToken "r2" 2) (by decide +kernel) droppedRow (by decide +kernel) (by decide)
    [(6, {}), (7, {})]
  exact hiff.2.2 (.inl (by decide +kernel))

/-- The token `r1` was exchanged, and its second use dropped the sessions. Presented once more, it
    drops the session `r4` that was opened after. -/
theorem exchanged_token_harms :
    (reuseHistory 1).past.map Served.issued = [some (sampleToken "r1" 1)] ∧
      reopenedHistory.server.db.users.get? "u" = some droppedRow ∧
      (sampleToken "r1" 1).generation < droppedRow.tokenGeneration ∧
      ¬ LeavesSessions .sample (sampleToken "r1" 1) (reopenedHistory.past.take 4)
        reopenedHistory.server [(6, {})] := by
  refine ⟨by decide +kernel, by decide +kernel, by decide, fun hleaves => ?_⟩
  have hiff := hleaves ⟨"u", "trader", .refresh, "r4", 1005, 5, 1⟩
    ⟨[], _, _, rfl, by decide +kernel, rfl, _, List.mem_cons_self, by decide +kernel⟩ (7, {})
    (by decide +kernel)
  obtain ⟨pair, hpair⟩ := hiff.2 ⟨⟨⟨"u", "trader", .access, "", 907, 7, 1⟩,
    ⟨"u", "trader", .refresh, "", 1007, 7, 1⟩⟩, by decide +kernel⟩
  have hrefused : (((AuthServer.present .sample (sampleToken "r1" 1) reopenedHistory.server
      (6, {})).served .sample ⟨7, {}, .refresh ⟨"u", "trader", .refresh, "r4", 1005, 5, 1⟩⟩).reply) =
      .error (authenticationError "This session has been invalidated.") := by decide +kernel
  exact absurd (hpair.symm.trans hrefused) (by simp)

end TradingHub
