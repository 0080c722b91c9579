import OiCorridor.Spec.Consent

/-! What each consent and capability check establishes when it passes, and
what `checkAndStore` does to the cache: it keeps every entry younger than the
TTL, and stores a nonce only when no entry for it is left after the cleanup. -/

set_option autoImplicit false

namespace OI.Flourish

theorem verifySignedToken_ok {signed : List Payload} {token : Presented} {now : Int} {p : Payload}
    (h : verifySignedToken signed token now = .ok p) :
    token = .payload p ∧ p ∈ signed ∧ now ≤ p.exp := by
  unfold verifySignedToken at h
  split at h
  · split_ifs at h with hs hn
    cases h
    exact ⟨rfl, hs, not_lt.mp hn⟩
  · cases h

theorem verifySignedToken_error {signed : List Payload} {token : Presented} {now : Int}
    {e : GatewayError} (h : verifySignedToken signed token now = .error e) :
    e = .badToken ∨ e = .sigInvalid ∨ e = .tokenExpired := by
  unfold verifySignedToken at h
  split at h
  · split_ifs at h <;> cases h
    · exact .inr (.inr rfl)
    · exact .inr (.inl rfl)
  · cases h
    exact .inl rfl

namespace NonceCache

theorem mem_cleanup {ttlSec now : Int} {seen : NonceCache} {e : String × Int} :
    e ∈ cleanup ttlSec now seen ↔ e ∈ seen ∧ now - e.2 ≤ ttlSec := by
  simp [cleanup]

theorem mem_evict {ttlSec now : Int} {nonce : String} {seen : NonceCache} {e : String × Int} :
    e ∈ evict ttlSec now nonce seen ↔ e ∈ seen ∧ (e.1 = nonce → now - e.2 ≤ ttlSec) := by
  simp [evict, not_lt, imp_iff_not_or]

theorem foldl_evict (ttlSec now : Int) (L seen : NonceCache) :
    L.foldl (fun s e => evict ttlSec now e.1 s) seen =
      seen.filter fun e => !((L.any fun e' => e.1 = e'.1) && decide (now - e.2 > ttlSec)) := by
  induction L generalizing seen with
  | nil => simp
  | cons e' L ih =>
    rw [List.foldl_cons, ih, evict, List.filter_filter]
    congr 1
    funext e
    simp only [List.any_cons, Bool.decide_and]
    cases decide (e.1 = e'.1) <;> cases L.any (fun e' => decide (e.1 = e'.1)) <;>
      cases decide (now - e.2 > ttlSec) <;> rfl

theorem foldl_evict_self (ttlSec now : Int) (seen : NonceCache) :
    seen.foldl (fun s e => evict ttlSec now e.1 s) seen = cleanup ttlSec now seen := by
  rw [foldl_evict, cleanup]
  refine List.filter_congr fun e he => ?_
  rw [List.any_eq_true.mpr ⟨e, he, by simp⟩, Bool.true_and]

theorem mem_putIfAbsent {seen : NonceCache} {e : String × Int} (n : String) (now : Int) (he : e ∈ seen) :
    e ∈ (putIfAbsent seen n now).2 := by
  unfold putIfAbsent
  split_ifs
  exacts [he, List.mem_append_left _ he]

theorem putIfAbsent_true {seen : NonceCache} {n : String} {now : Int} (h : (putIfAbsent seen n now).1 = true) :
    (∀ s, (n, s) ∉ seen) ∧ (putIfAbsent seen n now).2 = seen ++ [(n, now)] := by
  unfold putIfAbsent at h ⊢
  split_ifs at h ⊢ with ha
  exact ⟨fun s hs => ha (List.any_eq_true.mpr ⟨_, hs, by simp⟩), rfl⟩

theorem mem_checkAndStore {ttlSec now : Int} {seen : NonceCache} (nonce : Option String)
    {e : String × Int} (he : e ∈ seen) (hage : now - e.2 ≤ ttlSec) :
    e ∈ (checkAndStore ttlSec seen nonce now).2 := by
  unfold checkAndStore
  rcases nonce with _ | n
  · exact he
  dsimp only
  split_ifs
  · exact he
  · exact mem_putIfAbsent n now (mem_cleanup.mpr ⟨he, hage⟩)

theorem checkAndStore_true {ttlSec now : Int} {seen : NonceCache} {nonce : Option String}
    (h : (checkAndStore ttlSec seen nonce now).1 = true) :
    ∃ n, nonce = some n ∧ (∀ s, (n, s) ∈ seen → ttlSec < now - s) ∧
      (checkAndStore ttlSec seen nonce now).2 = cleanup ttlSec now seen ++ [(n, now)] := by
  unfold checkAndStore at h ⊢
  rcases nonce with _ | n
  · cases h
  dsimp only at h ⊢
  split_ifs at h ⊢
  obtain ⟨hfresh, hput⟩ := putIfAbsent_true h
  exact ⟨n, rfl, fun s hs => not_le.mp fun hle => hfresh s (mem_cleanup.mpr ⟨hs, hle⟩), hput⟩

/-- The calls `checkAndStore` accepts when it is called in turn on `calls`, each
a nonce and the clock value it reads, starting from the cache `seen`. -/
def accepted (ttlSec : Int) (seen : NonceCache) : List (Option String × Int) → List (Option String × Int)
  | [] => []
  | (nonce, now) :: calls =>
    let r := checkAndStore ttlSec seen nonce now
    if r.1 then (nonce, now) :: accepted ttlSec r.2 calls else accepted ttlSec r.2 calls

theorem accepted_cons (ttlSec : Int) (seen : NonceCache) (nonce : Option String) (now : Int)
    (calls : List (Option String × Int)) :
    accepted ttlSec seen ((nonce, now) :: calls) =
      if (checkAndStore ttlSec seen nonce now).1 then
        (nonce, now) :: accepted ttlSec (checkAndStore ttlSec seen nonce now).2 calls
      else accepted ttlSec (checkAndStore ttlSec seen nonce now).2 calls := rfl

theorem mem_of_mem_accepted {ttlSec : Int} {seen : NonceCache} {calls : List (Option String × Int)}
    {a : Option String × Int} (h : a ∈ accepted ttlSec seen calls) : a ∈ calls := by
  induction calls generalizing seen with
  | nil => cases h
  | cons c calls ih =>
    obtain ⟨nonce, now⟩ := c
    rw [accepted_cons] at h
    split_ifs at h
    · rcases List.mem_cons.mp h with rfl | h
      · exact List.mem_cons_self _ _
      · exact List.mem_cons_of_mem _ (ih h)
    · exact List.mem_cons_of_mem _ (ih h)

theorem accepted_spaced (ttlSec : Int) (seen : NonceCache) (calls : List (Option String × Int))
    (hclock : calls.Pairwise fun a b => a.2 ≤ b.2) :
    (∀ e ∈ seen, ∀ a ∈ accepted ttlSec seen calls, a.1 = some e.1 → ttlSec < a.2 - e.2) ∧
      (accepted ttlSec seen calls).Pairwise fun a b => a.1 = b.1 → ttlSec < b.2 - a.2 := by
  induction calls generalizing seen with
  | nil => exact ⟨fun _ _ _ h => (by cases h), List.Pairwise.nil⟩
  | cons c calls ih =>
    obtain ⟨nonce, now⟩ := c
    rw [List.pairwise_cons] at hclock
    obtain ⟨hcross, hpair⟩ := ih (checkAndStore ttlSec seen nonce now).2 hclock.2
    have hlater : ∀ a ∈ accepted ttlSec seen ((nonce, now) :: calls), now ≤ a.2 := fun a ha =>
      (List.mem_cons.mp (mem_of_mem_accepted ha)).elim (fun h => h ▸ le_rfl) (hclock.1 a)
    have hcached : ∀ e ∈ seen, now - e.2 ≤ ttlSec → e ∈ (checkAndStore ttlSec seen nonce now).2 :=
      fun e he hage => mem_checkAndStore nonce he hage
    rw [accepted_cons] at hlater ⊢
    split_ifs at hlater ⊢ with hfresh
    · obtain ⟨n, rfl, hgone, hstore⟩ := checkAndStore_true hfresh
      have hnew : (n, now) ∈ (checkAndStore ttlSec seen (some n) now).2 :=
        hstore ▸ List.mem_append_right _ (List.mem_singleton_self _)
      refine ⟨fun e he a ha hn => ?_, List.pairwise_cons.mpr
        ⟨fun b hb hn => hcross _ hnew b hb hn.symm, hpair⟩⟩
      by_cases hage : now - e.2 ≤ ttlSec
      · rcases List.mem_cons.mp ha with rfl | ha
        · cases hn
          exact hgone _ he
        · exact hcross e (hcached e he hage) a ha hn
      · have := hlater a ha
        omega
    · refine ⟨fun e he a ha hn => ?_, hpair⟩
      by_cases hage : now - e.2 ≤ ttlSec
      · exact hcross e (hcached e he hage) a ha hn
      · have := hlater a ha
        omega

/-- From an empty cache, over calls whose clock values do not go back,
`checkAndStore` accepts a nonce again only more than `ttlSec` seconds after it
last accepted it. -/
theorem accepted_replay_window (ttlSec : Int) (calls : List (Option String × Int))
    (hclock : calls.Pairwise fun a b => a.2 ≤ b.2) :
    (accepted ttlSec [] calls).Pairwise fun a b => a.1 = b.1 → ttlSec < b.2 - a.2 :=
  (accepted_spaced ttlSec [] calls hclock).2

/-- A nonce presented at 0, 100 and 301 with the gateway's TTL of 300 s: stored
at 0, refused at 100, and stored again at 301. -/
theorem accepted_replay_window_after_ttl :
    ([(some "n", 0), (some "n", 100), (some "n", 301)] : List (Option String × Int)).Pairwise
        (fun a b => a.2 ≤ b.2) ∧
      accepted 300 [] [(some "n", 0), (some "n", 100), (some "n", 301)] = [(some "n", 0), (some "n", 301)] ∧
      (accepted 300 [] [(some "n", 0), (some "n", 100), (some "n", 301)]).Pairwise
        (fun a b => a.1 = b.1 → 300 < b.2 - a.2) :=
  ⟨by decide, by decide, accepted_replay_window 300 _ (by decide)⟩

/-- The cache after `checkAndStore` is called in turn on `calls` from `seen`. -/
def afterCalls (ttlSec : Int) (seen : NonceCache) (calls : List (Option String × Int)) : NonceCache :=
  calls.foldl (fun seen c => (checkAndStore ttlSec seen c.1 c.2).2) seen

theorem mem_afterCalls {ttlSec : Int} {seen : NonceCache} {e : String × Int}
    {calls : List (Option String × Int)} (he : e ∈ seen) (hage : ∀ c ∈ calls, c.2 - e.2 ≤ ttlSec) :
    e ∈ afterCalls ttlSec seen calls := by
  induction calls generalizing seen with
  | nil => exact he
  | cons c calls ih =>
    exact ih (mem_checkAndStore c.1 he (hage c (List.mem_cons_self _ _)))
      fun c' hc' => hage c' (List.mem_cons_of_mem _ hc')

end NonceCache

theorem verifyConsentToken_some {cfg : Config} {signed : List Payload} {token : Presented}
    {now : Int} {p : Payload} (h : verifyConsentToken cfg signed token now = .ok (some p)) :
    token = .payload p ∧ p ∈ signed ∧ now ≤ p.exp ∧ p.v = 1 ∧ p.aud = some cfg.consentAudience := by
  unfold verifyConsentToken at h
  split_ifs at h
  · cases h
  split at h
  · cases h
  · split at h
    · cases h
    · rename_i p' hv
      obtain ⟨ht, hs, he⟩ := verifySignedToken_ok hv
      split_ifs at h with h1 h2
      cases h
      exact ⟨ht, hs, he, not_not.mp h1, not_not.mp h2⟩

theorem verifyConsentToken_ne_none {cfg : Config} (hreq : cfg.requireConsent = true)
    (signed : List Payload) (token : Presented) (now : Int) :
    verifyConsentToken cfg signed token now ≠ .ok none := by
  unfold verifyConsentToken
  simp only [hreq, Bool.not_true, Bool.false_eq_true, if_false]
  split
  · exact fun h => by cases h
  · split
    · exact fun h => by cases h
    · split_ifs <;> exact fun h => by cases h

theorem verifyConsentNonce_ok {cfg : Config} {seen seen' : NonceCache} {p : Payload}
    {expected : String} {now : Int}
    (h : verifyConsentNonce cfg seen p expected now = (.ok (), seen')) :
    (NonceCache.checkAndStore cfg.nonceTtlSeconds seen p.nonce now).1 = true ∧
      seen' = (NonceCache.checkAndStore cfg.nonceTtlSeconds seen p.nonce now).2 ∧
      p.actHash = some expected := by
  unfold verifyConsentNonce at h
  rcases hc : NonceCache.checkAndStore cfg.nonceTtlSeconds seen p.nonce now with ⟨fresh, seen''⟩
  simp only [hc] at h ⊢
  cases fresh
  · simp at h
  by_cases ha : p.actHash = some expected
  · simp only [ha, Bool.not_true, Bool.false_eq_true, if_false, if_true, Prod.mk.injEq] at h
    exact ⟨rfl, h.2.symm, ha⟩
  · simp [ha] at h

theorem verifyConsentNonce_seen (cfg : Config) (seen : NonceCache) (p : Payload)
    (expected : String) (now : Int) : (verifyConsentNonce cfg seen p expected now).2 =
      (NonceCache.checkAndStore cfg.nonceTtlSeconds seen p.nonce now).2 := by
  unfold verifyConsentNonce
  cases NonceCache.checkAndStore cfg.nonceTtlSeconds seen p.nonce now
  dsimp only
  split_ifs <;> rfl

theorem verifyConsentToken_error {cfg : Config} {signed : List Payload} {token : Presented}
    {now : Int} {e : GatewayError} (h : verifyConsentToken cfg signed token now = .error e) :
    e = .missingConsentToken ∨ e = .badToken ∨ e = .sigInvalid ∨ e = .tokenExpired ∨
      e = .consentBadVersion ∨ e = .consentBadAud := by
  unfold verifyConsentToken at h
  split_ifs at h
  split at h
  · cases h; exact .inl rfl
  rcases hs : verifySignedToken signed token now with e' | p <;> rw [hs] at h
  · cases h
    rcases verifySignedToken_error hs with rfl | rfl | rfl <;> simp
  · dsimp only at h
    split_ifs at h <;> cases h <;> simp

theorem verifyConsent_ok {cfg : Config} (hreq : cfg.requireConsent = true) {signed : List Payload}
    {seen : NonceCache} {token : Presented} {expected : String} {checkedAt storedAt : Int}
    (h : (verifyConsent cfg signed seen token expected checkedAt storedAt).1 = .ok ()) :
    ∃ p, verifyConsentToken cfg signed token checkedAt = .ok (some p) ∧
      (verifyConsentNonce cfg seen p expected storedAt).1 = .ok () := by
  unfold verifyConsent at h
  rcases hv : verifyConsentToken cfg signed token checkedAt with e | _ | p <;> rw [hv] at h
  · cases h
  · exact absurd hv (verifyConsentToken_ne_none hreq _ _ _)
  · exact ⟨p, rfl, h⟩

theorem verifyConsent_actHashMismatch {cfg : Config} {signed : List Payload} {seen : NonceCache}
    {token : Presented} {expected : String} {checkedAt storedAt : Int}
    (h : (verifyConsent cfg signed seen token expected checkedAt storedAt).1 = .error .actHashMismatch) :
    ∃ p, verifyConsentToken cfg signed token checkedAt = .ok (some p) ∧
      (NonceCache.checkAndStore cfg.nonceTtlSeconds seen p.nonce storedAt).1 = true ∧
      (verifyConsent cfg signed seen token expected checkedAt storedAt).2 =
        (NonceCache.checkAndStore cfg.nonceTtlSeconds seen p.nonce storedAt).2 := by
  unfold verifyConsent at h ⊢
  rcases hv : verifyConsentToken cfg signed token checkedAt with e | _ | p <;> simp only [hv] at h
  · cases h
    rcases verifyConsentToken_error hv with h | h | h | h | h | h <;> cases h
  · cases h
  · refine ⟨p, rfl, ?_, verifyConsentNonce_seen _ _ _ _ _⟩
    unfold verifyConsentNonce at h
    rcases hc : NonceCache.checkAndStore cfg.nonceTtlSeconds seen p.nonce storedAt with ⟨_ | _, seen'⟩
    · simp [hc] at h
    · rfl

theorem verifyConsent_error {cfg : Config} {signed : List Payload} {seen : NonceCache}
    {token : Presented} {expected : String} {checkedAt storedAt : Int} {e : GatewayError}
    (h : (verifyConsent cfg signed seen token expected checkedAt storedAt).1 = .error e) :
    e = .missingConsentToken ∨ e = .badToken ∨ e = .sigInvalid ∨ e = .tokenExpired ∨
      e = .consentBadVersion ∨ e = .consentBadAud ∨ e = .consentReplay ∨ e = .actHashMismatch := by
  unfold verifyConsent at h
  rcases hv : verifyConsentToken cfg signed token checkedAt with e' | _ | p <;> simp only [hv] at h
  · cases h
    rcases verifyConsentToken_error hv with h | h | h | h | h | h <;> simp [h]
  · cases h
  · unfold verifyConsentNonce at h
    rcases NonceCache.checkAndStore cfg.nonceTtlSeconds seen p.nonce storedAt with ⟨_ | _, seen'⟩ <;>
      dsimp only at h <;> split_ifs at h <;> cases h <;> simp

theorem verifyCap_ok {cfg : Config} {signed : List Payload} {capToken : Presented} {tool : String}
    {now : Int} (hon : cfg.requireCapabilityForTools = true ∧ cfg.failClosed = true)
    (h : verifyCap cfg signed capToken tool now = .ok ()) :
    ∃ p ∈ signed, capToken = .payload p ∧
      ∃ scopes, p.scopes = some scopes ∧ "tool:" ++ tool ∈ scopes := by
  unfold verifyCap at h
  simp only [hon.1, hon.2, Bool.not_true, Bool.or_self, Bool.false_eq_true, if_false] at h
  split at h
  · cases h
  · split at h
    · cases h
    · rename_i p hv
      obtain ⟨rfl, hs, -⟩ := verifySignedToken_ok hv
      split_ifs at h
      split at h
      · cases h
      · rename_i scopes hsc
        split_ifs at h with hm
        exact ⟨p, hs, rfl, scopes, hsc, hm⟩

theorem Tools.run_ok {tool : String} {args : List (String × String)} {now : Int} {res : ToolResult}
    (h : Tools.run tool args now = .ok res) : tool = "echo" ∨ tool = "time" := by
  unfold Tools.run at h
  split_ifs at h with h1 h2
  · exact .inl h1
  · exact .inr h2

theorem lowerChar_of_isWhitespace {c : Char} (h : Character.isWhitespace c = true) : lowerChar c = [c] := by
  have hn : c.toNat ≠ 0x212A ∧ c.toNat ≠ 0x130 ∧ ¬ (c.toNat ≥ 65 ∧ c.toNat ≤ 90) := by
    simp only [Character.isWhitespace, Bool.or_eq_true, Bool.and_eq_true, decide_eq_true_eq, beq_iff_eq,
      bne_iff_ne, ne_eq] at h
    omega
  have h1 : c ≠ '\u212A' := fun e => hn.1 (by rw [e]; rfl)
  have h2 : c ≠ '\u0130' := fun e => hn.2.1 (by rw [e]; rfl)
  simp only [lowerChar, h1, h2, if_false, Char.toLower, if_neg hn.2.2]

theorem isBlank_eq_false_of_toLowerCase {t s : String} (h : toLowerCase t = s)
    (hs : isBlank s = false) : isBlank t = false := by
  unfold isBlank at *
  by_contra hb
  rw [Bool.not_eq_false, List.all_eq_true] at hb
  have hmap : t.data.flatMap lowerChar = t.data :=
    (List.flatMap_congr fun c hc => lowerChar_of_isWhitespace (hb c hc)).trans (List.flatMap_singleton' _)
  have : s.data = t.data := by rw [← h, toLowerCase, hmap]
  rw [this, List.all_eq_false] at hs
  obtain ⟨c, hc, hw⟩ := hs
  exact absurd (hb c hc) (by simpa using hw)

theorem CDI.checkToolAllowed_lower {t : String}
    (ht : toLowerCase t = "echo" ∨ toLowerCase t = "time") : CDI.checkToolAllowed config (some t) = none := by
  have hb : isBlank t = false := by
    rcases ht with ht | ht <;> exact isBlank_eq_false_of_toLowerCase ht rfl
  unfold CDI.checkToolAllowed
  rcases ht with ht | ht <;> simp [hb, ht] <;> decide

theorem verifyCap_missingScope {cfg : Config} {signed : List Payload} {capToken : Presented}
    {tool want : String} {now : Int} (h : verifyCap cfg signed capToken tool now = .error (.missingScope want)) :
    want = "tool:" ++ tool := by
  unfold verifyCap at h
  split_ifs at h
  rcases hs : verifySignedToken signed capToken now with e' | p
  · rcases verifySignedToken_error hs with rfl | rfl | rfl <;> cases capToken <;> simp [hs] at h
  · cases capToken <;> simp only [hs] at h
    · cases h
    all_goals
      split_ifs at h <;> try cases h
      split at h
      · cases h
      · split_ifs at h; cases h; rfl

theorem CDI.checkToolAllowed_some {cfg : Config} {tool : Option String} {e : GatewayError}
    (h : CDI.checkToolAllowed cfg tool = some e) :
    e = .missingTool ∨ e = .toolNotAllowed ∨ e = .networkToolsDisabled := by
  unfold CDI.checkToolAllowed at h
  split at h
  · cases h; exact .inl rfl
  · dsimp only at h
    split_ifs at h <;> cases h <;> simp

theorem CDI.checkToolAllowed_none {cfg : Config} {t : String}
    (h : CDI.checkToolAllowed cfg (some t) = none) : toLowerCase t ∈ CDI.toolsLower cfg := by
  unfold CDI.checkToolAllowed at h
  dsimp only at h
  split_ifs at h with _ hin
  exact hin

theorem Tools.run_error {tool : String} {args : List (String × String)} {now : Int} {e : GatewayError}
    (h : Tools.run tool args now = .error e) : e = .httpGetDisabled ∨ e = .unknownTool := by
  unfold Tools.run at h
  split_ifs at h <;> cases h <;> simp

end OI.Flourish
