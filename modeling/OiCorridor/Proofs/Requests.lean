import OiCorridor.Spec.Requests
import OiCorridor.Proofs.Consent

/-! The request threads over every interleaving. -/

set_option autoImplicit false

namespace OI.Flourish

theorem Stage.stored?_of_consent? {s : Stage} {c : Consent} (h : s.consent? = some c) :
    s.stored? = some c := by
  cases s <;> first | exact h | cases h

namespace Request

variable {cfg : Config} {g : Gateway} {now : Int}

@[simp] theorem step_route (r : Request) : (r.step cfg g now).1.route = r.route := by
  unfold step; dsimp only; split <;> (repeat' split) <;> rfl

@[simp] theorem step_actHash (r : Request) : (r.step cfg g now).1.actHash = r.actHash := by
  unfold step; dsimp only; split <;> (repeat' split) <;> rfl

theorem step_checked (r : Request) {p : Payload} {t : Int}
    (h : (r.step cfg g now).1.stage = .checked p t) :
    r.stage = .start ∧ t = now ∧ verifyConsentToken cfg g.consentSigned r.consentToken now = .ok (some p) := by
  unfold step at h; dsimp only at h
  split at h <;> (repeat' split at h) <;> simp_all

theorem step_storing (r : Request) {p : Payload} {n : String} {t c : Int}
    (h : (r.step cfg g now).1.stage = .storing p n t c) :
    r.stage = .checked p t ∧ c = now ∧ p.nonce = some n := by
  unfold step at h; dsimp only at h
  split at h <;> (repeat' split at h) <;> simp_all

theorem step_start (r : Request) (hs : r.stage = .start)
    (hcdi : ∀ tool capToken args, r.route = .toolRun tool capToken args →
      CDI.checkToolAllowed cfg tool = none) :
    r.step cfg g now = ({ r with
      stage := match verifyConsentToken cfg g.consentSigned r.consentToken now with
        | .error e => .failed e
        | .ok none => .consented none
        | .ok (some p) => .checked p now }, g.seen) := by
  obtain ⟨route, token, actHash, stage⟩ := r
  cases hs
  cases route with
  | ask => simp only [step]; split <;> rename_i hv <;> simp only [hv]
  | toolRun tool capToken args =>
    simp only [step, hcdi tool capToken args rfl]; split <;> rename_i hv <;> simp only [hv]

theorem step_stored (r : Request) :
    ((r.step cfg g now).2 = g.seen ∧ (r.step cfg g now).1.stage.stored? = r.stage.stored? ∧
      (r.step cfg g now).1.stage.consent? = r.stage.consent? ∧
      ∀ c, (r.step cfg g now).1.stage = .spent c → r.stage = .spent c) ∨
    ∃ p n t c, r.stage = .storing p n t c ∧ (r.step cfg g now).2 = (g.seen.putIfAbsent n c).2 ∧
      (r.step cfg g now).1.stage = if (g.seen.putIfAbsent n c).1 then
        (if p.actHash = some r.actHash then .consented (some ⟨p, t, c⟩) else .spent ⟨p, t, c⟩)
        else .failed .consentReplay := by
  unfold step; dsimp only
  split
  · left; (repeat' split) <;> simp [Stage.stored?, Stage.consent?, *]
  · left; (repeat' split) <;> simp [Stage.stored?, Stage.consent?, *]
  · rename_i p n t c hs
    refine .inr ⟨p, n, t, c, hs, ?_⟩
    generalize g.seen.putIfAbsent n c = res
    obtain ⟨_ | _, seen'⟩ := res
    · exact ⟨rfl, rfl⟩
    · by_cases ha : p.actHash = some r.actHash <;> simp [ha]
  · left; split <;> simp [Stage.stored?, Stage.consent?, *]
  · left; simp

theorem step_done_ok (r : Request) {c : Option Consent} {res : ToolResult}
    (h : (r.step cfg g now).1.stage = .done c (.ok (some res))) :
    r.stage = .done c (.ok (some res)) ∨ r.stage = .consented c ∧
      ∃ tool capToken args, r.route = .toolRun (some tool) capToken args ∧
        verifyCap cfg g.capSigned capToken tool now = .ok () ∧ Tools.run tool args now = .ok res := by
  unfold step at h; dsimp only at h
  split at h
  · (repeat' split at h) <;> simp_all
  · (repeat' split at h) <;> simp_all
  · (repeat' split at h) <;> simp_all
  · rename_i c' hs
    right
    split at h
    · simp at h
    · rename_i tool capToken args hr
      simp only [Stage.done.injEq] at h
      obtain ⟨rfl, h⟩ := h
      refine ⟨hs, tool, capToken, args, hr, ?_⟩
      rcases hv : verifyCap cfg g.capSigned capToken tool now with e | ⟨⟩ <;> rw [hv] at h
      · cases h
      · rcases ht : Tools.run tool args now with e | res' <;> rw [ht] at h <;> cases h
        exact ⟨rfl, rfl⟩
    · simp at h
  · left; simpa using h

theorem evict_of_storing {r : Request} {p : Payload} {n : String} {t c : Int}
    (hs : r.stage = .storing p n t c) (nonce : String) (seen : NonceCache) :
    r.evict cfg nonce seen = seen.evict cfg.nonceTtlSeconds c nonce := by
  simp [evict, hs]

theorem mem_evict (r : Request) {nonce : String} {seen : NonceCache} {e : String × Int} {now : Int}
    (hc : ∀ p n t c, r.stage = .storing p n t c → c ≤ now) (he : e ∈ seen)
    (hage : now - e.2 ≤ cfg.nonceTtlSeconds) : e ∈ r.evict cfg nonce seen := by
  unfold evict
  split
  · rename_i p n t c hs
    exact NonceCache.mem_evict.mpr ⟨he, fun _ => by have := hc p n t c hs; omega⟩
  · exact he

end Request

namespace Gateway

variable {cfg : Config}

theorem step_request {g : Gateway} {i : Nat} {now : Int} {r : Request}
    (h : g.requests[i]? = some r) :
    g.step cfg (.step i now) =
      { g with
        clock := now
        seen := (r.step cfg g now).2
        requests := g.requests.set i (r.step cfg g now).1 } := by
  simp only [step, h]

theorem step_request_none {g : Gateway} {i : Nat} {now : Int} (h : g.requests[i]? = none) :
    g.step cfg (.step i now) = { g with clock := now } := by
  simp only [step, h]

theorem step_evict {g : Gateway} {i : Nat} {nonce : String} {now : Int} {r : Request}
    (h : g.requests[i]? = some r) :
    g.step cfg (.evict i nonce now) = { g with clock := now, seen := r.evict cfg nonce g.seen } := by
  simp only [step, h]

theorem step_evict_none {g : Gateway} {i : Nat} {nonce : String} {now : Int} (h : g.requests[i]? = none) :
    g.step cfg (.evict i nonce now) = { g with clock := now } := by
  simp only [step, h]

end Gateway

/-- The environment's side of a run: the clock does not go back, and a consent
token is minted with a nonce no signed token carries (a fresh UUID). -/
def Action.Valid (g : Gateway) : Action → Prop
  | .mintConsent now nonce _ => g.clock ≤ now ∧ ∀ p ∈ g.consentSigned, p.nonce ≠ some nonce
  | a => g.clock ≤ a.now

/-- The `putIfAbsent` of a request comes at most `d` seconds after its expiry
check, on the gateway's clock. -/
def Action.Timely (d : Int) (g : Gateway) : Action → Prop
  | .step i now =>
    match g.requests[i]? with
    | some ⟨_, _, _, .storing _ _ t _⟩ => now ≤ t + d
    | _ => True
  | _ => True

/-- Every action of `as`, taken in turn from `g`, satisfies `P` where it is taken. -/
def Gateway.Runs (cfg : Config) (P : Gateway → Action → Prop) : Gateway → List Action → Prop
  | _, [] => True
  | g, a :: as => P g a ∧ Runs cfg P (g.step cfg a) as

theorem eq_of_nonce_eq {l : List Payload} (h : l.Pairwise fun p q => p.nonce ≠ q.nonce)
    {p q : Payload} (hp : p ∈ l) (hq : q ∈ l) (he : p.nonce = q.nonce) : p = q :=
  List.inj_on_of_nodup_map (List.pairwise_map.mpr h) hp hq he

/-- A consent token as `g` holds it after a request checked it at `t`: signed,
minted no later than `t`, unexpired at `t`, and for the configured audience. -/
structure Checked (cfg : Config) (g : Gateway) (p : Payload) (t : Int) : Prop where
  signed : p ∈ g.consentSigned
  after_mint : p.exp - cfg.consentTtlSeconds ≤ t
  unexpired : t ≤ p.exp
  past : t ≤ g.clock
  aud_eq : p.aud = some cfg.consentAudience

theorem Checked.mono {cfg : Config} {g g' : Gateway} {p : Payload} {t : Int} (h : Checked cfg g p t)
    (hs : g.consentSigned ⊆ g'.consentSigned) (hc : g.clock ≤ g'.clock) : Checked cfg g' p t :=
  ⟨hs h.signed, h.after_mint, h.unexpired, h.past.trans hc, h.aud_eq⟩

/-- A pass `c` through `checkAndStore` as the gateway `g` keeps it: its payload
was signed, checked after it was minted, stored after that, and carries the
audience `verifyConsent` compared; its nonce stays in the cache for the TTL
after the clock value it was stored with. -/
structure Kept (cfg : Config) (g : Gateway) (c : Consent) : Prop where
  signed : c.payload ∈ g.consentSigned
  checked_after_mint : c.payload.exp - cfg.consentTtlSeconds ≤ c.checkedAt
  stored_after_check : c.checkedAt ≤ c.storedAt
  stored_past : c.storedAt ≤ g.clock
  aud_eq : c.payload.aud = some cfg.consentAudience
  cached : ∃ n, c.payload.nonce = some n ∧
    (g.clock ≤ c.storedAt + cfg.nonceTtlSeconds → (n, c.storedAt) ∈ g.seen)

theorem Kept.mono {cfg : Config} {g g' : Gateway} {c : Consent} (hk : Kept cfg g c)
    (hs : g.consentSigned ⊆ g'.consentSigned) (hc : g.clock ≤ g'.clock)
    (hseen : ∀ e ∈ g.seen, g'.clock - e.2 ≤ cfg.nonceTtlSeconds → e ∈ g'.seen) : Kept cfg g' c := by
  obtain ⟨hsig, hm, hsc, hsp, hau, n, hn, hcache⟩ := hk
  refine ⟨hs hsig, hm, hsc, hsp.trans hc, hau, n, hn, fun hle => ?_⟩
  exact hseen _ (hcache (hc.trans hle)) (by dsimp only; omega)

/-- What the gateway `g` keeps of request `r`: a `checked` token checked; the
token of a request in `checkAndStore` checked, with its nonce and a clock read
in the past; its pass through `checkAndStore` kept; the act_hash of its pass
through `verifyConsent` its own, and that of a spent token not. -/
structure ReqInv (cfg : Config) (g : Gateway) (r : Request) : Prop where
  checked : ∀ p t, r.stage = .checked p t → Checked cfg g p t
  storing : ∀ p n t c, r.stage = .storing p n t c →
    Checked cfg g p t ∧ t ≤ c ∧ c ≤ g.clock ∧ p.nonce = some n
  kept : ∀ c, r.stage.stored? = some c → Kept cfg g c
  matched : ∀ c, r.stage.consent? = some c → c.payload.actHash = some r.actHash
  spent : ∀ c, r.stage = .spent c → c.payload.actHash ≠ some r.actHash

namespace ReqInv

variable {cfg : Config} {g g' : Gateway} {r : Request}

theorem mono (h : ReqInv cfg g r) (hs : g.consentSigned ⊆ g'.consentSigned) (hc : g.clock ≤ g'.clock)
    (hseen : ∀ e ∈ g.seen, g'.clock - e.2 ≤ cfg.nonceTtlSeconds → e ∈ g'.seen) : ReqInv cfg g' r where
  checked p t hst := (h.checked p t hst).mono hs hc
  storing p n t c hst := by
    obtain ⟨h1, h2, h3, h4⟩ := h.storing p n t c hst
    exact ⟨h1.mono hs hc, h2, h3.trans hc, h4⟩
  kept c hcs := (h.kept c hcs).mono hs hc hseen
  matched := h.matched
  spent := h.spent

theorem start (hs : r.stage = .start) : ReqInv cfg g r := by
  constructor <;> intros <;> simp_all [Stage.stored?, Stage.consent?]

theorem kept_new (h : ReqInv cfg g r) {p : Payload} {n : String} {t c now : Int}
    (hst : r.stage = .storing p n t c) (hv : g.clock ≤ now) (hok : (g.seen.putIfAbsent n c).1 = true)
    (hs : g'.consentSigned = g.consentSigned) (hc : g'.clock = now)
    (hseen : g'.seen = (g.seen.putIfAbsent n c).2) : Kept cfg g' ⟨p, t, c⟩ := by
  obtain ⟨hk, htc, hcl, hn⟩ := h.storing p n t c hst
  refine ⟨hs ▸ hk.signed, hk.after_mint, htc, hc ▸ hcl.trans hv, hk.aud_eq, n, hn, fun _ => ?_⟩
  rw [hseen, (NonceCache.putIfAbsent_true hok).2]
  exact List.mem_append_right _ (List.mem_singleton_self _)

theorem step (h : ReqInv cfg g r) {now : Int} (hv : g.clock ≤ now)
    (hmint : ∀ p ∈ g.consentSigned, p.exp - cfg.consentTtlSeconds ≤ g.clock)
    (hs : g'.consentSigned = g.consentSigned) (hc : g'.clock = now)
    (hseen : g'.seen = (r.step cfg g now).2) : ReqInv cfg g' (r.step cfg g now).1 := by
  have hkeep : ∀ e ∈ g.seen, g'.clock - e.2 ≤ cfg.nonceTtlSeconds → e ∈ g'.seen := by
    intro e he _
    rw [hseen]
    rcases Request.step_stored r with ⟨h, -⟩ | ⟨p, n, t, c, -, h, -⟩
    · rw [h]; exact he
    · rw [h]; exact NonceCache.mem_putIfAbsent n c he
  have hm := h.mono (hs ▸ fun _ h => h) (hc ▸ hv) hkeep
  refine ⟨fun p t hst => ?_, fun p n t c hst => ?_, fun c hcs => ?_, fun c hcs => ?_, fun c hst => ?_⟩
  · obtain ⟨-, rfl, hp⟩ := Request.step_checked r hst
    obtain ⟨-, h1, h3, -, h5⟩ := verifyConsentToken_some hp
    exact ⟨hs ▸ h1, (hmint p h1).trans hv, h3, hc.ge, h5⟩
  · obtain ⟨hck, rfl, hn⟩ := Request.step_storing r hst
    have hk := h.checked p t hck
    exact ⟨hk.mono (hs ▸ fun _ h => h) (hc ▸ hv), hk.past.trans hv, hc.ge, hn⟩
  · rcases Request.step_stored r with ⟨-, h', -⟩ | ⟨p, n, t, c', hst, hseen', hstage⟩
    · exact hm.kept c (h' ▸ hcs)
    rw [hstage] at hcs
    split_ifs at hcs with hok <;> cases hcs
    all_goals exact h.kept_new hst hv hok hs hc (hseen.trans hseen')
  · rw [Request.step_actHash]
    rcases Request.step_stored r with ⟨-, -, h', -⟩ | ⟨p, n, t, c', -, -, hstage⟩
    · exact h.matched c (h' ▸ hcs)
    rw [hstage] at hcs
    split_ifs at hcs with hok ha <;> cases hcs
    exact ha
  · rw [Request.step_actHash]
    rcases Request.step_stored r with ⟨-, -, -, h'⟩ | ⟨p, n, t, c', -, -, hstage⟩
    · exact h.spent c (h' c hst)
    rw [hstage] at hst
    split_ifs at hst with hok ha
    cases hst
    exact ha

end ReqInv

/-- What the gateway keeps whatever the timing: distinct nonces on the signed
consent tokens, each minted in the past, and `ReqInv` of every request. -/
structure ConsentInv (cfg : Config) (g : Gateway) : Prop where
  nonces : g.consentSigned.Pairwise fun p q => p.nonce ≠ q.nonce
  minted : ∀ p ∈ g.consentSigned, p.exp - cfg.consentTtlSeconds ≤ g.clock
  requests : ∀ r ∈ g.requests, ReqInv cfg g r

namespace ConsentInv

variable {cfg : Config} {g : Gateway}

theorem init (cfg : Config) (now : Int) : ConsentInv cfg (Gateway.init now) :=
  ⟨List.Pairwise.nil, by simp [Gateway.init], by simp [Gateway.init]⟩

theorem frame {g' : Gateway} (hi : ConsentInv cfg g) (hs : g'.consentSigned = g.consentSigned)
    (hr : g'.requests = g.requests) (hc : g.clock ≤ g'.clock)
    (hseen : ∀ e ∈ g.seen, g'.clock - e.2 ≤ cfg.nonceTtlSeconds → e ∈ g'.seen) : ConsentInv cfg g' :=
  ⟨hs ▸ hi.nonces, fun p hp => (hi.minted p (hs ▸ hp)).trans hc,
    fun r hr' => (hi.requests r (hr ▸ hr')).mono (hs ▸ fun _ h => h) hc hseen⟩

theorem mintConsent (hi : ConsentInv cfg g) {now : Int} {nonce actHash : String}
    (hv : (Action.mintConsent now nonce actHash).Valid g) :
    ConsentInv cfg (g.step cfg (.mintConsent now nonce actHash)) where
  nonces := List.pairwise_append.mpr ⟨hi.nonces, List.pairwise_singleton _ _,
    fun a ha b hb => by rw [List.mem_singleton.mp hb]; exact hv.2 a ha⟩
  minted p hp := by
    rcases List.mem_append.mp hp with hp | hp
    · exact (hi.minted p hp).trans hv.1
    · rw [List.mem_singleton.mp hp]; simp [OI.Flourish.mintConsent, Gateway.step]
  requests r hr := (hi.requests r hr).mono (fun _ h => List.mem_append_left _ h) hv.1 fun e he _ => he

theorem arrive (hi : ConsentInv cfg g) {now : Int} {route : Route} {token : Presented}
    {actHash : String} (hv : g.clock ≤ now) :
    ConsentInv cfg (g.step cfg (.arrive now route token actHash)) where
  nonces := hi.nonces
  minted p hp := (hi.minted p hp).trans hv
  requests r hr := by
    rcases List.mem_append.mp hr with hr | hr
    · exact (hi.requests r hr).mono (fun _ h => h) hv fun e he _ => he
    · exact ReqInv.start (by rw [List.mem_singleton.mp hr])

theorem request (hi : ConsentInv cfg g) {i : Nat} {now : Int} {r : Request}
    (hr : g.requests[i]? = some r) (hv : g.clock ≤ now) :
    ConsentInv cfg (g.step cfg (.step i now)) := by
  rw [Gateway.step_request hr]
  have hrm : r ∈ g.requests := List.getElem?_mem hr
  have hseen : ∀ e ∈ g.seen, now - e.2 ≤ cfg.nonceTtlSeconds → e ∈ (r.step cfg g now).2 := by
    intro e he _
    rcases Request.step_stored r with ⟨h, -⟩ | ⟨p, n, t, c, -, h, -⟩
    · rw [h]; exact he
    · rw [h]; exact NonceCache.mem_putIfAbsent n c he
  refine ⟨hi.nonces, fun p hp => (hi.minted p hp).trans hv, fun r₀ hr₀ => ?_⟩
  rcases List.mem_or_eq_of_mem_set hr₀ with hr₀ | rfl
  · exact (hi.requests r₀ hr₀).mono (fun _ h => h) hv hseen
  · exact (hi.requests r hrm).step hv hi.minted rfl rfl rfl

theorem evict (hi : ConsentInv cfg g) {i : Nat} {nonce : String} {now : Int}
    (hv : g.clock ≤ now) : ConsentInv cfg (g.step cfg (.evict i nonce now)) := by
  rcases hr : g.requests[i]? with _ | r
  · rw [Gateway.step_evict_none hr]; exact hi.frame rfl rfl hv fun e he _ => he
  rw [Gateway.step_evict hr]
  refine hi.frame rfl rfl hv fun e he hage => Request.mem_evict r (fun p n t c hst => ?_) he hage
  exact ((hi.requests r (List.getElem?_mem hr)).storing p n t c hst).2.2.1.trans hv

theorem step (hi : ConsentInv cfg g) {a : Action} (hv : a.Valid g) :
    ConsentInv cfg (g.step cfg a) := by
  cases a with
  | mintConsent now nonce actHash => exact hi.mintConsent hv
  | mintCap now scopes => exact hi.frame rfl rfl hv fun e he _ => he
  | arrive now route token actHash => exact hi.arrive hv
  | step i now =>
    rcases hr : g.requests[i]? with _ | r
    · rw [Gateway.step_request_none hr]; exact hi.frame rfl rfl hv fun e he _ => he
    · exact hi.request hr hv
  | evict i nonce now => exact hi.evict hv

theorem run (hi : ConsentInv cfg g) {as : List Action}
    (hr : Gateway.Runs cfg (fun g a => a.Valid g) g as) : ConsentInv cfg (g.run cfg as) := by
  induction as generalizing g with
  | nil => exact hi
  | cons a as ih => exact ih (hi.step hr.1) hr.2

theorem nonce_ne (hi : ConsentInv cfg g) {r : Request} (hrm : r ∈ g.requests) {p : Payload}
    {n : String} {t c now : Int} (hst : r.stage = .storing p n t c) (hv : g.clock ≤ now)
    (ht : now ≤ t + (cfg.nonceTtlSeconds - cfg.consentTtlSeconds))
    (hok : (g.seen.putIfAbsent n c).1 = true) {r' : Request}
    (hr' : r' ∈ g.requests) {c' : Consent} (hc : r'.stage.stored? = some c') :
    c'.payload.nonce ≠ p.nonce := by
  intro he
  obtain ⟨hk, -, -, hn⟩ := (hi.requests r hrm).storing p n t c hst
  obtain ⟨hsig, hm, hsc, -, -, n', hn', hcache⟩ := (hi.requests r' hr').kept c' hc
  obtain rfl := eq_of_nonce_eq hi.nonces hsig hk.signed he
  rw [hn'] at hn
  cases hn
  have := hk.unexpired
  exact (NonceCache.putIfAbsent_true hok).1 _ (hcache (by omega))

end ConsentInv

theorem getElem?_append_singleton {α : Type} {l : List α} {x y : α} {j : Nat}
    (h : (l ++ [x])[j]? = some y) : l[j]? = some y ∨ y = x := by
  rcases Nat.lt_or_ge j l.length with hj | hj
  · rw [List.getElem?_append_left hj] at h; exact .inl h
  · rw [List.getElem?_append_right hj] at h
    rcases hk : j - l.length with _ | k <;> rw [hk] at h
    · exact .inr (Option.some.inj h).symm
    · cases h

theorem getElem?_set_cases {α : Type} {l : List α} {i j : Nat} {a y : α}
    (h : (l.set i a)[j]? = some y) : j = i ∧ y = a ∨ j ≠ i ∧ l[j]? = some y := by
  rw [List.getElem?_set] at h
  split_ifs at h with hij
  · cases h; exact .inl ⟨hij.symm, rfl⟩
  · exact .inr ⟨Ne.symm hij, h⟩

/-- At most one request got past `verifyConsent` with any one nonce. -/
def OncePerNonce (requests : List Request) : Prop :=
  ∀ (i j : Nat) (ri rj : Request) (ci cj : Consent), requests[i]? = some ri → requests[j]? = some rj →
    ri.stage.consent? = some ci → rj.stage.consent? = some cj →
    ci.payload.nonce = cj.payload.nonce → i = j

/-- At most one request stored any one nonce through `checkAndStore`. -/
def OnceStored (requests : List Request) : Prop :=
  ∀ (i j : Nat) (ri rj : Request) (ci cj : Consent), requests[i]? = some ri → requests[j]? = some rj →
    ri.stage.stored? = some ci → rj.stage.stored? = some cj →
    ci.payload.nonce = cj.payload.nonce → i = j

namespace OnceStored

variable {cfg : Config} {g : Gateway}

theorem init (now : Int) : OnceStored (Gateway.init now).requests := fun _ _ _ _ _ _ h => by
  simp [Gateway.init] at h

theorem oncePerNonce {requests : List Request} (h : OnceStored requests) : OncePerNonce requests :=
  fun i j ri rj ci cj hi hj hci hcj he =>
    h i j ri rj ci cj hi hj (Stage.stored?_of_consent? hci) (Stage.stored?_of_consent? hcj) he

theorem request (hi : ConsentInv cfg g) (ho : OnceStored g.requests) {i : Nat} {now : Int} {r : Request}
    (hr : g.requests[i]? = some r) (hv : g.clock ≤ now)
    (ht : ∀ p n t c, r.stage = .storing p n t c → now ≤ t + (cfg.nonceTtlSeconds - cfg.consentTtlSeconds)) :
    OnceStored (g.step cfg (.step i now)).requests := by
  rw [Gateway.step_request hr]
  unfold OnceStored
  have key : ∀ k rk ck c, g.requests[k]? = some rk → k ≠ i → rk.stage.stored? = some ck →
      (r.step cfg g now).1.stage.stored? = some c → c.payload.nonce = ck.payload.nonce → False := by
    intro k rk ck c hk hki hck hc he
    rcases Request.step_stored r with ⟨-, h, -⟩ | ⟨p, n, t, c', hst, -, hstage⟩
    · exact hki (ho i k r rk c ck hr hk (h ▸ hc) hck he).symm
    rw [hstage] at hc
    split_ifs at hc with hok <;> cases hc <;>
      exact hi.nonce_ne (List.getElem?_mem hr) hst hv (ht p n t c' hst) hok (List.getElem?_mem hk) hck he.symm
  intro j k rj rk cj ck hj hk hcj hck he
  rcases getElem?_set_cases hj with ⟨rfl, rfl⟩ | ⟨hji, hj'⟩ <;>
    rcases getElem?_set_cases hk with ⟨rfl, rfl⟩ | ⟨hki, hk'⟩
  · rfl
  · exact (key k rk ck cj hk' hki hck hcj he).elim
  · exact (key j rj cj ck hj' hji hcj hck he.symm).elim
  · exact ho j k rj rk cj ck hj' hk' hcj hck he

theorem arrive (ho : OnceStored g.requests) {now : Int} {route : Route} {token : Presented}
    {actHash : String} : OnceStored (g.step cfg (.arrive now route token actHash)).requests := by
  unfold OnceStored
  intro j k rj rk cj ck hj hk hcj hck he
  rcases getElem?_append_singleton hj with hj' | rfl
  · rcases getElem?_append_singleton hk with hk' | rfl
    · exact ho j k rj rk cj ck hj' hk' hcj hck he
    · cases hck
  · cases hcj

theorem step (hi : ConsentInv cfg g) (ho : OnceStored g.requests) {a : Action}
    (hv : a.Valid g) (ht : a.Timely (cfg.nonceTtlSeconds - cfg.consentTtlSeconds) g) :
    OnceStored (g.step cfg a).requests := by
  cases a with
  | mintConsent now nonce actHash => exact ho
  | mintCap now scopes => exact ho
  | arrive now route token actHash => exact ho.arrive
  | step i now =>
    rcases hr : g.requests[i]? with _ | r
    · rw [Gateway.step_request_none hr]; exact ho
    · refine ho.request hi hr hv fun p n t c hs => ?_
      obtain ⟨route, token, actHash, stage⟩ := r
      cases hs
      simpa [Action.Timely, hr] using ht
  | evict i nonce now =>
    rcases hr : g.requests[i]? with _ | r
    · rw [Gateway.step_evict_none hr]; exact ho
    · rw [Gateway.step_evict hr]; exact ho

end OnceStored

/-- Every tool result a request got came from `Tools.run` on `echo` or `time`,
after `verifyCap` found a signed capability token whose scopes hold `tool:` and
the tool. -/
def ToolResults (g : Gateway) : Prop :=
  ∀ r ∈ g.requests, ∀ c res, r.stage = .done c (.ok (some res)) →
    ∃ tool capToken args, r.route = .toolRun (some tool) capToken args ∧
      (tool = "echo" ∨ tool = "time") ∧
      ∃ p ∈ g.capSigned, capToken = .payload p ∧ ∃ scopes, p.scopes = some scopes ∧ "tool:" ++ tool ∈ scopes

namespace ToolResults

variable {cfg : Config} {g : Gateway}

theorem mono {g' : Gateway} (h : ToolResults g) (hr : g'.requests = g.requests)
    (hc : g.capSigned ⊆ g'.capSigned) : ToolResults g' := by
  intro r hr' c res hs
  obtain ⟨tool, capToken, args, h1, h2, p, hp, h3⟩ := h r (hr ▸ hr') c res hs
  exact ⟨tool, capToken, args, h1, h2, p, hc hp, h3⟩

theorem step (hon : cfg.requireCapabilityForTools = true ∧ cfg.failClosed = true)
    (h : ToolResults g) (a : Action) : ToolResults (g.step cfg a) := by
  cases a with
  | mintConsent now nonce actHash => exact h.mono rfl fun _ h => h
  | mintCap now scopes => exact h.mono rfl fun _ h => List.mem_append_left _ h
  | arrive now route token actHash =>
    intro r hr c res hs
    rcases List.mem_append.mp hr with hr | hr
    · exact h r hr c res hs
    · rw [List.mem_singleton.mp hr] at hs; cases hs
  | step i now =>
    rcases hri : g.requests[i]? with _ | r
    · rw [Gateway.step_request_none hri]; exact h.mono rfl fun _ h => h
    rw [Gateway.step_request hri]
    intro r₀ hr₀ c res hs
    rcases List.mem_or_eq_of_mem_set hr₀ with hr₀ | rfl
    · exact h r₀ hr₀ c res hs
    rcases Request.step_done_ok r hs with hs | ⟨-, tool, capToken, args, hroute, hcap, hrun⟩
    · rw [Request.step_route]; exact h r (List.getElem?_mem hri) c res hs
    · exact ⟨tool, capToken, args, (Request.step_route r).trans hroute, Tools.run_ok hrun,
        verifyCap_ok hon hcap⟩
  | evict i nonce now =>
    rcases hri : g.requests[i]? with _ | r
    · rw [Gateway.step_evict_none hri]; exact h.mono rfl fun _ h => h
    · rw [Gateway.step_evict hri]; exact h.mono rfl fun _ h => h

theorem run (hon : cfg.requireCapabilityForTools = true ∧ cfg.failClosed = true)
    (h : ToolResults g) (as : List Action) : ToolResults (g.run cfg as) := by
  induction as generalizing g with
  | nil => exact h
  | cons a as ih => exact ih (h.step hon a)

end ToolResults

theorem Gateway.Runs.and {cfg : Config} {P Q : Gateway → Action → Prop} {g : Gateway}
    {as : List Action} (hp : Gateway.Runs cfg P g as) (hq : Gateway.Runs cfg Q g as) :
    Gateway.Runs cfg (fun g a => P g a ∧ Q g a) g as := by
  induction as generalizing g with
  | nil => trivial
  | cons a as ih => exact ⟨⟨hp.1, hq.1⟩, ih hp.2 hq.2⟩

theorem OnceStored.run {cfg : Config} {g : Gateway} (hi : ConsentInv cfg g)
    (ho : OnceStored g.requests) {as : List Action}
    (hr : Gateway.Runs cfg (fun g a => a.Valid g ∧
      a.Timely (cfg.nonceTtlSeconds - cfg.consentTtlSeconds) g) g as) :
    OnceStored (g.run cfg as).requests := by
  induction as generalizing g with
  | nil => exact ho
  | cons a as ih => exact ih (hi.step hr.1.1) (ho.step hi hr.1.1 hr.1.2) hr.2

end OI.Flourish
