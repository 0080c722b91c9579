import OiCorridor.Spec.Handlers
import OiCorridor.Proofs.ConsentReplay

/-! What a request gets back from `/v1/ask` and `/v1/tool/run`. `/v1/ask`
picks its status from the exception's text, and only the content filter's
texts start with `CIF:`: so it answers 400 exactly when the filter refused the
body, and 403 for a body that `MiniJson` cannot read or that is not an object,
as for a consent failure. A 200 from `/v1/tool/run` comes from `Tools.run` on
`echo` or `time`, after `verifyConsent` passed for the tool and its arguments
and a signed capability scoped for the tool. Each request past the rate limiter
and the method check adds one line to the audit log, whose hash the reply
returns, and a second when the `200` reply throws an `IOException`. -/

set_option autoImplicit false

namespace OI.Flourish

open MiniJson

/-! ### Exception texts -/

theorem CifError.message_cif (e : CifError) : startsWith e.message "CIF:" = true := by
  cases e <;> rfl

theorem GatewayError.message_not_cif (e : GatewayError) : startsWith e.message "CIF:" = false := by
  cases e <;> rfl

theorem JsonError.message_not_cif (jdk : JdkTexts) (body : String) (e : JsonError) :
    startsWith (JsonError.message jdk body e) "CIF:" = false := by
  cases e <;> first | rfl | exact jdk.index_not_cif body | exact jdk.number_not_cif body _

theorem Refusal.message_cif_iff (jdk : JdkTexts) (body : String) (r : Refusal) :
    startsWith (r.message jdk body) "CIF:" = true ↔ ∃ e, r = .cif e := by
  cases r with
  | cif e => exact ⟨fun _ => ⟨e, rfl⟩, fun _ => e.message_cif⟩
  | json e => simp [Refusal.message, JsonError.message_not_cif]
  | gateway e => simp [Refusal.message, GatewayError.message_not_cif]
  | auditUnavailable =>
    simp only [Refusal.message]
    exact ⟨fun h => absurd h (by decide), fun ⟨_, h⟩ => by cases h⟩
  | badJson =>
    simp only [Refusal.message]
    exact ⟨fun h => absurd h (by decide), fun ⟨_, h⟩ => by cases h⟩

/-! ### The frame both handlers share -/

section Serve

variable (sha256Hex : String → String) (jdk : JdkTexts) (rd : Readings) {α : Type} (g : Gateway)
  (a : Audit) (ex : Exchange) (okKind denyKind : String) (okMsg : α → String)
  (okReply : α → String → Reply) (denyReply : String → String → Reply)

theorem serve_stopped (outcome : Except Refusal α × NonceCache)
    (h : rd.rateOk = false ∨ toUpperCase ex.method ≠ "POST") :
    (serve sha256Hex jdk rd g a ex outcome okKind denyKind okMsg okReply denyReply).2 = (g.seen, a) := by
  unfold serve
  rcases h with h | h
  · simp [h]
  · split_ifs <;> rfl

theorem serve_ok (hrate : rd.rateOk = true) (hpost : toUpperCase ex.method = "POST")
    (hfault : rd.replyFault = none) (x : α) (seen : NonceCache) :
    serve sha256Hex jdk rd g a ex (.ok x, seen) okKind denyKind okMsg okReply denyReply =
      (okReply x (a.append sha256Hex okKind (some (okMsg x)) rd.auditAt rd.written).1, seen,
        (a.append sha256Hex okKind (some (okMsg x)) rd.auditAt rd.written).2) := by
  simp [serve, hrate, hpost, hfault]

theorem serve_fault (hrate : rd.rateOk = true) (hpost : toUpperCase ex.method = "POST")
    {f : ReplyFault} (hfault : rd.replyFault = some f) (x : α) (seen : NonceCache) :
    serve sha256Hex jdk rd g a ex (.ok x, seen) okKind denyKind okMsg okReply denyReply =
      (denyReply f.msg ((a.append sha256Hex okKind (some (okMsg x)) rd.auditAt rd.written).2.append
          sha256Hex denyKind (some f.msg) f.auditAt rd.written).1, seen,
        ((a.append sha256Hex okKind (some (okMsg x)) rd.auditAt rd.written).2.append
          sha256Hex denyKind (some f.msg) f.auditAt rd.written).2) := by
  simp [serve, hrate, hpost, hfault]

theorem serve_error (hrate : rd.rateOk = true) (hpost : toUpperCase ex.method = "POST") (r : Refusal)
    (seen : NonceCache) :
    serve sha256Hex jdk rd g a ex (.error r, seen) okKind denyKind okMsg okReply denyReply =
      (denyReply (r.message jdk ex.body)
          (a.append sha256Hex denyKind (some (r.message jdk ex.body)) rd.auditAt rd.written).1, seen,
        (a.append sha256Hex denyKind (some (r.message jdk ex.body)) rd.auditAt rd.written).2) := by
  simp [serve, hrate, hpost]

end Serve

/-! ### `/v1/ask` -/

section Ask

variable (sha256Hex : String → String) (cfg : Config) (jdk : JdkTexts) (codec : Codec)
  (rd : Readings) (g : Gateway) (a : Audit) (ex : Exchange)

theorem askTry_cif (e : CifError) :
    (askTry cfg codec rd g ex).1 = .error (.cif e) ↔
      (cfg.failClosed = true → rd.canPersist = true) ∧ CIF.readChecked cfg ex = .error e := by
  unfold askTry
  split_ifs with hp
  · simp [hp]
  rcases CIF.readChecked cfg ex with e' | body
  · simp_all
  · simp only [reduceCtorEq, and_false, iff_false]
    split <;> (try split) <;> exact fun h => by cases h

/-- `/v1/ask` answers a request the rate limiter and the method check let
through with 400 exactly when the content filter refused it; every other
refusal, a body `MiniJson.parse` rejects or one that is not an object among
them, gets 403. -/
theorem ask_status_400_iff (hrate : rd.rateOk = true) (hpost : toUpperCase ex.method = "POST") :
    (ask sha256Hex cfg jdk codec rd g a ex).1.status = 400 ↔
      (cfg.failClosed = true → rd.canPersist = true) ∧ ∃ e, CIF.readChecked cfg ex = .error e := by
  have hcif : ((cfg.failClosed = true → rd.canPersist = true) ∧
      ∃ e, CIF.readChecked cfg ex = .error e) ↔ ∃ e, (askTry cfg codec rd g ex).1 = .error (.cif e) := by
    simp only [askTry_cif, exists_and_left]
  rw [hcif]
  unfold ask
  rcases askTry cfg codec rd g ex with ⟨r | out, seen⟩
  · rw [serve_error sha256Hex jdk rd g a ex _ _ _ _ _ hrate hpost]
    simp only [Except.error.injEq, ← Refusal.message_cif_iff jdk ex.body r]
    cases startsWith (r.message jdk ex.body) "CIF:" <;> decide
  · rcases hf : rd.replyFault with _ | f
    · rw [serve_ok sha256Hex jdk rd g a ex _ _ _ _ _ hrate hpost hf]
      simp
    · rw [serve_fault sha256Hex jdk rd g a ex _ _ _ _ _ hrate hpost hf]
      simp [f.not_cif]

/-- JDK texts of the two kinds: an index past the end, and the quote of an input. -/
def jdkText : JdkTexts :=
  ⟨fun _ => "String index out of range: 0", fun _ input => "For input string: \"" ++ input ++ "\"",
    fun _ => rfl, fun _ _ => rfl, fun _ => (by decide : NoBreak "String index out of range: 0"),
    fun _ _ h => NoBreak.append (NoBreak.append (by decide) h) (by decide)⟩

/-- Token strings `consent` and `cap` decoding to the echo run's tokens, with
every action hashing to `h`. -/
def echoCodec : Codec :=
  ⟨fun s => if s = "consent" then .payload replayToken else if s = "cap" then .payload echoCap
    else .malformed, fun _ => "h", fun _ _ => "h", fun _ => ""⟩

/-- A request let through, with the audit writable, at clock values 0 to 4. -/
def echoReadings : Readings := ⟨true, true, 0, 1, 2, 3, 4, true, none⟩

/-- The gateway after minting the echo run's two tokens. -/
def echoGateway : Gateway := ⟨0, [replayToken], [echoCap], [], []⟩

/-- A JSON `POST` whose body is a lone `{`. -/
def truncatedPost : Exchange := ⟨"POST", some "application/json", "\x7b"⟩

/-- The filter passes the lone `{`, `MiniJson.parse` throws `json exp "`, and
the reply is 403. -/
theorem ask_status_400_iff_truncated :
    echoReadings.rateOk = true ∧ toUpperCase truncatedPost.method = "POST" ∧
      CIF.readChecked config truncatedPost = .ok "\x7b" ∧
      (ask id config jdkText echoCodec echoReadings echoGateway ⟨some [], "GENESIS"⟩ truncatedPost).1.status = 403 ∧
      ((ask id config jdkText echoCodec echoReadings echoGateway ⟨some [], "GENESIS"⟩ truncatedPost).1.status = 400 ↔
        (config.failClosed = true → echoReadings.canPersist = true) ∧
          ∃ e, CIF.readChecked config truncatedPost = .error e) :=
  ⟨rfl, rfl, rfl, by decide,
    ask_status_400_iff id config jdkText echoCodec echoReadings echoGateway _ truncatedPost rfl rfl⟩

end Ask

/-! ### `/v1/tool/run` -/

section ToolRun

variable (sha256Hex : String → String) (cfg : Config) (jdk : JdkTexts) (codec : Codec)
  (rd : Readings) (g : Gateway) (a : Audit) (ex : Exchange)

theorem toolRunTry_ok {tool : String} {res : ToolResult} {seen : NonceCache}
    (h : toolRunTry cfg codec rd g ex = (.ok (tool, res), seen)) :
    ∃ body m, CIF.readChecked cfg ex = .ok body ∧ parse body = .ok (.obj m) ∧
      stringField m "tool" = some tool ∧ CDI.checkToolAllowed cfg (some tool) = none ∧
      verifyConsent cfg g.consentSigned g.seen (presentedOf codec.decode (stringField m "consent_token"))
        (codec.toolActHash tool (codec.args m)) rd.checkedAt rd.storedAt = (.ok (), seen) ∧
      verifyCap cfg g.capSigned (presentedOf codec.decode (stringField m "cap_token")) tool rd.capAt =
        .ok () ∧
      Tools.run tool (codec.args m) rd.runAt = .ok res := by
  unfold toolRunTry at h
  split_ifs at h
  · cases h
  split at h
  · cases h
  rename_i body hc
  split at h
  · cases h
  · rename_i m hp
    split at h
    · cases h
    · cases h
    · rename_i tool' hcdi htool
      dsimp only at h
      split at h
      · cases h
      · rename_i seen' hv
        split at h
        · cases h
        · rename_i hcap
          split at h
          · cases h
          · rename_i res' hrun
            cases h
            exact ⟨body, m, hc, hp, htool, htool ▸ hcdi, hv, hcap, hrun⟩
  · cases h

/-- With the capability check on, a tool's result from `/v1/tool/run` comes
from a JSON object the content filter passed: its `tool` is `echo` or `time`
and allowed by policy, `verifyConsent` passed for the action hash of the tool
and its arguments, the capability token decodes to a signed payload whose
scopes hold `tool:` and the tool, and `Tools.run` returned the result; the
audit gains a `TOOL_OK` line with the tool's name, whose hash is the reply's
`audit_ref`. -/
theorem toolRun_allow (hon : cfg.requireCapabilityForTools = true ∧ cfg.failClosed = true)
    {res : ToolResult} {ref : String}
    (h : (toolRun sha256Hex cfg jdk codec rd g a ex).1.body = .toolAllow res ref) :
    ∃ body m tool, CIF.readChecked cfg ex = .ok body ∧ parse body = .ok (.obj m) ∧
      stringField m "tool" = some tool ∧ (tool = "echo" ∨ tool = "time") ∧
      CDI.checkToolAllowed cfg (some tool) = none ∧
      (verifyConsent cfg g.consentSigned g.seen (presentedOf codec.decode (stringField m "consent_token"))
        (codec.toolActHash tool (codec.args m)) rd.checkedAt rd.storedAt).1 = .ok () ∧
      (∃ p ∈ g.capSigned, presentedOf codec.decode (stringField m "cap_token") = .payload p ∧
        ∃ scopes, p.scopes = some scopes ∧ "tool:" ++ tool ∈ scopes) ∧
      Tools.run tool (codec.args m) rd.runAt = .ok res ∧
      ((a.append sha256Hex "TOOL_OK" (some tool) rd.auditAt rd.written).1 = ref ∧
        (toolRun sha256Hex cfg jdk codec rd g a ex).2.2 =
          (a.append sha256Hex "TOOL_OK" (some tool) rd.auditAt rd.written).2) := by
  have hrate : rd.rateOk = true := by
    by_contra hr
    simp [toolRun, serve, hr] at h
  have hpost : toUpperCase ex.method = "POST" := by
    by_contra hp
    simp [toolRun, serve, hrate, hp] at h
  unfold toolRun at h ⊢
  rcases ho : toolRunTry cfg codec rd g ex with ⟨r | ⟨tool, res'⟩, seen⟩ <;> rw [ho] at h
  · rw [serve_error sha256Hex jdk rd g a ex _ _ _ _ _ hrate hpost] at h
    cases h
  · have hf : rd.replyFault = none := by
      rcases hf : rd.replyFault with _ | f
      · rfl
      · rw [serve_fault sha256Hex jdk rd g a ex _ _ _ _ _ hrate hpost hf] at h; cases h
    rw [serve_ok sha256Hex jdk rd g a ex _ _ _ _ _ hrate hpost hf] at h ⊢
    obtain ⟨rfl, rfl⟩ := Body.toolAllow.inj h
    obtain ⟨body, m, hc, hp, ht, hcdi, hv, hcap, hrun⟩ := toolRunTry_ok cfg codec rd g ex ho
    exact ⟨body, m, tool, hc, hp, ht, Tools.run_ok hrun, hcdi, by rw [hv], verifyCap_ok hon hcap, hrun,
      rfl, rfl⟩

/-- A JSON `POST` for `echo` with the tokens `consent` and `cap`. -/
def echoPost : Exchange :=
  ⟨"POST", some "application/json", "\x7b\"tool\":\"echo\",\"consent_token\":\"consent\",\"cap_token\":\"cap\"\x7d"⟩

/-- The echo request gets `echo`'s result, logged as `TOOL_OK echo`. -/
theorem toolRun_allow_echo :
    config.requireCapabilityForTools = true ∧ config.failClosed = true ∧
      (toolRun id config jdkText echoCodec echoReadings echoGateway ⟨some [], "GENESIS"⟩ echoPost).1.body =
        .toolAllow (.echo []) "GENESIS|TOOL_OK|echo|4" ∧
      ∃ body m tool, CIF.readChecked config echoPost = .ok body ∧ parse body = .ok (.obj m) ∧
        stringField m "tool" = some tool ∧ (tool = "echo" ∨ tool = "time") :=
  have hallow : (toolRun id config jdkText echoCodec echoReadings echoGateway ⟨some [], "GENESIS"⟩
      echoPost).1.body = .toolAllow (.echo []) "GENESIS|TOOL_OK|echo|4" := by decide
  have ⟨body, m, tool, hc, hp, ht, hech, _⟩ := toolRun_allow id config jdkText echoCodec echoReadings
    echoGateway ⟨some [], "GENESIS"⟩ echoPost ⟨rfl, rfl⟩ hallow
  ⟨rfl, rfl, hallow, body, m, tool, hc, hp, ht, hech⟩

/-- `checkToolAllowed` compares the lowered name and `Tools.run` the name as
given: a request for a tool spelled otherwise than `echo` or `time` but lowering
to one of them passes the policy check and `verifyConsent`, which stores its
nonce, and is then refused with 403 without any tool run. -/
theorem toolRun_case_variant_spends_consent {body : String} {m : List (String × JValue)} {t : String}
    (hrate : rd.rateOk = true) (hpost : toUpperCase ex.method = "POST") (hpersist : rd.canPersist = true)
    (hc : CIF.readChecked config ex = .ok body) (hp : parse body = .ok (.obj m))
    (ht : stringField m "tool" = some t) (hlow : toLowerCase t = "echo" ∨ toLowerCase t = "time")
    (hne : t ≠ "echo" ∧ t ≠ "time")
    (hv : (verifyConsent config g.consentSigned g.seen
      (presentedOf codec.decode (stringField m "consent_token")) (codec.toolActHash t (codec.args m))
      rd.checkedAt rd.storedAt).1 = .ok ()) :
    (toolRun sha256Hex config jdk codec rd g a ex).1.status = 403 ∧
      (toolRun sha256Hex config jdk codec rd g a ex).2.1 =
        (verifyConsent config g.consentSigned g.seen
          (presentedOf codec.decode (stringField m "consent_token")) (codec.toolActHash t (codec.args m))
          rd.checkedAt rd.storedAt).2 := by
  have hnet : t ≠ "net/http_get" := by
    rintro rfl
    rcases hlow with h | h <;> exact absurd h (by decide)
  have hrun : Tools.run t (codec.args m) rd.runAt = .error .unknownTool := by
    simp only [Tools.run, if_neg hne.1, if_neg hne.2, if_neg hnet]
  have htry : ∃ e, toolRunTry config codec rd g ex = (.error (.gateway e),
      (verifyConsent config g.consentSigned g.seen
        (presentedOf codec.decode (stringField m "consent_token")) (codec.toolActHash t (codec.args m))
        rd.checkedAt rd.storedAt).2) := by
    unfold toolRunTry
    rcases hvc : verifyConsent config g.consentSigned g.seen
      (presentedOf codec.decode (stringField m "consent_token")) (codec.toolActHash t (codec.args m))
      rd.checkedAt rd.storedAt with ⟨r, seen⟩
    rw [hvc] at hv
    cases hv
    simp only [hpersist, hc, hp, ht, CDI.checkToolAllowed_lower hlow, hvc, hrun]
    rcases verifyCap config g.capSigned (presentedOf codec.decode (stringField m "cap_token")) t rd.capAt
      with e | ⟨⟩
    · exact ⟨e, by simp⟩
    · exact ⟨.unknownTool, by simp⟩
  obtain ⟨e, he⟩ := htry
  unfold toolRun
  rw [he, serve_error sha256Hex jdk rd g a ex _ _ _ _ _ hrate hpost]
  exact ⟨rfl, rfl⟩

/-- The echo request with the tool spelled `Echo`. -/
def echoCasePost : Exchange :=
  ⟨"POST", some "application/json", "\x7b\"tool\":\"Echo\",\"consent_token\":\"consent\",\"cap_token\":\"cap\"\x7d"⟩

/-- The fields `parse` reads from it. -/
def echoCaseFields : List (String × JValue) :=
  [("tool", .str "Echo"), ("consent_token", .str "consent"), ("cap_token", .str "cap")]

/-- `Echo` with a valid consent token: the nonce `n` is stored, and the reply is 403. -/
theorem toolRun_case_variant_spends_consent_Echo :
    echoReadings.rateOk = true ∧ toUpperCase echoCasePost.method = "POST" ∧
      echoReadings.canPersist = true ∧ CIF.readChecked config echoCasePost = .ok echoCasePost.body ∧
      parse echoCasePost.body = .ok (.obj echoCaseFields) ∧ stringField echoCaseFields "tool" = some "Echo" ∧
      (toLowerCase "Echo" = "echo" ∨ toLowerCase "Echo" = "time") ∧ ("Echo" ≠ "echo" ∧ "Echo" ≠ "time") ∧
      (verifyConsent config echoGateway.consentSigned echoGateway.seen
        (presentedOf echoCodec.decode (stringField echoCaseFields "consent_token"))
        (echoCodec.toolActHash "Echo" (echoCodec.args echoCaseFields)) echoReadings.checkedAt
        echoReadings.storedAt).1 = .ok () ∧
      ((toolRun id config jdkText echoCodec echoReadings echoGateway ⟨some [], "GENESIS"⟩ echoCasePost).1.status =
          403 ∧
        (toolRun id config jdkText echoCodec echoReadings echoGateway ⟨some [], "GENESIS"⟩ echoCasePost).2.1 =
          (verifyConsent config echoGateway.consentSigned echoGateway.seen
            (presentedOf echoCodec.decode (stringField echoCaseFields "consent_token"))
            (echoCodec.toolActHash "Echo" (echoCodec.args echoCaseFields)) echoReadings.checkedAt
            echoReadings.storedAt).2) :=
  ⟨rfl, rfl, rfl, rfl, rfl, rfl, by decide, by decide, rfl,
    toolRun_case_variant_spends_consent id jdkText echoCodec echoReadings echoGateway _ echoCasePost
      rfl rfl rfl rfl rfl rfl (by decide) (by decide) rfl⟩

end ToolRun

/-! ### The audit log -/

section Audit

variable (sha256Hex : String → String) (jdk : JdkTexts) (rd : Readings) {α : Type} (g : Gateway)
  (a : Audit) (ex : Exchange)

/-- The audit lines a handler's result `out` adds to `a`: one, of kind `okKind`
or `denyKind`; or, when the `200` reply threw `f`, one of `okKind` and then one
of `denyKind` with `f`'s text. The reply's `audit_ref` is the last line's hash. -/
def AuditLines (out : Reply × NonceCache × Audit) (okKind denyKind : String) : Prop :=
  (∃ kind ∈ [okKind, denyKind], ∃ msg,
      out.1.body.auditRef? = some (a.append sha256Hex kind (some msg) rd.auditAt rd.written).1 ∧
      out.2.2 = (a.append sha256Hex kind (some msg) rd.auditAt rd.written).2) ∨
    ∃ msg f, rd.replyFault = some f ∧
      out.1.body.auditRef? = some ((a.append sha256Hex okKind (some msg) rd.auditAt rd.written).2.append
        sha256Hex denyKind (some f.msg) f.auditAt rd.written).1 ∧
      out.2.2 = ((a.append sha256Hex okKind (some msg) rd.auditAt rd.written).2.append
        sha256Hex denyKind (some f.msg) f.auditAt rd.written).2

theorem serve_auditLines (outcome : Except Refusal α × NonceCache) (okKind denyKind : String)
    (okMsg : α → String) (okReply : α → String → Reply) (denyReply : String → String → Reply)
    (hokRef : ∀ x ref, (okReply x ref).body.auditRef? = some ref)
    (hdenyRef : ∀ msg ref, (denyReply msg ref).body.auditRef? = some ref)
    (hrate : rd.rateOk = true) (hpost : toUpperCase ex.method = "POST") :
    AuditLines sha256Hex rd a (serve sha256Hex jdk rd g a ex outcome okKind denyKind okMsg okReply denyReply)
      okKind denyKind := by
  rcases outcome with ⟨r | x, seen⟩
  · rw [serve_error sha256Hex jdk rd g a ex _ _ _ _ _ hrate hpost]
    exact Or.inl ⟨denyKind, by simp, _, hdenyRef _ _, rfl⟩
  rcases hf : rd.replyFault with _ | f
  · rw [serve_ok sha256Hex jdk rd g a ex _ _ _ _ _ hrate hpost hf]
    exact Or.inl ⟨okKind, by simp, _, hokRef _ _, rfl⟩
  · rw [serve_fault sha256Hex jdk rd g a ex _ _ _ _ _ hrate hpost hf]
    exact Or.inr ⟨_, f, hf, hdenyRef _ _, rfl⟩

/-- Every request `/v1/ask` or `/v1/tool/run` lets past the rate limiter and
the method check adds one line to the audit log, of the handler's allow or deny
kind, and a second, of the deny kind with the exception's text, only when its
`200` reply throws an `IOException`; the reply's `audit_ref` is the last line's
hash. -/
theorem handlers_append_audit_lines (cfg : Config) (codec : Codec)
    (hrate : rd.rateOk = true) (hpost : toUpperCase ex.method = "POST") :
    AuditLines sha256Hex rd a (ask sha256Hex cfg jdk codec rd g a ex) "ASK_ALLOW" "ASK_DENY" ∧
      AuditLines sha256Hex rd a (toolRun sha256Hex cfg jdk codec rd g a ex) "TOOL_OK" "TOOL_DENY" :=
  ⟨serve_auditLines sha256Hex jdk rd g a ex _ _ _ _ _ _ (fun _ _ => rfl) (fun _ _ => rfl) hrate hpost,
    serve_auditLines sha256Hex jdk rd g a ex _ _ _ _ _ _ (fun _ _ => rfl) (fun _ _ => rfl) hrate hpost⟩

/-- The echo readings, with the client gone before the `200` reply is written. -/
def faultReadings : Readings :=
  { echoReadings with replyFault := some ⟨"Broken pipe", 5, rfl, by decide⟩ }

/-- The echo request runs `echo`, its reply breaks off, and the audit gains
`TOOL_OK echo` and then `TOOL_DENY Broken pipe`, whose hash the `403` returns. -/
theorem handlers_append_audit_lines_fault :
    faultReadings.rateOk = true ∧ toUpperCase echoPost.method = "POST" ∧
      (toolRun id config jdkText echoCodec faultReadings echoGateway ⟨some [], "GENESIS"⟩ echoPost).1 =
        ⟨403, .toolDeny "Broken pipe" "GENESIS|TOOL_OK|echo|4|TOOL_DENY|Broken pipe|5"⟩ ∧
      AuditLines id faultReadings ⟨some [], "GENESIS"⟩
        (ask id config jdkText echoCodec faultReadings echoGateway ⟨some [], "GENESIS"⟩ echoPost)
        "ASK_ALLOW" "ASK_DENY" ∧
      AuditLines id faultReadings ⟨some [], "GENESIS"⟩
        (toolRun id config jdkText echoCodec faultReadings echoGateway ⟨some [], "GENESIS"⟩ echoPost)
        "TOOL_OK" "TOOL_DENY" :=
  ⟨rfl, rfl, rfl, handlers_append_audit_lines id jdkText faultReadings echoGateway _ echoPost config
    echoCodec rfl rfl⟩

end Audit

end OI.Flourish
