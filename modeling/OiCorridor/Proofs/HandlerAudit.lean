import OiCorridor.Proofs.Handlers
import OiCorridor.Proofs.GatewayAudit
import OiCorridor.Proofs.GatewayFilter
import OiCorridor.Proofs.Json

/-! The audit file under the handlers. `append` hashes a message as given and
stores it through `sanitize`, so a line verifies when its message has no line
break. The lines `/v1/ask` and `/v1/tool/run` append hold `ok`, the name of a
tool `Tools.run` ran, or an exception's text: the filter's, the gateway's and
`MiniJson`'s are constants, but for `missing scope`, which names the tool the
policy let through, and `json exp`, which names a quote, a colon or a comma.
The JDK's texts name indices, or quote a number's text or the four characters
after a `\u` of the body, and the reply's `IOException` is the HTTP server's.
So when no `\u` of a body is followed by a line break, no allowed tool has
one in its name, and every write is done, the file stays a verifiable chain
across any sequence of requests and restarts. -/

set_option autoImplicit false

namespace OI.Flourish

open MiniJson

theorem NoBreak.clean {s : String} (h : NoBreak s) : Audit.Clean (some s) :=
  show String.mk (s.data.map _) = String.mk s.data from
    congrArg String.mk ((List.map_congr_left fun c hc => if_neg (not_or.mpr (h c hc))).trans
      (List.map_id' _))

theorem NoBreak.of_toLowerCase {t : String} (h : NoBreak (toLowerCase t)) : NoBreak t := by
  intro c hc
  constructor <;> rintro rfl
  exacts [(h _ (List.mem_flatMap.mpr ⟨_, hc, by decide⟩)).1 rfl,
    (h _ (List.mem_flatMap.mpr ⟨_, hc, by decide⟩)).2 rfl]

/-! ### The texts the handlers log -/

/-- No `\u` of the text is followed, within its next four characters, by a
line break. -/
def escapesPlain : List Char → Bool
  | c :: rest =>
    (c != '\\' || rest.head? != some 'u' || ((rest.drop 1).take 4).all fun d => d != '\n' && d != '\r') &&
      escapesPlain rest
  | [] => true

theorem escapesPlain_quote {cs q : List Char} (h : escapesPlain cs = true)
    (hq : ('\\' :: 'u' :: q) <:+: cs) (hl : q.length = 4) : NoBreak ⟨q⟩ := by
  induction cs with
  | nil => cases List.eq_nil_of_infix_nil hq
  | cons c cs ih =>
    simp only [escapesPlain, Bool.and_eq_true] at h
    rcases List.infix_cons_iff.mp hq with ⟨t, ht⟩ | hi
    · obtain ⟨rfl, rfl⟩ : '\\' = c ∧ 'u' :: (q ++ t) = cs := by simpa using ht
      have hall := h.1
      simp only [bne_self_eq_false, List.head?_cons, Bool.false_or, List.drop_one, List.tail_cons,
        List.take_left' hl, List.all_eq_true, Bool.and_eq_true, bne_iff_ne, ne_eq] at hall
      exact hall
    · exact ih h.2 hi

/-- A refusal of a request with body `body` whose text has no line break: what
`MiniJson` throws on the body, and a `missing scope` for a tool with no line
break in its name. -/
def Refusal.Plain (body : String) : Refusal → Prop
  | .json e => e.Thrown body.data
  | .gateway (.missingScope want) => NoBreak want
  | _ => True

section Texts

variable (jdk : JdkTexts) (body : String)

theorem CifError.message_noBreak (e : CifError) : NoBreak e.message := by
  cases e <;> decide

theorem JsonError.message_noBreak (hesc : escapesPlain body.data = true) {e : JsonError}
    (he : e.Thrown body.data) : NoBreak (JsonError.message jdk body e) := by
  cases e with
  | exp c => rcases he with rfl | rfl | rfl <;> simp only [JsonError.message] <;> decide
  | indexOutOfBounds | fuel => exact jdk.index_noBreak body
  | numberFormat input =>
    exact jdk.number_noBreak body input (he.elim id fun ⟨hq, hl⟩ => escapesPlain_quote hesc hq hl)
  | _ => simp only [JsonError.message]; decide

theorem GatewayError.message_noBreak {e : GatewayError}
    (h : ∀ want, e = .missingScope want → NoBreak want) : NoBreak e.message := by
  cases e with
  | missingScope want => exact NoBreak.append (by decide) (h want rfl)
  | _ => decide

theorem Refusal.message_noBreak (hesc : escapesPlain body.data = true) {r : Refusal}
    (hr : r.Plain body) : NoBreak (r.message jdk body) := by
  cases r with
  | cif e => exact e.message_noBreak
  | json e => exact JsonError.message_noBreak jdk body hesc hr
  | gateway e => exact GatewayError.message_noBreak fun want he => by subst he; exact hr
  | _ => simp only [Refusal.message]; decide

end Texts

section Tries

variable (cfg : Config) (codec : Codec) (rd : Readings) (g : Gateway) (ex : Exchange)

theorem Refusal.plain_of_verifyConsent {signed : List Payload} {seen : NonceCache}
    {token : Presented} {expected : String} {checkedAt storedAt : Int} {e : GatewayError} {body : String}
    (h : (verifyConsent cfg signed seen token expected checkedAt storedAt).1 = .error e) :
    (Refusal.gateway e).Plain body := by
  rcases verifyConsent_error h with h | h | h | h | h | h | h | h <;> subst h <;> trivial

theorem askTry_plain {r : Refusal} (h : (askTry cfg codec rd g ex).1 = .error r) : r.Plain ex.body := by
  unfold askTry at h
  split_ifs at h
  · cases h; trivial
  rcases hc : CIF.readChecked cfg ex with e | body <;> simp only [hc] at h
  · cases h; trivial
  split at h
  · rename_i hp; cases h; exact (CIF.readChecked_ok hc).1 ▸ parse_thrown hp
  · split at h
    · rename_i hv; cases h; exact Refusal.plain_of_verifyConsent cfg (congrArg Prod.fst hv)
    · cases h
  · cases h; trivial

theorem toolRunTry_plain (htools : ∀ t ∈ CDI.toolsLower cfg, NoBreak t) {r : Refusal}
    (h : (toolRunTry cfg codec rd g ex).1 = .error r) : r.Plain ex.body := by
  unfold toolRunTry at h
  split_ifs at h
  · cases h; trivial
  rcases hc : CIF.readChecked cfg ex with e | body <;> simp only [hc] at h
  · cases h; trivial
  split at h
  · rename_i hp; cases h; exact (CIF.readChecked_ok hc).1 ▸ parse_thrown hp
  · split at h
    · rename_i e hc; cases h
      rcases CDI.checkToolAllowed_some hc with rfl | rfl | rfl <;> trivial
    · cases h; trivial
    · rename_i tool hc ht
      have hname : NoBreak tool :=
        NoBreak.of_toLowerCase (htools _ (CDI.checkToolAllowed_none (ht ▸ hc)))
      split at h
      · rename_i hv; cases h; exact Refusal.plain_of_verifyConsent cfg (congrArg Prod.fst hv)
      split at h
      · rename_i e hcap; cases h
        cases e with
        | missingScope want => exact (verifyCap_missingScope hcap).symm ▸ NoBreak.append (by decide) hname
        | _ => trivial
      split at h
      · rename_i e hrun; cases h
        rcases Tools.run_error hrun with rfl | rfl <;> trivial
      · cases h
  · cases h; trivial

end Tries

/-! ### The audit file across requests and restarts -/

section Run

variable (sha256Hex : String → String) (cfg : Config) (jdk : JdkTexts) (codec : Codec)

theorem serve_verifiable (rd : Readings) {α : Type} (g : Gateway) {a : Audit} (ex : Exchange)
    (outcome : Except Refusal α × NonceCache) (okKind denyKind : String) (okMsg : α → String)
    (okReply : α → String → Reply) (denyReply : String → String → Reply)
    (hv : Audit.Verifiable sha256Hex a) (hw : rd.written = true)
    (hok : ∀ x, outcome.1 = .ok x → NoBreak (okMsg x))
    (hdeny : ∀ r, outcome.1 = .error r → NoBreak (r.message jdk ex.body)) :
    Audit.Verifiable sha256Hex
      (serve sha256Hex jdk rd g a ex outcome okKind denyKind okMsg okReply denyReply).2.2 := by
  by_cases hgo : rd.rateOk = true ∧ toUpperCase ex.method = "POST"
  · rcases outcome with ⟨r | x, seen⟩
    · rw [serve_error sha256Hex jdk rd g a ex _ _ _ _ _ hgo.1 hgo.2]
      exact hv.append _ (hdeny r rfl).clean _ (.inl hw)
    have hv₁ := hv.append okKind (hok x rfl).clean rd.auditAt (.inl hw)
    rcases hf : rd.replyFault with _ | f
    · rw [serve_ok sha256Hex jdk rd g a ex _ _ _ _ _ hgo.1 hgo.2 hf]
      exact hv₁
    · rw [serve_fault sha256Hex jdk rd g a ex _ _ _ _ _ hgo.1 hgo.2 hf]
      exact hv₁.append _ f.noBreak.clean _ (.inl hw)
  · rw [serve_stopped sha256Hex jdk rd g a ex _ _ _ _ _ _ (by simpa only [not_and_or, Bool.not_eq_true] using hgo)]
    exact hv

/-- Every write of the call reaches the file. -/
def Call.Written : Call → Prop
  | .ask _ _ rd | .toolRun _ _ rd => rd.written = true
  | .restart _ _ => True

instance : DecidablePred Call.Written := fun c => by
  cases c <;> unfold Call.Written <;> infer_instance

/-- No `\u` of the call's body is followed by a line break. -/
def Call.EscapesPlain : Call → Prop
  | .ask _ ex _ | .toolRun _ ex _ => escapesPlain ex.body.data = true
  | .restart _ _ => True

instance : DecidablePred Call.EscapesPlain := fun c => by
  cases c <;> unfold Call.EscapesPlain <;> infer_instance

variable (htools : ∀ t ∈ CDI.toolsLower cfg, NoBreak t)
include htools

theorem Call.audit_verifiable {a : Audit} (hv : Audit.Verifiable sha256Hex a) {c : Call}
    (hc : c.Written) (he : c.EscapesPlain) : Audit.Verifiable sha256Hex (c.audit sha256Hex cfg jdk codec a) := by
  cases c with
  | ask g ex rd =>
    refine serve_verifiable sha256Hex jdk rd g ex _ _ _ _ _ _ hv hc (fun _ _ => by decide)
      fun r hr => Refusal.message_noBreak jdk ex.body he (askTry_plain cfg codec rd g ex hr)
  | toolRun g ex rd =>
    refine serve_verifiable sha256Hex jdk rd g ex _ _ _ _ _ _ hv hc (fun ⟨tool, res⟩ hx => ?_)
      fun r hr => Refusal.message_noBreak jdk ex.body he (toolRunTry_plain cfg codec rd g ex htools hr)
    obtain ⟨_, _, _, _, _, _, _, _, hrun⟩ := toolRunTry_ok cfg codec rd g ex (Prod.ext_iff.mpr ⟨hx, rfl⟩)
    show NoBreak tool
    rcases Tools.run_ok hrun with rfl | rfl <;> decide
  | restart ts written => exact hv.new ts written

/-- With no `\u` of a body followed by a line break, no allowed tool's name
holding one, and every write done, the audit file stays a verifiable chain
across any sequence of `/v1/ask` and `/v1/tool/run` requests and restarts. -/
theorem audit_verifiable_over_calls {a : Audit} (hv : Audit.Verifiable sha256Hex a) {cs : List Call}
    (hw : ∀ c ∈ cs, c.Written) (he : ∀ c ∈ cs, c.EscapesPlain) :
    Audit.Verifiable sha256Hex (Call.run sha256Hex cfg jdk codec a cs) := by
  induction cs generalizing a with
  | nil => exact hv
  | cons c cs ih =>
    exact ih (Call.audit_verifiable sha256Hex cfg jdk codec htools hv (hw c (List.mem_cons_self _ _))
      (he c (List.mem_cons_self _ _))) (fun c' hc' => hw c' (List.mem_cons_of_mem _ hc'))
      fun c' hc' => he c' (List.mem_cons_of_mem _ hc')

end Run

/-- A `/v1/ask` whose prompt holds the escape `\uZZZZ`, which `parseInt` refuses. -/
def badEscapePost : Exchange := ⟨"POST", some "application/json", "\x7b\"prompt\":\"\\uZZZZ\"\x7d"⟩

/-- The echo request, the truncated `/v1/ask`, a `/v1/ask` refused on the
escape `\uZZZZ`, a restart, and the echo request whose reply breaks off, each
write done. -/
def echoCalls : List Call :=
  [.toolRun echoGateway echoPost echoReadings, .ask echoGateway truncatedPost echoReadings,
    .ask echoGateway badEscapePost echoReadings, .restart 5 true, .toolRun echoGateway echoPost faultReadings]

theorem audit_verifiable_over_calls_echo :
    (∀ t ∈ CDI.toolsLower config, NoBreak t) ∧ Audit.Verifiable id (Audit.new id none 0 true) ∧
      (∀ c ∈ echoCalls, c.Written) ∧ (∀ c ∈ echoCalls, c.EscapesPlain) ∧
      parse badEscapePost.body = .error (.numberFormat "ZZZZ") ∧
      Audit.Verifiable id (Call.run id config jdkText echoCodec (Audit.new id none 0 true) echoCalls) :=
  have hnew : Audit.Verifiable id (Audit.new id none 0 true) :=
    @Audit.Verifiable.new id ⟨none, ""⟩ (fun _ h => by cases h) 0 true
  ⟨by decide, hnew, by decide, by decide, rfl,
    audit_verifiable_over_calls id config jdkText echoCodec (by decide) hnew (by decide) (by decide)⟩

end OI.Flourish
