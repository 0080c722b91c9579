import Mathlib.Data.List.Chain
import OiCorridor.Spec.Corridor

/-! The second kernel's ledger keeps the corridor's order. A call of
`ExecuteCorridor` logs its action decision, and only past an allowing one the
token it mints, the adapter's answer for that token and, when the adapter
answered, the output decision. So over any sequence of calls on one kernel,
whatever the adapter, the requests, the states and the clock, each receipt the
ledger holds comes right after the one the corridor puts before it; and a call
is served exactly when it logged the whole corridor. With `NoopModelAdapter`
the response is fixed by the two fail-closed triggers and the token's 30 s. -/

set_option autoImplicit false

namespace OI.Corridor

/-- The receipt that must come right before each kind: an allowing `CDI_ACTION`
before a `TOKEN_MINT`, the `TOKEN_MINT` of the same token before an adapter
receipt, `ADAPTER_OK` before a `CDI_OUTPUT`. -/
def Follows (prev r : Receipt) : Prop :=
  (r.eventType = "TOKEN_MINT" → prev.eventType = "CDI_ACTION" ∧ prev.decision = some .allow) ∧
  (r.eventType = "ADAPTER_OK" ∨ r.eventType = "ADAPTER_DENY" →
    prev.eventType = "TOKEN_MINT" ∧ prev.tokenDigest = r.tokenDigest) ∧
  (r.eventType = "CDI_OUTPUT" → prev.eventType = "ADAPTER_OK")

/-- A ledger in corridor order: it starts with a `CDI_ACTION` receipt, and each
receipt follows the one before it. -/
def Ordered (l : List Receipt) : Prop :=
  (∀ r ∈ l.head?, r.eventType = "CDI_ACTION") ∧ l.Chain' Follows

theorem follows_action {prev r : Receipt} (h : r.eventType = "CDI_ACTION") : Follows prev r := by
  refine ⟨fun h' => ?_, fun h' => ?_, fun h' => ?_⟩ <;> rw [h] at h' <;> exact absurd h' (by decide)

/-- What one call appends: its action decision, denying; or allowing, then the
token's mint, and the adapter's refusal, or its answer and the output decision. -/
inductive CallTrail : List Receipt → Prop
  | denied {a : Receipt} : a.eventType = "CDI_ACTION" → CallTrail [a]
  | refused {a m d : Receipt} : a.eventType = "CDI_ACTION" → a.decision = some .allow →
      m.eventType = "TOKEN_MINT" → d.eventType = "ADAPTER_DENY" → d.tokenDigest = m.tokenDigest →
      CallTrail [a, m, d]
  | served {a m o c : Receipt} : a.eventType = "CDI_ACTION" → a.decision = some .allow →
      m.eventType = "TOKEN_MINT" → o.eventType = "ADAPTER_OK" → o.tokenDigest = m.tokenDigest →
      c.eventType = "CDI_OUTPUT" → CallTrail [a, m, o, c]

theorem Ordered.append {l t : List Receipt} (hl : Ordered l) (ht : CallTrail t) : Ordered (l ++ t) := by
  have hhead : ∀ a ∈ t.head?, a.eventType = "CDI_ACTION" := by
    cases ht <;> simpa
  have hchain : t.Chain' Follows := by
    cases ht <;> simp_all [Follows]
  refine ⟨fun r hr => ?_, List.chain'_append.mpr ⟨hl.2, hchain, fun x _ y hy => follows_action (hhead y hy)⟩⟩
  rcases l with _ | ⟨a, l⟩
  · exact hhead r hr
  · exact hl.1 r hr

theorem CallTrail.eventTypes {t : List Receipt} (ht : CallTrail t) :
    t.map Receipt.eventType = ["CDI_ACTION", "TOKEN_MINT", "ADAPTER_OK", "CDI_OUTPUT"] ↔ t.length = 4 := by
  cases ht <;> simp_all

section Execute

variable (sha256Hex : String → String) (rfc3339Nano : Int → String)

theorem executeCorridor_trail (k : Kernel) (rd : Readings) (req : OIRequest) (s : SystemState) :
    ∃ t, CallTrail t ∧ (k.executeCorridor sha256Hex rfc3339Nano rd req s).2 = k.ledger ++ t ∧
      ((k.executeCorridor sha256Hex rfc3339Nano rd req s).1.response.denied = false ↔ t.length = 4) := by
  simp only [Kernel.executeCorridor, ingress, decideAction, decideOutput, egress]
  by_cases hg : s.governanceCapsuleOK = false
  · simp only [hg, Bool.not_false, if_true]
    exact ⟨_, .denied rfl, rfl, by simp⟩
  by_cases hs : s.stopRequested = true
  · simp only [hg, hs, Bool.not_true, Bool.false_eq_true, if_false, if_true]
    exact ⟨_, .denied rfl, rfl, by simp⟩
  simp only [hg, hs, Bool.not_true, Bool.false_eq_true, if_false, reduceCtorEq, Bool.not_eq_false]
  split <;> simp only [List.append_assoc, List.singleton_append, List.cons_append, List.nil_append]
  · refine ⟨_, ?_, rfl, by simp⟩
    exact .refused rfl rfl rfl rfl rfl
  · refine ⟨_, ?_, rfl, by simp⟩
    exact .served rfl rfl rfl rfl rfl rfl

/-- The stub kernel's ledger stays in corridor order over every sequence of
`ExecuteCorridor` calls, whatever the adapter, the requests, the system states
and the clock readings: from a ledger in order (`NewLedger`'s, empty, is one)
every `TOKEN_MINT` comes right after a `CDI_ACTION` that allowed, every
`ADAPTER_OK` and `ADAPTER_DENY` right after the `TOKEN_MINT` of its token's
digest, and every `CDI_OUTPUT` right after an `ADAPTER_OK`. -/
theorem run_ordered {k : Kernel} (hk : Ordered k.ledger) (calls : List (Readings × OIRequest × SystemState)) :
    Ordered (k.run sha256Hex rfc3339Nano calls).ledger := by
  induction calls generalizing k with
  | nil => exact hk
  | cons call calls ih =>
    obtain ⟨rd, req, s⟩ := call
    obtain ⟨t, ht, heq, -⟩ := executeCorridor_trail sha256Hex rfc3339Nano k rd req s
    exact ih (show Ordered (k.executeCorridor sha256Hex rfc3339Nano rd req s).2 from heq ▸ hk.append ht)

/-- A call is served exactly when its ledger records the whole corridor: with
any adapter, its response is not denied if and only if the receipts it appended
are `CDI_ACTION`, `TOKEN_MINT`, `ADAPTER_OK` and `CDI_OUTPUT`. -/
theorem executeCorridor_served_iff (k : Kernel) (rd : Readings) (req : OIRequest) (s : SystemState) :
    (k.executeCorridor sha256Hex rfc3339Nano rd req s).1.response.denied = false ↔
      ((k.executeCorridor sha256Hex rfc3339Nano rd req s).2.drop k.ledger.length).map Receipt.eventType =
        ["CDI_ACTION", "TOKEN_MINT", "ADAPTER_OK", "CDI_OUTPUT"] := by
  obtain ⟨t, ht, heq, hserved⟩ := executeCorridor_trail sha256Hex rfc3339Nano k rd req s
  rw [hserved, heq, List.drop_left, ht.eventTypes]

/-- With `NoopModelAdapter`, a call denies on a missing governance capsule, then
on a stop request, then with `TOKEN_EXPIRED` when the adapter reads the clock
more than 30 s after the mint did; else it returns the payload unchanged. The
token it mints is never revoked, and one read exactly 30 s on is still valid. -/
theorem executeCorridor_noop (ledger : List Receipt) (rd : Readings) (req : OIRequest) (s : SystemState) :
    (Kernel.executeCorridor sha256Hex rfc3339Nano ⟨noopModelAdapter, ledger⟩ rd req s).1 =
      if !s.governanceCapsuleOK then ⟨{ denied := true, reasonCode := "MISSING_GOVERNANCE_CAPSULE" }, s, none⟩
      else if s.stopRequested then ⟨{ denied := true, reasonCode := "STOP_DOMINANCE" }, s, none⟩
      else if rd.mintAt + 30000000000 < rd.invokeAt then
        ⟨{ denied := true, reasonCode := "ADAPTER_DENIED" }, s, some "TOKEN_EXPIRED"⟩
      else ⟨{ body := req.userPayload }, s, none⟩ := by
  simp only [Kernel.executeCorridor, ingress, decideAction, decideOutput, egress]
  by_cases hg : s.governanceCapsuleOK = false
  · simp only [hg, Bool.not_false, if_true]
  by_cases hs : s.stopRequested = true
  · simp only [hg, hs, Bool.not_true, Bool.false_eq_true, if_false, if_true]
  simp only [hg, hs, Bool.not_true, Bool.false_eq_true, if_false, reduceCtorEq, Bool.not_eq_false,
    noopModelAdapter, NoopModelAdapter.verify, mint, CapabilityToken.isRevoked, CapabilityToken.isExpired,
    Option.isSome_none]
  by_cases he : rd.mintAt + 30000000000 < rd.invokeAt
  · simp only [he, decide_True, if_true]
  · simp only [he, decide_False, if_false, Bool.false_eq_true]

end Execute

theorem run_ordered_noop :
    Ordered ([] : List Receipt) ∧
    Ordered (Kernel.run (fun s => s) (fun t => toString t) ⟨noopModelAdapter, []⟩
      [(⟨0, 0, 0, 1, 1, 1⟩, ⟨"echo", "hi", "p", "n"⟩, ⟨"LOW", true, false⟩),
        (⟨2, 2, 2, 40000000000, 3, 3⟩, ⟨"echo", "hi", "p", "n"⟩, ⟨"LOW", true, false⟩)]).ledger :=
  have h : Ordered ([] : List Receipt) := ⟨(fun _ h => by cases h), List.chain'_nil⟩
  ⟨h, run_ordered (fun s => s) (fun t => toString t) (k := ⟨noopModelAdapter, []⟩) h _⟩

end OI.Corridor
