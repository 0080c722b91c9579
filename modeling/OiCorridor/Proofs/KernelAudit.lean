import OiCorridor.Proofs.Ledger
import OiCorridor.Proofs.Revocation

/-! The kernel's audit ledger over a session. Every call a client makes on a
`SystemState` adds receipts to its ledger through the `Append*` helpers and
changes no earlier one: `Execute` appends `cdi_decision`, then `token_mint` and
`adapter_attempt` once it reaches the mint; `RevokeAllTokens` appends
`stop_event`; `AddToken` appends `token_mint`; `Revoke` and `Verify` write
nothing. So the chain invariant of the ledger holds in every state a session
reaches from one where it holds, as in `NewSystemState`, `Verify` accepts the
ledger there, and a later state's ledger extends an earlier one's. And since
`Execute` is the only call that reaches an adapter, every invocation an adapter
records is backed by the `token_mint` receipt of its token and an accepted
`adapter_attempt` receipt with the token's digest. -/

set_option autoImplicit false

namespace OI

/-- `l'` is `l` after a sequence of `Append*` calls. -/
def Ledger.Extends (sha256Hex : String → String) (l l' : Ledger) : Prop :=
  ∃ calls : List (Int × AppendCall), l' = calls.foldl (fun l c => c.2.apply sha256Hex l c.1) l

namespace Ledger.Extends

variable {sha256Hex : String → String}

theorem refl (l : Ledger) : l.Extends sha256Hex l := ⟨[], rfl⟩

theorem single (l : Ledger) (now : Int) (c : AppendCall) : l.Extends sha256Hex (c.apply sha256Hex l now) :=
  ⟨[(now, c)], rfl⟩

theorem trans {a b c : Ledger} (h₁ : a.Extends sha256Hex b) (h₂ : b.Extends sha256Hex c) :
    a.Extends sha256Hex c := by
  obtain ⟨c₁, rfl⟩ := h₁
  obtain ⟨c₂, rfl⟩ := h₂
  exact ⟨c₁ ++ c₂, by rw [List.foldl_append]⟩

theorem chainInv {l l' : Ledger} (h : l.Extends sha256Hex l') (hl : ChainInv sha256Hex l) :
    ChainInv sha256Hex l' := by
  obtain ⟨calls, rfl⟩ := h
  exact foldl_chainInv sha256Hex calls hl

theorem receipts_grow {l l' : Ledger} (h : l.Extends sha256Hex l') : l.receipts <+: l'.receipts := by
  obtain ⟨calls, rfl⟩ := h
  induction calls generalizing l with
  | nil => exact List.prefix_refl _
  | cons c cs ih =>
    obtain ⟨e, d, he⟩ := c.2.apply_eq sha256Hex l c.1
    have : l.receipts <+: (c.2.apply sha256Hex l c.1).receipts := by
      rw [he]
      exact List.prefix_append _ _
    exact this.trans ih

end Ledger.Extends

section

variable (sha256Hex : String → String)

theorem kernelExecute_extends (tV tA : Int) (t : Token) (lr : LabeledRequest) (s : SystemState) :
    s.auditLedger.Extends sha256Hex (kernelExecute sha256Hex tV tA t lr s).2.auditLedger := by
  unfold kernelExecute
  split_ifs
  · exact .refl _
  · dsimp only
    split
    · exact .single _ tA (.adapterAttempt _ false _)
    · exact .single _ tA (.adapterAttempt _ true _)

theorem executeGranted_extends {clock : Nat → Int} {d : DecisionResult} {lr : LabeledRequest}
    {trail : List String} {s : SystemState} {out : ExecOutcome}
    (h : executeGranted sha256Hex clock d lr trail s = some out) :
    s.auditLedger.Extends sha256Hex out.state.auditLedger := by
  unfold executeGranted at h
  dsimp only at h
  set t := mintToken sha256Hex (clock 1) d s
  set s₂ := (s.alloc t).addToken sha256Hex (clock 2) s.nextToken
  have hmint : s.auditLedger.Extends sha256Hex s₂.auditLedger := .single _ (clock 2) (.tokenMint _ _)
  have hk := kernelExecute_extends sha256Hex (clock 3) (clock 4) t lr s₂
  rcases hr : kernelExecute sha256Hex (clock 3) (clock 4) t lr s₂ with ⟨_ | _, s'⟩ <;> rw [hr] at h hk
  · cases h
    exact hmint.trans hk
  · rw [executeOutput_state sha256Hex h]
    exact hmint.trans hk

theorem execute_extends {clock : Nat → Int} {req : Request} {s : SystemState} {out : ExecOutcome}
    (h : execute sha256Hex clock req s = some out) :
    s.auditLedger.Extends sha256Hex out.state.auditLedger := by
  rcases execute_cases sha256Hex h with ⟨e, -, rfl⟩ | ⟨lr, d, -, -, ⟨-, rfl⟩ | ⟨-, h⟩⟩
  · exact .refl _
  · exact .single _ _ (.cdiDecision _ _ _)
  · exact (Ledger.Extends.single _ _ (.cdiDecision _ _ _)).trans (executeGranted_extends sha256Hex h)

namespace KernelCall

theorem apply_extends (s : SystemState) (c : KernelCall) :
    s.auditLedger.Extends sha256Hex (c.apply sha256Hex s).auditLedger := by
  cases c with
  | revoke => exact .refl _
  | revokeAll now => exact .single _ now (.stopEvent _)
  | addToken t now => exact .single _ now (.tokenMint _ _)
  | execute clock req =>
    simp only [apply]
    rcases h : OI.execute sha256Hex clock req s with _ | out
    · exact .refl _
    · exact execute_extends sha256Hex h
  | verify => exact .refl _

theorem run_extends (s : SystemState) (cs : List KernelCall) :
    s.auditLedger.Extends sha256Hex (run sha256Hex s cs).auditLedger := by
  induction cs generalizing s with
  | nil => exact .refl _
  | cons c cs ih => exact (apply_extends sha256Hex s c).trans (ih _)

theorem run_append (s : SystemState) (cs₁ cs₂ : List KernelCall) :
    run sha256Hex s (cs₁ ++ cs₂) = run sha256Hex (run sha256Hex s cs₁) cs₂ :=
  List.foldl_append _ _ _ _

end KernelCall

/-- From a state whose ledger keeps the chain invariant, as `NewSystemState`'s
does, every sequence of kernel calls keeps it, so `Verify` accepts the ledger;
and the ledger after the first calls of the sequence is a prefix of the ledger
after all of them. -/
theorem session_ledger_verifies (s : SystemState) (hs : ChainInv sha256Hex s.auditLedger)
    (cs₁ cs₂ : List KernelCall) :
    ChainInv sha256Hex (KernelCall.run sha256Hex s (cs₁ ++ cs₂)).auditLedger ∧
      (KernelCall.run sha256Hex s (cs₁ ++ cs₂)).auditLedger.verify sha256Hex = .ok () ∧
      (KernelCall.run sha256Hex s cs₁).auditLedger.receipts <+:
        (KernelCall.run sha256Hex s (cs₁ ++ cs₂)).auditLedger.receipts := by
  have h₁ := KernelCall.run_extends sha256Hex s cs₁
  have h₂ := KernelCall.run_extends sha256Hex (KernelCall.run sha256Hex s cs₁) cs₂
  rw [KernelCall.run_append]
  have hinv := (h₁.trans h₂).chainInv hs
  exact ⟨hinv, hinv.verify, h₂.receipts_grow⟩

theorem session_ledger_verifies_new :
    ChainInv id (newSystemState id "p" "n" 0).auditLedger ∧
      ChainInv id (KernelCall.run id (newSystemState id "p" "n" 0) ([] ++ [.revokeAll 1])).auditLedger ∧
      (KernelCall.run id (newSystemState id "p" "n" 0) ([] ++ [.revokeAll 1])).auditLedger.verify id =
        .ok () ∧
      (KernelCall.run id (newSystemState id "p" "n" 0) []).auditLedger.receipts <+:
        (KernelCall.run id (newSystemState id "p" "n" 0) ([] ++ [.revokeAll 1])).auditLedger.receipts :=
  ⟨newLedger_chainInv id 0,
    session_ledger_verifies id (newSystemState id "p" "n" 0) (newLedger_chainInv id 0) [] [.revokeAll 1]⟩

/-! ### Every invocation is audited -/

/-- The ledger `l` holds the two receipts of an invocation with the token
`digest`: the `token_mint` of the token, and an accepted `adapter_attempt`. -/
def Backed (l : Ledger) (digest : String) : Prop :=
  (∃ r ∈ l.receipts, r.eventType = "token_mint" ∧ ("token_digest", .str digest) ∈ r.eventData) ∧
    ∃ r ∈ l.receipts, r.eventType = "adapter_attempt" ∧ ("accepted", .bool true) ∈ r.eventData ∧
      ("token_digest", .str digest) ∈ r.eventData

/-- Every invocation an adapter of `s` records is backed by its receipts. -/
def Audited (s : SystemState) : Prop :=
  ∀ m, ∀ inv ∈ s.adapterRegistry.invocationsOf m, Backed s.auditLedger inv.tokenDigest

theorem Backed.mono {l l' : Ledger} {digest : String} (h : Backed l digest)
    (hp : l.receipts <+: l'.receipts) : Backed l' digest := by
  obtain ⟨⟨r, hr, h₁⟩, r', hr', h₂⟩ := h
  exact ⟨⟨r, hp.subset hr, h₁⟩, r', hp.subset hr', h₂⟩

theorem Audited.mono {s s' : SystemState} (hs : Audited s)
    (hinv : ∀ m, s'.adapterRegistry.invocationsOf m = s.adapterRegistry.invocationsOf m)
    (hp : s.auditLedger.receipts <+: s'.auditLedger.receipts) : Audited s' := fun m inv h =>
  (hs m inv (hinv m ▸ h)).mono hp

theorem newSystemState_audited (principalID namespaceID : String) (now : Int) :
    Audited (newSystemState sha256Hex principalID namespaceID now) := fun m inv h => by
  simp [newSystemState, newRegistry, Registry.invocationsOf] at h

theorem mockState_audited : Audited (mockState sha256Hex) := fun m inv h => by
  by_cases hm : m = "mock_adapter"
  · subst hm
    simp [mockState, Registry.invocationsOf, Registry.put, newMockAdapter] at h
  · simp [mockState, newSystemState, newRegistry, Registry.invocationsOf, Registry.put, newMockAdapter,
      AList.lookup_insert_ne hm, -AList.insert_empty] at h

theorem mem_append_receipts (l : Ledger) (now : Int) (e : String) (d : GoMap) :
    l.nextReceipt sha256Hex now e d ∈ (l.append sha256Hex now e d).receipts :=
  List.mem_append_right _ (List.mem_singleton_self _)

theorem addToken_mint_receipt (s : SystemState) (t : Token) (now : Int) :
    ∃ r ∈ ((s.alloc t).addToken sha256Hex now s.nextToken).auditLedger.receipts,
      r.eventType = "token_mint" ∧ ("token_digest", .str t.digest) ∈ r.eventData :=
  ⟨_, mem_append_receipts sha256Hex _ _ _ _, rfl, by simp [SystemState.alloc]⟩

theorem execute_audited {clock : Nat → Int} {req : Request} {s : SystemState} {out : ExecOutcome}
    (h : execute sha256Hex clock req s = some out) (hs : Audited s) : Audited out.state := by
  have hp := (execute_extends sha256Hex h).receipts_grow
  rcases execute_cases sha256Hex h with ⟨e, -, rfl⟩ | ⟨lr, d, -, -, ⟨-, rfl⟩ | ⟨-, h⟩⟩
  · exact hs
  · exact hs.mono (fun _ => rfl) hp
  rcases executeGranted_spec sha256Hex clock _ lr _ _ h with hr | ⟨t, inv, s₂, s₃, hinv, -, hs₂, hrec, hout⟩
  · exact hs.mono (fun m => by rw [hr]) hp
  have hmint : ∃ r ∈ s₂.auditLedger.receipts, r.eventType = "token_mint" ∧
      ("token_digest", .str t.digest) ∈ r.eventData := by
    rw [hs₂]
    exact addToken_mint_receipt sha256Hex _ t _
  have h₃ : s₃.auditLedger = s₂.auditLedger := by rw [hrec.1]
  rw [hout] at hp ⊢
  intro m inv' hm
  change inv' ∈ s₃.adapterRegistry.invocationsOf m at hm
  rw [hrec.2 m, hs₂] at hm
  split_ifs at hm
  · rcases List.mem_append.mp hm with hold | hnew
    · exact (hs m inv' hold).mono hp
    rw [List.mem_singleton.mp hnew, hinv]
    obtain ⟨r, hr, h₁, h₂⟩ := hmint
    rw [← h₃] at hr
    exact ⟨⟨r, List.mem_append_left _ hr, h₁, h₂⟩, _, mem_append_receipts sha256Hex _ _ _ _, rfl,
      by simp, by simp⟩
  · exact (hs m inv' hm).mono hp

namespace KernelCall

theorem apply_audited (s : SystemState) (c : KernelCall) (hs : Audited s) :
    Audited (c.apply sha256Hex s) := by
  cases c with
  | revoke => exact hs
  | revokeAll now => exact hs.mono (fun _ => rfl) (List.prefix_append _ _)
  | addToken t now => exact hs.mono (fun _ => rfl) (List.prefix_append _ _)
  | execute clock req =>
    simp only [apply]
    rcases h : OI.execute sha256Hex clock req s with _ | out
    · exact hs
    · exact execute_audited sha256Hex h hs
  | verify => exact hs

end KernelCall

/-- From a state where every recorded invocation is audited, as in
`NewSystemState`, every sequence of kernel calls keeps it so: each invocation
an adapter records is backed by the `token_mint` receipt of its token and an
accepted `adapter_attempt` receipt with the token's digest. -/
theorem session_invocations_audited (s : SystemState) (hs : Audited s) (cs : List KernelCall) :
    Audited (KernelCall.run sha256Hex s cs) := by
  induction cs generalizing s with
  | nil => exact hs
  | cons c cs ih => exact ih _ (KernelCall.apply_audited sha256Hex s c hs)

theorem session_invocations_audited_hello :
    Audited (mockState fun _ => "") ∧
      Audited (KernelCall.run (fun _ => "") (mockState fun _ => "")
        [.execute (fun _ => 0) ⟨"hello", none⟩, .revokeAll 1]) ∧
      ((KernelCall.run (fun _ => "") (mockState fun _ => "")
        [.execute (fun _ => 0) ⟨"hello", none⟩, .revokeAll 1]).adapterRegistry.invocationsOf "mock_adapter").length = 1 :=
  ⟨mockState_audited _, session_invocations_audited _ _ (mockState_audited _) _, rfl⟩

end

end OI
