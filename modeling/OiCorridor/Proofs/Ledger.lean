import OiCorridor.Spec.Audit
import Mathlib.Data.List.Chain

/-! The audit ledger's chain invariant. Every run of `Append*` calls from
`NewLedger()` keeps the receipts numbered by position, each carrying the hash
of its own fields and linking to its predecessor's hash; no call changes an
earlier receipt; and `Verify` accepts the result. One step lemma for `append`
carries the invariant, since every `Append*` helper is `append`. -/

set_option autoImplicit false

namespace OI

/-- One call of an `Append*` helper, with its arguments. -/
inductive AppendCall where
  | cdiDecision (decision inputHash outputHash : String)
  | tokenMint (tokenDigest : String) (scope : List String)
  | adapterAttempt (adapterName : String) (accepted : Bool) (tokenDigest : String)
  | memoryWrite (partition scope contentHash : String)
  | integrityStateChange (newState : String)
  | stopEvent (tokensRevoked : Int)
  | postureChange (fromLevel toLevel : Int) (reason : String)

section

variable (sha256Hex : String → String)

def AppendCall.apply (l : Ledger) (now : Int) : AppendCall → Ledger
  | .cdiDecision d i o => l.appendCDIDecision sha256Hex now d i o
  | .tokenMint t s => l.appendTokenMint sha256Hex now t s
  | .adapterAttempt a ok t => l.appendAdapterAttempt sha256Hex now a ok t
  | .memoryWrite p s h => l.appendMemoryWrite sha256Hex now p s h
  | .integrityStateChange s => l.appendIntegrityStateChange sha256Hex now s
  | .stopEvent n => l.appendStopEvent sha256Hex now n
  | .postureChange f t r => l.appendPostureChange sha256Hex now f t r

/-- `NewLedger()` at clock value `t0`, then each call at its own clock value. -/
def appendRun (t0 : Int) (calls : List (Int × AppendCall)) : Ledger :=
  calls.foldl (fun l c => c.2.apply sha256Hex l c.1) (newLedger sha256Hex t0)

theorem AppendCall.apply_eq (l : Ledger) (now : Int) (c : AppendCall) :
    ∃ e d, c.apply sha256Hex l now = l.append sha256Hex now e d := by
  cases c <;> exact ⟨_, _, rfl⟩

/-- Receipts linked by hash: each names its predecessor's `CurrentHash`. -/
def Linked (a b : Receipt) : Prop := b.prevHash = a.currentHash

/-- The ledger invariant: the counter is the last index, receipts are numbered
by position, each carries its own hash, and neighbours are linked. -/
structure ChainInv (l : Ledger) : Prop where
  length : l.receipts.length = l.sequence + 1
  numbered : l.receipts.map Receipt.sequence = List.range l.receipts.length
  hashed : ∀ r ∈ l.receipts, r.currentHash = computeHash sha256Hex r
  linked : l.receipts.Chain' Linked

theorem newLedger_chainInv (t0 : Int) : ChainInv sha256Hex (newLedger sha256Hex t0) :=
  ⟨rfl, rfl, by simp only [newLedger, List.mem_singleton, forall_eq]; rfl, List.chain'_singleton _⟩

theorem Ledger.lastHash_eq {l : Ledger} {r : Receipt} (h : r ∈ l.receipts.getLast?) :
    l.lastHash = r.currentHash := by
  simp only [Ledger.lastHash, Option.mem_def.mp h]

theorem append_chainInv {l : Ledger} (h : ChainInv sha256Hex l) (now : Int) (e : String)
    (d : GoMap) : ChainInv sha256Hex (l.append sha256Hex now e d) where
  length := by simp [h.length]
  numbered := by simp [List.range_succ, h.numbered, h.length]
  hashed := by
    simpa [or_imp, forall_and] using ⟨h.hashed, Ledger.nextReceipt_hash sha256Hex l now e d⟩
  linked := h.linked.append (List.chain'_singleton _) fun x hx y hy => by
    simp only [List.head?_cons, Option.mem_def, Option.some.injEq] at hy
    subst hy
    exact Ledger.lastHash_eq hx

theorem foldl_chainInv (calls : List (Int × AppendCall)) {l : Ledger} (h : ChainInv sha256Hex l) :
    ChainInv sha256Hex (calls.foldl (fun l c => c.2.apply sha256Hex l c.1) l) := by
  induction calls generalizing l with
  | nil => exact h
  | cons c cs ih =>
    obtain ⟨e, d, he⟩ := c.2.apply_eq sha256Hex l c.1
    exact ih (by simp only [he]; exact append_chainInv sha256Hex h c.1 e d)

theorem appendRun_chainInv (t0 : Int) (calls : List (Int × AppendCall)) :
    ChainInv sha256Hex (appendRun sha256Hex t0 calls) :=
  foldl_chainInv sha256Hex calls (newLedger_chainInv sha256Hex t0)

theorem appendRun_snoc (t0 : Int) (calls : List (Int × AppendCall)) (c : Int × AppendCall) :
    appendRun sha256Hex t0 (calls ++ [c]) = c.2.apply sha256Hex (appendRun sha256Hex t0 calls) c.1 := by
  simp [appendRun, List.foldl_append]

theorem appendRun_length (t0 : Int) (calls : List (Int × AppendCall)) :
    (appendRun sha256Hex t0 calls).receipts.length = calls.length + 1 := by
  induction calls using List.reverseRecOn with
  | nil => rfl
  | append_singleton cs c ih =>
    obtain ⟨e, d, he⟩ := c.2.apply_eq sha256Hex (appendRun sha256Hex t0 cs) c.1
    simp [appendRun_snoc, he, ih]

theorem verifyFrom_ok (rs : List Receipt) (i : Nat) (prev : Option Receipt)
    (hh : ∀ r ∈ rs, r.currentHash = computeHash sha256Hex r)
    (hl : (prev.toList ++ rs).Chain' Linked) :
    Ledger.verifyFrom sha256Hex i prev rs = .ok () := by
  induction rs generalizing i prev with
  | nil => rfl
  | cons r rs ih =>
    have hr := hh r (List.mem_cons_self r rs)
    have hrs := ih (i + 1) (some r) (fun x hx => hh x (List.mem_cons_of_mem r hx))
    cases prev with
    | none => simpa [Ledger.verifyFrom, hr] using hrs hl
    | some p =>
      simp only [Option.toList_some, List.singleton_append, List.chain'_cons, Linked] at hl
      simpa [Ledger.verifyFrom, hr, hl.1] using hrs hl.2

theorem ChainInv.verify {l : Ledger} (h : ChainInv sha256Hex l) : l.verify sha256Hex = .ok () := by
  have hne : l.receipts ≠ [] := List.ne_nil_of_length_pos (by rw [h.length]; omega)
  simpa [Ledger.verify, hne] using verifyFrom_ok sha256Hex l.receipts 0 none h.hashed h.linked

/-- For every sequence of `Append*` calls on `NewLedger()`, with any arguments and
at any clock values: the ledger holds one receipt per call plus genesis;
receipt `i` has sequence `i`, carries `computeHash` of itself and links to
receipt `i - 1`; a further call only adds receipts after the existing ones; and
`Verify()` returns `(true, nil)`. -/
theorem appendRun_chain (t0 : Int) (calls : List (Int × AppendCall)) :
    let l := appendRun sha256Hex t0 calls
    l.receipts.length = calls.length + 1 ∧
    (∀ i (h : i < l.receipts.length), l.receipts[i].sequence = i) ∧
    (∀ i (h : i < l.receipts.length), l.receipts[i].currentHash = computeHash sha256Hex l.receipts[i]) ∧
    (∀ i (h : i + 1 < l.receipts.length), l.receipts[i + 1].prevHash = l.receipts[i].currentHash) ∧
    (∀ c, l.receipts <+: (appendRun sha256Hex t0 (calls ++ [c])).receipts) ∧
    l.verify sha256Hex = .ok () := by
  intro l
  have inv : ChainInv sha256Hex l := appendRun_chainInv sha256Hex t0 calls
  refine ⟨appendRun_length sha256Hex t0 calls, fun i h => ?_, fun i h => inv.hashed _ (List.getElem_mem h),
    fun i h => List.chain'_iff_get.mp inv.linked i (by omega), fun c => ?_, inv.verify⟩
  · have := congrArg (·[i]?) inv.numbered
    simpa [h] using this
  · obtain ⟨e, d, he⟩ := c.2.apply_eq sha256Hex l c.1
    simp [appendRun_snoc, he, l]

end

end OI
