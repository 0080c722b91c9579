import OiCorridor.Proofs.Ledger
import OiCorridor.Proofs.Decimal
import OiCorridor.Spec.Capabilities

/-! What the hashed texts determine. `computeHash` hashes `%d|%d|%s|%v|%s` of
a receipt's `Sequence`, `Timestamp`, `EventType`, `EventData` and `PrevHash`.
With the other fields fixed the text determines each of the first three and
`PrevHash`, so with an injective hash a change of any one of them breaks
`Verify`. It does not determine the event data: `%v` renders the maps
`{"a": "b c:d"}` and `{"a": "b", "c": "d"}` alike, and `Verify` reads a receipt
only through the text it hashes, its `PrevHash` and its `CurrentHash`.
`computeDigest` hashes a token's instants as whole seconds and joins its fields
with `|`, so two mints in one second share a digest, and so do tokens whose
issuer and subject split one text at another `|`. -/

set_option autoImplicit false

namespace OI

section

variable (sha256Hex : String → String)

/-! ### What `Verify` reads -/

/-- Two receipts `Verify` cannot tell apart: the same hashed text, `PrevHash` and `CurrentHash`. -/
structure Receipt.Alike (r r' : Receipt) : Prop where
  hashInput : r.hashInput = r'.hashInput
  prevHash : r.prevHash = r'.prevHash
  currentHash : r.currentHash = r'.currentHash

theorem Receipt.Alike.refl (r : Receipt) : r.Alike r := ⟨rfl, rfl, rfl⟩

theorem Receipt.alike_eventData (r : Receipt) {d : GoMap} (h : fmtMap d = fmtMap r.eventData) :
    r.Alike { r with eventData := d } :=
  ⟨by simp only [Receipt.hashInput, h], rfl, rfl⟩

theorem verifyFrom_alike (i : Nat) {prev prev' : Option Receipt}
    (hp : prev.map Receipt.currentHash = prev'.map Receipt.currentHash) {rs rs' : List Receipt}
    (h : List.Forall₂ Receipt.Alike rs rs') :
    Ledger.verifyFrom sha256Hex i prev rs = Ledger.verifyFrom sha256Hex i prev' rs' := by
  induction h generalizing i prev prev' with
  | nil => rfl
  | @cons r r' rs rs' hr _ ih =>
    have hc : computeHash sha256Hex r = computeHash sha256Hex r' := congrArg sha256Hex hr.hashInput
    have hnext := @ih (i + 1) (some r) (some r') (congrArg some hr.currentHash)
    simp only [Ledger.verifyFrom, hc, hr.currentHash, hr.prevHash, hnext]
    rcases prev with _ | p <;> rcases prev' with _ | p' <;> simp only [Option.map] at hp
    · rfl
    · cases hp
    · cases hp
    · dsimp only
      rw [Option.some.inj hp]

theorem verify_alike {l l' : Ledger} (h : List.Forall₂ Receipt.Alike l.receipts l'.receipts) :
    l.verify sha256Hex = l'.verify sha256Hex := by
  have hn : l.receipts = [] ↔ l'.receipts = [] := by
    rw [← List.length_eq_zero, h.length_eq, List.length_eq_zero]
  simp only [Ledger.verify, hn, verifyFrom_alike sha256Hex 0 rfl h]

theorem verifyFrom_hashed {i : Nat} {prev : Option Receipt} {rs : List Receipt}
    (h : Ledger.verifyFrom sha256Hex i prev rs = .ok ()) :
    ∀ r ∈ rs, r.currentHash = computeHash sha256Hex r := by
  induction rs generalizing i prev with
  | nil => intro _ h; cases h
  | cons r rs ih =>
    unfold Ledger.verifyFrom at h
    split_ifs at h with hr
    simp only [not_not] at hr
    refine List.forall_mem_cons.mpr ⟨hr, ?_⟩
    rcases prev with _ | p
    · exact ih h
    · simp only at h
      split_ifs at h
      exact ih h

theorem verify_hashed {l : Ledger} (h : l.verify sha256Hex = .ok ()) :
    ∀ r ∈ l.receipts, r.currentHash = computeHash sha256Hex r := by
  unfold Ledger.verify at h
  split_ifs at h
  exact verifyFrom_hashed sha256Hex h

/-! ### One changed field -/

/-- `r'` is `r` with one of `Sequence`, `Timestamp`, `EventType` and `PrevHash` changed. -/
inductive Receipt.OneFieldChange (r : Receipt) : Receipt → Prop
  | sequence (n : Nat) : n ≠ r.sequence → r.OneFieldChange { r with sequence := n }
  | timestamp (t : Int) : t ≠ r.timestamp → r.OneFieldChange { r with timestamp := t }
  | eventType (e : String) : e ≠ r.eventType → r.OneFieldChange { r with eventType := e }
  | prevHash (p : String) : p ≠ r.prevHash → r.OneFieldChange { r with prevHash := p }

theorem Receipt.OneFieldChange.hashInput_ne {r r' : Receipt} (h : r.OneFieldChange r') :
    r'.hashInput ≠ r.hashInput := by
  intro heq
  have hd := congrArg String.data heq
  cases h <;> dsimp only [Receipt.hashInput] at hd <;>
    simp only [String.data_append, List.append_assoc, List.append_right_inj, List.append_left_inj] at hd
  case sequence n hn => exact hn (toString_nat_injective (String.ext hd))
  case timestamp t ht => exact ht (toString_int_injective (String.ext hd))
  case eventType e he => exact he (String.ext hd)
  case prevHash p hp => exact hp (String.ext hd)

/-- With an injective hash, a ledger `Verify` accepts is refused once one of
its receipts has one of `Sequence`, `Timestamp`, `EventType` or `PrevHash`
changed, its stored hash kept. -/
theorem verify_detects_one_field_change (hinj : Function.Injective sha256Hex) {l : Ledger}
    (hv : l.verify sha256Hex = .ok ()) {i : Nat} (hi : i < l.receipts.length) {r' : Receipt}
    (hr : l.receipts[i].OneFieldChange r') :
    ({ l with receipts := l.receipts.set i r' } : Ledger).verify sha256Hex ≠ .ok () := by
  intro hv'
  have hmem : r' ∈ (l.receipts.set i r') := List.mem_set _ _ hi r'
  have h' := verify_hashed sha256Hex hv' r' hmem
  have h := verify_hashed sha256Hex hv _ (List.getElem_mem hi)
  have hkeep : r'.currentHash = l.receipts[i].currentHash := by cases hr <;> rfl
  exact hr.hashInput_ne (hinj (h'.symm.trans (hkeep.trans h)))

end

theorem verify_detects_one_field_change_genesis :
    let l := newLedger id 0
    let r' : Receipt := { l.receipts[0] with sequence := 1 }
    Function.Injective (id : String → String) ∧ l.verify id = .ok () ∧ 0 < l.receipts.length ∧
      l.receipts[0].OneFieldChange r' ∧ ({ l with receipts := l.receipts.set 0 r' } : Ledger).verify id ≠ .ok () :=
  have hv : (newLedger id 0).verify id = .ok () := (newLedger_chainInv id 0).verify
  have hr : (newLedger id 0).receipts[0].OneFieldChange { (newLedger id 0).receipts[0] with sequence := 1 } :=
    .sequence 1 Nat.one_ne_zero
  ⟨Function.injective_id, hv, Nat.zero_lt_one, hr,
    verify_detects_one_field_change id Function.injective_id hv Nat.zero_lt_one hr⟩

/-! ### Event data `%v` cannot tell apart -/

/-- `NewLedger()`, then a receipt with the event data `{"a": "b c:d"}`. -/
def ambiguousLedger (sha256Hex : String → String) : Ledger :=
  (newLedger sha256Hex 0).append sha256Hex 0 "test" [("a", .str "b c:d")]

/-- `ambiguousLedger` with its second receipt's event data replaced by `{"a": "b", "c": "d"}`. -/
def ambiguousLedger.tampered (sha256Hex : String → String) : Ledger :=
  { ambiguousLedger sha256Hex with
    receipts := (ambiguousLedger sha256Hex).receipts.modify
      (fun r => { r with eventData := [("a", .str "b"), ("c", .str "d")] }) 1 }

theorem fmtMap_ambiguous : fmtMap [("a", .str "b"), ("c", .str "d")] = fmtMap [("a", .str "b c:d")] := by
  rw [fmtMap, fmtMap, List.mergeSort_singleton, List.mergeSort_of_sorted (by decide)]
  rfl

/-- Replacing the event data `{"a": "b c:d"}` of a verifying ledger by
`{"a": "b", "c": "d"}` leaves `Verify` accepting it, for every hash function. -/
theorem eventData_tamper_undetected (sha256Hex : String → String) :
    (ambiguousLedger sha256Hex).verify sha256Hex = .ok () ∧
      (ambiguousLedger.tampered sha256Hex).receipts ≠ (ambiguousLedger sha256Hex).receipts ∧
      (ambiguousLedger.tampered sha256Hex).verify sha256Hex = .ok () := by
  have hv : (ambiguousLedger sha256Hex).verify sha256Hex = .ok () :=
    (append_chainInv sha256Hex (newLedger_chainInv sha256Hex 0) 0 "test" _).verify
  have halike : List.Forall₂ Receipt.Alike (ambiguousLedger sha256Hex).receipts
      (ambiguousLedger.tampered sha256Hex).receipts :=
    .cons (.refl _) (.cons (Receipt.alike_eventData _ fmtMap_ambiguous) .nil)
  refine ⟨hv, fun h => ?_, (verify_alike sha256Hex halike).symm.trans hv⟩
  have := congrArg (List.map fun r => r.eventData.length) h
  simp [ambiguousLedger.tampered, ambiguousLedger, newLedger] at this

/-! ### Token digests -/

/-- `Mint` with the kernel's scope, limits, lifetime and posture bounds. -/
def kernelMint (sha256Hex : String → String) (now : Int) (issuer subject audience : String) : Token :=
  mint sha256Hex now issuer subject audience ["*"] ⟨10, 1000, []⟩ (5 * minute) ⟨1, 4⟩ "n" "p"

/-- Two mints 0.5 s apart in one second, and two tokens whose issuer and
subject split `kernel|p|adapters` at different `|`, share their digests, for
every hash function. -/
theorem mint_digest_collisions (sha256Hex : String → String) :
    ((kernelMint sha256Hex 1000000000 "kernel" "p" "adapters").issuedAt ≠
        (kernelMint sha256Hex 1500000000 "kernel" "p" "adapters").issuedAt ∧
      (kernelMint sha256Hex 1000000000 "kernel" "p" "adapters").digest =
        (kernelMint sha256Hex 1500000000 "kernel" "p" "adapters").digest) ∧
    ((kernelMint sha256Hex 1000000000 "kernel|p" "adapters" "x").issuer ≠
        (kernelMint sha256Hex 1000000000 "kernel" "p|adapters" "x").issuer ∧
      (kernelMint sha256Hex 1000000000 "kernel|p" "adapters" "x").digest =
        (kernelMint sha256Hex 1000000000 "kernel" "p|adapters" "x").digest) :=
  ⟨⟨(by decide : (1000000000 : Int) ≠ 1500000000), rfl⟩, ⟨(by decide : "kernel|p" ≠ "kernel"), rfl⟩⟩

end OI
