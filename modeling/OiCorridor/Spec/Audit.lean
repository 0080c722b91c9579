import OiCorridor.Spec.Go

/-! `package audit`: the hash-chained receipt ledger. `append` is the one
place that advances the sequence counter, reads the previous receipt's hash and
hashes the new receipt; the seven `Append*` helpers are `append` at their own
event type and event data. -/

set_option autoImplicit false

namespace OI

/-- `audit.Receipt`. `Sequence` is an `int64`; a slice never holds `2^63`
receipts, so it is a `Nat` here. -/
structure Receipt where
  sequence : Nat
  timestamp : Int
  eventType : String
  eventData : GoMap
  prevHash : String
  currentHash : String
  deriving DecidableEq, Repr

/-- `audit.Ledger`. -/
structure Ledger where
  receipts : List Receipt
  sequence : Nat
  deriving DecidableEq, Repr

/-- The `fmt.Sprintf("%d|%d|%s|%v|%s", ...)` text `computeHash` hashes. -/
def Receipt.hashInput (r : Receipt) : String :=
  toString r.sequence ++ "|" ++ toString r.timestamp ++ "|" ++ r.eventType ++ "|" ++
    fmtMap r.eventData ++ "|" ++ r.prevHash

section

variable (sha256Hex : String → String)

/-- `computeHash(r)`. -/
def computeHash (r : Receipt) : String := sha256Hex r.hashInput

/-- The `PrevHash` of the genesis receipt. -/
def zeroHash : String := "0000000000000000"

/-- `NewLedger()`, at clock value `now`. -/
def newLedger (now : Int) : Ledger :=
  let genesis : Receipt :=
    { sequence := 0, timestamp := unixSeconds now, eventType := "genesis",
      eventData := [("message", .str "audit ledger initialized")], prevHash := zeroHash,
      currentHash := "" }
  { receipts := [{ genesis with currentHash := computeHash sha256Hex genesis }], sequence := 0 }

namespace Ledger

/-- The hash `append` links to: the last receipt's, or `zeroHash` on an empty ledger. -/
def lastHash (l : Ledger) : String :=
  match l.receipts.getLast? with
  | some r => r.currentHash
  | none => zeroHash

/-- The receipt `append` adds. -/
def nextReceipt (l : Ledger) (now : Int) (eventType : String) (eventData : GoMap) : Receipt :=
  let r : Receipt :=
    { sequence := l.sequence + 1, timestamp := unixSeconds now, eventType, eventData,
      prevHash := l.lastHash, currentHash := "" }
  { r with currentHash := computeHash sha256Hex r }

/-- `Ledger.append(eventType, eventData)`, at clock value `now`. -/
def append (l : Ledger) (now : Int) (eventType : String) (eventData : GoMap) : Ledger :=
  { receipts := l.receipts ++ [l.nextReceipt sha256Hex now eventType eventData],
    sequence := l.sequence + 1 }

def appendCDIDecision (l : Ledger) (now : Int) (decision inputHash outputHash : String) : Ledger :=
  l.append sha256Hex now "cdi_decision"
    [("decision", .str decision), ("input_hash", .str inputHash), ("output_hash", .str outputHash)]

def appendTokenMint (l : Ledger) (now : Int) (tokenDigest : String) (scope : List String) : Ledger :=
  l.append sha256Hex now "token_mint" [("token_digest", .str tokenDigest), ("scope", .strs scope)]

def appendAdapterAttempt (l : Ledger) (now : Int) (adapterName : String) (accepted : Bool)
    (tokenDigest : String) : Ledger :=
  l.append sha256Hex now "adapter_attempt"
    [("adapter", .str adapterName), ("accepted", .bool accepted), ("token_digest", .str tokenDigest)]

def appendMemoryWrite (l : Ledger) (now : Int) (partition scope contentHash : String) : Ledger :=
  l.append sha256Hex now "memory_write"
    [("partition", .str partition), ("scope", .str scope), ("content_hash", .str contentHash)]

def appendIntegrityStateChange (l : Ledger) (now : Int) (newState : String) : Ledger :=
  l.append sha256Hex now "integrity_state_change" [("new_state", .str newState)]

def appendStopEvent (l : Ledger) (now : Int) (tokensRevoked : Int) : Ledger :=
  l.append sha256Hex now "stop_event" [("tokens_revoked", .int tokensRevoked)]

def appendPostureChange (l : Ledger) (now : Int) (fromLevel toLevel : Int) (reason : String) :
    Ledger :=
  l.append sha256Hex now "posture_change"
    [("from_level", .int fromLevel), ("to_level", .int toLevel), ("reason", .str reason)]

end Ledger

/-- Why `Ledger.Verify` fails, one constructor per `fmt.Errorf`. -/
inductive LedgerError where
  /-- `empty ledger` -/
  | empty
  /-- `receipt %d hash mismatch: expected %s, got %s` -/
  | hashMismatch (index : Nat) (expected got : String)
  /-- `receipt %d chain break: prev_hash %s != previous current_hash %s` -/
  | chainBreak (index : Nat) (prevHash previous : String)
  deriving DecidableEq, Repr

namespace Ledger

/-- The loop of `Verify` from receipt `index` on, `prev` being receipt `index - 1`. -/
def verifyFrom (index : Nat) (prev : Option Receipt) : List Receipt → Except LedgerError Unit
  | [] => .ok ()
  | r :: rs =>
    if r.currentHash ≠ computeHash sha256Hex r then
      .error (.hashMismatch index (computeHash sha256Hex r) r.currentHash)
    else
      match prev with
      | some p =>
        if r.prevHash ≠ p.currentHash then .error (.chainBreak index r.prevHash p.currentHash)
        else verifyFrom (index + 1) (some r) rs
      | none => verifyFrom (index + 1) (some r) rs

/-- `Ledger.Verify()`; `.ok ()` is `(true, nil)`. -/
def verify (l : Ledger) : Except LedgerError Unit :=
  if l.receipts = [] then .error .empty else verifyFrom sha256Hex 0 none l.receipts

@[simp] theorem append_receipts (l : Ledger) (now : Int) (e : String) (d : GoMap) :
    (l.append sha256Hex now e d).receipts = l.receipts ++ [l.nextReceipt sha256Hex now e d] := rfl

@[simp] theorem append_sequence (l : Ledger) (now : Int) (e : String) (d : GoMap) :
    (l.append sha256Hex now e d).sequence = l.sequence + 1 := rfl

@[simp] theorem nextReceipt_sequence (l : Ledger) (now : Int) (e : String) (d : GoMap) :
    (l.nextReceipt sha256Hex now e d).sequence = l.sequence + 1 := rfl

@[simp] theorem nextReceipt_prevHash (l : Ledger) (now : Int) (e : String) (d : GoMap) :
    (l.nextReceipt sha256Hex now e d).prevHash = l.lastHash := rfl

@[simp] theorem nextReceipt_eventType (l : Ledger) (now : Int) (e : String) (d : GoMap) :
    (l.nextReceipt sha256Hex now e d).eventType = e := rfl

@[simp] theorem nextReceipt_eventData (l : Ledger) (now : Int) (e : String) (d : GoMap) :
    (l.nextReceipt sha256Hex now e d).eventData = d := rfl

theorem nextReceipt_hash (l : Ledger) (now : Int) (e : String) (d : GoMap) :
    (l.nextReceipt sha256Hex now e d).currentHash =
      computeHash sha256Hex (l.nextReceipt sha256Hex now e d) := rfl

end Ledger

end

end OI
