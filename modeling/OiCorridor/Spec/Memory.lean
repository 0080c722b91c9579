import OiCorridor.Spec.Go
import Mathlib.Logic.Relation

/-! `package memory`: the partitioned memory manager. The partitions and their
policies are fixed by `NewManager`. Entries are `*Entry` pointers, but every
stored pointer is a fresh `&Entry`, so entries are held by value. An entry's
`Metadata` is a Go map, held by reference: the state holds the part of the heap
with metadata maps (`metadata`, with `nextMetadata` the next free address), and
an entry holds the address of its map. `currentTimestamp` is the constant the
code returns. A panic is `none`. -/

set_option autoImplicit false

namespace OI.Memory

def partitionEphemeral : String := "ephemeral"
def partitionDurable : String := "durable"
def partitionCommitments : String := "commitments"
def partitionProvenance : String := "provenance"
def partitionQuarantine : String := "quarantine"
def partitionEvidence : String := "evidence"

/-- `memory.Entry`; `metadata` is the address of its map, `none` for a nil map. -/
structure Entry where
  id : String
  partition : String
  content : String
  contentHash : String
  metadata : Option Nat
  timestamp : Int
  verified : Bool
  deriving DecidableEq, Repr

structure PartitionPolicy where
  allowWrite : Bool
  allowRead : Bool
  requireCapability : Bool
  appendOnly : Bool
  deriving DecidableEq, Repr

structure Partition where
  name : String
  entries : String → Option Entry
  policy : PartitionPolicy

/-- A `Manager` with the metadata maps its entries point to. -/
structure Manager where
  partitions : String → Option Partition
  metadata : Nat → GoMap
  nextMetadata : Nat

/-- The errors of the manager, one per `fmt.Errorf`. -/
inductive MemoryError where
  /-- `partition %s does not exist` -/
  | partitionNotFound (partition : String)
  /-- `partition %s is read-only` -/
  | readOnly (partition : String)
  /-- `partition %s is append-only, cannot overwrite entry %s` -/
  | appendOnly (partition id : String)
  /-- `partition %s is write-only` -/
  | writeOnly (partition : String)
  /-- `entry %s not found in partition %s` -/
  | entryNotFound (id partition : String)
  /-- `entry %s not found in quarantine` -/
  | notInQuarantine (id : String)
  /-- `promotion requires verification record` -/
  | verificationRequired
  deriving DecidableEq, Repr

def currentTimestamp : Int := 0

/-- The six partitions `NewManager` creates, with their policies. -/
def defaultPolicies : List (String × PartitionPolicy) :=
  [(partitionEphemeral, ⟨true, true, false, false⟩),
   (partitionDurable, ⟨true, true, true, false⟩),
   (partitionCommitments, ⟨true, true, true, false⟩),
   (partitionProvenance, ⟨true, true, false, true⟩),
   (partitionQuarantine, ⟨true, false, false, true⟩),
   (partitionEvidence, ⟨true, true, true, true⟩)]

def newManager : Manager where
  partitions name := (defaultPolicies.lookup name).map fun policy => ⟨name, fun _ => none, policy⟩
  metadata _ := []
  nextMetadata := 0

namespace Manager

/-- A new map `make(map[string]interface{})` or map literal, at the next free address. -/
def allocMetadata (m : Manager) (contents : GoMap) : Nat × Manager :=
  (m.nextMetadata, { m with metadata := Function.update m.metadata m.nextMetadata contents,
                            nextMetadata := m.nextMetadata + 1 })

/-- Store `e` at `id` in the partition `p` held under `name`. -/
def setEntry (m : Manager) (name : String) (p : Partition) (id : String) (e : Entry) : Manager :=
  let p := { p with entries := Function.update p.entries id (some e) }
  { m with partitions := Function.update m.partitions name (some p) }

/-- The entry at `id` of the partition `name`, if both exist. -/
def entry (m : Manager) (name id : String) : Option Entry :=
  (m.partitions name).bind fun p => p.entries id

/-- The map `Write` stores: the caller's, or a new empty one for a nil map. -/
def metadataRef (m : Manager) : Option Nat → Nat × Manager
  | some ref => (ref, m)
  | none => m.allocMetadata []

@[simp] theorem allocMetadata_partitions (m : Manager) (c : GoMap) :
    (m.allocMetadata c).2.partitions = m.partitions := rfl

@[simp] theorem allocMetadata_entry (m : Manager) (c : GoMap) (name id : String) :
    (m.allocMetadata c).2.entry name id = m.entry name id := rfl

@[simp] theorem allocMetadata_nextMetadata (m : Manager) (c : GoMap) :
    (m.allocMetadata c).2.nextMetadata = m.nextMetadata + 1 := rfl

theorem allocMetadata_metadata_of_lt (m : Manager) (c : GoMap) {ref : Nat}
    (h : ref < m.nextMetadata) : (m.allocMetadata c).2.metadata ref = m.metadata ref :=
  Function.update_noteq (Nat.ne_of_lt h) _ _

@[simp] theorem metadataRef_partitions (m : Manager) (md : Option Nat) :
    (m.metadataRef md).2.partitions = m.partitions := by
  cases md <;> rfl

@[simp] theorem metadataRef_entry (m : Manager) (md : Option Nat) (name id : String) :
    (m.metadataRef md).2.entry name id = m.entry name id := by
  cases md <;> rfl

theorem metadataRef_metadata_of_lt (m : Manager) (md : Option Nat) {ref : Nat}
    (h : ref < m.nextMetadata) : (m.metadataRef md).2.metadata ref = m.metadata ref := by
  cases md with
  | some _ => rfl
  | none => exact allocMetadata_metadata_of_lt m [] h

theorem le_metadataRef_nextMetadata (m : Manager) (md : Option Nat) :
    m.nextMetadata ≤ (m.metadataRef md).2.nextMetadata := by
  cases md with
  | some _ => exact le_rfl
  | none => exact Nat.le_succ _

theorem metadataRef_lt (m : Manager) {md : Option Nat} (h : ∀ ref ∈ md, ref < m.nextMetadata) :
    (m.metadataRef md).1 < (m.metadataRef md).2.nextMetadata := by
  cases md with
  | some ref => exact h ref rfl
  | none => exact Nat.lt_succ_self _

theorem partitions_setEntry {m : Manager} {name : String} {p : Partition} (id : String) (e : Entry)
    (name' : String) (hn : name' ≠ name) : (m.setEntry name p id e).partitions name' = m.partitions name' :=
  Function.update_noteq hn _ _

theorem policy_setEntry {m : Manager} {name : String} {p : Partition} (hp : m.partitions name = some p)
    (id : String) (e : Entry) (name' : String) :
    ((m.setEntry name p id e).partitions name').map Partition.policy =
      (m.partitions name').map Partition.policy := by
  by_cases hn : name' = name
  · subst hn
    simp [setEntry, hp]
  · rw [partitions_setEntry id e name' hn]

theorem entry_setEntry {m : Manager} {name : String} {p : Partition} (hp : m.partitions name = some p)
    (id : String) (e : Entry) (name' id' : String) :
    (m.setEntry name p id e).entry name' id' =
      if name' = name ∧ id' = id then some e else m.entry name' id' := by
  by_cases hn : name' = name
  · subst hn
    by_cases hi : id' = id
    · simp [setEntry, entry, hi]
    · simp [setEntry, entry, hi, hp]
  · simp [entry, partitions_setEntry id e name' hn, hn]

@[simp] theorem setEntry_metadata (m : Manager) (name : String) (p : Partition) (id : String) (e : Entry) :
    (m.setEntry name p id e).metadata = m.metadata := rfl

@[simp] theorem setEntry_nextMetadata (m : Manager) (name : String) (p : Partition) (id : String)
    (e : Entry) : (m.setEntry name p id e).nextMetadata = m.nextMetadata := rfl

section
variable (sha256Hex : String → String)

/-- `Manager.Write`. A nil `metadata` is replaced by a new empty map. -/
def write (m : Manager) (partition id content : String) (metadata : Option Nat) :
    Except MemoryError Unit × Manager :=
  match m.partitions partition with
  | none => (.error (.partitionNotFound partition), m)
  | some p =>
    if !p.policy.allowWrite then (.error (.readOnly partition), m)
    else if p.policy.appendOnly ∧ (p.entries id).isSome then
      (.error (.appendOnly partition id), m)
    else
      let (ref, m) := m.metadataRef metadata
      (.ok (), m.setEntry partition p id
        ⟨id, partition, content, sha256Hex content, some ref, currentTimestamp, false⟩)

end

/-- `Manager.Read`. -/
def read (m : Manager) (partition id : String) : Except MemoryError Entry :=
  match m.partitions partition with
  | none => .error (.partitionNotFound partition)
  | some p =>
    if !p.policy.allowRead then .error (.writeOnly partition)
    else match p.entries id with
      | none => .error (.entryNotFound id partition)
      | some e => .ok e

/-- `Manager.PromoteFromQuarantine`. It marks the quarantine entry verified,
writes the record into the entry's metadata map, and stores at `id` in
`durable` a new entry that points to the same map. A missing partition or a
nil metadata map panics. -/
def promoteFromQuarantine (m : Manager) (id verificationRecord : String) :
    Option (Except MemoryError Unit × Manager) :=
  match m.partitions partitionQuarantine with
  | none => none
  | some quarantine =>
    match quarantine.entries id with
    | none => some (.error (.notInQuarantine id), m)
    | some entry =>
      if verificationRecord = "" then some (.error .verificationRequired, m)
      else match entry.metadata with
        | none => none
        | some ref =>
          let entry := { entry with verified := true }
          let m := m.setEntry partitionQuarantine quarantine id entry
          let record := GoMap.assign (m.metadata ref) "verification_record" (.str verificationRecord)
          let m := { m with metadata := Function.update m.metadata ref record }
          (m.partitions partitionDurable).map fun durable =>
            (.ok (), m.setEntry partitionDurable durable id
              ⟨entry.id, partitionDurable, entry.content, entry.contentHash, entry.metadata,
                currentTimestamp, true⟩)

end Manager

end OI.Memory
