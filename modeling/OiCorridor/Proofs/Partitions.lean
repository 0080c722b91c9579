import OiCorridor.Proofs.Memory

/-! What a client of the memory manager observes over whole runs: quarantine is
never readable, promotion never panics, append-only slots keep their first
write, and a verified durable entry mirrors a promoted quarantine entry. The
verification record it shows, though, lives in a map the entry shares with
every other holder of that map: `Write` stores the caller's map and
`PromoteFromQuarantine` copies the reference, not the map. -/

set_option autoImplicit false

namespace OI.Memory

open Manager

section
variable {sha256Hex : String → String}

theorem PoliciesFixed.partition_of {m : Manager} (hf : PoliciesFixed m) {name : String}
    {pol : PartitionPolicy} (h : defaultPolicies.lookup name = some pol) :
    ∃ p, m.partitions name = some p ∧ p.policy = pol :=
  Option.map_eq_some'.mp ((hf name).trans h)

theorem PoliciesFixed.read_quarantine {m : Manager} (hf : PoliciesFixed m) (id : String) :
    m.read partitionQuarantine id = .error (.writeOnly partitionQuarantine) := by
  obtain ⟨p, hp, hpol⟩ := hf.partition_of (show defaultPolicies.lookup partitionQuarantine = _ from rfl)
  simp [Manager.read, hp, hpol]

theorem Inv.promote_isSome {m : Manager} (hi : Inv sha256Hex m) (id r : String) :
    (m.promoteFromQuarantine id r).isSome := by
  obtain ⟨q, hq, -⟩ :=
    hi.policies.partition_of (show defaultPolicies.lookup partitionQuarantine = _ from rfl)
  obtain ⟨d, hd, -⟩ := hi.policies.partition_of (show defaultPolicies.lookup partitionDurable = _ from rfl)
  unfold Manager.promoteFromQuarantine
  rw [hq]
  dsimp only
  rcases he : q.entries id with _ | e
  · rfl
  obtain ⟨-, -, -, ref, hm, -⟩ := hi.stored partitionQuarantine id e (by simp [Manager.entry, hq, he])
  dsimp only
  split_ifs
  · rfl
  · simp [hm, partitions_setEntry _ _ _ partitionDurable_ne_quarantine, hd]

theorem ne_durable_of_appendOnly {name : String}
    (h : name ∈ [partitionProvenance, partitionQuarantine, partitionEvidence]) :
    name ≠ partitionDurable := by
  simp only [List.mem_cons, List.mem_singleton, List.not_mem_nil, or_false] at h
  rcases h with rfl | rfl | rfl <;> decide

theorem keeps_step {m m' : Manager} {partition id content : String}
    (happ : partition ∈ [partitionProvenance, partitionQuarantine, partitionEvidence])
    (hf : PoliciesFixed m) (hs : Step sha256Hex m m')
    (h : ∃ e, m.entry partition id = some e ∧ e.content = content ∧
      e.contentHash = sha256Hex content ∧ e.id = id ∧ e.partition = partition) :
    ∃ e, m'.entry partition id = some e ∧ e.content = content ∧
      e.contentHash = sha256Hex content ∧ e.id = id ∧ e.partition = partition := by
  obtain ⟨e, he, hfields⟩ := h
  cases hs with
  | makeMap c => exact ⟨e, by rw [allocMetadata_entry]; exact he, hfields⟩
  | write p' id' c' md _ =>
    by_cases hslot : partition = p' ∧ id = id'
    · obtain ⟨rfl, rfl⟩ := hslot
      rw [hf.write_occupied happ he c' md]
      exact ⟨e, he, hfields⟩
    rcases write_effect sha256Hex m p' id' c' md with ⟨err, hw⟩ | ⟨p, hp, -, hw⟩ <;> rw [hw]
    · exact ⟨e, he, hfields⟩
    · refine ⟨e, ?_, hfields⟩
      rw [entry_setEntry (by rw [metadataRef_partitions, hp]), if_neg hslot, metadataRef_entry]
      exact he
  | promote _ id' r res h =>
    rcases promote_effect h with rfl | ⟨q, -, hq, -, -, -, hent, -⟩
    · exact ⟨e, he, hfields⟩
    rw [hent, if_neg fun h => ne_durable_of_appendOnly happ h.1]
    split_ifs with hQ
    · obtain ⟨rfl, rfl⟩ := hQ
      obtain rfl : q = e := Option.some.inj (hq.symm.trans he)
      exact ⟨_, rfl, hfields⟩
    · exact ⟨e, he, hfields⟩

/-- After a successful `Write(partition, id, content, …)` to an append-only
partition of a reachable state, every state a client reaches keeps that entry's
content, hash, id and partition, and every later `Write` to the slot fails with
`AppendOnly` and leaves the whole state unchanged. -/
theorem appendOnly_write_persists {m₀ m₂ : Manager} {partition id content : String}
    {md : Option Nat} (happ : partition ∈ [partitionProvenance, partitionQuarantine, partitionEvidence])
    (h₀ : Reachable sha256Hex m₀) (hw : (m₀.write sha256Hex partition id content md).1 = .ok ())
    (h₂ : Relation.ReflTransGen (Step sha256Hex) (m₀.write sha256Hex partition id content md).2 m₂) :
    (∃ e, m₂.entry partition id = some e ∧ e.content = content ∧
      e.contentHash = sha256Hex content ∧ e.id = id ∧ e.partition = partition) ∧
    ∀ content' md', m₂.write sha256Hex partition id content' md' =
      (.error (.appendOnly partition id), m₂) := by
  have hf₀ := h₀.inv.policies
  have key : PoliciesFixed m₂ ∧ ∃ e, m₂.entry partition id = some e ∧ e.content = content ∧
      e.contentHash = sha256Hex content ∧ e.id = id ∧ e.partition = partition := by
    induction h₂ with
    | refl => exact ⟨hf₀.write partition id content md, _, write_ok_entry sha256Hex hw, rfl, rfl, rfl, rfl⟩
    | tail _ hs ih => exact ⟨ih.1.step hs, keeps_step happ ih.1 hs ih.2⟩
  obtain ⟨hf₂, e, he, hfields⟩ := key
  exact ⟨⟨e, he, hfields⟩, fun c' md' => hf₂.write_occupied happ he c' md'⟩

/-- In every state a client reaches: no `Read` of quarantine succeeds;
`PromoteFromQuarantine` never panics; every stored entry's hash is the hash of
its content and its map is non-nil; a successful `Write` stores an unverified
entry; and a verified durable entry mirrors a verified quarantine entry with
the same content and hash, sharing its map, which holds a non-empty
`verification_record`. -/
theorem reachable_memory_safe {m : Manager} (h : Reachable sha256Hex m) :
    (∀ id, m.read partitionQuarantine id = .error (.writeOnly partitionQuarantine)) ∧
    (∀ id r, (m.promoteFromQuarantine id r).isSome) ∧
    (∀ name id e, m.entry name id = some e →
      e.contentHash = sha256Hex e.content ∧ e.metadata.isSome) ∧
    (∀ partition id content md, (m.write sha256Hex partition id content md).1 = .ok () →
      ∃ e, (m.write sha256Hex partition id content md).2.entry partition id = some e ∧
        e.verified = false ∧ e.content = content ∧ e.contentHash = sha256Hex content) ∧
    (∀ id e, m.entry partitionDurable id = some e → e.verified → Promoted m id e) := by
  have hi := h.inv
  refine ⟨hi.policies.read_quarantine, hi.promote_isSome, fun name id e he => ?_,
    fun _ _ _ _ hw => ⟨_, write_ok_entry sha256Hex hw, rfl, rfl, rfl⟩, hi.promoted⟩
  obtain ⟨-, -, hh, ref, hm, -⟩ := hi.stored name id e he
  exact ⟨hh, by simp [hm]⟩

end

/-- `a` written to `quarantine` with a nil map, then promoted with record `r1`. -/
theorem reachable_memory_safe_promoted :
    ∃ m, (newManager.write (fun s => s) partitionQuarantine "a" "x" none).2.promoteFromQuarantine "a" "r1" =
        some (.ok (), m) ∧ (∃ e, m.entry partitionDurable "a" = some e ∧ e.verified = true) ∧
      (∀ id, m.read partitionQuarantine id = .error (.writeOnly partitionQuarantine)) ∧
      (∀ id r, (m.promoteFromQuarantine id r).isSome) ∧
      (∀ name id e, m.entry name id = some e → e.contentHash = e.content ∧ e.metadata.isSome) ∧
      (∀ partition id content md, (m.write (fun s => s) partition id content md).1 = .ok () →
        ∃ e, (m.write (fun s => s) partition id content md).2.entry partition id = some e ∧
          e.verified = false ∧ e.content = content ∧ e.contentHash = content) ∧
      (∀ id e, m.entry partitionDurable id = some e → e.verified → Promoted m id e) :=
  ⟨_, rfl, ⟨_, rfl, rfl⟩, @reachable_memory_safe (fun s => s) _
    (.tail (.tail .refl (.write _ partitionQuarantine "a" "x" none (by simp))) (.promote _ _ "a" "r1" _ rfl))⟩

/-- The write of the code's own test: `event_1` to `provenance`. -/
theorem appendOnly_write_persists_provenance :
    (∃ e, (newManager.write (fun s => s) partitionProvenance "event_1" "first write" none).2.entry
        partitionProvenance "event_1" = some e ∧ e.content = "first write" ∧
      e.contentHash = "first write" ∧ e.id = "event_1" ∧ e.partition = partitionProvenance) ∧
    ∀ content' md',
      (newManager.write (fun s => s) partitionProvenance "event_1" "first write" none).2.write
          (fun s => s) partitionProvenance "event_1" content' md' =
        (.error (.appendOnly partitionProvenance "event_1"),
          (newManager.write (fun s => s) partitionProvenance "event_1" "first write" none).2) :=
  @appendOnly_write_persists (fun s => s) newManager _ partitionProvenance "event_1" "first write" none
    (by simp) .refl rfl .refl

/-- A client builds one map and passes it to `Write` for two quarantine entries. -/
def sharedMetadataSetup (sha256Hex : String → String) : Manager :=
  let (md, m) := newManager.allocMetadata []
  let m := (m.write sha256Hex partitionQuarantine "a" "x" (some md)).2
  (m.write sha256Hex partitionQuarantine "b" "y" (some md)).2

/-- `verification_record` in the map of the durable entry at `id`. -/
def Manager.durableRecord (m : Manager) (id : String) : Option Value :=
  (m.entry partitionDurable id).bind fun e =>
    e.metadata.bind fun ref => (m.metadata ref).lookup "verification_record"

/-- Promoting `b` rewrites the record of the durable entry `a`: after
`PromoteFromQuarantine("a", "r1")` the durable `a` is verified and shows `r1`;
`PromoteFromQuarantine("b", "r2")` leaves that entry in place, and it then
shows `r2`. -/
theorem promote_rewrites_other_record (sha256Hex : String → String) :
    Reachable sha256Hex (sharedMetadataSetup sha256Hex) ∧
    ∃ m₄ m₅ e, (sharedMetadataSetup sha256Hex).promoteFromQuarantine "a" "r1" = some (.ok (), m₄) ∧
      m₄.promoteFromQuarantine "b" "r2" = some (.ok (), m₅) ∧
      m₄.entry partitionDurable "a" = some e ∧ m₅.entry partitionDurable "a" = some e ∧
      e.verified = true ∧
      m₄.durableRecord "a" = some (.str "r1") ∧ m₅.durableRecord "a" = some (.str "r2") :=
  ⟨.tail (.tail (.tail .refl (.makeMap _ [])) (.write _ _ _ _ (some 0) (by simp [newManager])))
      (.write _ _ _ _ (some 0) (by simp only [Option.mem_def, Option.some.injEq, forall_eq']; exact Nat.one_pos)),
    _, _, _, rfl, rfl, rfl, rfl, rfl, rfl, rfl⟩

end OI.Memory
