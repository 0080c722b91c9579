import OiCorridor.Spec.Memory

/-! Runs of the memory manager. A client makes maps and calls `Write` and
`PromoteFromQuarantine` in any order with any arguments; `Read` changes nothing,
so it is a query on the state reached. Each operation has one lemma saying
everything it can do to the state, and every invariant below is derived from
those lemmas. -/

set_option autoImplicit false

namespace OI.Memory

open Manager

section
variable (sha256Hex : String → String)

/-- One call of a client. `makeMap` is the client building a map it may pass to
`Write`; a map passed to `Write` exists, so its address is below `nextMetadata`.
A call that panics has no successor state. -/
inductive Step : Manager → Manager → Prop
  | makeMap (m : Manager) (contents : GoMap) : Step m (m.allocMetadata contents).2
  | write (m : Manager) (partition id content : String) (metadata : Option Nat)
      (h : ∀ ref ∈ metadata, ref < m.nextMetadata) :
      Step m (m.write sha256Hex partition id content metadata).2
  | promote (m m' : Manager) (id verificationRecord : String) (res : Except MemoryError Unit)
      (h : m.promoteFromQuarantine id verificationRecord = some (res, m')) : Step m m'

/-- The states a client reaches from `NewManager`. -/
def Reachable (m : Manager) : Prop := Relation.ReflTransGen (Step sha256Hex) newManager m

theorem partitionDurable_ne_quarantine : partitionDurable ≠ partitionQuarantine := by decide

theorem write_effect (m : Manager) (partition id content : String) (md : Option Nat) :
    (∃ err, m.write sha256Hex partition id content md = (.error err, m)) ∨
    ∃ p, m.partitions partition = some p ∧ ¬ (p.policy.appendOnly ∧ (p.entries id).isSome) ∧
      m.write sha256Hex partition id content md =
        (.ok (), (m.metadataRef md).2.setEntry partition p id
          ⟨id, partition, content, sha256Hex content, some (m.metadataRef md).1, currentTimestamp,
            false⟩) := by
  unfold Manager.write
  rcases m.partitions partition with _ | p
  · exact .inl ⟨_, rfl⟩
  · dsimp only
    split_ifs with hw ha
    · exact .inl ⟨_, rfl⟩
    · exact .inl ⟨_, rfl⟩
    · exact .inr ⟨p, rfl, ha, rfl⟩

theorem write_ok_entry {m : Manager} {partition id content : String} {md : Option Nat}
    (hw : (m.write sha256Hex partition id content md).1 = .ok ()) :
    (m.write sha256Hex partition id content md).2.entry partition id =
      some ⟨id, partition, content, sha256Hex content, some (m.metadataRef md).1, currentTimestamp,
        false⟩ := by
  rcases write_effect sha256Hex m partition id content md with ⟨err, h⟩ | ⟨p, hp, -, h⟩ <;>
    rw [h] at hw ⊢
  · cases hw
  · rw [entry_setEntry (by rw [metadataRef_partitions, hp]), if_pos ⟨rfl, rfl⟩]

theorem promote_effect {m m' : Manager} {id r : String} {res : Except MemoryError Unit}
    (h : m.promoteFromQuarantine id r = some (res, m')) :
    m' = m ∨ ∃ e ref, m.entry partitionQuarantine id = some e ∧ r ≠ "" ∧ e.metadata = some ref ∧
      res = .ok () ∧
      (∀ n i, m'.entry n i =
        if n = partitionDurable ∧ i = id then
          some ⟨e.id, partitionDurable, e.content, e.contentHash, e.metadata, currentTimestamp, true⟩
        else if n = partitionQuarantine ∧ i = id then some { e with verified := true }
        else m.entry n i) ∧
      (∀ n, (m'.partitions n).map Partition.policy = (m.partitions n).map Partition.policy) ∧
      m'.metadata = Function.update m.metadata ref
        (GoMap.assign (m.metadata ref) "verification_record" (.str r)) ∧
      m'.nextMetadata = m.nextMetadata := by
  unfold Manager.promoteFromQuarantine at h
  split at h
  · cases h
  rename_i q hq
  split at h
  · exact .inl (Prod.mk.inj (Option.some.inj h)).2.symm
  rename_i e he
  split_ifs at h with hr
  · exact .inl (Prod.mk.inj (Option.some.inj h)).2.symm
  split at h
  · cases h
  rename_i ref hm
  obtain ⟨d, hd, hfd⟩ := Option.map_eq_some'.mp h
  obtain ⟨rfl, rfl⟩ := Prod.mk.inj hfd
  have hd' : m.partitions partitionDurable = some d :=
    (@partitions_setEntry m _ q id { e with verified := true } _
      partitionDurable_ne_quarantine).symm.trans hd
  refine .inr ⟨e, ref, by simp [Manager.entry, hq, he], hr, hm, rfl, fun n i => ?_, fun n => ?_, rfl, rfl⟩
  · rw [entry_setEntry hd]
    split_ifs with h₁ h₂
    · rfl
    · exact (entry_setEntry hq id _ n i).trans (if_pos h₂)
    · exact (entry_setEntry hq id _ n i).trans (if_neg h₂)
  · exact (policy_setEntry hd id _ n).trans (policy_setEntry hq id _ n)

/-- The partitions and policies `NewManager` set up. -/
def PoliciesFixed (m : Manager) : Prop :=
  ∀ name, (m.partitions name).map Partition.policy = defaultPolicies.lookup name

/-- What every stored entry satisfies: it sits under its own id and partition,
its hash is the hash of its content, and it points to a map that exists. -/
structure StoredWell (m : Manager) (name id : String) (e : Entry) : Prop where
  id_eq : e.id = id
  partition_eq : e.partition = name
  hash : e.contentHash = sha256Hex e.content
  metadata : ∃ ref, e.metadata = some ref ∧ ref < m.nextMetadata

/-- A verified durable entry at `id` mirrors a verified quarantine entry at `id`
and points to a map that holds a non-empty `verification_record`. -/
def Promoted (m : Manager) (id : String) (e : Entry) : Prop :=
  ∃ q, m.entry partitionQuarantine id = some q ∧ q.verified ∧ q.content = e.content ∧
    q.contentHash = e.contentHash ∧ q.metadata = e.metadata ∧
    ∃ ref r, e.metadata = some ref ∧ r ≠ "" ∧
      (m.metadata ref).lookup "verification_record" = some (.str r)

/-- The invariant of every reachable state. -/
structure Inv (m : Manager) : Prop where
  policies : PoliciesFixed m
  stored : ∀ name id e, m.entry name id = some e → StoredWell sha256Hex m name id e
  promoted : ∀ id e, m.entry partitionDurable id = some e → e.verified → Promoted m id e

variable {sha256Hex}

theorem StoredWell.mono {m m' : Manager} {name id : String} {e : Entry}
    (h : StoredWell sha256Hex m name id e) (hle : m.nextMetadata ≤ m'.nextMetadata) :
    StoredWell sha256Hex m' name id e :=
  let ⟨h₁, h₂, h₃, ref, hr, hlt⟩ := h
  ⟨h₁, h₂, h₃, ref, hr, Nat.lt_of_lt_of_le hlt hle⟩

theorem PoliciesFixed.policy_eq {m : Manager} (hf : PoliciesFixed m) {name : String}
    {p : Partition} (hp : m.partitions name = some p) : defaultPolicies.lookup name = some p.policy := by
  simpa [hp] using (hf name).symm

theorem appendOnly_policy {name : String}
    (h : name ∈ [partitionProvenance, partitionQuarantine, partitionEvidence]) :
    ∃ pol, defaultPolicies.lookup name = some pol ∧ pol.allowWrite = true ∧ pol.appendOnly = true := by
  simp only [List.mem_cons, List.mem_singleton, List.not_mem_nil, or_false] at h
  rcases h with rfl | rfl | rfl <;> exact ⟨_, rfl, rfl, rfl⟩

theorem PoliciesFixed.write_occupied {m : Manager} (hf : PoliciesFixed m) {name id : String}
    {e : Entry} (happ : name ∈ [partitionProvenance, partitionQuarantine, partitionEvidence])
    (he : m.entry name id = some e) (content : String) (md : Option Nat) :
    m.write sha256Hex name id content md = (.error (.appendOnly name id), m) := by
  obtain ⟨p, hp, hpe⟩ := Option.bind_eq_some.mp he
  obtain ⟨pol, hpol, hw, ha⟩ := appendOnly_policy happ
  obtain rfl : p.policy = pol := Option.some.inj ((hf.policy_eq hp).symm.trans hpol)
  simp [Manager.write, hp, hpe, hw, ha]

theorem PoliciesFixed.write {m : Manager} (hf : PoliciesFixed m) (partition id content : String)
    (md : Option Nat) : PoliciesFixed (m.write sha256Hex partition id content md).2 := by
  rcases write_effect sha256Hex m partition id content md with ⟨err, h⟩ | ⟨p, hp, -, hw⟩
  · rwa [h]
  intro n
  rw [hw, policy_setEntry (by rw [metadataRef_partitions, hp]), metadataRef_partitions]
  exact hf n

theorem PoliciesFixed.step {m m' : Manager} (hf : PoliciesFixed m) (h : Step sha256Hex m m') :
    PoliciesFixed m' := by
  cases h with
  | makeMap c => exact hf
  | write partition id content md _ => exact hf.write partition id content md
  | promote _ id r res h =>
    rcases promote_effect h with rfl | ⟨-, -, -, -, -, -, -, hpol, -⟩
    · exact hf
    · exact fun n => (hpol n).trans (hf n)

theorem newManager_entry (name id : String) : newManager.entry name id = none := by
  cases h : defaultPolicies.lookup name <;> simp [newManager, Manager.entry, h]

theorem newManager_inv : Inv sha256Hex newManager where
  policies name := by simp [newManager, Option.map_map, Function.comp_def]
  stored name id e h := by simp [newManager_entry] at h
  promoted id e h := by simp [newManager_entry] at h

theorem Inv.makeMap {m : Manager} (hi : Inv sha256Hex m) (c : GoMap) :
    Inv sha256Hex (m.allocMetadata c).2 where
  policies := by simpa using hi.policies
  stored n i e he := (hi.stored n i e he).mono (Nat.le_succ _)
  promoted i e he hv := by
    obtain ⟨q, hq, hqv, hc, hh, hmd, ref, r, hr, hne, hl⟩ := hi.promoted i e he hv
    obtain ⟨-, -, -, ref', hr', hlt⟩ := hi.stored _ _ _ he
    obtain rfl : ref' = ref := Option.some.inj (hr'.symm.trans hr)
    exact ⟨q, hq, hqv, hc, hh, hmd, ref', r, hr, hne, by rw [allocMetadata_metadata_of_lt _ _ hlt, hl]⟩

theorem Inv.write {m : Manager} (hi : Inv sha256Hex m) (partition id content : String)
    {md : Option Nat} (hmd : ∀ ref ∈ md, ref < m.nextMetadata) :
    Inv sha256Hex (m.write sha256Hex partition id content md).2 := by
  have hf : PoliciesFixed (m.write sha256Hex partition id content md).2 :=
    hi.policies.write partition id content md
  rcases write_effect sha256Hex m partition id content md with ⟨err, h⟩ | ⟨p, hp, hnot, hw⟩
  · rwa [h]
  rw [hw] at hf ⊢
  have hp' : (m.metadataRef md).2.partitions partition = some p := by rw [metadataRef_partitions, hp]
  refine ⟨hf, fun n i e he => ?_, fun i e he hv => ?_⟩
  · rw [entry_setEntry hp', metadataRef_entry] at he
    split_ifs at he with hni
    · obtain ⟨rfl, rfl⟩ := hni
      cases he
      exact ⟨rfl, rfl, rfl, _, rfl, metadataRef_lt m hmd⟩
    · exact (hi.stored n i e he).mono (le_metadataRef_nextMetadata m md)
  · rw [entry_setEntry hp', metadataRef_entry] at he
    split_ifs at he with hni
    · cases he
      cases hv
    obtain ⟨q, hq, hqv, hc, hh, hmd', ref, r, hr, hne, hl⟩ := hi.promoted i e he hv
    obtain ⟨-, -, -, ref', hr', hlt⟩ := hi.stored _ _ _ he
    obtain rfl : ref' = ref := Option.some.inj (hr'.symm.trans hr)
    refine ⟨q, ?_, hqv, hc, hh, hmd', ref', r, hr, hne, ?_⟩
    · rw [entry_setEntry hp', metadataRef_entry, if_neg]
      · exact hq
      rintro ⟨rfl, rfl⟩
      have hocc := @PoliciesFixed.write_occupied sha256Hex _ hi.policies _ _ _ (by simp) hq content md
      rw [hw] at hocc
      cases congrArg Prod.fst hocc
    · rw [setEntry_metadata, metadataRef_metadata_of_lt _ _ hlt, hl]

theorem Inv.promote {m m' : Manager} (hi : Inv sha256Hex m) {id r : String}
    {res : Except MemoryError Unit} (h : m.promoteFromQuarantine id r = some (res, m')) :
    Inv sha256Hex m' := by
  rcases promote_effect h with rfl | ⟨e, ref, he, hr, hm, -, hent, hpol, hmeta, hnext⟩
  · exact hi
  have hf : PoliciesFixed m' := fun n => (hpol n).trans (hi.policies n)
  have hwell := hi.stored _ _ _ he
  have hmeta' : ∃ ref, e.metadata = some ref ∧ ref < m'.nextMetadata := hnext ▸ hwell.metadata
  refine ⟨hf, fun n i e' he' => ?_, fun i e' he' hv => ?_⟩
  · rw [hent] at he'
    split_ifs at he' with h₁ h₂
    · obtain ⟨rfl, rfl⟩ := h₁
      cases he'
      exact ⟨hwell.id_eq, rfl, hwell.hash, hmeta'⟩
    · obtain ⟨rfl, rfl⟩ := h₂
      cases he'
      exact ⟨hwell.id_eq, hwell.partition_eq, hwell.hash, hmeta'⟩
    · exact (hi.stored n i e' he').mono hnext.ge
  have hQD : ∀ i', ¬ (partitionQuarantine = partitionDurable ∧ i' = id) :=
    fun _ h => partitionDurable_ne_quarantine h.1.symm
  rw [hent] at he'
  split_ifs at he' with h₁ h₂
  · obtain ⟨-, rfl⟩ := h₁
    cases he'
    refine ⟨{ e with verified := true }, ?_, rfl, rfl, rfl, rfl, ref, r, hm, hr, by simp [hmeta]⟩
    rw [hent, if_neg (hQD _), if_pos ⟨rfl, rfl⟩]
  · exact absurd h₂.1 partitionDurable_ne_quarantine
  · obtain ⟨q, hq, hqv, hc, hh, hmd', ref', r', hr', hne', hl'⟩ := hi.promoted i e' he' hv
    refine ⟨q, ?_, hqv, hc, hh, hmd', ref', ?_⟩
    · rw [hent, if_neg (hQD _), if_neg fun h => h₁ ⟨rfl, h.2⟩]
      exact hq
    · rw [hmeta]
      by_cases hrr : ref' = ref
      · subst hrr
        exact ⟨r, hr', hr, by simp⟩
      · exact ⟨r', hr', hne', by rw [Function.update_noteq hrr]; exact hl'⟩

theorem Inv.step {m m' : Manager} (hi : Inv sha256Hex m) (h : Step sha256Hex m m') :
    Inv sha256Hex m' := by
  cases h with
  | makeMap c => exact hi.makeMap c
  | write partition id content md hmd => exact hi.write partition id content hmd
  | promote _ id r res h => exact hi.promote h

theorem Reachable.inv {m : Manager} (h : Reachable sha256Hex m) : Inv sha256Hex m := by
  induction h with
  | refl => exact newManager_inv
  | tail _ hs ih => exact ih.step hs

end

end OI.Memory
