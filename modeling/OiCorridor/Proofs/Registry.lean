import OiCorridor.Spec.Adapters

/-! `Registry.Invoke` against mock adapters. It appends exactly one invocation,
carrying the token's digest, to the adapter filed under the requested name
exactly when that name is registered and the token is present, unrevoked,
unexpired, within its posture bounds and scoped for the name or `"*"`.
Otherwise it returns an error and the registry is as it was. -/

set_option autoImplicit false

namespace OI

/-- What `Registry.Invoke` needs before it reaches the adapter. -/
def Admits (r : Registry) (n : String) (token : Option Token) (p now : Int) : Prop :=
  n ∈ r.adapters ∧ ∃ t, token = some t ∧ t.revokedAt = none ∧ now ≤ t.expiresAt ∧
    t.postureBounds.minPosture ≤ p ∧ p ≤ t.postureBounds.maxPosture ∧ (n ∈ t.scope ∨ "*" ∈ t.scope)

namespace Registry

variable (r : Registry) (n : String) (token : Option Token) (p : Int) (params : GoMap) (now : Int)

/-- The invocation `Invoke` records for token `t` on adapter `a`. -/
def recorded (a : MockAdapter) (t : Token) : MockAdapter :=
  { a with invocations := a.invocations ++ [⟨t.digest, params, a.result⟩] }

theorem invoke_of_lookup_none (h : r.adapters.lookup n = none) :
    r.invoke n token p params now = (.error (.notFound n), r) := by
  simp [invoke, get, h]

theorem invoke_of_verifyToken_error {a : MockAdapter} {e : AdapterError}
    (ha : r.adapters.lookup n = some a) (hv : a.verifyToken token p now = .error e) :
    r.invoke n token p params now = (.error (.verification e), r) := by
  simp [invoke, get, ha, hv]

theorem invoke_of_verifyToken_ok {a : MockAdapter} {t : Token}
    (ha : r.adapters.lookup n = some a) (hv : a.verifyToken (some t) p now = .ok ()) :
    r.invoke n (some t) p params now = (.ok a.result, r.put (recorded params a t)) := by
  simp [invoke, get, ha, hv, MockAdapter.invoke, recorded, Except.mapError]

/-- The invocations recorded on the adapter filed under `m`, none if there is no such adapter. -/
def invocationsOf (m : String) : List Invocation :=
  match r.adapters.lookup m with
  | some a => a.invocations
  | none => []

theorem invocationsOf_put_recorded {a : MockAdapter} (ha : r.adapters.lookup n = some a) (t : Token)
    (m : String) :
    (r.put (recorded params a t)).invocationsOf m =
      if m = n then r.invocationsOf m ++ [⟨t.digest, params, a.result⟩] else r.invocationsOf m := by
  have hn := r.named n a ha
  unfold invocationsOf
  rw [lookup_put]
  by_cases hm : m = n
  · subst hm; simp [recorded, hn, ha]
  · simp [recorded, hn, hm]

theorem invoke_some_cases (t : Token) :
    (∃ a, r.adapters.lookup n = some a ∧
      r.invoke n (some t) p params now = (.ok a.result, r.put (recorded params a t))) ∨
    ∃ e, r.invoke n (some t) p params now = (.error e, r) := by
  rcases ha : r.adapters.lookup n with _ | a
  · exact .inr ⟨_, invoke_of_lookup_none r n _ p params now ha⟩
  · rcases hv : a.verifyToken (some t) p now with e | ⟨⟩
    · exact .inr ⟨_, invoke_of_verifyToken_error r n _ p params now ha hv⟩
    · exact .inl ⟨a, rfl, invoke_of_verifyToken_ok r n p params now ha hv⟩

/-- When `Admits` holds, `Invoke` returns the adapter's result and records one
invocation with the token's digest on adapter `n`; otherwise it returns an
error and changes nothing. -/
theorem invoke_records_iff_admits :
    (Admits r n token p now → ∃ a t, r.adapters.lookup n = some a ∧ token = some t ∧
      r.invoke n token p params now = (.ok a.result, r.put (recorded params a t))) ∧
    (¬ Admits r n token p now → (∃ e, (r.invoke n token p params now).1 = .error e) ∧
      (r.invoke n token p params now).2 = r) := by
  constructor
  · rintro ⟨hn, t, rfl, hr, he, hmin, hmax, hs⟩
    obtain ⟨a, ha⟩ := Option.isSome_iff_exists.mp (AList.lookup_isSome.mpr hn)
    have hv : a.verifyToken (some t) p now = .ok () := by
      rw [MockAdapter.verifyToken_eq_ok_iff, r.named n a ha]
      exact ⟨t, rfl, (Token.verify_eq_ok_iff t p now).mpr ⟨hr, he, hmin, hmax⟩, hs⟩
    exact ⟨a, t, ha, rfl, invoke_of_verifyToken_ok r n p params now ha hv⟩
  · intro hA
    rcases ha : r.adapters.lookup n with _ | a
    · simp [invoke_of_lookup_none r n token p params now ha]
    · rcases hv : a.verifyToken token p now with e | ⟨⟩
      · simp [invoke_of_verifyToken_error r n token p params now ha hv]
      · exfalso
        obtain ⟨t, rfl, hok, hs⟩ := (MockAdapter.verifyToken_eq_ok_iff a token p now).mp hv
        obtain ⟨hr, he, hmin, hmax⟩ := (Token.verify_eq_ok_iff t p now).mp hok
        rw [r.named n a ha] at hs
        exact hA ⟨AList.lookup_isSome.mp (by simp [ha]), t, rfl, hr, he, hmin, hmax, hs⟩

end Registry

end OI
