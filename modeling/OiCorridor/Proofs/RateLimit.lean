import Mathlib.Tactic.Linarith
import OiCorridor.Spec.RateLimit

/-! The token bucket's two laws, over every sequence of calls on any keys. Every
bucket holds between 0 and `cap` tokens. And for a key whose calls come at
non-decreasing times, at most `cap + (b - a) * refillPerMs` of its calls in a
window `[a, b]` get `true`: the bucket holds at most `cap` tokens when the window
opens and gains at most `refillPerMs` per millisecond inside it. The second law
is proved with `windowBound`, what the bucket can still grant inside the window,
which no call increases. The keys are independent: a call reads and writes its
own key's bucket only, so the calls on other keys change no answer on a key. -/

set_option autoImplicit false

namespace OI.Flourish

namespace RateLimiter

variable (rl : RateLimiter) (key : String) (now : Int)

theorem cap_nonneg : (0 : ℚ) ≤ rl.cap := by
  have := rl.cap_ge
  exact_mod_cast (by omega : (0 : Int) ≤ rl.cap)

theorem refillPerMs_nonneg : 0 ≤ rl.refillPerMs := by
  rw [rl.refillPerMs_eq]
  exact div_nonneg rl.cap_nonneg (by norm_num)

/-- The bucket `allow` holds after its refill, before it takes a token. -/
def refilled : Bucket :=
  let b := (rl.map key).getD ⟨rl.cap, now⟩
  if now - b.lastMs > 0 then ⟨min (rl.cap : ℚ) (b.tokens + (now - b.lastMs : Int) * rl.refillPerMs), now⟩
  else b

theorem allow_eq : rl.allow key now =
    if 1 ≤ (rl.refilled key now).tokens then
      (true, { rl with
        map := Function.update rl.map key
          (some ⟨(rl.refilled key now).tokens - 1, (rl.refilled key now).lastMs⟩) })
    else (false, { rl with map := Function.update rl.map key (some (rl.refilled key now)) }) :=
  rfl

@[simp] theorem allow_cap : (rl.allow key now).2.cap = rl.cap := by
  rw [allow_eq]; split_ifs <;> rfl

@[simp] theorem allow_refillPerMs : (rl.allow key now).2.refillPerMs = rl.refillPerMs := by
  rw [allow_eq]; split_ifs <;> rfl

theorem allow_map_of_ne {k : String} (h : k ≠ key) : (rl.allow key now).2.map k = rl.map k := by
  rw [allow_eq]; split_ifs <;> exact Function.update_noteq h _ _

theorem allow_fst : (rl.allow key now).1 = decide (1 ≤ (rl.refilled key now).tokens) := by
  rw [allow_eq]; split_ifs with h <;> simp [h]

theorem allow_map_self : (rl.allow key now).2.map key =
    some ⟨(rl.refilled key now).tokens - if 1 ≤ (rl.refilled key now).tokens then 1 else 0,
      (rl.refilled key now).lastMs⟩ := by
  rw [allow_eq]; split_ifs <;> simp

/-- Every bucket holds between 0 and `cap` tokens. -/
def Valid : Prop := ∀ k b, rl.map k = some b → 0 ≤ b.tokens ∧ b.tokens ≤ rl.cap

variable {rl}

theorem refilled_mem_Icc (hv : rl.Valid) :
    0 ≤ (rl.refilled key now).tokens ∧ (rl.refilled key now).tokens ≤ rl.cap := by
  have hc := rl.cap_nonneg
  have hb : 0 ≤ ((rl.map key).getD ⟨rl.cap, now⟩).tokens ∧
      ((rl.map key).getD ⟨rl.cap, now⟩).tokens ≤ rl.cap := by
    cases h : rl.map key with
    | none => exact ⟨hc, le_rfl⟩
    | some b => exact hv key b h
  dsimp only [refilled]
  split_ifs with hdt
  · have : (0 : ℚ) ≤ ((now - ((rl.map key).getD ⟨rl.cap, now⟩).lastMs : Int) : ℚ) := by
      exact_mod_cast hdt.le
    exact ⟨le_min hc (add_nonneg hb.1 (mul_nonneg this rl.refillPerMs_nonneg)), min_le_left _ _⟩
  · exact hb

theorem refilled_of_none (h : rl.map key = none) : rl.refilled key now = ⟨rl.cap, now⟩ := by
  simp [refilled, h]

theorem refilled_of_some {bk : Bucket} (h : rl.map key = some bk) (hL : bk.lastMs ≤ now) :
    (rl.refilled key now).lastMs = now ∧
      (rl.refilled key now).tokens ≤ bk.tokens + ((now : ℚ) - bk.lastMs) * rl.refillPerMs := by
  simp only [refilled, h, Option.getD_some]
  split_ifs with hdt
  · exact ⟨rfl, by push_cast; exact min_le_right _ _⟩
  · have : bk.lastMs = now := by omega
    subst this
    simp

theorem allow_valid (hv : rl.Valid) : (rl.allow key now).2.Valid := by
  intro k b hb
  rw [allow_cap]
  by_cases hk : k = key
  · subst hk
    rw [allow_map_self, Option.some.injEq] at hb
    subst hb
    obtain ⟨h0, hcap⟩ := refilled_mem_Icc k now hv
    split_ifs with h1 <;> dsimp only <;> constructor <;> linarith
  · exact hv k b (by rwa [allow_map_of_ne _ _ _ hk] at hb)

theorem run_cons (c : String × Int) (calls : List (String × Int)) :
    rl.run (c :: calls) =
      ((rl.allow c.1 c.2).1 :: ((rl.allow c.1 c.2).2.run calls).1, ((rl.allow c.1 c.2).2.run calls).2) :=
  rfl

theorem run_valid (calls : List (String × Int)) (hv : rl.Valid) : (rl.run calls).2.Valid := by
  induction calls generalizing rl with
  | nil => exact hv
  | cons c calls ih => exact ih (allow_valid c.1 c.2 hv)

theorem run_cap (calls : List (String × Int)) : (rl.run calls).2.cap = rl.cap := by
  induction calls generalizing rl with
  | nil => rfl
  | cons c calls ih => rw [run_cons, ih, allow_cap]

theorem new_valid (rpm : Int) : (RateLimiter.new rpm).Valid := fun _ _ h => by cases h

/-! ### The window bound -/

section Window

variable (a b : Int)

/-- What the key's bucket can still grant in the window `[a, b]`: `cap` and the
whole window's refill while the window has not opened at its last refill, the
tokens and the rest of the window's refill inside it, nothing after it. -/
def windowBound (rl : RateLimiter) : ℚ :=
  match rl.map key with
  | none => rl.cap + ((b : ℚ) - a) * rl.refillPerMs
  | some bk =>
    if bk.lastMs < a then rl.cap + ((b : ℚ) - a) * rl.refillPerMs
    else if bk.lastMs ≤ b then bk.tokens + ((b : ℚ) - bk.lastMs) * rl.refillPerMs else 0

variable {key a b}

theorem windowBound_nonneg (hv : rl.Valid) (hab : a ≤ b) : 0 ≤ rl.windowBound key a b := by
  have hab' : (0 : ℚ) ≤ b - a := sub_nonneg.mpr (by exact_mod_cast hab)
  have hfull := add_nonneg rl.cap_nonneg (mul_nonneg hab' rl.refillPerMs_nonneg)
  unfold windowBound
  split
  · exact hfull
  · next bk h =>
    split_ifs with h1 h2
    · exact hfull
    · have : (0 : ℚ) ≤ b - bk.lastMs := sub_nonneg.mpr (by exact_mod_cast h2)
      exact add_nonneg (hv key bk h).1 (mul_nonneg this rl.refillPerMs_nonneg)
    · exact le_rfl

theorem windowBound_before {t : Int} (ht : t < a) (hL : ∀ bk, rl.map key = some bk → bk.lastMs ≤ t) :
    rl.windowBound key a b = rl.cap + ((b : ℚ) - a) * rl.refillPerMs := by
  unfold windowBound
  split
  · rfl
  · next bk h => rw [if_pos (by linarith [hL bk h])]

theorem refilled_le_windowBound (hv : rl.Valid) {t : Int} (hat : a ≤ t) (htb : t ≤ b)
    (hL : ∀ bk, rl.map key = some bk → bk.lastMs ≤ t) :
    (rl.refilled key t).tokens + ((b : ℚ) - t) * rl.refillPerMs ≤ rl.windowBound key a b := by
  have hr := rl.refillPerMs_nonneg
  have hfull : (rl.refilled key t).tokens + ((b : ℚ) - t) * rl.refillPerMs ≤
      rl.cap + ((b : ℚ) - a) * rl.refillPerMs :=
    add_le_add (refilled_mem_Icc key t hv).2
      (mul_le_mul_of_nonneg_right (by linarith [(Int.cast_le (R := ℚ)).mpr hat]) hr)
  unfold windowBound
  split
  · exact hfull
  · next bk h =>
    obtain ⟨-, hR⟩ := refilled_of_some key t h (hL bk h)
    split_ifs with h1 h2
    · exact hfull
    · linarith
    · exact absurd (hL bk h) (by omega)

theorem allow_windowBound (hv : rl.Valid) (hab : a ≤ b) {t : Int}
    (hL : ∀ bk, rl.map key = some bk → bk.lastMs ≤ t) :
    (if a ≤ t ∧ t ≤ b ∧ (rl.allow key t).1 = true then (1 : ℚ) else 0) +
        (rl.allow key t).2.windowBound key a b ≤ rl.windowBound key a b := by
  have hlast : (rl.refilled key t).lastMs = t := by
    cases h : rl.map key with
    | none => rw [refilled_of_none key t h]
    | some bk => exact (refilled_of_some key t h (hL bk h)).1
  have hafter : (rl.allow key t).2.windowBound key a b =
      if t < a then rl.cap + ((b : ℚ) - a) * rl.refillPerMs
      else if t ≤ b then ((rl.refilled key t).tokens - if 1 ≤ (rl.refilled key t).tokens then 1 else 0) +
        ((b : ℚ) - t) * rl.refillPerMs else 0 := by
    rw [windowBound, allow_map_self, hlast, allow_cap, allow_refillPerMs]
  rw [hafter, allow_fst]
  by_cases hta : t < a
  · rw [if_neg (fun h => absurd h.1 (by omega)), if_pos hta, zero_add, windowBound_before hta hL]
  · by_cases htb : t ≤ b
    · have := refilled_le_windowBound hv (show a ≤ t by omega) htb hL
      rw [if_neg hta, if_pos htb]
      by_cases h1 : 1 ≤ (rl.refilled key t).tokens
      · rw [if_pos ⟨by omega, htb, decide_eq_true h1⟩, if_pos h1]
        linarith
      · rw [if_neg (fun h => h1 (of_decide_eq_true h.2.2)), if_neg h1]
        linarith
    · rw [if_neg (fun h => htb h.2.1), if_neg hta, if_neg htb, zero_add]
      exact windowBound_nonneg hv hab

theorem windowBound_allow_of_ne {k : String} (h : key ≠ k) (t : Int) :
    (rl.allow k t).2.windowBound key a b = rl.windowBound key a b := by
  simp only [windowBound, allow_map_of_ne _ _ _ h, allow_cap, allow_refillPerMs]

end Window

theorem granted_cons (key : String) (a b : Int) (c : String × Int) (calls : List (String × Int))
    (ok : Bool) (oks : List Bool) :
    granted key a b (c :: calls) (ok :: oks) =
      (if c.1 = key ∧ a ≤ c.2 ∧ c.2 ≤ b ∧ ok = true then 1 else 0) + granted key a b calls oks := by
  unfold granted
  rw [List.zip_cons_cons, List.filter_cons]
  by_cases h : c.1 = key ∧ a ≤ c.2 ∧ c.2 ≤ b ∧ ok = true
  · rw [if_pos (decide_eq_true h), if_pos h, List.length_cons, Nat.add_comm]
  · rw [if_neg (fun h' => h (of_decide_eq_true h')), if_neg h, Nat.zero_add]

theorem callTimes_cons (key : String) (c : String × Int) (calls : List (String × Int)) :
    callTimes key (c :: calls) = if c.1 = key then c.2 :: callTimes key calls else callTimes key calls := by
  unfold callTimes
  rw [List.filter_cons]
  by_cases h : c.1 = key
  · rw [if_pos (decide_eq_true h), if_pos h, List.map_cons]
  · rw [if_neg (fun h' => h (of_decide_eq_true h')), if_neg h]

theorem run_granted_le {key : String} {a b : Int} (hab : a ≤ b) (calls : List (String × Int))
    (hv : rl.Valid) (hs : (callTimes key calls).Pairwise (· ≤ ·))
    (hf : ∀ bk, rl.map key = some bk → ∀ t ∈ callTimes key calls, bk.lastMs ≤ t) :
    (granted key a b calls (rl.run calls).1 : ℚ) ≤ rl.windowBound key a b := by
  induction calls generalizing rl with
  | nil => exact_mod_cast windowBound_nonneg hv hab
  | cons c calls ih =>
    obtain ⟨k, t⟩ := c
    rw [run_cons, granted_cons]
    push_cast
    by_cases hk : k = key
    · subst hk
      rw [callTimes_cons, if_pos rfl] at hs hf
      obtain ⟨hhead, htail⟩ := List.pairwise_cons.mp hs
      have hL : ∀ bk, rl.map k = some bk → bk.lastMs ≤ t := fun bk h => hf bk h t (.head _)
      have hlast : (rl.refilled k t).lastMs = t := by
        cases h : rl.map k with
        | none => rw [refilled_of_none k t h]
        | some bk => exact (refilled_of_some k t h (hL bk h)).1
      have hf' : ∀ bk, (rl.allow k t).2.map k = some bk → ∀ t' ∈ callTimes k calls, bk.lastMs ≤ t' := by
        intro bk h t' ht'
        rw [allow_map_self, Option.some.injEq] at h
        rw [← h, hlast]
        exact hhead t' ht'
      have := ih (allow_valid k t hv) htail hf'
      have hstep := allow_windowBound hv hab hL
      simp only [true_and] at hstep ⊢
      linarith
    · rw [callTimes_cons, if_neg hk] at hs hf
      rw [if_neg (fun h => hk h.1), zero_add, ← windowBound_allow_of_ne (Ne.symm hk) t]
      exact ih (allow_valid k t hv) hs (fun bk h => hf bk (by rwa [allow_map_of_ne _ _ _ (Ne.symm hk)] at h))

/-! ### Keys are independent -/

theorem refilled_congr (key : String) (now : Int) {rl₁ rl₂ : RateLimiter} (hc : rl₁.cap = rl₂.cap)
    (hm : rl₁.map key = rl₂.map key) : rl₁.refilled key now = rl₂.refilled key now := by
  unfold refilled
  rw [hm, rl₁.refillPerMs_eq, rl₂.refillPerMs_eq, hc]

theorem answersOn_cons (key : String) (c : String × Int) (calls : List (String × Int)) (ok : Bool)
    (oks : List Bool) :
    answersOn key (c :: calls) (ok :: oks) =
      if c.1 = key then ok :: answersOn key calls oks else answersOn key calls oks := by
  unfold answersOn
  rw [List.zip_cons_cons, List.filter_cons]
  by_cases h : c.1 = key
  · rw [if_pos (decide_eq_true h), if_pos h, List.map_cons]
  · rw [if_neg (fun h' => h (of_decide_eq_true h')), if_neg h]

end RateLimiter

/-- Calls on other keys change neither the answers to the calls on `key` nor its
bucket: from two limiters of one capacity that agree on the key's bucket, a run
answers the key's calls as the run of those calls alone does, and ends with the
same bucket for the key. -/
theorem run_isolates_keys (key : String) (calls : List (String × Int)) {rl₁ rl₂ : RateLimiter}
    (hc : rl₁.cap = rl₂.cap) (hm : rl₁.map key = rl₂.map key) :
    answersOn key calls (rl₁.run calls).1 = (rl₂.run (calls.filter (·.1 = key))).1 ∧
      (rl₁.run calls).2.map key = (rl₂.run (calls.filter (·.1 = key))).2.map key := by
  induction calls generalizing rl₁ rl₂ with
  | nil => exact ⟨rfl, hm⟩
  | cons c calls ih =>
    obtain ⟨k, t⟩ := c
    rw [RateLimiter.run_cons, RateLimiter.answersOn_cons, List.filter_cons]
    by_cases hk : k = key
    · subst hk
      have hr := RateLimiter.refilled_congr k t hc hm
      rw [if_pos rfl, if_pos (decide_eq_true rfl), RateLimiter.run_cons, RateLimiter.allow_fst,
        RateLimiter.allow_fst, hr]
      obtain ⟨h₁, h₂⟩ := @ih (rl₁.allow k t).2 (rl₂.allow k t).2
        (by rw [RateLimiter.allow_cap, RateLimiter.allow_cap, hc])
        (by rw [RateLimiter.allow_map_self, RateLimiter.allow_map_self, hr])
      exact ⟨congrArg _ h₁, h₂⟩
    · rw [if_neg hk, if_neg (fun h => hk (of_decide_eq_true h))]
      exact @ih (rl₁.allow k t).2 rl₂ (by rw [RateLimiter.allow_cap, hc])
        (by rw [RateLimiter.allow_map_of_ne _ _ _ (Ne.symm hk), hm])

theorem run_isolates_keys_new :
    (RateLimiter.new 30).cap = (RateLimiter.new 30).cap ∧
      (RateLimiter.new 30).map "k" = (RateLimiter.new 30).map "k" ∧
      answersOn "k" [("j", 0), ("k", 0)] ((RateLimiter.new 30).run [("j", 0), ("k", 0)]).1 =
        ((RateLimiter.new 30).run ([("j", 0), ("k", 0)].filter (·.1 = "k"))).1 ∧
      ((RateLimiter.new 30).run [("j", 0), ("k", 0)]).2.map "k" =
        ((RateLimiter.new 30).run ([("j", 0), ("k", 0)].filter (·.1 = "k"))).2.map "k" :=
  ⟨rfl, rfl, run_isolates_keys "k" [("j", 0), ("k", 0)] rfl rfl⟩

theorem rateLimiter_bounds (rpm : Int) (calls : List (String × Int)) (key : String)
    (hsorted : (callTimes key calls).Pairwise (· ≤ ·)) (a b : Int) (hab : a ≤ b) :
    (∀ k bk, ((RateLimiter.new rpm).run calls).2.map k = some bk →
      0 ≤ bk.tokens ∧ bk.tokens ≤ ((max 5 rpm : Int) : ℚ)) ∧
    (granted key a b calls ((RateLimiter.new rpm).run calls).1 : ℚ) ≤
      ((max 5 rpm : Int) : ℚ) + ((b : ℚ) - a) * ((max 5 rpm : Int) : ℚ) / 60000 := by
  refine ⟨fun k bk h => ?_, ?_⟩
  · have := RateLimiter.run_valid calls (RateLimiter.new_valid rpm) k bk h
    rwa [RateLimiter.run_cap] at this
  · have := RateLimiter.run_granted_le hab calls (RateLimiter.new_valid rpm) hsorted (fun _ h => by cases h)
    rw [mul_div_assoc]
    exact this

theorem rateLimiter_bounds_burst :
    (callTimes "k" [("k", 0), ("k", 0), ("k", 1000)]).Pairwise (· ≤ ·) ∧ (0 : Int) ≤ 1000 ∧
      (∀ k bk, ((RateLimiter.new 30).run [("k", 0), ("k", 0), ("k", 1000)]).2.map k = some bk →
        0 ≤ bk.tokens ∧ bk.tokens ≤ ((max 5 30 : Int) : ℚ)) ∧
      (granted "k" 0 1000 [("k", 0), ("k", 0), ("k", 1000)]
          ((RateLimiter.new 30).run [("k", 0), ("k", 0), ("k", 1000)]).1 : ℚ) ≤
        ((max 5 30 : Int) : ℚ) + (((1000 : Int) : ℚ) - (0 : Int)) * ((max 5 30 : Int) : ℚ) / 60000 :=
  ⟨by decide, by decide, rateLimiter_bounds 30 _ "k" (by decide) 0 1000 (by decide)⟩

end OI.Flourish
