import Mathlib.Algebra.Order.Field.Rat

/-! `Flourish.RateLimiter`, a token bucket per key (`route|ip` in `App.rateOk`).
The bucket's arithmetic is over exact rationals where Java uses `double`, and
`allow` takes the clock value `System.currentTimeMillis()` returns as `now`.
Each call runs under its bucket's lock, so a run of the limiter is a sequence of
calls, each with its key and the clock value it read. -/

set_option autoImplicit false

namespace OI.Flourish

/-- `RateLimiter.Bucket`. -/
structure Bucket where
  tokens : ℚ
  lastMs : Int
  deriving DecidableEq, Repr

/-- `RateLimiter`: the capacity and refill rate its constructor fixes, and the
bucket map. -/
structure RateLimiter where
  cap : Int
  refillPerMs : ℚ
  map : String → Option Bucket
  cap_ge : 5 ≤ cap
  refillPerMs_eq : refillPerMs = (cap : ℚ) / 60000

/-- `new RateLimiter(rpm)`. -/
def RateLimiter.new (rpm : Int) : RateLimiter where
  cap := max 5 rpm
  refillPerMs := ((max 5 rpm : Int) : ℚ) / 60000
  map := fun _ => none
  cap_ge := le_max_left 5 rpm
  refillPerMs_eq := rfl

/-- `allow(key)` at clock value `now`: the answer, and the limiter after it. -/
def RateLimiter.allow (rl : RateLimiter) (key : String) (now : Int) : Bool × RateLimiter :=
  let b := (rl.map key).getD ⟨rl.cap, now⟩
  let dt := now - b.lastMs
  let b : Bucket := if dt > 0 then ⟨min (rl.cap : ℚ) (b.tokens + dt * rl.refillPerMs), now⟩ else b
  if b.tokens ≥ 1 then (true, { rl with map := Function.update rl.map key (some ⟨b.tokens - 1, b.lastMs⟩) })
  else (false, { rl with map := Function.update rl.map key (some b) })

/-- The answers to `allow` calls, each a key and its clock value, made in turn,
and the limiter after them. -/
def RateLimiter.run (rl : RateLimiter) : List (String × Int) → List Bool × RateLimiter
  | [] => ([], rl)
  | (key, now) :: calls =>
    let (ok, rl) := rl.allow key now
    let (oks, rl) := rl.run calls
    (ok :: oks, rl)

/-- The clock values of the calls on `key`, in order. -/
def callTimes (key : String) (calls : List (String × Int)) : List Int :=
  (calls.filter (·.1 = key)).map (·.2)

/-- How many of the calls on `key` made at a time in `[a, b]` got `true`. -/
def granted (key : String) (a b : Int) (calls : List (String × Int)) (oks : List Bool) : Nat :=
  ((calls.zip oks).filter fun c => c.1.1 = key ∧ a ≤ c.1.2 ∧ c.1.2 ≤ b ∧ c.2 = true).length

/-- The answers to the calls on `key`, in order. -/
def answersOn (key : String) (calls : List (String × Int)) (oks : List Bool) : List Bool :=
  ((calls.zip oks).filter (·.1.1 = key)).map (·.2)

end OI.Flourish
