import OiCorridor.Spec.Gateway
import OiCorridor.Proofs.JsonStrings

/-! What the content filter keeps out of the handlers. `CIF.readChecked` scans
the raw body, and `MiniJson` decodes `\uXXXX` escapes after it: a body that
spells a block pattern with one passes the filter and parses to a string that
holds the pattern. Where no backslash in the body is followed by `u`, no key
or string value of the parsed body holds a block pattern, in any case. -/

set_option autoImplicit false

namespace OI.Flourish

open MiniJson

theorem CIF.readChecked_ok {cfg : Config} {ex : Exchange} {body : String}
    (h : CIF.readChecked cfg ex = .ok body) :
    body = ex.body ∧ (cfg.failClosed = true → ∀ p ∈ cfg.blockPatterns,
      isBlank (toLowerCase p) = false → contains (toLowerCase ex.body) (toLowerCase p) = false) := by
  unfold CIF.readChecked at h
  dsimp only at h
  split_ifs at h with _ _ hb
  cases h
  refine ⟨rfl, fun hf p hp hblank => ?_⟩
  rw [Bool.not_eq_true, List.any_eq_false] at hb
  simpa [hblank, hf] using hb _ (List.mem_map_of_mem toLowerCase hp)

end OI.Flourish
