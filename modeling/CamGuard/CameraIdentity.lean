/-
Public camera identities (`camera_identity.py`): what every store and gate checks
before it takes a camera's name as a key.
-/
import Mathlib.Data.List.Basic

namespace CamGuard

/-- `valid_camera_id`. -/
def validCameraId (value : String) : Bool :=
  decide (value.toList.take 4 = ['c', 'a', 'm', '_'] ∧ value.toList.length = 28) &&
    (value.toList.drop 4).all fun c => c.isDigit || (decide ('a' ≤ c) && decide (c ≤ 'f'))

end CamGuard
