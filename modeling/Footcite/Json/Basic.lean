import Footcite.Decimal.Binary64
import Footcite.Table

/-!
# JSON values

Numbers are whole when written without point and exponent, and binary fractions otherwise. The members of an object
keep the order in which their names first came, and values are compared with that order (`Json.same`).
-/

namespace Footcite

/-- A JSON value. -/
inductive Json
  | null
  | bool (b : Bool)
  | int (n : Int)
  | float (x : Binary64)
  | string (t : Text)
  | array (items : List Json)
  | object (members : List (Text × Json))

instance : Inhabited Json := ⟨.null⟩

mutual

/-- Whether two values are the same. -/
def Json.same : Json → Json → Bool
  | .null, .null => true
  | .bool b, .bool b' => b = b'
  | .int n, .int n' => n = n'
  | .float x, .float x' => x = x'
  | .string t, .string t' => t = t'
  | .array vs, .array vs' => Json.sameItems vs vs'
  | .object ms, .object ms' => Json.sameMembers ms ms'
  | _, _ => false

/-- Whether the items of two arrays are the same. -/
def Json.sameItems : List Json → List Json → Bool
  | [], [] => true
  | v :: vs, v' :: vs' => v.same v' && Json.sameItems vs vs'
  | _, _ => false

/-- Whether the members of two objects are the same. -/
def Json.sameMembers : List (Text × Json) → List (Text × Json) → Bool
  | [], [] => true
  | (k, v) :: ms, (k', v') :: ms' => k = k' && v.same v' && Json.sameMembers ms ms'
  | _, _ => false

end

mutual

theorem Json.same_iff : ∀ v w : Json, v.same w = true ↔ v = w
  | .array vs, w => by cases w <;> simp [Json.same, Json.sameItems_iff vs]
  | .object ms, w => by cases w <;> simp [Json.same, Json.sameMembers_iff ms]
  | .null, w | .bool _, w | .int _, w | .float _, w | .string _, w => by cases w <;> simp [Json.same]

theorem Json.sameItems_iff : ∀ vs ws : List Json, Json.sameItems vs ws = true ↔ vs = ws
  | [], ws => by cases ws <;> simp [Json.sameItems]
  | v :: vs, ws => by cases ws <;> simp [Json.sameItems, Json.same_iff v, Json.sameItems_iff vs]

theorem Json.sameMembers_iff : ∀ ms ns : List (Text × Json), Json.sameMembers ms ns = true ↔ ms = ns
  | [], ns => by cases ns <;> simp [Json.sameMembers]
  | (k, v) :: ms, ns => by
    cases ns <;> simp [Json.sameMembers, Json.same_iff v, Json.sameMembers_iff ms, Prod.ext_iff]

end

instance : DecidableEq Json := fun v w => decidable_of_iff _ (Json.same_iff v w)

end Footcite
