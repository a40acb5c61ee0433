import Sealed.Foundation.Checked
import Sealed.Foundation.Path

/-! The error type of the crate. Constant message texts are kept, since they are
part of what a caller sees. -/

set_option autoImplicit false

namespace Sealed

open Foundation

inductive Error where
  | authentication
  | cannotOpen
  | identityMismatch
  | invalidInput (message : String)
  | io (kind : IoErrorKind)
  | notFound (message : String)
  | randomness
  | usage (message : String)
deriving DecidableEq, Repr

abbrev Result (α : Type) := Checked Error α

/-- A draw from the operating system's generator: the bytes, or a failure. -/
abbrev Draw (n : Nat) := Option (Bytes n)

/-- `random_array`. -/
def randomArray {n : Nat} (draw : Draw n) : Result (Bytes n) :=
  .okOr draw .randomness

@[simp] theorem randomArray_some {n : Nat} (bytes : Bytes n) :
    randomArray (some bytes) = .ok bytes := rfl

end Sealed
