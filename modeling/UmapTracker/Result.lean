import Mathlib.Tactic.TypeStar

/-! utils/result.h. A `Result<T>` holds a value or an error code, never both;
the default-constructed error state of `Result<T>` carries the code `Ok`. -/
namespace UmapTracker

inductive ErrorCode where
  | ok | networkError | gpsTimeout | parseError | storageFull | invalidConfig
  | threadError | notInitialized | outOfRange | notFound | internalError
  deriving DecidableEq, Repr

abbrev Result (α : Type) := Except ErrorCode α

namespace Result
variable {α : Type}

def hasValue : Result α → Bool
  | .ok _ => true
  | .error _ => false

@[simp] theorem okHasValue (a : α) : hasValue (.ok a) = true := rfl
@[simp] theorem errorHasNoValue (e : ErrorCode) : hasValue (.error e : Result α) = false := rfl

end Result
end UmapTracker
