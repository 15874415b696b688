import Keyspace.Error

/-! # Results: a value, an error, or a panic, after which there is nobody left to answer -/
namespace Keyspace
set_option autoImplicit false

inductive Result (α : Type) where
  | error (e : Error)
  | ok (value : α)
  | panic
  deriving DecidableEq, Repr, Inhabited

namespace Result

variable {α β : Type}

def ofExcept : Except Error α → Result α
  | .error e => error e
  | .ok value => ok value

def map (f : α → β) : Result α → Result β
  | error e => error e
  | ok value => ok (f value)
  | panic => panic

end Result
end Keyspace
