import Keyspace.Error

/-! # Directions: the two ends of a list -/
namespace Keyspace
set_option autoImplicit false

inductive Direction where
  | left
  | right
  deriving DecidableEq, Repr, Inhabited

namespace Direction

def read (word : String) : Except Error Direction :=
  if word = "LEFT" then .ok left
  else if word = "RIGHT" then .ok right
  else .error (.badDirection word)

def pop (d : Direction) (list : List String) : Option (String × List String) :=
  match d with
  | left => list.head?.map fun value => (value, list.tail)
  | right => list.getLast?.map fun value => (value, list.dropLast)

def push (d : Direction) (value : String) (list : List String) : List String :=
  match d with
  | left => value :: list
  | right => list ++ [value]

theorem push_pop {d : Direction} {value : String} {list rest : List String}
    (h : d.pop list = some (value, rest)) : d.push value rest = list := by
  cases d with
  | left =>
    obtain ⟨head, hHead, hEq⟩ := Option.map_eq_some_iff.mp h
    cases hEq
    obtain ⟨tail, rfl⟩ := List.head?_eq_some_iff.mp hHead
    rfl
  | right =>
    obtain ⟨last, hLast, hEq⟩ := Option.map_eq_some_iff.mp h
    cases hEq
    obtain ⟨init, rfl⟩ := List.getLast?_eq_some_iff.mp hLast
    simp [push]

theorem pop_push (d : Direction) (value : String) (list : List String) :
    d.pop (d.push value list) = some (value, list) := by
  cases d <;> simp [push, pop]

theorem pop_eq_none_iff {d : Direction} {list : List String} :
    d.pop list = none ↔ list = [] := by
  cases d <;> cases list <;> simp [pop]

end Direction
end Keyspace
