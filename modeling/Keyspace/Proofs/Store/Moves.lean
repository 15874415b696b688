import Keyspace.Proofs.Store.Outcomes

/-! # Moves: a value goes from an end of a list to an end of another one, or of the same -/
namespace Keyspace
set_option autoImplicit false

namespace Direction

/-- The word that names an end. -/
def word : Direction → String
  | left => "LEFT"
  | right => "RIGHT"

theorem read_eq_ok_iff {text : String} {d : Direction} : read text = .ok d ↔ text = d.word := by
  constructor
  · intro h
    rw [read] at h
    split at h
    · rename_i hLeft
      cases h
      exact hLeft
    · split at h
      · rename_i hRight
        cases h
        exact hRight
      · cases h
  · rintro rfl
    cases d <;> rfl

theorem mem_words_iff {text : String} :
    text ∈ ["LEFT", "RIGHT"] ↔ ∃ d : Direction, text = d.word := by
  constructor
  · intro h
    rcases List.mem_cons.mp h with hLeft | h
    · exact ⟨left, hLeft⟩
    · exact ⟨right, List.mem_singleton.mp h⟩
  · rintro ⟨d, rfl⟩
    cases d <;> decide

theorem exists_push (d : Direction) {list : List String} (h : list ≠ []) :
    ∃ value rest, list = d.push value rest := by
  obtain ⟨⟨value, rest⟩, hPop⟩ := Option.ne_none_iff_exists'.mp (mt pop_eq_none_iff.mp h)
  exact ⟨value, rest, (push_pop hPop).symm⟩

theorem push_ne_nil (d : Direction) (value : String) (rest : List String) :
    d.push value rest ≠ [] := by
  cases d <;> simp [push]

end Direction

namespace Lists

variable {lists : Lists} {source destination fromEnd toEnd value : String}
  {popEnd pushEnd : Direction} {rest : List String}

/-- What a key names after a value was taken from the source, which left the rest of it there, and
was pushed to the destination. If they are one list, the rest of it is what the value is pushed to. -/
def moved (lists : Lists) (source destination : String) (pushEnd : Direction) (value : String)
    (rest : List String) (key : String) : Option (List String) :=
  if key = destination then
    some (pushEnd.push value (if destination = source then rest else lists.getD destination []))
  else if key = source then some rest
  else lists[key]?

theorem getElem?_moved (lists : Lists) (source destination : String) (pushEnd : Direction)
    (value : String) (rest : List String) (key : String) :
    (push (lists.insert source rest) pushEnd destination value).2[key]? =
      lists.moved source destination pushEnd value rest key := by
  have hTarget : (lists.insert source rest).getD destination [] =
      if destination = source then rest else lists.getD destination [] := by
    rw [Std.ExtTreeMap.getD_eq_getD_getElem?, Table.getElem?_insert,
      Std.ExtTreeMap.getD_eq_getD_getElem?]
    split <;> rfl
  rw [push, hTarget, Table.getElem?_insert, Table.getElem?_insert, moved]

theorem move_of_push (h : lists.getD source [] = popEnd.push value rest) :
    lists.move source destination popEnd.word pushEnd.word =
      (some value, (push (lists.insert source rest) pushEnd destination value).2) := by
  have hFrom : Direction.read popEnd.word = .ok popEnd := Direction.read_eq_ok_iff.mpr rfl
  have hTo : Direction.read pushEnd.word = .ok pushEnd := Direction.read_eq_ok_iff.mpr rfl
  simp only [move, h, hFrom, hTo, Direction.pop_push]
  rfl

theorem isSome_move_iff :
    (lists.move source destination fromEnd toEnd).1.isSome ↔
      lists.getD source [] ≠ [] ∧ fromEnd ∈ ["LEFT", "RIGHT"] ∧ toEnd ∈ ["LEFT", "RIGHT"] := by
  constructor
  · intro h
    obtain hNone | ⟨popEnd, pushEnd, value, rest, hFrom, hTo, hPop, -⟩ :=
      lists.move_cases source destination fromEnd toEnd
    · rw [hNone] at h
      cases h
    · rw [← Direction.push_pop hPop]
      exact ⟨Direction.push_ne_nil _ _ _,
        Direction.mem_words_iff.mpr ⟨popEnd, Direction.read_eq_ok_iff.mp hFrom⟩,
        Direction.mem_words_iff.mpr ⟨pushEnd, Direction.read_eq_ok_iff.mp hTo⟩⟩
  · rintro ⟨hList, hFrom, hTo⟩
    obtain ⟨popEnd, rfl⟩ := Direction.mem_words_iff.mp hFrom
    obtain ⟨pushEnd, rfl⟩ := Direction.mem_words_iff.mp hTo
    obtain ⟨value, rest, hPush⟩ := popEnd.exists_push hList
    rw [move_of_push hPush]
    rfl

/-- A value that moves within a list is pushed to what it left there. -/
theorem move_within (h : lists[source]? = some (popEnd.push value rest)) (pushEnd : Direction) :
    lists.move source source popEnd.word pushEnd.word =
      (some value, lists.insert source (pushEnd.push value rest)) := by
  rw [move_of_push (Table.getD_of_getElem? h [])]
  refine congrArg (Prod.mk (some value)) (Std.ExtTreeMap.ext_getElem? fun key => ?_)
  rw [getElem?_moved, moved, if_pos rfl, Table.getElem?_insert]
  split <;> rfl

/-- A value moves if the source has one and both words name an end. It is the one at the first end
of the source; it is taken off there and pushed to the second end of the destination, and nothing
else changes. Within a list it goes round to the other end, or comes back to where it was. If no
value moves, every list stays as it is, but for the source, which is known then if it was not. -/
theorem move_outcome (lists : Lists) (source destination fromEnd toEnd : String) :
    ((lists.move source destination fromEnd toEnd).1.isSome ↔
      lists.getD source [] ≠ [] ∧ fromEnd ∈ ["LEFT", "RIGHT"] ∧ toEnd ∈ ["LEFT", "RIGHT"]) ∧
    (∀ value, (lists.move source destination fromEnd toEnd).1 = some value →
      ∃ popEnd pushEnd rest, fromEnd = Direction.word popEnd ∧ toEnd = Direction.word pushEnd ∧
        lists.getD source [] = popEnd.push value rest ∧
        ∀ key, (lists.move source destination fromEnd toEnd).2[key]? =
          lists.moved source destination pushEnd value rest key) ∧
    (∀ value rest, lists[source]? = some (value :: rest) →
      lists.move source source "LEFT" "RIGHT" =
        (some value, lists.insert source (rest ++ [value]))) ∧
    (∀ (d : Direction) (value : String) (rest : List String),
      lists[source]? = some (d.push value rest) →
      lists.move source source d.word d.word = (some value, lists)) ∧
    ((lists.move source destination fromEnd toEnd).1 = none →
      ∀ key, (lists.move source destination fromEnd toEnd).2[key]? =
        if key = source then some (lists.getD source []) else lists[key]?) := by
  refine ⟨isSome_move_iff, ?_, ?_, ?_, ?_⟩
  · intro value h
    obtain hNone | ⟨popEnd, pushEnd, moving, rest, hFrom, hTo, hPop, hSome⟩ :=
      lists.move_cases source destination fromEnd toEnd
    · rw [hNone] at h
      cases h
    · rw [hSome] at h ⊢
      cases h
      exact ⟨popEnd, pushEnd, rest, Direction.read_eq_ok_iff.mp hFrom,
        Direction.read_eq_ok_iff.mp hTo, (Direction.push_pop hPop).symm,
        lists.getElem?_moved source destination pushEnd value rest⟩
  · intro value rest h
    have hPush : lists[source]? = some (Direction.left.push value rest) := h
    exact move_within hPush .right
  · intro d value rest h
    rw [move_within h d, Table.insert_of_getElem? h]
  · intro h key
    rw [move_of_none h]
    exact Table.getElem?_insert lists source _ key

/-- The first value of a list goes to its end. -/
theorem move_round :
    ∃ lists : Lists, lists["k"]? = some ["a", "b", "c"] ∧
      lists.move "k" "k" "LEFT" "RIGHT" = (some "a", lists.insert "k" ["b", "c", "a"]) := by
  have hList : ((∅ : Lists).insert "k" ["a", "b", "c"])["k"]? = some ["a", "b", "c"] :=
    Std.ExtTreeMap.getElem?_insert_self
  exact ⟨_, hList, (move_outcome _ "k" "k" "LEFT" "RIGHT").2.2.1 "a" ["b", "c"] hList⟩

end Lists
end Keyspace
