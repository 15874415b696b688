import Mathlib.Data.Prod.Lex
import Mathlib.Data.String.Basic
import Keyspace.SkipList.Range
import Keyspace.Proofs.Text.Utf8

/-! # The order of scored members: by the score's position on the line, then by member

Between numbers the comparisons are those of integers, so that places in the order are pairs in
lexicographic order, and the laws of a linear order need no proof of their own. -/
namespace Keyspace
set_option autoImplicit false

namespace Score

def position (s : Score) : Int := s.position?.getD 0

theorem compareBy_iff {test : Int → Int → Bool} {a b : Score} :
    compareBy test a b = true ↔ a ≠ nan ∧ b ≠ nan ∧ test a.position b.position = true := by
  cases a <;> cases b <;> simp [compareBy, position?, position]

theorem lt_iff {a b : Score} : a.lt b = true ↔ a ≠ nan ∧ b ≠ nan ∧ a.position < b.position := by
  simp [lt, compareBy_iff]

theorem same_iff {a b : Score} :
    a.same b = true ↔ a ≠ nan ∧ b ≠ nan ∧ a.position = b.position := by
  simp [same, compareBy_iff]

end Score

abbrev Place := Int ×ₗ String

def placeOf (score : Score) (member : String) : Place := toLex (score.position, member)

theorem placeOf_lt_iff {s t : Score} {m n : String} :
    placeOf s m < placeOf t n ↔ s.position < t.position ∨ s.position = t.position ∧ m < n :=
  Prod.Lex.toLex_lt_toLex

theorem member_eq_of_placeOf {s t : Score} {m n : String} (h : placeOf s m = placeOf t n) :
    m = n :=
  congrArg (fun place : Place => (ofLex place).2) h

namespace ScoredMember

def place (entry : ScoredMember) : Place := placeOf entry.2 entry.1

/-- Whether an entry comes before another: by the order of scores, and by that of the members'
bytes where the scores compare equal. -/
def before (a b : ScoredMember) : Prop :=
  a.2.lt b.2 = true ∨ a.2.same b.2 = true ∧ Text.utf8 a.1 < Text.utf8 b.1

theorem before_iff {a b : ScoredMember} (hA : a.2 ≠ .nan) (hB : b.2 ≠ .nan) :
    a.before b ↔ a.place < b.place := by
  rw [before, Score.lt_iff, Score.same_iff, Text.utf8_lt_utf8_iff, place, place, placeOf_lt_iff]
  simp [hA, hB]

end ScoredMember

namespace Node

def place (n : Node) : Place := placeOf n.score n.member

theorem precedes_iff {n : Node} {score : Score} {member : String} (hNode : n.score ≠ .nan)
    (hScore : score ≠ .nan) : n.precedes score member = true ↔ n.place < placeOf score member := by
  rw [precedes, Bool.or_eq_true, Bool.and_eq_true, Score.lt_iff, Score.same_iff,
    decide_eq_true_eq, place, placeOf_lt_iff]
  simp [hNode, hScore]

theorem follows_iff {n : Node} {score : Score} {member : String} (hNode : n.score ≠ .nan)
    (hScore : score ≠ .nan) : n.follows score member = true ↔ placeOf score member < n.place := by
  rw [follows, Bool.or_eq_true, Bool.and_eq_true, Score.lt_iff, Score.same_iff,
    decide_eq_true_eq, place, placeOf_lt_iff]
  simp [hNode, hScore]

end Node

theorem ScoredMember.precedes_iff {entry : ScoredMember} {score : Score} {member : String}
    (hEntry : entry.2 ≠ .nan) (hScore : score ≠ .nan) :
    (entry.2.lt score || (entry.2.same score && entry.1 < member)) = true ↔
      entry.place < placeOf score member :=
  Node.precedes_iff (n := ⟨entry.1, entry.2, #[]⟩) hEntry hScore

end Keyspace
