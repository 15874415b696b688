import Keyspace.Command.Execution
import Keyspace.Proofs.Store.Outcomes

/-! # Refusals: a command that gives nothing, or is told what is wrong, leaves what is held as it
was -/
namespace Keyspace
set_option autoImplicit false

namespace Reply

/-- Nothing is given, or something was wrong. -/
def IsRefusal : Reply → Prop
  | nil | error _ => True
  | _ => False

theorem eq_none_of_isRefusal {α : Type} (give : Option α → Reply)
    (hGive : ∀ a, ¬ (give (some a)).IsRefusal) {found : Option α} (h : (give found).IsRefusal) :
    found = none := by
  cases found with
  | none => rfl
  | some a => exact absurd h (hGive a)

end Reply

namespace Command

/-- The list that a value is to be taken from. -/
def source? : Command → Option String
  | lpop key | rpop key => some key
  | lmove source .. => some source
  | _ => none

/-- A store is left as it was, but that a list that a value was to be taken from, and that was
unknown, is known now and empty. -/
def Spares (c : Command) (s t : Store) : Prop :=
  t = s ∨ ∃ key, c.source? = some key ∧ s.lists[key]? = none ∧
    t = { s with lists := s.lists.insert key [] }

theorem spares_of_known {c : Command} {key : String} (hSource : c.source? = some key) {s : Store}
    {lists : Lists} (hLists : lists = s.lists.insert key (s.lists.getD key [])) :
    c.Spares s { s with lists } := by
  subst hLists
  obtain hSame | ⟨hUnknown, hNew⟩ := s.lists.insert_getD key
  · rw [hSame]
    exact .inl rfl
  · rw [hNew]
    exact .inr ⟨key, hSource, hUnknown, rfl⟩

theorem spares_of_refusal {c : Command} {s : Store} (h : (c.execute s).1.IsRefusal) :
    c.Spares s (c.execute s).2 := by
  cases c with
  | zscore =>
    rw [Command.execute]
    split <;> exact .inl rfl
  | get | lrange | sismember | sinter | hget | hmget => exact .inl rfl
  | incrby =>
    have hNone := Reply.eq_none_of_isRefusal Reply.ofInt64? (fun _ => id) h
    exact .inl (congrArg (fun strings => { s with strings }) (Strings.add_of_none hNone))
  | lpop | rpop =>
    have hNone := Reply.eq_none_of_isRefusal Reply.ofValue? (fun _ => id) h
    exact spares_of_known rfl (Lists.pop_of_none hNone)
  | lmove =>
    have hNone := Reply.eq_none_of_isRefusal Reply.ofValue? (fun _ => id) h
    exact spares_of_known rfl (Lists.move_of_none hNone)
  | ltrim key start stop =>
    have hUnknown : (s.lists.trim key start stop).1 = false := by
      simp only [Command.execute] at h
      split at h
      · cases h
      · rename_i hFalse
        exact Bool.eq_false_iff.mpr hFalse
    exact .inl (congrArg (fun lists => { s with lists }) (Lists.trim_of_unknown hUnknown))
  | srem =>
    have hNone := Reply.eq_none_of_isRefusal Reply.ofNat? (fun _ => id) h
    exact .inl (congrArg (fun sets => { s with sets }) (Sets.remove_of_none hNone))
  | hincrby =>
    have hNone := Reply.eq_none_of_isRefusal Reply.ofInt64? (fun _ => id) h
    exact .inl (congrArg (fun hashes => { s with hashes }) (Hashes.add_of_none hNone))
  | _ => cases h

end Command

/-- A command or a request line that is refused leaves everything as it was, but that an unknown
list that a value was to be taken from is known and empty afterwards. So does a score that is no
number, though the reply to it is none of a refusal. -/
theorem Request.execute_of_refusal (s : Store) :
    (∀ c : Command, (c.execute s).1.IsRefusal → c.Spares s (c.execute s).2) ∧
      (∀ line, (Request.execute line s).1.IsRefusal → (Request.execute line s).2 = s ∨
        ∃ c, Request.read line = .ok c ∧ c.Spares s (Request.execute line s).2) ∧
      ∀ key member, (Command.zadd key .nan member).execute s = (.integer 0, s) := by
  refine ⟨fun c => Command.spares_of_refusal, ?_, fun key member => rfl⟩
  intro line h
  rw [Request.execute] at h ⊢
  split at h
  · rename_i c hRead
    exact .inr ⟨c, hRead, Command.spares_of_refusal h⟩
  · exact .inl rfl

/-- A value that is out of its list goes back where there is no such end to move it to. -/
theorem Request.lmove_up_refused :
    ∃ s : Store, s.lists["k"]? = some ["a", "b"] ∧
      ((Command.lmove "k" "j" "LEFT" "UP").execute s).1 = .nil ∧
      ((Command.lmove "k" "j" "LEFT" "UP").execute s).2 = s := by
  let s : Store := { Store.empty default with lists := (∅ : Lists).insert "k" ["a", "b"] }
  have hKnown : s.lists["k"]? = some ["a", "b"] := Std.ExtTreeMap.getElem?_insert_self
  refine ⟨s, hKnown, rfl, ?_⟩
  obtain hSame | ⟨key, hSource, hUnknown, -⟩ :=
    (Request.execute_of_refusal s).1 (.lmove "k" "j" "LEFT" "UP") trivial
  · exact hSame
  · cases hSource
    rw [hKnown] at hUnknown
    cases hUnknown

end Keyspace
