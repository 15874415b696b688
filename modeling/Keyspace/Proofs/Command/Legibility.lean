import Keyspace.Proofs.Command.Answers

/-! # Legibility: who knows the verb can tell the reply from its text

Nothing in the text says of what kind a reply is, and nothing is quoted. A reply is told from `nil`
by its kind, and the lines of a list from one another by the newlines that no value holds. -/
namespace Keyspace
open Text
set_option autoImplicit false

namespace Text

def OneLine (s : String) : Prop := ∀ c ∈ s.toList, c ≠ '\n'

instance (s : String) : Decidable (OneLine s) := List.decidableBAll _ _

theorem OneLine.append {s t : String} (hLeft : OneLine s) (hRight : OneLine t) :
    OneLine (s ++ t) := by
  rw [OneLine, String.toList_append]
  exact List.forall_mem_append.mpr ⟨hLeft, hRight⟩

theorem IsWord.oneLine {s : String} (h : IsWord s) : OneLine s := by
  rintro c hc rfl
  exact absurd (h.2 _ hc) (by decide)

theorem splitOn_join {lines : List String} (h : ∀ line ∈ lines, OneLine line) :
    (String.join (lines.map (· ++ "\n"))).toList.splitOn '\n' =
      lines.map String.toList ++ [[]] := by
  induction lines with
  | nil => rfl
  | cons line rest ih =>
    obtain ⟨hLine, hRest⟩ := List.forall_mem_cons.mp h
    have hChars : (String.join ((line :: rest).map (· ++ "\n"))).toList =
        line.toList ++ '\n' :: (String.join (rest.map (· ++ "\n"))).toList := by
      simp [String.join_cons]
    have hBefore : ∀ c ∈ line.toList, (c == '\n') = false := fun c hc => by simpa using hLine c hc
    rw [hChars, List.splitOn, List.splitOnP_append_cons_of_forall_mem hBefore _ (by simp),
      ← List.splitOn, ih hRest]
    rfl

theorem eq_of_join_eq {lines others : List String} (hLines : ∀ line ∈ lines, OneLine line)
    (hOthers : ∀ line ∈ others, OneLine line)
    (h : String.join (lines.map (· ++ "\n")) = String.join (others.map (· ++ "\n"))) :
    lines = others := by
  have hSplit := splitOn_join hLines
  rw [h, splitOn_join hOthers] at hSplit
  exact List.map_injective_iff.mpr (fun _ _ => String.toList_injective)
    (List.append_cancel_right hSplit).symm

/-- What comes after an element that it does not hold tells where the element is. -/
theorem parts_eq_of_not_mem {α : Type} {a : α} {before before' after after' : List α}
    (h : before ++ a :: after = before' ++ a :: after') (hAfter : a ∉ after)
    (hAfter' : a ∉ after') : before = before' ∧ after = after' := by
  have hNoMore : ∀ {mid rest : List α}, a ∉ rest → ∀ {tail : List α},
      a :: rest = mid ++ a :: tail → mid = [] := by
    intro mid rest hRest tail hEq
    cases mid with
    | nil => rfl
    | cons b mid =>
      rw [List.cons_append, List.cons.injEq] at hEq
      exact absurd (hEq.2 ▸ List.mem_append_right mid List.mem_cons_self) hRest
  rcases List.append_eq_append_iff.mp h with ⟨mid, rfl, hMid⟩ | ⟨mid, rfl, hMid⟩
  · obtain rfl := hNoMore hAfter hMid
    simpa using hMid
  · obtain rfl := hNoMore hAfter' hMid
    simpa [eq_comm] using hMid

theorem intText_injective {i j : Int} (h : intText i = intText j) : i = j := by
  have hRead := readSigned_intText i
  rw [h, readSigned_intText] at hRead
  exact (Option.some.inj hRead).symm

end Text

namespace Score

theorem read_text (s : Score) : read s.text = some s := by
  cases s with
  | nan => rfl
  | number negative rank => exact read_text_number negative rank

theorem text_injective {s t : Score} (h : s.text = t.text) : s = t := by
  have hRead := read_text s
  rw [h, read_text] at hRead
  exact (Option.some.inj hRead).symm

end Score

/-- A member may hold blanks, but the text of a score holds none, so the last blank parts them. -/
theorem ScoredMember.eq_of_line_eq {entry other : ScoredMember}
    (h : entry.1 ++ " " ++ entry.2.text = other.1 ++ " " ++ other.2.text) : entry = other := by
  have hBlank : ∀ s : Score, ' ' ∉ s.text.toList := fun s hMem =>
    absurd ((Score.isWord_text s).2 ' ' hMem) (by decide)
  have hChars : entry.1.toList ++ ' ' :: entry.2.text.toList =
      other.1.toList ++ ' ' :: other.2.text.toList := by
    simpa using congrArg String.toList h
  obtain ⟨hMember, hScore⟩ := parts_eq_of_not_mem hChars (hBlank _) (hBlank _)
  exact Prod.ext (String.toList_injective hMember)
    (Score.text_injective (String.toList_injective hScore))

namespace Reply

variable {r q : Reply} {kind : Kind}

theorem oneLine_of_mem_lines (hKind : r.Answers kind) (hTexts : ∀ text ∈ r.texts, OneLine text) :
    ∀ line ∈ r.lines, OneLine line := by
  refine forall_mem_lines hKind (fun _ hWord => hWord.oneLine) (fun _ s hText => ?_) hTexts
  exact (hText.append (by decide)).append (Score.isWord_text s).oneLine

theorem eq_of_lines_eq (hLeft : r.kind? = some kind) (hRight : q.kind? = some kind)
    (h : r.lines = q.lines) : r = q := by
  have hSame : r.kind? = q.kind? := hLeft.trans hRight.symm
  cases r with
  | ok | pong =>
    cases q with
    | ok | pong => first | rfl | cases hSame
    | _ => cases hSame
  | integer n =>
    cases q with
    | integer m => exact congrArg integer (intText_injective (List.cons.inj h).1)
    | _ => cases hSame
  | score s =>
    cases q with
    | score t => exact congrArg score (Score.text_injective (List.cons.inj h).1)
    | _ => cases hSame
  | value text =>
    cases q with
    | value other => exact congrArg value (List.cons.inj h).1
    | _ => cases hSame
  | list values =>
    cases q with
    | list others => exact congrArg list (List.cons.inj h).2
    | _ => cases hSame
  | pairs entries =>
    cases q with
    | pairs others =>
      have hEntries := List.map_injective_iff.mpr (fun _ _ => ScoredMember.eq_of_line_eq)
        (List.cons.inj h).2
      exact congrArg pairs hEntries
    | _ => cases hSame
  | nil | error => cases hLeft

/-- Only a value looks like `nil`: no number does, nor the count before a list. -/
theorem eq_value_of_lines_eq_nil (hKind : r.kind? = some kind) (h : r.lines = nil.lines) :
    kind = .value ∧ r = .value "(nil)" := by
  have hInt : ∀ n : Int, intText n ≠ "(nil)" := by
    intro n hText
    have hRead := readSigned_intText n
    rw [hText] at hRead
    cases hRead
  cases r with
  | ok | pong => exact absurd h (by decide)
  | integer n => exact absurd (List.cons.inj h).1 (hInt n)
  | score s =>
    have hRead := Score.read_text s
    rw [(List.cons.inj h).1] at hRead
    cases hRead
  | value text =>
    cases hKind
    exact ⟨rfl, congrArg value (List.cons.inj h).1⟩
  | list values => exact absurd (List.cons.inj h).1 (hInt values.length)
  | pairs entries => exact absurd (List.cons.inj h).1 (hInt entries.length)
  | nil | error => cases hKind

/-- A reply of a kind and another one of that kind, or `nil`, have different texts, unless a value
looks like `nil`. -/
theorem text_eq_iff (hLeft : r.Answers kind) (hRight : q.Answers kind)
    (hTexts : ∀ text ∈ r.texts, OneLine text) (hOthers : ∀ text ∈ q.texts, OneLine text) :
    r.text = q.text ↔
      r = q ∨ kind = .value ∧ (r = nil ∧ q = value "(nil)" ∨ r = value "(nil)" ∧ q = nil) := by
  constructor
  · intro hText
    have hLines := eq_of_join_eq (oneLine_of_mem_lines hLeft hTexts)
      (oneLine_of_mem_lines hRight hOthers) hText
    rcases hLeft with rfl | hLeft <;> rcases hRight with rfl | hRight
    · exact .inl rfl
    · obtain ⟨hKind, hValue⟩ := eq_value_of_lines_eq_nil hRight hLines.symm
      exact .inr ⟨hKind, .inl ⟨rfl, hValue⟩⟩
    · obtain ⟨hKind, hValue⟩ := eq_value_of_lines_eq_nil hLeft hLines
      exact .inr ⟨hKind, .inr ⟨hValue, rfl⟩⟩
    · exact .inl (eq_of_lines_eq hLeft hRight hLines)
  · rintro (rfl | ⟨-, ⟨rfl, rfl⟩ | ⟨rfl, rfl⟩⟩) <;> rfl

end Reply

/-- A store with the sorted sets of some run, where no value and no member has a newline. -/
structure Store.OneLined (s : Store) : Prop where
  sound : s.Sound
  oneLine : ∀ text, s.Holds text → OneLine text

namespace Store

/-- A store in which a value looks like `nil`, wherever a value can be asked for by itself. -/
def misleading : Store :=
  { empty default with
    strings := (∅ : Strings).insert "k" "(nil)"
    lists := (∅ : Lists).insert "k" ["(nil)"]
    hashes := (∅ : Hashes).insert "k" ((∅ : Hash).insert "f" "(nil)") }

theorem oneLined_empty (chance : Chance) : (empty chance).OneLined where
  sound := sound_empty chance
  oneLine text hHeld := by
    have hNothing : ∀ {β : Type}, Each (∅ : Table β) fun _ _ => False := Each.empty
    cases hHeld with
    | scored hFound | string hFound | listed hFound | member hFound | field hFound =>
      exact absurd hFound (hNothing _ _)

theorem oneLined_misleading : misleading.OneLined where
  sound := sound_empty default
  oneLine := by
    have hStrings : Each misleading.strings fun _ value => OneLine value :=
      Each.empty.insert (by decide)
    have hLists : Each misleading.lists fun _ list => ∀ value ∈ list, OneLine value :=
      Each.empty.insert (by decide)
    have hHashes : Each misleading.hashes fun _ hash => Each hash fun _ value => OneLine value :=
      Each.empty.insert (Each.empty.insert (by decide))
    intro text hHeld
    cases hHeld with
    | scored hList hMember => exact (oneLined_empty default).oneLine text (.scored hList hMember)
    | string hValue => exact hStrings _ text hValue
    | listed hList hValue => exact hLists _ _ hList text hValue
    | member hSet hMember => exact (oneLined_empty default).oneLine text (.member hSet hMember)
    | field hHash hValue => exact hHashes _ _ hHash _ text hValue

end Store

namespace Verb

/-- The verbs that are answered with one value. -/
def valued : List Verb := [get, lpop, rpop, lmove, hget]

theorem replyKind_eq_value_iff {v : Verb} : v.replyKind = .value ↔ v ∈ valued := by
  cases v <;> decide

end Verb

namespace Command

variable {c d : Command} {s t : Store}

theorem execute_text_eq_iff (hVerb : c.verb = d.verb) (hS : s.OneLined) (hT : t.OneLined) :
    (c.execute s).1.text = (d.execute t).1.text ↔
      (c.execute s).1 = (d.execute t).1 ∨ c.verb ∈ Verb.valued ∧
        ((c.execute s).1 = .nil ∧ (d.execute t).1 = .value "(nil)" ∨
          (c.execute s).1 = .value "(nil)" ∧ (d.execute t).1 = .nil) := by
  have hRight := d.execute_answers t
  rw [← hVerb] at hRight
  rw [← Verb.replyKind_eq_value_iff]
  refine Reply.text_eq_iff (c.execute_answers s) hRight ?_ ?_
  · intro text hText
    exact hS.oneLine text (c.execute_texts hS.sound text hText)
  · intro text hText
    exact hT.oneLine text (d.execute_texts hT.sound text hText)

theorem exists_misleading {verb : Verb} (h : verb ∈ Verb.valued) :
    ∃ c : Command, c.verb = verb ∧ (c.execute (.empty default)).1 = .nil ∧
      (c.execute .misleading).1 = .value "(nil)" := by
  simp only [Verb.valued, List.mem_cons, List.not_mem_nil, or_false] at h
  rcases h with rfl | rfl | rfl | rfl | rfl
  · exact ⟨get "k", rfl, rfl, rfl⟩
  · exact ⟨lpop "k", rfl, rfl, rfl⟩
  · exact ⟨rpop "k", rfl, rfl, rfl⟩
  · exact ⟨lmove "k" "k" "LEFT" "LEFT", rfl, rfl, rfl⟩
  · exact ⟨hget "k" "f", rfl, rfl, rfl⟩

/-- Of two replies to commands of one verb, on whatever stores, the texts are the same only if the
replies are, but for `nil` and a value that looks like it; and each verb that is answered with one
value can be answered in these two ways. -/
theorem reply_of_text :
    (∀ (c d : Command) (s t : Store), c.verb = d.verb → s.OneLined → t.OneLined →
      ((c.execute s).1.text = (d.execute t).1.text ↔
        (c.execute s).1 = (d.execute t).1 ∨ c.verb ∈ Verb.valued ∧
          ((c.execute s).1 = .nil ∧ (d.execute t).1 = .value "(nil)" ∨
            (c.execute s).1 = .value "(nil)" ∧ (d.execute t).1 = .nil))) ∧
      ∀ verb ∈ Verb.valued, ∃ (c d : Command) (s t : Store), c.verb = verb ∧ d.verb = verb ∧
        s.OneLined ∧ t.OneLined ∧ (c.execute s).1 = .nil ∧ (d.execute t).1 = .value "(nil)" := by
  constructor
  · intro c d s t hVerb hS hT
    exact execute_text_eq_iff hVerb hS hT
  · intro verb hValued
    obtain ⟨c, hVerb, hNil, hValue⟩ := exists_misleading hValued
    exact ⟨c, c, .empty default, .misleading, hVerb, hVerb, Store.oneLined_empty default,
      Store.oneLined_misleading, hNil, hValue⟩

/-- A list of one value that looks like `nil`, and no list. -/
theorem lrange_text_ne :
    ((lrange "k" 0 9).execute .misleading).1 = .list ["(nil)"] ∧
      ((lrange "j" 0 9).execute .misleading).1 = .nil ∧
      ((lrange "k" 0 9).execute .misleading).1.text ≠
        ((lrange "j" 0 9).execute .misleading).1.text := by
  refine ⟨rfl, rfl, ?_⟩
  rw [Ne, reply_of_text.1 (lrange "k" 0 9) (lrange "j" 0 9) .misleading .misleading rfl
    Store.oneLined_misleading Store.oneLined_misleading]
  decide

end Command
end Keyspace
