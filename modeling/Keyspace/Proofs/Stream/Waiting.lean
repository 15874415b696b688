import Keyspace.Proofs.Stream.Framing

/-! # Waiting: reading from a stream that stays open stops where the bytes do, and changes neither -/
namespace Keyspace
set_option autoImplicit false

namespace Source

theorem ended_read (s : Source) : s.read.2.ended = s.ended := by
  rw [read]
  split
  · rfl
  · rfl
  · split <;> rfl

/-- More is to arrive after what arrives already. -/
def bring (s : Source) (arrivals : List Arrival) : Source :=
  { s with arrivals := s.arrivals ++ arrivals }

end Source

namespace LineReader

variable {r : LineReader}

def Step.next : Step → LineReader
  | done _ next | more next => next

/-- Looks at the buffer, and nothing else, lead from the first reader to the second. -/
inductive LooksTo : LineReader → LineReader → Prop
  | refl (r : LineReader) : LooksTo r r
  | look {r next : LineReader} (h : LooksTo r.step.next next) : LooksTo r next

theorem LooksTo.trans {r next last : LineReader} (h : r.LooksTo next) (hLast : next.LooksTo last) :
    r.LooksTo last := by
  induction h with
  | refl => exact hLast
  | look _ ih => exact .look (ih hLast)

theorem looksTo_readLine (r : LineReader) : r.LooksTo r.readLine.2 := by
  fun_induction readLine r with
  | case1 r result next hDone =>
    apply LooksTo.look
    rw [hDone]
    exact .refl next
  | case2 r next hMore ih =>
    apply LooksTo.look
    rw [hMore]
    exact ih

theorem looksTo_readRequest (r : LineReader) : r.LooksTo r.readRequest.2 := by
  fun_induction readRequest r with
  | case1 r line next hLine hBlank ih =>
    have hLooks := looksTo_readLine r
    rw [hLine] at hLooks
    exact hLooks.trans ih
  | case2 r line next hLine hBlank =>
    have hLooks := looksTo_readLine r
    rwa [hLine] at hLooks
  | case3 r next hLine =>
    have hLooks := looksTo_readLine r
    rwa [hLine] at hLooks
  | case4 r e next hLine =>
    have hLooks := looksTo_readLine r
    rwa [hLine] at hLooks
  | case5 r next hLine =>
    have hLooks := looksTo_readLine r
    rwa [hLine] at hLooks

theorem looksTo_readBody (count : Nat) (r : LineReader) : r.LooksTo (readBody count r).2 := by
  induction count generalizing r with
  | zero => exact .refl r
  | succ count ih =>
    have hLine := looksTo_readLine r
    rw [readBody]
    split <;> rename_i hRead <;> rw [hRead] at hLine
    · exact hLine.trans (ih _)
    · exact hLine
    · exact hLine
    · exact hLine

theorem looksTo_readReply (r : LineReader) (verb : Option Verb) :
    r.LooksTo (r.readReply verb).2 := by
  have hLine := looksTo_readLine r
  rw [readReply]
  split <;> rename_i hRead <;> rw [hRead] at hLine
  · exact hLine.trans (looksTo_readBody _ _)
  · exact hLine
  · exact hLine
  · exact hLine

theorem continues_readMore (r : LineReader) : r.Continues r.readMore.next := by
  have hEnded := r.source.ended_read
  rw [readMore]
  split <;> rename_i hRead <;> rw [hRead] at hEnded
  · split <;> exact ⟨rfl, hEnded⟩
  · split <;> exact ⟨rfl, hEnded⟩
  · exact ⟨rfl, hEnded⟩

theorem continues_step (r : LineReader) : r.Continues r.step.next := by
  rw [LineReader.step]
  split
  · exact ⟨rfl, rfl⟩
  · split
    · exact .refl r
    · split
      · exact .refl r
      · exact continues_readMore r

theorem LooksTo.continues {next : LineReader} (h : r.LooksTo next) : r.Continues next := by
  induction h with
  | refl r => exact .refl r
  | look _ ih => exact (continues_step _).trans ih

theorem continues_readLine (r : LineReader) : r.Continues r.readLine.2 :=
  (looksTo_readLine r).continues

theorem continues_readRequest (r : LineReader) : r.Continues r.readRequest.2 :=
  (looksTo_readRequest r).continues

theorem continues_readReply (r : LineReader) (verb : Option Verb) :
    r.Continues (r.readReply verb).2 :=
  (looksTo_readReply r verb).continues

theorem decode_ne_panic (line : Bytes) : decode line ≠ .panic := by
  rw [decode]
  split <;> intro h <;> cases h

theorem readMore_ne_panic (r next : LineReader) : r.readMore ≠ .done .panic next := by
  rw [readMore]
  split
  · split <;> intro h <;> cases h
  · split
    · intro h
      cases h
    · exact fun h => decode_ne_panic _ (Step.done.inj h).1
  · intro h
    cases h

theorem step_ne_panic (hLimit : r.limit.toNat + 1 < UInt64.size) (next : LineReader) :
    r.step ≠ .done .panic next := by
  rw [LineReader.step]
  split
  · rw [complete]
    split
    · intro h
      cases h
    · exact fun h => decode_ne_panic _ (Step.done.inj h).1
  · rw [threshold?, if_pos hLimit]
    dsimp only
    split
    · intro h
      cases h
    · exact r.readMore_ne_panic next

theorem readLine_ne_panic (hLimit : r.limit.toNat + 1 < UInt64.size) : r.readLine.1 ≠ .panic := by
  fun_induction LineReader.readLine r with
  | case1 r result next hDone =>
    rintro rfl
    exact step_ne_panic hLimit next hDone
  | case2 r next hMore ih =>
    have hContinues := continues_step r
    rw [hMore] at hContinues
    exact ih (hContinues.limit ▸ hLimit)

/-- A limit that leaves room for the threshold leaves no room for a panic. -/
theorem readRequest_ne_panic (hLimit : r.limit.toNat + 1 < UInt64.size) :
    r.readRequest.1 ≠ .panic := by
  fun_induction LineReader.readRequest r with
  | case1 r line next hLine hBlank ih =>
    have hContinues := continues_readLine r
    rw [hLine] at hContinues
    exact ih (hContinues.limit ▸ hLimit)
  | case2 | case3 | case4 =>
    intro h
    cases h
  | case5 r next hLine => exact absurd (congrArg Prod.fst hLine) (readLine_ne_panic hLimit)

theorem Pending.bring {rest : Bytes} {arrivals : List Arrival} (h : r.Pending rest)
    (hFlows : ∀ a ∈ arrivals, a.Flows) :
    Pending { r with source := r.source.bring arrivals }
      (rest ++ arrivals.flatMap Arrival.bytes) := by
  constructor
  · rw [← h.bytes, List.append_assoc]
    exact congrArg (r.buffer ++ ·) List.flatMap_append
  · intro a ha
    rcases List.mem_append.mp ha with ha | ha
    · exact h.flows a ha
    · exact hFlows a ha

theorem Pending.step_of_open (h : r.Pending []) (hOpen : r.source.ended = false)
    (hLimit : r.limit.toNat + 1 < UInt64.size) :
    ∃ next : LineReader, next.Pending [] ∧
      (r.step = .done (.error (.io Source.stalled)) next ∨ r.step = .more next) := by
  obtain ⟨⟨arrivals, ended⟩, buffer, limit⟩ := r
  obtain ⟨rfl, hBytes⟩ := List.append_eq_nil_iff.mp h.bytes
  simp only at hOpen
  subst hOpen
  have hShort : Short ⟨⟨arrivals, false⟩, [], limit⟩ := ⟨List.not_mem_nil, hLimit, Nat.zero_le _⟩
  cases arrivals with
  | nil => exact ⟨_, h, .inl (hShort.step_of_fault rfl)⟩
  | cons first rest =>
    obtain ⟨hFirst, hRest⟩ := List.forall_mem_cons.mp h.flows
    cases first with
    | fault fault =>
      refine ⟨⟨⟨rest, false⟩, [], limit⟩, ⟨hBytes, hRest⟩, .inr ?_⟩
      exact (hShort.step_of_fault rfl).trans (if_pos hFirst)
    | data data => exact absurd (List.append_eq_nil_iff.mp hBytes).1 hFirst

/-- With no bytes to take, reading from an open stream finds that it has to wait. -/
theorem Pending.readLine_of_open (h : r.Pending []) (hOpen : r.source.ended = false)
    (hLimit : r.limit.toNat + 1 < UInt64.size) :
    ∃ next, r.readLine = (.error (.io Source.stalled), next) ∧ next.Pending [] := by
  fun_induction LineReader.readLine r with
  | case1 r result other hDone =>
    obtain ⟨next, hPending, hStep | hStep⟩ := h.step_of_open hOpen hLimit
    · cases hDone.symm.trans hStep
      exact ⟨_, rfl, hPending⟩
    · cases hDone.symm.trans hStep
  | case2 r other hMore ih =>
    have hContinues := continues_step r
    obtain ⟨next, hPending, hStep | hStep⟩ := h.step_of_open hOpen hLimit
    · cases hMore.symm.trans hStep
    · cases hMore.symm.trans hStep
      rw [hMore] at hContinues
      exact ih hPending (hContinues.ended.trans hOpen) (hContinues.limit ▸ hLimit)

end LineReader
end Keyspace
