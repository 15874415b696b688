import Mathlib.Data.List.TakeWhile
import Keyspace.SkipList.Update
import Keyspace.Proofs.SkipList.WellFormed

/-! # Updates keep a skip list well formed, and change its scores as those of a map -/
namespace Keyspace
open Tower
set_option autoImplicit false

/-- A member that no tower has comes between those before its place and those after it. -/
theorem Tower.Ordered.exists_split {towers : List Tower} (h : Ordered towers) {member : String}
    (hNew : ∀ t ∈ towers, t.member ≠ member) (score : Score) :
    ∃ before after, towers = before ++ after ∧ (∀ t ∈ before, t.place < placeOf score member) ∧
      ∀ t ∈ after, placeOf score member < t.place := by
  let test : Tower → Bool := fun t => t.place < placeOf score member
  have hRest : ∀ t ∈ towers.dropWhile test, test t = false :=
    h.dropWhile_eq_false fun t _ u _ hLt hTrue =>
      decide_eq_true (lt_trans hLt (of_decide_eq_true hTrue))
  refine ⟨towers.takeWhile test, towers.dropWhile test, List.takeWhile_append_dropWhile.symm,
    ?_, ?_⟩
  · intro t ht
    have hTrue : test t = true := List.mem_takeWhile_imp ht
    exact of_decide_eq_true hTrue
  · intro t ht
    have hNotLt : ¬ t.place < placeOf score member := of_decide_eq_false (hRest t ht)
    apply lt_of_le_of_ne (not_lt.mp hNotLt)
    intro hEq
    exact hNew t ((List.dropWhile_sublist test).subset ht) (member_eq_of_placeOf hEq.symm)

theorem SkipList.staysInPlace?_eq {a : Arena} {left slot : Slot} {member : String} {score : Score}
    {next : Option Slot} {follows precedes : Bool}
    (hFollows : (if left = Arena.headSlot then some true
      else (a.nodes[left]?).map fun node => node.precedes score member) = some follows)
    (hPrecedes : (match next with
      | none => some true
      | some next => (a.nodes[next]?).map fun node => node.follows score member) = some precedes)
    (hNext : a.next? slot 0 = some next) :
    staysInPlace? a left slot member score = some (follows && precedes) := by
  by_cases hHead : left = Arena.headSlot
  · rw [if_pos hHead] at hFollows
    cases hFollows
    cases next with
    | none =>
      cases hPrecedes
      simp [staysInPlace?, hHead, hNext]
    | some s =>
      have hSome : (a.nodes[s]?).map (fun node => node.follows score member) = some precedes :=
        hPrecedes
      simp only [staysInPlace?, if_pos hHead, hNext, hSome, Option.bind_eq_bind, Option.bind_some]
  · rw [if_neg hHead] at hFollows
    cases next with
    | none =>
      cases hPrecedes
      simp only [staysInPlace?, if_neg hHead, hNext, hFollows, Option.bind_eq_bind,
        Option.bind_some]
    | some s =>
      have hSome : (a.nodes[s]?).map (fun node => node.follows score member) = some precedes :=
        hPrecedes
      simp only [staysInPlace?, if_neg hHead, hNext, hFollows, hSome, Option.bind_eq_bind,
        Option.bind_some]

namespace SkipList.WellFormed

variable {l : SkipList} {towers before after : List Tower} {t : Tower}

theorem level_le (h : l.WellFormed towers) : l.level ≤ maxHeight :=
  h.level ▸ top_le_maxHeight towers

theorem exists_split (h : l.WellFormed towers) {member : String} {score : Score}
    (hScore : l.scores[member]? = some score) :
    ∃ before t after, towers = before ++ t :: after ∧ t.member = member ∧ t.score = score := by
  obtain ⟨t, ht, hMember, hEq⟩ := (h.scores member score).mp hScore
  obtain ⟨before, after, hSplit⟩ := List.append_of_mem ht
  exact ⟨before, t, after, hSplit, hMember, hEq⟩

theorem score_of_mem (h : l.WellFormed towers) (ht : t ∈ towers) :
    l.scores[t.member]? = some t.score :=
  (h.scores t.member t.score).mpr ⟨t, ht, rfl, rfl⟩

theorem number_of_score (h : l.WellFormed towers) {member : String} {score : Score}
    (hScore : l.scores[member]? = some score) : score ≠ .nan := by
  obtain ⟨t, ht, -, rfl⟩ := (h.scores member score).mp hScore
  exact h.number t ht

theorem member_ne (h : l.WellFormed (before ++ t :: after)) :
    ∀ u ∈ before ++ after, u.member ≠ t.member := by
  intro u hu hMember
  have hScore := h.score_of_mem (t := u) (by
    rcases List.mem_append.mp hu with hu | hu
    · exact List.mem_append_left _ hu
    · exact List.mem_append_right before (List.mem_cons_of_mem t hu))
  rw [hMember, h.score_of_mem (t := t) (by simp), Option.some.injEq] at hScore
  have hPlace : u.place = t.place := by rw [place, place, hMember, hScore]
  obtain ⟨-, hBefore, hAfter⟩ := ordered_insert.mp h.ordered
  rcases List.mem_append.mp hu with hu | hu
  · exact (hBefore u hu).ne hPlace
  · exact (hAfter u hu).ne hPlace.symm

theorem slot_ne (h : l.WellFormed (before ++ t :: after)) :
    ∀ u ∈ before ++ after, u.slot ≠ t.slot := by
  intro u hu
  have hApart := h.arena.apart
  rw [List.append_nil] at hApart
  have hApart' : Apart ((before ++ after) ++ [t]) := hApart.perm (perm_spare before after t).symm
  exact hApart'.ne (List.mem_cons_of_mem head hu) List.mem_cons_self

theorem recorded_cons (h : l.WellFormed (before ++ t :: after)) :
    Recorded l.scores (t :: (before ++ after)) :=
  h.scores.of_mem_iff fun _ => List.perm_middle.mem_iff.symm

theorem seek?_member (h : l.WellFormed (before ++ t :: after)) :
    seek? l.arena l.level (fun node => node.precedes t.score t.member) = some (pathTo before) ∧
      after? l.arena (pathTo before) = some (some t.slot) := by
  obtain ⟨-, hBefore, hAfter⟩ := ordered_insert.mp h.ordered
  refine ⟨seek?_precedes h.arena h.number (h.number t (by simp)) h.level.ge h.level_le hBefore ?_,
    after?_pathTo h.arena.linked⟩
  intro u hu
  rcases List.mem_cons.mp hu with rfl | hu
  · exact lt_irrefl _
  · exact (hAfter u hu).not_gt

/-- The sequence of towers with one more, in a list of which the arena has it linked. -/
theorem insert {arena : Arena} {level : Nat} (h : l.WellFormed (before ++ after)) (coins : Coins)
    (hArena : arena.Carries (before ++ t :: after) []) (hNumber : t.score ≠ .nan)
    (hNew : ∀ u ∈ before ++ after, u.member ≠ t.member)
    (hBefore : ∀ u ∈ before, u.place < t.place) (hAfter : ∀ u ∈ after, t.place < u.place)
    (hLevel : level = max l.level t.height.val) :
    SkipList.WellFormed ⟨arena, level, l.scores.insert t.member t.score, coins⟩
      (before ++ t :: after) where
  arena := hArena
  number := by
    intro u hu
    rcases List.mem_cons.mp (List.perm_middle.mem_iff.mp hu) with rfl | hu
    · exact hNumber
    · exact h.number u hu
  ordered := ordered_insert.mpr ⟨h.ordered, hBefore, hAfter⟩
  level := by rw [top_insert, ← h.level, hLevel]
  scores := (h.scores.insert hNew).of_mem_iff fun _ => List.perm_middle.mem_iff

theorem insertBy?_new (h : l.WellFormed towers) {member : String} {score : Score}
    (hScore : score ≠ .nan) (hNew : l.scores[member]? = none) (draw : Coins → Height × Coins) :
    ∃ l' towers', l.insertBy? draw member score = some (true, l') ∧ l'.WellFormed towers' ∧
      l'.scores = l.scores.insert member score := by
  have hMember : ∀ t ∈ towers, t.member ≠ member := by
    rintro t ht rfl
    rw [h.score_of_mem ht] at hNew
    cases hNew
  obtain ⟨before, after, rfl, hBefore, hAfter⟩ := h.ordered.exists_split hMember score
  have hSeek := seek?_precedes h.arena h.number hScore h.level.ge h.level_le hBefore
    fun t ht => (hAfter t ht).not_gt
  obtain ⟨slot, a, hAlloc, hCarries⟩ := h.arena.alloc? member score (draw l.coins).1
  obtain ⟨b, hLink, hCarries⟩ := hCarries.link?
  have hNaN : score.isNaN = false := Bool.eq_false_iff.mpr (mt Score.isNaN_iff.mp hScore)
  refine ⟨_, before ++ ⟨slot, (draw l.coins).1, member, score⟩ :: after, ?_,
    h.insert (draw l.coins).2 hCarries hScore hMember hBefore hAfter rfl, rfl⟩
  simp [insertBy?, hNaN, hNew, hSeek, hAlloc, hLink]

theorem next?_tower (h : l.WellFormed (before ++ t :: after)) :
    l.arena.next? t.slot 0 = some (Arena.linkTo after) := by
  have hLinked := h.arena.linked
  rw [List.append_cons] at hLinked
  have hLast := hLinked.next?_last zero_lt_maxHeight
  rwa [onLevel_zero, lastOn, onLevel_zero, List.getLastD_concat] at hLast

/-- The nearest tower before a place speaks for all before it. -/
theorem precedes_lastOn (h : l.WellFormed (before ++ after)) (member : String) {score : Score}
    (hScore : score ≠ .nan) :
    ∃ result, (if (lastOn 0 before).slot = Arena.headSlot then some true
        else (l.arena.nodes[(lastOn 0 before).slot]?).map fun node =>
          node.precedes score member) = some result ∧
      (result = true ↔ ∀ u ∈ before, u.place < placeOf score member) := by
  rcases List.eq_nil_or_concat before with rfl | ⟨first, u, rfl⟩
  · exact ⟨true, rfl, by simp⟩
  · have hMem : u ∈ (first ++ [u]) ++ after := by simp
    rw [List.concat_eq_append] at h ⊢
    have hApart := h.arena.apart
    rw [List.append_nil] at hApart
    have hNe : Arena.headSlot ≠ u.slot := hApart.head_ne hMem
    have hLast : lastOn 0 (first ++ [u]) = u := by
      rw [lastOn, onLevel_zero, List.getLastD_concat]
    obtain ⟨node, hNode, hMember, hEq, -⟩ := h.arena.holds_of_mem hMem
    use node.precedes score member
    constructor
    · rw [hLast, if_neg hNe.symm, hNode, Option.map_some]
    · rw [precedes_iff_of_holds (h.number u hMem) hScore hMember hEq]
      have hOrdered := h.ordered
      rw [List.append_assoc] at hOrdered
      obtain ⟨-, hFirst, -⟩ := ordered_insert.mp hOrdered
      constructor
      · intro hLt v hv
        rcases List.mem_append.mp hv with hv | hv
        · exact lt_trans (hFirst v hv) hLt
        · rwa [List.mem_singleton.mp hv]
      · intro hAll
        exact hAll u (by simp)

theorem follows_linkTo (h : l.WellFormed (before ++ after)) (member : String) {score : Score}
    (hScore : score ≠ .nan) :
    ∃ result, (match Arena.linkTo after with
        | none => some true
        | some next => (l.arena.nodes[next]?).map fun node => node.follows score member) =
          some result ∧
      (result = true ↔ ∀ u ∈ after, placeOf score member < u.place) := by
  cases after with
  | nil => exact ⟨true, rfl, by simp⟩
  | cons u rest =>
    have hMem : u ∈ before ++ u :: rest := by simp
    obtain ⟨node, hNode, hMember, hEq, -⟩ := h.arena.holds_of_mem hMem
    use node.follows score member
    constructor
    · simp [Arena.linkTo, hNode]
    · rw [Node.follows_iff (hEq ▸ h.number u hMem) hScore, Node.place, hMember, hEq]
      obtain ⟨-, -, hRest⟩ := ordered_insert.mp h.ordered
      constructor
      · intro hLt v hv
        rcases List.mem_cons.mp hv with rfl | hv
        · exact hLt
        · exact lt_trans hLt (hRest v hv)
      · intro hAll
        exact hAll u List.mem_cons_self

/-- A member stays in place with another score just where its place is between the same towers. -/
theorem staysInPlace?_iff (h : l.WellFormed (before ++ t :: after)) {score : Score}
    (hScore : score ≠ .nan) :
    ∃ stays, staysInPlace? l.arena (lastOn 0 before).slot t.slot t.member score = some stays ∧
      (stays = true ↔ (∀ u ∈ before, u.place < placeOf score t.member) ∧
        ∀ u ∈ after, placeOf score t.member < u.place) := by
  have h' := h
  rw [List.append_cons] at h'
  obtain ⟨follows, hFollows, hFollowsIff⟩ := h.precedes_lastOn t.member hScore
  obtain ⟨precedes, hPrecedes, hPrecedesIff⟩ := h'.follows_linkTo t.member hScore
  refine ⟨follows && precedes, ?_, by rw [Bool.and_eq_true, hFollowsIff, hPrecedesIff]⟩
  exact staysInPlace?_eq hFollows hPrecedes h.next?_tower

theorem number_rest (h : l.WellFormed (before ++ t :: after)) :
    ∀ u ∈ before ++ after, u.score ≠ .nan := by
  intro u hu
  exact h.number u (List.perm_middle.mem_iff.mpr (List.mem_cons_of_mem t hu))

/-- The sequence of towers with another score for one of them, which may stand elsewhere now. -/
theorem rescored {arena : Arena} {before' after' : List Tower} {score : Score}
    (h : l.WellFormed (before ++ t :: after)) (hRest : before' ++ after' = before ++ after)
    (hArena : arena.Carries (before' ++ { t with score } :: after') []) (hScore : score ≠ .nan)
    (hBefore : ∀ u ∈ before', u.place < placeOf score t.member)
    (hAfter : ∀ u ∈ after', placeOf score t.member < u.place) :
    { l with arena, scores := l.scores.insert t.member score }.WellFormed
      (before' ++ { t with score } :: after') where
  arena := hArena
  number := by
    intro u hu
    rcases List.mem_cons.mp (List.perm_middle.mem_iff.mp hu) with rfl | hu
    · exact hScore
    · exact h.number_rest u (hRest ▸ hu)
  ordered := ordered_insert.mpr ⟨hRest ▸ (ordered_insert.mp h.ordered).1, hBefore, hAfter⟩
  level := by rw [top_insert, hRest, h.level, top_insert]
  scores := by
    have hErased := h.recorded_cons.erase h.member_ne
    have hInserted := hErased.insert (t := { t with score }) h.member_ne
    rw [← hRest, insert_erase_self] at hInserted
    exact hInserted.of_mem_iff fun _ => List.perm_middle.mem_iff

theorem map_rescored (h : l.WellFormed (before ++ t :: after)) (score : Score) :
    (before ++ t :: after).map (Tower.rescored t.slot score) =
      before ++ { t with score } :: after := by
  rw [List.map_append, List.map_cons, Tower.map_rescored, Tower.map_rescored,
    Tower.rescored, if_pos rfl]
  · intro u hu
    exact h.slot_ne u (List.mem_append_right before hu)
  · intro u hu
    exact h.slot_ne u (List.mem_append_left after hu)

/-- Between unlinking and linking a node is spare, and so takes its score without moving others. -/
theorem detach? (h : l.WellFormed (before ++ t :: after)) (score : Score) :
    ∃ unlinked scored, unlink? t.slot (pathTo before) (List.range l.level) l.arena = some unlinked ∧
      unlinked.setScore? t.slot score = some scored ∧
      scored.Carries (before ++ after) [{ t with score }] := by
  have hHeight : t.height.val ≤ l.level := h.level ▸ height_le_top (by simp)
  obtain ⟨a, hUnlink, hCarries⟩ := h.arena.unlink? hHeight h.level_le
  obtain ⟨b, hSet, hCarries⟩ := hCarries.setScore? (t := t) (by simp) score
  rw [Tower.map_rescored h.slot_ne, List.map_singleton, Tower.rescored, if_pos rfl] at hCarries
  exact ⟨a, b, hUnlink, hSet, hCarries⟩

theorem relink? (h : l.WellFormed (before ++ t :: after)) {score : Score} (hScore : score ≠ .nan)
    {before' after' : List Tower} (hRest : before' ++ after' = before ++ after)
    (hBefore : ∀ u ∈ before', u.place < placeOf score t.member)
    (hAfter : ∀ u ∈ after', placeOf score t.member < u.place) :
    ∃ unlinked scored linked,
      unlink? t.slot (pathTo before) (List.range l.level) l.arena = some unlinked ∧
      unlinked.setScore? t.slot score = some scored ∧
      link? scored t.slot (pathTo before') = some linked ∧
      SkipList.relink? l.arena l.level t.slot (pathTo before) t.member score = some linked ∧
      linked.Carries (before' ++ { t with score } :: after') [] := by
  obtain ⟨unlinked, scored, hUnlink, hSet, hCarries⟩ := h.detach? score
  rw [← hRest] at hCarries
  have hTop : top (before' ++ after') ≤ l.level := by
    rw [hRest, h.level, top_insert]
    exact Nat.le_max_left ..
  have hSeek := seek?_precedes hCarries (hRest ▸ h.number_rest) hScore hTop h.level_le hBefore
    fun u hu => (hAfter u hu).not_gt
  obtain ⟨linked, hLink, hCarries⟩ := hCarries.link?
  refine ⟨unlinked, scored, linked, hUnlink, hSet, hLink, ?_, hCarries⟩
  simp only [SkipList.relink?, hUnlink, hSet, hSeek, Option.bind_eq_bind, Option.bind_some]
  exact hLink

/-- Where a member's place with another score is, among the other towers. -/
theorem exists_place (h : l.WellFormed (before ++ t :: after)) (score : Score) :
    ∃ before' after', before' ++ after' = before ++ after ∧
      (∀ u ∈ before', u.place < placeOf score t.member) ∧
      ∀ u ∈ after', placeOf score t.member < u.place := by
  obtain ⟨hOrdered, -, -⟩ := ordered_insert.mp h.ordered
  obtain ⟨before', after', hSplit, hPlaces⟩ := hOrdered.exists_split h.member_ne score
  exact ⟨before', after', hSplit.symm, hPlaces⟩

theorem rescore?_eq (h : l.WellFormed (before ++ t :: after)) {score : Score} {stays : Bool}
    {arena : Arena}
    (hStays : staysInPlace? l.arena (lastOn 0 before).slot t.slot t.member score = some stays)
    (hArena : (if stays then l.arena.setScore? t.slot score
      else SkipList.relink? l.arena l.level t.slot (pathTo before) t.member score) = some arena) :
    l.rescore? t.member t.score score =
      some { l with arena, scores := l.scores.insert t.member score } := by
  obtain ⟨hSeek, hAfter⟩ := h.seek?_member
  have hFirst : (pathTo before)[0]? = some (lastOn 0 before).slot :=
    getElem?_pathTo before zero_lt_maxHeight
  cases stays with
  | true =>
    rw [if_pos rfl] at hArena
    simp [SkipList.rescore?, hSeek, hAfter, hFirst, hStays, hArena]
  | false =>
    rw [if_neg Bool.false_ne_true] at hArena
    simp [SkipList.rescore?, hSeek, hAfter, hFirst, hStays, hArena]

theorem rescore? (h : l.WellFormed (before ++ t :: after)) {score : Score} (hScore : score ≠ .nan) :
    ∃ l' towers', l.rescore? t.member t.score score = some l' ∧ l'.WellFormed towers' ∧
      l'.scores = l.scores.insert t.member score := by
  obtain ⟨stays, hStays, hIff⟩ := h.staysInPlace?_iff hScore
  cases stays with
  | true =>
    obtain ⟨hBefore, hAfter⟩ := hIff.mp rfl
    obtain ⟨a, hSet, hCarries⟩ := h.arena.setScore? (t := t) (by simp) score
    rw [h.map_rescored] at hCarries
    exact ⟨_, _, h.rescore?_eq hStays hSet, h.rescored rfl hCarries hScore hBefore hAfter, rfl⟩
  | false =>
    obtain ⟨before', after', hRest, hBefore, hAfter⟩ := h.exists_place score
    obtain ⟨-, -, a, -, -, -, hRelink, hCarries⟩ := h.relink? hScore hRest hBefore hAfter
    exact ⟨_, _, h.rescore?_eq hStays hRelink, h.rescored hRest hCarries hScore hBefore hAfter,
      rfl⟩

theorem drop? (h : l.WellFormed (before ++ t :: after)) :
    ∃ l', l.drop? t.slot (pathTo before) = some l' ∧ l'.WellFormed (before ++ after) ∧
      l'.scores = l.scores.erase t.member := by
  have hHeight : t.height.val ≤ l.level := h.level ▸ height_le_top (by simp)
  obtain ⟨node, hNode, hMember, -, -⟩ := h.arena.holds_of_mem (t := t) (by simp)
  obtain ⟨a, hUnlink, hCarries⟩ := h.arena.unlink? hHeight h.level_le
  obtain ⟨b, hRelease, hCarries⟩ := hCarries.release?
  have hTop : top (before ++ after) ≤ l.level := by
    rw [h.level, top_insert]
    exact Nat.le_max_left ..
  have hUsed := usedLevels?_eq hCarries.linked hTop h.level_le
  refine ⟨{ l with
    arena := b, scores := l.scores.erase t.member, level := top (before ++ after) }, ?_, ?_, rfl⟩
  · simp [SkipList.drop?, hNode, hUnlink, hRelease, hMember, hUsed]
  · exact ⟨hCarries, h.number_rest, (ordered_insert.mp h.ordered).1, rfl,
      h.recorded_cons.erase h.member_ne⟩

end SkipList.WellFormed
end Keyspace
