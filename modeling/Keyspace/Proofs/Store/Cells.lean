import Mathlib.Data.List.Lattice
import Keyspace.Proofs.Store.Cardinality

/-! # Cells: what a key names in one namespace, and operations that keep to some cells -/
namespace Keyspace
set_option autoImplicit false

section
variable {σ α ι : Type} {V W : ι → Type}

/-- Two states look the same in some places. -/
def Agree (look : σ → (place : ι) → V place) (places : List ι) (s t : σ) : Prop :=
  ∀ place ∈ places, look s place = look t place

/-- An operation keeps to some places: it changes nothing in the others, and both its answer and
what is seen of these after it depend on nothing but what is seen of these before. -/
structure Confined (kind : σ → Prop) (look : σ → (place : ι) → V place)
    (seen : σ → (place : ι) → W place) (run : σ → α × σ) (places : List ι) : Prop where
  frame : ∀ s, ∀ place ∉ places, look (run s).2 place = look s place
  depends : ∀ s t, kind s → kind t → Agree seen places s t →
    (run s).1 = (run t).1 ∧ Agree seen places (run s).2 (run t).2

/-- A view shows nothing else than what there is. -/
def Shows (look : σ → (place : ι) → V place) (seen : σ → (place : ι) → W place) : Prop :=
  ∀ s t place, look s place = look t place → seen s place = seen t place

namespace Confined

variable {kind : σ → Prop} {look : σ → (place : ι) → V place} {seen : σ → (place : ι) → W place}
  {run other : σ → α × σ} {places others : List ι} {s t : σ}

theorem of_read (hSame : ∀ s, (run s).2 = s)
    (hAnswer : ∀ s t, kind s → kind t → Agree seen places s t → (run s).1 = (run t).1) :
    Confined kind look seen run places where
  frame s place _ := by rw [hSame]
  depends s t hs ht h := by
    rw [hSame, hSame]
    exact ⟨hAnswer s t hs ht h, h⟩

/-- On states that look the same everywhere an operation answers alike and leaves the same to see. -/
theorem same (h : Confined kind look seen run places) (hShows : Shows look seen) (hs : kind s)
    (ht : kind t) (hSame : ∀ place, seen s place = seen t place) :
    (run s).1 = (run t).1 ∧ ∀ place, seen (run s).2 place = seen (run t).2 place := by
  obtain ⟨hAnswer, hSeen⟩ := h.depends s t hs ht fun place _ => hSame place
  refine ⟨hAnswer, fun place => ?_⟩
  by_cases hPlace : place ∈ places
  · exact hSeen place hPlace
  · calc
      seen (run s).2 place = seen s place := hShows _ _ _ (h.frame s place hPlace)
      _ = seen t place := hSame place
      _ = seen (run t).2 place := (hShows _ _ _ (h.frame t place hPlace)).symm

/-- An operation leaves to see, in the places of another one, what was to be seen before, if the two
share none. -/
theorem agree (h : Confined kind look seen other others) (hShows : Shows look seen)
    (hApart : places.Disjoint others) (hSame : ∀ place, seen s place = seen t place) :
    Agree seen places s (other t).2 := by
  intro place hPlace
  have hFrame := h.frame t place fun hOther => hApart hPlace hOther
  exact (hSame place).trans (hShows _ _ _ hFrame).symm

theorem seen_swap (h : Confined kind look seen run places)
    (hOther : Confined kind look seen other others) (hShows : Shows look seen)
    (hKeeps : ∀ s, kind s → kind (other s).2) (hApart : places.Disjoint others) (hs : kind s)
    (ht : kind t) (hSame : ∀ place, seen s place = seen t place) {place : ι}
    (hPlace : place ∉ others) :
    seen (other (run s).2).2 place = seen (run (other t).2).2 place := by
  have hLast := hShows _ _ _ (hOther.frame (run s).2 place hPlace)
  by_cases hMem : place ∈ places
  · have hAgree := hOther.agree hShows hApart hSame
    exact hLast.trans ((h.depends _ _ hs (hKeeps t ht) hAgree).2 place hMem)
  · calc
      seen (other (run s).2).2 place = seen (run s).2 place := hLast
      _ = seen s place := hShows _ _ _ (h.frame s place hMem)
      _ = seen t place := hSame place
      _ = seen (other t).2 place := (hShows _ _ _ (hOther.frame t place hPlace)).symm
      _ = seen (run (other t).2).2 place := (hShows _ _ _ (h.frame _ place hMem)).symm

/-- Operations that share no place may change places, also where the one order starts from another
state than the other order, as long as the two look the same. -/
theorem commute (h : Confined kind look seen run places)
    (hOther : Confined kind look seen other others) (hShows : Shows look seen)
    (hKeeps : ∀ s, kind s → kind (run s).2) (hOtherKeeps : ∀ s, kind s → kind (other s).2)
    (hApart : places.Disjoint others) (hs : kind s) (ht : kind t)
    (hSame : ∀ place, seen s place = seen t place) :
    (run s).1 = (run (other t).2).1 ∧ (other (run s).2).1 = (other t).1 ∧
      ∀ place, seen (other (run s).2).2 place = seen (run (other t).2).2 place := by
  have hBack : ∀ place, seen t place = seen s place := fun place => (hSame place).symm
  refine ⟨(h.depends _ _ hs (hOtherKeeps t ht) (hOther.agree hShows hApart hSame)).1,
    (hOther.depends _ _ ht (hKeeps s hs) (h.agree hShows hApart.symm hBack)).1.symm, ?_⟩
  intro place
  by_cases hPlace : place ∈ others
  · have hElsewhere : place ∉ places := fun hMem => hApart hMem hPlace
    exact (hOther.seen_swap h hShows hKeeps hApart.symm ht hs hBack hElsewhere).symm
  · exact h.seen_swap hOther hShows hOtherKeeps hApart hs ht hSame hPlace

end Confined
end

namespace Table

variable {α β : Type} {key other : String} {m n : Table β} {run : Table β → α × Table β}

def look (m : Table β) (key : String) : Option β := m[key]?

/-- An operation on a table keeps to some keys. -/
abbrev ConfinedTo (run : Table β → α × Table β) (keys : List String) : Prop :=
  Confined (fun _ => True) look look run keys

theorem agree_insert {keys : List String} (h : Agree look keys m n) (key : String) (value : β) :
    Agree look keys (m.insert key value) (n.insert key value) := by
  intro other hOther
  simp only [look, Std.ExtTreeMap.getElem?_insert]
  split
  · rfl
  · exact h other hOther

theorem confined_at_key (hFrame : ∀ m other, key ≠ other → (run m).2[other]? = m[other]?)
    (hDepends : ∀ m n : Table β, m[key]? = n[key]? →
      (run m).1 = (run n).1 ∧ (run m).2[key]? = (run n).2[key]?) :
    ConfinedTo run [key] := by
  constructor
  · intro m other hOther
    exact hFrame m other fun hEq => hOther (List.mem_singleton.mpr hEq.symm)
  · intro m n _ _ h
    obtain ⟨hAnswer, hLeft⟩ := hDepends m n (h key List.mem_cons_self)
    refine ⟨hAnswer, fun other hOther => ?_⟩
    cases List.mem_singleton.mp hOther
    exact hLeft

theorem confined_insert {answer : Table β → α} {value : Table β → β}
    (h : ∀ m n : Table β, m[key]? = n[key]? → answer m = answer n ∧ value m = value n) :
    ConfinedTo (fun m => (answer m, m.insert key (value m))) [key] := by
  apply confined_at_key
  · intro m other hOther
    exact getElem?_insert_of_ne hOther _
  · intro m n hKey
    simp only [Std.ExtTreeMap.getElem?_insert_self, h m n hKey, and_self]

/-- An operation that changes what a key names, and only answers if it names nothing. -/
theorem confined_change (absent : α) (change : β → α × β)
    (hNone : ∀ m, m[key]? = none → run m = (absent, m))
    (hSome : ∀ m held, m[key]? = some held →
      run m = ((change held).1, m.insert key (change held).2)) :
    ConfinedTo run [key] := by
  apply confined_at_key
  · intro m other hOther
    cases hFound : m[key]? with
    | none => rw [hNone m hFound]
    | some held =>
      rw [hSome m held hFound]
      exact getElem?_insert_of_ne hOther _
  · intro m n h
    cases hFound : m[key]? with
    | none =>
      rw [hNone m hFound, hNone n (h ▸ hFound)]
      exact ⟨rfl, h⟩
    | some held =>
      rw [hSome m held hFound, hSome n held (h ▸ hFound)]
      simp only [Std.ExtTreeMap.getElem?_insert_self, and_self]

end Table

inductive Namespace where
  | sortedSets
  | strings
  | lists
  | sets
  | hashes
  deriving DecidableEq, Repr

def Namespace.Held : Namespace → Type
  | sortedSets => SkipList
  | strings => String
  | lists => List String
  | sets => Std.ExtTreeSet String
  | hashes => Hash

/-- What a user can see of a thing: of a sorted set the members with their scores, not the levels on
which chance has put them. -/
def Namespace.Seen : Namespace → Type
  | sortedSets => ScoreMap
  | strings => String
  | lists => List String
  | sets => Std.ExtTreeSet String
  | hashes => Hash

def Namespace.view : (n : Namespace) → n.Held → n.Seen
  | sortedSets => SkipList.scores
  | strings | lists | sets | hashes => id

theorem Namespace.view_injective {n : Namespace} (h : n ≠ .sortedSets) :
    Function.Injective n.view := by
  cases n with
  | sortedSets => exact absurd rfl h
  | strings | lists | sets | hashes => exact Function.injective_id

structure Cell where
  space : Namespace
  key : String
  deriving DecidableEq, Repr

namespace Store

def table (s : Store) : (n : Namespace) → Table n.Held
  | .sortedSets => s.sortedSets
  | .strings => s.strings
  | .lists => s.lists
  | .sets => s.sets
  | .hashes => s.hashes

def withTable (s : Store) : (n : Namespace) → Table n.Held → Store
  | .sortedSets, sortedSets => { s with sortedSets }
  | .strings, strings => { s with strings }
  | .lists, lists => { s with lists }
  | .sets, sets => { s with sets }
  | .hashes, hashes => { s with hashes }

def held (s : Store) (cell : Cell) : Option cell.space.Held := (s.table cell.space)[cell.key]?

def seen (s : Store) (cell : Cell) : Option cell.space.Seen := (s.held cell).map cell.space.view

/-- The two stores look the same: they differ at most in what is left to chance. -/
def Same (s t : Store) : Prop := ∀ cell, s.seen cell = t.seen cell

variable {s t : Store}

theorem same_equivalence : Equivalence Same :=
  ⟨fun _ _ => rfl, fun h cell => (h cell).symm, fun h hNext cell => (h cell).trans (hNext cell)⟩

theorem same_empty (chance other : Chance) : (empty chance).Same (empty other) := by
  rintro ⟨n, key⟩
  cases n <;> rfl

theorem shows_seen : Shows held seen := fun _ _ cell h => congrArg (Option.map cell.space.view) h

theorem held_of_seen {n : Namespace} (hSpace : n ≠ .sortedSets) {key : String}
    (h : s.seen ⟨n, key⟩ = t.seen ⟨n, key⟩) : (s.table n)[key]? = (t.table n)[key]? :=
  Option.map_injective (Namespace.view_injective hSpace) h

theorem table_withTable (s : Store) (n : Namespace) (table : Table n.Held) :
    (s.withTable n table).table n = table := by
  cases n <;> rfl

theorem table_withTable_of_ne (s : Store) {n m : Namespace} (h : m ≠ n) (table : Table n.Held) :
    (s.withTable n table).table m = s.table m := by
  cases n <;> cases m <;> first | rfl | exact absurd rfl h

theorem held_withTable_of_not_mem {n : Namespace} {table : Table n.Held} {keys : List String}
    (h : ∀ key ∉ keys, table[key]? = (s.table n)[key]?) :
    ∀ cell ∉ keys.map (Cell.mk n), (s.withTable n table).held cell = s.held cell := by
  rintro ⟨m, key⟩ hCell
  by_cases hSpace : m = n
  · subst hSpace
    rw [held, table_withTable]
    exact h key fun hKey => hCell (List.mem_map_of_mem hKey)
  · rw [held, table_withTable_of_ne s hSpace, held]

/-- What keeps to some keys of a namespace keeps to their cells in the store. -/
theorem confined_withTable {α β : Type} {n : Namespace} (hSpace : n ≠ .sortedSets)
    {run : Table n.Held → α × Table n.Held} {keys : List String}
    (h : Table.ConfinedTo run keys) (reply : α → β) :
    Confined Sound held seen
      (fun s => (reply (run (s.table n)).1, s.withTable n (run (s.table n)).2))
      (keys.map (Cell.mk n)) := by
  constructor
  · intro s
    exact held_withTable_of_not_mem (h.frame (s.table n))
  · intro s t _ _ hCells
    have hKeys : Agree Table.look keys (s.table n) (t.table n) := fun key hKey =>
      held_of_seen hSpace (hCells ⟨n, key⟩ (List.mem_map_of_mem hKey))
    obtain ⟨hAnswer, hLeft⟩ := h.depends _ _ trivial trivial hKeys
    refine ⟨congrArg reply hAnswer, fun cell hCell => shows_seen _ _ _ ?_⟩
    obtain ⟨key, hKey, rfl⟩ := List.mem_map.mp hCell
    simp only [held, table_withTable]
    exact hLeft key hKey

/-- What changes one sorted set, and by its members and scores alone, keeps to its cell. -/
theorem confined_sortedSet {α β : Type} {key : String}
    (run : Coins → SortedSets → α × SortedSets)
    (hFrame : ∀ coins sets other, key ≠ other → (run coins sets).2[other]? = sets[other]?)
    (hDepends : ∀ coins others sets more, sets.Sound → more.Sound →
      sets[key]?.map SkipList.scores = more[key]?.map SkipList.scores →
      (run coins sets).1 = (run others more).1 ∧
        (run coins sets).2[key]?.map SkipList.scores =
          (run others more).2[key]?.map SkipList.scores) (reply : α → β) :
    Confined Sound held seen
      (fun s => (reply (run (s.chance.coins key) s.sortedSets).1,
        { s with sortedSets := (run (s.chance.coins key) s.sortedSets).2 }))
      [⟨.sortedSets, key⟩] := by
  constructor
  · intro s
    refine @held_withTable_of_not_mem s .sortedSets _ [key] ?_
    intro other hOther
    exact hFrame _ _ other fun hEq => hOther (List.mem_singleton.mpr hEq.symm)
  · intro s t hs ht hCells
    obtain ⟨hAnswer, hLeft⟩ :=
      hDepends (s.chance.coins key) (t.chance.coins key) _ _ hs ht (hCells _ List.mem_cons_self)
    refine ⟨congrArg reply hAnswer, fun cell hCell => ?_⟩
    cases List.mem_singleton.mp hCell
    exact hLeft

end Store
end Keyspace
