import Keyspace.Service.Server

/-! # Servers: what each call changes in the register of connections -/
namespace Keyspace
set_option autoImplicit false

/-- What is filed under numbers. -/
abbrev Numbered (β : Type) := Std.ExtTreeMap Nat β

namespace Numbered

variable {β : Type} {m : Numbered β} {id other : Nat} {value : β}

theorem getElem?_insert (m : Numbered β) (id other : Nat) (value : β) :
    (m.insert id value)[other]? = if id = other then some value else m[other]? := by
  simp only [Std.ExtTreeMap.getElem?_insert, Std.compare_eq_iff_eq]

theorem getElem?_erase (m : Numbered β) (id other : Nat) :
    (m.erase id)[other]? = if id = other then none else m[other]? := by
  simp only [Std.ExtTreeMap.getElem?_erase, Std.compare_eq_iff_eq]

theorem mem_of_getElem? (h : m[id]? = some value) : id ∈ m :=
  Std.ExtTreeMap.mem_iff_isSome_getElem?.mpr (h ▸ rfl)

theorem mem_insert : other ∈ m.insert id value ↔ id = other ∨ other ∈ m := by
  rw [Std.ExtTreeMap.mem_insert, Std.compare_eq_iff_eq]

theorem mem_erase : other ∈ m.erase id ↔ id ≠ other ∧ other ∈ m := by
  rw [Std.ExtTreeMap.mem_erase, Ne, Std.compare_eq_iff_eq]

theorem mem_insert_of_mem (h : id ∈ m) : other ∈ m.insert id value ↔ other ∈ m := by
  rw [mem_insert]
  exact or_iff_right_of_imp fun hEq => hEq ▸ h

theorem size_insert_of_not_mem (h : id ∉ m) : (m.insert id value).size = m.size + 1 := by
  have hContains : ¬ m.contains id = true := h
  rw [Std.ExtTreeMap.size_insert, if_neg hContains]

theorem size_insert_of_mem (h : id ∈ m) : (m.insert id value).size = m.size := by
  have hContains : m.contains id = true := h
  rw [Std.ExtTreeMap.size_insert, if_pos hContains]

theorem size_erase_of_mem (h : id ∈ m) : (m.erase id).size + 1 = m.size := by
  have hContains : m.contains id = true := h
  have hPos : m.size ≠ 0 := mt Std.ExtTreeMap.eq_empty_iff_size_eq_zero.mpr
    (Std.ExtTreeMap.ne_empty_of_mem h)
  rw [Std.ExtTreeMap.size_erase, if_pos hContains]
  omega

theorem insert_of_getElem? (h : m[id]? = some value) : m.insert id value = m := by
  refine Std.ExtTreeMap.ext_getElem? fun {other} => ?_
  rw [getElem?_insert]
  split
  · rename_i hEq
    rw [← hEq, h]
  · rfl

theorem insert_insert (m : Numbered β) (id : Nat) (value last : β) :
    (m.insert id value).insert id last = m.insert id last := by
  refine Std.ExtTreeMap.ext_getElem? fun {other} => ?_
  simp only [getElem?_insert]
  split <;> rfl

theorem erase_insert (m : Numbered β) (id : Nat) (value : β) :
    (m.insert id value).erase id = m.erase id := by
  refine Std.ExtTreeMap.ext_getElem? fun {other} => ?_
  simp only [getElem?_erase, getElem?_insert]
  split <;> rfl

theorem nodup_toList (m : Numbered β) : (m.toList.map Prod.fst).Nodup := by
  rw [Std.ExtTreeMap.map_fst_toList_eq_keys]
  exact m.nodup_keys

/-- Something is filed under a number, or nothing any more. -/
def file (m : Numbered β) (id : Nat) : Option β → Numbered β
  | some value => m.insert id value
  | none => m.erase id

theorem getElem?_file (m : Numbered β) (id : Nat) (value : Option β) (other : Nat) :
    (m.file id value)[other]? = if id = other then value else m[other]? := by
  cases value with
  | some value => exact getElem?_insert ..
  | none => exact getElem?_erase ..

end Numbered

namespace Server

variable {s s' : Server} {id : Nat} {reply : Reply}

theorem of_accepted (h : s.accept = (.accepted id, s')) :
    s.connections.size < s.config.maxConnections.toNat ∧ id = s.arrivals + 1 ∧
      s' = { s with
        arrivals := s.arrivals + 1
        connections :=
          s.connections.insert (s.arrivals + 1) (Connection.fresh s.config.maxLineLength) } := by
  rw [accept] at h
  split at h
  · cases h
  · dsimp only at h
    split at h
    · cases h
    · rename_i hRoom
      cases h
      exact ⟨Nat.lt_of_not_le hRoom, rfl, rfl⟩

theorem of_refused (h : s.accept = (.refused reply, s')) :
    s.config.maxConnections.toNat ≤ s.connections.size ∧ reply = noRoom ∧
      s' = { s with arrivals := s.arrivals + 1 } := by
  rw [accept] at h
  split at h
  · cases h
  · dsimp only at h
    split at h
    · rename_i hFull
      cases h
      exact ⟨hFull, rfl, rfl⟩
    · cases h

theorem of_unreachable (h : s.accept = (.unreachable, s')) : s.running = false ∧ s' = s := by
  rw [accept] at h
  split at h
  · rename_i hRunning
    cases h
    exact ⟨(Bool.not_eq_true' _).mp hRunning, rfl⟩
  · dsimp only at h
    split at h <;> cases h

theorem eq_of_start {config : Config} {chance : Chance} {s : Server}
    (h : start config chance = .ok s) :
    0 < config.maxConnections.toNat ∧ s = ⟨config, Store.empty chance, ∅, 0, true⟩ := by
  rw [start, Config.validate] at h
  split at h
  · cases h
  · rename_i hSome
    split at h
    · cases h
    · cases h
      exact ⟨Nat.pos_of_ne_zero fun hZero => hSome (UInt64.toNat_inj.mp hZero), rfl⟩

/-- What the register has for a connection that has been served as far as it goes. -/
def kept (s : Server) (c : Connection) : Option Connection :=
  match (c.serve s.store).1 with
  | .waiting | .panicked => some (c.serve s.store).2.1.takeSent.2
  | _ => none

theorem serve_eq (s : Server) (id : Nat) (c : Connection) :
    (s.serve id c).2.2 = { s with
      store := (c.serve s.store).2.2
      connections := Numbered.file s.connections id (s.kept c) } := by
  rw [serve, kept]
  obtain ⟨ending, next, store⟩ := c.serve s.store
  cases ending <;> rfl

theorem getElem?_serve (s : Server) {id other : Nat} (c : Connection) (hNe : id ≠ other) :
    (s.serve id c).2.2.connections[other]? = s.connections[other]? := by
  rw [serve_eq]
  exact (Numbered.getElem?_file ..).trans (if_neg hNe)

end Server

end Keyspace
