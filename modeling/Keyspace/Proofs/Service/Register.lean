import Keyspace.Proofs.Service.Server
import Keyspace.Proofs.Service.Threads

/-! # The register: who is let in, who is turned away, and that each place is given back once -/
namespace Keyspace
open Text
set_option autoImplicit false

/-- A thread is to see to a connection until it has struck it off the register. -/
def Serves (handlers : Numbered Handler) (id : Nat) : Prop :=
  ∃ handler, handlers[id]? = some handler ∧ handler ≠ .struck

section
variable {handlers : Numbered Handler} {handler : Handler} {id other : Nat}

theorem serves_insert : Serves (handlers.insert id handler) other ↔
    id = other ∧ handler ≠ .struck ∨ id ≠ other ∧ Serves handlers other := by
  simp only [Serves, Numbered.getElem?_insert]
  split <;> simp [*]

theorem serves_erase : Serves (handlers.erase id) other ↔ id ≠ other ∧ Serves handlers other := by
  simp only [Serves, Numbered.getElem?_erase]
  split <;> simp [*]

theorem serves_insert_of_serves (h : Serves handlers id) (hHandler : handler ≠ .struck) :
    Serves (handlers.insert id handler) other ↔ Serves handlers other := by
  rw [serves_insert]
  by_cases hEq : id = other
  · subst hEq
    simp [h, hHandler]
  · simp [hEq]

end

/-- Whether a connection that is registered has been shut down. -/
def Acceptor.HasShut (id : Nat) : Acceptor → Prop
  | closing ids => id ∉ ids
  | waiting | returned => True
  | _ => False

def Acceptor.IsOpen : Acceptor → Prop
  | closing _ | waiting | returned => False
  | _ => True

namespace Threads

variable {t u v : Threads} {event : Event}

/-- What holds whichever threads have taken their turns. -/
structure Orderly (t : Threads) : Prop where
  registered : ∀ id, id ∈ t.server.connections ↔ Serves t.handlers id
  room : t.server.connections.size ≤ t.server.config.maxConnections.toNat
  known : ∀ id ∈ t.handlers, id ≤ t.server.arrivals
  spawning : ∀ id, t.acceptor = .spawning id → t.handlers[id]? = some .due
  refusing : ∀ id reply, t.acceptor = .refusing id reply →
    reply = Server.noRoom ∧ id ≤ t.server.arrivals ∧ id ∉ t.handlers ∧ id ∉ t.refused
  refused : ∀ id ∈ t.refused, id ≤ t.server.arrivals ∧ id ∉ t.handlers
  shut : ∀ id c, t.server.connections[id]? = some c → t.acceptor.HasShut id → c.IsShut
  returned : t.acceptor = .returned → t.handlers = ∅

theorem orderly_start {server : Server} (h : server.connections = ∅) : (start server).Orderly where
  registered id := by
    rw [start, h]
    constructor
    · intro hId
      exact absurd hId Std.ExtTreeMap.not_mem_empty
    · rintro ⟨handler, hHandler, -⟩
      exact absurd (Numbered.mem_of_getElem? hHandler) Std.ExtTreeMap.not_mem_empty
  room := by
    rw [start, h]
    exact Nat.zero_le _
  known id hId := absurd hId Std.ExtTreeMap.not_mem_empty
  spawning := nofun
  refusing := nofun
  refused id hId := absurd hId Std.ExtTreeMap.not_mem_empty
  shut _ _ _ hShut := hShut.elim
  returned := nofun

namespace Orderly

variable (h : t.Orderly)
include h

theorem accept {server : Server} {id : Nat} (hAccept : t.server.accept = (.accepted id, server)) :
    Orderly { t with
      server, acceptor := .spawning id, handlers := t.handlers.insert id .due } := by
  obtain ⟨hRoom, rfl, rfl⟩ := Server.of_accepted hAccept
  have hNew : t.server.arrivals + 1 ∉ t.handlers := fun hId =>
    absurd (h.known _ hId) (Nat.not_succ_le_self _)
  have hUnregistered : t.server.arrivals + 1 ∉ t.server.connections := by
    rw [h.registered]
    rintro ⟨handler, hHandler, -⟩
    exact hNew (Numbered.mem_of_getElem? hHandler)
  refine ⟨?registered, ?room, ?known, ?spawning, nofun, ?refused, fun _ _ _ => False.elim, nofun⟩
  case registered =>
    intro id
    rw [Numbered.mem_insert, serves_insert, h.registered]
    by_cases hEq : t.server.arrivals + 1 = id <;> simp [hEq]
  case room => exact (Numbered.size_insert_of_not_mem hUnregistered).trans_le hRoom
  case known =>
    intro id hId
    rcases Numbered.mem_insert.mp hId with rfl | hId
    · exact Nat.le_refl _
    · exact Nat.le_succ_of_le (h.known id hId)
  case spawning =>
    rintro id hId
    cases hId
    exact Std.ExtTreeMap.getElem?_insert_self
  case refused =>
    intro id hId
    obtain ⟨hKnown, hHandler⟩ := h.refused id hId
    refine ⟨Nat.le_succ_of_le hKnown, fun hMem => ?_⟩
    rcases Numbered.mem_insert.mp hMem with rfl | hMem
    · exact Nat.not_succ_le_self _ hKnown
    · exact hHandler hMem

theorem refuse {server : Server} {reply : Reply}
    (hRefuse : t.server.accept = (.refused reply, server)) :
    Orderly { t with server, acceptor := .refusing server.arrivals reply } := by
  obtain ⟨-, rfl, rfl⟩ := Server.of_refused hRefuse
  refine { h with known := ?known, spawning := nofun, refusing := ?refusing, refused := ?refused,
                  shut := fun _ _ _ => False.elim, returned := nofun }
  case known => exact fun id hId => Nat.le_succ_of_le (h.known id hId)
  case refusing =>
    rintro id reply hId
    cases hId
    refine ⟨rfl, Nat.le_refl _, fun hId => ?_, fun hId => ?_⟩
    · exact Nat.not_succ_le_self _ (h.known _ hId)
    · exact Nat.not_succ_le_self _ (h.refused _ hId).1
  case refused => exact fun id hId => ⟨Nat.le_succ_of_le (h.refused id hId).1, (h.refused id hId).2⟩

theorem tell {id : Nat} {reply : Reply} (hAt : t.acceptor = .refusing id reply) (client : Sink) :
    Orderly { t with acceptor := .looking, refused := t.refused.insert id client } := by
  obtain ⟨-, hKnown, hHandler, -⟩ := h.refusing id reply hAt
  refine { h with spawning := nofun, refusing := nofun, refused := ?refused,
                  shut := fun _ _ _ => False.elim, returned := nofun }
  case refused =>
    intro other hOther
    rcases Numbered.mem_insert.mp hOther with rfl | hOther
    · exact ⟨hKnown, hHandler⟩
    · exact h.refused other hOther

theorem spawn {id : Nat} (hAt : t.acceptor = .spawning id) :
    Orderly { t with acceptor := .looking, handlers := t.handlers.insert id .preparing } := by
  have hDue := h.spawning id hAt
  have hServes : Serves t.handlers id := ⟨_, hDue, nofun⟩
  have hPreparing : Handler.preparing ≠ .struck := nofun
  have hKeys : ∀ other, other ∈ t.handlers.insert id .preparing ↔ other ∈ t.handlers := fun _ =>
    Numbered.mem_insert_of_mem (Numbered.mem_of_getElem? hDue)
  refine { h with registered := ?registered, known := ?known, spawning := nofun, refusing := nofun,
                  refused := ?refused, shut := fun _ _ _ => False.elim, returned := nofun }
  case registered => exact fun other =>
    (h.registered other).trans (serves_insert_of_serves hServes hPreparing).symm
  case known => exact fun other hOther => h.known other ((hKeys other).mp hOther)
  case refused => exact fun other hOther =>
    ⟨(h.refused other hOther).1, mt (hKeys other).mp (h.refused other hOther).2⟩

theorem unspawned {id : Nat} :
    Orderly { t with
      server := t.server.strike id, acceptor := .looking, handlers := t.handlers.erase id } := by
  have hKeys : ∀ other, other ∈ t.handlers.erase id → other ∈ t.handlers := fun _ hOther =>
    (Numbered.mem_erase.mp hOther).2
  refine { h with registered := ?registered, room := ?room, known := ?known, spawning := nofun,
                  refusing := nofun, refused := ?refused, shut := fun _ _ _ => False.elim,
                  returned := nofun }
  case registered =>
    intro other
    rw [Server.strike, Numbered.mem_erase, serves_erase, h.registered]
  case room => exact Nat.le_trans Std.ExtTreeMap.size_erase_le h.room
  case known => exact fun other hOther => h.known other (hKeys other hOther)
  case refused => exact fun other hOther =>
    ⟨(h.refused other hOther).1, mt (hKeys other) (h.refused other hOther).2⟩

theorem close {ids : List Nat} (hIds : ids.Perm t.server.connections.keys) :
    Orderly { t with server := { t.server with running := false }, acceptor := .closing ids } := by
  refine { h with spawning := nofun, refusing := nofun, shut := ?shut, returned := nofun }
  case shut =>
    intro id c hFound hShut
    have hKey := Std.ExtTreeMap.mem_keys.mpr (Numbered.mem_of_getElem? hFound)
    exact absurd (hIds.mem_iff.mpr hKey) hShut

theorem shut_put {id : Nat} {c : Connection} {acceptor : Acceptor}
    (hShut : acceptor.HasShut id → c.IsShut)
    (hOthers : ∀ other, id ≠ other → acceptor.HasShut other → t.acceptor.HasShut other) :
    ∀ other d, (t.server.put id c).connections[other]? = some d → acceptor.HasShut other →
      d.IsShut := by
  intro other d hFound hDone
  rw [Server.put, Numbered.getElem?_insert] at hFound
  split at hFound
  · rename_i hEq
    cases hFound
    exact hShut (hEq ▸ hDone)
  · rename_i hNe
    exact h.shut other d hFound (hOthers other hNe hDone)

theorem put {id : Nat} {c : Connection} (hId : id ∈ t.server.connections) {acceptor : Acceptor}
    (hShut : acceptor.HasShut id → c.IsShut)
    (hOthers : ∀ other, id ≠ other → acceptor.HasShut other → t.acceptor.HasShut other)
    (hAt : acceptor = t.acceptor ∨ ∃ ids, acceptor = .closing ids) :
    Orderly { t with server := t.server.put id c, acceptor } := by
  refine { h with registered := ?registered, room := ?room, spawning := ?spawning,
                  refusing := ?refusing, shut := h.shut_put hShut hOthers, returned := ?returned }
  case registered => exact fun other => (Numbered.mem_insert_of_mem hId).trans (h.registered other)
  case room => exact (Numbered.size_insert_of_mem hId).trans_le h.room
  all_goals rcases hAt with rfl | ⟨ids, rfl⟩
  · exact h.spawning
  · exact nofun
  · exact h.refusing
  · exact nofun
  · exact h.returned
  · exact nofun

theorem closed (hAt : t.acceptor = .closing []) : Orderly { t with acceptor := .waiting } := by
  refine { h with spawning := nofun, refusing := nofun, shut := ?shut, returned := nofun }
  case shut =>
    intro id c hFound _
    refine h.shut id c hFound ?_
    rw [hAt]
    exact List.not_mem_nil

theorem finish (hAt : t.acceptor = .waiting) (hNone : t.handlers = ∅) :
    Orderly { t with acceptor := .returned } := by
  refine { h with spawning := nofun, refusing := nofun, shut := ?shut, returned := fun _ => hNone }
  case shut =>
    intro id c hFound _
    refine h.shut id c hFound ?_
    rw [hAt]
    trivial

/-- A thread that is not about to start changes what it is doing, and does not end. -/
theorem rehandle {id : Nat} {handler next : Handler} (hAt : t.handlers[id]? = some handler)
    (hDue : handler ≠ .due) {server : Server} (hConfig : server.config = t.server.config)
    (hArrivals : server.arrivals = t.server.arrivals)
    (hRegistered : ∀ other,
      other ∈ server.connections ↔ Serves (t.handlers.insert id next) other)
    (hRoom : server.connections.size ≤ t.server.connections.size)
    (hShut : ∀ other c, server.connections[other]? = some c → t.acceptor.HasShut other →
      c.IsShut) :
    Orderly { t with server, handlers := t.handlers.insert id next } := by
  have hMem : id ∈ t.handlers := Numbered.mem_of_getElem? hAt
  have hKeys : ∀ other, other ∈ t.handlers.insert id next ↔ other ∈ t.handlers := fun _ =>
    Numbered.mem_insert_of_mem hMem
  refine ⟨hRegistered, ?room, ?known, ?spawning, ?refusing, ?refused, hShut, ?returned⟩
  case room => exact hConfig ▸ Nat.le_trans hRoom h.room
  case known => exact fun other hOther => hArrivals ▸ h.known other ((hKeys other).mp hOther)
  case spawning =>
    intro other hOther
    have hStarting := h.spawning other hOther
    have hNe : id ≠ other := by
      rintro rfl
      cases hAt.symm.trans hStarting
      exact hDue rfl
    rw [Numbered.getElem?_insert, if_neg hNe]
    exact hStarting
  case refusing =>
    intro other reply hOther
    obtain ⟨hReply, hKnown, hHandler, hRefused⟩ := h.refusing other reply hOther
    exact ⟨hReply, hArrivals ▸ hKnown, mt (hKeys other).mp hHandler, hRefused⟩
  case refused => exact fun other hOther =>
    ⟨hArrivals ▸ (h.refused other hOther).1, mt (hKeys other).mp (h.refused other hOther).2⟩
  case returned =>
    intro hDone
    rw [h.returned hDone] at hMem
    exact absurd hMem Std.ExtTreeMap.not_mem_empty

theorem work {id : Nat} {task next : Task} (hAt : t.handlers[id]? = some task.handler)
    (hFound : t.server.connections[id]? = some task.connection)
    (hStep : task.Step t.server.config next) :
    Orderly { t with
      server := { t.server.put id next.connection with store := next.store }
      handlers := t.handlers.insert id next.handler } := by
  have hId : id ∈ t.server.connections := Numbered.mem_of_getElem? hFound
  have hServes := (h.registered id).mp hId
  refine h.rehandle hAt hStep.handler_ne.1 rfl rfl ?registered ?room ?shut
  case registered =>
    intro other
    rw [serves_insert_of_serves hServes hStep.handler_ne.2]
    exact (Numbered.mem_insert_of_mem hId).trans (h.registered other)
  case room => exact (Numbered.size_insert_of_mem hId).le
  case shut =>
    refine h.shut_put (fun hShut => ?_) fun _ _ hShut => hShut
    exact hStep.isShut (h.shut id _ hFound hShut)

theorem leave {id : Nat} {result : Result Unit}
    (hAt : t.handlers[id]? = some (.leaving result)) :
    Orderly { t with
      server := t.server.strike id, handlers := t.handlers.insert id .struck } := by
  refine h.rehandle hAt nofun rfl rfl ?registered Std.ExtTreeMap.size_erase_le ?shut
  case registered =>
    intro other
    rw [Server.strike, Numbered.mem_erase, serves_insert, h.registered]
    simp
  case shut =>
    intro other c hFound
    rw [Server.strike, Numbered.getElem?_erase] at hFound
    split at hFound
    · cases hFound
    · exact h.shut other c hFound

theorem exit {id : Nat} (hAt : t.handlers[id]? = some .struck) :
    Orderly { t with handlers := t.handlers.erase id } := by
  have hKeys : ∀ other, other ∈ t.handlers.erase id → other ∈ t.handlers := fun _ hOther =>
    (Numbered.mem_erase.mp hOther).2
  refine { h with registered := ?registered, known := ?known, spawning := ?spawning,
                  refusing := ?refusing, refused := ?refused, returned := ?returned }
  case registered =>
    intro other
    rw [serves_erase, h.registered]
    refine ⟨fun hServes => ⟨?_, hServes⟩, And.right⟩
    rintro rfl
    obtain ⟨handler, hHandler, hNe⟩ := hServes
    cases hAt.symm.trans hHandler
    exact hNe rfl
  case known => exact fun other hOther => h.known other (hKeys other hOther)
  case spawning =>
    intro other hOther
    have hDue := h.spawning other hOther
    have hNe : id ≠ other := by
      rintro rfl
      cases hAt.symm.trans hDue
    rw [Numbered.getElem?_erase, if_neg hNe]
    exact hDue
  case refusing =>
    intro other reply hOther
    obtain ⟨hReply, hKnown, hHandler, hRefused⟩ := h.refusing other reply hOther
    exact ⟨hReply, hKnown, mt (hKeys other) hHandler, hRefused⟩
  case refused => exact fun other hOther =>
    ⟨(h.refused other hOther).1, mt (hKeys other) (h.refused other hOther).2⟩
  case returned =>
    intro hDone
    have hMem := Numbered.mem_of_getElem? hAt
    rw [h.returned hDone] at hMem
    exact absurd hMem Std.ExtTreeMap.not_mem_empty

end Orderly

theorem Step.orderly (hStep : t.Step event u) (h : t.Orderly) : u.Orderly := by
  cases hStep with
  | request => exact { h with }
  | listen | nobody =>
    exact { h with spawning := nofun, refusing := nofun, shut := fun _ _ _ => False.elim,
                   returned := nofun }
  | accept _ hAccept => exact h.accept hAccept
  | refuse _ hRefuse => exact h.refuse hRefuse
  | tell hAt => exact h.tell hAt _
  | spawn hAt => exact h.spawn hAt
  | unspawned => exact h.unspawned
  | close _ _ hIds => exact h.close hIds
  | shut hAt hFound =>
    rename_i id ids c
    refine h.put (Numbered.mem_of_getElem? hFound) (fun _ => c.isShut_shutDown) ?_ (.inr ⟨_, rfl⟩)
    intro other hNe hDone
    rw [hAt]
    exact List.not_mem_cons_of_ne_of_not_mem hNe.symm hDone
  | closed hAt => exact h.closed hAt
  | finish hAt hNone => exact h.finish hAt hNone
  | work hAt hFound _ hStep => exact h.work hAt hFound hStep
  | leave hAt => exact h.leave hAt
  | exit hAt => exact h.exit hAt
  | evolve hFound hEvolves =>
    have hShut := fun hDone => hEvolves.shut (h.shut _ _ hFound hDone)
    exact h.put (Numbered.mem_of_getElem? hFound) hShut (fun _ _ hDone => hDone) (.inl rfl)

theorem Runs.orderly (hRun : t.Runs u) (h : t.Orderly) : u.Orderly := by
  induction hRun with
  | refl => exact h
  | tail _ hStep ih =>
    obtain ⟨event, hStep⟩ := hStep
    exact hStep.orderly ih

theorem Step.config (hStep : t.Step event u) : u.server.config = t.server.config := by
  cases hStep with
  | accept _ hAccept => rw [(Server.of_accepted hAccept).2.2]
  | refuse _ hRefuse => rw [(Server.of_refused hRefuse).2.2]
  | _ => rfl

theorem Step.arrivals_le (hStep : t.Step event u) : t.server.arrivals ≤ u.server.arrivals := by
  cases hStep with
  | accept _ hAccept =>
    rw [(Server.of_accepted hAccept).2.2]
    exact Nat.le_succ _
  | refuse _ hRefuse =>
    rw [(Server.of_refused hRefuse).2.2]
    exact Nat.le_succ _
  | _ => exact Nat.le_refl _

theorem Step.running (hStep : t.Step event u) (h : t.acceptor.IsOpen → t.server.running = true) :
    u.acceptor.IsOpen → u.server.running = true := by
  cases hStep with
  | accept hAt hAccept =>
    rw [(Server.of_accepted hAccept).2.2]
    exact fun _ => h (hAt ▸ trivial)
  | refuse hAt hRefuse =>
    rw [(Server.of_refused hRefuse).2.2]
    exact fun _ => h (hAt ▸ trivial)
  | listen hAt | nobody hAt | tell hAt | spawn hAt | unspawned hAt =>
    exact fun _ => h (hAt ▸ trivial)
  | close | shut | closed | finish => exact False.elim
  | request | work | leave | exit | evolve => exact h

/-- A step registers no one but a client that it lets in, under a number that is new. -/
theorem Step.mem_connections (hStep : t.Step event u) {id : Nat}
    (hId : id ∈ u.server.connections) :
    id ∈ t.server.connections ∨ t.server.arrivals < id := by
  cases hStep with
  | accept _ hAccept =>
    rw [(Server.of_accepted hAccept).2.2] at hId
    rcases Numbered.mem_insert.mp hId with rfl | hId
    · exact .inr (Nat.lt_succ_self _)
    · exact .inl hId
  | refuse _ hRefuse =>
    rw [(Server.of_refused hRefuse).2.2] at hId
    exact .inl hId
  | unspawned | leave => exact .inl (Numbered.mem_erase.mp hId).2
  | shut _ hFound | work _ hFound | evolve hFound =>
    exact .inl ((Numbered.mem_insert_of_mem (Numbered.mem_of_getElem? hFound)).mp hId)
  | request | listen | nobody | tell | spawn | close | closed | finish | exit => exact .inl hId

theorem Step.getElem?_refused (hStep : t.Step event u) (h : t.Orderly) {id : Nat}
    (hId : id ∈ t.refused) : u.refused[id]? = t.refused[id]? := by
  cases hStep with
  | tell hAt hNew =>
    rename_i other reply client
    have hNe : other ≠ id := by
      rintro rfl
      exact (h.refusing other reply hAt).2.2.2 hId
    exact (Numbered.getElem?_insert ..).trans (if_neg hNe)
  | _ => rfl

namespace Runs

theorem config (hRun : t.Runs u) : u.server.config = t.server.config := by
  induction hRun with
  | refl => rfl
  | tail _ hStep ih =>
    obtain ⟨event, hStep⟩ := hStep
    exact hStep.config.trans ih

theorem arrivals_le (hRun : t.Runs u) : t.server.arrivals ≤ u.server.arrivals := by
  induction hRun with
  | refl => exact Nat.le_refl _
  | tail _ hStep ih =>
    obtain ⟨event, hStep⟩ := hStep
    exact Nat.le_trans ih hStep.arrivals_le

theorem running (hRun : t.Runs u) (h : t.acceptor.IsOpen → t.server.running = true) :
    u.acceptor.IsOpen → u.server.running = true := by
  induction hRun with
  | refl => exact h
  | tail _ hStep ih =>
    obtain ⟨event, hStep⟩ := hStep
    exact hStep.running ih

/-- Who is not registered any more never will be again. -/
theorem not_mem_connections (hRun : t.Runs u) {id : Nat} (hKnown : id ≤ t.server.arrivals)
    (hId : id ∉ t.server.connections) : id ∉ u.server.connections := by
  induction hRun with
  | refl => exact hId
  | tail hRun hStep ih =>
    obtain ⟨event, hStep⟩ := hStep
    intro hMem
    rcases hStep.mem_connections hMem with hMem | hNew
    · exact ih hMem
    · exact absurd hNew (Nat.not_lt_of_le (Nat.le_trans hKnown (arrivals_le hRun)))

theorem getElem?_refused (hRun : t.Runs u) (h : t.Orderly) {id : Nat} (hId : id ∈ t.refused) :
    u.refused[id]? = t.refused[id]? := by
  induction hRun with
  | refl => rfl
  | tail hRun hStep ih =>
    obtain ⟨event, hStep⟩ := hStep
    rw [hStep.getElem?_refused (Runs.orderly hRun h) ?_, ih]
    rw [Std.ExtTreeMap.mem_iff_isSome_getElem?, ih, ← Std.ExtTreeMap.mem_iff_isSome_getElem?]
    exact hId

end Runs

theorem Step.of_accepts {id : Nat} (hStep : t.Step (.accepts id) u) :
    t.server.connections.size < t.server.config.maxConnections.toNat ∧
      id = t.server.arrivals + 1 ∧ u.server.arrivals = id ∧
      u.server.connections =
        t.server.connections.insert id (Connection.fresh t.server.config.maxLineLength) := by
  cases hStep with
  | accept _ hAccept =>
    obtain ⟨hRoom, rfl, rfl⟩ := Server.of_accepted hAccept
    exact ⟨hRoom, rfl, rfl, rfl⟩

namespace Orderly

variable (h : t.Orderly)
include h

theorem step_refuses {id : Nat} (hStep : t.Step (.refuses id) u) :
    t.server.connections.size = t.server.config.maxConnections.toNat ∧
      id = t.server.arrivals + 1 ∧
      u = { t with
        server := { t.server with arrivals := id }, acceptor := .refusing id Server.noRoom } := by
  cases hStep with
  | refuse _ hRefuse =>
    obtain ⟨hFull, rfl, rfl⟩ := Server.of_refused hRefuse
    exact ⟨Nat.le_antisymm h.room hFull, rfl, rfl⟩

theorem step_tells {id : Nat} {client : Sink} (hStep : t.Step (.tells id client) u) :
    client.written = [] ∧ id ∉ t.refused ∧
      u = { t with
        acceptor := .looking
        refused := t.refused.insert id (client.sendReply Server.noRoom).2 } := by
  cases hStep with
  | tell hAt hNew =>
    obtain ⟨rfl, -, -, hRefused⟩ := h.refusing _ _ hAt
    exact ⟨hNew, hRefused, rfl⟩

theorem step_releases {id : Nat} (hStep : t.Step (.releases id) u) :
    id ∈ t.server.connections ∧ u.server = t.server.strike id := by
  cases hStep with
  | unspawned hAt =>
    exact ⟨(h.registered id).mpr ⟨_, h.spawning id hAt, nofun⟩, rfl⟩
  | leave hAt => exact ⟨(h.registered id).mpr ⟨_, hAt, nofun⟩, rfl⟩

/-- Numbers of 64 bits are as good, as long as fewer clients have come than there are such numbers. -/
theorem eq_of_ofNat_eq (hArrivals : t.server.arrivals < UInt64.size) {id other : Nat}
    (hId : id ∈ t.handlers ∨ id ∈ t.refused) (hOther : other ∈ t.handlers ∨ other ∈ t.refused)
    (hSame : UInt64.ofNat id = UInt64.ofNat other) : id = other := by
  have hBound : ∀ id, id ∈ t.handlers ∨ id ∈ t.refused → id < UInt64.size := by
    rintro id (hId | hId)
    · exact Nat.lt_of_le_of_lt (h.known id hId) hArrivals
    · exact Nat.lt_of_le_of_lt (h.refused id hId).1 hArrivals
  have hNat := congrArg UInt64.toNat hSame
  rwa [UInt64.toNat_ofNat_of_lt' (hBound id hId),
    UInt64.toNat_ofNat_of_lt' (hBound other hOther)] at hNat

end Orderly

/-- A server that serves only so many connections, whichever threads have taken their turns. -/
structure Limited (limit : Nat) (t : Threads) : Prop where
  room : t.server.connections.size ≤ limit
  /-- A connection is registered until its thread is over, however that came. -/
  registered : ∀ id, id ∈ t.server.connections ↔ Serves t.handlers id
  /-- A client is let in only where there is room, under a number that no one ever had. -/
  accepts : ∀ id u, t.Step (.accepts id) u → t.server.connections.size < limit ∧
    id ∈ u.server.connections ∧ (∀ other ≠ id,
      u.server.connections[other]? = t.server.connections[other]?) ∧
    ∀ s : Threads, s.Orderly → s.Runs t → id ∉ s.server.connections
  /-- A client is refused only where there is none, which changes nothing for the others, and it is
  never registered. -/
  refuses : ∀ id u, t.Step (.refuses id) u → t.server.connections.size = limit ∧
    u = { t with
      server := { t.server with arrivals := id }, acceptor := .refusing id Server.noRoom } ∧
    id ∉ t.server.connections ∧ ∀ v, u.Runs v → id ∉ v.server.connections
  tells : ∀ id client u, t.Step (.tells id client) u →
    u.server = t.server ∧ u.handlers = t.handlers ∧
      (∀ other ≠ id, u.refused[other]? = t.refused[other]?) ∧
      (client.Takes → ∀ v, u.Runs v → v.refused[id]?.map Sink.written =
        some (utf8 "error: too many connections\n"))
  /-- Who comes is let in or refused, and who is refused is told so next. -/
  answers : (t.acceptor = .listening →
      ∃ id u, t.Step (.accepts id) u ∨ t.Step (.refuses id) u) ∧
    ∀ id reply, t.acceptor = .refusing id reply →
      ∀ client : Sink, client.written = [] → ∃ u, t.Step (.tells id client) u
  releases : ∀ id u, t.Step (.releases id) u → id ∈ t.server.connections ∧
    u.server.connections = t.server.connections.erase id ∧
    u.server.connections.size + 1 = t.server.connections.size ∧
    ∀ v, u.Runs v → id ∉ v.server.connections
  /-- A connection that is shut down is every one that is registered, once the server waits. -/
  waiting : t.acceptor = .waiting → ∀ (id : Nat) (c : Connection),
    t.server.connections[id]? = some c → c.IsShut
  returned : t.acceptor = .returned → t.handlers = ∅ ∧ t.server.connections = ∅

theorem Orderly.limited (h : t.Orderly) (hRunning : t.acceptor.IsOpen → t.server.running = true) :
    t.Limited t.server.config.maxConnections.toNat where
  room := h.room
  registered := h.registered
  accepts id u hStep := by
    obtain ⟨hRoom, rfl, -, hConnections⟩ := hStep.of_accepts
    rw [hConnections]
    refine ⟨hRoom, Numbered.mem_insert.mpr (.inl rfl), fun other hNe => ?_, ?_⟩
    · rw [Numbered.getElem?_insert, if_neg hNe.symm]
    · intro s hS hRun hId
      obtain ⟨handler, hHandler, -⟩ := (hS.registered _).mp hId
      have hKnown := hS.known _ (Numbered.mem_of_getElem? hHandler)
      have hArrivals := Runs.arrivals_le hRun
      omega
  refuses id u hStep := by
    obtain ⟨hFull, rfl, rfl⟩ := h.step_refuses hStep
    have hNew : t.server.arrivals + 1 ∉ t.server.connections := by
      rw [h.registered]
      rintro ⟨handler, hHandler, -⟩
      exact Nat.not_succ_le_self _ (h.known _ (Numbered.mem_of_getElem? hHandler))
    exact ⟨hFull, rfl, hNew, fun v hRun => Runs.not_mem_connections hRun (Nat.le_refl _) hNew⟩
  tells id client u hStep := by
    obtain ⟨hNew, hRefused, rfl⟩ := h.step_tells hStep
    refine ⟨rfl, rfl, fun other hNe => ?_, fun hTakes v hRun => ?_⟩
    · exact (Numbered.getElem?_insert ..).trans (if_neg hNe.symm)
    · rw [Runs.getElem?_refused hRun (hStep.orderly h) (Numbered.mem_insert.mpr (.inl rfl))]
      simp only [Std.ExtTreeMap.getElem?_insert_self, Option.map_some, Sink.sendReply, hTakes.send,
        hNew]
      rfl
  answers := by
    refine ⟨fun hAt => ?_, fun id reply hAt client hNew => ⟨_, .tell hAt hNew⟩⟩
    have hRun := hRunning (hAt ▸ trivial)
    cases hAccept : t.server.accept with
    | mk admission server =>
      cases admission with
      | accepted id => exact ⟨id, _, .inl (.accept hAt hAccept)⟩
      | refused reply => exact ⟨_, _, .inr (.refuse hAt hAccept)⟩
      | unreachable => cases hRun.symm.trans (Server.of_unreachable hAccept).1
  releases id u hStep := by
    obtain ⟨hId, hServer⟩ := h.step_releases hStep
    have hGone : id ∉ u.server.connections := by
      rw [hServer]
      exact fun hMem => (Numbered.mem_erase.mp hMem).1 rfl
    have hKnown : id ≤ u.server.arrivals := by
      obtain ⟨handler, hHandler, -⟩ := (h.registered id).mp hId
      rw [hServer]
      exact h.known id (Numbered.mem_of_getElem? hHandler)
    refine ⟨hId, hServer ▸ rfl, ?_, fun v hRun => Runs.not_mem_connections hRun hKnown hGone⟩
    rw [hServer]
    exact Numbered.size_erase_of_mem hId
  waiting hAt id c hFound := h.shut id c hFound (hAt ▸ trivial)
  returned hAt := by
    refine ⟨h.returned hAt, Std.ExtTreeMap.eq_empty_iff_forall_not_mem.mpr fun id hId => ?_⟩
    obtain ⟨handler, hHandler, -⟩ := (h.registered id).mp hId
    rw [h.returned hAt, Std.ExtTreeMap.getElem?_empty] at hHandler
    cases hHandler

/-- In whatever order clients connect, send, go and the server is asked to stop, it serves only as
many connections at a time as it may. -/
theorem limited_of_runs {config : Config} {chance : Chance} {server : Server}
    (hStart : Server.start config chance = .ok server) (hRun : (start server).Runs t) :
    t.Limited config.maxConnections.toNat := by
  obtain ⟨-, rfl⟩ := Server.eq_of_start hStart
  have hOrderly : t.Orderly := Runs.orderly hRun (orderly_start rfl)
  have hRunning := Runs.running hRun fun _ => rfl
  have hConfig : t.server.config = config := Runs.config hRun
  exact hConfig ▸ hOrderly.limited hRunning

/-- With room for one, the second of two clients is refused, and the first is served until the
server stops. -/
theorem second_client_refused :
    ∃ (server : Server) (t u v : Threads),
      Server.start { maxConnections := 1 } default = .ok server ∧ (start server).Runs t ∧
        t.Step (.tells 2 Sink.unlimited) u ∧ u.Runs v ∧ v.acceptor = .returned ∧
        v.refused[2]?.map Sink.written = some (utf8 "error: too many connections\n") ∧
        v.server.connections = ∅ := by
  have hStart : Server.start { maxConnections := 1 } default =
      .ok ⟨{ maxConnections := 1 }, .empty default, ∅, 0, true⟩ := rfl
  let first : Connection := Connection.fresh 65536
  have hEnd : first.shutDown.reader.readRequest = (.ok none, first.shutDown.reader) := by
    rw [LineReader.readRequest_eq, LineReader.readLine_of_done rfl]
  obtain ⟨t, u, v, hBefore, hTell, hAfter, hReturned⟩ : ∃ t u v : Threads,
      (start ⟨{ maxConnections := 1 }, .empty default, ∅, 0, true⟩).Runs t ∧
        t.Step (.tells 2 Sink.unlimited) u ∧ u.Runs v ∧ v.acceptor = .returned := by
    refine ⟨_, _, _, .head ⟨_, .listen rfl rfl⟩ <| .head ⟨_, .accept rfl rfl⟩ <|
      .head ⟨_, .spawn rfl⟩ <| .head ⟨_, .listen rfl rfl⟩ <| .head ⟨_, .refuse rfl rfl⟩ .refl,
      .tell rfl rfl,
      .head ⟨_, @Step.work _ 1 ⟨.preparing, first, .empty default⟩
        ⟨.reading, first, .empty default⟩ rfl rfl rfl .prepare⟩ <|
      .head ⟨_, .request⟩ <| .head ⟨_, .close rfl rfl (.refl _)⟩ <| .head ⟨_, .shut rfl rfl⟩ <|
      .head ⟨_, .closed rfl⟩ <|
      .head ⟨_, @Step.work _ 1 ⟨.reading, first.shutDown, .empty default⟩ _ rfl rfl rfl
        (.ended hEnd)⟩ <|
      .head ⟨_, @Step.leave _ 1 _ rfl nofun⟩ <| .head ⟨_, @Step.exit _ 1 rfl⟩ <|
      .head ⟨_, .finish rfl rfl⟩ .refl, rfl⟩
  have hRun : Runs _ v := hBefore.trans (.head ⟨_, hTell⟩ hAfter)
  refine ⟨_, t, u, v, hStart, hBefore, hTell, hAfter, hReturned, ?_, ?_⟩
  · exact ((limited_of_runs hStart hBefore).tells 2 _ u hTell).2.2.2 Sink.takes_unlimited v hAfter
  · exact ((limited_of_runs hStart hRun).returned hReturned).2

end Threads
end Keyspace
