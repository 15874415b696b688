import Keyspace.Proofs.Service.Register

/-! # Turns: serving a connection in one go is one way for the threads to take their turns -/
namespace Keyspace
open Relation
set_option autoImplicit false

/-- Where a thread is when its connection has been served as far as it goes. -/
def Handler.after : Ending → Handler
  | .waiting => .reading
  | ending => .leaving ending.result

theorem Handler.after_ofWriteError (e : Error) :
    after (.ofWriteError e) = .leaving (Ending.ofWriteError e).result := by
  unfold Ending.ofWriteError
  split <;> rfl

theorem Ending.ofWriteError_ne_panicked (e : Error) : ofWriteError e ≠ .panicked := by
  unfold ofWriteError
  split <;> nofun

theorem Ending.ofReadError_ne_panicked (e : Error) : ofReadError e ≠ .panicked := by
  unfold ofReadError
  split <;> nofun

theorem Task.Step.of_execute {config : Config} {c : Connection} {s store : Store} {line : String}
    {reply : Reply} (hExecute : Request.execute line s = (reply, store)) :
    Task.Step config ⟨.executing line, c, s⟩ ⟨.replying reply, c, store⟩ := by
  have hStep := @Task.Step.execute config c s line
  rwa [hExecute] at hStep

/-- A thread takes a connection, step by step, to where it is when it is served in one go. -/
theorem Connection.steps_serve (config : Config) {c : Connection}
    (hLimit : c.reader.limit.toNat + 1 < UInt64.size) (s : Store) :
    ReflTransGen (Task.Step config) ⟨.reading, c, s⟩
      ⟨.after (c.serve s).1, (c.serve s).2.1, (c.serve s).2.2⟩ := by
  fun_induction Connection.serve c s with
  | case1 c s line reader hRead reply store hExecute sink hSend ih =>
    have hContinues := c.reader.continues_readRequest
    rw [hRead] at hContinues
    have hNext := ih (hContinues.limit ▸ hLimit)
    exact .head (.read hRead) (.head (.of_execute hExecute) (.head (.reply hSend) hNext))
  | case2 c s line reader hRead reply store hExecute e sink hSend =>
    rw [Handler.after_ofWriteError]
    exact .head (.read hRead) (.head (.of_execute hExecute) (.single (.unsent hSend)))
  | case3 c s reader hRead => exact .single (.ended hRead)
  | case4 c s e reader hRead failure hFail result sink hSend =>
    have hTell := @Task.Step.tell config ⟨reader, c.sink⟩ s failure
    rw [hSend] at hTell
    exact .head (.fail hRead hFail) (.single hTell)
  | case5 c s e reader hRead hOther =>
    cases hEnding : Ending.ofReadError e with
    | waiting => exact .single (.wait hRead hEnding)
    | closed => exact .single (.gone hRead hEnding)
    | failed failure => exact (hOther failure hEnding).elim
    | panicked => exact absurd hEnding (Ending.ofReadError_ne_panicked e)
  | case6 c s reader hRead =>
    exact absurd (congrArg Prod.fst hRead) (LineReader.readRequest_ne_panic hLimit)

theorem Connection.limit_serve (c : Connection) (s : Store) :
    (c.serve s).2.1.reader.limit = c.reader.limit := by
  fun_induction Connection.serve c s with
  | case1 c s line reader hRead reply store hExecute sink hSend ih =>
    have hContinues := c.reader.continues_readRequest
    rw [hRead] at hContinues
    exact ih.trans hContinues.limit
  | case2 c _ _ reader hRead | case3 c _ reader hRead | case4 c _ _ reader hRead
  | case5 c _ _ reader hRead | case6 c _ reader hRead =>
    have hContinues := c.reader.continues_readRequest
    rw [hRead] at hContinues
    exact hContinues.limit

theorem Connection.serve_ne_panicked {c : Connection}
    (hLimit : c.reader.limit.toNat + 1 < UInt64.size) (s : Store) : (c.serve s).1 ≠ .panicked := by
  fun_induction Connection.serve c s with
  | case1 c s line reader hRead reply store hExecute sink hSend ih =>
    have hContinues := c.reader.continues_readRequest
    rw [hRead] at hContinues
    exact ih (hContinues.limit ▸ hLimit)
  | case2 c s line reader hRead reply store hExecute e => exact Ending.ofWriteError_ne_panicked e
  | case3 | case4 => nofun
  | case5 c s e => exact Ending.ofReadError_ne_panicked e
  | case6 c s reader hRead =>
    exact absurd (congrArg Prod.fst hRead) (LineReader.readRequest_ne_panic hLimit)

namespace Server

/-- What may be asked of a server. -/
inductive Operation where
  | accept
  | receive (id : Nat) (bytes : Bytes)
  | hangUp (id : Nat)
  | shutDown
  deriving DecidableEq, Repr

def operate (s : Server) : Operation → Server
  | .accept => s.accept.2
  | .receive id bytes => (s.receive id bytes).2.2
  | .hangUp id => s.hangUp id
  | .shutDown => s.shutDown

/-- All limits leave room for the threshold, so that no thread panics. -/
structure Roomy (s : Server) : Prop where
  config : s.config.maxLineLength.toNat + 1 < UInt64.size
  connections : ∀ (id : Nat) (c : Connection), s.connections[id]? = some c →
    c.reader.limit.toNat + 1 < UInt64.size

namespace Roomy

variable {s : Server}

theorem serve (h : s.Roomy) (id : Nat) {c : Connection}
    (hLimit : c.reader.limit.toNat + 1 < UInt64.size) : (s.serve id c).2.2.Roomy := by
  rw [serve_eq]
  refine ⟨h.config, fun other d hFound => ?_⟩
  rw [Numbered.getElem?_file] at hFound
  split at hFound
  · have hSame : ∀ d ∈ s.kept c, d.reader.limit = c.reader.limit := by
      intro d hKept
      rw [kept] at hKept
      split at hKept
      · cases hKept
        exact c.limit_serve s.store
      · cases hKept
        exact c.limit_serve s.store
      · cases hKept
    exact hSame d hFound ▸ hLimit
  · exact h.connections other d hFound

/-- Connections are served to their end one after the other, whatever the register has for them. -/
theorem serve_all (h : s.Roomy) {entries : List (Nat × Connection)}
    (hLimits : ∀ entry ∈ entries, entry.2.reader.limit.toNat + 1 < UInt64.size) :
    (entries.foldl (fun s entry => (s.serve entry.1 entry.2.shutDown).2.2) s).Roomy := by
  induction entries generalizing s with
  | nil => exact h
  | cons entry entries ih =>
    obtain ⟨hEntry, hLimits⟩ := List.forall_mem_cons.mp hLimits
    exact ih (h.serve entry.1 (c := entry.2.shutDown) hEntry) hLimits

theorem operate (h : s.Roomy) (operation : Operation) : (s.operate operation).Roomy := by
  cases operation with
  | accept =>
    cases hAccept : s.accept with
    | mk admission next =>
      rw [Server.operate, hAccept]
      cases admission with
      | accepted id =>
        obtain ⟨-, rfl, rfl⟩ := of_accepted hAccept
        refine ⟨h.config, fun other c hFound => ?_⟩
        rw [Numbered.getElem?_insert] at hFound
        split at hFound
        · cases hFound
          exact h.config
        · exact h.connections other c hFound
      | refused reply =>
        obtain ⟨-, -, rfl⟩ := of_refused hAccept
        exact ⟨h.config, h.connections⟩
      | unreachable => exact (of_unreachable hAccept).2 ▸ h
  | receive id bytes =>
    rw [Server.operate, receive]
    split
    · exact h
    · rename_i c hFound
      exact h.serve id (c := c.deliver bytes) (h.connections id c hFound)
  | hangUp id =>
    rw [Server.operate, hangUp]
    split
    · exact h
    · rename_i c hFound
      exact h.serve id (c := c.finish) (h.connections id c hFound)
  | shutDown =>
    have hStopped : Roomy { s with running := false } := ⟨h.config, h.connections⟩
    refine hStopped.serve_all fun entry hEntry => ?_
    exact h.connections _ _ (Std.ExtTreeMap.mem_toList_iff_getElem?_eq_some.mp hEntry)

end Roomy

theorem running_serve (s : Server) (id : Nat) (c : Connection) :
    (s.serve id c).2.2.running = s.running := by
  rw [serve_eq]

theorem running_receive (s : Server) (id : Nat) (bytes : Bytes) :
    (s.receive id bytes).2.2.running = s.running := by
  rw [receive]
  split
  · rfl
  · exact s.running_serve id _

theorem running_hangUp (s : Server) (id : Nat) : (s.hangUp id).running = s.running := by
  rw [hangUp]
  split
  · rfl
  · exact s.running_serve id _

theorem running_serve_all (s : Server) (entries : List (Nat × Connection)) :
    (entries.foldl (fun s entry => (s.serve entry.1 entry.2.shutDown).2.2) s).running =
      s.running := by
  induction entries generalizing s with
  | nil => rfl
  | cons entry entries ih => rw [List.foldl_cons, ih, running_serve]

end Server

namespace Threads

variable {t : Threads} {id : Nat}

/-- A thread takes as many steps as it likes in a row. -/
theorem runs_of_steps {task next : Task}
    (hSteps : ReflTransGen (Task.Step t.server.config) task next)
    (hAt : t.handlers[id]? = some task.handler)
    (hFound : t.server.connections[id]? = some task.connection)
    (hStore : t.server.store = task.store) :
    t.Runs { t with
      server := { t.server.put id next.connection with store := next.store }
      handlers := t.handlers.insert id next.handler } := by
  induction hSteps with
  | refl =>
    rw [Numbered.insert_of_getElem? hAt, Server.put, Numbered.insert_of_getElem? hFound, ← hStore]
    exact .refl
  | tail _ hStep ih =>
    have hWork := @Step.work { t with
        server := { t.server.put id _ with store := _ }, handlers := t.handlers.insert id _ }
      id _ _ Std.ExtTreeMap.getElem?_insert_self Std.ExtTreeMap.getElem?_insert_self rfl hStep
    simp only [Server.put, Numbered.insert_insert] at hWork
    exact ih.tail ⟨_, hWork⟩

/-- Each thread that serves is about to read. -/
def resting (t : Threads) : Threads :=
  { t with handlers := t.server.connections.map fun _ _ => .reading }

theorem map_reading_insert (connections : Numbered Connection) (id : Nat) (c : Connection) :
    (connections.insert id c).map (fun _ _ => Handler.reading) =
      (connections.map fun _ _ => .reading).insert id .reading := by
  refine Std.ExtTreeMap.ext_getElem? fun {other} => ?_
  simp only [Std.ExtTreeMap.getElem?_map, Numbered.getElem?_insert]
  split <;> rfl

theorem map_reading_erase (connections : Numbered Connection) (id : Nat) :
    (connections.erase id).map (fun _ _ => Handler.reading) =
      (connections.map fun _ _ => .reading).erase id := by
  refine Std.ExtTreeMap.ext_getElem? fun {other} => ?_
  simp only [Std.ExtTreeMap.getElem?_map, Numbered.getElem?_erase]
  split <;> rfl

theorem getElem?_handlers_resting {c : Connection} (hFound : t.server.connections[id]? = some c) :
    t.resting.handlers[id]? = some .reading := by
  rw [resting, Std.ExtTreeMap.getElem?_map, hFound]
  rfl

theorem resting_put {c : Connection} (hFound : t.server.connections[id]? = some c)
    (d : Connection) :
    resting { t with server := t.server.put id d } =
      { t.resting with server := t.server.put id d } := by
  have hSame : (t.server.connections.insert id d).map (fun _ _ => Handler.reading) =
      t.server.connections.map fun _ _ => .reading := by
    rw [map_reading_insert]
    exact Numbered.insert_of_getElem? (getElem?_handlers_resting hFound)
  rw [resting, Server.put, hSame]
  rfl

theorem runs_put {c d : Connection} (hFound : t.server.connections[id]? = some c)
    (hEvolves : c.Evolves d) : t.Runs { t with server := t.server.put id d } :=
  .single ⟨_, .evolve hFound hEvolves⟩

/-- A thread that has read all there is waits, and what it sent is taken. -/
theorem runs_takeSent (t : Threads) (id : Nat) (c : Connection) :
    Runs { t.resting with
        server := t.server.put id c
        handlers := t.resting.handlers.insert id .reading }
      (resting { t with server := t.server.put id c.takeSent.2 }) := by
  have hRun := @runs_put { t.resting with
      server := t.server.put id c, handlers := t.resting.handlers.insert id .reading } id c
    c.takeSent.2 Std.ExtTreeMap.getElem?_insert_self
    ⟨rfl, rfl, List.prefix_rfl, fun hShut => ⟨hShut.ended, hShut.full⟩⟩
  simp only [resting, Server.put, Numbered.insert_insert, map_reading_insert] at hRun ⊢
  exact hRun

/-- A thread that has ended gives its place back. -/
theorem runs_leave (t : Threads) (hFree : ∀ ids, t.acceptor ≠ .closing ids) (id : Nat)
    (c : Connection) (result : Result Unit) :
    Runs { t.resting with
        server := t.server.put id c
        handlers := t.resting.handlers.insert id (.leaving result) }
      (resting { t with server := t.server.strike id }) := by
  refine .head ⟨_, @Step.leave _ id _ Std.ExtTreeMap.getElem?_insert_self hFree⟩ <|
    .head ⟨_, @Step.exit _ id Std.ExtTreeMap.getElem?_insert_self⟩ ?_
  simp only [resting, Server.put, Server.strike, Numbered.erase_insert, map_reading_erase]
  exact .refl

/-- To serve a connection that has changed is to let it change, and its thread take its steps. -/
theorem runs_serve (hRoomy : t.server.Roomy) (hFree : ∀ ids, t.acceptor ≠ .closing ids)
    {c d : Connection} (hFound : t.server.connections[id]? = some c) (hEvolves : c.Evolves d) :
    t.resting.Runs (resting { t with server := (t.server.serve id d).2.2 }) := by
  have hLimit : d.reader.limit.toNat + 1 < UInt64.size :=
    hEvolves.limit ▸ hRoomy.connections id c hFound
  have hEvolve : t.resting.Runs { t.resting with server := t.server.put id d } :=
    runs_put hFound hEvolves
  have hSteps := @runs_of_steps { t.resting with server := t.server.put id d } id
    ⟨.reading, d, t.server.store⟩ _ (Connection.steps_serve t.server.config hLimit t.server.store)
    (getElem?_handlers_resting hFound) Std.ExtTreeMap.getElem?_insert_self rfl
  have hPut : ∀ c, (t.server.put id d).put id c = t.server.put id c := fun _ => by
    rw [Server.put, Server.put, Server.put, Numbered.insert_insert]
  dsimp only at hSteps
  rw [hPut] at hSteps
  refine hEvolve.trans (hSteps.trans ?_)
  rw [Server.serve_eq, Server.kept]
  let s : Server := { t.server with store := (d.serve t.server.store).2.2 }
  cases hEnding : (d.serve t.server.store).1 with
  | waiting => exact runs_takeSent { t with server := s } id _
  | closed | failed => exact runs_leave { t with server := s } hFree id _ _
  | panicked => exact absurd hEnding (Connection.serve_ne_panicked hLimit t.server.store)

theorem runs_receive (hRoomy : t.server.Roomy) (hFree : ∀ ids, t.acceptor ≠ .closing ids)
    (id : Nat) (bytes : Bytes) :
    t.resting.Runs (resting { t with server := (t.server.receive id bytes).2.2 }) := by
  rw [Server.receive]
  split
  · exact .refl
  · rename_i c hFound
    have hArrivals : c.reader.source.arrivals <+: (c.reader.source.deliver bytes).arrivals := by
      rw [Source.deliver]
      split
      · exact List.prefix_rfl
      · exact List.prefix_append _ _
    have hEnded : (c.reader.source.deliver bytes).ended = c.reader.source.ended := by
      rw [Source.deliver]
      split <;> rfl
    exact runs_serve (d := c.deliver bytes) hRoomy hFree hFound
      ⟨rfl, rfl, hArrivals, fun hShut => ⟨hEnded.trans hShut.ended, hShut.full⟩⟩

theorem runs_hangUp (hRoomy : t.server.Roomy) (hFree : ∀ ids, t.acceptor ≠ .closing ids)
    (id : Nat) :
    t.resting.Runs (resting { t with server := t.server.hangUp id }) := by
  rw [Server.hangUp]
  split
  · exact .refl
  · rename_i c hFound
    exact runs_serve (d := c.finish) hRoomy hFree hFound
      ⟨rfl, rfl, List.prefix_rfl, fun hShut => ⟨rfl, hShut.full⟩⟩

theorem runs_accepted (hAt : t.acceptor = .looking) (hGo : t.stopping = false) {s : Server}
    (hAccept : t.server.accept = (.accepted id, s)) :
    t.resting.Runs (resting { t with server := s }) := by
  refine .head ⟨_, .listen hAt hGo⟩ <| .head ⟨_, .accept rfl hAccept⟩ <| .head ⟨_, .spawn rfl⟩ ?_
  obtain ⟨-, rfl, rfl⟩ := Server.of_accepted hAccept
  let first := Connection.fresh t.server.config.maxLineLength
  refine .head ⟨_, @Step.work _ (t.server.arrivals + 1) ⟨.preparing, first, t.server.store⟩ _
    Std.ExtTreeMap.getElem?_insert_self Std.ExtTreeMap.getElem?_insert_self rfl .prepare⟩ ?_
  simp only [resting, Server.put, Numbered.insert_insert, map_reading_insert, ← hAt]
  exact .refl

theorem runs_refused (hAt : t.acceptor = .looking) (hGo : t.stopping = false) {s : Server}
    {reply : Reply} (hRefuse : t.server.accept = (.refused reply, s)) (client : Sink)
    (hNew : client.written = []) :
    t.resting.Runs (resting { t with
      server := s
      refused := t.refused.insert s.arrivals (client.sendReply reply).2 }) := by
  refine .head ⟨_, .listen hAt hGo⟩ <| .head ⟨_, .refuse rfl hRefuse⟩ <|
    .head ⟨_, .tell rfl hNew⟩ ?_
  obtain ⟨-, rfl, rfl⟩ := Server.of_refused hRefuse
  simp only [resting, ← hAt]
  exact .refl

/-- The connections that have these numbers are shut down, and the others stay. -/
def shutAll (ids : List Nat) (connections : Numbered Connection) : Numbered Connection :=
  connections.map fun id c => if id ∈ ids then c.shutDown else c

theorem getElem?_shutAll (ids : List Nat) (connections : Numbered Connection) (id : Nat) :
    (shutAll ids connections)[id]? =
      connections[id]?.map fun c => if id ∈ ids then c.shutDown else c :=
  Std.ExtTreeMap.getElem?_map

theorem shutAll_nil (connections : Numbered Connection) : shutAll [] connections = connections := by
  refine Std.ExtTreeMap.ext_getElem? fun {id} => ?_
  rw [getElem?_shutAll]
  simp

theorem shutAll_insert {ids : List Nat} {connections : Numbered Connection} {c : Connection}
    (hNew : id ∉ ids) (hFound : connections[id]? = some c) :
    shutAll ids (connections.insert id c.shutDown) = shutAll (id :: ids) connections := by
  refine Std.ExtTreeMap.ext_getElem? fun {other} => ?_
  rw [getElem?_shutAll, getElem?_shutAll, Numbered.getElem?_insert]
  by_cases hEq : id = other
  · subst hEq
    simp [hNew, hFound]
  · simp [hEq, Ne.symm hEq]

/-- The connections with these numbers are shut down, each in turn. -/
theorem runs_shut {ids : List Nat} (hNodup : ids.Nodup)
    (hFound : ∀ id ∈ ids, id ∈ t.server.connections) :
    Runs (resting { t with acceptor := .closing ids })
      (resting { t with
        server := { t.server with connections := shutAll ids t.server.connections }
        acceptor := .closing [] }) := by
  induction ids generalizing t with
  | nil =>
    rw [shutAll_nil]
    exact .refl
  | cons id ids ih =>
    obtain ⟨hId, hFound⟩ := List.forall_mem_cons.mp hFound
    obtain ⟨hNew, hNodup⟩ := List.nodup_cons.mp hNodup
    obtain ⟨c, hC⟩ := Option.isSome_iff_exists.mp (Std.ExtTreeMap.mem_iff_isSome_getElem?.mp hId)
    let s := t.server.put id c.shutDown
    have hShut : Runs (resting { t with acceptor := .closing (id :: ids) })
        (resting { t with server := s, acceptor := .closing ids }) := by
      rw [resting_put (t := { t with acceptor := .closing ids }) hC]
      exact .single ⟨_, .shut rfl hC⟩
    have hRest := ih (t := { t with server := s }) hNodup fun other hOther =>
      Numbered.mem_insert.mpr (.inr (hFound other hOther))
    rw [← shutAll_insert hNew hC]
    exact hShut.trans hRest

/-- The threads serve connections that are shut down to their end, each in turn. -/
theorem runs_serve_all {entries : List (Nat × Connection)} (hRoomy : t.server.Roomy)
    (hFree : ∀ ids, t.acceptor ≠ .closing ids) (hNodup : (entries.map Prod.fst).Nodup)
    (hFound : ∀ entry ∈ entries,
      ∃ c, t.server.connections[entry.1]? = some c ∧ c.Evolves entry.2.shutDown) :
    t.resting.Runs (resting { t with
      server :=
        entries.foldl (fun s entry => (s.serve entry.1 entry.2.shutDown).2.2) t.server }) := by
  induction entries generalizing t with
  | nil => exact .refl
  | cons entry entries ih =>
    obtain ⟨⟨c, hC, hEvolves⟩, hFound⟩ := List.forall_mem_cons.mp hFound
    obtain ⟨hNew, hNodup⟩ := List.nodup_cons.mp hNodup
    let s := (t.server.serve entry.1 entry.2.shutDown).2.2
    have hServe : t.resting.Runs (resting { t with server := s }) :=
      runs_serve hRoomy hFree hC hEvolves
    have hNext : s.Roomy := hRoomy.serve entry.1 (hEvolves.limit ▸ hRoomy.connections _ c hC)
    refine hServe.trans (ih (t := { t with server := s }) hNext hFree hNodup fun other hOther => ?_)
    obtain ⟨d, hD, hOn⟩ := hFound other hOther
    have hNe : entry.1 ≠ other.1 := fun hEq => hNew (hEq ▸ List.mem_map_of_mem hOther)
    exact ⟨d, (t.server.getElem?_serve _ hNe).trans hD, hOn⟩

/-- Where connections are served to their end, it does not matter what the register has for them. -/
theorem foldl_serve_congr {entries : List (Nat × Connection)} (s : Server)
    {connections others : Numbered Connection}
    (hSame : ∀ id ∉ entries.map Prod.fst, connections[id]? = others[id]?) :
    entries.foldl (fun s entry => (s.serve entry.1 entry.2.shutDown).2.2) { s with connections } =
      entries.foldl (fun s entry => (s.serve entry.1 entry.2.shutDown).2.2)
        { s with connections := others } := by
  induction entries generalizing s connections others with
  | nil => rw [Std.ExtTreeMap.ext_getElem? fun {id} => hSame id List.not_mem_nil]
  | cons entry entries ih =>
    rw [List.foldl_cons, List.foldl_cons, Server.serve_eq, Server.serve_eq]
    refine ih { s with store := (entry.2.shutDown.serve s.store).2.2 } fun id hId => ?_
    rw [Numbered.getElem?_file, Numbered.getElem?_file]
    by_cases hEq : entry.1 = id
    · rw [if_pos hEq, if_pos hEq]
      rfl
    · rw [if_neg hEq, if_neg hEq]
      exact hSame id (List.not_mem_cons_of_ne_of_not_mem (Ne.symm hEq) hId)

/-- To shut a server down is to ask it to stop, to let it shut every connection down, and to let the
threads serve them as far as they go. -/
theorem runs_shutDown (hRoomy : t.server.Roomy) (hAt : t.acceptor = .looking) :
    t.resting.Runs (resting { t with
      server := t.server.shutDown, stopping := true, acceptor := .waiting }) := by
  let connections : Numbered Connection := t.server.connections
  let s : Server := { t.server with running := false }
  have hShut := @runs_shut { t with server := s, stopping := true } connections.keys
    connections.nodup_keys fun _ => Std.ExtTreeMap.mem_keys.mp
  have hFound : ∀ entry ∈ connections.toList,
      (shutAll connections.keys connections)[entry.1]? = some entry.2.shutDown := by
    intro entry hEntry
    have hSome := Std.ExtTreeMap.mem_toList_iff_getElem?_eq_some.mp hEntry
    have hKey := Std.ExtTreeMap.mem_keys.mpr (Numbered.mem_of_getElem? hSome)
    rw [getElem?_shutAll, hSome, Option.map_some, if_pos hKey]
  have hShutRoomy : Server.Roomy
      { s with connections := shutAll connections.keys connections } := by
    refine ⟨hRoomy.config, fun id c hC => ?_⟩
    rw [getElem?_shutAll] at hC
    obtain ⟨d, hD, rfl⟩ := Option.map_eq_some_iff.mp hC
    have hLimit := hRoomy.connections id d hD
    split <;> exact hLimit
  have hServe := @runs_serve_all { t with
      server := { s with connections := shutAll connections.keys connections }
      stopping := true
      acceptor := .waiting } connections.toList hShutRoomy nofun
    (Numbered.nodup_toList connections) fun entry hEntry =>
      ⟨_, hFound entry hEntry, rfl, rfl, List.prefix_rfl, id⟩
  have hOthers : ∀ id ∉ connections.toList.map Prod.fst,
      (shutAll connections.keys connections)[id]? = connections[id]? := by
    intro id hId
    rw [Std.ExtTreeMap.map_fst_toList_eq_keys, Std.ExtTreeMap.mem_keys] at hId
    rw [getElem?_shutAll, Std.ExtTreeMap.getElem?_eq_none hId]
    rfl
  dsimp only at hServe
  rw [foldl_serve_congr s hOthers] at hServe
  exact .head ⟨_, .request⟩ <| .head ⟨_, .close hAt rfl (.refl _)⟩ <| hShut.trans <|
    .head ⟨_, .closed rfl⟩ hServe

/-- Between two operations: the server lets clients in, or it has shut down. -/
structure Idle (t : Threads) : Prop where
  roomy : t.server.Roomy
  acceptor : t.acceptor = .looking ∧ t.stopping = false ∧ t.server.running = true ∨
    t.acceptor = .waiting ∧ t.server.running = false

namespace Idle

variable (h : t.Idle)
include h

theorem free : ∀ ids, t.acceptor ≠ .closing ids := by
  intro ids hClosing
  rcases h.acceptor with ⟨hAt, -⟩ | ⟨hAt, -⟩ <;> cases hAt.symm.trans hClosing

theorem accept : ∃ u : Threads, t.resting.Runs u.resting ∧ u.server = t.server.accept.2 ∧
    u.Idle := by
  have hRoomy := h.roomy.operate .accept
  rcases h.acceptor with ⟨hAt, hGo, hRunning⟩ | ⟨hAt, hStopped⟩
  · cases hAccept : t.server.accept with
    | mk admission server =>
      rw [Server.operate, hAccept] at hRoomy
      cases admission with
      | accepted id =>
        refine ⟨_, runs_accepted hAt hGo hAccept, rfl, hRoomy, .inl ⟨hAt, hGo, ?_⟩⟩
        rw [(Server.of_accepted hAccept).2.2]
        exact hRunning
      | refused reply =>
        refine ⟨_, runs_refused hAt hGo hAccept Sink.unlimited rfl, rfl, hRoomy,
          .inl ⟨hAt, hGo, ?_⟩⟩
        rw [(Server.of_refused hAccept).2.2]
        exact hRunning
      | unreachable => cases hRunning.symm.trans (Server.of_unreachable hAccept).1
  · have hAccept : t.server.accept.2 = t.server := by rw [Server.accept, hStopped]; rfl
    exact ⟨t, .refl, hAccept.symm, h⟩

theorem shutDown : ∃ u : Threads, t.resting.Runs u.resting ∧ u.server = t.server.shutDown ∧
    u.Idle := by
  have hRoomy := h.roomy.operate .shutDown
  have hStopped : t.server.shutDown.running = false :=
    Server.running_serve_all { t.server with running := false } _
  rcases h.acceptor with ⟨hAt, -⟩ | ⟨hAt, hOver⟩
  · exact ⟨_, runs_shutDown h.roomy hAt, rfl, hRoomy, .inr ⟨rfl, hStopped⟩⟩
  · have hServe := runs_serve_all h.roomy h.free (Numbered.nodup_toList t.server.connections)
      fun entry hEntry => ⟨entry.2, Std.ExtTreeMap.mem_toList_iff_getElem?_eq_some.mp hEntry,
        rfl, rfl, List.prefix_rfl, fun _ => entry.2.isShut_shutDown⟩
    have hSame : { t.server with running := false } = t.server := by rw [← hOver]
    refine ⟨_, hServe, ?_, ?_, .inr ⟨hAt, ?_⟩⟩
    · rw [Server.shutDown, hSame]
    · rw [← hSame]
      exact hRoomy
    · rw [Server.running_serve_all]
      exact hOver

theorem operate (operation : Server.Operation) :
    ∃ u : Threads, t.resting.Runs u.resting ∧ u.server = t.server.operate operation ∧ u.Idle := by
  have hRoomy := h.roomy.operate operation
  cases operation with
  | accept => exact h.accept
  | shutDown => exact h.shutDown
  | receive id bytes =>
    have hRunning := t.server.running_receive id bytes
    exact ⟨_, runs_receive h.roomy h.free id bytes, rfl, hRoomy, hRunning ▸ h.acceptor⟩
  | hangUp id =>
    have hRunning := t.server.running_hangUp id
    exact ⟨_, runs_hangUp h.roomy h.free id, rfl, hRoomy, hRunning ▸ h.acceptor⟩

theorem operate_all (operations : List Server.Operation) :
    ∃ u : Threads, t.resting.Runs u.resting ∧
      u.server = operations.foldl Server.operate t.server ∧ u.Idle := by
  induction operations generalizing t with
  | nil => exact ⟨t, .refl, rfl, h⟩
  | cons operation operations ih =>
    obtain ⟨u, hRun, hServer, hIdle⟩ := h.operate operation
    obtain ⟨v, hRest, hLast, hEnd⟩ := ih hIdle
    rw [hServer] at hLast
    exact ⟨v, hRun.trans hRest, hLast, hEnd⟩

end Idle

/-- Whatever is asked of a server, one thing after the other, its threads can take their turns to
the same end. -/
theorem runs_of_operations {config : Config} {chance : Chance} {server : Server}
    (hStart : Server.start config chance = .ok server)
    (hLimit : config.maxLineLength.toNat + 1 < UInt64.size)
    (operations : List Server.Operation) :
    ∃ t, (start server).Runs t ∧ t.server = operations.foldl Server.operate server := by
  obtain ⟨-, rfl⟩ := Server.eq_of_start hStart
  have hIdle : (start ⟨config, .empty chance, ∅, 0, true⟩).Idle :=
    ⟨⟨hLimit, fun id c hFound => by simp [start] at hFound⟩, .inl ⟨rfl, rfl, rfl⟩⟩
  obtain ⟨t, hRun, hServer, -⟩ := hIdle.operate_all operations
  exact ⟨t.resting, hRun, hServer⟩

/-- No more connections are served at a time than may be, whatever is asked of the server. -/
theorem size_connections_le {config : Config} {chance : Chance} {server : Server}
    (hStart : Server.start config chance = .ok server)
    (hLimit : config.maxLineLength.toNat + 1 < UInt64.size)
    (operations : List Server.Operation) :
    (operations.foldl Server.operate server).connections.size ≤ config.maxConnections.toNat := by
  obtain ⟨t, hRun, hServer⟩ := runs_of_operations hStart hLimit operations
  obtain ⟨-, rfl⟩ := Server.eq_of_start hStart
  have hConfig : t.server.config = config := Runs.config hRun
  rw [← hServer, ← hConfig]
  exact (Runs.orderly hRun (orderly_start rfl)).room

end Threads
end Keyspace
