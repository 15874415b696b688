import Keyspace.Service.Visitor
import Keyspace.Proofs.Service.Dialogue
import Keyspace.Proofs.Service.Server
import Keyspace.Proofs.Text.Lines

/-! # Visits: a client joined to a server in memory is answered line by line -/
namespace Keyspace
open Text
set_option autoImplicit false

namespace Cutting

/-- All at once. -/
def whole : Cutting where
  cut bytes := (Source.ofBytes bytes false).arrivals
  flows bytes a ha := by
    rw [Source.ofBytes] at ha
    split at ha
    · cases ha
    · rename_i hBytes
      cases List.mem_singleton.mp ha
      exact hBytes
  bytes bytes := by
    rw [Source.ofBytes]
    split
    · rename_i hBytes
      exact hBytes.symm
    · exact List.flatMap_singleton _ _

end Cutting

theorem Source.deliver_eq_bring (s : Source) (bytes : Bytes) :
    s.deliver bytes = s.bring (Cutting.whole.cut bytes) := by
  have hCut : Cutting.whole.cut bytes = if bytes = [] then [] else [.data bytes] := rfl
  rw [deliver, bring, hCut]
  split
  · rw [List.append_nil]
  · rfl

theorem Server.serve_of_kept {s : Server} {c next : Connection} {ending : Ending} {store : Store}
    (h : c.serve s.store = (ending, next, store)) (hKept : ending = .waiting ∨ ending = .panicked)
    (id : Nat) :
    s.serve id c = (next.sink.written, false,
      { s with store, connections := s.connections.insert id next.takeSent.2 }) := by
  rw [serve, h]
  rcases hKept with rfl | rfl <;> rfl

namespace Visitor

/-- The server keeps a connection for the visitor, and nothing is under way. -/
def Rests (v : Visitor) (s : Server) (limit : UInt64) : Prop :=
  ∃ id c, v.id = some id ∧ s.connections[id]? = some c ∧
    Dialogue.Rests ⟨v.client, c, s.store⟩ limit

variable {v : Visitor} {s : Server} {limit : UInt64}

theorem connect_of_start {config : Config} {chance : Chance}
    (h : Server.start config chance = .ok s) :
    connect s = (⟨Client.ofSource ⟨[], false⟩, some 1⟩, ⟨config, .empty chance,
      Std.ExtTreeMap.insert ∅ 1 (Connection.fresh config.maxLineLength), 1, true⟩) := by
  obtain ⟨hRoom, rfl⟩ := Server.eq_of_start h
  have hFree : ¬ config.maxConnections.toNat ≤ (∅ : Numbered Connection).size :=
    Nat.not_le_of_lt hRoom
  simp only [connect, Server.accept, if_neg hFree]
  rfl

theorem rests_connect {config : Config} {chance : Chance}
    (h : Server.start config chance = .ok s) :
    (connect s).1.Rests (connect s).2 config.maxLineLength ∧
      (connect s).2.store = .empty chance ∧ (connect s).1.client.sink.written = [] := by
  rw [connect_of_start h]
  exact ⟨⟨1, _, rfl, Std.ExtTreeMap.getElem?_insert_self, Dialogue.rests_start _ chance⟩, rfl, rfl⟩

/-- A line that does not end in a blank is sent as it is, and its reply is read. -/
theorem Rests.send (h : v.Rests s limit) {line : String} (hLine : IsFramed line)
    (hTrimmed : trimEnd line = line) (hBlank : isBlank line = false)
    (hRequest : (utf8 line).length ≤ limit.toNat) (hLimit : limit.toNat + 1 < UInt64.size)
    (hFits : Dialogue.Fits (Request.execute line s.store).1) :
    ∃ text w t, v.send line s = (.ok text, w, t) ∧
      text ++ "\n" = (Request.execute line s.store).1.text ∧
      t.store = (Request.execute line s.store).2 ∧
      w.client.sink.written = v.client.sink.written ++ utf8 (line ++ "\n") ∧ w.Rests t limit := by
  obtain ⟨id, c, hId, hFound, hRests⟩ := h
  have hRequested : Client.request line = line ++ "\n" := by rw [Client.request, hTrimmed]
  obtain ⟨connection, text, client, hServe, -, hAsk, hText, hSent, hNext⟩ :=
    hRests.exchange hLine hBlank hRequest hLimit (Request.execute_fits line s.store) hFits
      (line ++ "\n") .whole .whole
  have hBytes : utf8 (line ++ "\n") = utf8 line ++ [LineReader.newline] := by
    rw [utf8_append, utf8_newline]
  have hCarry : v.carry (line ++ "\n") s =
      (⟨v.client.bring (Cutting.whole.cut connection.sink.written), some id⟩,
        { s with
          store := (Request.execute line s.store).2
          connections := s.connections.insert id connection.takeSent.2 }) := by
    have hDeliver : c.deliver (utf8 (line ++ "\n")) =
        c.bring (Cutting.whole.cut (utf8 line ++ [LineReader.newline])) := by
      rw [Connection.deliver, Source.deliver_eq_bring, hBytes]
      rfl
    simp only [carry, hId, Server.receive, hFound, hDeliver, Server.serve_of_kept hServe (.inl rfl),
      Source.deliver_eq_bring]
    rfl
  have hReply : v.send line s = (.ok text, ⟨client, some id⟩,
      { s with
        store := (Request.execute line s.store).2
        connections := s.connections.insert id connection.takeSent.2 }) := by
    simp only [Visitor.send, ask, hRequested, hCarry]
    rw [hAsk]
  exact ⟨text, _, _, hReply, hText, rfl, hSent, id, _, rfl, Std.ExtTreeMap.getElem?_insert_self,
    hNext⟩

/-- With the greatest limit a visitor that sends a line has no reply to read. -/
theorem send_of_greatest {config : Config} {chance : Chance}
    (hStart : Server.start config chance = .ok s) (hGreatest : config.maxLineLength = -1)
    (line : String) :
    ∃ w t, (connect s).1.send line (connect s).2 = (.error (.io Source.stalled), w, t) := by
  let c := (Connection.fresh (-1)).deliver (utf8 (Client.request line))
  have hServe : c.serve (.empty chance) = (.panicked, _, .empty chance) :=
    Connection.serve_of_panic (LineReader.readRequest_of_greatest _) (.empty chance)
  have hCarry : ∃ t, (connect s).1.carry (Client.request line) (connect s).2 =
      (⟨Client.ofSource ⟨[], false⟩, some 1⟩, t) := by
    rw [connect_of_start hStart, hGreatest]
    simp only [carry, Server.receive, Std.ExtTreeMap.getElem?_insert_self]
    rw [Server.serve_of_kept hServe (.inr rfl)]
    exact ⟨_, rfl⟩
  obtain ⟨t, hCarry⟩ := hCarry
  have hAsk := @Client.ask_of_open (Client.ofSource ⟨[], false⟩) ⟨rfl, List.forall_mem_nil _⟩ rfl
    (by decide) Sink.takes_unlimited (Client.request line) (Client.verbOf line)
  rw [send, ask, hCarry]
  exact ⟨_, _, Prod.ext hAsk rfl⟩

/-- A visitor that leaves has nothing executed any more. -/
theorem Rests.store_leave (h : v.Rests s limit) (hLimit : limit.toNat + 1 < UInt64.size) :
    (v.leave s).store = s.store := by
  obtain ⟨id, c, hId, hFound, hRests⟩ := h
  obtain ⟨hFilled, hFailures⟩ := Source.flows_iff.mp hRests.connection.flows
  have hAwaits : c.finish.reader.Awaits limit [] [] :=
    ⟨hRests.connectionLimit, hRests.connection.bytes, hFilled, rfl, hFailures⟩
  have hServe := (Connection.converses_of_awaits (c := c.finish) hAwaits hLimit
    hRests.connectionSink s.store).store
  rw [leave, hId]
  simp only [Server.hangUp, hFound]
  rw [Server.serve_eq]
  exact hServe

end Visitor
end Keyspace
