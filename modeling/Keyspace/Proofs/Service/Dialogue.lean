import Mathlib.Data.List.Forall2
import Keyspace.Proofs.Command.Footprint
import Keyspace.Proofs.Service.Conversation
import Keyspace.Proofs.Service.ReplyFraming
import Keyspace.Proofs.Stream.Waiting

/-! # Dialogue: a client whose commands a connection serves gets the replies that the commands have
where they are executed without either -/
namespace Keyspace
open Text
set_option autoImplicit false

/-- A way for bytes to arrive: in order, none lost, in pieces of any size. -/
structure Cutting where
  cut : Bytes → List Arrival
  flows : ∀ bytes, ∀ a ∈ cut bytes, a.Flows
  bytes : ∀ bytes, (cut bytes).flatMap Arrival.bytes = bytes

namespace Cutting

def bytewise : Cutting where
  cut bytes := bytes.map fun byte => .data [byte]
  flows bytes a ha := by
    obtain ⟨byte, -, rfl⟩ := List.mem_map.mp ha
    exact List.cons_ne_nil byte []
  bytes bytes := by
    rw [List.flatMap_map]
    exact List.flatMap_singleton' bytes

end Cutting

namespace Command

/-- The line of a command without its newline. -/
def text (c : Command) : String := " ".intercalate (c.verb.name :: c.args)

theorem utf8_line (c : Command) : utf8 c.line = utf8 c.text ++ [LineReader.newline] := by
  rw [line, utf8_append, utf8_newline]
  rfl

theorem WellFormed.isLine_text {c : Command} (h : c.WellFormed) : IsLine c.text :=
  isLine_intercalate (List.forall_mem_cons.mpr ⟨isWord_verb c.verb, h.isWord_of_mem_args⟩)
    (List.cons_ne_nil _ _)

theorem WellFormed.execute_text {c : Command} (h : c.WellFormed) (s : Store) :
    Request.execute c.text s = c.execute s := by
  have hRead : Request.read c.text = Request.read c.line := by
    rw [Request.read, Request.read, line, words_append_newline]
    rfl
  rw [Request.execute, hRead, Request.read_of_wellFormed h]

theorem isBlank_text (c : Command) : isBlank c.text = false := by
  have hName : ∀ v : Verb, v.name.toList.all isWhiteSpace = false := by
    intro v
    cases v <;> decide
  have hText : ∃ tail, c.text = c.verb.name ++ tail := by
    rw [text]
    cases c.args with
    | nil => exact ⟨"", by simp⟩
    | cons arg args => exact ⟨_, by rw [String.intercalate_cons_cons, String.append_assoc]⟩
  obtain ⟨tail, hTail⟩ := hText
  rw [isBlank, hTail, String.toList_append, List.all_append, hName, Bool.false_and]

end Command

namespace Connection
open LineReader

variable {c : Connection}

def bring (c : Connection) (arrivals : List Arrival) : Connection :=
  { c with reader.source := c.reader.source.bring arrivals }

/-- With no bytes to take from an open stream, a connection waits. -/
theorem serve_of_open (h : c.reader.Pending []) (hOpen : c.reader.source.ended = false)
    (hLimit : c.reader.limit.toNat + 1 < UInt64.size) (s : Store) :
    ∃ reader : LineReader, reader.Pending [] ∧ c.reader.Continues reader ∧
      c.serve s = (.waiting, ⟨reader, c.sink⟩, s) := by
  have hContinues := continues_readLine c.reader
  obtain ⟨reader, hRead, hPending⟩ := h.readLine_of_open hOpen hLimit
  rw [hRead] at hContinues
  refine ⟨reader, hPending, hContinues, ?_⟩
  rw [serve_eq, readRequest_eq, hRead]
  rfl

/-- A request is replied to, and then the connection waits for the next. -/
theorem serve_of_text {text : String} (h : c.reader.Pending (utf8 text ++ [newline]))
    (hOpen : c.reader.source.ended = false) (hText : IsFramed text) (hBlank : isBlank text = false)
    (hFits : (utf8 text).length ≤ c.reader.limit.toNat)
    (hLimit : c.reader.limit.toNat + 1 < UInt64.size) (hTakes : c.sink.Takes) (s : Store) :
    ∃ next : Connection, next.reader.Pending [] ∧ c.reader.Continues next.reader ∧
      next.sink.Takes ∧
      next.sink.written = c.sink.written ++ utf8 (Request.execute text s).1.text ∧
      c.serve s = (.waiting, next, (Request.execute text s).2) := by
  have hContinues := continues_readLine c.reader
  obtain ⟨reader, hRead, hPending, -⟩ := h.readLine hText hFits hLimit
  rw [hRead] at hContinues
  obtain ⟨sink, hSink, hWritten, hServe⟩ := serve_of_line hRead hBlank hTakes s
  obtain ⟨last, hLast, hOn, hWait⟩ :=
    serve_of_open (c := ⟨reader, sink⟩) hPending (hContinues.ended.trans hOpen)
      (hContinues.limit ▸ hLimit) (Request.execute text s).2
  exact ⟨⟨last, sink⟩, hLast, hContinues.trans hOn, hSink, hWritten, hServe.trans hWait⟩

end Connection

namespace Client
open LineReader

def bring (c : Client) (arrivals : List Arrival) : Client :=
  { c with reader.source := c.reader.source.bring arrivals }

/-- What is written does not depend on what there is to read. -/
theorem sink_ask (c : Client) (text : String) (verb : Option Verb) :
    (c.ask text verb).2.sink = (c.sink.send text).2 := by
  simp only [ask]
  split <;> rename_i hSend <;> rw [hSend]

theorem sink_execute (c : Client) (command : Command) :
    (c.execute command).2.sink = (c.sink.sendCommand command).2 :=
  c.sink_ask command.line (some command.verb)

theorem ask_of_reply {c : Client} {verb : Option Verb} {reply : Reply}
    (h : c.reader.Pending (utf8 reply.text)) (hTakes : c.sink.Takes) (hLined : reply.Lined)
    (hVerb : reply.Fits verb) (hCount : reply.lines.length < UInt64.size)
    (hFits : ∀ line ∈ reply.lines, (utf8 line).length ≤ c.reader.limit.toNat)
    (hLimit : c.reader.limit.toNat + 1 < UInt64.size) (request : String) :
    ∃ text next, c.ask request verb = (.ok text, next) ∧ text ++ "\n" = reply.text ∧
      next.reader.Pending [] ∧ c.reader.Continues next.reader ∧ next.sink.Takes ∧
      next.sink.written = c.sink.written ++ utf8 request := by
  have hContinues := continues_readReply c.reader verb
  rw [← List.append_nil (utf8 reply.text)] at h
  obtain ⟨text, reader, hRead, hText, hPending⟩ :=
    h.readReply_text hLined hVerb hCount hFits hLimit
  rw [hRead] at hContinues
  have hSend := hTakes.send request
  refine ⟨text, ⟨reader, (c.sink.send request).2⟩, ?_, hText, hPending, hContinues,
    hTakes.takes_send request, ?_⟩
  · simp only [ask, hSend, hRead]
  · rw [hSend]

/-- With no bytes to take from an open stream, a client that has asked waits. -/
theorem ask_of_open {c : Client} (h : c.reader.Pending []) (hOpen : c.reader.source.ended = false)
    (hLimit : c.reader.limit.toNat + 1 < UInt64.size) (hTakes : c.sink.Takes) (request : String)
    (verb : Option Verb) : (c.ask request verb).1 = .error (.io Source.stalled) := by
  obtain ⟨next, hRead, -⟩ := h.readLine_of_open hOpen hLimit
  simp only [ask, hTakes.send, readReply, hRead]

end Client

/-- A client, the connection that serves it, and the store behind that. -/
structure Dialogue where
  client : Client
  connection : Connection
  store : Store

namespace Dialogue

def start (limit : UInt64) (chance : Chance) : Dialogue :=
  ⟨Client.ofSource ⟨[], false⟩, Connection.fresh limit, Store.empty chance⟩

/-- The bytes that the client writes for a command. -/
def request (d : Dialogue) (command : Command) : Bytes :=
  (d.client.execute command).2.sink.written.drop d.client.sink.written.length

/-- One call. What the client writes arrives at the connection in pieces, and what the connection
writes then arrives at the client in pieces: a read waits for the next piece to come, so that it
matters only how the bytes are cut. -/
def call (d : Dialogue) (command : Command) (there back : Cutting) :
    Result String × Dialogue :=
  let (_, connection, store) := (d.connection.bring (there.cut (d.request command))).serve d.store
  let (sent, connection) := connection.takeSent
  let (result, client) := (d.client.bring (back.cut sent)).execute command
  (result, ⟨client, connection, store⟩)

/-- Calls in turn, each with the way in which its request and its reply arrive. -/
def calls : Dialogue → List (Command × Cutting × Cutting) → List (Result String) × Dialogue
  | d, [] => ([], d)
  | d, (command, there, back) :: rest =>
    let (result, d) := d.call command there back
    let (results, d) := d.calls rest
    (result :: results, d)

/-- The client reads the lines of such a reply. -/
def Fits (reply : Reply) : Prop :=
  reply.lines.length < UInt64.size ∧
    ∀ line ∈ reply.lines, (utf8 line).length ≤ Client.maxReplyLine.toNat

instance (reply : Reply) : Decidable (Fits reply) :=
  @instDecidableAnd _ _ inferInstance (List.decidableBAll _ _)

/-- A call that gives a reply gives it without its last newline. -/
def Returns (result : Result String) (reply : Reply) : Prop :=
  ∃ text, result = .ok text ∧ text ++ "\n" = reply.text

/-- Nothing is under way, and both sides wait. -/
structure Rests (d : Dialogue) (limit : UInt64) : Prop where
  client : d.client.reader.Pending []
  clientLimit : d.client.reader.limit = Client.maxReplyLine
  clientSink : d.client.sink.Takes
  connection : d.connection.reader.Pending []
  connectionLimit : d.connection.reader.limit = limit
  opened : d.connection.reader.source.ended = false
  connectionSink : d.connection.sink.Takes
  unsent : d.connection.sink.written = []
  store : d.store.Worded

theorem rests_start (limit : UInt64) (chance : Chance) : (start limit chance).Rests limit where
  client := ⟨rfl, List.forall_mem_nil _⟩
  clientLimit := rfl
  clientSink := Sink.takes_unlimited
  connection := ⟨rfl, List.forall_mem_nil _⟩
  connectionLimit := rfl
  opened := rfl
  connectionSink := Sink.takes_unlimited
  unsent := rfl
  store := Store.worded_empty chance

variable {d : Dialogue} {limit : UInt64} {command : Command}

theorem Rests.request (h : d.Rests limit) (command : Command) :
    d.request command = utf8 command.text ++ [LineReader.newline] := by
  rw [Dialogue.request, Client.sink_execute, Sink.sendCommand, h.clientSink.send,
    ← command.utf8_line]
  exact List.drop_left

/-- The client reads such a reply, however it arrives. -/
theorem Rests.receives (h : d.Rests limit) {reply : Reply} {verb : Option Verb}
    (hLined : reply.Lined) (hVerb : reply.Fits verb) (hFits : Fits reply) (request : String)
    (back : Cutting) :
    ∃ text client,
      (d.client.bring (back.cut (utf8 reply.text))).ask request verb = (.ok text, client) ∧
      text ++ "\n" = reply.text ∧ client.reader.Pending [] ∧
      client.reader.limit = Client.maxReplyLine ∧ client.sink.Takes ∧
      client.sink.written = d.client.sink.written ++ utf8 request := by
  have hBack := h.client.bring (back.flows (utf8 reply.text))
  rw [back.bytes, List.nil_append] at hBack
  obtain ⟨text, client, hAsk, hText, hPending, hContinues, hTakes, hWritten⟩ :=
    Client.ask_of_reply (c := d.client.bring _) hBack h.clientSink hLined hVerb hFits.1
      (h.clientLimit ▸ hFits.2)
      (show d.client.reader.limit.toNat + 1 < UInt64.size by rw [h.clientLimit]; decide) request
  exact ⟨text, client, hAsk, hText, hPending, hContinues.limit.trans h.clientLimit, hTakes,
    hWritten⟩

/-- The connection executes such a line, and the client reads the reply, however they arrive. -/
theorem Rests.exchange (h : d.Rests limit) {line : String} (hLine : IsFramed line)
    (hBlank : isBlank line = false) (hRequest : (utf8 line).length ≤ limit.toNat)
    (hLimit : limit.toNat + 1 < UInt64.size) {verb : Option Verb}
    (hVerb : (Request.execute line d.store).1.Fits verb)
    (hFits : Fits (Request.execute line d.store).1) (request : String) (there back : Cutting) :
    ∃ connection text client,
      (d.connection.bring (there.cut (utf8 line ++ [LineReader.newline]))).serve d.store =
        (.waiting, connection, (Request.execute line d.store).2) ∧
      connection.sink.written = utf8 (Request.execute line d.store).1.text ∧
      (d.client.bring (back.cut connection.sink.written)).ask request verb = (.ok text, client) ∧
      text ++ "\n" = (Request.execute line d.store).1.text ∧
      client.sink.written = d.client.sink.written ++ utf8 request ∧
      Rests ⟨client, connection.takeSent.2, (Request.execute line d.store).2⟩ limit := by
  have hThere := h.connection.bring (there.flows (utf8 line ++ [LineReader.newline]))
  rw [there.bytes, List.nil_append] at hThere
  obtain ⟨connection, hPending, hContinues, hSink, hWritten, hServe⟩ :=
    Connection.serve_of_text (c := d.connection.bring _) hThere h.opened hLine hBlank
      (h.connectionLimit ▸ hRequest) (h.connectionLimit ▸ hLimit) h.connectionSink d.store
  have hSent : connection.sink.written = utf8 (Request.execute line d.store).1.text :=
    hWritten.trans (congrArg (· ++ _) h.unsent)
  obtain ⟨text, client, hAsk, hText, hRead, hSame, hTakes, hAsked⟩ :=
    h.receives (Request.execute_lined h.store line) hVerb hFits request back
  refine ⟨connection, text, client, hServe, hSent, hSent ▸ hAsk, hText, hAsked, ?_⟩
  exact
    { client := hRead
      clientLimit := hSame
      clientSink := hTakes
      connection := hPending
      connectionLimit := hContinues.limit.trans h.connectionLimit
      opened := hContinues.ended.trans h.opened
      connectionSink := ⟨hSink.step, hSink.capacity, hSink.flush⟩
      unsent := rfl
      store := Request.execute_worded h.store line }

theorem Rests.call (h : d.Rests limit) (hCommand : command.WellFormed)
    (hRequest : (utf8 command.text).length ≤ limit.toNat)
    (hLimit : limit.toNat + 1 < UInt64.size) (hFits : Fits (command.execute d.store).1)
    (there back : Cutting) :
    ∃ result next, d.call command there back = (result, next) ∧
      Returns result (command.execute d.store).1 ∧ next.store = (command.execute d.store).2 ∧
      next.Rests limit := by
  have hExecute := hCommand.execute_text d.store
  obtain ⟨connection, text, client, hServe, -, hAsk, hText, -, hRests⟩ :=
    h.exchange hCommand.isLine_text.isFramed command.isBlank_text hRequest hLimit
      (hExecute ▸ command.execute_fits d.store) (hExecute ▸ hFits) command.line there back
  rw [hExecute] at hServe hText hRests
  refine ⟨.ok text, _, ?_, ⟨text, rfl, hText⟩, rfl, hRests⟩
  simp only [Dialogue.call, h.request, hServe, Connection.takeSent, Client.execute, hAsk]

theorem Rests.calls (h : d.Rests limit) (hLimit : limit.toNat + 1 < UInt64.size)
    {calls : List (Command × Cutting × Cutting)}
    (hCommands : ∀ call ∈ calls, call.1.WellFormed ∧ (utf8 call.1.text).length ≤ limit.toNat)
    (hReplies : ∀ reply ∈ (d.store.perform (calls.map (·.1))).1, Fits reply) :
    List.Forall₂ Returns (d.calls calls).1 (d.store.perform (calls.map (·.1))).1 ∧
      (d.calls calls).2.store = (d.store.perform (calls.map (·.1))).2 ∧
      (d.calls calls).2.Rests limit := by
  -- both sides rest again after each call, with the store of the commands so far
  induction calls generalizing d with
  | nil => exact ⟨.nil, rfl, h⟩
  | cons call rest ih =>
    obtain ⟨command, there, back⟩ := call
    obtain ⟨⟨hCommand, hRequest⟩, hCommands⟩ := List.forall_mem_cons.mp hCommands
    rw [List.map_cons, Store.perform_cons] at hReplies ⊢
    obtain ⟨hReply, hReplies⟩ := List.forall_mem_cons.mp hReplies
    obtain ⟨result, next, hCall, hReturned, hStore, hNext⟩ :=
      h.call hCommand hRequest hLimit hReply there back
    obtain ⟨hReturns, hLast, hRests⟩ := ih hNext hCommands (hStore ▸ hReplies)
    simp only [Dialogue.calls, hCall, ← hStore]
    exact ⟨.cons hReturned hReturns, hLast, hRests⟩

/-- Well-formed commands whose lines fit are answered in turn with the replies that they have where
they are executed one after the other, and the stores then look the same, however the bytes arrive
and whatever is left to chance on either side. A reply has fewer lines than there are numbers of
64 bits. -/
theorem calls_performed {limit : UInt64} (hLimit : limit.toNat + 1 < UInt64.size)
    {calls : List (Command × Cutting × Cutting)} (chance other : Chance)
    (hCommands : ∀ call ∈ calls, call.1.WellFormed ∧ (utf8 call.1.text).length ≤ limit.toNat)
    (hReplies : ∀ reply ∈ ((Store.empty other).perform (calls.map (·.1))).1, Fits reply) :
    List.Forall₂ Returns ((start limit chance).calls calls).1
        ((Store.empty other).perform (calls.map (·.1))).1 ∧
      ((start limit chance).calls calls).2.store.Same
        ((Store.empty other).perform (calls.map (·.1))).2 := by
  obtain ⟨hReply, hSame⟩ := Store.perform_empty_same chance other (calls.map (·.1))
  rw [← hReply] at hReplies ⊢
  obtain ⟨hReturns, hStore, -⟩ := (rests_start limit chance).calls hLimit hCommands hReplies
  exact ⟨hReturns, hStore ▸ hSame⟩

/-- A sorted set of two members, on two levels where it is served and flat where it is not, and each
byte is a read of its own. -/
theorem calls_zrange :
    List.Forall₂ Returns
        ((start 64 ⟨fun _ => { tosses := fun i => i = 0 }, default⟩).calls
          [(.zadd "k" .zero "b", .bytewise, .bytewise), (.zadd "k" .zero "a", .bytewise, .bytewise),
            (.zrange "k" .zero .infinity 0 9, .bytewise, .bytewise)]).1
        [.integer 1, .integer 1, .pairs [("a", .zero), ("b", .zero)]] := by
  have hReplies : ((Store.empty default).perform
      [.zadd "k" .zero "b", .zadd "k" .zero "a", .zrange "k" .zero .infinity 0 9]).1 =
      [.integer 1, .integer 1, .pairs [("a", .zero), ("b", .zero)]] := rfl
  have hCalls := @calls_performed 64 (by decide)
    [(.zadd "k" .zero "b", .bytewise, .bytewise), (.zadd "k" .zero "a", .bytewise, .bytewise),
      (.zrange "k" .zero .infinity 0 9, .bytewise, .bytewise)]
    ⟨fun _ => { tosses := fun i => i = 0 }, default⟩ default
    (by
      simp only [List.forall_mem_cons]
      exact ⟨⟨⟨by decide, by decide, List.forall_mem_nil _, trivial⟩, by decide +kernel⟩,
        ⟨⟨by decide, by decide, List.forall_mem_nil _, trivial⟩, by decide +kernel⟩,
        ⟨⟨by decide, by decide, by decide, trivial⟩, by decide +kernel⟩, List.forall_mem_nil _⟩)
    (by
      rw [List.map_cons, List.map_cons, List.map_cons, List.map_nil, hReplies]
      decide +kernel)
  exact hReplies ▸ hCalls.1

variable {chance : Chance}

/-- The greatest limit leaves no room for the threshold: at the first request the connection is lost,
however its bytes arrive, and the client waits for a reply that does not come. -/
theorem call_of_greatest (command : Command) (there back : Cutting) :
    (((start (-1) chance).connection.bring
        (there.cut ((start (-1) chance).request command))).serve (.empty chance)).1 = .panicked ∧
      ((start (-1) chance).call command there back).1 = .error (.io Source.stalled) := by
  have hServe := Connection.serve_of_panic (c := (start (-1) chance).connection.bring
    (there.cut ((start (-1) chance).request command)))
    (LineReader.readRequest_of_greatest _) (.empty chance)
  have hBack : ((start (-1) chance).client.bring (back.cut [])).reader.Pending [] := by
    have hStart := (rests_start (-1) chance).client.bring (back.flows [])
    rwa [back.bytes] at hStart
  have hLimit : Client.maxReplyLine.toNat + 1 < UInt64.size := by decide
  have hAsk := Client.ask_of_open hBack rfl hLimit Sink.takes_unlimited command.line
    (some command.verb)
  refine ⟨congrArg Prod.fst hServe, ?_⟩
  have hSent : ((start (-1) chance).connection.bring
      (there.cut ((start (-1) chance).request command))).sink.written = [] := rfl
  simp only [Dialogue.call, show (start (-1) chance).store = .empty chance from rfl, hServe,
    Connection.takeSent, hSent]
  exact hAsk

theorem ping_unanswered :
    Command.ping.WellFormed ∧ (utf8 Command.ping.text).length ≤ (-1 : UInt64).toNat ∧
      ((Store.empty default).perform [.ping]).1 = [.pong] ∧ Fits .pong ∧
      ((start (-1) default).calls [(.ping, .bytewise, .bytewise)]).1 =
        [.error (.io Source.stalled)] ∧
      ¬ List.Forall₂ Returns ((start (-1) default).calls [(.ping, .bytewise, .bytewise)]).1
        ((Store.empty default).perform [.ping]).1 := by
  have hPing : Command.ping.WellFormed := .of_texts (List.forall_mem_nil _) rfl rfl trivial
  have hCalls : ((start (-1) default).calls [(.ping, .bytewise, .bytewise)]).1 =
      [.error (.io Source.stalled)] :=
    congrArg (fun result => [result]) (call_of_greatest .ping .bytewise .bytewise).2
  refine ⟨hPing, by decide, rfl, by decide, hCalls, ?_⟩
  rw [hCalls]
  rintro (_ | ⟨⟨text, hText, -⟩, -⟩)
  cases hText

end Dialogue
end Keyspace
