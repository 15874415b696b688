import Mathlib.Data.List.Forall2
import Keyspace.Proofs.Command.RoundTrip
import Keyspace.Proofs.Score.Spelling

/-! # Grammar: which lines are commands, and what is wrong with the others -/
namespace Keyspace
open Text
set_option autoImplicit false

/-- What an argument is to be. -/
inductive Kind where
  | text
  | score
  | integer
  | count
  deriving DecidableEq, Repr

inductive Field where
  | text (value : String)
  | score (value : Score)
  | integer (value : Int64)
  | count (value : Nat)
  deriving DecidableEq, Repr

namespace Kind

/-- What a word stands for, if it is of the kind. An offset or a count below zero stands for zero. -/
inductive Reads : Kind → String → Field → Prop
  | text (word : String) : Reads text word (.text word)
  | score {word : String} {s : Score} (hSpelled : Score.Spelled word.toList s) (hNumber : s ≠ .nan) :
      Reads score word (.score s)
  | integer {word : String} {n : Int64} (hSpelled : Spells word.toList n.toInt) :
      Reads integer word (.integer n)
  | count {word : String} {n : Int64} (hSpelled : Spells word.toList n.toInt) :
      Reads count word (.count n.toInt.toNat)

def refusal : Kind → String → Error
  | score => .notANumber
  | text | integer | count => .notAnInteger

end Kind

namespace Verb

/-- Upper case and lower case are the same in a name. -/
def Named (v : Verb) (word : String) : Prop := SameLetters v.name.toList word.toList

/-- The kinds of the arguments up to the last that is no text. -/
def kinds : Verb → List Kind
  | zadd => [.text, .score]
  | zrange | zrangedel => [.text, .score, .score, .count, .count]
  | zquery => [.text, .score, .text, .score, .text, .count, .count]
  | incrby => [.text, .integer]
  | lrange | ltrim => [.text, .integer, .integer]
  | hincrby => [.text, .text, .integer]
  | _ => []

def kind (v : Verb) (place : Nat) : Kind := v.kinds.getD place .text

def Reads (v : Verb) (arg : String × Nat) (field : Field) : Prop :=
  (v.kind arg.2).Reads arg.1 field

/-- The first argument that is not of its kind. -/
inductive Misreads (v : Verb) : List (String × Nat) → String × Nat → Prop
  | here {arg : String × Nat} {args : List (String × Nat)} (hNone : ∀ field, ¬ v.Reads arg field) :
      Misreads v (arg :: args) arg
  | later {first arg : String × Nat} {args : List (String × Nat)} {field : Field}
      (hFirst : v.Reads first field) (hRest : Misreads v args arg) : Misreads v (first :: args) arg

end Verb

namespace Command

def fields : Command → List Field
  | ping => []
  | zadd key score member => [.text key, .score score, .text member]
  | zrem key member | zscore key member | sadd key member | srem key member
  | sismember key member => [.text key, .text member]
  | zrange key minScore maxScore offset count | zrangedel key minScore maxScore offset count =>
    [.text key, .score minScore, .score maxScore, .count offset, .count count]
  | zquery key minScore minMember maxScore maxMember offset count =>
    [.text key, .score minScore, .text minMember, .score maxScore, .text maxMember, .count offset,
      .count count]
  | zcard key | get key | del key | lpop key | rpop key | llen key | scard key => [.text key]
  | set key value | lpush key value | rpush key value => [.text key, .text value]
  | incrby key amount => [.text key, .integer amount]
  | lmove source destination fromEnd toEnd =>
    [.text source, .text destination, .text fromEnd, .text toEnd]
  | lrange key start stop | ltrim key start stop => [.text key, .integer start, .integer stop]
  | sinter keys => keys.map .text
  | hset key pairs => .text key :: (pairs.flatMap fun (field, value) => [field, value]).map .text
  | hget key field => [.text key, .text field]
  | hmget key fields => .text key :: fields.map .text
  | hincrby key field amount => [.text key, .text field, .integer amount]

end Command

/-- What a line comes to whose words these are. -/
inductive Decodes : List String → Except Error Command → Prop
  | empty : Decodes [] (.error .emptyCommand)
  | unknown {word : String} {args : List String} (hUnknown : ∀ v : Verb, ¬ v.Named word) :
      Decodes (word :: args) (.error (.unknownCommand word))
  | miscounted {v : Verb} {word : String} {args : List String} (hName : v.Named word)
      (hArity : v.arity.admits args.length = false) :
      Decodes (word :: args) (.error (.wrongArity v))
  | misread {v : Verb} {word : String} {args : List String} {arg : String × Nat}
      (hName : v.Named word) (hArity : v.arity.admits args.length = true)
      (hArg : v.Misreads args.zipIdx arg) :
      Decodes (word :: args) (.error ((v.kind arg.2).refusal arg.1))
  | command {word : String} {args : List String} {c : Command} (hName : c.verb.Named word)
      (hArity : c.verb.arity.admits args.length = true)
      (hFields : List.Forall₂ c.verb.Reads args.zipIdx c.fields) :
      Decodes (word :: args) (.ok c)

/-- What is wrong with words whose error is of a class. -/
def Faulty : ErrorClass → List String → Prop
  | .protocol, ws => ws = []
  | .unknownCommand, ws => ∃ word args, ws = word :: args ∧ ∀ v : Verb, ¬ v.Named word
  | .invalidArgument, ws => ∃ (v : Verb) (word : String) (args : List String),
    ws = word :: args ∧ v.Named word ∧ v.arity.admits args.length = false
  | .parseFailure, ws => ∃ (v : Verb) (word : String) (args : List String),
    ws = word :: args ∧ v.Named word ∧ v.arity.admits args.length = true ∧
      ∃ arg ∈ args.zipIdx, ∀ field, ¬ v.Reads arg field
  | .io, _ | .network, _ | .config, _ => False

namespace Command

/-- Nothing of a command is left out of its verb and its fields. -/
theorem eq_of_fields_eq {c d : Command} (hVerb : c.verb = d.verb) (h : c.fields = d.fields) :
    c = d := by
  have hTexts : Function.Injective (List.map Field.text) :=
    List.map_injective_iff.mpr fun _ _ => Field.text.inj
  cases c with
  | sinter keys =>
    cases d <;> cases hVerb
    exact congrArg sinter (hTexts h)
  | hset key pairs =>
    cases d <;> cases hVerb
    rename_i other others
    obtain ⟨hKey, hPairs⟩ := List.cons_eq_cons.mp h
    have hSame := congrArg Request.pairUp (hTexts hPairs)
    rw [Request.pairUp_flatMap, Request.pairUp_flatMap] at hSame
    cases hKey
    cases hSame
    rfl
  | hmget key names =>
    cases d <;> cases hVerb
    obtain ⟨hKey, hNames⟩ := List.cons_eq_cons.mp h
    cases hKey
    cases hTexts hNames
    rfl
  | _ =>
    cases d <;> cases hVerb
    cases h
    rfl

end Command

namespace Kind

def read : Kind → String → Except Error Field
  | text, word => .ok (.text word)
  | score, word => (Request.readScore word).map .score
  | integer, word => (Request.readInteger word).map .integer
  | count, word => (Request.readCount word).map .count

theorem read_of_reads {kind : Kind} {word : String} {field : Field} (h : kind.Reads word field) :
    kind.read word = .ok field := by
  cases h with
  | text => rfl
  | @score _ s hSpelled hNumber =>
    rw [read, Request.readScore, Score.read_eq_some_iff.mpr hSpelled]
    cases s with
    | nan => exact absurd rfl hNumber
    | number negative rank => rfl
  | integer hSpelled =>
    rw [read, Request.readInteger, readInt64_eq_some_iff.mpr hSpelled]
    rfl
  | count hSpelled =>
    rw [read, Request.readCount, Request.readInteger, readInt64_eq_some_iff.mpr hSpelled]
    rfl

theorem read_of_not_reads {kind : Kind} {word : String} (h : ∀ field, ¬ kind.Reads word field) :
    kind.read word = .error (kind.refusal word) := by
  cases kind with
  | text => exact absurd (.text word) (h (.text word))
  | score =>
    rw [read, Request.readScore]
    cases hRead : Score.read word with
    | none => rfl
    | some s =>
      cases s with
      | nan => rfl
      | number negative rank =>
        have hNumber : Score.number negative rank ≠ .nan := by simp
        exact absurd (.score (Score.read_eq_some_iff.mp hRead) hNumber) (h _)
  | integer =>
    rw [read, Request.readInteger]
    cases hRead : readInt64 word with
    | none => rfl
    | some n => exact absurd (.integer (readInt64_eq_some_iff.mp hRead)) (h _)
  | count =>
    rw [read, Request.readCount, Request.readInteger]
    cases hRead : readInt64 word with
    | none => rfl
    | some n => exact absurd (.count (readInt64_eq_some_iff.mp hRead)) (h _)

theorem errorClass_refusal (kind : Kind) (word : String) :
    (kind.refusal word).errorClass = .parseFailure := by
  cases kind <;> rfl

end Kind

namespace Verb

variable {v : Verb} {word : String} {args : List String} {place : Nat}

theorem read?_eq_some_iff : read? word = some v ↔ v.Named word := by
  have hSame : v.Named word ↔ asciiLower v.name = asciiLower word := by
    rw [Named, sameLetters_iff, asciiLower, asciiLower, String.ofList_inj]
  rw [hSame]
  constructor
  · intro h
    have hName := List.find?_some h
    simp only [decide_eq_true_eq] at hName
    exact hName
  · intro h
    have hName : read? v.name = some v := by cases v <;> rfl
    rw [read?, ← h]
    exact hName

theorem read?_eq_none_iff : read? word = none ↔ ∀ v : Verb, ¬ v.Named word := by
  rw [Option.eq_none_iff_forall_ne_some]
  exact forall_congr' fun v => not_congr read?_eq_some_iff

/-- The arguments from a place on, each read in its turn. -/
def readFrom (v : Verb) : Nat → List String → Except Error (List Field)
  | _, [] => .ok []
  | place, arg :: args => do .ok ((← (v.kind place).read arg) :: (← v.readFrom (place + 1) args))

theorem readFrom_texts (h : v.kinds = []) (place : Nat) (args : List String) :
    v.readFrom place args = .ok (args.map .text) := by
  induction args generalizing place with
  | nil => rfl
  | cons arg args ih =>
    rw [readFrom, ih, kind, h]
    rfl

theorem readFrom_of_reads {fields : List Field}
    (h : List.Forall₂ v.Reads (args.zipIdx place) fields) : v.readFrom place args = .ok fields := by
  induction args generalizing place fields with
  | nil =>
    cases h
    rfl
  | cons arg args ih =>
    rw [List.zipIdx_cons] at h
    cases h with
    | cons hFirst hRest =>
      rw [readFrom, Kind.read_of_reads hFirst, ih hRest]
      rfl

theorem readFrom_of_misreads {arg : String × Nat} (h : v.Misreads (args.zipIdx place) arg) :
    v.readFrom place args = .error ((v.kind arg.2).refusal arg.1) := by
  induction args generalizing place with
  | nil => cases h
  | cons first args ih =>
    rw [List.zipIdx_cons] at h
    cases h with
    | here hNone =>
      rw [readFrom, Kind.read_of_not_reads hNone]
      rfl
    | later hFirst hRest =>
      rw [readFrom, Kind.read_of_reads hFirst, ih hRest]
      rfl

theorem reads_or_misreads (v : Verb) (args : List (String × Nat)) :
    (∃ fields, List.Forall₂ v.Reads args fields) ∨ ∃ arg, v.Misreads args arg := by
  induction args with
  | nil => exact .inl ⟨[], .nil⟩
  | cons first args ih =>
    by_cases hFirst : ∃ field, v.Reads first field
    · obtain ⟨field, hField⟩ := hFirst
      rcases ih with ⟨fields, hFields⟩ | ⟨arg, hArg⟩
      · exact .inl ⟨field :: fields, .cons hField hFields⟩
      · exact .inr ⟨arg, .later hField hArg⟩
    · exact .inr ⟨first, .here (not_exists.mp hFirst)⟩

theorem Misreads.mem {args : List (String × Nat)} {arg : String × Nat} (h : v.Misreads args arg) :
    arg ∈ args ∧ ∀ field, ¬ v.Reads arg field := by
  induction h with
  | here hNone => exact ⟨List.mem_cons_self, hNone⟩
  | later _ _ ih => exact ⟨List.mem_cons_of_mem _ ih.1, ih.2⟩

theorem exists_misreads {args : List (String × Nat)} {arg : String × Nat} (hMem : arg ∈ args)
    (hNone : ∀ field, ¬ v.Reads arg field) : ∃ first, v.Misreads args first := by
  rcases reads_or_misreads v args with ⟨fields, hFields⟩ | hMisreads
  · obtain ⟨i, hi, rfl⟩ := List.mem_iff_get.mp hMem
    exact absurd (hFields.get i.isLt (hFields.length_eq ▸ i.isLt)) (hNone _)
  · exact hMisreads

end Verb

namespace Request

variable {v : Verb} {args : List String}

theorem pairUp_eq_none_iff (ws : List String) : pairUp ws = none ↔ ws.length % 2 = 1 := by
  induction ws using pairUp.induct with
  | case1 => simp [pairUp]
  | case2 word => simp [pairUp]
  | case3 field value rest ih =>
    rw [pairUp, Option.map_eq_none_iff, ih, List.length_cons, List.length_cons]
    omega

theorem ofWords_of_miscounted (h : v.arity.admits args.length = false) :
    ofWords v args = .error (.wrongArity v) := by
  cases v with
  | sinter =>
    cases args with
    | nil => rfl
    | cons key keys => cases h
  | hset =>
    simp only [ofWords]
    split
    · rename_i key field value rest
      split
      · rename_i pairs hPairs
        have hEven : rest.length % 2 ≠ 1 := by
          rw [ne_eq, ← pairUp_eq_none_iff, hPairs]
          exact Option.some_ne_none pairs
        simp only [Verb.arity, Arity.admits, List.length_cons, Bool.and_eq_false_iff,
          decide_eq_false_iff_not] at h
        omega
      · rfl
    · rfl
  | _ =>
    simp only [ofWords]
    split
    · cases h
    · rfl

theorem ofWords_of_admits (h : v.arity.admits args.length = true) :
    (ofWords v args).map (fun c => (c.verb, c.fields)) =
      (v.readFrom 0 args).map fun fields => (v, fields) := by
  -- where all arguments are texts both sides compute; a number is read the same on both
  cases v with
  | ping =>
    obtain rfl := List.length_eq_zero_iff.mp (of_decide_eq_true h)
    rfl
  | zcard | get | del | lpop | rpop | llen | scard =>
    obtain ⟨key, rfl⟩ := List.length_eq_one_iff.mp (of_decide_eq_true h)
    rfl
  | zrem | zscore | set | lpush | rpush | sadd | srem | sismember | hget =>
    obtain ⟨key, other, rfl⟩ := List.length_eq_two.mp (of_decide_eq_true h)
    rfl
  | lmove =>
    obtain ⟨source, destination, fromEnd, toEnd, rfl⟩ :=
      List.length_eq_four.mp (of_decide_eq_true h)
    rfl
  | sinter =>
    obtain _ | ⟨key, keys⟩ := args
    · cases h
    · rw [Verb.readFrom_texts rfl]
      rfl
  | hmget =>
    obtain _ | ⟨key, _ | ⟨field, fields⟩⟩ := args
    · cases h
    · cases h
    · rw [Verb.readFrom_texts rfl]
      rfl
  | zadd =>
    obtain ⟨key, score, member, rfl⟩ := List.length_eq_three.mp (of_decide_eq_true h)
    simp only [ofWords, Verb.readFrom, Verb.kind, Verb.kinds, List.getD_cons_zero,
      List.getD_cons_succ, Kind.read]
    cases readScore score <;> rfl
  | zrange | zrangedel =>
    obtain ⟨key, rest, rfl, hRest⟩ := List.length_eq_succ_iff.mp (of_decide_eq_true h)
    obtain ⟨minScore, maxScore, offset, count, rfl⟩ := List.length_eq_four.mp hRest
    simp only [ofWords, Verb.readFrom, Verb.kind, Verb.kinds, List.getD_cons_zero,
      List.getD_cons_succ, Kind.read]
    cases readScore minScore <;> cases readScore maxScore <;>
      cases Request.readCount offset <;> cases Request.readCount count <;> rfl
  | zquery =>
    obtain ⟨key, rest, rfl, hRest⟩ := List.length_eq_succ_iff.mp (of_decide_eq_true h)
    obtain ⟨minScore, others, rfl, hOthers⟩ := List.length_eq_succ_iff.mp hRest
    obtain ⟨minMember, last, rfl, hLast⟩ := List.length_eq_succ_iff.mp hOthers
    obtain ⟨maxScore, maxMember, offset, count, rfl⟩ := List.length_eq_four.mp hLast
    simp only [ofWords, Verb.readFrom, Verb.kind, Verb.kinds, List.getD_cons_zero,
      List.getD_cons_succ, Kind.read]
    cases readScore minScore <;> cases readScore maxScore <;>
      cases Request.readCount offset <;> cases Request.readCount count <;> rfl
  | incrby =>
    obtain ⟨key, amount, rfl⟩ := List.length_eq_two.mp (of_decide_eq_true h)
    simp only [ofWords, Verb.readFrom, Verb.kind, Verb.kinds, List.getD_cons_zero,
      List.getD_cons_succ, Kind.read]
    cases readInteger amount <;> rfl
  | hincrby =>
    obtain ⟨key, field, amount, rfl⟩ := List.length_eq_three.mp (of_decide_eq_true h)
    simp only [ofWords, Verb.readFrom, Verb.kind, Verb.kinds, List.getD_cons_zero,
      List.getD_cons_succ, Kind.read]
    cases readInteger amount <;> rfl
  | lrange | ltrim =>
    obtain ⟨key, start, stop, rfl⟩ := List.length_eq_three.mp (of_decide_eq_true h)
    simp only [ofWords, Verb.readFrom, Verb.kind, Verb.kinds, List.getD_cons_zero,
      List.getD_cons_succ, Kind.read]
    cases readInteger start <;> cases readInteger stop <;> rfl
  | hset =>
    obtain _ | ⟨key, _ | ⟨field, _ | ⟨value, rest⟩⟩⟩ := args
    · cases h
    · cases h
    · cases h
    · rw [Verb.readFrom_texts rfl]
      cases hPairs : pairUp rest with
      | none =>
        have hOdd := (pairUp_eq_none_iff rest).mp hPairs
        simp only [Verb.arity, Arity.admits, List.length_cons, Bool.and_eq_true,
          decide_eq_true_eq] at h
        omega
      | some pairs =>
        simp only [ofWords, hPairs, Except.map, Command.verb, Command.fields, List.flatMap_cons,
          flatMap_of_pairUp hPairs]
        rfl

theorem ofWords_of_misread {e : Error} (hArity : v.arity.admits args.length = true)
    (h : v.readFrom 0 args = .error e) : ofWords v args = .error e := by
  have hRead := ofWords_of_admits hArity
  rw [h] at hRead
  cases hWords : ofWords v args with
  | error other =>
    rw [hWords] at hRead
    cases hRead
    rfl
  | ok c =>
    rw [hWords] at hRead
    cases hRead

theorem ofWords_of_fields {fields : List Field} (hArity : v.arity.admits args.length = true)
    (h : v.readFrom 0 args = .ok fields) :
    ∃ c, ofWords v args = .ok c ∧ c.verb = v ∧ c.fields = fields := by
  have hRead := ofWords_of_admits hArity
  rw [h] at hRead
  cases hWords : ofWords v args with
  | error other =>
    rw [hWords] at hRead
    cases hRead
  | ok c =>
    rw [hWords] at hRead
    cases hRead
    exact ⟨c, rfl, rfl, rfl⟩

theorem read_of_named {line word : String} (hWords : words line = word :: args)
    (hName : v.Named word) : Request.read line = ofWords v args := by
  rw [Request.read, hWords]
  simp only [readVerb, Verb.read?_eq_some_iff.mpr hName]
  rfl

theorem read_of_unknown {line word : String} (hWords : words line = word :: args)
    (hUnknown : ∀ v : Verb, ¬ v.Named word) :
    Request.read line = .error (.unknownCommand word) := by
  rw [Request.read, hWords]
  simp only [readVerb, Verb.read?_eq_none_iff.mpr hUnknown]
  rfl

theorem read_of_decodes {line : String} {ws : List String} {result : Except Error Command}
    (hWords : words line = ws) (h : Decodes ws result) : Request.read line = result := by
  cases h with
  | empty => rw [Request.read, hWords]
  | unknown hUnknown => exact read_of_unknown hWords hUnknown
  | miscounted hName hArity =>
    rw [read_of_named hWords hName, ofWords_of_miscounted hArity]
  | misread hName hArity hArg =>
    rw [read_of_named hWords hName, ofWords_of_misread hArity (Verb.readFrom_of_misreads hArg)]
  | command hName hArity hFields =>
    obtain ⟨c, hCommand, hVerb, hSame⟩ :=
      ofWords_of_fields hArity (Verb.readFrom_of_reads hFields)
    rw [read_of_named hWords hName, hCommand, Command.eq_of_fields_eq hVerb hSame]

theorem decodes_read (line : String) : Decodes (words line) (Request.read line) := by
  cases hWords : words line with
  | nil =>
    rw [Request.read, hWords]
    exact .empty
  | cons word args =>
    cases hVerb : Verb.read? word with
    | none =>
      have hUnknown := Verb.read?_eq_none_iff.mp hVerb
      rw [read_of_unknown hWords hUnknown]
      exact .unknown hUnknown
    | some v =>
      have hName := Verb.read?_eq_some_iff.mp hVerb
      rw [read_of_named hWords hName]
      cases hArity : v.arity.admits args.length with
      | false =>
        rw [ofWords_of_miscounted hArity]
        exact .miscounted hName hArity
      | true =>
        rcases v.reads_or_misreads args.zipIdx with ⟨fields, hFields⟩ | ⟨arg, hArg⟩
        · obtain ⟨c, hCommand, rfl, rfl⟩ :=
            ofWords_of_fields hArity (Verb.readFrom_of_reads hFields)
          rw [hCommand]
          exact .command hName hArity hFields
        · rw [ofWords_of_misread hArity (Verb.readFrom_of_misreads hArg)]
          exact .misread hName hArity hArg

theorem faulty_of_decodes {ws : List String} {e : Error} (h : Decodes ws (.error e)) :
    Faulty e.errorClass ws := by
  cases h with
  | empty => rfl
  | unknown hUnknown => exact ⟨_, _, rfl, hUnknown⟩
  | miscounted hName hArity => exact ⟨_, _, _, rfl, hName, hArity⟩
  | misread hName hArity hArg =>
    rw [Kind.errorClass_refusal]
    exact ⟨_, _, _, rfl, hName, hArity, _, hArg.mem⟩

theorem decodes_of_faulty {ws : List String} {errorClass : ErrorClass}
    (h : Faulty errorClass ws) : ∃ e, Decodes ws (.error e) ∧ e.errorClass = errorClass := by
  cases errorClass with
  | protocol =>
    cases h
    exact ⟨_, .empty, rfl⟩
  | unknownCommand =>
    obtain ⟨word, args, rfl, hUnknown⟩ := h
    exact ⟨_, .unknown hUnknown, rfl⟩
  | invalidArgument =>
    obtain ⟨v, word, args, rfl, hName, hArity⟩ := h
    exact ⟨_, .miscounted hName hArity, rfl⟩
  | parseFailure =>
    obtain ⟨v, word, args, rfl, hName, hArity, arg, hArg, hNone⟩ := h
    obtain ⟨first, hFirst⟩ := Verb.exists_misreads hArg hNone
    exact ⟨_, .misread hName hArity hFirst, Kind.errorClass_refusal _ _⟩
  | io | network | config => cases h

/-- A line is read as its words say, and as nothing else: its verb is looked up first, then its
arguments are counted, and then they are read from the left. -/
theorem read_eq_iff_decodes (line : String) :
    (∀ result, Request.read line = result ↔ ∃ ws, Parts line.toList ws ∧ Decodes ws result) ∧
      (∀ errorClass, (∃ e, Request.read line = .error e ∧ e.errorClass = errorClass) ↔
        ∃ ws, Parts line.toList ws ∧ Faulty errorClass ws) ∧
      ∀ (other : String) (ws : List String), Parts line.toList ws → Parts other.toList ws →
        Request.read other = Request.read line := by
  simp only [parts_iff, exists_eq_left']
  have hRead := decodes_read line
  refine ⟨fun result => ⟨fun h => h ▸ hRead, read_of_decodes rfl⟩, ?_, ?_⟩
  · intro errorClass
    constructor
    · rintro ⟨e, hError, rfl⟩
      exact faulty_of_decodes (hError ▸ hRead)
    · intro hFaulty
      obtain ⟨e, hDecodes, hClass⟩ := decodes_of_faulty hFaulty
      exact ⟨e, read_of_decodes rfl hDecodes, hClass⟩
  · rintro other ws rfl hSame
    exact read_of_decodes hSame hRead

/-- Two arguments are no numbers, and the first of them is reported; blanks do not matter. -/
theorem zrange_not_a_number :
    Request.read "zrange k 0 high low 9" = .error (.notANumber "high") ∧
      Request.read "\tzrange k 0  high low 9\n" = Request.read "zrange k 0 high low 9" := by
  let ws := ["zrange", "k", "0", "high", "low", "9"]
  have hParts : Parts "zrange k 0 high low 9".toList ws := parts_iff.mpr (by decide)
  have hOther : Parts "\tzrange k 0  high low 9\n".toList ws := parts_iff.mpr (by decide)
  have hName : Verb.zrange.Named "zrange" := Verb.read?_eq_some_iff.mp (by decide)
  obtain ⟨hResult, -, hSame⟩ := read_eq_iff_decodes "zrange k 0 high low 9"
  have hZero : Score.Spelled "0".toList .zero := Score.read_eq_some_iff.mp (by decide)
  have hUnread : Score.read "high" = none := by decide
  have hNone : ∀ field, ¬ Verb.zrange.Reads ("high", 2) field := by
    intro field hField
    cases hField with
    | score hSpelled _ =>
      rw [← Score.read_eq_some_iff, hUnread] at hSpelled
      cases hSpelled
  have hArg : Verb.zrange.Misreads (ws.tail.zipIdx) ("high", 2) :=
    .later (.text "k") (.later (.score hZero (by decide)) (.here hNone))
  exact ⟨(hResult _).mpr ⟨ws, hParts, .misread hName rfl hArg⟩, hSame _ ws hParts hOther⟩

end Request
end Keyspace
