import RespStore.Command.Hashes
import RespStore.Command.Keys
import RespStore.Command.Lists
import RespStore.Command.Server
import RespStore.Command.Sets
import RespStore.Command.SortedSets
import RespStore.Command.Strings

/-! Commands: reading them from request frames, and executing them. -/
namespace RespStore

inductive TransactionCommand where
  | discard
  | exec
  | multi
  deriving DecidableEq, Repr

inductive TransactionError where
  | nestedMulti
  | execWithoutMulti
  | discardWithoutMulti
  | aborted
  | queueFull (limit : Nat)
  deriving DecidableEq, Repr

def TransactionError.message : TransactionError → String
  | .nestedMulti => "ERR MULTI calls can not be nested"
  | .execWithoutMulti => "ERR EXEC without MULTI"
  | .discardWithoutMulti => "ERR DISCARD without MULTI"
  | .aborted => "EXECABORT Transaction discarded because of previous errors."
  | .queueFull limit =>
    "ERR transaction discarded, more than " ++ toString limit ++ " commands queued"

namespace TransactionCommand

def name : TransactionCommand → String
  | .discard => "discard"
  | .exec => "exec"
  | .multi => "multi"

def reader? : String → Option (Reader TransactionCommand)
  | "discard" => some do return .discard
  | "exec" => some do return .exec
  | "multi" => some do return .multi
  | _ => none

/-- Commands that control a transaction fail wherever commands are executed. -/
def error : TransactionCommand → TransactionError
  | .discard => .discardWithoutMulti
  | .exec => .execWithoutMulti
  | .multi => .nestedMulti

end TransactionCommand

inductive Command where
  | keys (c : KeyCommand)
  | strings (c : StringCommand)
  | lists (c : ListCommand)
  | sets (c : SetCommand)
  | sortedSets (c : SortedSetCommand)
  | hashes (c : HashCommand)
  | server (c : ServerCommand)
  | transaction (c : TransactionCommand)
  deriving DecidableEq, Repr

inductive CommandError where
  | store (cause : StoreError)
  | transaction (cause : TransactionError)
  deriving DecidableEq, Repr

def CommandError.message : CommandError → String
  | .store cause => cause.message
  | .transaction cause => cause.message

namespace Command

/-- The lowercase name; synonymous commands have one name. -/
def name : Command → String
  | .keys c => c.name
  | .strings c => c.name
  | .lists c => c.name
  | .sets c => c.name
  | .sortedSets c => c.name
  | .hashes c => c.name
  | .server c => c.name
  | .transaction c => c.name

def reader? (name : String) : Option (Reader Command) :=
  (KeyCommand.reader? name).map (.keys <$> ·)
  <|> (StringCommand.reader? name).map (.strings <$> ·)
  <|> (ListCommand.reader? name).map (.lists <$> ·)
  <|> (SetCommand.reader? name).map (.sets <$> ·)
  <|> (SortedSetCommand.reader? name).map (.sortedSets <$> ·)
  <|> (HashCommand.reader? name).map (.hashes <$> ·)
  <|> (ServerCommand.reader? name).map (.server <$> ·)
  <|> (TransactionCommand.reader? name).map (.transaction <$> ·)

def readName : Frame → Except RequestError String
  | .simple text => .ok (Text.lowercase text)
  | .bulk data =>
    match Bytes.toString? data with
    | some text => .ok (Text.lowercase text)
    | none => .error .invalidText
  | frame => .error (.unexpected .commandName frame)

def ofArguments : List Frame → Except RequestError Command
  | [] => .error .endOfRequest
  | first :: rest => do
    let name ← readName first
    match reader? name with
    | none => .error (.unknownCommand name)
    | some reader => reader.run name rest

/-- Requests are arrays: a name, and arguments. -/
def ofFrame : Frame → Except RequestError Command
  | .array items => ofArguments items
  | frame => .error (.unexpected .request frame)

private def onStore (c : Client) (r : Outcome) :
    Except CommandError Frame × Keyspace × Client :=
  (r.1.mapError .store, r.2, c)

private def sure (c : Client) (r : Frame × Keyspace) :
    Except CommandError Frame × Keyspace × Client :=
  (.ok r.1, r.2, c)

def exec [Glob.Matcher] (ks : Keyspace) (c : Client) :
    Command → Except CommandError Frame × Keyspace × Client
  | .keys command => sure c (command.exec ks)
  | .strings command => onStore c (command.exec ks)
  | .lists command => onStore c (command.exec ks)
  | .sets command => onStore c (command.exec ks)
  | .sortedSets command => onStore c (command.exec ks)
  | .hashes command => onStore c (command.exec ks)
  | .server command =>
    let (reply, ks, c) := command.exec ks c
    (.ok reply, ks, c)
  | .transaction command => (.error (.transaction command.error), ks, c)

end Command
end RespStore
