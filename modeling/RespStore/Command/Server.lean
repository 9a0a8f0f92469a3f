import RespStore.Client
import RespStore.Command.Info
import RespStore.Request.Reader
import RespStore.Text.Lowercase

/-! Commands on the server and on the client's own connection. -/
namespace RespStore

inductive ServerCommand where
  | clientGetName
  | clientId
  | clientSetLibName (value : Bytes)
  | clientSetLibVersion (value : Bytes)
  | clientSetName (name : Bytes)
  | dbsize
  | echo (message : Bytes)
  | flushdb
  | info (sections : List String)
  | ping (payload : Option Bytes)
  | quit
  | select (index : Int64)
  deriving DecidableEq, Repr

namespace ServerCommand

def name : ServerCommand → String
  | .clientGetName | .clientId | .clientSetLibName .. | .clientSetLibVersion ..
  | .clientSetName .. => "client"
  | .dbsize => "dbsize"
  | .echo .. => "echo"
  | .flushdb => "flushdb"
  | .info .. => "info"
  | .ping .. => "ping"
  | .quit => "quit"
  | .select .. => "select"

/-- Names hold printable ASCII characters without the space. -/
def isNameByte (b : UInt8) : Bool := 32 < b && b ≤ 126

def client : Reader ServerCommand := do
  let subcommand := Text.lowercase (← .text)
  match subcommand with
  | "getname" => return .clientGetName
  | "id" => return .clientId
  | "setname" =>
    let name ← .bytes
    if name.all isNameByte then return .clientSetName name else throw .invalidClientName
  | "setinfo" =>
    let field := Text.lowercase (← .text)
    let value ← .bytes
    match field with
    | "lib-name" => return .clientSetLibName value
    | "lib-ver" => return .clientSetLibVersion value
    | _ => throw (.unknownSubcommand field "client|setinfo")
  | _ => throw (.unknownSubcommand subcommand "client")

/-- There is only one database, with index 0. -/
def database : Reader ServerCommand := do
  let index ← .int64
  if index = 0 then return .select index else throw .databaseOutOfRange

def reader? : String → Option (Reader ServerCommand)
  | "client" => some client
  | "dbsize" => some do return .dbsize
  | "echo" => some do return .echo (← .bytes)
  | "flushall" | "flushdb" => some do
    let _ ← .optional (.keyword [("SYNC", ()), ("ASYNC", ())])
    return .flushdb
  | "info" => some do
    return .info (← .all fun args => do return (← args.mapM Frame.text).map Text.lowercase)
  | "ping" => some do return .ping (← .optional .bytes)
  | "quit" => some do return .quit
  | "select" => some database
  | _ => none

def exec (ks : Keyspace) (c : Client) : ServerCommand → Frame × Keyspace × Client
  | .clientGetName => (.optionalBulk c.name, ks, c)
  | .clientId => (.integer (Int64.ofNat c.id), ks, c)
  | .clientSetLibName value => (.ok, ks, { c with libName := some value })
  | .clientSetLibVersion value => (.ok, ks, { c with libVersion := some value })
  | .clientSetName name => (.ok, ks, { c with name := if name.isEmpty then none else some name })
  | .dbsize => (.count ks.size, ks, c)
  | .echo message => (.bulk message, ks, c)
  | .flushdb => (.ok, ks.flush, c)
  | .info names => (.bulk (Bytes.ofString (Info.report ks names)), ks, c)
  | .ping payload => (payload.elim (.simple "PONG") .bulk, ks, c)
  | .quit => (.ok, ks, { c with quit := true })
  | .select _ => (.ok, ks, c)

end ServerCommand
end RespStore
