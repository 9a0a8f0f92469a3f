import RespStore.Connection
import RespStore.Glob.Search
import RespStore.Options

/-! The command line: serves standard input and standard output as one connection. -/
namespace RespStore

def usage : String :=
  "A store of data structures that speaks RESP\n\nUsage: respstore [OPTIONS]\n\nOptions:\n" ++
  "  -b, --bind <BIND>                The address to listen on\n" ++
  "  -p, --port <PORT>                The port to listen on\n" ++
  "      --max-queued-commands <N>    How many commands a transaction may queue\n" ++
  "      --max-frame-size <N>         The largest request frame accepted, in bytes\n" ++
  "      --log-level <LEVEL>          Maximum level of the log output\n" ++
  "  -h, --help                       Print help\n" ++
  "  -V, --version                    Print version\n"

/-- Reads until the input ends or the connection closes. The clock is read before each chunk is
served. -/
partial def serveLoop (start : Nat) (c : Connection) (e : Engine) : IO Unit := do
  let input ← IO.getStdin
  let output ← IO.getStdout
  let chunk ← input.read 65536
  let e := e.advanceTo ((← IO.monoMsNow) - start)
  if chunk.isEmpty || c.phase ≠ .reading then
    let (last, _) := c.finish e
    output.write ⟨last.toArray⟩
    output.flush
  else
    let (replies, c, e) := c.receive e { chunk := chunk.toList }
    output.write ⟨replies.toArray⟩
    output.flush
    serveLoop start c e

def serve (o : Options) : IO Unit := do
  let start ← IO.monoMsNow
  let (c, e) := Connection.start { maxQueued := o.maxQueued } "stdin" o.maxFrameSize
  serveLoop start c e

end RespStore

def main (args : List String) : IO UInt32 := do
  let mut environment := #[]
  for setting in RespStore.Setting.all do
    if let some text ← IO.getEnv (setting.variableName "RESPSTORE") then
      environment := environment.push (setting, text)
  match RespStore.Options.read args (environment.toList.lookup ·) with
  | .ok o =>
    RespStore.serve o
    return 0
  | .error .help =>
    IO.print RespStore.usage
    return 0
  | .error .version =>
    IO.println "respstore 0.1.0"
    return 0
  | .error e =>
    IO.eprintln ("error: " ++ e.kind ++ "\n\n" ++ RespStore.usage)
    return 2
