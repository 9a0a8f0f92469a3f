import RespStore.Keyspace
import RespStore.Text.Ascii

/-! The report on the state of the server. -/
namespace RespStore.Info

structure Section where
  title : String
  fields : List (String × String)

def serverVersion : String := "7.2.4"

/-- The report stands for no process of its own. -/
def processId : String := "PID"

def server (ks : Keyspace) : Section where
  title := "Server"
  fields :=
    let seconds := ks.now / 1000
    [("redis_version", serverVersion), ("redis_mode", "standalone"), ("arch_bits", "64"),
      ("process_id", processId), ("uptime_in_seconds", toString seconds),
      ("uptime_in_days", toString (seconds / 86400))]

def clients (ks : Keyspace) : Section where
  title := "Clients"
  fields := [("connected_clients", toString ks.stats.connectedClients)]

def stats (ks : Keyspace) : Section where
  title := "Stats"
  fields :=
    [("total_connections_received", toString ks.stats.connectionsReceived),
      ("total_commands_processed", toString ks.stats.commandsProcessed),
      ("expired_keys", toString ks.stats.expiredKeys)]

def keyspace (ks : Keyspace) : Section where
  title := "Keyspace"
  fields :=
    if ks.size = 0 then []
    else
      [("db0", "keys=" ++ toString ks.size ++ ",expires=" ++ toString ks.expires ++ ",avg_ttl=0")]

def sections (ks : Keyspace) : List Section := [server ks, clients ks, stats ks, keyspace ks]

def Section.text (s : Section) : String :=
  "# " ++ s.title ++ "\r\n" ++ String.join (s.fields.map fun (name, value) =>
    name ++ ":" ++ value ++ "\r\n")

/-- Whether a section is asked for; with no names given, all are. -/
def wants (names : List String) (s : Section) : Bool :=
  names.isEmpty || names.any fun name =>
    name == "all" || name == "default" || name == "everything" ||
      Text.spells (Bytes.ofString name) s.title

def report (ks : Keyspace) (names : List String) : String :=
  "\r\n".intercalate (((sections ks).filter (wants names)).map Section.text)

end RespStore.Info
