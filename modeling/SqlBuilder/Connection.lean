import SqlBuilder.Answer
import SqlBuilder.Cache
import SqlBuilder.Json
import SqlBuilder.Link

/-!
# Connections

A client sends a query to its server and gives the messages that came back. Whatever the client
is, a link reads its answers off these messages, and a connection detects the version of the server
or takes it from a cache.
-/
namespace SqlBuilder

/-- Something that exchanges messages with a server, in a state of its own. -/
class Client (κ : Type) where
  exchange : κ → String → Outcome (List RowMessage) × κ

namespace Client

variable [Client κ]

def ask (client : κ) (sql : String) : Outcome Answer × κ :=
  let (messages, client) := exchange client sql
  (messages.map Answer.ofMessages, client)

def versionQuery : String := "SHOW server_version"

def versionOf (a : Answer) : Outcome ServerVersion :=
  match a.rows.head?.bind List.head? with
  | some (some text) => match ServerVersion.parse? text with
    | some v => .ok v
    | none => .error (.shape (.version text))
  | _ => .error (.connection "server did not report server_version")

def askVersion (client : κ) : Outcome ServerVersion × κ :=
  let (answer, client) := ask client versionQuery
  (answer.bind versionOf, client)

end Client

def Link.toServer [Client κ] (dialect : Dialect) : Link κ Answer :=
  ⟨dialect, fun sql client => Client.ask client sql⟩

/-- A store for what is known about servers, with an expiry per entry and the time as an
argument. Reading may drop entries. -/
class MetaCache (σ : Type) where
  get : σ → String → Nat → Option Json × σ
  set : σ → String → Json → Option Nat → Nat → σ
  remove : σ → String → σ

instance : MetaCache (Cache Json) := ⟨Cache.get, Cache.set, Cache.remove⟩

/-- What connecting gives, what it logs, and what it leaves behind. -/
structure Connection (κ σ : Type) where
  dialect : Outcome Dialect
  log : List LogEvent
  server : κ
  cache : σ

namespace Connection

def detect [Client κ] (client : κ) (cache : σ) : Connection κ σ :=
  let (version, client) := Client.askVersion client
  match version with
  | .ok v => ⟨.ok ⟨.postgres, some v⟩, [.detectedVersion v], client, cache⟩
  | .error e => ⟨.error e, [], client, cache⟩

def cachedVersion [MetaCache σ] (cache : σ) (key : String) (now : Nat) :
    Option ServerVersion × σ :=
  match MetaCache.get cache key now with
  | (some (.str text), cache) => (ServerVersion.parse? text, cache)
  | (_, cache) => (none, cache)

/-- Takes the version from the cache, or asks the server and stores what it says. -/
def detectCached [Client κ] [MetaCache σ] (client : κ) (cache : σ) (key : String)
    (ttl : Option Nat) (now : Nat) : Connection κ σ :=
  match cachedVersion cache key now with
  | (some v, cache) => ⟨.ok ⟨.postgres, some v⟩, [], client, cache⟩
  | (none, cache) =>
    let c := detect client cache
    match c.dialect with
    | .ok ⟨_, some v⟩ => { c with cache := MetaCache.set c.cache key (.str v.text) ttl now }
    | _ => c

def refused (client : κ) (cache : σ) (text : String) : Connection κ σ :=
  ⟨.error (.connection text), [], client, cache⟩

end Connection

end SqlBuilder
