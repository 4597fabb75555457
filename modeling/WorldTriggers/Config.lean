import WorldTriggers.Text.Blank
import WorldTriggers.Yaml.Decode
import WorldTriggers.Yaml.Reader

namespace WorldTriggers

structure Config where
  triggersDirectory : String := "content/triggers"
  worldFile : String := "content/world.yaml"
  commandCapacity : Nat := 1024
  outboundCapacity : Nat := 1024
  maxCascadeDepth : Nat := 16
  databaseUrl : String := "sqlite://tripwire.db"
  autosaveSeconds : Nat := 60
  connectTimeoutSeconds : Nat := 5
  logLevel : String := "info"
  logAsJson : Bool := false
  deriving DecidableEq, Repr

inductive ConfigError where
  | unreadable
  | malformed
  | zero (setting : String)
  deriving DecidableEq, Repr

def ConfigError.message : ConfigError → String
  | unreadable => "failed to read config file"
  | malformed => "failed to parse config"
  | zero setting => "invalid config value for `" ++ setting ++ "`: must be at least 1"

namespace Config

open Yaml Node

def withDatabase (c : Config) (url : Option String) : Config :=
  match url with
  | some url => { c with databaseUrl := url }
  | none => c

def check (c : Config) : Except ConfigError Unit :=
  if c.commandCapacity = 0 then .error (.zero "runtime.command_queue_capacity")
  else if c.outboundCapacity = 0 then .error (.zero "runtime.outbound_capacity")
  else .ok ()

def content? (c : Config) (n : Node) : Option Config := do
  let f ← record? ["triggers_dir", "world_file"] n
  let triggersDirectory ← defaulted? f "triggers_dir" text? c.triggersDirectory
  let worldFile ← defaulted? f "world_file" text? c.worldFile
  pure { c with triggersDirectory, worldFile }

def runtime? (c : Config) (n : Node) : Option Config := do
  let f ← record? ["command_queue_capacity", "outbound_capacity", "max_cascade_depth"] n
  let commandCapacity ← defaulted? f "command_queue_capacity" (nat? (Width.maxNat 64)) c.commandCapacity
  let outboundCapacity ← defaulted? f "outbound_capacity" (nat? (Width.maxNat 64)) c.outboundCapacity
  let maxCascadeDepth ← defaulted? f "max_cascade_depth" (nat? (Width.maxNat 32)) c.maxCascadeDepth
  pure { c with commandCapacity, outboundCapacity, maxCascadeDepth }

def persistence? (c : Config) (n : Node) : Option Config := do
  let f ← record? ["database_url", "autosave_interval_secs", "connect_timeout_secs"] n
  let databaseUrl ← defaulted? f "database_url" text? c.databaseUrl
  let autosaveSeconds ← defaulted? f "autosave_interval_secs" (nat? (Width.maxNat 64)) c.autosaveSeconds
  let connectTimeoutSeconds ←
    defaulted? f "connect_timeout_secs" (nat? (Width.maxNat 64)) c.connectTimeoutSeconds
  pure { c with databaseUrl, autosaveSeconds, connectTimeoutSeconds }

def logging? (c : Config) (n : Node) : Option Config := do
  let f ← record? ["level", "json"] n
  let logLevel ← defaulted? f "level" text? c.logLevel
  let logAsJson ← defaulted? f "json" bool? c.logAsJson
  pure { c with logLevel, logAsJson }

def part? (fields : List (String × Node)) (name : String)
    (read : Config → Node → Option Config) (c : Config) : Option Config :=
  match fields.lookup name with
  | some n => read c n
  | none => some c

def ofNode? (n : Node) : Option Config := do
  let f ← record? ["content", "runtime", "persistence", "logging"] n
  let c ← part? f "content" content? {}
  let c ← part? f "runtime" runtime? c
  let c ← part? f "persistence" persistence? c
  part? f "logging" logging? c

def document? (s : String) : Option Node :=
  if Text.isBlankText s then some .blank else Node.ofText? s

def ofDocument (document : Option Node) (url : Option String) : Except ConfigError Config :=
  match document.bind ofNode? with
  | none => .error .malformed
  | some c =>
    let c := c.withDatabase url
    c.check.map fun _ => c

def ofFile (file : Option (Option Node)) (url : Option String) : Except ConfigError Config :=
  match file with
  | some document => ofDocument document url
  | none => .error .unreadable

def ofFileOrDefault (file : Option (Option Node)) (url : Option String) :
    Except ConfigError Config :=
  match file with
  | some document => ofDocument document url
  | none => .ok (withDatabase {} url)

end Config

end WorldTriggers
