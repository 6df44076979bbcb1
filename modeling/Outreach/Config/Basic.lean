import Outreach.Engine.Dispatch

/-! What an installation can be configured to do. Everything has a default. -/
namespace Outreach
open Decode

structure ServerConfig where
  host : String
  portNumber : Nat
  deriving DecidableEq, Repr

structure EngineConfig where
  maxForwardDepth : Nat
  outboundTimeoutSecs : Nat
  businessHoursTimezone : String
  deriving DecidableEq, Repr

structure FlowTexts where
  cta : String
  header : String
  body : String
  footer : String
  deriving DecidableEq, Repr

structure ProviderConfig where
  graphApiBase : String
  verifyToken : Option String
  /-- The key of its signatures; without one, deliveries are not checked. -/
  appSecret : Option String
  flowTexts : FlowTexts
  deriving DecidableEq, Repr

structure SweeperConfig where
  enabled : Bool
  schedule : String
  deriving DecidableEq, Repr

structure Config where
  databaseUrl : Option String
  /-- Without a secret nobody may start sweeps from outside. -/
  cronSecret : Option String
  server : ServerConfig
  engine : EngineConfig
  provider : ProviderConfig
  sweeper : SweeperConfig
  deriving DecidableEq, Repr

def ServerConfig.standard : ServerConfig := ⟨"127.0.0.1", 8080⟩

def EngineConfig.standard : EngineConfig := ⟨5, 20, "UTC"⟩

def FlowTexts.standard : FlowTexts :=
  ⟨"Abrir Flow", "Título do Flow", "Clique para iniciar a experiência interativa.",
    "Desenvolvido por nossa plataforma"⟩

def ProviderConfig.standard : ProviderConfig :=
  ⟨"https://graph.facebook.com/v19.0", none, none, .standard⟩

def SweeperConfig.standard : SweeperConfig := ⟨true, "every minute"⟩

def Config.standard : Config := ⟨none, none, .standard, .standard, .standard, .standard⟩

def ServerConfig.decode : Decoder ServerConfig :=
  let d := ServerConfig.standard
  (ServerConfig.mk <$> Fields.withDefault "host" d.host string <*>
    Fields.withDefault "port" d.portNumber (nat (Nat.pow 2 16))).object

def EngineConfig.decode : Decoder EngineConfig :=
  let d := EngineConfig.standard
  (EngineConfig.mk <$> Fields.withDefault "max_forward_depth" d.maxForwardDepth (nat (Nat.pow 2 32)) <*>
    Fields.withDefault "outbound_timeout_secs" d.outboundTimeoutSecs (nat (Nat.pow 2 64)) <*>
    Fields.withDefault "business_hours_timezone" d.businessHoursTimezone string).object

def FlowTexts.fields : Fields FlowTexts :=
  let d := FlowTexts.standard
  FlowTexts.mk <$> .withDefault "flow_cta" d.cta string <*> .withDefault "flow_header" d.header string <*>
    .withDefault "flow_body" d.body string <*> .withDefault "flow_footer" d.footer string

def ProviderConfig.decode : Decoder ProviderConfig :=
  let d := ProviderConfig.standard
  (ProviderConfig.mk <$> Fields.withDefault "graph_api_base" d.graphApiBase string <*>
    Fields.withDefault "verify_token" none (option string) <*>
    Fields.withDefault "app_secret" none (option string) <*> FlowTexts.fields).object

def SweeperConfig.decode : Decoder SweeperConfig :=
  let d := SweeperConfig.standard
  (SweeperConfig.mk <$> Fields.withDefault "enabled" d.enabled bool <*>
    Fields.withDefault "schedule" d.schedule string).object

namespace Config

def decode : Decoder Config :=
  let d := Config.standard
  (Config.mk <$> Fields.withDefault "database_url" none (option string) <*>
    Fields.withDefault "cron_secret" none (option string) <*>
    Fields.withDefault "server" d.server ServerConfig.decode <*>
    Fields.withDefault "engine" d.engine EngineConfig.decode <*>
    Fields.withDefault "meta" d.provider ProviderConfig.decode <*>
    Fields.withDefault "sweeper" d.sweeper SweeperConfig.decode).object

def overrides : List (String × (String → Config → Config)) :=
  [("ZAPFLOW_DATABASE_URL", fun v c => { c with databaseUrl := some v }),
    ("CRON_SECRET", fun v c => { c with cronSecret := some v }),
    ("META_VERIFY_TOKEN", fun v c => { c with provider := { c.provider with verifyToken := some v } }),
    ("META_APP_SECRET", fun v c => { c with provider := { c.provider with appSecret := some v } }),
    ("ZAPFLOW_TIMEZONE", fun v c => { c with engine := { c.engine with businessHoursTimezone := v } })]

/-- Values of the environment go before those of the file; an empty one counts as none. -/
def withEnvironment (lookup : String → Option String) (c : Config) : Config :=
  overrides.foldl (fun c v => match lookup v.1 with
    | some "" | none => c
    | some s => v.2 s c) c

def encode (c : Config) : Json :=
  .obj [("databaseUrl", .optStr c.databaseUrl), ("cronSecret", .optStr c.cronSecret),
    ("server", .obj [("host", .str c.server.host), ("port", .nat c.server.portNumber)]),
    ("engine", .obj [("maxForwardDepth", .nat c.engine.maxForwardDepth),
      ("outboundTimeoutSecs", .nat c.engine.outboundTimeoutSecs),
      ("businessHoursTimezone", .str c.engine.businessHoursTimezone)]),
    ("meta", .obj [("graphApiBase", .str c.provider.graphApiBase),
      ("verifyToken", .optStr c.provider.verifyToken), ("appSecret", .optStr c.provider.appSecret),
      ("flowCta", .str c.provider.flowTexts.cta), ("flowHeader", .str c.provider.flowTexts.header),
      ("flowBody", .str c.provider.flowTexts.body), ("flowFooter", .str c.provider.flowTexts.footer)]),
    ("sweeper", .obj [("enabled", .bool c.sweeper.enabled), ("schedule", .str c.sweeper.schedule)])]

end Config

/-- The engine as configured; business hours of an unknown zone are kept in universal time. -/
def EngineConfig.settings (c : EngineConfig) : EngineSettings :=
  ⟨c.maxForwardDepth, 1000 * c.outboundTimeoutSecs, (Zone.named? c.businessHoursTimezone).getD .utc⟩

end Outreach
