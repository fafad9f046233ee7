import ResumableUpload.Json.Form
import ResumableUpload.Settings.Basic

/-!
# Settings in JSON

Every setting may be absent, and then has its standard value.
-/

namespace ResumableUpload.Settings

/-- The form of settings in JSON. -/
def jsonForm : Json.Form :=
  ⟨"UploaderConfig",
    [⟨"server_host", .text, false⟩, ⟨"secure", .flag, false⟩, ⟨"endpoint_path", .text, false⟩,
      ⟨"retry_delay_ms", .int .u64, false⟩, ⟨"keepalive_secs", .int .u64, false⟩,
      ⟨"idle_timeout_secs", .intOrNull .u64, false⟩]⟩

/-- Settings with some fields replaced by those that a record was written with. -/
def withField (s : Settings) : String × Json.Value → Settings
  | ("server_host", .text host) => { s with serverHost := host }
  | ("secure", .flag b) => { s with secure := b }
  | ("endpoint_path", .text path) => { s with endpointPath := path }
  | ("retry_delay_ms", .int n) => { s with retryDelayMs := .ofNat n.toNat }
  | ("keepalive_secs", .int n) => { s with keepaliveSecs := .ofNat n.toNat }
  | ("idle_timeout_secs", .int n) => { s with idleTimeoutSecs := some (.ofNat n.toNat) }
  | _ => s

/-- Reads settings from a JSON text. -/
def ofJson (text : String) : Except Json.Fault Settings :=
  (jsonForm.parse text).map (·.foldl withField standard)

end ResumableUpload.Settings
