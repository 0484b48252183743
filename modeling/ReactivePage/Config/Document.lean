import ReactivePage.Config.Settings
import ReactivePage.Config.Toml.Reader

namespace ReactivePage

namespace Toml

def settings? (names : List String) : Toml → Option (List (Option Toml))
  | table _ entries => some (names.map fun name => findEntry name entries)
  | list items =>
    some ((items.map some ++ List.replicate names.length none).take names.length)
  | tables elements =>
    some ((elements.map (fun e => some (table .header e)) ++ List.replicate names.length none).take
      names.length)
  | date => some (names.map fun _ => none)
  | _ => none

def textOr? (default : String) : Option Toml → Option String
  | none => some default
  | some (text s) => some s
  | some _ => none

def flagOr? (default : Bool) : Option Toml → Option Bool
  | none => some default
  | some (flag b) => some b
  | some _ => none

end Toml

namespace Settings

def section? {α : Type} (default : α) (names : List String)
    (read : List (Option Toml) → Option α) : Option Toml → Option α
  | none => some default
  | some t => (t.settings? names).bind read

def scheduler? : List (Option Toml) → Option SchedulerSettings
  | [auto, name] => do
    return ⟨← Toml.flagOr? default.scheduler.autoCheckpoint auto,
      ← Toml.textOr? default.scheduler.listenerName name⟩
  | _ => none

def cache? : List (Option Toml) → Option CacheSettings
  | [scriptType] => do return ⟨← Toml.textOr? default.cache.scriptType scriptType⟩
  | _ => none

def logging? : List (Option Toml) → Option LoggingSettings
  | [filter, json] => do
    return ⟨← Toml.textOr? default.logging.filter filter, ← Toml.flagOr? default.logging.json json⟩
  | _ => none

def parse? (text : String) : Option Settings := do
  let entries ← Toml.read? text
  return {
    scheduler := ← section? default.scheduler ["auto_checkpoint", "listener_thread_prefix"]
      scheduler? (findEntry "scheduler" entries)
    cache := ← section? default.cache ["snapshot_script_type"] cache? (findEntry "cache" entries)
    logging := ← section? default.logging ["filter", "json"] logging?
      (findEntry "logging" entries) }

end Settings

end ReactivePage
