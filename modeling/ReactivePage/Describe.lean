import ReactivePage.Page
import ReactivePage.Text.Quoted

namespace ReactivePage.Describe

def fields (name : String) (entries : List (String × String)) : String :=
  name ++ " \x7b " ++ ", ".intercalate (entries.map fun e => e.1 ++ ": " ++ e.2) ++ " \x7d"

def someFields (name : String) (entries : List (String × String)) : String :=
  name ++ " \x7b " ++ ", ".intercalate (entries.map fun e => e.1 ++ ": " ++ e.2) ++ ", .. \x7d"

def nat (n : Nat) : String := String.ofList (Digits.write n)

def bool (b : Bool) : String := if b then "true" else "false"

def texts (names : List String) : String := "[" ++ ", ".intercalate (names.map Text.quote) ++ "]"

def value (h : Heap) : Value → String
  | .scalar j => "Scalar(" ++ j.render ++ ")"
  | .ref c =>
    match h.contents c with
    | .object o => fields "ModelObject" [("id", nat c), ("fields", texts o.keys)]
    | .sequence items => fields "ObservableSeq" [("id", nat c), ("len", nat items.length)]
    | .map m => fields "ObservableMap" [("id", nat c), ("keys", texts m.keys)]

def target (h : Heap) : Target → String
  | .field owner path => fields "Field" [("owner", nat owner), ("path", Text.quote path)]
  | .collection c =>
    match h.kind (.ref c) with
    | .map => "Map(" ++ nat c ++ ")"
    | _ => "Sequence(" ++ nat c ++ ")"

def registry (r : Registry) : String :=
  fields "WatchRegistry" [("watches", nat r.size), ("next_id", nat r.nextId)]

def schedulerSettings (c : SchedulerSettings) : String :=
  fields "SchedulerConfig"
    [("auto_checkpoint", bool c.autoCheckpoint),
      ("listener_thread_prefix", Text.quote c.listenerName)]

def settings (c : Settings) : String :=
  fields "WadeConfig"
    [("scheduler", schedulerSettings c.scheduler),
      ("cache", fields "CacheConfig" [("snapshot_script_type", Text.quote c.cache.scriptType)]),
      ("logging", fields "LoggingConfig"
        [("filter", Text.quote c.logging.filter), ("json", bool c.logging.json)])]

def scheduler {σ : Type} (d : Scheduler σ) : String :=
  fields "Scheduler"
    [("config", schedulerSettings d.settings), ("bindings", nat d.bindings.size),
      ("registry", registry d.registry), ("sequence", nat d.sequence)]

def page {σ : Type} (p : Page σ) : String :=
  fields "App" [("config", settings p.settings), ("scheduler", scheduler p.scheduler)]

def replaying (c : Cache) (reports : Bool) : String :=
  someFields "CachedBackend" [("cached", nat c.total), ("has_hook", bool reports)]

def recording (s : Snapshot) : String :=
  someFields "RecordingBackend" [("identities", nat s.size)]

end ReactivePage.Describe
