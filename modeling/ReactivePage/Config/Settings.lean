namespace ReactivePage

structure SchedulerSettings where
  autoCheckpoint : Bool
  listenerName : String
  deriving DecidableEq

structure CacheSettings where
  scriptType : String
  deriving DecidableEq

structure LoggingSettings where
  filter : String
  json : Bool
  deriving DecidableEq

structure Settings where
  scheduler : SchedulerSettings
  cache : CacheSettings
  logging : LoggingSettings
  deriving DecidableEq

namespace Settings

def default : Settings where
  scheduler := ⟨true, "wade-listener"⟩
  cache := ⟨"text/wadehttp"⟩
  logging := ⟨"info", false⟩

end Settings

def SchedulerSettings.threadName (c : SchedulerSettings) (name : String) : String :=
  c.listenerName ++ "-" ++ name

end ReactivePage
