import QueryRouting.Settings.Schema

/-!
The log filter of a service.
-/

namespace QueryRouting.ObservabilityConfig

/-- A level stands for both targets; text with an `=` is a filter already. -/
def logFilter (c : ObservabilityConfig) : String :=
  if c.logLevel.toList.contains '=' then c.logLevel
  else "krauter=" ++ c.logLevel ++ ",tower_http=" ++ c.logLevel

end QueryRouting.ObservabilityConfig
