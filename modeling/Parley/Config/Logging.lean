import Parley.Config.Basic

/-! How the client writes its log, by stage. -/
namespace Parley

inductive LogLevel where
  | info
  | debug
deriving DecidableEq

def LogLevel.name : LogLevel → String
  | info => "INFO"
  | debug => "DEBUG"

structure LogStyle where
  level : LogLevel
  json : Bool
  spanEvents : Bool
  fileLine : Bool
  threadNames : Bool
  threadIds : Bool
deriving DecidableEq

namespace LogStyle

def development : LogStyle := ⟨.debug, false, true, true, true, false⟩
def production : LogStyle := ⟨.info, true, false, false, false, false⟩

def forStage : Stage → LogStyle
  | .production => production
  | _ => development

end LogStyle

end Parley
