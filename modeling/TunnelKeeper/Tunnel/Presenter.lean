import TunnelKeeper.Tunnel.Status

/-!
# Presenters — the status line a person sees

`LogPresenter` writes status lines to the log.  It takes the name of the server from the first
status it is asked to show and keeps it until the indicator is cleared.
-/

namespace TunnelKeeper

/-- What a presenter is asked to do. -/
inductive Presentation where
  | display (serverName : String) (status : Status)
  | clear
deriving DecidableEq, Repr

/-- How important a line of the log is. -/
inductive LogLevel where
  | info
  | debug
deriving DecidableEq, Repr

def LogLevel.name : LogLevel → String
  | info => "INFO"
  | debug => "DEBUG"

/-- A presenter that only writes lines. -/
structure LogPresenter where
  /-- The name shown since the indicator was last cleared. -/
  current : Option String := none
deriving DecidableEq, Repr

namespace LogPresenter

/-- Carries out a request; gives the lines written. -/
def present (p : LogPresenter) : Presentation → LogPresenter × List (LogLevel × String)
  | .display serverName status =>
    let name := p.current.getD serverName
    (⟨some name⟩, [(.info, "[" ++ name ++ "] " ++ status.title)])
  | .clear =>
    match p.current with
    | some _ => (⟨none⟩, [(.debug, "Status indicator cleared")])
    | none => (p, [])

end LogPresenter

end TunnelKeeper
