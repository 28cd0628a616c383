import AppFleet.Config.Basic

/-! The command line of the control plane. -/

namespace AppFleet

/-- Settings that the command line replaces. -/
structure Overrides where
  dataDir : Option Path
  nodeId : Option String
  busAddr : Option String
  noAutoscale : Bool
deriving DecidableEq, Repr

def Overrides.none : Overrides := ⟨.none, .none, .none, false⟩

def Overrides.apply (o : Overrides) (c : Config) : Config :=
  { c with
    daemon := { c.daemon with
      dataDir := o.dataDir.getD c.daemon.dataDir
      nodeId := o.nodeId.getD c.daemon.nodeId
      busAddr := o.busAddr.getD c.daemon.busAddr }
    autoscale := { c.autoscale with enabled := c.autoscale.enabled && !o.noAutoscale } }

/-- What is asked for. `path` is the file with the settings. -/
inductive Invocation where
  /-- Run the control plane. -/
  | run (path : Option String) (overrides : Overrides)
  /-- Print the settings in effect. -/
  | config (path : Option String)
deriving DecidableEq, Repr

inductive UsageError where
  | noCommand
  | unexpected (argument : String)
  | noValue (flag : String)
deriving DecidableEq, Repr

def UsageError.message : UsageError → String
  | noCommand => "a command is needed: run or config"
  | unexpected argument => s!"unexpected argument '{argument}' found"
  | noValue flag => s!"a value is required for '{flag}' but none was supplied"

namespace Invocation

def parseConfig (path : Option String) : List String → Except UsageError Invocation
  | [] => .ok (.config path)
  | ["--config"] => .error (.noValue "--config")
  | "--config" :: value :: rest => parseConfig (some value) rest
  | "--json-logs" :: rest => parseConfig path rest
  | argument :: _ => .error (.unexpected argument)

def parseRun (path : Option String) (o : Overrides) : List String → Except UsageError Invocation
  | [] => .ok (.run path o)
  | "--json-logs" :: rest => parseRun path o rest
  | "--no-autoscale" :: rest => parseRun path { o with noAutoscale := true } rest
  | "--config" :: value :: rest => parseRun (some value) o rest
  | "--data-dir" :: value :: rest => parseRun path { o with dataDir := some (.ofText value) } rest
  | "--node-id" :: value :: rest => parseRun path { o with nodeId := some value } rest
  | "--bus-addr" :: value :: rest => parseRun path { o with busAddr := some value } rest
  | argument :: _ =>
    .error (if argument ∈ ["--config", "--data-dir", "--node-id", "--bus-addr"] then .noValue argument
      else .unexpected argument)

/-- Logs are not written, so how they would look is of no account. -/
def parseWords : List String → Except UsageError Invocation
  | [] => .error .noCommand
  | "--json-logs" :: rest => parseWords rest
  | "run" :: rest => parseRun none .none rest
  | "config" :: rest => parseConfig none rest
  | argument :: _ => .error (.unexpected argument)

/-- A flag may have its value after an equals sign. -/
def words (argument : String) : List String :=
  match argument.toList.span (· ≠ '=') with
  | ('-' :: '-' :: flag, '=' :: value) => [String.ofList ('-' :: '-' :: flag), String.ofList value]
  | _ => [argument]

def parse (arguments : List String) : Except UsageError Invocation :=
  parseWords (arguments.flatMap words)

end Invocation

end AppFleet
