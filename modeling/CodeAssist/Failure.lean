import CodeAssist.Capability
import CodeAssist.Duration
import CodeAssist.Path

namespace CodeAssist

/-! Everything that can go wrong, by cause. Each cause has one wording, and the engine sorts all
causes into the kinds that a client sees. -/

inductive EnvironmentFailure where
  | notFound (path : Path)
  | notExecutable (path : Path)
  | noCandidate (searched : String)
  | probeFailed (path : Path) (reason : String)
  | sessionReplaced
  | noSession (reason : String)
deriving DecidableEq, Repr

def EnvironmentFailure.message : EnvironmentFailure → String
  | .notFound path => "interpreter not found: " ++ path.text
  | .notExecutable path => "interpreter is not executable: " ++ path.text
  | .noCandidate searched =>
      "no usable python interpreter found (searched: " ++ searched ++ ")"
  | .probeFailed path reason => "failed to probe interpreter " ++ path.text ++ ": " ++ reason
  | .sessionReplaced => "session was replaced by an environment change"
  | .noSession reason => "no active environment: " ++ reason

inductive ToolFailure where
  | notStarted (capability : Capability) (reason : String)
  | exited (capability : Capability) (status stderr : String)
  | malformedOutput (capability : Capability) (reason : String)
  | timedOut (capability : Capability) (budget : Duration)
  | cannotFormat (reason : String)
  | cancelled (capability : Capability)
deriving DecidableEq, Repr

def ToolFailure.message : ToolFailure → String
  | .notStarted c reason => c.name ++ ": failed to start tool: " ++ reason
  | .exited c status stderr => c.name ++ ": tool exited with " ++ status ++ ": " ++ stderr
  | .malformedOutput c reason => c.name ++ ": malformed tool output: " ++ reason
  | .timedOut c budget => c.name ++ ": tool timed out after " ++ budget.display
  | .cannotFormat reason => "cannot format buffer: " ++ reason
  | .cancelled c => c.name ++ ": invocation cancelled"

inductive TransportFailure where
  | invalidHeader (reason : String)
  | frameTooLarge (size : Nat)
  | invalidUtf8
  | undecodable (reason : String)
  | connectionClosed
  | system (reason : String)
deriving DecidableEq, Repr

def TransportFailure.message : TransportFailure → String
  | .invalidHeader reason => "invalid frame header: " ++ reason
  | .frameTooLarge size =>
      "frame of " ++ String.ofList (Text.decimal size) ++ " bytes exceeds limit"
  | .invalidUtf8 => "frame body is not valid UTF-8"
  | .undecodable reason => "undecodable message: " ++ reason
  | .connectionClosed => "connection closed"
  | .system reason => "IO error: " ++ reason

inductive FailureKind where
  | environment
  | capabilityUnavailable
  | tool
  | toolTimeout
  | format
  | unsupportedMethod
  | invalidParams
  | transport
  | cancelled
  | shuttingDown
deriving DecidableEq, Repr, Inhabited

namespace FailureKind

def all : List FailureKind :=
  [environment, capabilityUnavailable, tool, toolTimeout, format, unsupportedMethod,
    invalidParams, transport, cancelled, shuttingDown]

def name : FailureKind → String
  | environment => "EnvironmentError"
  | capabilityUnavailable => "CapabilityUnavailable"
  | tool => "ToolError"
  | toolTimeout => "ToolTimeout"
  | format => "FormatError"
  | unsupportedMethod => "UnsupportedMethod"
  | invalidParams => "InvalidParams"
  | transport => "TransportError"
  | cancelled => "Cancelled"
  | shuttingDown => "ShuttingDown"

def names : List String := all.map name

def ofChoice (choice : Fin names.length) : FailureKind :=
  all.get (choice.cast (by simp [names]))

end FailureKind

inductive Failure where
  | environment (cause : EnvironmentFailure)
  | capabilityUnavailable (capability : Capability)
  | tool (cause : ToolFailure)
  | unsupportedMethod (method : String)
  | invalidParams (reason : String)
  | transport (cause : TransportFailure)
  | superseded (path : Path)
  | shuttingDown
  | system (reason : String)
deriving DecidableEq, Repr

namespace Failure

def message : Failure → String
  | .environment cause => "environment error: " ++ cause.message
  | .capabilityUnavailable c => "capability unavailable: " ++ c.name
  | .tool cause => cause.message
  | .unsupportedMethod method => "unsupported method: " ++ method
  | .invalidParams reason => "invalid params: " ++ reason
  | .transport cause => "transport error: " ++ cause.message
  | .superseded path => "request superseded by a newer request for " ++ path.text
  | .shuttingDown => "engine is shutting down"
  | .system reason => "IO error: " ++ reason

def kind : Failure → FailureKind
  | .environment _ => .environment
  | .capabilityUnavailable _ => .capabilityUnavailable
  | .tool (.timedOut _ _) => .toolTimeout
  | .tool (.cannotFormat _) => .format
  | .tool (.cancelled _) => .cancelled
  | .tool _ => .tool
  | .unsupportedMethod _ => .unsupportedMethod
  | .invalidParams _ => .invalidParams
  | .transport _ => .transport
  | .superseded _ => .cancelled
  | .shuttingDown => .shuttingDown
  | .system _ => .tool

end Failure

end CodeAssist
