/-!
# Check errors — how talking to the network fails

An error is either an answer that breaks the protocol, with its cause, or trouble on the way.
-/

namespace TunnelKeeper.Check

/-- How an answer breaks the protocol. -/
inductive Violation where
  | methodRejected
  | badVersion
  | requestRefused
  | addressType
  | shortDatagram
  | badQueryName
  /-- A query whose name is too long to be written. -/
  | longQueryName
  | malformedAnswer
  | unexpectedAnswer
  | longProbeHost
deriving DecidableEq, Repr

/-- The words for a violation, where it has any. -/
def Violation.message? : Violation → Option String
  | methodRejected => some "SOCKS5 method rejected"
  | badVersion => some "invalid SOCKS version"
  | requestRefused => some "SOCKS5 request refused"
  | addressType => some "invalid address type"
  | shortDatagram => some "short UDP datagram"
  | badQueryName => some "bad query name"
  | longQueryName => none
  | malformedAnswer => some "malformed DNS answer"
  | unexpectedAnswer => some "unexpected DNS answer"
  | longProbeHost => some "probe host too long"

/-- Why talking to the network failed. -/
inductive Error where
  | invalid (violation : Violation)
  /-- The stream ended too early. -/
  | endOfStream
  /-- No answer came in time. -/
  | timedOut
  /-- Anything else that the network reports. -/
  | other
deriving DecidableEq, Repr

end TunnelKeeper.Check
