/-
Everything that can go wrong outside the engine's own answers, by cause, and the
text of each.
-/
import ControlPlane.Wire.Command
import ControlPlane.Net.Mac
import ControlPlane.Text.Duration

namespace ControlPlane

/-- What the host refused. -/
inductive HostFault where
  | notFound
  | permissionDenied
  | notDirectory
  | isDirectory
  | nameTooLong
  | addressUnavailable
  /-- The octets of a file are not UTF-8. -/
  | notText
  /-- The server that was asked has ended. -/
  | serverStopped
  | other (text : String)
  deriving DecidableEq, Repr

/-- Octets or text that spell nothing. -/
inductive ParseFault where
  | payloadTooLong (length : Nat)
  | headerTooShort
  | unknownKind (n : UInt8)
  | lengthTooLong (length : Nat)
  | truncated (declared got : Nat)
  | replyWithoutStatus
  | unknownStatus (n : UInt16)
  | registrationSize (length : Nat)
  | unknownFamily (n : UInt8)
  | unknownCommand (code : UInt16)
  | noDirection
  | unknownSeverity (n : UInt8)
  | mac (defect : Mac.Defect) (text : String)
  | other (text : String)
  deriving DecidableEq, Repr

/-- A configuration that cannot be used. -/
inductive ConfigFault where
  | malformedDocument
  | unwritableDocument
  /-- A setting is missing, or has a value of the wrong kind or out of range. -/
  | invalidSetting (key : String)
  /-- A number too large for the document format. -/
  | unrepresentable (key : String)
  | duplicateInterface (name : String)
  | duplicateInterfaceId (id : UInt32)
  | other (text : String)
  deriving DecidableEq, Repr

inductive Error where
  | host (fault : HostFault)
  /-- No answer within a time, in nanoseconds. -/
  | timeout (nanos : Nat)
  | config (fault : ConfigFault)
  | parse (fault : ParseFault)
  | malformedRecord (code : UInt16) (expected actual : Nat)
  | status (code : UInt16) (status : Status)
  | notRegistered
  deriving DecidableEq, Repr

/-- Octets that a message's payload may have. -/
def maxPayload : Nat := 256

/-- A code as it stands in texts. -/
def codeText (code : UInt16) : String := "0x" ++ Hex.lower 4 code.toNat

def HostFault.message : HostFault → String
  | notFound => "No such file or directory (os error 2)"
  | permissionDenied => "Permission denied (os error 13)"
  | notDirectory => "Not a directory (os error 20)"
  | isDirectory => "Is a directory (os error 21)"
  | nameTooLong => "File name too long (os error 36)"
  | addressUnavailable => "Cannot assign requested address (os error 99)"
  | notText => "stream did not contain valid UTF-8"
  | serverStopped => "engine server stopped"
  | other text => text

def ParseFault.message : ParseFault → String
  | payloadTooLong n => "payload of " ++ toString n ++ " bytes exceeds capacity " ++ toString maxPayload
  | headerTooShort => "message shorter than envelope header"
  | unknownKind n => "unknown message kind " ++ toString n.toNat
  | lengthTooLong n => "declared length " ++ toString n ++ " exceeds capacity " ++ toString maxPayload
  | truncated declared got =>
    "truncated message: declared " ++ toString declared ++ " payload bytes, got " ++ toString got
  | replyWithoutStatus => "reply without status"
  | unknownStatus n => "unknown status " ++ codeText n
  | registrationSize n => "client registration must be 20 bytes, got " ++ toString n
  | unknownFamily n => "unknown address family " ++ toString n.toNat
  | unknownCommand code => "unknown command " ++ codeText code
  | noDirection => "orig-disabled and reply-disabled are mutually exclusive"
  | unknownSeverity n => "unknown severity " ++ toString n.toNat
  | mac .shape text => "invalid MAC address: " ++ text
  | mac .digit text => "invalid hex digit in MAC address: " ++ text
  | other text => text

def ConfigFault.message : ConfigFault → String
  | malformedDocument => "malformed document"
  | unwritableDocument => "unwritable document"
  | invalidSetting key => "invalid setting " ++ key
  | unrepresentable key => "number too large for " ++ key
  | duplicateInterface name => "interface " ++ name ++ " defined more than once"
  | duplicateInterfaceId id => "interface id " ++ toString id.toNat ++ " already in use"
  | other text => text

namespace Error

def message : Error → String
  | host fault => "I/O error: " ++ fault.message
  | timeout nanos => "command timed out after " ++ Duration.render nanos
  | config fault => "config error: " ++ fault.message
  | parse fault => "parse error: " ++ fault.message
  | malformedRecord code expected actual =>
    "malformed record for command " ++ codeText code ++ ": expected " ++ toString expected ++
      " bytes, got " ++ toString actual
  | status code s => "command " ++ codeText code ++ " failed: " ++ s.message
  | notRegistered => "no event callback registered"

/-- Failures of the host rather than of the protocol. -/
def isTransport : Error → Bool
  | host _ | timeout _ => true
  | config _ | parse _ | malformedRecord .. | status .. | notRegistered => false

end Error

/-- The hardware address that a text spells, or the error that tells why it
spells none. -/
def Mac.parse (text : String) : Except Error Mac :=
  match Mac.ofText text with
  | .ok m => .ok m
  | .error defect => .error (.parse (.mac defect text))

end ControlPlane
