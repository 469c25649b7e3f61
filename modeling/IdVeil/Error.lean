import IdVeil.Text.Quoted

/-!
What can go wrong, as causes. `ConfigError` is found when something is built, `Error` when ids
are masked or recovered; each has one wording.
-/
namespace IdVeil

inductive AlphabetFault where
  | size
  | notAscii
  | conflict (symbol : Char)
deriving DecidableEq, Repr

def AlphabetFault.message : AlphabetFault → String
  | .size => "invalid number of symbols"
  | .notAscii => "non-ascii character"
  | .conflict symbol => s!"{Text.quotedChar symbol} has conflicting definitions"

inductive ConfigError where
  | keyIdOutOfRange (id : Nat)
  | engineIdOutOfRange (id : Nat)
  | invalidKeyLength (length : Nat)
  | zeroKey
  | lowEntropyKey
  | duplicateKeyId (id : Nat)
  | invalidObfuscationKey (length : Nat)
  | invalidCacheSize
  | invalidAlphabet (fault : AlphabetFault)
  | invalidSeparator (separator : String)
  | invalidGroupLength (length : Nat)
  | lengthMismatch (engine layout : Nat)
  | missingGlobalConfig
deriving DecidableEq, Repr

def ConfigError.message : ConfigError → String
  | .keyIdOutOfRange id => s!"key id {id} does not fit in 4 bits"
  | .engineIdOutOfRange id => s!"engine id {id} does not fit in 4 bits"
  | .invalidKeyLength length => s!"key length {length} is outside 8..=64 bytes"
  | .zeroKey => "key must not be all zeros"
  | .lowEntropyKey => "key entropy is too low"
  | .duplicateKeyId id => s!"key id {id} is used more than once"
  | .invalidObfuscationKey length => s!"obfuscation key must be exactly 8 bytes, got {length}"
  | .invalidCacheSize => "cache size must be positive"
  | .invalidAlphabet fault => s!"invalid alphabet: {fault.message}"
  | .invalidSeparator separator => s!"invalid separator {Text.quoted separator}"
  | .invalidGroupLength length => s!"group length must be at least 2, got {length}"
  | .lengthMismatch engine layout =>
    s!"engine takes {engine} byte values, converter produces {layout}"
  | .missingGlobalConfig => "global configuration is not set"

/-- Why an envelope of the right length is rejected. -/
inductive Rejection where
  | mismatch
  | unknownEngine
  | unknownKey
deriving DecidableEq, Repr

def Rejection.code : Rejection → String
  | .mismatch => "AUTH_MISMATCH"
  | .unknownEngine => "UNKNOWN_ENGINE"
  | .unknownKey => "UNKNOWN_KEY"

/-- Why bytes are no id, or an id has no bytes. -/
inductive IdFault where
  | notInt32
  | bigIntegerTooLong
  | bigIntegerLength
deriving DecidableEq, Repr

def IdFault.message : IdFault → String
  | .notInt32 => "value does not fit in 32 bits"
  | .bigIntegerTooLong => "big integer does not fit in 15 bytes"
  | .bigIntegerLength => "invalid big integer length"

inductive Error where
  | inputLength (expected actual : Nat)
  | decodingFailed
  | authentication (reason : Rejection)
  | invalidId (fault : IdFault)
  | invalidLabel (received expected : String)
  | noActiveKey
  | config (cause : ConfigError)
deriving DecidableEq, Repr

def Error.message : Error → String
  | .inputLength expected actual => s!"invalid input length: expected {expected}, got {actual}"
  | .decodingFailed => "decoding string failed"
  | .authentication reason => s!"authentication failed: {reason.code}"
  | .invalidId fault => s!"invalid id: {fault.message}"
  | .invalidLabel received expected => s!"prefix was {received}, expected {expected}"
  | .noActiveKey => "no active key available"
  | .config cause => cause.message

end IdVeil
