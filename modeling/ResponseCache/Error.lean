import ResponseCache.Identity
import ResponseCache.Time

namespace ResponseCache

/-- Why a file gives no text. -/
inductive FileError
  | missing
  | denied
  /-- It is no file but a directory. -/
  | isDirectory
  /-- The path goes on behind something that is no directory. -/
  | notDirectory
  /-- The path, or a name in it, has too many bytes. -/
  | nameTooLong
  /-- Its bytes are not well-formed. -/
  | notText
  | other (reason : String)
  deriving DecidableEq, Repr

def FileError.message : FileError → String
  | missing => "No such file or directory (os error 2)"
  | denied => "Permission denied (os error 13)"
  | isDirectory => "Is a directory (os error 21)"
  | notDirectory => "Not a directory (os error 20)"
  | nameTooLong => "File name too long (os error 36)"
  | notText => "stream did not contain valid UTF-8"
  | other reason => reason

inductive Error
  /-- The stream takes no more bytes. -/
  | streamSealed
  /-- The stream is still being written. -/
  | streamNotReady
  /-- The writer of the stream left without sealing it. -/
  | streamAborted
  | streamTooLarge (size limit : Nat)
  /-- The origin said that a copy is good although there is none. -/
  | inconsistentRevalidation (key reason : String)
  /-- The decision needs an entry and there is none. -/
  | keyNotFound (key : String)
  /-- The entry is not of the generation that the caller saw. -/
  | staleEntry (key : String) (expected current : Identity)
  /-- The mint gave out an identity that is not new. -/
  | identityCollision (key : String) (previous minted : Identity)
  | flushFailed (failures : Nat) (first : String)
  | flushTimeout (patience : Span)
  | persistence (reason : String)
  | origin (reason : String)
  | scenario (reason : String)
  | config (reason : String)
  | io (cause : FileError)
  | yaml
  | json
  | internal (reason : String)
  deriving DecidableEq, Repr

def Error.message : Error → String
  | streamSealed => "Stream is sealed: no further writes are accepted"
  | streamNotReady => "Stream is not ready: content has not been sealed yet"
  | streamAborted => "Stream was aborted before it was sealed"
  | streamTooLarge size limit =>
    "Stream too large: " ++ toString size ++ " bytes exceeds limit of " ++ toString limit ++ " bytes"
  | inconsistentRevalidation key reason => "Inconsistent revalidation for " ++ key ++ ": " ++ reason
  | keyNotFound key => "Key not found: " ++ key
  | staleEntry key expected current =>
    "Stale entry for " ++ key ++ ": expected identity " ++ expected.display ++ ", current is " ++ current.display
  | identityCollision key previous minted =>
    "Identity collision for " ++ key ++ ": minted " ++ minted.display ++ " does not supersede " ++ previous.display
  | flushFailed failures first =>
    "Flush failed: " ++ toString failures ++ " persistence operation(s) failed, first: " ++ first
  | flushTimeout patience => "Flush timed out after " ++ patience.describe
  | persistence reason => "Persistence error: " ++ reason
  | origin reason => "Origin error: " ++ reason
  | scenario reason => "Scenario error: " ++ reason
  | config reason => "Configuration error: " ++ reason
  | io cause => "I/O error: " ++ cause.message
  | yaml => "YAML error"
  | json => "JSON error"
  | internal reason => "Internal error: " ++ reason

end ResponseCache
