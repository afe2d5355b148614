import QueryCache.Failure

/-!
# Files

What can go wrong with a file, and a place where a file can stand. That a file
does not exist is a failure of its own kind, with the message of the system where
there is one; every other fault counts by its kind alone.
-/

namespace QueryCache

/-- The kinds of faults of a file system or a connection. -/
inductive FileFaultKind where
  | notFound
  | permissionDenied
  | connectionRefused
  | connectionReset
  | hostUnreachable
  | networkUnreachable
  | connectionAborted
  | notConnected
  | addrInUse
  | addrNotAvailable
  | networkDown
  | brokenPipe
  | alreadyExists
  | wouldBlock
  | notADirectory
  | isADirectory
  | directoryNotEmpty
  | readOnlyFilesystem
  | filesystemLoop
  | staleNetworkFileHandle
  | invalidInput
  | invalidData
  | timedOut
  | writeZero
  | storageFull
  | notSeekable
  | quotaExceeded
  | fileTooLarge
  | resourceBusy
  | executableFileBusy
  | deadlock
  | crossesDevices
  | tooManyLinks
  | invalidFilename
  | argumentListTooLong
  | interrupted
  | unsupported
  | unexpectedEof
  | outOfMemory
  | inProgress
  | other
deriving DecidableEq

namespace FileFaultKind

/-- The name of a kind in plain words. -/
def description : FileFaultKind → String
  | notFound => "entity not found"
  | permissionDenied => "permission denied"
  | connectionRefused => "connection refused"
  | connectionReset => "connection reset"
  | hostUnreachable => "host unreachable"
  | networkUnreachable => "network unreachable"
  | connectionAborted => "connection aborted"
  | notConnected => "not connected"
  | addrInUse => "address in use"
  | addrNotAvailable => "address not available"
  | networkDown => "network down"
  | brokenPipe => "broken pipe"
  | alreadyExists => "entity already exists"
  | wouldBlock => "operation would block"
  | notADirectory => "not a directory"
  | isADirectory => "is a directory"
  | directoryNotEmpty => "directory not empty"
  | readOnlyFilesystem => "read-only filesystem or storage medium"
  | filesystemLoop => "filesystem loop or indirection limit (e.g. symlink loop)"
  | staleNetworkFileHandle => "stale network file handle"
  | invalidInput => "invalid input parameter"
  | invalidData => "invalid data"
  | timedOut => "timed out"
  | writeZero => "write zero"
  | storageFull => "no storage space"
  | notSeekable => "seek on unseekable file"
  | quotaExceeded => "quota exceeded"
  | fileTooLarge => "file too large"
  | resourceBusy => "resource busy"
  | executableFileBusy => "executable file busy"
  | deadlock => "deadlock"
  | crossesDevices => "cross-device link or rename"
  | tooManyLinks => "too many links"
  | invalidFilename => "invalid filename"
  | argumentListTooLong => "argument list too long"
  | interrupted => "operation interrupted"
  | unsupported => "unsupported"
  | unexpectedEof => "unexpected end of file"
  | outOfMemory => "out of memory"
  | inProgress => "in progress"
  | other => "other error"

end FileFaultKind

/-- A fault with the message of the system, if there is one. -/
structure FileFault where
  kind : FileFaultKind
  message : Option String
deriving DecidableEq

namespace FileFault

/-- The failure that a fault counts as. -/
def failure (fault : FileFault) : Failure :=
  match fault.kind with
  | .notFound => .notFound (fault.message.getD fault.kind.description)
  | kind => .fileSystem ("IOError: " ++ kind.description)

/-- A folder on the way to a file does not exist. -/
def missing : FileFault := ⟨.notFound, some "No such file or directory (os error 2)"⟩

end FileFault

/-- A place where a text file can stand. -/
structure FilePlace where
  folderExists : Bool
  content : Option String
deriving DecidableEq

namespace FilePlace

/-- Puts a text in place of what the file holds. -/
def write (place : FilePlace) (text : String) : Except Failure FilePlace :=
  if place.folderExists then .ok { place with content := some text }
  else .error FileFault.missing.failure

end FilePlace

end QueryCache
