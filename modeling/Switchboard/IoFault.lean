import Switchboard.Instances

/-!
# Failures of reading and writing

Every way a byte channel or a file can fail: the kind of failure, and the text that is shown. A
failure that only has a kind shows the kind's description; one that the operating system reported
by number shows the system's words and the number.
-/

namespace Switchboard

inductive IoKind where
  | notFound
  | permissionDenied
  | connectionRefused
  | connectionReset
  | hostUnreachable
  | networkUnreachable
  | connectionAborted
  | notConnected
  | addrInUse
  | addrNotAvailable
  | networkDown
  | brokenPipe
  | alreadyExists
  | wouldBlock
  | notADirectory
  | isADirectory
  | directoryNotEmpty
  | readOnlyFilesystem
  | filesystemLoop
  | staleNetworkFileHandle
  | invalidInput
  | invalidData
  | timedOut
  | writeZero
  | storageFull
  | notSeekable
  | quotaExceeded
  | fileTooLarge
  | resourceBusy
  | executableFileBusy
  | deadlock
  | crossesDevices
  | tooManyLinks
  | invalidFilename
  | argumentListTooLong
  | interrupted
  | unsupported
  | unexpectedEof
  | outOfMemory
  | inProgress
  | other
  | uncategorized
  deriving DecidableEq, Repr, Inhabited

namespace IoKind

/-- Every kind with its name and its description. -/
def table : List (IoKind × String × String) := [
  (.notFound, "NotFound", "entity not found"),
  (.permissionDenied, "PermissionDenied", "permission denied"),
  (.connectionRefused, "ConnectionRefused", "connection refused"),
  (.connectionReset, "ConnectionReset", "connection reset"),
  (.hostUnreachable, "HostUnreachable", "host unreachable"),
  (.networkUnreachable, "NetworkUnreachable", "network unreachable"),
  (.connectionAborted, "ConnectionAborted", "connection aborted"),
  (.notConnected, "NotConnected", "not connected"),
  (.addrInUse, "AddrInUse", "address in use"),
  (.addrNotAvailable, "AddrNotAvailable", "address not available"),
  (.networkDown, "NetworkDown", "network down"),
  (.brokenPipe, "BrokenPipe", "broken pipe"),
  (.alreadyExists, "AlreadyExists", "entity already exists"),
  (.wouldBlock, "WouldBlock", "operation would block"),
  (.notADirectory, "NotADirectory", "not a directory"),
  (.isADirectory, "IsADirectory", "is a directory"),
  (.directoryNotEmpty, "DirectoryNotEmpty", "directory not empty"),
  (.readOnlyFilesystem, "ReadOnlyFilesystem", "read-only filesystem or storage medium"),
  (.filesystemLoop, "FilesystemLoop", "filesystem loop or indirection limit (e.g. symlink loop)"),
  (.staleNetworkFileHandle, "StaleNetworkFileHandle", "stale network file handle"),
  (.invalidInput, "InvalidInput", "invalid input parameter"),
  (.invalidData, "InvalidData", "invalid data"),
  (.timedOut, "TimedOut", "timed out"),
  (.writeZero, "WriteZero", "write zero"),
  (.storageFull, "StorageFull", "no storage space"),
  (.notSeekable, "NotSeekable", "seek on unseekable file"),
  (.quotaExceeded, "QuotaExceeded", "quota exceeded"),
  (.fileTooLarge, "FileTooLarge", "file too large"),
  (.resourceBusy, "ResourceBusy", "resource busy"),
  (.executableFileBusy, "ExecutableFileBusy", "executable file busy"),
  (.deadlock, "Deadlock", "deadlock"),
  (.crossesDevices, "CrossesDevices", "cross-device link or rename"),
  (.tooManyLinks, "TooManyLinks", "too many links"),
  (.invalidFilename, "InvalidFilename", "invalid filename"),
  (.argumentListTooLong, "ArgumentListTooLong", "argument list too long"),
  (.interrupted, "Interrupted", "operation interrupted"),
  (.unsupported, "Unsupported", "unsupported"),
  (.unexpectedEof, "UnexpectedEof", "unexpected end of file"),
  (.outOfMemory, "OutOfMemory", "out of memory"),
  (.inProgress, "InProgress", "in progress"),
  (.other, "Other", "other error"),
  (.uncategorized, "Uncategorized", "uncategorized error")]

def name (kind : IoKind) : String :=
  ((table.find? fun row => row.1 == kind).map fun row => row.2.1).getD "Other"

def description (kind : IoKind) : String :=
  ((table.find? fun row => row.1 == kind).map fun row => row.2.2).getD "other error"

def ofName? (name : String) : Option IoKind :=
  (table.find? fun row => row.2.1 == name).map fun row => row.1

/-- The kind of a failure that the operating system reports by this number. -/
def ofNumber (number : Nat) : IoKind :=
  match number with
  | 1 => .permissionDenied
  | 2 => .notFound
  | 4 => .interrupted
  | 7 => .argumentListTooLong
  | 11 => .wouldBlock
  | 12 => .outOfMemory
  | 13 => .permissionDenied
  | 16 => .resourceBusy
  | 17 => .alreadyExists
  | 18 => .crossesDevices
  | 20 => .notADirectory
  | 21 => .isADirectory
  | 22 => .invalidInput
  | 26 => .executableFileBusy
  | 27 => .fileTooLarge
  | 28 => .storageFull
  | 29 => .notSeekable
  | 30 => .readOnlyFilesystem
  | 31 => .tooManyLinks
  | 32 => .brokenPipe
  | 35 => .deadlock
  | 36 => .invalidFilename
  | 38 => .unsupported
  | 39 => .directoryNotEmpty
  | 40 => .filesystemLoop
  | 95 => .unsupported
  | 98 => .addrInUse
  | 99 => .addrNotAvailable
  | 100 => .networkDown
  | 101 => .networkUnreachable
  | 103 => .connectionAborted
  | 104 => .connectionReset
  | 107 => .notConnected
  | 110 => .timedOut
  | 111 => .connectionRefused
  | 113 => .hostUnreachable
  | 115 => .inProgress
  | 116 => .staleNetworkFileHandle
  | 122 => .quotaExceeded
  | _ => .uncategorized

end IoKind

/-- The operating system's words for its failures, by number from 1. -/
def systemWords : List String := [
  "Operation not permitted",
  "No such file or directory",
  "No such process",
  "Interrupted system call",
  "Input/output error",
  "No such device or address",
  "Argument list too long",
  "Exec format error",
  "Bad file descriptor",
  "No child processes",
  "Resource temporarily unavailable",
  "Cannot allocate memory",
  "Permission denied",
  "Bad address",
  "Block device required",
  "Device or resource busy",
  "File exists",
  "Invalid cross-device link",
  "No such device",
  "Not a directory",
  "Is a directory",
  "Invalid argument",
  "Too many open files in system",
  "Too many open files",
  "Inappropriate ioctl for device",
  "Text file busy",
  "File too large",
  "No space left on device",
  "Illegal seek",
  "Read-only file system",
  "Too many links",
  "Broken pipe",
  "Numerical argument out of domain",
  "Numerical result out of range",
  "Resource deadlock avoided",
  "File name too long",
  "No locks available",
  "Function not implemented",
  "Directory not empty",
  "Too many levels of symbolic links",
  "Unknown error 41",
  "No message of desired type",
  "Identifier removed",
  "Channel number out of range",
  "Level 2 not synchronized",
  "Level 3 halted",
  "Level 3 reset",
  "Link number out of range",
  "Protocol driver not attached",
  "No CSI structure available",
  "Level 2 halted",
  "Invalid exchange",
  "Invalid request descriptor",
  "Exchange full",
  "No anode",
  "Invalid request code",
  "Invalid slot",
  "Unknown error 58",
  "Bad font file format",
  "Device not a stream",
  "No data available",
  "Timer expired",
  "Out of streams resources",
  "Machine is not on the network",
  "Package not installed",
  "Object is remote",
  "Link has been severed",
  "Advertise error",
  "Srmount error",
  "Communication error on send",
  "Protocol error",
  "Multihop attempted",
  "RFS specific error",
  "Bad message",
  "Value too large for defined data type",
  "Name not unique on network",
  "File descriptor in bad state",
  "Remote address changed",
  "Can not access a needed shared library",
  "Accessing a corrupted shared library",
  ".lib section in a.out corrupted",
  "Attempting to link in too many shared libraries",
  "Cannot exec a shared library directly",
  "Invalid or incomplete multibyte or wide character",
  "Interrupted system call should be restarted",
  "Streams pipe error",
  "Too many users",
  "Socket operation on non-socket",
  "Destination address required",
  "Message too long",
  "Protocol wrong type for socket",
  "Protocol not available",
  "Protocol not supported",
  "Socket type not supported",
  "Operation not supported",
  "Protocol family not supported",
  "Address family not supported by protocol",
  "Address already in use",
  "Cannot assign requested address",
  "Network is down",
  "Network is unreachable",
  "Network dropped connection on reset",
  "Software caused connection abort",
  "Connection reset by peer",
  "No buffer space available",
  "Transport endpoint is already connected",
  "Transport endpoint is not connected",
  "Cannot send after transport endpoint shutdown",
  "Too many references: cannot splice",
  "Connection timed out",
  "Connection refused",
  "Host is down",
  "No route to host",
  "Operation already in progress",
  "Operation now in progress",
  "Stale file handle",
  "Structure needs cleaning",
  "Not a XENIX named type file",
  "No XENIX semaphores available",
  "Is a named type file",
  "Remote I/O error",
  "Disk quota exceeded",
  "No medium found",
  "Wrong medium type",
  "Operation canceled",
  "Required key not available",
  "Key has expired",
  "Key has been revoked",
  "Key was rejected by service",
  "Owner died",
  "State not recoverable",
  "Operation not possible due to RF-kill",
  "Memory page has hardware error"]

/-- A failure of reading or writing: its kind, and the text that is shown. -/
structure IoFault where
  kind : IoKind
  text : String
  deriving DecidableEq, Repr, Inhabited

namespace IoFault

def bare (kind : IoKind) : IoFault :=
  ⟨kind, kind.description⟩

def wordsOf (number : Nat) : String :=
  if number = 0 then "Success" else (systemWords[number - 1]?).getD s!"Unknown error {number}"

def ofNumber (number : Nat) : IoFault :=
  ⟨IoKind.ofNumber number, s!"{wordsOf number} (os error {number})"⟩

end IoFault

end Switchboard
