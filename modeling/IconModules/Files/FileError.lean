import IconModules.Files.Path
/-!
# Errors of files

* A **`FileError`** is a numbered error of the system, a path that the system cannot be given, or
  the failure to list a folder.
* **`FileError.message`** puts it in words; the texts of the numbers are in **`systemTexts`**.
-/

namespace IconModules

/-- Why an operation on files failed. -/
inductive FileError where
  | system (number : Int)
  /-- A path holds the character that ends paths. -/
  | nulInPath
  | listing (path : Path) (cause : FileError)
  deriving DecidableEq, Repr

/-- The texts of the system's errors, from number zero on. Two numbers are not in use. -/
def systemTexts : List String :=
  ["Success", "Operation not permitted", "No such file or directory", "No such process",
   "Interrupted system call", "Input/output error", "No such device or address",
   "Argument list too long", "Exec format error", "Bad file descriptor", "No child processes",
   "Resource temporarily unavailable", "Cannot allocate memory", "Permission denied", "Bad address",
   "Block device required", "Device or resource busy", "File exists", "Invalid cross-device link",
   "No such device", "Not a directory", "Is a directory", "Invalid argument",
   "Too many open files in system", "Too many open files", "Inappropriate ioctl for device",
   "Text file busy", "File too large", "No space left on device", "Illegal seek",
   "Read-only file system", "Too many links", "Broken pipe", "Numerical argument out of domain",
   "Numerical result out of range", "Resource deadlock avoided", "File name too long",
   "No locks available", "Function not implemented", "Directory not empty",
   "Too many levels of symbolic links", "", "No message of desired type", "Identifier removed",
   "Channel number out of range", "Level 2 not synchronized", "Level 3 halted", "Level 3 reset",
   "Link number out of range", "Protocol driver not attached", "No CSI structure available",
   "Level 2 halted", "Invalid exchange", "Invalid request descriptor", "Exchange full", "No anode",
   "Invalid request code", "Invalid slot", "", "Bad font file format", "Device not a stream",
   "No data available", "Timer expired", "Out of streams resources",
   "Machine is not on the network", "Package not installed", "Object is remote",
   "Link has been severed", "Advertise error", "Srmount error", "Communication error on send",
   "Protocol error", "Multihop attempted", "RFS specific error", "Bad message",
   "Value too large for defined data type", "Name not unique on network",
   "File descriptor in bad state", "Remote address changed",
   "Can not access a needed shared library", "Accessing a corrupted shared library",
   ".lib section in a.out corrupted", "Attempting to link in too many shared libraries",
   "Cannot exec a shared library directly", "Invalid or incomplete multibyte or wide character",
   "Interrupted system call should be restarted", "Streams pipe error", "Too many users",
   "Socket operation on non-socket", "Destination address required", "Message too long",
   "Protocol wrong type for socket", "Protocol not available", "Protocol not supported",
   "Socket type not supported", "Operation not supported", "Protocol family not supported",
   "Address family not supported by protocol", "Address already in use",
   "Cannot assign requested address", "Network is down", "Network is unreachable",
   "Network dropped connection on reset", "Software caused connection abort",
   "Connection reset by peer", "No buffer space available",
   "Transport endpoint is already connected", "Transport endpoint is not connected",
   "Cannot send after transport endpoint shutdown", "Too many references: cannot splice",
   "Connection timed out", "Connection refused", "Host is down", "No route to host",
   "Operation already in progress", "Operation now in progress", "Stale file handle",
   "Structure needs cleaning", "Not a XENIX named type file", "No XENIX semaphores available",
   "Is a named type file", "Remote I/O error", "Disk quota exceeded", "No medium found",
   "Wrong medium type", "Operation canceled", "Required key not available", "Key has expired",
   "Key has been revoked", "Key was rejected by service", "Owner died", "State not recoverable",
   "Operation not possible due to RF-kill", "Memory page has hardware error"]

def systemText (number : Int) : String :=
  match number with
  | .ofNat n =>
    match systemTexts[n]? with
    | some "" | none => "Unknown error " ++ toString number
    | some text => text
  | .negSucc _ => "Unknown error " ++ toString number

namespace FileError

def message : FileError → String
  | system n => systemText n ++ " (os error " ++ toString n ++ ")"
  | nulInPath => "file name contained an unexpected NUL byte"
  | listing p e => "IO error for operation on " ++ p.text ++ ": " ++ e.message

/-! ### The errors that occur -/

/-- Nothing stands there. -/
def noSuchFile : FileError := system 2

def argumentsTooLong : FileError := system 7

def notAllowed : FileError := system 13

/-- The place is in use. -/
def busy : FileError := system 16

/-- Something stands there already. -/
def alreadyThere : FileError := system 17

def notFolder : FileError := system 20

def isFolder : FileError := system 21

/-- The operation makes no sense there. -/
def invalid : FileError := system 22

def nameTooLong : FileError := system 36

def notEmpty : FileError := system 39

def tooManyLinks : FileError := system 40

end FileError
end IconModules
