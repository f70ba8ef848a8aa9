-- What a system refuses, as causes, and the words and numbers for them.

namespace Transcript.Host

/-- Why a system does not do what it is asked for. -/
inductive HostError where
  | notPermitted
  | noEntry
  | noProcess
  | interrupted
  | noSuchDevice
  | tooLarge
  | badDescriptor
  | noChild
  | denied
  | alreadyThere
  | notDirectory
  | isDirectory
  | invalid
  | noSpace
  | brokenPipe
  | nameTooLong
  | tooManyLinks
  | addressInUse
  | unreachable
  | refused
  | zeroByte
  | zeroByteInPath
  | notText
deriving DecidableEq

namespace HostError

/-- The words for an error without its number. -/
def phrase : HostError → String
  | .notPermitted => "Operation not permitted"
  | .noEntry => "No such file or directory"
  | .noProcess => "No such process"
  | .interrupted => "Interrupted system call"
  | .noSuchDevice => "No such device or address"
  | .tooLarge => "Argument list too long"
  | .badDescriptor => "Bad file descriptor"
  | .noChild => "No child processes"
  | .denied => "Permission denied"
  | .alreadyThere => "File exists"
  | .notDirectory => "Not a directory"
  | .isDirectory => "Is a directory"
  | .invalid => "Invalid argument"
  | .noSpace => "No space left on device"
  | .brokenPipe => "Broken pipe"
  | .nameTooLong => "File name too long"
  | .tooManyLinks => "Too many levels of symbolic links"
  | .addressInUse => "Address already in use"
  | .unreachable => "Network is unreachable"
  | .refused => "Connection refused"
  | .zeroByte => "nul byte found in provided data"
  | .zeroByteInPath => "file name contained an unexpected NUL byte"
  | .notText => "stream did not contain valid UTF-8"

/-- The number of an error of the system. -/
def number? : HostError → Option Nat
  | .notPermitted => some 1
  | .noEntry => some 2
  | .noProcess => some 3
  | .interrupted => some 4
  | .noSuchDevice => some 6
  | .tooLarge => some 7
  | .badDescriptor => some 9
  | .noChild => some 10
  | .denied => some 13
  | .alreadyThere => some 17
  | .notDirectory => some 20
  | .isDirectory => some 21
  | .invalid => some 22
  | .noSpace => some 28
  | .brokenPipe => some 32
  | .nameTooLong => some 36
  | .tooManyLinks => some 40
  | .addressInUse => some 98
  | .unreachable => some 101
  | .refused => some 111
  | .zeroByte | .zeroByteInPath | .notText => none

def message (e : HostError) : String :=
  match e.number? with
  | some n => e.phrase ++ " (os error " ++ toString n ++ ")"
  | none => e.phrase

end HostError

end Transcript.Host
