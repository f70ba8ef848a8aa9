-- The machine as it is set up: the files that are always there, and the variables that its
-- processes are given.
import Transcript.Host.Machine

namespace Transcript.Host

/-! ## Standard files -/

namespace Files

/-- The programs by their names. -/
def programs : List (String × Program) :=
  [("dash", .sh), ("printf", .printf), ("echo", .echo), ("true", .yes), ("false", .no),
    ("cat", .cat), ("pwd", .pwd), ("sleep", .sleep), ("touch", .touch)]

/-- The directories that are always there. -/
def directories : List String :=
  ["boot", "dev", "dev/mqueue", "dev/pts", "dev/shm", "etc", "home", "media", "mnt", "opt", "proc",
    "proc/self", "proc/self/fd", "root", "run", "srv", "sys", "tmp", "usr", "usr/bin", "usr/games",
    "usr/include", "usr/lib", "usr/lib64", "usr/local", "usr/local/bin", "usr/local/etc",
    "usr/local/games", "usr/local/include", "usr/local/lib", "usr/local/sbin", "usr/local/share",
    "usr/local/src", "usr/sbin", "usr/share", "usr/src", "var", "var/cache", "var/lib", "var/log",
    "var/tmp"]

/-- The special bit of a directory in which everybody may make files. -/
def sharedMode : Nat := 512

def mode (path : String) : Nat :=
  if ["dev/mqueue", "dev/shm", "tmp", "var/tmp"].contains path then sharedMode else 0

/-- The links that are always there, and where they lead. -/
def links : List (String × String) :=
  [("bin", "usr/bin"), ("lib", "usr/lib"), ("lib64", "usr/lib64"), ("sbin", "usr/sbin"),
    ("usr/bin/sh", "dash"), ("dev/fd", "/proc/self/fd"), ("dev/stdin", "/proc/self/fd/0"),
    ("dev/stdout", "/proc/self/fd/1"), ("dev/stderr", "/proc/self/fd/2")]

def devices : List (String × Device) :=
  [("dev/null", .void), ("dev/zero", .zeros), ("dev/full", .full), ("dev/random", .zeros),
    ("dev/urandom", .zeros), ("dev/tty", .terminal)]

/-- How many descriptors of a process have files that stand for them. -/
def shownDescriptors : Nat := 64

/-- What is always there, by its paths. -/
def entries : List (String × Entry) :=
  directories.map (fun path => (path, .directory)) ++
    links.map (fun (path, target) => (path, .link target.toList)) ++
    devices.map (fun (path, device) => (path, .device device)) ++
    programs.map (fun (name, program) => ("usr/bin/" ++ name, .program program)) ++
    (List.range shownDescriptors).map fun n =>
      ("proc/self/fd/" ++ toString n, .device (.descriptor n))

/-- The files that are always there. They are older than all others. -/
def standard : Files :=
  entries.map fun (path, entry) =>
    (Place.ofPath path.toList, ⟨entry, Machine.epoch - 1000000000000, mode path⟩)

end Files

/-! ## The machine -/

namespace Machine

/-- The directories that programs are searched in at first. -/
def standardPath : String := "/usr/local/bin:/usr/bin:/bin"

/-- A machine on which nothing has run, without a network. -/
def standard : Machine where
  files := Files.standard
  clock := 0
  openFiles := []
  pipes := []
  drained := []
  processes := []
  nextId := 1000
  services := []
  stores := []
  network := .isolated
  environment := [("PATH", standardPath), ("HOME", "/root")]
  directory := []
  accountHome := some "/root"
  server := none

/-- The machine with a node at a place, and the directories that lead to it. -/
def withEntry (m : Machine) (place : Place) (entry : Entry) : Machine :=
  { m with files := m.files.putDeep place ⟨entry, epoch, 0⟩ }

/-- The machine with the set program in its path. -/
def withSets (m : Machine) : Machine :=
  m.withEntry (Place.ofPath "usr/local/bin/mock_zset".toList) (.program .sets)

end Machine

end Transcript.Host
