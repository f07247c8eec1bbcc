/-
MotionBridge/Host/Layout.lean

The directories, devices and files that a host usually has, and a working
directory among them.
-/
import MotionBridge.Host.Files

namespace MotionBridge

namespace Layout

/-- The usual directories. -/
def directories : List Place :=
  [["boot"], ["dev"], ["etc"], ["home"], ["media"], ["mnt"], ["opt"], ["root"], ["run"], ["srv"],
    ["tmp"], ["usr"], ["var"], ["dev", "mqueue"], ["dev", "pts"], ["dev", "shm"], ["usr", "bin"],
    ["usr", "games"], ["usr", "include"], ["usr", "lib"], ["usr", "lib64"], ["usr", "libexec"],
    ["usr", "local"], ["usr", "sbin"], ["usr", "share"], ["usr", "src"], ["var", "cache"],
    ["var", "lib"], ["var", "log"], ["var", "tmp"]]

/-- The directories that lie elsewhere. -/
def links : List (Place × String) :=
  [(["bin"], "usr/bin"), (["lib"], "usr/lib"), (["lib64"], "usr/lib64"), (["sbin"], "usr/sbin")]

/-- The directories that show the state of the system. -/
def sealed : List Place :=
  [["proc"], ["sys"], ["dev", "fd"]]

/-- The usual devices. -/
def devices : List (Place × Node) :=
  [(["dev", "null"], .device .notTerminal), (["dev", "zero"], .device .notTerminal),
    (["dev", "full"], .device .notTerminal), (["dev", "random"], .device .invalidArgument),
    (["dev", "urandom"], .device .invalidArgument), (["dev", "tty"], .device .noDevice),
    (["dev", "stdin"], .device .notTerminal), (["dev", "stdout"], .device .notTerminal),
    (["dev", "stderr"], .device .notTerminal), (["dev", "ptmx"], .terminal)]

/-- Files that every host has. -/
def files : List (Place × String) :=
  [(["etc", "group"], "root:x:0:\n"), (["etc", "hostname"], "host\n"),
    (["etc", "hosts"], "127.0.0.1\tlocalhost\n"),
    (["etc", "passwd"], "root:x:0:0:root:/root:/bin/sh\n")]

/-- Where the bridge is started. -/
def working : Place := ["tmp", "work"]

end Layout

namespace Files

/-- Puts a file below a directory, with the directories in between. -/
def addBelow (fs : Files) (dir : Place) (path : String) (n : Node) : Files :=
  let parts := Path.parts path
  let between := (List.range parts.length).map fun k => dir ++ parts.take k
  let fs := between.foldl
    (fun fs p => if (fs.at? p).isNone then fs.put p .directory else fs) fs
  fs.put (dir ++ parts) n

/-- The usual host, with files in the working directory. -/
def ofWorking (files : List (String × Bytes)) : Files :=
  let usual :=
    (Layout.working :: Layout.directories).map (·, Node.directory) ++
      Layout.links.map (fun (p, target) => (p, .link target)) ++
      Layout.sealed.map (·, Node.sealed) ++ Layout.devices ++
      Layout.files.map fun (p, text) => (p, .file text.toUTF8.toList)
  files.foldl (fun fs (path, content) => fs.addBelow Layout.working path (.file content))
    { nodes := .ofList usual, working := Layout.working }

end Files

end MotionBridge
