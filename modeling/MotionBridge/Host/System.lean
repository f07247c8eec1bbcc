/-
MotionBridge/Host/System.lean

The host that is the operating system: its files and its clock, its sockets
and its serial lines.

Nothing is decided here.  What happens on a connection is told to the
channel, which says what is to be reported and written; this module carries
that out.  The speed and the format of a serial line are those that it was
given on the system.
-/
import MotionBridge.Channel.Tcp
import MotionBridge.Host.Basic
import MotionBridge.Journal
import MotionBridge.Serial.Port
import Std.Async.Signal
import Std.Async.TCP
import Std.Time

namespace MotionBridge

open Std.Async

/-! ### Errors -/

/-- The number and the words of an error. -/
def OsError.numbered? : IO.Error → Option (UInt32 × String)
  | .alreadyExists _ number words
  | .otherError number words
  | .resourceBusy number words
  | .resourceVanished number words
  | .unsupportedOperation number words
  | .hardwareFault number words
  | .unsatisfiedConstraints number words
  | .illegalOperation number words
  | .protocolError number words
  | .timeExpired number words
  | .interrupted _ number words
  | .noFileOrDirectory _ number words
  | .invalidArgument _ number words
  | .permissionDenied _ number words
  | .resourceExhausted _ number words
  | .inappropriateType _ number words
  | .noSuchThing _ number words => some (number, words)
  | .unexpectedEof | .userError _ => none

/-- An error that the system reported. -/
def OsError.ofSystem (e : IO.Error) : OsError :=
  match numbered? e with
  | some (number, words) => ofNumber number.toNat words
  | none => .other 0 e.toString

/-- An action whose error is part of its outcome. -/
def attempt {α : Type} (action : IO α) : IO (Except OsError α) := do
  match ← action.toBaseIO with
  | .ok a => pure (.ok a)
  | .error e => pure (.error (.ofSystem e))

/-- An action on a path, of which one that holds a NUL is refused. -/
def attemptAt {α : Type} (path : String) (action : IO α) : IO (Except OsError α) :=
  if Path.hasNul path then pure (.error .nulInName) else attempt action

/-! ### What the program holds -/

/-- A serial line that was opened, with what its reader has read and nobody
has looked at. -/
structure SerialLine where
  port : Port
  output : IO.FS.Handle
  received : IO.Ref Bytes
  reader : Task (Except IO.Error Unit)

/-- What the program has opened, and whether it shows details. -/
structure System where
  debug : IO.Ref Bool
  logFile : IO.Ref (Option IO.FS.Handle)
  /-- The listeners in the order they were opened. -/
  listeners : IO.Ref (Array TCP.Socket.Server)
  /-- The serial lines in the order they were opened. -/
  lines : IO.Ref (Array SerialLine)
  /-- Whether readers are to end. -/
  stopping : IO.Ref Bool

namespace System

/-- Nothing is open yet. -/
def start : IO System :=
  return {
    debug := ← IO.mkRef false
    logFile := ← IO.mkRef none
    listeners := ← IO.mkRef #[]
    lines := ← IO.mkRef #[]
    stopping := ← IO.mkRef false }

/-! ### The journal -/

/-- The time of day. -/
def timeOfDay : IO String :=
  return (← Std.Time.PlainDateTime.now).format "HH:mm:ss.SSS"

/-- Date and time in digits. -/
def moment : IO String :=
  return (← Std.Time.PlainDateTime.now).format "uuuuMMdd-HHmmss"

/-- The time on a clock that never runs back. -/
def steadyTime : IO Time :=
  return ⟨← IO.monoNanosNow⟩

/-- Writes a line to the standard error stream only. -/
def announce (text : String) : IO Unit := do
  IO.eprintln (Journal.stamped (← timeOfDay) text)

/-- Reports a line. -/
def say (s : System) (line : LogLine) : IO Unit := do
  if line.isShown (← s.debug.get) then
    let stamped := Journal.stamped (← timeOfDay) line.text
    IO.eprintln stamped
    if let some file ← s.logFile.get then
      let _ ← attempt (do file.putStrLn stamped; file.flush)

/-- Reports lines in order. -/
def sayAll (s : System) (log : Log) : IO Unit :=
  log.forM s.say

/-- Leads the link of fixed name to a log file. -/
def linkTo (dir path : String) : IO Unit := do
  let link := Path.join dir Journal.linkName
  let _ ← attempt (IO.FS.removeFile link)
  match ← attempt (IO.FS.hardLink path link) with
  | .ok () => pure ()
  | .error e => announce (Journal.linkFailedLine e)

/-- Opens a log file in a directory. -/
def startLogFile (s : System) (dir : String) : IO (Except String Unit) := do
  let now ← moment
  let path := Path.join dir (Journal.fileName now)
  match ← attemptAt dir (unless dir.isEmpty do IO.FS.createDirAll dir) with
  | .error e => pure (.error (Journal.directoryFailed e))
  | .ok () =>
    match ← attempt (IO.FS.Handle.mk path .append) with
    | .error e => pure (.error (Journal.fileFailed e))
    | .ok file => do
      linkTo dir path
      s.logFile.set (some file)
      announce (Journal.startedLine dir now)
      pure (.ok ())

/-- Closes the log file, if one is open. -/
def stopLogFile (s : System) : IO Unit := do
  if let some _ ← s.logFile.get then
    s.logFile.set none
    announce Journal.stoppedLine

/-- The text of a file. -/
def readText (path : String) : IO (Except String String) := do
  match ← attemptAt path (IO.FS.readBinFile path) with
  | .error e => pure (.error e.text)
  | .ok content =>
    match String.fromUTF8? content with
    | some text => pure (.ok text)
    | none => pure (.error notText)

/-! ### Opening -/

/-- Opens a listener; its address. -/
def listen (s : System) (network : NetworkSettings) (port : UInt16) :
    IO (Except String String) := do
  let ip := network.ip
  let opened ← attempt do
    let server ← TCP.Socket.Server.mk
    server.bind (.v4 ⟨.ofParts ip[0] ip[1] ip[2] ip[3], port⟩)
    server.listen 1024
    s.listeners.modify (·.push server)
    pure (toString (← server.getSockName))
  pure (opened.mapError OsError.text)

/-- How long a reader waits when its line has nothing to read, in
milliseconds. -/
def readWait : UInt32 := 50

/-- Reads a line byte by byte until it fails or readers are to end. -/
partial def readLine (s : System) (input : IO.FS.Handle) (received : IO.Ref Bytes) : IO Unit := do
  unless ← s.stopping.get do
    let bytes ← input.read 1
    if bytes.isEmpty then
      IO.sleep readWait
    else
      received.modify (· ++ bytes.toList)
    s.readLine input received

/-- Opens a serial line.  What is not a terminal is refused. -/
def openSerial (s : System) (serial : SerialSettings) : IO (Except String Unit) := do
  match ← attemptAt serial.path (IO.FS.Handle.mk serial.path .readWrite) with
  | .error .nulInName => pure (.error OsError.invalidArgument.phrase)
  | .error e => pure (.error e.phrase)
  | .ok output =>
    if !(← output.isTty) then pure (.error OsError.notTerminal.phrase)
    else
      let opened ← attempt do
        let input ← IO.FS.Handle.mk serial.path .read
        let received ← IO.mkRef []
        let reader ← IO.asTask (s.readLine input received) .dedicated
        let port : Port := { name := serial.portName, ring := default }
        s.lines.modify (·.push { port, output, received, reader })
      pure (opened.mapError OsError.phrase)

/-! ### Connections -/

/-- A listener, its channel, and the connections of its clients. -/
structure Endpoint where
  server : TCP.Socket.Server
  channel : TcpChannel
  clients : List (Nat × TCP.Socket.Client) := []
  /-- The reads under way. -/
  receiving : List (Nat × AsyncTask (Option ByteArray)) := []
  /-- The write under way. -/
  sending : Option (AsyncTask Unit) := none

namespace Endpoint

/-- The connection of a client. -/
def client? (e : Endpoint) (id : Nat) : Option TCP.Socket.Client :=
  e.clients.lookup id

/-- The most bytes that one read takes. -/
def readSize : UInt64 := 512

/-- Accepts a connection, if a client waits. -/
def accept (s : System) (e : Endpoint) : IO Endpoint := do
  let accepted ← attempt do
    match ← e.server.tryAccept with
    | none => pure none
    | some client => do
      let peer ← client.getPeerName
      pure (some (client, toString peer, ← Async.toIO (client.recv? readSize)))
  match accepted with
  | .error err => do
    s.say (.note s!"[tcp:{e.channel.name}] Accept failed: {err.text}")
    pure e
  | .ok none => pure e
  | .ok (some (client, peer, read)) => do
    let (channel, log) := e.channel.connect peer
    s.sayAll log
    let _ ← attempt client.noDelay
    let id := channel.writer.accepted
    pure { e with
      channel
      clients := e.clients ++ [(id, client)]
      receiving := e.receiving ++ [(id, read)] }

/-- Looks at one read: what came in goes to the channel, and the next read
begins. -/
def receiveOne (s : System) (e : Endpoint) (id : Nat) (read : AsyncTask (Option ByteArray)) :
    IO Endpoint := do
  if !(← IO.hasFinished read) then
    return { e with receiving := e.receiving ++ [(id, read)] }
  match read.get, e.client? id with
  | .ok (some data), some client => do
    let (channel, log) := e.channel.receive id data.toList
    s.sayAll log
    let next ← Async.toIO (client.recv? readSize)
    pure { e with channel, receiving := e.receiving ++ [(id, next)] }
  | outcome, _ => do
    if let .error err := outcome then
      let reason := (OsError.ofSystem err).text
      s.say (.note s!"[tcp:{e.channel.name}] Read from connection {id} failed: {reason}")
    let (channel, log) := e.channel.endReader id
    s.sayAll log
    pure { e with channel }

/-- Looks at the reads under way. -/
def receive (s : System) (e : Endpoint) : IO Endpoint :=
  e.receiving.foldlM (fun e (id, read) => e.receiveOne s id read) { e with receiving := [] }

/-- One step of the channel's writer.  A connection that is no longer written
to is closed for writing. -/
def work (s : System) (e : Endpoint) (result : WriteResult) : IO Endpoint := do
  let (writer, log) := e.channel.writer.work result
  s.sayAll log
  let old := e.channel.writer.target
  if old != writer.target then
    if let some client := old.bind e.client? then
      let _ ← Async.toIO client.shutdown
  let sending := if writer.pending.isSome then e.sending else none
  pure { e with channel := { e.channel with writer }, sending }

/-- The next step of the writer, if it has one to take. -/
def step? (s : System) (e : Endpoint) : IO (Option Endpoint) := do
  let writer := e.channel.writer
  match writer.link.control, writer.pending with
  | [], some (chunk, out) =>
    match e.sending, writer.target.bind e.client? with
    | some write, _ =>
      if !(← IO.hasFinished write) then pure none
      else
        match write.get with
        | .ok () => some <$> e.work s (.wrote chunk.bytes.length)
        | .error err => some <$> e.work s (.failed (OsError.ofSystem err).text)
    | none, some client => do
      let write ← Async.toIO (client.send ⟨(chunk.bytes.drop out).toArray⟩)
      pure (some { e with sending := some write })
    | none, none => some <$> e.work s (.wrote 0)
  | [], none =>
    if writer.link.queue.isEmpty then pure none else some <$> e.work s (.wrote 0)
  | _ :: _, _ => some <$> e.work s (.wrote 0)

/-- Lets the writer work until it rests or a write is under way. -/
partial def write (s : System) (e : Endpoint) : IO Endpoint := do
  match ← e.step? s with
  | some e => e.write s
  | none => pure e

/-- Forgets the connections that are neither read nor written. -/
def prune (e : Endpoint) : Endpoint :=
  { e with clients := e.clients.filter fun (id, _) =>
      id ∈ e.channel.readers || e.channel.writer.target = some id }

/-- Everything that an endpoint has to do between two passes. -/
def turn (s : System) (e : Endpoint) : IO Endpoint := do
  let e ← e.accept s
  let e ← e.receive s
  let e ← e.write s
  pure e.prune

end Endpoint

/-! ### Serving -/

/-- Gives an endpoint its turn with the channel at a place. -/
def exchange (s : System) (b : RunningBridge) (place : Nat) (e : Endpoint) :
    IO (Endpoint × RunningBridge) := do
  let some (link, ring) := b.channel? place | pure (e, b)
  let channel := { e.channel with ring, writer := { e.channel.writer with link } }
  let e ← { e with channel }.turn s
  pure (e, b.setChannel place e.channel.writer.link e.channel.ring)

/-- Moves what a serial line received into the ring of its tunnel. -/
def takeReceived (s : System) (line : SerialLine) (t : Tunnel) : IO (SerialLine × Tunnel) := do
  let data ← line.received.modifyGet fun data => (data, [])
  let (port, log) := { line.port with ring := t.ring }.arrive data
  s.sayAll log
  let (port, log) ← if port.reading && (← IO.hasFinished line.reader) then
    pure port.unplug
  else
    pure (port, [])
  s.sayAll log
  pure ({ line with port }, { t with ring := port.ring })

/-- Writes what a tunnel has for its serial line. -/
def putWritten (s : System) (line : SerialLine) (t : Tunnel) : IO Tunnel := do
  let data := t.sink.written
  unless data.isEmpty do
    let wrote ← attempt (do line.output.write ⟨data.toArray⟩; line.output.flush)
    if let .error e := wrote then
      let error : DeviceError := ⟨.write, line.port.name, e.phrase⟩
      s.say (.note s!"[bridge:{t.number.toNat}] {error.text}")
  pure { t with sink := t.sink.clear }

/-- The poll loop, until the program is interrupted. -/
def serve (s : System) (b : RunningBridge) : IO Unit := do
  let interrupted ← (← Signal.Waiter.mk .sigint false).wait
  let mut b := b
  let mut endpoints := (← s.listeners.get).mapIdx fun place server =>
    let (link, ring) := (b.channel? place).getD ({ name := "" }, default)
    ({ server, channel := .start link.name ring } : Endpoint)
  let mut lines := (← s.lines.get).toList
  while !(← IO.hasFinished interrupted) do
    for place in [0 : endpoints.size] do
      if let some e := endpoints[place]? then
        let (e, next) ← s.exchange b place e
        b := next
        endpoints := endpoints.setIfInBounds place e
    let received ← (lines.zip b.tunnels).mapM fun (line, t) => s.takeReceived line t
    lines := received.map Prod.fst
    b := { b with tunnels := received.map Prod.snd }
    let passed := b.pass (← steadyTime)
    s.sayAll passed.log
    let tunnels ← (lines.zip passed.bridge.tunnels).mapM fun (line, t) => s.putWritten line t
    b := { passed.bridge with tunnels }
    unless passed.busy do
      IO.sleep 1
  s.stopping.set true

/-- The effects of the system. -/
def host (s : System) : Host IO where
  readText := readText
  print := IO.print
  complain := IO.eprintln
  say := s.say
  setDebug := s.debug.set
  startLogFile := s.startLogFile
  stopLogFile := s.stopLogFile
  now := steadyTime
  listen _ := s.listen
  openSerial := s.openSerial
  serve := s.serve

end System

end MotionBridge
