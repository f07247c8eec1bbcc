/-
MotionBridge/Settings/Legacy.lean

The older configuration format: lines of `key=value`, applied over existing
settings.

The keys `IP1` to `IP4` set the address.  For the ports 1 to 3 a key sets the
baud rate, and three more set the line format, which counts only when all
three are there.  Of a key that occurs more than once the first occurrence
counts.  The changes are made one after the other; an error leaves those made
before it.
-/
import MotionBridge.Settings.Validate
import MotionBridge.Text.Blank

namespace MotionBridge

/-- Keys with their values, in the order of the text. -/
abbrev KeyValues := List (String × String)

namespace KeyValues

/-- The key and value of a line, unless it is blank, a comment, or without an
equals sign. -/
def ofLine (line : List Char) : Option (String × String) :=
  let line := Text.trim line
  if line.isEmpty || line.head? == some '#' then none
  else (Text.splitFirst '=' line).map fun (key, value) =>
    (String.ofList (Text.trim key), String.ofList (Text.trim value))

/-- The keys and values of a text. -/
def ofText (text : String) : KeyValues :=
  (Text.lines text.toList).filterMap ofLine

/-- The value of a key's first occurrence. -/
def value? (kv : KeyValues) (key : String) : Option String :=
  kv.lookup key

end KeyValues

namespace Settings

/-- A change of settings that may fail. -/
abbrev Edit := Settings → Settings × Except SettingsError Unit

/-- Edits one after the other, up to the first that fails. -/
def runEdits : List Edit → Edit
  | [], s => (s, .ok ())
  | edit :: rest, s =>
    match edit s with
    | (s, .ok ()) => runEdits rest s
    | (s, .error e) => (s, .error e)

/-- A number of at most `limit`. -/
def readNumber (key value : String) (limit : Nat) : Except SettingsError Nat :=
  match Text.decimal? value.toList with
  | some n => if n ≤ limit then .ok n else .error (.badValue key value)
  | none => .error (.badValue key value)

/-- Changes the first entry of a port number, adding one if there is none. -/
def editPort (number : UInt8) (f : SerialSettings → SerialSettings) :
    List SerialSettings → List SerialSettings
  | [] => [f (.forPort number)]
  | s :: rest => if s.number = number then f s :: rest else s :: editPort number f rest

/-- Sets one byte of the address. -/
def editAddress (kv : KeyValues) (i : Fin 4) : Edit := fun s =>
  let key := s!"IP{i.val + 1}"
  match kv.value? key with
  | none => (s, .ok ())
  | some value =>
    match readNumber key value 255 with
    | .error e => (s, .error e)
    | .ok n =>
      ({ s with network := { s.network with ip := s.network.ip.set i (UInt8.ofNat n) } }, .ok ())

/-- Sets the baud rate of a port. -/
def editBaud (kv : KeyValues) (number : UInt8) : Edit := fun s =>
  let key := s!"Serial{number.toNat}Baud"
  match kv.value? key with
  | none => (s, .ok ())
  | some value =>
    match readNumber key value 4294967295 with
    | .error e => (s, .error e)
    | .ok n =>
      ({ s with
          serial := editPort number (fun p => { p with baudRate := UInt32.ofNat n }) s.serial },
        .ok ())

/-- Sets the line format of a port, if all of it is given.  A parity of
another name counts as none. -/
def editFormat (kv : KeyValues) (number : UInt8) : Edit := fun s =>
  let dataKey := s!"Serial{number.toNat}DataBits"
  let stopKey := s!"Serial{number.toNat}StopBits"
  match kv.value? dataKey, kv.value? s!"Serial{number.toNat}Parity", kv.value? stopKey with
  | some data, some parity, some stop =>
    match readNumber dataKey data 255, readNumber stopKey stop 255 with
    | .error e, _ => (s, .error e)
    | _, .error e => (s, .error e)
    | .ok dataBits, .ok stopBits =>
      let format (p : SerialSettings) : SerialSettings :=
        { p with
          dataBits := UInt8.ofNat dataBits
          parity := (Parity.ofName parity).getD .none
          stopBits := UInt8.ofNat stopBits }
      ({ s with serial := editPort number format s.serial }, .ok ())
  | _, _, _ => (s, .ok ())

/-- The last edit checks the outcome. -/
def checkEdit : Edit := fun s => (s, s.validate)

/-- Applies a text of the older format over settings. -/
def applyLegacy (text : String) : Edit :=
  let kv := KeyValues.ofText text
  runEdits <|
    (List.finRange 4).map (editAddress kv) ++
      [1, 2, 3].flatMap (fun number => [editBaud kv number, editFormat kv number]) ++
      [checkEdit]

end Settings

end MotionBridge
