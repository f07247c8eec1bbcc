/-
MotionBridge/Proofs/Settings/Edits.lean

What the edits of the older configuration format make of settings.

An edit reads what is given for one thing, a byte of the address, the baud rate
of a port or its line format, and changes that (`Makes`).  It fails only when a
value that counts is no number, or none that fits.  Edits that are made one after
the other have their effects one after the other (`makes_append`,
`makes_flatMap`), so that a text is applied with success exactly when all that it
gives is `Readable` and what the edits make is valid
(`applyLegacy_eq_ok_iff_edited`).
-/
import MotionBridge.Proofs.Settings.KeyValues

namespace MotionBridge

/-! ### Numbers -/

/-- The number that a value stands for, if it stands for one. -/
def numberOf (value : String) : Nat :=
  (Text.decimal? value.toList).getD 0

/-- A value stands for a number up to a limit. -/
def IsNumber (limit : Nat) (value : String) : Prop :=
  ∃ n ≤ limit, Text.decimal? value.toList = some n

namespace Settings

theorem readNumber_of_isNumber {limit : Nat} {value : String} (h : IsNumber limit value)
    (key : String) : readNumber key value limit = .ok (numberOf value) := by
  obtain ⟨n, hlimit, hdecimal⟩ := h
  simp [readNumber, numberOf, hdecimal, hlimit]

theorem readNumber_of_not_isNumber {limit : Nat} {value : String} (h : ¬ IsNumber limit value)
    (key : String) : readNumber key value limit = .error (.badValue key value) := by
  rcases hdecimal : Text.decimal? value.toList with - | n
  · simp [readNumber, hdecimal]
  · have hlimit : ¬ n ≤ limit := fun hle => h ⟨n, hle, hdecimal⟩
    simp [readNumber, hdecimal, hlimit]

/-! ### What is given -/

/-- The ports that a text can be about. -/
def legacyPorts : List UInt8 := [1, 2, 3]

section Given

variable (m : String → Option String)

/-- The value given for a byte of the address. -/
def addressValue (i : Fin 4) : Option String :=
  m s!"IP{i.val + 1}"

/-- The value given for the baud rate of a port. -/
def baudValue (n : UInt8) : Option String :=
  m s!"Serial{n.toNat}Baud"

/-- The values given for data bits, parity and stop bits of a port, which count
only together. -/
def formatValues (n : UInt8) : Option (String × String × String) :=
  match m s!"Serial{n.toNat}DataBits", m s!"Serial{n.toNat}Parity",
    m s!"Serial{n.toNat}StopBits" with
  | some data, some parity, some stop => some (data, parity, stop)
  | _, _, _ => none

/-- Every value that counts stands for a number, and for one that fits. -/
structure Readable : Prop where
  address : ∀ i, ∀ value ∈ addressValue m i, IsNumber 255 value
  baud : ∀ n ∈ legacyPorts, ∀ value ∈ baudValue m n, IsNumber 4294967295 value
  format : ∀ n ∈ legacyPorts, ∀ values ∈ formatValues m n,
    IsNumber 255 values.1 ∧ IsNumber 255 values.2.2

/-- Another byte of the address. -/
def setByte (value : String) (_ : UInt8) : UInt8 :=
  UInt8.ofNat (numberOf value)

/-- An entry with another baud rate. -/
def setBaud (value : String) (p : SerialSettings) : SerialSettings :=
  { p with baudRate := UInt32.ofNat (numberOf value) }

/-- An entry with another line format.  A parity of another name counts as
none. -/
def setFormat (values : String × String × String) (p : SerialSettings) : SerialSettings :=
  { p with
    dataBits := UInt8.ofNat (numberOf values.1)
    parity := (Parity.ofName values.2.1).getD .none
    stopBits := UInt8.ofNat (numberOf values.2.2) }

/-- A change that is made if something is given for it. -/
def change {α β : Type} (given : Option α) (f : α → β → β) (b : β) : β :=
  match given with
  | some a => f a b
  | none => b

end Given

/-! ### Edits that succeed -/

/-- An edit succeeds exactly under a condition, and then has the effect. -/
def Makes (edit : Edit) (condition : Prop) (effect : Settings → Settings) : Prop :=
  ∀ s s', edit s = (s', .ok ()) ↔ condition ∧ s' = effect s

theorem makes_of_ok {edit : Edit} {condition : Prop} {effect : Settings → Settings}
    (hcondition : condition) (hedit : ∀ s, edit s = (effect s, .ok ())) :
    Makes edit condition effect := by
  intro s s'
  rw [hedit, Prod.mk.injEq, eq_comm, and_iff_left rfl, and_iff_right hcondition]

theorem makes_of_error {edit : Edit} {condition : Prop} {effect : Settings → Settings}
    (hcondition : ¬ condition) (hedit : ∀ s, ∃ e, edit s = (s, .error e)) :
    Makes edit condition effect := by
  intro s s'
  obtain ⟨e, herror⟩ := hedit s
  rw [herror]
  exact iff_of_false nofun fun h => hcondition h.1

theorem runEdits_append_eq_ok_iff {a b : List Edit} {s s' : Settings} :
    runEdits (a ++ b) s = (s', .ok ()) ↔
      ∃ between, runEdits a s = (between, .ok ()) ∧ runEdits b between = (s', .ok ()) := by
  induction a generalizing s with
  | nil => simp [runEdits]
  | cons edit a ih =>
    rw [List.cons_append, runEdits, runEdits]
    rcases edit s with ⟨edited, - | -⟩
    · simp
    · exact ih

theorem makes_singleton {edit : Edit} {condition : Prop} {effect : Settings → Settings}
    (h : Makes edit condition effect) : Makes (runEdits [edit]) condition effect := by
  intro s s'
  rw [← h s s', runEdits]
  rcases edit s with ⟨edited, - | -⟩ <;> simp [runEdits]

theorem makes_append {a b : List Edit} {P Q : Prop} {f g : Settings → Settings}
    (ha : Makes (runEdits a) P f) (hb : Makes (runEdits b) Q g) :
    Makes (runEdits (a ++ b)) (P ∧ Q) (g ∘ f) := by
  intro s s'
  rw [runEdits_append_eq_ok_iff]
  constructor
  · rintro ⟨between, hfirst, hsecond⟩
    obtain ⟨hP, rfl⟩ := (ha _ _).mp hfirst
    obtain ⟨hQ, rfl⟩ := (hb _ _).mp hsecond
    exact ⟨⟨hP, hQ⟩, rfl⟩
  · rintro ⟨⟨hP, hQ⟩, rfl⟩
    exact ⟨f s, (ha _ _).mpr ⟨hP, rfl⟩, (hb _ _).mpr ⟨hQ, rfl⟩⟩

/-- Edits made for one item after the other. -/
theorem makes_flatMap {ι : Type} {edits : ι → List Edit} {P : ι → Prop}
    {f : ι → Settings → Settings} (h : ∀ x, Makes (runEdits (edits x)) (P x) (f x))
    (items : List ι) :
    Makes (runEdits (items.flatMap edits)) (∀ x ∈ items, P x)
      (fun s => items.foldl (fun s x => f x s) s) := by
  induction items with
  | nil =>
    intro s s'
    simp [runEdits, eq_comm]
  | cons x items ih =>
    intro s s'
    rw [List.flatMap_cons, makes_append (h x) ih s s', List.forall_mem_cons]
    rfl

/-! ### The address -/

/-- A change of the address alone. -/
def atAddress (f : Vector UInt8 4 → Vector UInt8 4) (s : Settings) : Settings :=
  { s with network := { s.network with ip := f s.network.ip } }

/-- Bytes of which one is another. -/
def putByte {k : Nat} (i : Fin k) (b : UInt8) (bytes : Vector UInt8 k) : Vector UInt8 k :=
  bytes.set i b

theorem putByte_get {k : Nat} (i j : Fin k) (b : UInt8) (bytes : Vector UInt8 k) :
    (putByte i b bytes).get j = if i = j then b else bytes.get j := by
  change (bytes.set i.val b)[j.val] = _
  rw [Vector.getElem_set]
  simp only [Fin.val_inj]
  rfl

/-- The address with what is given for one of its bytes. -/
def overlayByte (m : String → Option String) (i : Fin 4) : Vector UInt8 4 → Vector UInt8 4 :=
  change (addressValue m i) fun value => putByte i (UInt8.ofNat (numberOf value))

theorem editAddress_makes (kv : KeyValues) (i : Fin 4) :
    Makes (editAddress kv i) (∀ value ∈ addressValue kv.value? i, IsNumber 255 value)
      (atAddress (overlayByte kv.value? i)) := by
  rw [overlayByte, addressValue]
  rcases hvalue : kv.value? s!"IP{i.val + 1}" with - | value
  · refine makes_of_ok nofun fun s => ?_
    simp only [editAddress, hvalue]
    rfl
  · by_cases hnumber : IsNumber 255 value
    · refine makes_of_ok (by simpa using hnumber) fun s => ?_
      simp only [editAddress, hvalue, readNumber_of_isNumber hnumber]
      rfl
    · refine makes_of_error (fun h => hnumber (h value rfl)) fun s => ?_
      simp only [editAddress, hvalue, readNumber_of_not_isNumber hnumber]
      exact ⟨_, rfl⟩

theorem overlayByte_get (m : String → Option String) (i j : Fin 4) (ip : Vector UInt8 4) :
    (overlayByte m i ip).get j
      = if i = j then change (addressValue m i) setByte (ip.get j) else ip.get j := by
  rw [overlayByte]
  rcases addressValue m i with - | value
  · simp [change]
  · exact putByte_get i j _ ip

theorem foldl_overlayByte_get_of_not_mem (m : String → Option String) {items : List (Fin 4)}
    {j : Fin 4} (hj : j ∉ items) (ip : Vector UInt8 4) :
    (items.foldl (fun ip i => overlayByte m i ip) ip).get j = ip.get j := by
  induction items generalizing ip with
  | nil => rfl
  | cons i items ih =>
    rw [List.mem_cons, not_or] at hj
    rw [List.foldl_cons, ih hj.2, overlayByte_get, if_neg (Ne.symm hj.1)]

/-- Byte after byte, the address gets what is given for each. -/
theorem foldl_overlayByte_get (m : String → Option String) {items : List (Fin 4)}
    (hitems : items.Nodup) {j : Fin 4} (hj : j ∈ items) (ip : Vector UInt8 4) :
    (items.foldl (fun ip i => overlayByte m i ip) ip).get j
      = change (addressValue m j) setByte (ip.get j) := by
  induction items generalizing ip with
  | nil => contradiction
  | cons i items ih =>
    obtain ⟨hnot, hrest⟩ := List.nodup_cons.mp hitems
    rw [List.foldl_cons]
    obtain rfl | htail := List.mem_cons.mp hj
    · rw [foldl_overlayByte_get_of_not_mem m hnot, overlayByte_get, if_pos rfl]
    · have hij : i ≠ j := fun heq => hnot (heq ▸ htail)
      rw [ih hrest htail, overlayByte_get, if_neg hij]

/-! ### Ports -/

/-- A change of the ports alone. -/
def atSerial (f : List SerialSettings → List SerialSettings) (s : Settings) : Settings :=
  { s with serial := f s.serial }

theorem editBaud_makes (kv : KeyValues) (n : UInt8) :
    Makes (editBaud kv n) (∀ value ∈ baudValue kv.value? n, IsNumber 4294967295 value)
      (atSerial (change (baudValue kv.value? n) fun value => editPort n (setBaud value))) := by
  rw [baudValue]
  rcases hvalue : kv.value? s!"Serial{n.toNat}Baud" with - | value
  · refine makes_of_ok nofun fun s => ?_
    simp only [editBaud, hvalue]
    rfl
  · by_cases hnumber : IsNumber 4294967295 value
    · refine makes_of_ok (by simpa using hnumber) fun s => ?_
      simp only [editBaud, hvalue, readNumber_of_isNumber hnumber]
      rfl
    · refine makes_of_error (fun h => hnumber (h value rfl)) fun s => ?_
      simp only [editBaud, hvalue, readNumber_of_not_isNumber hnumber]
      exact ⟨_, rfl⟩

theorem formatValues_eq_some_iff {m : String → Option String} {n : UInt8}
    {data parity stop : String} :
    formatValues m n = some (data, parity, stop) ↔
      m s!"Serial{n.toNat}DataBits" = some data ∧ m s!"Serial{n.toNat}Parity" = some parity ∧
        m s!"Serial{n.toNat}StopBits" = some stop := by
  rw [formatValues]
  split
  · rename_i d p t hdata hparity hstop
    simp only [hdata, hparity, hstop, Option.some.injEq, Prod.mk.injEq]
  · rename_i hnone
    refine iff_of_false nofun ?_
    rintro ⟨hdata, hparity, hstop⟩
    exact hnone _ _ _ hdata hparity hstop

/-- Unless all of the line format is given, nothing is edited. -/
theorem editFormat_of_none {kv : KeyValues} {n : UInt8} (h : formatValues kv.value? n = none)
    (s : Settings) : editFormat kv n s = (s, .ok ()) := by
  simp only [editFormat]
  split
  · rename_i data parity stop hdata hparity hstop
    rw [formatValues_eq_some_iff.mpr ⟨hdata, hparity, hstop⟩] at h
    contradiction
  · rfl

theorem editFormat_makes (kv : KeyValues) (n : UInt8) :
    Makes (editFormat kv n)
      (∀ values ∈ formatValues kv.value? n, IsNumber 255 values.1 ∧ IsNumber 255 values.2.2)
      (atSerial <|
        change (formatValues kv.value? n) fun values => editPort n (setFormat values)) := by
  rcases hvalues : formatValues kv.value? n with - | ⟨data, parity, stop⟩
  · exact makes_of_ok nofun (editFormat_of_none hvalues)
  · obtain ⟨hdata, hparity, hstop⟩ := formatValues_eq_some_iff.mp hvalues
    by_cases hdatabits : IsNumber 255 data
    · by_cases hstopbits : IsNumber 255 stop
      · refine makes_of_ok (by simpa using ⟨hdatabits, hstopbits⟩) fun s => ?_
        simp only [editFormat, hdata, hparity, hstop, readNumber_of_isNumber hdatabits,
          readNumber_of_isNumber hstopbits]
        rfl
      · refine makes_of_error (fun h => hstopbits (h _ rfl).2) fun s => ?_
        simp only [editFormat, hdata, hparity, hstop, readNumber_of_isNumber hdatabits,
          readNumber_of_not_isNumber hstopbits]
        exact ⟨_, rfl⟩
    · refine makes_of_error (fun h => hdatabits (h _ rfl).1) fun s => ?_
      simp only [editFormat, hdata, hparity, hstop, readNumber_of_not_isNumber hdatabits]
      exact ⟨_, rfl⟩

/-! ### All edits -/

section Edited

variable (m : String → Option String)

/-- Entries after the two edits for a port. -/
def editedPort (n : UInt8) (entries : List SerialSettings) : List SerialSettings :=
  change (formatValues m n) (fun values => editPort n (setFormat values))
    (change (baudValue m n) (fun value => editPort n (setBaud value)) entries)

/-- Settings after all edits. -/
def edited (s : Settings) : Settings :=
  legacyPorts.foldl (fun s n => atSerial (editedPort m n) s)
    ((List.finRange 4).foldl (fun s i => atAddress (overlayByte m i) s) s)

end Edited

/-- What the edits make of settings, before the check. -/
theorem edits_make (kv : KeyValues) :
    Makes
      (runEdits ((List.finRange 4).map (editAddress kv) ++
        legacyPorts.flatMap fun n => [editBaud kv n, editFormat kv n]))
      (Readable kv.value?) (edited kv.value?) := by
  have haddress := makes_flatMap (fun i => makes_singleton (editAddress_makes kv i))
    (List.finRange 4)
  have hports := makes_flatMap
    (fun n => makes_append (makes_singleton (editBaud_makes kv n))
      (makes_singleton (editFormat_makes kv n))) legacyPorts
  intro s s'
  rw [List.map_eq_flatMap]
  refine (makes_append haddress hports s s').trans (and_congr ?_ Iff.rfl)
  constructor
  · rintro ⟨haddress, hports⟩
    exact ⟨fun i => haddress i (List.mem_finRange i), fun n hn => (hports n hn).1,
      fun n hn => (hports n hn).2⟩
  · rintro ⟨haddress, hbaud, hformat⟩
    exact ⟨fun i _ => haddress i, fun n hn => ⟨hbaud n hn, hformat n hn⟩⟩

/-- **A text is applied with success when what it gives can be read and what the
edits make of the settings is valid.** -/
theorem applyLegacy_eq_ok_iff_edited {s s' : Settings} {text : String} :
    s.applyLegacy text = (s', .ok ()) ↔
      Readable (KeyValues.ofText text).value? ∧ s' = edited (KeyValues.ofText text).value? s ∧
        s'.validate = .ok () := by
  have hcheck : ∀ t : Settings,
      runEdits [checkEdit] t = (s', .ok ()) ↔ s' = t ∧ t.validate = .ok () := by
    intro t
    rw [runEdits, checkEdit]
    rcases t.validate with - | - <;> simp [runEdits, eq_comm]
  rw [applyLegacy, runEdits_append_eq_ok_iff]
  constructor
  · rintro ⟨t, hedits, hlast⟩
    obtain ⟨hreadable, rfl⟩ := (edits_make _ _ _).mp hedits
    obtain ⟨rfl, hvalid⟩ := (hcheck _).mp hlast
    exact ⟨hreadable, rfl, hvalid⟩
  · rintro ⟨hreadable, rfl, hvalid⟩
    exact ⟨_, (edits_make _ _ _).mpr ⟨hreadable, rfl⟩, (hcheck _).mpr ⟨rfl, hvalid⟩⟩

/-- Texts that give the same are applied alike. -/
theorem applyLegacy_congr {text text' : String}
    (h : (KeyValues.ofText text).value? = (KeyValues.ofText text').value?) (s : Settings) :
    s.applyLegacy text = s.applyLegacy text' := by
  have haddress : editAddress (.ofText text) = editAddress (.ofText text') := by
    funext i s
    rw [editAddress, editAddress, h]
  have hbaud : editBaud (.ofText text) = editBaud (.ofText text') := by
    funext n s
    rw [editBaud, editBaud, h]
  have hformat : editFormat (.ofText text) = editFormat (.ofText text') := by
    funext n s
    rw [editFormat, editFormat, h]
  rw [applyLegacy, applyLegacy, haddress, hbaud, hformat]

end Settings

end MotionBridge
