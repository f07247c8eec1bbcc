/-
MotionBridge/Proofs/Settings/Overlay.lean

What a text of the older configuration format makes of settings, as one change.

The overlay (`overlay`) says for every part of the settings what it becomes: the
bytes of the address and the entries of the ports get what is given for them,
port by port, and a port that is mentioned without having an entry gets one
behind the others.  The edits come to this one after the other, two for each
port, of which the second looks for the entry that the first may have added
(`editedPort_eq`, `overlayPorts_cons`).

An edit changes the first entry of a port alone, and the overlay all of them.
The two agree where no port has two entries (`edited_eq_overlay`).  That need
not be so in the settings a text is applied to, but it is so whenever the text
is applied with success: the edits keep the numbers of the entries, and the
outcome is checked (`applyLegacy_eq_ok_iff`).
-/
import MotionBridge.Proofs.Settings.Edits
import MotionBridge.Proofs.Settings.Validity

namespace MotionBridge

namespace Settings

/-! ### The overlay -/

/-- The numbers of the ports that have entries, in order. -/
def numbers (entries : List SerialSettings) : List UInt8 :=
  entries.map (·.number)

section Overlay

variable (m : String → Option String)

/-- Whether anything is given for a port. -/
def mentions (n : UInt8) : Bool :=
  (baudValue m n).isSome || (formatValues m n).isSome

/-- An entry with what is given for the port `n`. -/
def overlayAs (n : UInt8) (p : SerialSettings) : SerialSettings :=
  change (formatValues m n) setFormat (change (baudValue m n) setBaud p)

/-- An entry with what is given for its port, if that is one of `ports`. -/
def overlayEntry (ports : List UInt8) (p : SerialSettings) : SerialSettings :=
  if p.number ∈ ports then overlayAs m p.number p else p

/-- Those of `ports` that are mentioned and have no entry, in order. -/
def newPorts (ports : List UInt8) (entries : List SerialSettings) : List UInt8 :=
  ports.filter fun n => mentions m n && !(numbers entries).contains n

/-- A new entry for a port, with what is given for it. -/
def newEntry (n : UInt8) : SerialSettings :=
  overlayAs m n (.forPort n)

/-- The entries with what is given for their ports, and behind them the new ones. -/
def overlayPorts (ports : List UInt8) (entries : List SerialSettings) : List SerialSettings :=
  entries.map (overlayEntry m ports) ++ (newPorts m ports entries).map (newEntry m)

/-- Settings with all that is given. -/
def overlay (s : Settings) : Settings :=
  { s with
    network := { s.network with
      ip := Vector.ofFn fun i => change (addressValue m i) setByte (s.network.ip.get i) }
    serial := overlayPorts m legacyPorts s.serial }

end Overlay

variable {m : String → Option String} {n : UInt8} {ports : List UInt8}
  {entries : List SerialSettings}

/-! ### Single entries -/

/-- What is given for a port changes an entry in these fields alone. -/
theorem overlayAs_fields (m : String → Option String) (n : UInt8) (p : SerialSettings) :
    ∃ baudRate dataBits parity stopBits,
      overlayAs m n p = { p with baudRate, dataBits, parity, stopBits } := by
  rw [overlayAs]
  rcases baudValue m n with - | baud <;> rcases formatValues m n with - | values <;>
    exact ⟨_, _, _, _, rfl⟩

@[simp] theorem overlayAs_number (m : String → Option String) (n : UInt8) (p : SerialSettings) :
    (overlayAs m n p).number = p.number := by
  obtain ⟨_, _, _, _, heq⟩ := overlayAs_fields m n p
  rw [heq]

@[simp] theorem newEntry_number (m : String → Option String) (n : UInt8) :
    (newEntry m n).number = n :=
  overlayAs_number m n _

@[simp] theorem overlayEntry_number (m : String → Option String) (ports : List UInt8)
    (p : SerialSettings) : (overlayEntry m ports p).number = p.number := by
  rw [overlayEntry]
  split
  · exact overlayAs_number ..
  · rfl

theorem overlayAs_of_not_mentions (h : mentions m n = false) (p : SerialSettings) :
    overlayAs m n p = p := by
  rw [mentions, Bool.or_eq_false_iff, Option.isSome_eq_false_iff, Option.isSome_eq_false_iff,
    Option.isNone_iff_eq_none, Option.isNone_iff_eq_none] at h
  rw [overlayAs, h.1, h.2]
  rfl

/-- What is given counts once. -/
@[simp] theorem overlayAs_overlayAs (m : String → Option String) (n : UInt8)
    (p : SerialSettings) : overlayAs m n (overlayAs m n p) = overlayAs m n p := by
  rw [overlayAs, overlayAs]
  rcases baudValue m n with - | baud <;> rcases formatValues m n with - | values <;> rfl

theorem overlayEntry_overlayEntry (m : String → Option String) (ports : List UInt8)
    (p : SerialSettings) :
    overlayEntry m ports (overlayEntry m ports p) = overlayEntry m ports p := by
  by_cases hport : p.number ∈ ports
  · simp [overlayEntry, hport]
  · simp [overlayEntry, hport]

theorem overlayEntry_newEntry (m : String → Option String) (ports : List UInt8) (n : UInt8) :
    overlayEntry m ports (newEntry m n) = newEntry m n := by
  rw [overlayEntry, newEntry_number]
  split
  · exact overlayAs_overlayAs m n _
  · rfl

/-- What is given for one more port. -/
theorem overlayEntry_cons (hport : n ∉ ports) (p : SerialSettings) :
    overlayEntry m (n :: ports) p = overlayEntry m ports (overlayEntry m [n] p) := by
  by_cases hnumber : p.number = n
  · subst hnumber
    simp [overlayEntry, hport]
  · simp [overlayEntry, hnumber]

/-! ### One port after the other -/

theorem numbers_overlayPorts (m : String → Option String) (ports : List UInt8)
    (entries : List SerialSettings) :
    numbers (overlayPorts m ports entries) = numbers entries ++ newPorts m ports entries := by
  simp [numbers, overlayPorts, Function.comp_def]

theorem mem_newPorts :
    n ∈ newPorts m ports entries ↔ n ∈ ports ∧ mentions m n = true ∧ n ∉ numbers entries := by
  simp [newPorts]

/-- A new entry for one port is no matter for the others. -/
theorem newPorts_cons (hport : n ∉ ports) :
    newPorts m (n :: ports) entries
      = newPorts m [n] entries ++ newPorts m ports (overlayPorts m [n] entries) := by
  have hothers : newPorts m ports (overlayPorts m [n] entries) = newPorts m ports entries := by
    refine List.filter_congr fun k hk => ?_
    have hkn : k ∉ newPorts m [n] entries := by
      rw [mem_newPorts, List.mem_singleton]
      rintro ⟨rfl, -⟩
      exact hport hk
    simp [numbers_overlayPorts, hkn]
  rw [hothers]
  exact List.filter_append [n] ports

/-- One port is dealt with before the others. -/
theorem overlayPorts_cons (hport : n ∉ ports) :
    overlayPorts m (n :: ports) entries = overlayPorts m ports (overlayPorts m [n] entries) := by
  have hentries : entries.map (overlayEntry m (n :: ports))
      = (entries.map (overlayEntry m [n])).map (overlayEntry m ports) := by
    rw [List.map_map]
    exact List.map_congr_left fun p _ => overlayEntry_cons hport p
  have hnew : ((newPorts m [n] entries).map (newEntry m)).map (overlayEntry m ports)
      = (newPorts m [n] entries).map (newEntry m) := by
    rw [List.map_map]
    exact List.map_congr_left fun k _ => overlayEntry_newEntry m ports k
  calc overlayPorts m (n :: ports) entries
      = (entries.map (overlayEntry m [n])).map (overlayEntry m ports) ++
          (newPorts m [n] entries ++ newPorts m ports (overlayPorts m [n] entries)).map
            (newEntry m) := by
        rw [overlayPorts, hentries, newPorts_cons hport]
    _ = (overlayPorts m [n] entries).map (overlayEntry m ports) ++
          (newPorts m ports (overlayPorts m [n] entries)).map (newEntry m) := by
        rw [List.map_append, ← List.append_assoc, ← hnew, ← List.map_append]
        rfl

/-- What is given counts once. -/
theorem overlayPorts_overlayPorts (m : String → Option String) (ports : List UInt8)
    (entries : List SerialSettings) :
    overlayPorts m ports (overlayPorts m ports entries) = overlayPorts m ports entries := by
  have hnone : newPorts m ports (overlayPorts m ports entries) = [] := by
    rw [List.eq_nil_iff_forall_not_mem]
    intro n hn
    obtain ⟨hport, hmentions, hmissing⟩ := mem_newPorts.mp hn
    -- what was missing the first time has an entry now
    rw [numbers_overlayPorts, List.mem_append, not_or] at hmissing
    exact hmissing.2 (mem_newPorts.mpr ⟨hport, hmentions, hmissing.1⟩)
  have hsame : ∀ p ∈ overlayPorts m ports entries, overlayEntry m ports p = p := by
    intro p hp
    obtain hold | hnew := List.mem_append.mp hp
    · obtain ⟨q, -, rfl⟩ := List.mem_map.mp hold
      exact overlayEntry_overlayEntry m ports q
    · obtain ⟨n, -, rfl⟩ := List.mem_map.mp hnew
      exact overlayEntry_newEntry m ports n
  rw [overlayPorts.eq_def m ports (overlayPorts m ports entries), hnone, List.map_nil,
    List.append_nil, List.map_congr_left hsame, List.map_id']

/-! ### The edits of a port -/

theorem numbers_editPort {f : SerialSettings → SerialSettings}
    (hf : ∀ p, (f p).number = p.number) (n : UInt8) (entries : List SerialSettings) :
    numbers (editPort n f entries)
      = numbers entries ++ if (numbers entries).contains n then [] else [n] := by
  induction entries with
  | nil => simp [editPort, numbers, hf, SerialSettings.forPort]
  | cons p entries ih =>
    by_cases hnumber : p.number = n
    · simp [editPort, numbers, hf, hnumber]
    · simp only [numbers] at ih
      simp [editPort, numbers, hnumber, ih, Ne.symm hnumber]

/-- Of two edits for one port, the second finds the entry that the first left. -/
theorem editPort_editPort {f g : SerialSettings → SerialSettings}
    (hf : ∀ p, (f p).number = p.number) (n : UInt8) (entries : List SerialSettings) :
    editPort n g (editPort n f entries) = editPort n (fun p => g (f p)) entries := by
  induction entries with
  | nil => simp [editPort, hf, SerialSettings.forPort]
  | cons p entries ih =>
    by_cases hnumber : p.number = n
    · simp [editPort, hf, hnumber]
    · simp [editPort, hnumber, ih]

/-- The two edits for a port are one edit, if there is something to edit. -/
theorem editedPort_eq (m : String → Option String) (n : UInt8) (entries : List SerialSettings) :
    editedPort m n entries
      = if mentions m n then editPort n (overlayAs m n) entries else entries := by
  have hbaud : ∀ (value : String) (p : SerialSettings), (setBaud value p).number = p.number :=
    fun _ _ => rfl
  -- which of the two edits are made, one, the other, both or none
  unfold editedPort mentions overlayAs
  rcases baudValue m n with - | baud <;> rcases formatValues m n with - | values
  · rfl
  · rfl
  · rfl
  · exact editPort_editPort (hbaud baud) n entries

theorem numbers_editedPort (m : String → Option String) (n : UInt8)
    (entries : List SerialSettings) :
    numbers (editedPort m n entries) = numbers entries ++ newPorts m [n] entries := by
  rw [editedPort_eq, newPorts]
  rcases hmentions : mentions m n
  · simp [hmentions]
  · rw [if_pos rfl, numbers_editPort (overlayAs_number m n)]
    by_cases hmem : n ∈ numbers entries <;> simp [hmem, hmentions]

/-- Where no port has two entries, an edit changes all the entries of the port. -/
theorem editPort_eq_map {f : SerialSettings → SerialSettings} (hnodup : (numbers entries).Nodup) :
    editPort n f entries
      = entries.map (fun p => if p.number = n then f p else p) ++
          if (numbers entries).contains n then [] else [f (.forPort n)] := by
  induction entries with
  | nil => rfl
  | cons p entries ih =>
    obtain ⟨hfirst, hrest⟩ := List.nodup_cons.mp hnodup
    by_cases hnumber : p.number = n
    · -- behind the entry that is changed there is none for the port
      have hsame : entries.map (fun q => if q.number = n then f q else q) = entries := by
        refine (List.map_congr_left fun q hq => if_neg ?_).trans (List.map_id' entries)
        rintro rfl
        exact hfirst (List.mem_map.mpr ⟨q, hq, hnumber.symm⟩)
      simp [editPort, numbers, hnumber, hsame]
    · have hrest' := ih hrest
      simp only [numbers] at hrest'
      simp [editPort, numbers, hnumber, hrest', Ne.symm hnumber]

/-- The edits for a port give it what is given for it. -/
theorem editedPort_eq_overlayPorts (hnodup : (numbers entries).Nodup) :
    editedPort m n entries = overlayPorts m [n] entries := by
  have hentry : ∀ p, overlayEntry m [n] p = if p.number = n then overlayAs m n p else p := by
    intro p
    by_cases hnumber : p.number = n <;> simp [overlayEntry, hnumber]
  rw [editedPort_eq, overlayPorts, funext hentry, newPorts]
  rcases hmentions : mentions m n
  · simp [overlayAs_of_not_mentions hmentions, hmentions]
  · rw [if_pos rfl, editPort_eq_map hnodup]
    by_cases hmem : n ∈ numbers entries <;> simp [hmem, hmentions, newEntry]

/-- **Port after port, the edits give each what is given for it.** -/
theorem foldl_editedPort (hports : ports.Nodup) (hnodup : (numbers entries).Nodup) :
    ports.foldl (fun entries n => editedPort m n entries) entries
      = overlayPorts m ports entries := by
  induction ports generalizing entries with
  | nil =>
    have hsame : ∀ p, overlayEntry m [] p = p := fun p => if_neg List.not_mem_nil
    simp [overlayPorts, newPorts, funext hsame]
  | cons n ports ih =>
    obtain ⟨hport, hrest⟩ := List.nodup_cons.mp hports
    have hedited := editedPort_eq_overlayPorts (m := m) (n := n) hnodup
    -- the next edits find the ports apart as well, for what is new was missing
    have hstill : (numbers (editedPort m n entries)).Nodup := by
      rw [numbers_editedPort, List.nodup_append]
      refine ⟨hnodup, List.Pairwise.filter _ (by simp), ?_⟩
      rintro k hk _ hnew rfl
      exact (mem_newPorts.mp hnew).2.2 hk
    rw [List.foldl_cons, ih hrest hstill, hedited, overlayPorts_cons hport]

/-- The ports that have entries keep them, each in its place. -/
theorem numbers_prefix_foldl (m : String → Option String) (ports : List UInt8)
    (entries : List SerialSettings) :
    numbers entries
      <+: numbers (ports.foldl (fun entries n => editedPort m n entries) entries) := by
  induction ports generalizing entries with
  | nil => exact List.prefix_rfl
  | cons n ports ih =>
    rw [List.foldl_cons]
    refine List.IsPrefix.trans ?_ (ih _)
    rw [numbers_editedPort]
    exact List.prefix_append ..

/-! ### All edits as one change -/

theorem edited_eq (m : String → Option String) (s : Settings) :
    edited m s
      = { s with
          network := { s.network with
            ip := (List.finRange 4).foldl (fun ip i => overlayByte m i ip) s.network.ip }
          serial := legacyPorts.foldl (fun entries n => editedPort m n entries) s.serial } := by
  have haddress : (List.finRange 4).foldl (fun s i => atAddress (overlayByte m i) s) s
      = atAddress (fun ip => (List.finRange 4).foldl (fun ip i => overlayByte m i ip) ip) s :=
    List.foldl_hom (fun ip => atAddress (fun _ => ip) s) fun _ _ => rfl
  have hserial : ∀ t : Settings, legacyPorts.foldl (fun t n => atSerial (editedPort m n) t) t
      = atSerial (fun l => legacyPorts.foldl (fun l n => editedPort m n l) l) t :=
    fun t => List.foldl_hom (fun l => atSerial (fun _ => l) t) fun _ _ => rfl
  rw [edited, haddress, hserial]
  rfl

/-- **The edits are the overlay, unless a port has two entries.** -/
theorem edited_eq_overlay {s : Settings} (hnodup : (numbers s.serial).Nodup) :
    edited m s = s.overlay m := by
  have haddress : (List.finRange 4).foldl (fun ip i => overlayByte m i ip) s.network.ip
      = Vector.ofFn fun i => change (addressValue m i) setByte (s.network.ip.get i) := by
    refine Vector.ext fun j hj => ?_
    rw [Vector.getElem_ofFn]
    exact foldl_overlayByte_get m (List.nodup_finRange 4) (List.mem_finRange ⟨j, hj⟩) _
  rw [edited_eq, haddress, foldl_editedPort (by decide) hnodup, overlay]

/-- In valid settings no port has two entries. -/
theorem numbers_nodup_of_validate {s : Settings} (h : s.validate = .ok ()) :
    (numbers s.serial).Nodup :=
  (validate_eq_ok_iff.mp h).numbers

/-- What is given counts once. -/
theorem overlay_overlay (m : String → Option String) (s : Settings) :
    (s.overlay m).overlay m = s.overlay m := by
  have hbyte : ∀ (i : Fin 4) (b : UInt8),
      change (addressValue m i) setByte (change (addressValue m i) setByte b)
        = change (addressValue m i) setByte b := by
    intro i b
    rcases addressValue m i with - | value <;> rfl
  have hget : ∀ (f : Fin 4 → UInt8) (i : Fin 4), (Vector.ofFn f).get i = f i :=
    fun f i => Vector.getElem_ofFn i.isLt
  simp only [overlay, overlayPorts_overlayPorts, hget, hbyte]

/-- **Applying a text with success overlays the settings with what it gives.** -/
theorem applyLegacy_eq_ok_iff {s s' : Settings} {text : String} :
    s.applyLegacy text = (s', .ok ()) ↔
      Readable (KeyValues.ofText text).value? ∧ s' = s.overlay (KeyValues.ofText text).value? ∧
        s'.validate = .ok () := by
  rw [applyLegacy_eq_ok_iff_edited]
  refine and_congr_right fun _ => and_congr_left fun hvalid => ?_
  -- the ports that have entries are among those of the outcome, which is valid
  have hnumbers := numbers_nodup_of_validate hvalid
  constructor
  · rintro rfl
    rw [edited_eq] at hnumbers
    have hkept := numbers_prefix_foldl (KeyValues.ofText text).value? legacyPorts s.serial
    exact edited_eq_overlay (List.Nodup.sublist hkept.sublist hnumbers)
  · rintro rfl
    rw [overlay, numbers_overlayPorts] at hnumbers
    exact (edited_eq_overlay (List.nodup_append.mp hnumbers).1).symm

/-- **What a text of the older format does.**  It gives each key the value that
its first line assigns.  It is applied with success exactly when every value
that counts can be read and the settings with all that is given are valid, and
these are the outcome.  Applied again, it succeeds and changes nothing; with its
lines rearranged, it does the same to all settings. -/
theorem applyLegacy_overlay (s : Settings) (text : String) :
    let m := (KeyValues.ofText text).value?
    (∀ key value,
      m key = some value ↔ FirstAssigned (Text.lines text.toList) key value) ∧
    (∀ s', s.applyLegacy text = (s', .ok ()) ↔
      Readable m ∧ s' = s.overlay m ∧ s'.validate = .ok ()) ∧
    (∀ s', s.applyLegacy text = (s', .ok ()) → s'.applyLegacy text = (s', .ok ())) ∧
    ∀ text', Rearranged (Text.lines text.toList) (Text.lines text'.toList) →
      s.applyLegacy text' = s.applyLegacy text := by
  refine ⟨fun _ _ => KeyValues.value?_eq_some_iff, fun _ => applyLegacy_eq_ok_iff, ?_, ?_⟩
  · intro s' happlied
    obtain ⟨hreadable, rfl, hvalid⟩ := applyLegacy_eq_ok_iff.mp happlied
    exact applyLegacy_eq_ok_iff.mpr ⟨hreadable, (overlay_overlay _ s).symm, hvalid⟩
  · intro text' hlines
    exact (applyLegacy_congr (KeyValues.value?_rearranged hlines) s).symm

/-- With an entry for port 2 alone, the text below gives port 3 a new entry for
its baud rate and port 1 another for its line format, in that order of numbers,
and leaves port 2, whose format is incomplete. -/
theorem applyLegacy_overlay_incomplete :
    let s : Settings := { serial := [.forPort 2] }
    let text := "IP4 = 9\nSerial3Baud=4800\nSerial2Parity=E\n# IP1=7\nIP4=8\n" ++
      "Serial1DataBits=7\nSerial1Parity=?\nSerial1StopBits=2"
    let s' : Settings := { s with
      network := { s.network with ip := #v[0, 0, 0, 9] }
      serial := [.forPort 2, { SerialSettings.forPort 1 with dataBits := 7, stopBits := 2 },
        { SerialSettings.forPort 3 with baudRate := 4800 }] }
    s.applyLegacy text = (s', .ok ()) ∧ s'.applyLegacy text = (s', .ok ()) := by
  exact ⟨rfl, (applyLegacy_overlay { serial := [.forPort 2] } _).2.2.1 _ rfl⟩

end Settings

end MotionBridge
