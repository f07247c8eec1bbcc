/-
MotionBridge/Proofs/Settings/Validity.lean

Which settings are valid, and what is reported of the others.

The check of the serial ports goes through them once and remembers the numbers
and TCP ports that are taken.  That each is held against those ahead comes to the
same as that all are apart from each other (`fresh_cons_iff`), so that valid
settings are those that are `WellFormed`, in which no order of the entries shows.

Of other settings the `FirstFault` is reported: the general settings come first,
and then the first entry that does not fit in beside those ahead of it.
-/
import MotionBridge.Settings.Validate

namespace MotionBridge

/-- **The TCP port that goes with a number is within range**: the sum is never
cut. -/
theorem SerialSettings.toNat_effectivePort (p : SerialSettings) :
    p.effectivePort.toNat = (p.tcpPort.map UInt16.toNat).getD (10000 + p.number.toNat) := by
  rw [effectivePort]
  rcases p.tcpPort with - | port
  · have hnumber := p.number.toNat_lt
    have h10000 : (10000 : UInt16).toNat = 10000 := rfl
    show (10000 + p.number.toUInt16).toNat = 10000 + p.number.toNat
    rw [UInt16.toNat_add, UInt8.toNat_toUInt16]
    omega
  · rfl

namespace Settings

/-! ### What is asked of settings -/

/-- Settings that can be used. -/
structure WellFormed (s : Settings) : Prop where
  backend : s.bus.backend ∈ backends
  attempts : 1 ≤ s.bus.attempts
  maxFrame : 3 ≤ s.network.maxFrame
  watchedBit : s.board.watchedBit.toNat ≤ 7
  numbers : (s.serial.map (·.number)).Nodup
  ports : (s.network.commandPort :: s.serial.map (·.effectivePort)).Nodup
  rings : ∀ p ∈ s.serial, p.ringCapacity ≠ 0

/-- What is reported of the general settings. -/
inductive GeneralFault (s : Settings) : SettingsError → Prop
  | backend (h : s.bus.backend ∉ backends) : GeneralFault s (.unknownBackend s.bus.backend)
  | attempts (hbackend : s.bus.backend ∈ backends) (h : s.bus.attempts = 0) :
      GeneralFault s .noAttempts
  | maxFrame (hbackend : s.bus.backend ∈ backends) (hattempts : s.bus.attempts ≠ 0)
      (h : s.network.maxFrame < 3) : GeneralFault s .frameLimitTooSmall
  | watchedBit (hbackend : s.bus.backend ∈ backends) (hattempts : s.bus.attempts ≠ 0)
      (hmaxFrame : ¬ s.network.maxFrame < 3) (h : 7 < s.board.watchedBit) :
      GeneralFault s .watchedBitOutOfRange

/-- What is reported of an entry beside the numbers and TCP ports that are taken:
the number comes before the port, and that before the capacity. -/
inductive EntryFault (taken : List UInt8) (tcp : List UInt16) (p : SerialSettings) :
    SettingsError → Prop
  | number (h : p.number ∈ taken) : EntryFault taken tcp p (.duplicateNumber p.number)
  | port (hnumber : p.number ∉ taken) (h : p.effectivePort ∈ tcp) :
      EntryFault taken tcp p (.duplicatePort p.effectivePort)
  | ring (hnumber : p.number ∉ taken) (hport : p.effectivePort ∉ tcp)
      (h : p.ringCapacity = 0) : EntryFault taken tcp p (.emptyRing p.number)

/-- What is reported of settings. -/
inductive FirstFault (s : Settings) : SettingsError → Prop
  | general {e : SettingsError} (h : GeneralFault s e) : FirstFault s e
  /-- With the entries ahead alone the settings can be used, and beside them the
  next entry is at fault. -/
  | entry {ahead behind : List SerialSettings} {p : SerialSettings} {e : SettingsError}
      (hserial : s.serial = ahead ++ p :: behind)
      (hahead : WellFormed { s with serial := ahead })
      (h : EntryFault (ahead.map (·.number))
        (s.network.commandPort :: ahead.map (·.effectivePort)) p e) : FirstFault s e

/-! ### One entry -/

/-- An entry can be used beside what is taken. -/
structure EntryFits (taken : List UInt8) (tcp : List UInt16) (p : SerialSettings) : Prop where
  number : p.number ∉ taken
  port : p.effectivePort ∉ tcp
  ring : p.ringCapacity ≠ 0

variable {taken taken' : List UInt8} {tcp tcp' : List UInt16} {p : SerialSettings}
  {e e' : SettingsError} {entries : List SerialSettings}

theorem entryFits_or_fault (taken : List UInt8) (tcp : List UInt16) (p : SerialSettings) :
    EntryFits taken tcp p ∨ ∃ e, EntryFault taken tcp p e := by
  by_cases hnumber : p.number ∈ taken
  · exact .inr ⟨_, .number hnumber⟩
  · by_cases hport : p.effectivePort ∈ tcp
    · exact .inr ⟨_, .port hnumber hport⟩
    · by_cases hring : p.ringCapacity = 0
      · exact .inr ⟨_, .ring hnumber hport hring⟩
      · exact .inl ⟨hnumber, hport, hring⟩

theorem EntryFault.not_fits (h : EntryFault taken tcp p e) : ¬ EntryFits taken tcp p := by
  intro hfits
  cases h with
  | number h => exact hfits.number h
  | port _ h => exact hfits.port h
  | ring _ _ h => exact hfits.ring h

/-- The order in which numbers and ports were taken is no matter. -/
theorem EntryFault.of_perm (h : EntryFault taken tcp p e) (htaken : taken.Perm taken')
    (htcp : tcp.Perm tcp') : EntryFault taken' tcp' p e := by
  cases h with
  | number h => exact .number (htaken.mem_iff.mp h)
  | port hnumber h => exact .port (mt htaken.mem_iff.mpr hnumber) (htcp.mem_iff.mp h)
  | ring hnumber hport h =>
    exact .ring (mt htaken.mem_iff.mpr hnumber) (mt htcp.mem_iff.mpr hport) h

theorem EntryFits.checkSerial_cons (h : EntryFits taken tcp p) (rest : List SerialSettings) :
    checkSerial taken tcp (p :: rest)
      = checkSerial (p.number :: taken) (p.effectivePort :: tcp) rest := by
  rw [checkSerial, if_neg h.number, if_neg h.port, if_neg h.ring]

theorem EntryFault.checkSerial_cons (h : EntryFault taken tcp p e) (rest : List SerialSettings) :
    checkSerial taken tcp (p :: rest) = .error e := by
  cases h with
  | number h => rw [checkSerial, if_pos h]
  | port hnumber h => rw [checkSerial, if_neg hnumber, if_pos h]
  | ring hnumber hport h => rw [checkSerial, if_neg hnumber, if_neg hport, if_pos h]

/-- Of an entry no more than one fault is reported. -/
theorem EntryFault.unique (h : EntryFault taken tcp p e) (h' : EntryFault taken tcp p e') :
    e = e' :=
  Except.error.inj ((h.checkSerial_cons []).symm.trans (h'.checkSerial_cons []))

/-! ### All entries -/

/-- A property of entries is different for all, and from what is taken. -/
structure Fresh {α : Type} (f : SerialSettings → α) (taken : List α)
    (entries : List SerialSettings) : Prop where
  nodup : (entries.map f).Nodup
  not_mem : ∀ p ∈ entries, f p ∉ taken

/-- **All are apart from each other when each is apart from those ahead.** -/
theorem fresh_cons_iff {α : Type} {f : SerialSettings → α} {taken : List α} :
    Fresh f taken (p :: entries) ↔ f p ∉ taken ∧ Fresh f (f p :: taken) entries := by
  -- that `p` is apart from the entries behind is said once, by either side of the `iff`
  constructor
  · rintro ⟨hnodup, hfresh⟩
    obtain ⟨hfirst, hrest⟩ := List.nodup_cons.mp hnodup
    obtain ⟨hp, hfresh⟩ := List.forall_mem_cons.mp hfresh
    refine ⟨hp, hrest, fun q hq => ?_⟩
    refine List.not_mem_cons_of_ne_of_not_mem (fun heq => ?_) (hfresh q hq)
    exact hfirst (heq ▸ List.mem_map_of_mem hq)
  · rintro ⟨hp, hrest, hfresh⟩
    refine ⟨List.nodup_cons.mpr ⟨fun hmem => ?_, hrest⟩, List.forall_mem_cons.mpr ⟨hp, ?_⟩⟩
    · obtain ⟨q, hq, heq⟩ := List.mem_map.mp hmem
      exact hfresh q hq (heq ▸ List.mem_cons_self)
    · exact fun q hq => mt (List.mem_cons_of_mem _) (hfresh q hq)

/-- Entries can be used beside each other and beside what is taken. -/
structure SerialFits (taken : List UInt8) (tcp : List UInt16)
    (entries : List SerialSettings) : Prop where
  numbers : Fresh (·.number) taken entries
  ports : Fresh (·.effectivePort) tcp entries
  rings : ∀ p ∈ entries, p.ringCapacity ≠ 0

theorem serialFits_nil (taken : List UInt8) (tcp : List UInt16) : SerialFits taken tcp [] :=
  ⟨⟨List.nodup_nil, nofun⟩, ⟨List.nodup_nil, nofun⟩, nofun⟩

theorem serialFits_cons_iff :
    SerialFits taken tcp (p :: entries) ↔
      EntryFits taken tcp p ∧ SerialFits (p.number :: taken) (p.effectivePort :: tcp) entries := by
  constructor
  · rintro ⟨hnumbers, hports, hrings⟩
    obtain ⟨hnumber, hnumbers⟩ := fresh_cons_iff.mp hnumbers
    obtain ⟨hport, hports⟩ := fresh_cons_iff.mp hports
    obtain ⟨hring, hrings⟩ := List.forall_mem_cons.mp hrings
    exact ⟨⟨hnumber, hport, hring⟩, hnumbers, hports, hrings⟩
  · rintro ⟨⟨hnumber, hport, hring⟩, hnumbers, hports, hrings⟩
    exact ⟨fresh_cons_iff.mpr ⟨hnumber, hnumbers⟩, fresh_cons_iff.mpr ⟨hport, hports⟩,
      List.forall_mem_cons.mpr ⟨hring, hrings⟩⟩

theorem checkSerial_eq_ok_iff :
    checkSerial taken tcp entries = .ok () ↔ SerialFits taken tcp entries := by
  induction entries generalizing taken tcp with
  | nil => exact iff_of_true rfl (serialFits_nil taken tcp)
  | cons p rest ih =>
    rw [serialFits_cons_iff]
    obtain hfits | ⟨e, hfault⟩ := entryFits_or_fault taken tcp p
    · rw [hfits.checkSerial_cons, ih, and_iff_right hfits]
    · rw [hfault.checkSerial_cons]
      exact iff_of_false nofun fun h => hfault.not_fits h.1

/-- **The first entry at fault is reported**, as it is beside those ahead of it. -/
theorem checkSerial_eq_error_iff :
    checkSerial taken tcp entries = .error e ↔
      ∃ ahead p behind, entries = ahead ++ p :: behind ∧ SerialFits taken tcp ahead ∧
        EntryFault (ahead.map (·.number) ++ taken) (ahead.map (·.effectivePort) ++ tcp) p e := by
  induction entries generalizing taken tcp with
  | nil =>
    refine iff_of_false nofun ?_
    rintro ⟨ahead, p, behind, hnil, -⟩
    exact List.cons_ne_nil _ _ (List.append_eq_nil_iff.mp hnil.symm).2
  | cons p rest ih =>
    obtain hfits | ⟨first, hfault⟩ := entryFits_or_fault taken tcp p
    · -- the entry at fault, if any, is behind `p`
      rw [hfits.checkSerial_cons, ih]
      constructor
      · rintro ⟨ahead, q, behind, rfl, hahead, hfault⟩
        exact ⟨p :: ahead, q, behind, rfl, serialFits_cons_iff.mpr ⟨hfits, hahead⟩,
          hfault.of_perm List.perm_middle List.perm_middle⟩
      · rintro ⟨- | ⟨q, ahead⟩, r, behind, heq, hahead, hfault⟩
        · obtain ⟨rfl, -⟩ := List.cons.inj heq
          exact absurd hfits hfault.not_fits
        · obtain ⟨rfl, rfl⟩ := List.cons.inj heq
          exact ⟨ahead, r, behind, rfl, (serialFits_cons_iff.mp hahead).2,
            hfault.of_perm List.perm_middle.symm List.perm_middle.symm⟩
    · -- `p` itself is at fault, and none is ahead of it
      rw [hfault.checkSerial_cons]
      constructor
      · intro heq
        obtain rfl := Except.error.inj heq
        exact ⟨[], p, rest, rfl, serialFits_nil taken tcp, hfault⟩
      · rintro ⟨- | ⟨q, ahead⟩, r, behind, heq, hahead, hfault'⟩
        · obtain ⟨rfl, -⟩ := List.cons.inj heq
          exact congrArg _ (hfault.unique hfault')
        · obtain ⟨rfl, -⟩ := List.cons.inj heq
          exact absurd (serialFits_cons_iff.mp hahead).1 hfault.not_fits

/-! ### All settings -/

variable {s : Settings}

/-- The general settings can be used. -/
structure GeneralFits (s : Settings) : Prop where
  backend : s.bus.backend ∈ backends
  attempts : s.bus.attempts ≠ 0
  maxFrame : ¬ s.network.maxFrame < 3
  watchedBit : ¬ 7 < s.board.watchedBit

theorem generalFits_or_fault (s : Settings) : GeneralFits s ∨ ∃ e, GeneralFault s e := by
  by_cases hbackend : s.bus.backend ∈ backends
  · by_cases hattempts : s.bus.attempts = 0
    · exact .inr ⟨_, .attempts hbackend hattempts⟩
    · by_cases hmaxFrame : s.network.maxFrame < 3
      · exact .inr ⟨_, .maxFrame hbackend hattempts hmaxFrame⟩
      · by_cases hwatchedBit : 7 < s.board.watchedBit
        · exact .inr ⟨_, .watchedBit hbackend hattempts hmaxFrame hwatchedBit⟩
        · exact .inl ⟨hbackend, hattempts, hmaxFrame, hwatchedBit⟩
  · exact .inr ⟨_, .backend hbackend⟩

theorem GeneralFault.not_fits (h : GeneralFault s e) : ¬ GeneralFits s := by
  intro hfits
  cases h with
  | backend h => exact h hfits.backend
  | attempts _ h => exact hfits.attempts h
  | maxFrame _ _ h => exact hfits.maxFrame h
  | watchedBit _ _ _ h => exact hfits.watchedBit h

theorem GeneralFits.validate_eq (h : GeneralFits s) :
    s.validate = checkSerial [] [s.network.commandPort] s.serial := by
  rw [validate, if_neg (not_not_intro h.backend), if_neg h.attempts, if_neg h.maxFrame,
    if_neg h.watchedBit]

theorem GeneralFault.validate_eq (h : GeneralFault s e) : s.validate = .error e := by
  cases h with
  | backend h => rw [validate, if_pos h]
  | attempts hbackend h => rw [validate, if_neg (not_not_intro hbackend), if_pos h]
  | maxFrame hbackend hattempts h =>
    rw [validate, if_neg (not_not_intro hbackend), if_neg hattempts, if_pos h]
  | watchedBit hbackend hattempts hmaxFrame h =>
    rw [validate, if_neg (not_not_intro hbackend), if_neg hattempts, if_neg hmaxFrame, if_pos h]

/-- At first no number is taken, and the TCP port for commands. -/
theorem wellFormed_iff :
    s.WellFormed ↔ GeneralFits s ∧ SerialFits [] [s.network.commandPort] s.serial := by
  have hwatchedBit : ¬ 7 < s.board.watchedBit ↔ s.board.watchedBit.toNat ≤ 7 :=
    (not_congr UInt8.lt_iff_toNat_lt).trans Nat.not_lt
  constructor
  · intro h
    obtain ⟨hcommand, hports⟩ := List.nodup_cons.mp h.ports
    refine ⟨⟨h.backend, Nat.one_le_iff_ne_zero.mp h.attempts, Nat.not_lt.mpr h.maxFrame,
      hwatchedBit.mpr h.watchedBit⟩, ⟨h.numbers, fun _ _ => List.not_mem_nil⟩, ⟨hports, ?_⟩,
      h.rings⟩
    intro p hp hmem
    exact hcommand (List.mem_singleton.mp hmem ▸ List.mem_map_of_mem hp)
  · rintro ⟨hgeneral, hnumbers, hports, hrings⟩
    refine ⟨hgeneral.backend, Nat.one_le_iff_ne_zero.mpr hgeneral.attempts,
      Nat.not_lt.mp hgeneral.maxFrame, hwatchedBit.mp hgeneral.watchedBit, hnumbers.nodup,
      List.nodup_cons.mpr ⟨fun hmem => ?_, hports.nodup⟩, hrings⟩
    obtain ⟨p, hp, heq⟩ := List.mem_map.mp hmem
    exact hports.not_mem p hp (List.mem_singleton.mpr heq)

theorem validate_eq_ok_iff : s.validate = .ok () ↔ s.WellFormed := by
  rw [wellFormed_iff]
  obtain hgeneral | ⟨e, hfault⟩ := generalFits_or_fault s
  · rw [hgeneral.validate_eq, checkSerial_eq_ok_iff, and_iff_right hgeneral]
  · rw [hfault.validate_eq]
    exact iff_of_false nofun fun h => hfault.not_fits h.1

theorem validate_eq_error_iff : s.validate = .error e ↔ FirstFault s e := by
  obtain hgeneral | ⟨first, hfault⟩ := generalFits_or_fault s
  · -- the general settings are the same without the entry at fault and those behind it
    have hahead : ∀ ahead, WellFormed { s with serial := ahead } ↔
        SerialFits [] [s.network.commandPort] ahead := by
      intro ahead
      have hsame : GeneralFits { s with serial := ahead } :=
        ⟨hgeneral.backend, hgeneral.attempts, hgeneral.maxFrame, hgeneral.watchedBit⟩
      rw [wellFormed_iff, and_iff_right hsame]
    rw [hgeneral.validate_eq, checkSerial_eq_error_iff]
    constructor
    · rintro ⟨ahead, p, behind, hserial, hfits, hfault⟩
      rw [List.append_nil] at hfault
      exact .entry hserial ((hahead ahead).mpr hfits)
        (hfault.of_perm (.refl _) (List.perm_append_singleton _ _))
    · rintro (hfault | ⟨hserial, hfits, hfault⟩)
      · exact absurd hgeneral hfault.not_fits
      · refine ⟨_, _, _, hserial, (hahead _).mp hfits, ?_⟩
        rw [List.append_nil]
        exact hfault.of_perm (.refl _) (List.perm_append_singleton _ _).symm
  · -- with general settings at fault, no entries ahead make settings that can be used
    rw [hfault.validate_eq]
    constructor
    · intro heq
      exact .general (Except.error.inj heq ▸ hfault)
    · rintro (hfault' | ⟨-, hfits, -⟩)
      · exact hfault.validate_eq.symm.trans hfault'.validate_eq
      · have hgeneral := (wellFormed_iff.mp hfits).1
        exact absurd ⟨hgeneral.backend, hgeneral.attempts, hgeneral.maxFrame, hgeneral.watchedBit⟩
          hfault.not_fits

/-- No order of the entries shows in what is asked of them. -/
theorem WellFormed.of_perm (h : s.WellFormed) (hperm : s.serial.Perm entries) :
    WellFormed { s with serial := entries } where
  backend := h.backend
  attempts := h.attempts
  maxFrame := h.maxFrame
  watchedBit := h.watchedBit
  numbers := (hperm.map _).nodup_iff.mp h.numbers
  ports := ((hperm.map _).cons _).nodup_iff.mp h.ports
  rings := fun p hp => h.rings p (hperm.mem_iff.mpr hp)

/-- **Settings are valid exactly when they are well-formed**, in whatever order
their entries are; of others the first fault is reported.  The TCP port of an
entry is the one given, or else 10000 and the number, which 16 bits hold. -/
theorem validate_exact (s : Settings) :
    (s.validate = .ok () ↔ s.WellFormed) ∧
      (∀ e, s.validate = .error e ↔ FirstFault s e) ∧
      (∀ entries, s.serial.Perm entries →
        ({ s with serial := entries }.validate = .ok () ↔ s.validate = .ok ())) ∧
      ∀ p : SerialSettings,
        p.effectivePort.toNat = (p.tcpPort.map UInt16.toNat).getD (10000 + p.number.toNat) := by
  refine ⟨validate_eq_ok_iff, fun e => validate_eq_error_iff, ?_,
    SerialSettings.toNat_effectivePort⟩
  intro entries hperm
  rw [validate_eq_ok_iff, validate_eq_ok_iff]
  exact ⟨fun h => h.of_perm hperm.symm, fun h => h.of_perm hperm⟩

/-- A given TCP port that goes with the number of another entry is refused, whichever
of the two stands ahead. -/
theorem validate_exact_of_clash :
    let entries : List SerialSettings :=
      [{ SerialSettings.forPort 1 with tcpPort := some 10002 }, .forPort 2]
    let s : Settings := { serial := entries }
    let swapped : Settings := { serial := entries.reverse }
    FirstFault s (.duplicatePort 10002) ∧ entries.Perm entries.reverse ∧
      swapped.validate ≠ .ok () := by
  intro entries s swapped
  have hclash : s.validate = .error (.duplicatePort 10002) := rfl
  have hperm : entries.Perm entries.reverse := (List.reverse_perm entries).symm
  obtain ⟨-, hfault, hanyOrder, -⟩ := validate_exact s
  refine ⟨(hfault _).mp hclash, hperm, fun hswapped => ?_⟩
  have hok := (hanyOrder entries.reverse hperm).mp hswapped
  rw [hclash] at hok
  cases hok

end Settings

end MotionBridge
