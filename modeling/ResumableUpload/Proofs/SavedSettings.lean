import ResumableUpload.Proofs.PlainLines
import ResumableUpload.Settings.File

/-!
# Saved settings

Settings are saved unless a number in them is too large for TOML, and then the file stays as it was.
What is saved is loaded again: every text in the spelling chosen for it, and an absent timeout as
absent.

* `Settings.Exceeds` : a number is too large.
* `Settings.lines?_eq` : what is written.
* `Settings.ofEntries?_tabled` : what its entries say.
* `Settings.persists` : what becomes of settings that are saved and loaded again.
-/

namespace ResumableUpload.Settings

open Toml (PlainLine Value tabled)

variable {s : Settings}

/-- A number in the settings is larger than the largest integer in TOML. -/
def Exceeds (s : Settings) : Prop :=
  2 ^ 63 - 1 < s.retryDelayMs.toNat ∨ 2 ^ 63 - 1 < s.keepaliveSecs.toNat ∨
    ∃ n ∈ s.idleTimeoutSecs, 2 ^ 63 - 1 < n.toNat

instance : Decidable s.Exceeds := inferInstanceAs (Decidable (_ ∨ _ ∨ _))

/-! ### What is written -/

/-- The line of a text. -/
def textLine (key text : String) : PlainLine :=
  ⟨key, Toml.writeString text.toList, .text text⟩

/-- The line of a flag. -/
def flagLine (key : String) (b : Bool) : PlainLine :=
  ⟨key, if b then "true".toList else "false".toList, .flag b⟩

/-- The line of a number. -/
def numberLine (key : String) (n : UInt64) : PlainLine :=
  ⟨key, Nat.toDigits 10 n.toNat, .integer n.toNat⟩

section Lines

variable (key text : String) (b : Bool) (n : UInt64)

@[simp] theorem textLine_key : (textLine key text).key = key := rfl

@[simp] theorem textLine_value : (textLine key text).value = .text text := rfl

@[simp] theorem flagLine_key : (flagLine key b).key = key := rfl

@[simp] theorem flagLine_value : (flagLine key b).value = .flag b := rfl

@[simp] theorem numberLine_key : (numberLine key n).key = key := rfl

@[simp] theorem numberLine_value : (numberLine key n).value = .integer n.toNat := rfl

end Lines

/-- The lines of the settings file. -/
def plainLines (s : Settings) : List PlainLine :=
  [textLine "server_host" s.serverHost, flagLine "secure" s.secure,
    textLine "endpoint_path" s.endpointPath, numberLine "retry_delay_ms" s.retryDelayMs,
    numberLine "keepalive_secs" s.keepaliveSecs] ++
      s.idleTimeoutSecs.toList.map (numberLine "idle_timeout_secs")

theorem number?_of_le {n : UInt64} (h : n.toNat ≤ 2 ^ 63 - 1) :
    number? n = some (Nat.toDigits 10 n.toNat) :=
  if_pos (by omega)

theorem number?_of_lt {n : UInt64} (h : 2 ^ 63 - 1 < n.toNat) : number? n = none :=
  if_neg (by omega)

theorem not_exceeds_iff : ¬s.Exceeds ↔ s.retryDelayMs.toNat ≤ 2 ^ 63 - 1 ∧
    s.keepaliveSecs.toNat ≤ 2 ^ 63 - 1 ∧ ∀ n ∈ s.idleTimeoutSecs, n.toNat ≤ 2 ^ 63 - 1 := by
  simp [Exceeds]

theorem lines?_of_fits (h : ¬s.Exceeds) : s.lines? = some (s.plainLines.map (·.text)) := by
  obtain ⟨hretry, hkeepalive, hidle⟩ := not_exceeds_iff.1 h
  rw [lines?, number?_of_le hretry, number?_of_le hkeepalive, plainLines]
  cases hsome : s.idleTimeoutSecs with
  | none => rfl
  | some n =>
    rw [hsome] at hidle
    simp only [number?_of_le (hidle n rfl)]
    rfl

theorem lines?_of_exceeds (h : s.Exceeds) : s.lines? = none := by
  rcases h with hretry | hkeepalive | ⟨n, hn, hidle⟩
  · rw [lines?, number?_of_lt hretry]
    rfl
  · rw [lines?, number?_of_lt hkeepalive]
    cases number? s.retryDelayMs <;> rfl
  · rw [lines?, Option.mem_def.1 hn]
    simp only [number?_of_lt hidle, Option.map_none]
    cases number? s.retryDelayMs with
    | none => rfl
    | some retry => cases number? s.keepaliveSecs <;> rfl

/-! ### What is read -/

theorem isFaithful_textLine {key : String} (h : Toml.IsBareKey key) (text : String) :
    (textLine key text).IsFaithful :=
  ⟨h, Toml.readBack_text text⟩

theorem isFaithful_flagLine {key : String} (h : Toml.IsBareKey key) (b : Bool) :
    (flagLine key b).IsFaithful :=
  ⟨h, Toml.readBack_flag b⟩

theorem isFaithful_numberLine {key : String} {n : UInt64} (h : Toml.IsBareKey key)
    (hn : n.toNat ≤ 2 ^ 63 - 1) : (numberLine key n).IsFaithful :=
  ⟨h, Toml.readBack_integer (by omega)⟩

theorem isFaithful_plainLines (h : ¬s.Exceeds) : ∀ l ∈ s.plainLines, l.IsFaithful := by
  obtain ⟨hretry, hkeepalive, hidle⟩ := not_exceeds_iff.1 h
  intro l hl
  simp only [plainLines, List.cons_append, List.nil_append, List.mem_cons, List.mem_map,
    Option.mem_toList] at hl
  rcases hl with rfl | rfl | rfl | rfl | rfl | ⟨n, hn, rfl⟩
  · exact isFaithful_textLine (by decide) _
  · exact isFaithful_flagLine (by decide) _
  · exact isFaithful_textLine (by decide) _
  · exact isFaithful_numberLine (by decide) hretry
  · exact isFaithful_numberLine (by decide) hkeepalive
  · exact isFaithful_numberLine (by decide) (hidle n hn)

theorem nodup_plainLines (s : Settings) : (s.plainLines.map (·.key)).Nodup := by
  cases hidle : s.idleTimeoutSecs <;> simp [plainLines, hidle]

theorem wordOf?_integer (n : UInt64) : wordOf? (.integer n.toNat) = some n := by
  simp [wordOf?]

/-- Each entry is found under its key, and an absent timeout is not found. -/
theorem ofEntries?_tabled (s : Settings) : ofEntries? (tabled [] s.plainLines) = some s := by
  obtain ⟨host, secure, path, retry, keepalive, idle⟩ := s
  cases idle with
  | none =>
    simp [ofEntries?, setting?, plainLines, tabled, textOf?, flagOf?, wordOf?_integer, standard]
  | some n =>
    simp [ofEntries?, setting?, plainLines, tabled, textOf?, flagOf?, wordOf?_integer]

/-! ### Files -/

theorem fromUTF8?_toUTF8 (text : String) : String.fromUTF8? text.toUTF8 = some text := by
  rw [String.fromUTF8?, String.toUTF8_eq_toByteArray, dif_pos text.isValidUTF8]
  rfl

theorem ofToml?_plainLines (h : ¬s.Exceeds) :
    ofToml? (String.ofList (s.plainLines.flatMap (·.text))) = some s := by
  rw [ofToml?, Toml.parse_plain (isFaithful_plainLines h) (nodup_plainLines s)]
  exact ofEntries?_tabled s

theorem save_of_exceeds (h : s.Exceeds) (file : Option ByteArray) :
    s.save file = (.error .outOfRange, file) := by
  rw [save, toToml?, lines?_of_exceeds h]
  rfl

theorem save_of_fits (h : ¬s.Exceeds) (file : Option ByteArray) :
    s.save file = (.ok (), some (String.ofList (s.plainLines.flatMap (·.text))).toUTF8) := by
  rw [save, toToml?, lines?_of_fits h, List.flatMap_def]
  rfl

theorem load_saved (h : ¬s.Exceeds) :
    load (some (String.ofList (s.plainLines.flatMap (·.text))).toUTF8) = .ok s := by
  simp only [load, fromUTF8?_toUTF8, ofToml?_plainLines h, Option.getD_some]

/-- What becomes of settings that are saved in a file, which may be there already. -/
structure Persists (s : Settings) (file : Option ByteArray) : Prop where
  fails_iff : (∃ e, (s.save file).1 = .error e) ↔ s.Exceeds
  unchanged : s.Exceeds → (s.save file).2 = file
  /-- They are loaded again as they were. -/
  reloads : ¬s.Exceeds → load (s.save file).2 = .ok s

/-- **Settings that are saved are loaded again**, and others leave the file as it was. -/
theorem persists (s : Settings) (file : Option ByteArray) : Persists s file where
  fails_iff := by
    by_cases h : s.Exceeds
    · rw [save_of_exceeds h]
      exact iff_of_true ⟨_, rfl⟩ h
    · rw [save_of_fits h]
      exact iff_of_false (by simp) h
  unchanged h := by rw [save_of_exceeds h]
  reloads h := by
    rw [save_of_fits h]
    exact load_saved h

/-- The largest number that can be saved, and the one after it. -/
example : ¬{ standard with retryDelayMs := 0x7fffffffffffffff }.Exceeds ∧
    { standard with retryDelayMs := 0x8000000000000000 }.Exceeds := by decide

end ResumableUpload.Settings
